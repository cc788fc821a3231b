import CardArchive.Proofs.JsonDocument
import CardArchive.Proofs.RowCells

/-!
# What a line is refused for

A line is read by the last values that its keys have: nothing else about it matters. What is wrong
with it is ranked. A line that is no object comes first, then a key that is not there, then a value
of a wrong type, and the population comes last. Keys are missed in the order of the columns, while
values are taken in the order of their keys, which is another one.
-/

namespace CardArchive

/-! ## The values of a record -/

/-- The keys that columns are read from, with the types of the columns. -/
def sourceKeys : List (String × ColumnType) :=
  cardColumns.filterMap fun c => c.key.map fun key => (key, c.type)

/-- The value under a key that may come several times: the last one. -/
def lastValue (pairs : List (String × Json)) (key : String) : Option Json :=
  pairs.reverse.lookup key

/-- The same, where a key that may be left out counts as null. -/
def sourceValue (pairs : List (String × Json)) (key : String) : Option Json :=
  if key ∈ optionalKeys then some ((lastValue pairs key).getD .null) else lastValue pairs key

/-- What a column does not take. A text column takes every scalar, and a JSON column everything. -/
inductive Refuses : ColumnType → Json → Defect → Prop where
  | array (items : List Json) : Refuses .text (.array items) (.notAText (.array items))
  | object (members : Json.Members) : Refuses .text (.object members) (.notAText (.object members))
  /-- An identifier has 64 bits with a sign. -/
  | tooLarge {n : Int} (h : ¬(-0x8000000000000000 ≤ n ∧ n < 0x8000000000000000)) :
    Refuses .integer (.integer n) (.integerTooLarge n)
  | notAnInteger {v : Json} (h : ∀ n, v ≠ .integer n) : Refuses .integer v (.notAnInteger v)

/-! ## What can be wrong with a record -/

section

variable (pairs : List (String × Json))

/-- All keys that every record has are there, whatever lies under them. -/
def Complete : Prop := ∀ key ∈ requiredKeys, lastValue pairs key ≠ none

/-- The first key that is missing, in the order of the columns. -/
def FirstMissing (key : String) : Prop :=
  ∃ before after, requiredKeys = before ++ key :: after ∧ lastValue pairs key = none ∧
    ∀ earlier ∈ before, lastValue pairs earlier ≠ none

/-- Under the key lies a value that its column does not take. -/
def IllTyped (key : String) (defect : Defect) : Prop :=
  ∃ type value, (key, type) ∈ sourceKeys ∧ lastValue pairs key = some value ∧
    Refuses type value defect

/-- The same, and there is no such key before it in the order of the keys. -/
def FirstIllTyped (key : String) (defect : Defect) : Prop :=
  IllTyped pairs key defect ∧ ∀ other d, IllTyped pairs other d → key ≤ other

/-- All keys are there, with values that the columns take. -/
structure WellFormed : Prop where
  complete : Complete pairs
  typed : ∀ key defect, ¬IllTyped pairs key defect

/-- The text of the description, where there is one. -/
def Describes (description : Option String) : Prop :=
  Cell.OfScalar ((lastValue pairs "DESCRIPTION").getD .null) (.ofText? description)

/-- Why the record is refused. -/
inductive RecordFails : RecordError → Prop where
  | missingField {key : String} (h : FirstMissing pairs key) : RecordFails (.missingField key)
  /-- No key is missing, and a value has a wrong type. -/
  | illTyped {key : String} {defect : Defect} (complete : Complete pairs)
    (h : FirstIllTyped pairs key defect) : RecordFails (.malformed defect)
  | population {description : Option String} {e : PopulationError} (wellFormed : WellFormed pairs)
    (hdescription : Describes pairs description) (h : population? description = .error e) :
    RecordFails (.population e)

/-- The record is well-formed and its description gives a population, or there is none to give. -/
def Accepted : Prop :=
  WellFormed pairs ∧ ∃ description population, Describes pairs description ∧
    population? description = .ok population

end

/-- Why a line is refused. -/
inductive LineFails (line : String) : RecordError → Prop where
  | syntaxError (h : ∀ v, ¬Json.ValueLine line v) : LineFails line (.malformed .syntaxError)
  | notAnObject {v : Json} (h : Json.ValueLine line v) (hv : ∀ members, v ≠ .object members) :
    LineFails line (.malformed .notAnObject)
  | record {pairs : List (String × Json)} {e : RecordError} (h : Json.ObjectLine line pairs)
    (hfails : RecordFails pairs e) : LineFails line e

variable {pairs : List (String × Json)} {key : String} {defect : Defect}

namespace Record

/-! ## Missing keys -/

theorem get?_ofList_eq_lastValue (pairs : List (String × Json)) (key : String) :
    (Json.Members.ofList pairs).get? key = lastValue pairs key :=
  Json.Members.get?_ofList pairs key

theorem missingKey?_eq_some_iff :
    missingKey? (Json.Members.ofList pairs) = some key ↔ FirstMissing pairs key := by
  simp only [missingKey?, List.find?_eq_some_iff_append, get?_ofList_eq_lastValue, FirstMissing,
    Option.isNone_iff_eq_none, Bool.not_eq_true', Option.isNone_eq_false_iff,
    Option.isSome_iff_ne_none]
  grind

theorem missingKey?_eq_none_iff :
    missingKey? (Json.Members.ofList pairs) = none ↔ Complete pairs := by
  simp only [missingKey?, List.find?_eq_none, get?_ofList_eq_lastValue, Complete,
    Option.isNone_iff_eq_none, ne_eq]

/-! ## Values of a wrong type -/

theorem text_eq_error_iff {v : Json} : text v = .error defect ↔ Refuses .text v defect := by
  constructor
  · intro h
    cases v with
    | array items => cases h; exact .array items
    | object members => cases h; exact .object members
    | _ => cases h
  · intro h
    cases h <;> rfl

theorem identifier_eq_error_iff {v : Json} :
    identifier v = .error defect ↔ Refuses .integer v defect := by
  constructor
  · intro h
    unfold identifier at h
    split at h
    · next n =>
      split at h
      · cases h
      · next hn =>
        cases h
        exact .tooLarge fun hfits => hn (Json.fitsInt64_iff.mpr hfits)
    · next hv =>
      cases h
      exact .notAnInteger hv
  · intro h
    cases h with
    | tooLarge hn =>
      rw [identifier, if_neg fun hfits => hn (Json.fitsInt64_iff.mp hfits)]
    | notAnInteger hv =>
      rw [identifier]
      exact hv

/-- The first of some keys with a value that its column does not take. -/
def FirstRefused (value : String → Json) (keys : List (String × ColumnType))
    (defect : Defect) : Prop :=
  ∃ before p after, keys = before ++ p :: after ∧ Refuses p.2 (value p.1) defect ∧
    ∀ q ∈ before, ∀ d, ¬Refuses q.2 (value q.1) d

/-- A value is taken, and then the others. -/
theorem bind_eq_error_iff {α β : Type} {x : Except Defect α} {k : α → Except Defect β}
    {value : String → Json} {p : String × ColumnType} {keys : List (String × ColumnType)}
    (hx : ∀ d, x = .error d ↔ Refuses p.2 (value p.1) d)
    (hk : ∀ a, k a = .error defect ↔ FirstRefused value keys defect) :
    x >>= k = .error defect ↔ FirstRefused value (p :: keys) defect := by
  cases x with
  | error d =>
    -- the first key is refused, so none behind it can be the first that is
    have hp := (hx d).mp rfl
    constructor
    · intro h
      cases h
      exact ⟨[], p, keys, rfl, hp, List.forall_mem_nil _⟩
    · rintro ⟨before, q, after, hkeys, hq, hbefore⟩
      cases before with
      | nil =>
        cases hkeys
        exact (hx defect).mpr hq ▸ rfl
      | cons first before =>
        cases hkeys
        exact absurd hp (hbefore p List.mem_cons_self d)
  | ok a =>
    have hp : ∀ d, ¬Refuses p.2 (value p.1) d := fun d hrefuses => by cases (hx d).mpr hrefuses
    refine Iff.trans (hk a) ⟨?_, ?_⟩
    · rintro ⟨before, q, after, rfl, hq, hbefore⟩
      exact ⟨p :: before, q, after, rfl, hq, List.forall_mem_cons.mpr ⟨hp, hbefore⟩⟩
    · rintro ⟨before, q, after, hkeys, hq, hbefore⟩
      cases before with
      | nil =>
        cases hkeys
        exact absurd hq (hp defect)
      | cons first before =>
        cases hkeys
        exact ⟨before, q, after, rfl, hq, (List.forall_mem_cons.mp hbefore).2⟩

/-- The keys whose values can be refused, in the order in which the values are taken. -/
def takenKeys : List (String × ColumnType) :=
  [ ("CARDCATEGORY", .text), ("CATEGORY", .text), ("DESCRIPTION", .text), ("FLAG", .text)
  , ("ID", .integer), ("MOTTO", .text), ("NAME", .text), ("REGION", .text), ("TYPE", .text) ]

theorem takenKeys_ascending : takenKeys.Pairwise fun p q => p.1 < q.1 := by decide

theorem mem_sourceKeys_of_mem_takenKeys {p : String × ColumnType} (h : p ∈ takenKeys) :
    p ∈ sourceKeys := by
  have hall : ∀ p ∈ takenKeys, p ∈ sourceKeys := by decide
  exact hall p h

theorem mem_takenKeys {p : String × ColumnType} (h : p ∈ sourceKeys) (htype : p.2 ≠ .json) :
    p ∈ takenKeys := by
  have hall : ∀ p ∈ sourceKeys, p.2 ≠ .json → p ∈ takenKeys := by decide
  exact hall p h htype

theorem ofMembers_eq_error_iff {members : Json.Members} :
    ofMembers members = .error defect ↔
      FirstRefused (fun key => (members.get? key).getD .null) takenKeys defect := by
  have htext : ∀ key d, text ((members.get? key).getD .null) = .error d ↔
      Refuses .text ((members.get? key).getD .null) d := fun _ _ => text_eq_error_iff
  refine bind_eq_error_iff (htext "CARDCATEGORY") fun cardCategory => ?_
  refine bind_eq_error_iff (htext "CATEGORY") fun category => ?_
  refine bind_eq_error_iff (htext "DESCRIPTION") fun description => ?_
  refine bind_eq_error_iff (htext "FLAG") fun flag => ?_
  refine bind_eq_error_iff (fun _ => identifier_eq_error_iff) fun id => ?_
  refine bind_eq_error_iff (htext "MOTTO") fun motto => ?_
  refine bind_eq_error_iff (htext "NAME") fun name => ?_
  refine bind_eq_error_iff (htext "REGION") fun region => ?_
  refine bind_eq_error_iff (htext "TYPE") fun type => ?_
  constructor
  · intro h
    cases h
  · rintro ⟨before, p, after, hkeys, -⟩
    cases before <;> cases hkeys

theorem mem_requiredKeys {p : String × ColumnType} (h : p ∈ sourceKeys) :
    p.1 ∈ requiredKeys ∨ p.2 = .text := by
  have hall : ∀ p ∈ sourceKeys, p.1 ∈ requiredKeys ∨ p.2 = .text := by decide
  exact hall p h

/-- Where all keys are there, a value that is refused lies under its key. -/
theorem illTyped_of_refuses (hcomplete : Complete pairs) {p : String × ColumnType}
    (hp : p ∈ takenKeys) (h : Refuses p.2 ((lastValue pairs p.1).getD .null) defect) :
    IllTyped pairs p.1 defect := by
  have hmem := mem_sourceKeys_of_mem_takenKeys hp
  cases hvalue : lastValue pairs p.1 with
  | some value =>
    rw [hvalue] at h
    exact ⟨p.2, value, hmem, hvalue, h⟩
  | none =>
    rw [hvalue] at h
    rcases mem_requiredKeys hmem with hrequired | htext
    · exact absurd hvalue (hcomplete p.1 hrequired)
    · rw [htext] at h
      cases h

/-- A key with a value of a wrong type is one of those that are taken. -/
theorem refuses_of_illTyped (h : IllTyped pairs key defect) :
    ∃ type, (key, type) ∈ takenKeys ∧ Refuses type ((lastValue pairs key).getD .null) defect := by
  obtain ⟨type, value, hmem, hvalue, hrefuses⟩ := h
  have htype : type ≠ .json := by
    rintro rfl
    cases hrefuses
  rw [hvalue]
  exact ⟨type, mem_takenKeys hmem htype, hrefuses⟩

/-- The keys are taken in their order, so the first value that is refused decides. -/
theorem firstRefused_iff (hcomplete : Complete pairs) :
    FirstRefused (fun key => (lastValue pairs key).getD .null) takenKeys defect ↔
      ∃ key, FirstIllTyped pairs key defect := by
  have hsorted := takenKeys_ascending
  constructor
  · rintro ⟨before, p, after, hkeys, hp, hbefore⟩
    have hmem : p ∈ takenKeys := by
      rw [hkeys]
      exact List.mem_append_cons_self
    refine ⟨p.1, illTyped_of_refuses hcomplete hmem hp, fun other d hother => ?_⟩
    obtain ⟨type, hotherMem, hrefuses⟩ := refuses_of_illTyped hother
    rw [hkeys] at hotherMem hsorted
    -- none of the keys before it is refused, and those behind it are larger
    rcases List.mem_append.mp hotherMem with hotherMem | hotherMem
    · exact absurd hrefuses (hbefore _ hotherMem d)
    · rcases List.mem_cons.mp hotherMem with heq | hotherMem
      · exact heq ▸ String.le_refl _
      · have hlt := (List.pairwise_append.mp hsorted).2.1
        exact String.not_lt.mp (String.lt_asymm ((List.pairwise_cons.mp hlt).1 _ hotherMem))
  · rintro ⟨key, hkey, hfirst⟩
    obtain ⟨type, hmem, hrefuses⟩ := refuses_of_illTyped hkey
    obtain ⟨before, after, hkeys⟩ := List.append_of_mem hmem
    refine ⟨before, (key, type), after, hkeys, hrefuses, fun q hq d hrefused => ?_⟩
    have hqMem : q ∈ takenKeys := by
      rw [hkeys]
      exact List.mem_append_left _ hq
    rw [hkeys] at hsorted
    have hlt : q.1 < key := (List.pairwise_append.mp hsorted).2.2 q hq _ List.mem_cons_self
    exact hfirst q.1 d (illTyped_of_refuses hcomplete hqMem hrefused) hlt

/-! ## Records -/

theorem text_eq_ok_iff {v : Json} {s : Option String} :
    text v = .ok s ↔ Cell.OfScalar v (.ofText? s) := by
  constructor
  · exact Column.Holds.ofScalar_of_text
  · intro h
    cases s with
    | none =>
      change Cell.OfScalar v .null at h
      cases h
      rfl
    | some s =>
      change Cell.OfScalar v (.text s) at h
      cases h with
      | string => rfl
      | bool => rfl
      | integer n =>
        rw [Json.compact_integer]
        rfl
      | float x =>
        rw [Json.compact_float]
        rfl

theorem ofJson_of_firstMissing (h : FirstMissing pairs key) :
    ofJson (.object (Json.Members.ofList pairs)) = .error (.missingField key) := by
  rw [ofJson, missingKey?_eq_some_iff.mpr h]

theorem ofJson_of_complete (h : Complete pairs) :
    ofJson (.object (Json.Members.ofList pairs)) =
      (ofMembers (Json.Members.ofList pairs)).mapError .malformed := by
  rw [ofJson, missingKey?_eq_none_iff.mpr h]

theorem ofMembers_eq_error_iff_firstIllTyped (h : Complete pairs) :
    ofMembers (Json.Members.ofList pairs) = .error defect ↔
      ∃ key, FirstIllTyped pairs key defect := by
  rw [ofMembers_eq_error_iff, ← firstRefused_iff h]
  simp only [get?_ofList_eq_lastValue]

/-- Where some value is refused, one of them is the first. -/
theorem exists_firstRefused {value : String → Json} {keys : List (String × ColumnType)}
    {p : String × ColumnType} (hp : p ∈ keys) (h : Refuses p.2 (value p.1) defect) :
    ∃ first, FirstRefused value keys first := by
  induction keys with
  | nil => cases hp
  | cons q rest ih =>
    by_cases hq : ∃ d, Refuses q.2 (value q.1) d
    · obtain ⟨d, hd⟩ := hq
      exact ⟨d, [], q, rest, rfl, hd, List.forall_mem_nil _⟩
    · have hnone : ∀ d, ¬Refuses q.2 (value q.1) d := fun d hd => hq ⟨d, hd⟩
      rcases List.mem_cons.mp hp with rfl | hp
      · exact absurd h (hnone defect)
      · obtain ⟨first, before, r, after, rfl, hr, hbefore⟩ := ih hp
        exact ⟨first, q :: before, r, after, rfl, hr, List.forall_mem_cons.mpr ⟨hnone, hbefore⟩⟩

/-- A record is read exactly where all keys are there with values that the columns take. -/
theorem wellFormed_iff :
    WellFormed pairs ↔ Complete pairs ∧ ∃ r, ofMembers (Json.Members.ofList pairs) = .ok r := by
  constructor
  · intro h
    refine ⟨h.complete, ?_⟩
    cases hr : ofMembers (Json.Members.ofList pairs) with
    | ok r => exact ⟨r, rfl⟩
    | error d =>
      obtain ⟨key, hkey, -⟩ := (ofMembers_eq_error_iff_firstIllTyped h.complete).mp hr
      exact absurd hkey (h.typed key d)
  · rintro ⟨hcomplete, r, hr⟩
    refine ⟨hcomplete, fun key d hkey => ?_⟩
    obtain ⟨type, hmem, hrefuses⟩ := refuses_of_illTyped hkey
    have hfirst : ∃ first, FirstRefused (fun key => (lastValue pairs key).getD .null)
        takenKeys first := exists_firstRefused hmem hrefuses
    obtain ⟨first, hfirst⟩ := hfirst
    have herror := (ofMembers_eq_error_iff_firstIllTyped hcomplete).mpr
      ((firstRefused_iff hcomplete).mp hfirst)
    rw [hr] at herror
    cases herror

/-- The description of a record is the one that its last value gives. -/
theorem describes_iff {r : Record} (h : ofMembers (Json.Members.ofList pairs) = .ok r)
    {description : Option String} : Describes pairs description ↔ description = r.description := by
  obtain ⟨-, htexts, -⟩ := ofMembers_eq_ok h
  have htext := htexts ("DESCRIPTION", r.description) (by simp [texts])
  rw [get?_ofList_eq_lastValue] at htext
  rw [Describes, ← text_eq_ok_iff, htext]
  exact ⟨fun heq => (Except.ok.inj heq).symm, fun heq => heq ▸ rfl⟩

/-- What is read of an object depends on the values under the keys of the columns. -/
theorem ofMembers_congr {members members' : Json.Members}
    (h : ∀ p ∈ sourceKeys, (members.get? p.1).getD .null = (members'.get? p.1).getD .null) :
    ofMembers members = ofMembers members' := by
  have hvalue : ∀ key ∈ sourceKeys.map Prod.fst,
      (members.get? key).getD .null = (members'.get? key).getD .null := List.forall_mem_map.mpr h
  simp only [ofMembers, hvalue "CARDCATEGORY" (by decide), hvalue "CATEGORY" (by decide),
    hvalue "DESCRIPTION" (by decide), hvalue "FLAG" (by decide), hvalue "ID" (by decide),
    hvalue "MOTTO" (by decide), hvalue "NAME" (by decide), hvalue "REGION" (by decide),
    hvalue "TYPE" (by decide), hvalue "BADGES" (by decide), hvalue "TROPHIES" (by decide)]

end Record

namespace Row

variable {line : String} {e : RecordError}

/-- The row of the object with these members. -/
def ofPairs (pairs : List (String × Json)) : Except RecordError Row := do
  let record ← Record.ofJson (.object (Json.Members.ofList pairs))
  (ofRecord record).mapError .population

theorem ofLine_of_objectLine (h : Json.ObjectLine line pairs) : ofLine line = ofPairs pairs := by
  rw [ofLine, ofPairs, Record.ofLine, h.parse?_eq]

/-! ## Objects -/

theorem ofPairs_of_firstMissing (h : FirstMissing pairs key) :
    ofPairs pairs = .error (.missingField key) := by
  rw [ofPairs, Record.ofJson_of_firstMissing h]
  rfl

theorem ofPairs_of_firstIllTyped (hcomplete : Complete pairs) (h : FirstIllTyped pairs key defect) :
    ofPairs pairs = .error (.malformed defect) := by
  have herror := (Record.ofMembers_eq_error_iff_firstIllTyped hcomplete).mpr ⟨key, h⟩
  rw [ofPairs, Record.ofJson_of_complete hcomplete, herror]
  rfl

/-- A well-formed record is accepted or refused by its population. -/
theorem ofPairs_of_wellFormed (h : WellFormed pairs) {description : Option String}
    (hdescription : Describes pairs description) :
    (∀ e, population? description = .error e → ofPairs pairs = .error (.population e)) ∧
      ∀ population, population? description = .ok population →
        ∃ row, ofPairs pairs = .ok row := by
  obtain ⟨hcomplete, r, hr⟩ := Record.wellFormed_iff.mp h
  have hread : ofPairs pairs = (ofRecord r).mapError .population := by
    rw [ofPairs, Record.ofJson_of_complete hcomplete, hr]
    rfl
  rw [hread, (Record.describes_iff hr).mp hdescription, ofRecord]
  constructor
  · intro e he
    rw [he]
    rfl
  · intro population hpopulation
    rw [hpopulation]
    exact ⟨_, rfl⟩

theorem ofPairs_of_recordFails (h : RecordFails pairs e) : ofPairs pairs = .error e := by
  cases h with
  | missingField h => exact ofPairs_of_firstMissing h
  | illTyped hcomplete h => exact ofPairs_of_firstIllTyped hcomplete h
  | population hwell hdescription h => exact (ofPairs_of_wellFormed hwell hdescription).1 _ h

theorem exists_ofPairs_of_accepted (h : Accepted pairs) : ∃ row, ofPairs pairs = .ok row := by
  obtain ⟨hwell, description, population, hdescription, hpopulation⟩ := h
  exact (ofPairs_of_wellFormed hwell hdescription).2 population hpopulation

/-- Every object is refused for some reason, or accepted. -/
theorem recordFails_or_accepted (pairs : List (String × Json)) :
    (∃ e, RecordFails pairs e) ∨ Accepted pairs := by
  cases hmissing : Record.missingKey? (Json.Members.ofList pairs) with
  | some key => exact Or.inl ⟨_, .missingField (Record.missingKey?_eq_some_iff.mp hmissing)⟩
  | none =>
    have hcomplete := Record.missingKey?_eq_none_iff.mp hmissing
    cases hr : Record.ofMembers (Json.Members.ofList pairs) with
    | error d =>
      obtain ⟨key, hkey⟩ := (Record.ofMembers_eq_error_iff_firstIllTyped hcomplete).mp hr
      exact Or.inl ⟨_, .illTyped hcomplete hkey⟩
    | ok r =>
      have hwell := Record.wellFormed_iff.mpr ⟨hcomplete, r, hr⟩
      have hdescribes := (Record.describes_iff hr).mpr rfl
      cases hpopulation : population? r.description with
      | error e => exact Or.inl ⟨_, .population hwell hdescribes hpopulation⟩
      | ok population => exact Or.inr ⟨hwell, _, population, hdescribes, hpopulation⟩

/-- Nothing but the last values under the keys of the columns matters. -/
theorem ofPairs_congr {pairs' : List (String × Json)}
    (h : ∀ p ∈ sourceKeys, sourceValue pairs p.1 = sourceValue pairs' p.1) :
    ofPairs pairs = ofPairs pairs' := by
  -- a record is looked at twice: for keys that are missing, and for the values under all keys
  have hrequired : ∀ key ∈ requiredKeys, lastValue pairs key = lastValue pairs' key := by
    intro key hkey
    have hsource : ∀ key ∈ requiredKeys, ∃ p ∈ sourceKeys, p.1 = key ∧ key ∉ optionalKeys := by
      decide
    obtain ⟨p, hp, rfl, hnot⟩ := hsource key hkey
    have hp := h p hp
    rwa [sourceValue, sourceValue, if_neg hnot, if_neg hnot] at hp
  have hvalue : ∀ p ∈ sourceKeys,
      (lastValue pairs p.1).getD .null = (lastValue pairs' p.1).getD .null := by
    intro p hp
    have hp := h p hp
    unfold sourceValue at hp
    split at hp
    · exact Option.some.inj hp
    · rw [hp]
  have hmissing : Record.missingKey? (Json.Members.ofList pairs) =
      Record.missingKey? (Json.Members.ofList pairs') := by
    unfold Record.missingKey?
    rw [← List.head?_filter, ← List.head?_filter]
    refine congrArg List.head? (List.filter_congr fun key hkey => ?_)
    rw [Record.get?_ofList_eq_lastValue, Record.get?_ofList_eq_lastValue, hrequired key hkey]
  have hmembers : Record.ofMembers (Json.Members.ofList pairs) =
      Record.ofMembers (Json.Members.ofList pairs') := by
    refine Record.ofMembers_congr fun p hp => ?_
    rw [Record.get?_ofList_eq_lastValue, Record.get?_ofList_eq_lastValue, hvalue p hp]
  rw [ofPairs, ofPairs, Record.ofJson, Record.ofJson, hmissing, hmembers]

/-! ## Lines -/

theorem ofLine_of_lineFails (h : LineFails line e) : ofLine line = .error e := by
  cases h with
  | syntaxError h =>
    have hparse : Json.parse? line = none := by
      cases hv : Json.parse? line with
      | none => rfl
      | some v => exact absurd (Json.parse?_eq_some_iff.mp hv) (h v)
    rw [ofLine, Record.ofLine, hparse]
    rfl
  | @notAnObject v h hv =>
    rw [ofLine, Record.ofLine, Json.parse?_eq_some_iff.mpr h]
    cases v with
    | object members => exact absurd rfl (hv members)
    | _ => rfl
  | record h hfails => rw [ofLine_of_objectLine h, ofPairs_of_recordFails hfails]

/-- Every line is refused for some reason, or it is an object that is accepted. -/
theorem lineFails_or_accepted (line : String) :
    (∃ e, LineFails line e) ∨ ∃ pairs, Json.ObjectLine line pairs ∧ Accepted pairs := by
  cases hparse : Json.parse? line with
  | none =>
    refine Or.inl ⟨_, .syntaxError fun v hv => ?_⟩
    rw [Json.parse?_eq_some_iff.mpr hv] at hparse
    cases hparse
  | some v =>
    by_cases hobject : ∃ members, v = .object members
    · obtain ⟨members, rfl⟩ := hobject
      obtain ⟨pairs, hpairs, -⟩ := Json.objectLine_of_parse? hparse
      rcases recordFails_or_accepted pairs with ⟨e, he⟩ | haccepted
      · exact Or.inl ⟨e, .record hpairs he⟩
      · exact Or.inr ⟨pairs, hpairs, haccepted⟩
    · exact Or.inl ⟨_, .notAnObject (Json.parse?_eq_some_iff.mp hparse)
        fun members hv => hobject ⟨members, hv⟩⟩

/-- What a line is refused for is ranked, a line that is refused for nothing is accepted, and lines
with the same last values under the keys of the columns are read alike. -/
theorem ofLine_ranked_by_last_values :
    (∀ line e, ofLine line = .error e ↔ LineFails line e) ∧
      (∀ line, (∃ row, ofLine line = .ok row) ↔
        ∃ pairs, Json.ObjectLine line pairs ∧ Accepted pairs) ∧
      (∀ line pairs e, Json.ObjectLine line pairs → ofLine line = .error (.population e) →
        WellFormed pairs) ∧
      ∀ line line' pairs pairs', Json.ObjectLine line pairs → Json.ObjectLine line' pairs' →
        (∀ p ∈ sourceKeys, sourceValue pairs p.1 = sourceValue pairs' p.1) →
          ofLine line = ofLine line' := by
  refine ⟨fun line e => ⟨fun h => ?_, ofLine_of_lineFails⟩, fun line => ⟨?_, ?_⟩,
    fun line pairs e hpairs h => ?_, fun line line' pairs pairs' hpairs hpairs' h => ?_⟩
  · rcases lineFails_or_accepted line with ⟨e', he'⟩ | ⟨pairs, hpairs, haccepted⟩
    · rw [ofLine_of_lineFails he'] at h
      exact Except.error.inj h ▸ he'
    · obtain ⟨row, hrow⟩ := exists_ofPairs_of_accepted haccepted
      rw [ofLine_of_objectLine hpairs, hrow] at h
      cases h
  · rintro ⟨row, hrow⟩
    rcases lineFails_or_accepted line with ⟨e, he⟩ | haccepted
    · rw [ofLine_of_lineFails he] at hrow
      cases hrow
    · exact haccepted
  · rintro ⟨pairs, hpairs, haccepted⟩
    rw [ofLine_of_objectLine hpairs]
    exact exists_ofPairs_of_accepted haccepted
  · rw [ofLine_of_objectLine hpairs] at h
    rcases recordFails_or_accepted pairs with ⟨e', he'⟩ | haccepted
    · rw [ofPairs_of_recordFails he'] at h
      cases h
      cases he' with
      | population hwell => exact hwell
    · exact haccepted.1
  · rw [ofLine_of_objectLine hpairs, ofLine_of_objectLine hpairs', ofPairs_congr h]

/-- Two values of a wrong type, and a description without a population. In the order of the columns
the motto comes first, in the order of the keys the category of the card. -/
def manyFaults : List (String × Json) :=
  [ ("ID", .integer 1), ("NAME", .null), ("TYPE", .null), ("MOTTO", .array []), ("CATEGORY", .null)
  , ("REGION", .null), ("FLAG", .null), ("CARDCATEGORY", .object [])
  , ("DESCRIPTION", .string "many"), ("BADGES", .null), ("TROPHIES", .null) ]

/-- The same in another order, with a key that no column has and a name that is given twice. -/
def shuffledFaults : List (String × Json) :=
  ("NAME", .bool true) :: ("SEASON", .integer 2) :: manyFaults.reverse

/-- The value that is reported is the first in the order of the keys, wherever it stands. -/
theorem ofLine_ranked_by_last_values_manyFaults :
    ofLine (Json.compactInOrder manyFaults) = .error (.malformed (.notAText (.object []))) ∧
      ofLine (Json.compactInOrder shuffledFaults) = ofLine (Json.compactInOrder manyFaults) := by
  obtain ⟨hfails, -, -, hsame⟩ := ofLine_ranked_by_last_values
  have hplain : ∀ p ∈ manyFaults, Json.Plain 1 p.2 := by
    simp only [manyFaults, List.forall_mem_cons]
    exact ⟨.integer 1 ⟨by decide, by decide⟩, .null 1, .null 1, .array (List.forall_mem_nil _),
      .null 1, .null 1, .null 1, .object List.Pairwise.nil (List.forall_mem_nil _), .string 1 _,
      .null 1, .null 1, List.forall_mem_nil _⟩
  have hshuffled : ∀ p ∈ shuffledFaults, Json.Plain 1 p.2 := by
    refine List.forall_mem_cons.mpr ⟨.bool 1 true, List.forall_mem_cons.mpr
      ⟨.integer 1 ⟨by decide, by decide⟩, fun p hp => hplain p (List.mem_reverse.mp hp)⟩⟩
  have hfirst : FirstIllTyped manyFaults "CARDCATEGORY" (.notAText (.object [])) := by
    refine ⟨⟨.text, .object [], by decide, rfl, .object []⟩, fun other d hother => ?_⟩
    obtain ⟨type, value, hmem, -, hrefuses⟩ := hother
    have hall : ∀ p ∈ sourceKeys, p.2 = .json ∨ "CARDCATEGORY" ≤ p.1 := by decide
    rcases hall _ hmem with rfl | hle
    · cases hrefuses
    · exact hle
  have hcomplete : Complete manyFaults := by
    have hall : ∀ key ∈ requiredKeys, (lastValue manyFaults key).isSome = true := by decide
    exact fun key hkey => Option.isSome_iff_ne_none.mp (hall key hkey)
  have hline := Json.objectLine_compactInOrder hplain (by decide)
  refine ⟨(hfails _ _).mpr (.record hline (.illTyped hcomplete hfirst)),
    hsame _ _ _ _ (Json.objectLine_compactInOrder hshuffled (by decide)) hline ?_⟩
  exact List.map_inj_left.mp rfl

end Row

end CardArchive
