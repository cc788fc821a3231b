import CardArchive.Proofs.JsonDocument
import CardArchive.Proofs.RecordErrors

/-!
# Texts carried by a record

A record can be written down around any text: `Json.Setting` is an object with one value taken out,
the last one under its key, and nothing is said about white space or about the other members beyond
that they are members. What the record is read as depends on the text only through the tokens that
the text is made of (`Json.Setting.objectLine_line`), and a text with a word that no value has makes
the whole line unreadable.

`Row.under?` is the cell of a row in the column that is read from a key. Where the column takes the
value, a record that was acceptable with null in its place is acceptable with it.
-/

namespace CardArchive

namespace Json

section Writing

variable {cs ds : List Char} {ts us : List Token} {w : List Char}

/-- One text behind another. Two words would become one, so a word is not followed by another. -/
theorem Writes.append (hfirst : Writes cs ts) (hsecond : Writes ds us)
    (hend : ∀ w, ts.getLast? = some (.word w) → ∀ d ∈ ds.head?, Token.inWord d = false) :
    Writes (cs ++ ds) (ts ++ us) := by
  have hrest : ∀ {t : Token} {ts : List Token},
      (∀ w, (t :: ts).getLast? = some (.word w) → ∀ d ∈ ds.head?, Token.inWord d = false) →
        ∀ w, ts.getLast? = some (.word w) → ∀ d ∈ ds.head?, Token.inWord d = false := by
    intro t ts h w hw
    refine h w ?_
    rw [List.getLast?_cons, hw]
    rfl
  induction hfirst with
  | nil => exact hsecond
  | space hc _ ih => exact .space hc (ih hend)
  | punctuation hc _ ih => exact .punctuation hc (ih (hrest hend))
  | @word c w cs ts hc hw hstop hcs ih =>
    rw [List.cons_append, List.append_assoc]
    refine .word hc hw ?_ (ih (hrest hend))
    intro d hd
    cases cs with
    | cons e cs => exact hstop d hd
    | nil =>
      -- the word comes last, so what follows it is the second text
      cases hcs
      exact hend _ rfl d hd
  | text hbody hs _ ih =>
    rw [List.cons_append, List.append_assoc]
    exact .text hbody hs (ih (hrest hend))

theorem writes_word (hne : w ≠ []) (hw : ∀ c ∈ w, Token.inWord c = true) : Writes w [.word w] := by
  cases w with
  | nil => exact absurd rfl hne
  | cons c w =>
    obtain ⟨hc, hw⟩ := List.forall_mem_cons.mp hw
    have hword := Writes.word hc hw (by rintro d ⟨⟩) .nil
    rwa [List.append_nil] at hword

/-- What begins with a token that is no word does not go on with a word. -/
theorem head?_not_inWord {t : Token} (h : Writes ds (t :: us)) (ht : t.isWord = false) :
    ∀ d ∈ ds.head?, Token.inWord d = false := by
  intro d hd
  cases h with
  | space hc => exact Option.some.inj hd ▸ (Scanner.not_begins_of_isSpace hc).2.1
  | punctuation hc => exact Option.some.inj hd ▸ (Scanner.not_begins_of_punctuation hc).2.2
  | word => cases ht
  | text => exact Option.some.inj hd ▸ by decide

/-! ## Words without a value -/

theorem Reading.feed_word_eq_none (r : Reading) (hw : wordValue? w = none) :
    feed r (.word w) = none := by
  have hbegin : ∀ stack, begin stack (.word w) = none := fun stack => by rw [begin, hw]; rfl
  cases r with
  | value stack => exact hbegin stack
  | firstItem stack => exact hbegin _
  | complete v stack =>
    cases stack with
    | nil => rfl
    | cons frame stack => cases frame <;> rfl
  | _ => rfl

theorem ofTokens?_eq_none (hmem : .word w ∈ ts) (hw : wordValue? w = none) :
    ofTokens? ts = none := by
  obtain ⟨before, after, rfl⟩ := List.append_of_mem hmem
  rw [ofTokens?, List.foldlM_append]
  cases before.foldlM Reading.feed (Reading.value []) with
  | none => rfl
  | some r =>
    show ((List.cons (Token.word w) after).foldlM Reading.feed r).bind Reading.finish = none
    rw [List.foldlM_cons, Reading.feed_word_eq_none r hw]
    rfl

/-- One word without a value, wherever it stands, makes a text unreadable. -/
theorem parse?_eq_none {text : String} (htext : Writes text.toList ts) (hmem : .word w ∈ ts)
    (hw : wordValue? w = none) : parse? text = none := by
  rw [parse?, tokens?_eq_some_iff.mpr htext]
  exact ofTokens?_eq_none hmem hw

end Writing

/-! ## An object around one value -/

/-- What stands in an object in front of a value: the members before it, and its key. -/
def frontTokens (key : String) (earlier : List Member) : List Token :=
  .openObject :: earlier.flatMap (fun m => m.tokens ++ [.comma]) ++ [.text key.toList, .colon]

/-- What stands in an object behind a value: the other members. -/
def backTokens (later : List Member) : List Token :=
  later.flatMap (fun m => .comma :: m.tokens) ++ [.closeObject]

/-- An object in which the text of one value is left open: the members before and behind it, and the
texts in front of it and after it. No later member has its key. -/
structure Setting (key : String) where
  earlier : List Member
  later : List Member
  front : List Char
  back : List Char
  spelled : ∀ m ∈ earlier ++ later, Spells (maxDepth - 1) m.2.1 m.2.2
  front_writes : Writes front (frontTokens key earlier)
  back_writes : Writes back (backTokens later)
  last : ∀ m ∈ later, m.1 ≠ key

/-- Runs with a comma between them, seen from one of them. -/
theorem intercalate_comma_cons (runs : List (List Token)) (run : List Token)
    (more : List (List Token)) :
    [Token.comma].intercalate (runs ++ run :: more) =
      runs.flatMap (· ++ [.comma]) ++ run ++ more.flatMap (.comma :: ·) := by
  induction more generalizing runs run with
  | nil => rw [intercalate_comma_append, List.flatMap_nil, List.append_nil]
  | cons next more ih =>
    have hnext := ih (runs ++ [run]) next
    rw [← List.append_cons] at hnext
    rw [hnext, List.flatMap_append, List.flatMap_singleton, List.flatMap_cons]
    simp only [List.append_assoc, List.cons_append, List.nil_append]

theorem intercalate_members (key : String) (earlier later : List Member) (v : Json)
    (ts : List Token) :
    .openObject ::
        [Token.comma].intercalate ((earlier ++ (key, v, ts) :: later).map Member.tokens) ++
          [.closeObject] = frontTokens key earlier ++ ts ++ backTokens later := by
  have hmember : Member.tokens (key, v, ts) = .text key.toList :: .colon :: ts := rfl
  rw [List.map_append, List.map_cons, intercalate_comma_cons, hmember, frontTokens, backTokens,
    List.flatMap_map, List.flatMap_map]
  simp only [List.append_assoc, List.cons_append, List.nil_append]

namespace Setting

variable {key : String} (s : Setting key) {text : List Char} {ts : List Token} {v w : Json}

/-- The line of the object with a text for the value. -/
def line (text : List Char) : String := String.ofList (s.front ++ text ++ s.back)

/-- The keys and values of the object with that value. -/
def pairs (v : Json) : List (String × Json) :=
  s.earlier.map Member.pair ++ (key, v) :: s.later.map Member.pair

theorem writes_line (htext : Writes text ts) :
    Writes (s.line text).toList (frontTokens key s.earlier ++ ts ++ backTokens s.later) := by
  have hback : ∀ d ∈ s.back.head?, Token.inWord d = false := by
    have hwrites := s.back_writes
    cases hlater : s.later with
    | nil =>
      rw [hlater] at hwrites
      exact head?_not_inWord hwrites rfl
    | cons m rest =>
      rw [hlater] at hwrites
      exact head?_not_inWord hwrites rfl
  have hfront : Writes (s.front ++ text) (frontTokens key s.earlier ++ ts) :=
    s.front_writes.append htext fun w hw => by
      rw [frontTokens, List.getLast?_append] at hw
      cases hw
  rw [line, String.toList_ofList]
  exact hfront.append s.back_writes fun w _ => hback

/-- With the text of a value in it, the line is the text of the object with that value. -/
theorem objectLine_line (htext : Writes text ts) (hv : Spells (maxDepth - 1) v ts) :
    ObjectLine (s.line text) (s.pairs v) := by
  refine ⟨s.earlier ++ (key, v, ts) :: s.later, ?_, ?_, ?_⟩
  · rw [List.map_append, List.map_cons]
    rfl
  · obtain ⟨hearlier, hlater⟩ := List.forall_mem_append.mp s.spelled
    exact List.forall_mem_append.mpr ⟨hearlier, List.forall_mem_cons.mpr ⟨hv, hlater⟩⟩
  · rw [intercalate_members]
    exact s.writes_line htext

theorem parse?_line_eq_none {w : List Char} (htext : Writes text ts) (hmem : .word w ∈ ts)
    (hw : wordValue? w = none) : parse? (s.line text) = none :=
  parse?_eq_none (s.writes_line htext)
    (List.mem_append_left _ (List.mem_append_right _ hmem)) hw

theorem lastValue_self (v : Json) : lastValue (s.pairs v) key = some v := by
  have hlater : (s.later.map Member.pair).reverse.lookup key = none := by
    rw [List.lookup_eq_none_iff]
    intro p hp
    obtain ⟨m, hm, rfl⟩ := List.mem_map.mp (List.mem_reverse.mp hp)
    exact bne_iff_ne.mpr fun heq => s.last m hm heq.symm
  rw [lastValue, pairs, List.reverse_append, List.reverse_cons, List.append_assoc,
    List.lookup_append, hlater]
  simp

theorem lastValue_of_ne {other : String} (hne : other ≠ key) (v w : Json) :
    lastValue (s.pairs v) other = lastValue (s.pairs w) other := by
  have hkey : (other == key) = false := beq_false_of_ne hne
  simp only [lastValue, pairs, List.reverse_append, List.reverse_cons, List.append_assoc,
    List.lookup_append, List.lookup_cons, hkey, List.singleton_append]

/-- A value that its column takes can stand in the place of another. The description is left alone,
as the population depends on it. -/
theorem accepted (h : Accepted (s.pairs v)) (hkey : key ≠ "DESCRIPTION")
    (htakes : ∀ type, (key, type) ∈ sourceKeys → ∀ d, ¬Refuses type w d) :
    Accepted (s.pairs w) := by
  obtain ⟨⟨hcomplete, htyped⟩, description, population, hdescription, hpopulation⟩ := h
  refine ⟨⟨fun k hk => ?_, fun k d hill => ?_⟩, description, population, ?_, hpopulation⟩
  · by_cases hself : k = key
    · rw [hself, s.lastValue_self]
      exact Option.some_ne_none w
    · rw [s.lastValue_of_ne hself w v]
      exact hcomplete k hk
  · obtain ⟨type, value, hmem, hvalue, hrefuses⟩ := hill
    by_cases hself : k = key
    · rw [hself, s.lastValue_self] at hvalue
      obtain rfl := Option.some.inj hvalue
      exact htakes type (hself ▸ hmem) d hrefuses
    · rw [s.lastValue_of_ne hself w v] at hvalue
      exact htyped k d ⟨type, value, hmem, hvalue, hrefuses⟩
  · rw [Describes, s.lastValue_of_ne hkey.symm w v]
    exact hdescription

end Setting

/-! ## Objects written in order -/

theorem Legible.tail {t : Token} {ts : List Token} (h : Legible (t :: ts))
    (ht : t.isWord = false) : Legible ts where
  proper := (List.forall_mem_cons.mp h.proper).2
  separated := ht ▸ h.separated.2

section Written

variable {pairs : List (String × Json)}

theorem legible_frontTokens (h : ∀ p ∈ pairs, Legible p.2.tokens) (key : String) :
    Legible (frontTokens key (pairs.map Member.written)) := by
  have hkey : Legible [.text key.toList, .colon] :=
    (legible_nil.cons .colon rfl).cons (.text key.toList) rfl
  rw [frontTokens, List.cons_append]
  refine Legible.cons .openObject rfl ?_
  induction pairs with
  | nil => exact hkey
  | cons p rest ih =>
    obtain ⟨hp, hrest⟩ := List.forall_mem_cons.mp h
    have hmember : Legible (Member.written p).tokens := hp.member p.1.toList
    rw [List.map_cons, List.flatMap_cons, List.append_assoc, List.append_assoc]
    exact hmember.append_cons .comma rfl (ih hrest)

theorem legible_backTokens (h : ∀ p ∈ pairs, Legible p.2.tokens) :
    Legible (backTokens (pairs.map Member.written)) := by
  induction pairs with
  | nil => exact legible_nil.cons .closeObject rfl
  | cons p rest ih =>
    obtain ⟨hp, hrest⟩ := List.forall_mem_cons.mp h
    have hmember : Legible (Member.written p).tokens := hp.member p.1.toList
    have hmore := ih hrest
    rw [backTokens, List.map_cons, List.flatMap_cons, List.append_assoc, List.cons_append]
    refine Legible.cons .comma rfl ?_
    -- behind the member comes a comma or the end of the object, and neither is a word
    cases rest with
    | nil => exact hmember.append_cons .closeObject rfl legible_nil
    | cons next rest => exact hmember.append_cons .comma rfl (hmore.tail rfl)

/-- The setting of a value in an object that is written without white space. -/
def Setting.written (key : String) (earlier later : List (String × Json)) {depth : Nat}
    (hdepth : depth < maxDepth) (h : ∀ p ∈ earlier ++ later, Plain depth p.2)
    (hlast : ∀ p ∈ later, p.1 ≠ key) : Setting key where
  earlier := earlier.map Member.written
  later := later.map Member.written
  front := (frontTokens key (earlier.map Member.written)).flatMap Token.chars
  back := (backTokens (later.map Member.written)).flatMap Token.chars
  spelled := by
    rw [← List.map_append]
    exact List.forall_mem_map.mpr fun p hp => (h p hp).spells.mono (Nat.le_pred_of_lt hdepth)
  front_writes :=
    (legible_frontTokens (fun p hp => (h p (List.mem_append_left _ hp)).legible) key).writes
  back_writes :=
    (legible_backTokens fun p hp => (h p (List.mem_append_right _ hp)).legible).writes
  last := List.forall_mem_map.mpr hlast

variable {key : String} {earlier later : List (String × Json)} {depth : Nat}
  (hdepth : depth < maxDepth) (h : ∀ p ∈ earlier ++ later, Plain depth p.2)
  (hlast : ∀ p ∈ later, p.1 ≠ key)

theorem Setting.pairs_written (v : Json) :
    (written key earlier later hdepth h hlast).pairs v = earlier ++ (key, v) :: later := by
  have hpairs : ∀ pairs : List (String × Json),
      (pairs.map Member.written).map Member.pair = pairs := fun pairs => by
    rw [List.map_map]
    exact List.map_id pairs
  rw [pairs, written, hpairs, hpairs]

theorem Setting.line_written (v : Json) :
    (written key earlier later hdepth h hlast).line v.compact.toList =
      compactInOrder (earlier ++ (key, v) :: later) := by
  have hmembers : (earlier ++ (key, v) :: later).map Member.written =
      earlier.map Member.written ++ (key, v, v.tokens) :: later.map Member.written := by
    rw [List.map_append, List.map_cons]
    rfl
  rw [compactInOrder, memberTokens_eq_intercalate, hmembers, intercalate_members,
    List.flatMap_append, List.flatMap_append, line, written, compact, String.toList_ofList]

end Written

end Json

/-! ## Cells and keys -/

namespace Row

variable {pairs : List (String × Json)} {row : Row} {key : String}

/-- The cell of the column that is read from the key. -/
def under? (row : Row) (key : String) : Option Cell :=
  ((cardColumns.zip row.cells).find? fun p => p.1.key = some key).map Prod.snd

/-- A row of an object is the row of its record, and all required keys are there. -/
theorem ofPairs_eq_ok (h : ofPairs pairs = .ok row) :
    ∃ record, Record.ofMembers (Json.Members.ofList pairs) = .ok record ∧
      ofRecord record = .ok row := by
  obtain ⟨record, hrecord, hrow⟩ := bind_eq_ok h
  refine ⟨record, ?_, mapError_eq_ok hrow⟩
  rw [Record.ofJson] at hrecord
  split at hrecord
  · cases hrecord
  · exact mapError_eq_ok hrecord

theorem under?_ofRecord {record : Record} (h : ofRecord record = .ok row) :
    (∀ p ∈ record.texts, row.under? p.1 = some (.ofText? p.2)) ∧
      row.under? "BADGES" = some (.text record.badges.compact) ∧
      row.under? "TROPHIES" = some (.text record.trophies.compact) := by
  rw [ofRecord] at h
  cases hpopulation : population? record.description with
  | error e =>
    rw [hpopulation] at h
    cases h
  | ok population =>
    rw [hpopulation] at h
    cases h
    simp only [Record.texts, List.forall_mem_cons]
    exact ⟨⟨rfl, rfl, rfl, rfl, rfl, rfl, rfl, rfl, List.forall_mem_nil _⟩, rfl, rfl⟩

/-- A column of texts keeps the text of the last value under its key. -/
theorem under?_text (h : ofPairs pairs = .ok row) (hkey : (key, .text) ∈ sourceKeys) :
    ∃ s, Record.text ((lastValue pairs key).getD .null) = .ok s ∧
      row.under? key = some (.ofText? s) := by
  obtain ⟨record, hrecord, hrow⟩ := ofPairs_eq_ok h
  obtain ⟨-, htexts, -⟩ := Record.ofMembers_eq_ok hrecord
  have hkeys : ∀ p ∈ sourceKeys, p.2 = .text → p.1 ∈ record.texts.map Prod.fst := by
    have hlisted : record.texts.map Prod.fst = ["NAME", "TYPE", "MOTTO", "CATEGORY", "REGION",
      "FLAG", "CARDCATEGORY", "DESCRIPTION"] := rfl
    rw [hlisted]
    decide
  obtain ⟨p, hp, rfl⟩ := List.mem_map.mp (hkeys _ hkey rfl)
  have htext := htexts p hp
  rw [Record.get?_ofList_eq_lastValue] at htext
  exact ⟨p.2, htext, (under?_ofRecord hrow).1 p hp⟩

/-- A column of JSON texts keeps the compact text of the last value under its key. -/
theorem under?_json (h : ofPairs pairs = .ok row) (hkey : (key, .json) ∈ sourceKeys) :
    row.under? key = some (.text ((lastValue pairs key).getD .null).compact) := by
  obtain ⟨record, hrecord, hrow⟩ := ofPairs_eq_ok h
  obtain ⟨-, -, hbadges, htrophies⟩ := Record.ofMembers_eq_ok hrecord
  rw [Record.get?_ofList_eq_lastValue] at hbadges htrophies
  obtain ⟨-, hbadgesCell, htrophiesCell⟩ := under?_ofRecord hrow
  have hkeys : ∀ p ∈ sourceKeys, p.2 = .json → p.1 = "BADGES" ∨ p.1 = "TROPHIES" := by decide
  rcases hkeys _ hkey rfl with rfl | rfl
  · rw [hbadgesCell, hbadges]
  · rw [htrophiesCell, htrophies]

theorem type_eq_of_mem_sourceKeys {type other : ColumnType} (h : (key, type) ∈ sourceKeys)
    (hother : (key, other) ∈ sourceKeys) : other = type := by
  have hkeys : ∀ p ∈ sourceKeys, ∀ q ∈ sourceKeys, p.1 = q.1 → q.2 = p.2 := by decide
  exact hkeys _ h _ hother rfl

theorem not_refuses_of_json (hkey : (key, .json) ∈ sourceKeys) (v : Json) :
    ∀ type, (key, type) ∈ sourceKeys → ∀ d, ¬Refuses type v d := by
  intro type htype d hrefuses
  obtain rfl := type_eq_of_mem_sourceKeys hkey htype
  cases hrefuses

theorem not_refuses_of_text (hkey : (key, .text) ∈ sourceKeys) {v : Json}
    (hv : (∃ n, v = .integer n) ∨ ∃ x, v = .float x) :
    ∀ type, (key, type) ∈ sourceKeys → ∀ d, ¬Refuses type v d := by
  intro type htype d hrefuses
  obtain rfl := type_eq_of_mem_sourceKeys hkey htype
  rcases hv with ⟨n, rfl⟩ | ⟨x, rfl⟩ <;> cases hrefuses

/-- An acceptable record is accepted with any value that its column takes in the place of null. -/
theorem exists_ofLine_setting (s : Json.Setting key) {text : List Char} {ts : List Json.Token}
    {v : Json} (htext : Json.Writes text ts) (hv : Json.Spells (Json.maxDepth - 1) v ts)
    (hkey : key ≠ "DESCRIPTION")
    (htakes : ∀ type, (key, type) ∈ sourceKeys → ∀ d, ¬Refuses type v d)
    (h : Accepted (s.pairs .null)) :
    ∃ row, ofLine (s.line text) = .ok row ∧ ofPairs (s.pairs v) = .ok row := by
  obtain ⟨row, hrow⟩ := exists_ofPairs_of_accepted (s.accepted h hkey htakes)
  exact ⟨row, (ofLine_of_objectLine (s.objectLine_line htext hv)).trans hrow, hrow⟩

theorem accepted_of_ofPairs (h : ofPairs pairs = .ok row) : Accepted pairs := by
  rcases recordFails_or_accepted pairs with ⟨e, he⟩ | haccepted
  · rw [ofPairs_of_recordFails he] at h
    cases h
  · exact haccepted

theorem ofLine_of_parse?_eq_none {line : String} (h : Json.parse? line = none) :
    ofLine line = .error (.malformed .syntaxError) := by
  rw [ofLine, Record.ofLine, h]
  rfl

end Row

/-! ## The least record around a value -/

namespace Json.Setting

/-- The members of a record that gives nothing but its identifier. -/
def bareMembers : List (String × Json) :=
  ("ID", .integer 1) :: (requiredKeys.filter (· ≠ "ID")).map fun key => (key, .null)

theorem plain_bareMembers : ∀ p ∈ bareMembers, Plain 0 p.2 := by
  refine List.forall_mem_cons.mpr ⟨.integer _ ⟨by decide, by decide⟩, fun p hp => ?_⟩
  obtain ⟨key, -, rfl⟩ := List.mem_map.mp hp
  exact .null _

/-- A value behind all other members. -/
def bare (key : String) : Setting key :=
  written key (bareMembers.filter fun p => p.1 ≠ key) [] (by decide)
    (fun p hp => plain_bareMembers p (List.mem_of_mem_filter (List.append_nil _ ▸ hp)))
    (List.forall_mem_nil _)

theorem accepted_bare {key : String} (hkey : key ∈ requiredKeys) (hid : key ≠ "ID") :
    Accepted ((bare key).pairs .null) := by
  have hall : ∀ key ∈ requiredKeys, key ≠ "ID" → (Row.ofPairs ((bareMembers.filter fun p =>
      p.1 ≠ key) ++ [(key, .null)])).toOption.isSome = true := by decide
  have hsome := hall key hkey hid
  rw [bare, pairs_written]
  cases hrow : Row.ofPairs ((bareMembers.filter fun p => p.1 ≠ key) ++ [(key, .null)]) with
  | ok row => exact Row.accepted_of_ofPairs hrow
  | error e =>
    rw [hrow] at hsome
    cases hsome

end Json.Setting

end CardArchive
