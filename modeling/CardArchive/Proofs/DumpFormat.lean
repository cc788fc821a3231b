import CardArchive.Card.Record
import CardArchive.Proofs.Awards
import CardArchive.Proofs.DataLines

/-!
# Converted cards as records

The text that is made of a dump has one line for each card, and the line of a card is read as a
record with the same values. A card may lack texts that every record has: then its line is refused,
for the first of them.
-/

namespace CardArchive

open Json (Plain)

namespace DumpCard

/-! ## Cards of a dump -/

/-- What holds of every card of a dump. -/
structure Sound (c : DumpCard) : Prop where
  id_fits : Number.fitsInt64 c.id = true
  badges_ascending : c.badges.Ascending
  /-- Among the badges, only floating point numbers are not plain. -/
  badges : ∀ p ∈ c.badges, Award.PlainOrFloat p.2
  trophies_ascending : c.trophies.Ascending
  trophies : ∀ p ∈ c.trophies, Plain 0 p.2

theorem sound_of_ofNode {position : Nat} {n : Xml.Node} {c : DumpCard}
    (h : ofNode position n = .ok c) : c.Sound := by
  unfold ofNode at h
  split at h
  · cases h
  · split at h
    · cases h
    · next id hid =>
      split at h
      · cases h
      · cases h
      · next badges trophies _ _ =>
        cases h
        obtain ⟨hbadges, hplain⟩ := awards_badges badges trophies
        obtain ⟨htrophies, hplain'⟩ := awards_trophies badges trophies
        exact ⟨Number.fitsInt64_of_readInt64? hid, hbadges, hplain, htrophies, hplain'⟩

end DumpCard

theorem Dump.sound_of_cardsFrom {position : Nat} {nodes : List Xml.Node} {cards : List DumpCard}
    (h : cardsFrom position nodes = .ok cards) : ∀ c ∈ cards, c.Sound := by
  induction nodes generalizing position cards with
  | nil =>
    cases h
    exact fun c hc => nomatch hc
  | cons n rest ih =>
    rw [cardsFrom] at h
    cases hn : DumpCard.ofNode position n with
    | error e => rw [hn] at h; cases h
    | ok card =>
      rw [hn] at h
      cases hrest : cardsFrom (position + 1) rest with
      | error e => rw [hrest] at h; cases h
      | ok cards =>
        rw [hrest] at h
        cases h
        exact List.forall_mem_cons.mpr ⟨DumpCard.sound_of_ofNode hn, ih hrest⟩

/-! ## The record of a card -/

namespace DumpCard

/-- The record that has the values of a card. -/
def record (c : DumpCard) : Record where
  id := c.id
  name := c.name
  type := c.type
  motto := c.motto
  category := c.category
  region := c.region
  flag := c.flag
  cardCategory := c.cardCategory
  description := c.description
  badges := .object c.badges
  trophies := .object c.trophies

/-- The texts that every record has, under their keys and in the order of the columns. -/
def requiredTexts (c : DumpCard) : List (String × Option String) :=
  [ ("NAME", c.name), ("TYPE", c.type), ("MOTTO", c.motto), ("CATEGORY", c.category)
  , ("REGION", c.region), ("FLAG", c.flag), ("CARDCATEGORY", c.cardCategory) ]

/-- The key of the first text that is absent. -/
def firstAbsent? (c : DumpCard) : Option String :=
  (c.requiredTexts.find? fun p => p.2.isNone).map Prod.fst

/-- What reading the line of a card comes to. -/
def reread (c : DumpCard) : Except RecordError Record :=
  match c.firstAbsent? with
  | some key => .error (.missingField key)
  | none => .ok c.record

/-! ## The members of a card -/

/-- The values of a card under their keys, absent texts among them. -/
def fields (c : DumpCard) : List (String × Option Json) :=
  ("ID", some (.integer c.id)) :: c.requiredTexts.map (fun p => (p.1, p.2.map .string)) ++
    [ ("DESCRIPTION", c.description.map .string), ("BADGES", some (.object c.badges))
    , ("TROPHIES", some (.object c.trophies)) ]

/-- A value that is there, with its key. -/
def present (p : String × Option Json) : Option (String × Json) := p.2.map fun v => (p.1, v)

theorem filterMap_present_text (key : String) (s : Option String)
    (rest : List (String × Option Json)) :
    ((key, s.map Json.string) :: rest).filterMap present =
      (s.toList.map fun s => (key, .string s)) ++ rest.filterMap present := by
  cases s <;> rfl

theorem filterMap_present_some (key : String) (v : Json) (rest : List (String × Option Json)) :
    ((key, some v) :: rest).filterMap present = (key, v) :: rest.filterMap present := rfl

theorem members_eq (c : DumpCard) : c.members = c.fields.filterMap present := by
  simp only [fields, requiredTexts, List.map_cons, List.map_nil, List.cons_append, List.nil_append,
    filterMap_present_some, filterMap_present_text, List.filterMap_nil, members, List.append_assoc]

theorem nodup_keys_fields (c : DumpCard) : (c.fields.map Prod.fst).Nodup := by
  simp [fields, requiredTexts]

theorem lookup_reverse_eq_none {fields : List (String × Option Json)} {key : String}
    (h : key ∉ fields.map Prod.fst) : (fields.filterMap present).reverse.lookup key = none := by
  refine List.lookup_eq_none_iff.mpr fun q hq => ?_
  obtain ⟨p, hp, hpq⟩ := List.mem_filterMap.mp (List.mem_reverse.mp hq)
  obtain ⟨v, -, rfl⟩ := Option.map_eq_some_iff.mp hpq
  have hne : key ≠ p.1 := fun heq => h (heq ▸ List.mem_map_of_mem hp)
  simp [hne]

/-- Under keys that are all different, each value that is there is found. -/
theorem lookup_reverse_present {fields : List (String × Option Json)}
    (hnodup : (fields.map Prod.fst).Nodup) {p : String × Option Json} (hp : p ∈ fields) :
    (fields.filterMap present).reverse.lookup p.1 = p.2 := by
  induction fields with
  | nil => cases hp
  | cons q rest ih =>
    obtain ⟨hkey, hrest⟩ := List.nodup_cons.mp hnodup
    -- the pairs stand in reverse, so the first field is looked up last
    rcases List.mem_cons.mp hp with rfl | hp
    · have hnone := lookup_reverse_eq_none hkey
      obtain ⟨key, v?⟩ := p
      cases v? with
      | none => exact hnone
      | some v =>
        rw [filterMap_present_some, List.reverse_cons, List.lookup_append, hnone,
          List.lookup_cons_self]
        rfl
    · have hmore := ih hrest hp
      have hne : p.1 ≠ q.1 := fun heq => hkey (heq ▸ List.mem_map_of_mem hp)
      obtain ⟨key, v?⟩ := q
      cases v? with
      | none => exact hmore
      | some v =>
        rw [filterMap_present_some, List.reverse_cons, List.lookup_append, hmore, List.lookup_cons,
          beq_false_of_ne hne]
        exact Option.or_none

/-- Under each key of a card lies its value, if it is there. -/
theorem get?_members {c : DumpCard} {p : String × Option Json} (hp : p ∈ c.fields) :
    (Json.Members.ofList c.members).get? p.1 = p.2 := by
  rw [Json.Members.get?_ofList, members_eq]
  exact lookup_reverse_present (nodup_keys_fields c) hp

theorem get?_members_id (c : DumpCard) :
    (Json.Members.ofList c.members).get? "ID" = some (.integer c.id) :=
  get?_members (List.mem_append_left _ List.mem_cons_self)

theorem get?_members_text {c : DumpCard} {p : String × Option String} (hp : p ∈ c.requiredTexts) :
    (Json.Members.ofList c.members).get? p.1 = p.2.map .string :=
  get?_members (List.mem_append_left _ (List.mem_cons_of_mem _
    (List.mem_map_of_mem (f := fun p => (p.1, p.2.map Json.string)) hp)))

theorem get?_members_description (c : DumpCard) :
    (Json.Members.ofList c.members).get? "DESCRIPTION" = c.description.map .string :=
  get?_members (List.mem_append_right _ List.mem_cons_self)

theorem get?_members_badges (c : DumpCard) :
    (Json.Members.ofList c.members).get? "BADGES" = some (.object c.badges) :=
  get?_members (List.mem_append_right _ (List.mem_cons_of_mem _ List.mem_cons_self))

theorem get?_members_trophies (c : DumpCard) :
    (Json.Members.ofList c.members).get? "TROPHIES" = some (.object c.trophies) :=
  get?_members (List.mem_append_right _ (List.mem_cons_of_mem _
    (List.mem_cons_of_mem _ List.mem_cons_self)))

theorem requiredKeys_eq (c : DumpCard) :
    requiredKeys = "ID" :: c.requiredTexts.map Prod.fst ++ ["BADGES", "TROPHIES"] := by
  show requiredKeys = ["ID", "NAME", "TYPE", "MOTTO", "CATEGORY", "REGION", "FLAG",
    "CARDCATEGORY", "BADGES", "TROPHIES"]
  decide

/-- The key that is missing is that of the first text that is absent. -/
theorem missingKey?_members (c : DumpCard) :
    Record.missingKey? (Json.Members.ofList c.members) = c.firstAbsent? := by
  have htexts : (c.requiredTexts.map Prod.fst).find?
      (fun key => ((Json.Members.ofList c.members).get? key).isNone) = c.firstAbsent? := by
    rw [firstAbsent?, List.find?_map, ← List.head?_filter, ← List.head?_filter]
    refine congrArg (Option.map Prod.fst ∘ List.head?) (List.filter_congr fun p hp => ?_)
    rw [Function.comp_apply, get?_members_text hp, Option.isNone_map]
  rw [Record.missingKey?, requiredKeys_eq c, List.find?_append, List.find?_cons, get?_members_id,
    htexts]
  simp [get?_members_badges, get?_members_trophies]

theorem text_getD (s : Option String) : Record.text ((s.map Json.string).getD .null) = .ok s := by
  cases s <;> rfl

/-- The record of the members is that of the card, absent texts being null. -/
theorem ofMembers_members {c : DumpCard} (h : Number.fitsInt64 c.id = true) :
    Record.ofMembers (Json.Members.ofList c.members) = .ok c.record := by
  have hid : Record.identifier (.integer c.id) = .ok c.id := by
    rw [Record.identifier, if_pos h]
  have htexts : ∀ p ∈ c.requiredTexts,
      Record.text (((Json.Members.ofList c.members).get? p.1).getD .null) = .ok p.2 := by
    intro p hp
    rw [get?_members_text hp, text_getD]
  simp only [requiredTexts, List.forall_mem_cons] at htexts
  obtain ⟨hname, htype, hmotto, hcategory, hregion, hflag, hcardCategory, -⟩ := htexts
  simp only [Record.ofMembers, hname, htype, hmotto, hcategory, hregion, hflag, hcardCategory,
    get?_members_id, get?_members_description, get?_members_badges, get?_members_trophies,
    text_getD, Option.getD_some, hid]
  rfl

/-! ## Lines of cards -/

/-- Without floating point numbers, all values of a card are plain. -/
theorem plain_members {c : DumpCard} (h : c.Sound) (hfloat : ∀ p ∈ c.badges, ∀ x, p.2 ≠ .float x) :
    ∀ p ∈ c.members, Plain 1 p.2 := by
  have hbadges : Plain 1 (.object c.badges) := by
    refine .object h.badges_ascending fun p hp => ?_
    rcases h.badges p hp with hplain | ⟨x, hx⟩
    · exact hplain
    · exact absurd hx (hfloat p hp x)
  have htrophies : Plain 1 (.object c.trophies) := .object h.trophies_ascending h.trophies
  have hfields : ∀ p ∈ c.fields, ∀ v, p.2 = some v → Plain 1 v := by
    have htext : ∀ (s : Option String) (v : Json), s.map .string = some v → Plain 1 v := by
      intro s v hv
      obtain ⟨text, -, rfl⟩ := Option.map_eq_some_iff.mp hv
      exact .string 1 text
    have hid : Plain 1 (.integer c.id) := .integer 1 (Json.fits_of_fitsInt64 h.id_fits)
    simp [fields, requiredTexts, htext, hid, hbadges, htrophies]
  intro p hp
  rw [members_eq] at hp
  obtain ⟨q, hq, hp⟩ := List.mem_filterMap.mp hp
  obtain ⟨v, hv, rfl⟩ := Option.map_eq_some_iff.mp hp
  exact hfields q hq v hv

/-- The line of a card is read as its record, or refused for the first text that is absent. -/
theorem ofLine_line {c : DumpCard} (h : c.Sound)
    (hfloat : ∀ p ∈ c.badges, ∀ x, p.2 ≠ .float x) : Record.ofLine c.line = c.reread := by
  have hparse : Json.parse? c.line = some (.object (Json.Members.ofList c.members)) :=
    Json.parse?_compactInOrder (plain_members h hfloat) (by decide)
  rw [Record.ofLine, hparse]
  show Record.ofJson (.object (Json.Members.ofList c.members)) = _
  rw [Record.ofJson, missingKey?_members, ofMembers_members h.id_fits, reread]
  cases c.firstAbsent? <;> rfl

end DumpCard

/-- The text that a dump is converted to has a line for each card, and each line is read as the
record of its card, or refused for the first text that the card lacks. -/
theorem Dump.dataText_reread {root : Xml.Node} {cards : List DumpCard}
    (h : Dump.cards root = .ok cards)
    (hfloat : ∀ c ∈ cards, ∀ p ∈ c.badges, ∀ x, p.2 ≠ .float x) :
    (Text.splitLines (Text.encode (Dump.dataText cards))).length = cards.length ∧
      (Text.splitLines (Text.encode (Dump.dataText cards))).map
        (fun line => (Text.decode line).map Record.ofLine) = cards.map fun c => some c.reread := by
  have hsound : ∀ c ∈ cards, c.Sound := sound_of_cardsFrom h
  have hplain : ∀ c ∈ cards, ∀ p ∈ c.members, Plain 1 p.2 :=
    fun c hc => DumpCard.plain_members (hsound c hc) (hfloat c hc)
  have hline : ∀ line ∈ cards.map DumpCard.line,
      (∀ x ∈ line.toList, 0x20 ≤ x.toNat) ∧ line.toList ≠ [] := by
    intro line hline
    obtain ⟨c, hc, rfl⟩ := List.mem_map.mp hline
    exact Json.compactInOrder_line (hplain c hc)
  have hlines : Text.splitLines (Text.encode (Dump.dataText cards)) =
      (cards.map DumpCard.line).map Text.encode :=
    Text.splitLines_encode_intercalate (fun line hl => (hline line hl).1)
      fun line hl => (hline line hl).2
  have hreread : ∀ c ∈ cards,
      (Text.decode (Text.encode c.line)).map Record.ofLine = some c.reread := by
    intro c hc
    rw [Text.decode_encode, Option.map_some, DumpCard.ofLine_line (hsound c hc) (hfloat c hc)]
  rw [hlines, List.map_map, List.map_map, List.length_map]
  refine ⟨rfl, List.map_congr_left fun c hc => ?_⟩
  rw [Function.comp_apply, Function.comp_apply]
  exact hreread c hc

/-! ## An example -/

namespace Dump

/-- An element with a text. -/
def leaf (label text : String) : Xml.Node := .element { label := label } [] [.text text]

/-- A dump of two cards, one of which has a name on two lines and nothing else but its awards. -/
def twoCards : Xml.Node :=
  .element { label := "CARDS" } []
    [ .element { label := "SET" } []
      [ .element { label := "CARD" } []
        [ leaf "ID" "1", leaf "NAME" "One", leaf "TYPE" "", leaf "MOTTO" "\"", leaf "CATEGORY" "c"
        , leaf "REGION" "r", leaf "FLAG" "f", leaf "CARDCATEGORY" "k"
        , .element { label := "BADGES" } [] [leaf "BADGE" "Founder"]
        , .element { label := "TROPHIES" } [] [] ]
      , .element { label := "CARD" } []
        [ leaf "ID" "2", leaf "NAME" "Two\nLines", .element { label := "BADGES" } [] []
        , .element { label := "TROPHIES" } [] [] ] ] ]

/-- The first of the two cards. -/
def firstCard : DumpCard where
  id := 1
  name := "One"
  type := ""
  motto := "\""
  category := "c"
  region := "r"
  flag := "f"
  cardCategory := "k"
  description := none
  badges := [("Founder", .integer 1)]
  trophies := []

/-- The second of the two cards. -/
def secondCard : DumpCard where
  id := 2
  name := "Two\nLines"
  type := none
  motto := none
  category := none
  region := none
  flag := none
  cardCategory := none
  description := none
  badges := []
  trophies := []

theorem cards_twoCards : cards twoCards = .ok [firstCard, secondCard] := by
  rfl

/-- The first card is read back, quote and all; the second is refused for its type. -/
theorem dataText_reread_twoCards :
    (Text.splitLines (Text.encode (dataText [firstCard, secondCard]))).map
        (fun line => (Text.decode line).map Record.ofLine) =
      [some (.ok firstCard.record), some (.error (.missingField "TYPE"))] := by
  have hfloat : ∀ c ∈ [firstCard, secondCard], ∀ p ∈ c.badges, ∀ x, p.2 ≠ .float x := by
    simp [firstCard, secondCard]
  exact (dataText_reread cards_twoCards hfloat).2

end Dump

end CardArchive
