import CardArchive.Proofs.CarriedText
import CardArchive.Proofs.DumpFormat
import CardArchive.Proofs.FloatReading

/-!
# Badges that are converted and loaded

The badges of a converted card are written into its line as an object of integers, texts, nulls and
floats, and the line is loaded again. All of them come back but the floats, which the loader may read
as other floats. So the stored text is the text in the line exactly when each float is read back from
its own text, and floats with few digits are.
-/

namespace CardArchive

namespace Json

open Award (PlainOrFloat)

/-! ## Values that are read again -/

/-- What a value is read as again. A float whose text cannot be read is as good as null here. -/
def reread : Json → Json
  | .float x => (wordValue? (floatText x)).getD .null
  | v => v

/-- The text of the value can be read, though perhaps as another float. -/
def Readable (v : Json) : Prop := ∀ x, v = .float x → wordValue? (floatText x) ≠ none

/-- A float comes back from its text. -/
def Kept (v : Json) : Prop := ∀ x, v = .float x → parse? (Json.float x).compact = some (.float x)

theorem parse?_compact_float (x : Binary64) :
    parse? (Json.float x).compact = wordValue? (floatText x) := by
  have hwrites := writes_word (floatText_ne_nil x) (inWord_floatText x)
  have hfeed : Reading.feed (.value []) (.word (floatText x)) =
      (wordValue? (floatText x)).map (Reading.complete · []) := rfl
  rw [parse?, compact_float, String.toList_ofList, tokens?_eq_some_iff.mpr hwrites,
    Option.bind_some, ofTokens?, List.foldlM_cons, hfeed]
  cases wordValue? (floatText x) <;> rfl

section Value

variable {v : Json}

theorem Kept.readable (h : Kept v) : Readable v := by
  intro x hx hnone
  have hkept := h x hx
  rw [parse?_compact_float, hnone] at hkept
  cases hkept

theorem reread_of_plain {depth : Nat} (h : Plain depth v) : v.reread = v := by
  cases h <;> rfl

theorem exists_reread_float {x : Binary64} (h : Readable (.float x)) :
    ∃ y, reread (.float x) = .float y ∧ wordValue? (floatText x) = some (.float y) := by
  cases hread : wordValue? (floatText x) with
  | none => exact absurd hread (h x rfl)
  | some v =>
    obtain ⟨y, rfl⟩ := exists_of_wordValue?_floatText hread
    exact ⟨y, by rw [reread, hread, Option.getD_some], rfl⟩

theorem plainOrFloat_reread (hv : PlainOrFloat v) (h : Readable v) : PlainOrFloat v.reread := by
  rcases hv with hplain | ⟨x, rfl⟩
  · rw [reread_of_plain hplain]
    exact Or.inl hplain
  · obtain ⟨y, hy, -⟩ := exists_reread_float h
    exact Or.inr ⟨y, hy⟩

theorem legible_of_plainOrFloat (hv : PlainOrFloat v) : Legible v.tokens := by
  rcases hv with hplain | ⟨x, rfl⟩
  · exact hplain.legible
  · exact legible_word (floatText_ne_nil x) (inWord_floatText x)

/-- The tokens of a readable value spell what it is read as again. -/
theorem spells_reread (hv : PlainOrFloat v) (h : Readable v) : Spells 0 v.reread v.tokens := by
  rcases hv with hplain | ⟨x, rfl⟩
  · rw [reread_of_plain hplain]
    exact hplain.spells
  · obtain ⟨y, hy, hread⟩ := exists_reread_float h
    rw [hy]
    exact .word hread

theorem length_tokens (hv : PlainOrFloat v) : v.tokens.length = 1 := by
  rcases hv with hplain | ⟨x, rfl⟩
  · cases hplain <;> rfl
  · rfl

/-- Only a float that comes back is read as something with the same text. -/
theorem kept_iff_tokens (hv : PlainOrFloat v) (h : Readable v) :
    v.reread.tokens = v.tokens ↔ Kept v := by
  rcases hv with hplain | ⟨x, rfl⟩
  · rw [reread_of_plain hplain]
    refine iff_of_true rfl fun x hx => ?_
    rw [hx] at hplain
    cases hplain
  · obtain ⟨y, hy, hread⟩ := exists_reread_float h
    rw [hy]
    constructor
    · intro htokens x' hx'
      cases hx'
      have htext : floatText y = floatText x := Token.word.inj (List.cons.inj htokens).1
      rw [parse?_compact_float, hread, floatText_injective htext]
    · intro hkept
      have hsame := hkept x rfl
      rw [parse?_compact_float, hread] at hsame
      rw [Option.some.inj hsame]

end Value

/-! ## Objects of such values -/

section Object

variable {members : Members}

/-- The object that the text of an object is read as. -/
def rereadMembers (members : Members) : Members := members.map fun p => (p.1, p.2.reread)

theorem spells_rereadMembers (hascending : members.Ascending)
    (hvalues : ∀ p ∈ members, PlainOrFloat p.2) (h : ∀ p ∈ members, Readable p.2) :
    Spells 1 (.object (rereadMembers members)) (Json.object members).tokens := by
  have hall : ∀ m ∈ members.map fun p => (p.1, p.2.reread, p.2.tokens), Spells 0 m.2.1 m.2.2 :=
    List.forall_mem_map.mpr fun p hp => spells_reread (hvalues p hp) (h p hp)
  have hobject := Spells.object hall
  rw [List.map_map, List.map_map] at hobject
  have hmembers : Members.ofList (rereadMembers members) = rereadMembers members :=
    Members.ofList_of_ascending (List.pairwise_map.mpr hascending)
  rw [tokens, memberTokens_eq_intercalate, List.map_map, ← hmembers]
  exact hobject

/-- The tokens of members with one token each can be cut into those of the values. -/
theorem memberTokens_map_eq_iff {f : Json → Json}
    (hlength : ∀ p ∈ members, (f p.2).tokens.length = p.2.tokens.length) :
    memberTokens (members.map fun p => (p.1, f p.2)) = memberTokens members ↔
      ∀ p ∈ members, (f p.2).tokens = p.2.tokens := by
  induction members with
  | nil => exact iff_of_true rfl (List.forall_mem_nil _)
  | cons p rest ih =>
    obtain ⟨hp, hrest⟩ := List.forall_mem_cons.mp hlength
    have hmore := ih hrest
    rw [List.forall_mem_cons, ← hmore]
    cases rest with
    | nil => simp [memberTokens]
    | cons next rest =>
      rw [List.map_cons, List.map_cons, memberTokens, memberTokens]
      constructor
      · intro heq
        have htail := (List.cons.inj (List.cons.inj heq).2).2
        obtain ⟨hvalue, hbehind⟩ := List.append_inj htail hp
        exact ⟨hvalue, (List.cons.inj hbehind).2⟩
      · rintro ⟨hvalue, hbehind⟩
        rw [hvalue, hbehind]

theorem mem_memberTokens {p : String × Json} {t : Token} (hp : p ∈ members)
    (ht : t ∈ p.2.tokens) : t ∈ memberTokens members := by
  rw [memberTokens_eq_intercalate, List.map_map]
  obtain ⟨before, after, rfl⟩ := List.append_of_mem hp
  rw [List.map_append, List.map_cons, intercalate_comma_cons]
  have htokens : t ∈ (Member.tokens ∘ Member.written) p :=
    List.mem_cons_of_mem _ (List.mem_cons_of_mem _ ht)
  exact List.mem_append_left _ (List.mem_append_right _ htokens)

theorem legible_object_of_plainOrFloat (hvalues : ∀ p ∈ members, PlainOrFloat p.2) :
    Legible (Json.object members).tokens :=
  legible_object fun p hp => legible_of_plainOrFloat (hvalues p hp)

theorem compact_eq_iff {v w : Json} (hv : Legible v.tokens) (hw : Legible w.tokens) :
    v.compact = w.compact ↔ v.tokens = w.tokens := by
  constructor
  · intro h
    have hread := tokens?_eq_some_iff.mpr hv.writes_compact
    rw [h, tokens?_eq_some_iff.mpr hw.writes_compact] at hread
    exact (Option.some.inj hread).symm
  · intro h
    rw [compact, compact, h]

/-- The text of an object comes back exactly when its floats do. -/
theorem compact_rereadMembers_eq_iff (hvalues : ∀ p ∈ members, PlainOrFloat p.2)
    (h : ∀ p ∈ members, Readable p.2) :
    (Json.object (rereadMembers members)).compact = (Json.object members).compact ↔
      ∀ p ∈ members, Kept p.2 := by
  have hreread : ∀ p ∈ rereadMembers members, PlainOrFloat p.2 :=
    List.forall_mem_map.mpr fun p hp => plainOrFloat_reread (hvalues p hp) (h p hp)
  have hlength : ∀ p ∈ members, p.2.reread.tokens.length = p.2.tokens.length := fun p hp => by
    rw [length_tokens (hvalues p hp), length_tokens (plainOrFloat_reread (hvalues p hp) (h p hp))]
  rw [compact_eq_iff (legible_object_of_plainOrFloat hreread)
    (legible_object_of_plainOrFloat hvalues), tokens, tokens, List.append_left_inj,
    List.cons_inj_right, rereadMembers, memberTokens_map_eq_iff hlength]
  exact forall₂_congr fun p hp => kept_iff_tokens (hvalues p hp) (h p hp)

end Object

end Json

namespace DumpCard

variable {c : DumpCard} {p : Option Int}

/-! ## Lines of cards -/

/-- The members of a card in front of its badges. -/
def beforeBadges (c : DumpCard) : List (String × Json) :=
  (c.fields.takeWhile fun p => p.1 ≠ "BADGES").filterMap present

theorem members_eq_append (c : DumpCard) : c.members =
    c.beforeBadges ++ ("BADGES", .object c.badges) :: [("TROPHIES", .object c.trophies)] := by
  have hfields : (c.fields.takeWhile fun p => p.1 ≠ "BADGES") ++
      [("BADGES", some (.object c.badges)), ("TROPHIES", some (.object c.trophies))] =
        c.fields := rfl
  rw [members_eq, ← hfields, List.filterMap_append]
  rfl

theorem plain_around_badges (h : c.Sound) :
    ∀ p ∈ c.beforeBadges ++ [("TROPHIES", .object c.trophies)], Json.Plain 1 p.2 := by
  -- they are members of the same card without badges
  have hsound : Sound { c with badges := [] } :=
    ⟨h.id_fits, List.Pairwise.nil, List.forall_mem_nil _, h.trophies_ascending, h.trophies⟩
  have hplain := plain_members hsound (List.forall_mem_nil _)
  rw [members_eq_append] at hplain
  intro p hp
  refine hplain p ?_
  rcases List.mem_append.mp hp with hp | hp
  · exact List.mem_append_left _ hp
  · exact List.mem_append_right _ (List.mem_cons_of_mem _ hp)

/-- The line of a card as an object around its badges. -/
def aroundBadges (h : c.Sound) : Json.Setting "BADGES" :=
  .written "BADGES" c.beforeBadges [("TROPHIES", .object c.trophies)] (by decide)
    (plain_around_badges h) (by simp)

theorem line_eq_aroundBadges (h : c.Sound) :
    c.line = (aroundBadges h).line (Json.object c.badges).compact.toList := by
  rw [aroundBadges, Json.Setting.line_written, line, members_eq_append]

/-- A card with all texts and a description that gives a population is an acceptable record. -/
theorem accepted_members (h : c.Sound) (hpresent : c.firstAbsent? = none)
    (hpopulation : population? c.description = .ok p) : Accepted c.members := by
  have hrecord : Record.ofJson (.object (Json.Members.ofList c.members)) = .ok c.record := by
    rw [Record.ofJson, missingKey?_members, hpresent, ofMembers_members h.id_fits]
    rfl
  have hrow : ∃ row, Row.ofRecord c.record = .ok row := by
    have hdescription : c.record.description = c.description := rfl
    rw [Row.ofRecord, hdescription, hpopulation]
    exact ⟨_, rfl⟩
  obtain ⟨row, hrow⟩ := hrow
  have hpairs : Row.ofPairs c.members = .ok row := by
    rw [Row.ofPairs, hrecord]
    show (Row.ofRecord c.record).mapError _ = _
    rw [hrow]
    rfl
  exact Row.accepted_of_ofPairs hpairs

/-- Where every float can be read, the line gives a row with the badges as they are read again. -/
theorem exists_ofLine_line (h : c.Sound) (hpresent : c.firstAbsent? = none)
    (hpopulation : population? c.description = .ok p)
    (hreadable : ∀ q ∈ c.badges, Json.Readable q.2) :
    ∃ row, Row.ofLine c.line = .ok row ∧
      row.under? "BADGES" = some (.text (Json.object (Json.rereadMembers c.badges)).compact) := by
  have hmem : ("BADGES", ColumnType.json) ∈ sourceKeys := by decide
  have haccepted : Accepted ((aroundBadges h).pairs (.object c.badges)) := by
    rw [aroundBadges, Json.Setting.pairs_written, ← members_eq_append]
    exact accepted_members h hpresent hpopulation
  have hspells := (Json.spells_rereadMembers h.badges_ascending h.badges hreadable).mono
    (show 1 ≤ Json.maxDepth - 1 by decide)
  obtain ⟨row, hline, hrow⟩ := Row.exists_ofLine_setting (aroundBadges h)
    (Json.legible_object_of_plainOrFloat h.badges).writes_compact hspells (by decide)
    (Row.not_refuses_of_json hmem _)
    ((aroundBadges h).accepted haccepted (by decide) (Row.not_refuses_of_json hmem _))
  refine ⟨row, ?_, ?_⟩
  · rw [line_eq_aroundBadges h]
    exact hline
  · have hcell := Row.under?_json hrow hmem
    rwa [(aroundBadges h).lastValue_self] at hcell

theorem ofLine_line_of_unreadable (h : c.Sound) {q : String × Json} (hq : q ∈ c.badges)
    (hunreadable : ¬Json.Readable q.2) :
    Row.ofLine c.line = .error (.malformed .syntaxError) := by
  unfold Json.Readable at hunreadable
  push Not at hunreadable
  obtain ⟨x, hx, hnone⟩ := hunreadable
  have hword : Json.Token.word (Json.floatText x) ∈ (Json.object c.badges).tokens := by
    have hmem : Json.Token.word (Json.floatText x) ∈ q.2.tokens := by
      rw [hx]
      exact List.mem_singleton_self _
    exact List.mem_append_left _ (List.mem_cons_of_mem _ (Json.mem_memberTokens hq hmem))
  rw [line_eq_aroundBadges h]
  exact Row.ofLine_of_parse?_eq_none ((aroundBadges h).parse?_line_eq_none
    (Json.legible_object_of_plainOrFloat h.badges).writes_compact hword hnone)

/-- The badges are kept exactly when all floats among them come back from their texts. -/
theorem badges_kept_iff (h : c.Sound) (hpresent : c.firstAbsent? = none)
    (hpopulation : population? c.description = .ok p) :
    (∃ row, Row.ofLine c.line = .ok row ∧
        row.under? "BADGES" = some (.text (Json.object c.badges).compact)) ↔
      ∀ q ∈ c.badges, Json.Kept q.2 := by
  by_cases hreadable : ∀ q ∈ c.badges, Json.Readable q.2
  · rw [← Json.compact_rereadMembers_eq_iff h.badges hreadable]
    obtain ⟨row, hline, hcell⟩ := exists_ofLine_line h hpresent hpopulation hreadable
    constructor
    · rintro ⟨row', hline', hcell'⟩
      rw [hline] at hline'
      cases hline'
      rw [hcell] at hcell'
      exact Cell.text.inj (Option.some.inj hcell')
    · intro hsame
      rw [hsame] at hcell
      exact ⟨row, hline, hcell⟩
  · push Not at hreadable
    obtain ⟨q, hq, hunreadable⟩ := hreadable
    -- a float that cannot be read makes the whole line unreadable
    have herror := ofLine_line_of_unreadable h hq hunreadable
    constructor
    · rintro ⟨row, hline, -⟩
      rw [herror] at hline
      cases hline
    · intro hkept
      exact absurd (hkept q hq).readable hunreadable

end DumpCard

namespace Dump

/-- In the line of a card with all texts and a description that gives a population, the badges are a
text that loading keeps exactly when it reads each float as itself. Floats with few digits are read
so. -/
theorem converted_badges_kept_iff {root : Xml.Node} {cards : List DumpCard} {c : DumpCard}
    {p : Option Int} (h : Dump.cards root = .ok cards) (hc : c ∈ cards)
    (hpresent : c.firstAbsent? = none) (hpopulation : population? c.description = .ok p) :
    (∃ s : Json.Setting "BADGES", c.line = s.line (Json.object c.badges).compact.toList) ∧
      ((∃ row, Row.ofLine c.line = .ok row ∧
          row.under? "BADGES" = some (.text (Json.object c.badges).compact)) ↔
        ∀ q ∈ c.badges, ∀ x, q.2 = .float x →
          Json.parse? (Json.float x).compact = some (.float x)) ∧
      ((∀ q ∈ c.badges, ∀ x, q.2 = .float x → Json.Brief (Json.floatText x)) →
        ∃ row, Row.ofLine c.line = .ok row ∧
          row.under? "BADGES" = some (.text (Json.object c.badges).compact)) := by
  have hsound := sound_of_cardsFrom h c hc
  have hkept := DumpCard.badges_kept_iff hsound hpresent hpopulation
  refine ⟨⟨_, DumpCard.line_eq_aroundBadges hsound⟩, hkept, fun hbrief => hkept.mpr ?_⟩
  intro q hq x hx
  rw [Json.parse?_compact_float]
  exact Json.wordValue?_floatText_of_brief (hbrief q hq x hx)

/-- A dump of one card with all texts and a badge that has a type and this text. -/
def oddsDump (text : String) : Xml.Node :=
  .element { label := "CARDS" } []
    [ .element { label := "SET" } []
      [ .element { label := "CARD" } []
        [ leaf "ID" "1", leaf "NAME" "n", leaf "TYPE" "t", leaf "MOTTO" "m", leaf "CATEGORY" "c"
        , leaf "REGION" "r", leaf "FLAG" "f", leaf "CARDCATEGORY" "k"
        , .element { label := "BADGES" } []
            [.element { label := "BADGE" } [⟨{ label := "type" }, "Odds"⟩] [.text text]]
        , .element { label := "TROPHIES" } [] [] ] ] ]

/-- How the floats among the badges of a card are read as decimals. -/
def badgeDecimals (c : DumpCard) : List (Option Decimal) :=
  c.badges.filterMap fun q => match q.2 with
    | .float x => some (Decimal.read? (Json.floatText x))
    | _ => none

theorem brief_of_badgeDecimals {c : DumpCard} {d : Decimal} (h : badgeDecimals c = [some d])
    (hdigits : d.digits < 2 ^ 53) (hexponent : d.exponent.natAbs ≤ 22) :
    ∀ q ∈ c.badges, ∀ x, q.2 = .float x → Json.Brief (Json.floatText x) := by
  intro q hq x hx
  have hmem : Decimal.read? (Json.floatText x) ∈ badgeDecimals c :=
    List.mem_filterMap.mpr ⟨q, hq, by rw [hx]⟩
  rw [h] at hmem
  exact ⟨d, List.mem_singleton.mp hmem, hdigits, hexponent⟩

theorem converted_badges_kept_iff_half :
    ∃ cards c row, Dump.cards (oddsDump "2.5") = .ok cards ∧ c ∈ cards ∧
      badgeDecimals c = [some ⟨false, 25, -1⟩] ∧ Row.ofLine c.line = .ok row ∧
      row.under? "BADGES" = some (.text (Json.object c.badges).compact) := by
  have hfacts : (cards (oddsDump "2.5")).toOption.map (fun cards => cards.map fun c =>
      (c.firstAbsent?, c.description, badgeDecimals c)) =
        some [(none, none, [some ⟨false, 25, -1⟩])] := by decide +kernel
  cases hcards : Dump.cards (oddsDump "2.5") with
  | error e =>
    rw [hcards] at hfacts
    cases hfacts
  | ok cards =>
    rw [hcards] at hfacts
    obtain ⟨c, rfl, hc⟩ := List.map_eq_singleton_iff.mp (Option.some.inj hfacts)
    obtain ⟨hpresent, hc⟩ := Prod.mk.inj hc
    obtain ⟨hdescription, hdecimals⟩ := Prod.mk.inj hc
    have hpopulation : population? c.description = .ok none := by
      rw [hdescription]
      rfl
    obtain ⟨-, -, hkept⟩ := converted_badges_kept_iff hcards (List.mem_singleton_self c) hpresent
      hpopulation
    obtain ⟨row, hline, hcell⟩ := hkept (brief_of_badgeDecimals hdecimals (by decide) (by decide))
    exact ⟨[c], c, row, rfl, List.mem_singleton_self c, hdecimals, hline, hcell⟩

/-- The text of the badges in the line of each card, and what loading keeps of it. -/
def storedBadges (root : Xml.Node) : Option (List (String × Option Cell)) :=
  (cards root).toOption.map fun cards => cards.map fun c =>
    ((Json.object c.badges).compact, (Row.ofLine c.line).toOption.bind (Row.under? · "BADGES"))

/-- A number with one digit that the loader reads as its neighbour. -/
theorem converted_badges_changed :
    storedBadges (oddsDump "1e-23") =
      some [("\x7b\"Odds\":1e-23\x7d",
        some (.text "\x7b\"Odds\":1.0000000000000001e-23\x7d"))] := by
  decide +kernel

end Dump

end CardArchive
