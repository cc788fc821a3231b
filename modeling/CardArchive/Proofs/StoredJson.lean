import CardArchive.Proofs.CarriedText
import CardArchive.Proofs.DataLines

/-!
# JSON columns

The columns of JSON texts keep what the record has under their key as a compact text. Where all
numbers are integers of 64 bits, nothing of the value is lost: however it was spelled, what is
stored is one line that is read back as the same value, and a record that carries the stored text
instead is stored with the same text again.

A value below a key has one level of containers less than a line, so the stored text has room to
spare by itself and just fits where it came from.
-/

namespace CardArchive

namespace Json

/-- All numbers in the value are integers of 64 bits, with a sign or without. A zero that was
written with a sign is none of them: it was read as a floating point number. -/
inductive Integral : Json → Prop where
  | null : Integral .null
  | bool (b : Bool) : Integral (.bool b)
  | integer {n : Int} (fits : Fits n) : Integral (.integer n)
  | string (s : String) : Integral (.string s)
  | array {items : List Json} (all : ∀ v ∈ items, Integral v) : Integral (.array items)
  | object {members : Members} (all : ∀ p ∈ members, Integral p.2) : Integral (.object members)

/-- A word is a literal or a number, and no text. -/
theorem wordValue?_cases {w : List Char} {v : Json} (h : wordValue? w = some v) :
    v = .null ∨ (∃ b, v = .bool b) ∨ (∃ n, v = .integer n) ∨ ∃ x, v = .float x := by
  unfold wordValue? at h
  split at h
  · exact Or.inl (Option.some.inj h).symm
  split at h
  · exact Or.inr (Or.inl ⟨true, (Option.some.inj h).symm⟩)
  split at h
  · exact Or.inr (Or.inl ⟨false, (Option.some.inj h).symm⟩)
  obtain ⟨x, -, hx⟩ := Option.bind_eq_some_iff.mp h
  exact Or.inr (Or.inr (Numeral.value_cases hx))

/-- A value that was read has its members in order and no more levels than it may have, so it is
plain when its numbers are integers. -/
theorem Spells.plain {depth : Nat} {v : Json} {ts : List Token} (h : Spells depth v ts)
    (hv : v.Integral) : Plain depth v := by
  induction h with
  | @word depth w v h =>
    rcases wordValue?_cases h with rfl | ⟨b, rfl⟩ | ⟨n, rfl⟩ | ⟨x, rfl⟩
    · exact .null depth
    · exact .bool depth b
    · cases hv with
      | integer fits => exact .integer depth fits
    · cases hv
  | text s => exact .string _ s
  | array _ ih =>
    cases hv with
    | array hall =>
      refine .array fun v hmem => ?_
      obtain ⟨p, hp, rfl⟩ := List.mem_map.mp hmem
      exact ih p hp (hall _ hmem)
  | @object depth members _ ih =>
    cases hv with
    | object hall =>
      have hascending := Members.ascending_ofList (members.map Member.pair)
      refine .object hascending fun p hp => ?_
      -- a member of the object is one of those that stand in the text
      have hpairs : ∀ p ∈ members.map Member.pair, p.2.Integral → Plain depth p.2 :=
        List.forall_mem_map.mpr fun m hm => ih m hm
      exact Members.forall_mem_ofList hpairs p hp (hall p hp)

/-- Every character below a space is escaped in compact text, line feeds among them. -/
theorem Plain.splitLines_compact {depth : Nat} {v : Json} (h : Plain depth v)
    (hdepth : depth ≤ maxDepth) :
    Text.splitLines (Text.encode v.compact) = [Text.encode v.compact] := by
  have hchars : ∀ c ∈ v.compact.toList, 0x20 ≤ c.toNat := by
    rw [compact, String.toList_ofList]
    exact fun c hc => h.legible.le_toNat hc
  have hne : v.compact.toList ≠ [] := by
    intro hnil
    have hparse := parse?_compact h hdepth
    rw [String.toList_eq_nil_iff.mp hnil] at hparse
    cases hparse
  have hlines := Text.splitLines_encode_intercalate (List.forall_mem_singleton.mpr hchars)
    (List.forall_mem_singleton.mpr hne)
  rwa [String.intercalate_singleton] at hlines

/-- A value that a line gives is one level deep in it, so it has one level less to spend. -/
theorem ObjectLine.exists_spells {line : String} {pairs : List (String × Json)}
    (h : ObjectLine line pairs) {key : String} {v : Json} (hv : lastValue pairs key = some v) :
    ∃ ts, Spells (maxDepth - 1) v ts := by
  obtain ⟨members, rfl, hall, -⟩ := h
  obtain ⟨before, after, hreverse, -⟩ := List.lookup_eq_some_iff.mp hv
  have hmem : (key, v) ∈ members.map Member.pair := by
    rw [← List.mem_reverse, hreverse]
    exact List.mem_append_right before List.mem_cons_self
  obtain ⟨m, hm, hpair⟩ := List.mem_map.mp hmem
  obtain rfl : m.2.1 = v := congrArg Prod.snd hpair
  exact ⟨m.2.2, hall m hm⟩

end Json

namespace Row

variable {line key : String} {row : Row}

/-- What a JSON column keeps of a line whose value there has only integers for numbers is one line,
is read back as that value, and is kept as it is by every record that carries it. -/
theorem stored_json_carried_again (h : ofLine line = .ok row)
    (hkey : (key, .json) ∈ sourceKeys) :
    ∃ (members : Json.Members) (v : Json),
      Json.parse? line = some (.object members) ∧ members.get? key = some v ∧
      (v.Integral → ∃ text, row.under? key = some (.text text) ∧
        Text.splitLines (Text.encode text) = [Text.encode text] ∧
        Json.parse? text = some v ∧
        ∀ s : Json.Setting key, Accepted (s.pairs .null) →
          ∃ row', ofLine (s.line text.toList) = .ok row' ∧
            row'.under? key = some (.text text)) := by
  obtain ⟨record, hrecord, -⟩ := bind_eq_ok h
  obtain ⟨members, hparse, hmissing, -⟩ := Record.ofLine_eq_ok hrecord
  obtain ⟨pairs, hpairs, rfl⟩ := Json.objectLine_of_parse? hparse
  have hkeys : ∀ p ∈ sourceKeys, p.2 = .json → p.1 ∈ requiredKeys ∧ p.1 ≠ "DESCRIPTION" := by
    decide
  obtain ⟨hrequired, hdescription⟩ := hkeys _ hkey rfl
  obtain ⟨v, hv⟩ := Record.get?_of_missingKey? hmissing hrequired
  refine ⟨_, v, hparse, hv, fun hintegral => ⟨v.compact, ?_⟩⟩
  rw [Record.get?_ofList_eq_lastValue] at hv
  rw [ofLine_of_objectLine hpairs] at h
  -- the value stands in the line one level down, so its own text has a level to spare
  obtain ⟨ts, hspells⟩ := hpairs.exists_spells hv
  have hplain : Json.Plain (Json.maxDepth - 1) v := hspells.plain hintegral
  have hdepth : Json.maxDepth - 1 ≤ Json.maxDepth := Nat.sub_le _ _
  have hcell := under?_json h hkey
  rw [hv] at hcell
  refine ⟨hcell, hplain.splitLines_compact hdepth, Json.parse?_compact hplain hdepth,
    fun s haccepted => ?_⟩
  obtain ⟨row', hline, hrow'⟩ := exists_ofLine_setting s hplain.legible.writes_compact hplain.spells
    hdescription (not_refuses_of_json hkey v) haccepted
  refine ⟨row', hline, ?_⟩
  have hcell' := under?_json hrow' hkey
  rwa [s.lastValue_self] at hcell'

/-- A line with white space, an escape, a key that is given twice and keys in no order. -/
def spacedLine : String :=
  "\x7b \"BADGES\": \x7b\"b\": [1, \x7b\"x\": -2\x7d], \"a\": 0, \"\\u0061\": \"\\t\"\x7d, " ++
    "\"ID\":7,\"NAME\":null,\"TYPE\":null,\"MOTTO\":null,\"CATEGORY\":null,\"REGION\":null," ++
    "\"FLAG\":null,\"CARDCATEGORY\":null,\"TROPHIES\":null\x7d"

/-- The badges of that line. -/
def spacedBadges : Json :=
  .object [("a", .string "\t"), ("b", .array [.integer 1, .object [("x", .integer (-2))]])]

/-- The members of that line, in the order of their keys. -/
def spacedMembers : Json.Members :=
  [("BADGES", spacedBadges), ("CARDCATEGORY", .null), ("CATEGORY", .null), ("FLAG", .null),
    ("ID", .integer 7), ("MOTTO", .null), ("NAME", .null), ("REGION", .null), ("TROPHIES", .null),
    ("TYPE", .null)]

set_option maxRecDepth 10000 in
theorem parse?_spacedLine : Json.parse? spacedLine = some (.object spacedMembers) := by rfl

theorem integral_spacedBadges : spacedBadges.Integral := by
  have hinner : Json.Integral (.object [("x", .integer (-2))]) :=
    .object (List.forall_mem_singleton.mpr (.integer ⟨by decide, by decide⟩))
  have harray : Json.Integral (.array [.integer 1, .object [("x", .integer (-2))]]) :=
    .array (List.forall_mem_cons.mpr ⟨.integer ⟨by decide, by decide⟩,
      List.forall_mem_singleton.mpr hinner⟩)
  exact .object (List.forall_mem_cons.mpr ⟨.string _, List.forall_mem_singleton.mpr harray⟩)

theorem stored_json_carried_again_spaced :
    ∃ row row' text, ofLine spacedLine = .ok row ∧ row.under? "BADGES" = some (.text text) ∧
      Json.parse? text = some spacedBadges ∧
      ofLine ((Json.Setting.bare "BADGES").line text.toList) = .ok row' ∧
      row'.under? "BADGES" = some (.text text) := by
  have hread : (ofLine spacedLine).toOption.isSome = true := by
    rw [ofLine, Record.ofLine, parse?_spacedLine]
    decide
  cases hrow : ofLine spacedLine with
  | error e =>
    rw [hrow] at hread
    cases hread
  | ok row =>
    obtain ⟨members, v, hparse, hv, hstored⟩ := stored_json_carried_again hrow
      (show ("BADGES", .json) ∈ sourceKeys by decide)
    rw [parse?_spacedLine] at hparse
    cases hparse
    obtain rfl : v = spacedBadges := (Option.some.inj hv).symm
    obtain ⟨text, htext, -, hvalue, hagain⟩ := hstored integral_spacedBadges
    obtain ⟨row', hrow', htext'⟩ := hagain (Json.Setting.bare "BADGES")
      (Json.Setting.accepted_bare (by decide) (by decide))
    exact ⟨row, row', text, rfl, htext, hvalue, hrow', htext'⟩

end Row

end CardArchive
