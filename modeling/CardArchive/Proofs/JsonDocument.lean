import CardArchive.Proofs.JsonGrammar
import CardArchive.Proofs.JsonNumber
import CardArchive.Proofs.JsonToken

/-!
# Values and their texts

A value whose numbers are integers is read back from its text. The proof follows the two halves of
reading: the tokens of the value come back from their characters, and the machine that takes them
one by one arrives at the value with the same containers open as before.
-/

namespace CardArchive.Json

/-- A value that its text determines: its numbers are integers of 64 bits, the members of its
objects stand in order, and it has at most so many levels of containers. -/
inductive Plain : Nat → Json → Prop where
  | null (depth : Nat) : Plain depth .null
  | bool (depth : Nat) (b : Bool) : Plain depth (.bool b)
  | integer (depth : Nat) {n : Int} (fits : Fits n) : Plain depth (.integer n)
  | string (depth : Nat) (s : String) : Plain depth (.string s)
  | array {depth : Nat} {items : List Json} (all : ∀ v ∈ items, Plain depth v) :
    Plain (depth + 1) (.array items)
  | object {depth : Nat} {members : Members} (ascending : members.Ascending)
    (all : ∀ p ∈ members, Plain depth p.2) : Plain (depth + 1) (.object members)

/-! ## Tokens of values -/

/-- The tokens of a value can be told apart by their characters. -/
structure Legible (ts : List Token) : Prop where
  proper : ∀ t ∈ ts, t.Proper
  separated : Token.Separated false ts

theorem legible_nil : Legible [] where
  proper := fun _ ht => nomatch ht
  separated := trivial

theorem legible_word {w : List Char} (hne : w ≠ []) (h : ∀ c ∈ w, Token.inWord c = true) :
    Legible [.word w] where
  proper := List.forall_mem_singleton.mpr ⟨hne, h⟩
  separated := ⟨fun hfalse => absurd hfalse Bool.false_ne_true, trivial⟩

namespace Legible

variable {first second ts : List Token}

/-- Around a token that is no word, tokens can be told apart. -/
theorem append_cons (hfirst : Legible first) (t : Token) (ht : t.isWord = false)
    (hsecond : Legible second) : Legible (first ++ t :: second) where
  proper := List.forall_mem_append.mpr ⟨hfirst.proper, List.forall_mem_cons.mpr
    ⟨Token.proper_of_isWord_eq_false ht, hsecond.proper⟩⟩
  separated := Token.separated_append_cons ht hfirst.separated hsecond.separated

theorem cons (t : Token) (ht : t.isWord = false) (h : Legible ts) : Legible (t :: ts) :=
  legible_nil.append_cons t ht h

/-- Brackets around tokens are told apart from them. -/
theorem between (opening closing : Token) (hopening : opening.isWord = false)
    (hclosing : closing.isWord = false) (h : Legible ts) :
    Legible (opening :: ts ++ [closing]) :=
  (h.cons opening hopening).append_cons closing hclosing legible_nil

/-- A key and a colon are told apart from the tokens of the value. -/
theorem member (k : List Char) (h : Legible ts) : Legible (.text k :: .colon :: ts) :=
  (h.cons .colon rfl).cons (.text k) rfl

theorem writes (h : Legible ts) : Writes (ts.flatMap Token.chars) ts :=
  writes_flatMap_chars h.proper h.separated

theorem writes_compact {v : Json} (h : Legible v.tokens) : Writes v.compact.toList v.tokens := by
  rw [compact, String.toList_ofList]
  exact h.writes

end Legible

theorem legible_itemTokens {items : List Json} (h : ∀ v ∈ items, Legible v.tokens) :
    Legible (itemTokens items) := by
  induction items with
  | nil => exact legible_nil
  | cons v rest ih =>
    obtain ⟨hv, hrest⟩ := List.forall_mem_cons.mp h
    cases rest with
    | nil => exact hv
    | cons next rest => exact hv.append_cons .comma rfl (ih hrest)

theorem legible_memberTokens {members : List (String × Json)}
    (h : ∀ p ∈ members, Legible p.2.tokens) : Legible (memberTokens members) := by
  induction members with
  | nil => exact legible_nil
  | cons p rest ih =>
    obtain ⟨hp, hrest⟩ := List.forall_mem_cons.mp h
    cases rest with
    | nil => exact hp.member p.1.toList
    | cons next rest => exact (hp.append_cons .comma rfl (ih hrest)).member p.1.toList

theorem legible_object {members : List (String × Json)}
    (h : ∀ p ∈ members, Legible p.2.tokens) :
    Legible (.openObject :: memberTokens members ++ [.closeObject]) :=
  (legible_memberTokens h).between .openObject .closeObject rfl rfl

theorem inWord_integerText (n : Int) : ∀ c ∈ integerText n, Token.inWord c = true := by
  intro c hc
  rcases mem_integerText hc with h | rfl
  · simp [Token.inWord, Char.isAlphanum, h]
  · decide

theorem Plain.legible {depth : Nat} {v : Json} (h : Plain depth v) : Legible v.tokens := by
  induction h with
  | null => exact legible_word (by decide) (List.all_eq_true.mp (by decide))
  | bool depth b =>
    cases b with
    | false => exact legible_word (by decide) (List.all_eq_true.mp (by decide))
    | true => exact legible_word (by decide) (List.all_eq_true.mp (by decide))
  | integer => exact legible_word (integerText_ne_nil _) (inWord_integerText _)
  | string depth s => exact legible_nil.cons (.text s.toList) rfl
  | array _ ih => exact (legible_itemTokens ih).between .openArray .closeArray rfl rfl
  | object _ _ ih => exact legible_object ih

/-! ## Tokens that spell values -/

theorem itemTokens_eq_intercalate (items : List Json) :
    itemTokens items = [Token.comma].intercalate (items.map tokens) := by
  induction items with
  | nil => rfl
  | cons v rest ih =>
    cases rest with
    | nil => exact List.intercalate_singleton.symm
    | cons next rest =>
      rw [itemTokens, ih, List.map_cons, List.map_cons, List.map_cons,
        List.intercalate_cons_cons, List.append_assoc]
      rfl

/-- A member with the tokens that it is written with. -/
def Member.written (p : String × Json) : Member := (p.1, p.2, p.2.tokens)

theorem memberTokens_eq_intercalate (pairs : List (String × Json)) :
    memberTokens pairs =
      [Token.comma].intercalate ((pairs.map Member.written).map Member.tokens) := by
  induction pairs with
  | nil => rfl
  | cons p rest ih =>
    cases rest with
    | nil => exact List.intercalate_singleton.symm
    | cons next rest =>
      simp only [List.map_cons] at ih ⊢
      rw [memberTokens, ih, List.intercalate_cons_cons, List.append_assoc]
      rfl

/-- The tokens of a sequence spell it when those of its items do. -/
theorem spells_array {depth : Nat} {items : List Json}
    (h : ∀ v ∈ items, Spells depth v v.tokens) :
    Spells (depth + 1) (.array items) (.array items : Json).tokens := by
  have hall : ∀ p ∈ items.map fun v => (v, v.tokens), Spells depth p.1 p.2 :=
    List.forall_mem_map.mpr h
  have harray := Spells.array hall
  rw [List.map_map, List.map_map] at harray
  rw [tokens, itemTokens_eq_intercalate]
  simpa [Function.comp_def] using harray

/-- The tokens of members, in whatever order they stand, spell the object made of them. -/
theorem spells_object {depth : Nat} {pairs : List (String × Json)}
    (h : ∀ p ∈ pairs, Spells depth p.2 p.2.tokens) :
    Spells (depth + 1) (.object (Members.ofList pairs))
      (.openObject :: memberTokens pairs ++ [.closeObject]) := by
  have hall : ∀ m ∈ pairs.map Member.written, Spells depth m.2.1 m.2.2 :=
    List.forall_mem_map.mpr h
  have hpairs : (pairs.map Member.written).map Member.pair = pairs := by
    rw [List.map_map]
    exact List.map_id pairs
  have hobject := Spells.object hall
  rw [hpairs] at hobject
  rw [memberTokens_eq_intercalate]
  exact hobject

/-- A plain value is spelled by its tokens. -/
theorem Plain.spells {depth : Nat} {v : Json} (h : Plain depth v) : Spells depth v v.tokens := by
  induction h with
  | null => exact .word rfl
  | bool depth b => cases b <;> exact .word rfl
  | integer depth fits => exact .word (wordValue?_integerText fits)
  | string depth s => exact .text s
  | array _ ih => exact spells_array ih
  | @object depth members ascending _ ih =>
    have hobject := spells_object ih
    rw [Members.ofList_of_ascending ascending] at hobject
    exact hobject

/-! ## Reading texts -/

/-- A plain value is read back from its text. -/
theorem parse?_compact {depth : Nat} {v : Json} (h : Plain depth v) (hdepth : depth ≤ maxDepth) :
    parse? v.compact = some v := by
  have hspells : Spells maxDepth v v.tokens := h.spells.mono hdepth
  rw [parse?, tokens?_eq_some_iff.mpr h.legible.writes_compact, Option.bind_some]
  exact ofTokens?_eq_some_iff.mpr hspells

/-- An object whose members were written in any order is spelled by them. -/
theorem objectLine_compactInOrder {depth : Nat} {pairs : List (String × Json)}
    (h : ∀ p ∈ pairs, Plain depth p.2) (hdepth : depth < maxDepth) :
    ObjectLine (compactInOrder pairs) pairs := by
  have hlegible := legible_object fun p hp => (h p hp).legible
  refine ⟨pairs.map Member.written, ?_, List.forall_mem_map.mpr fun p hp => ?_, ?_⟩
  · rw [List.map_map]
    exact (List.map_id pairs).symm
  · exact (h p hp).spells.mono (Nat.le_pred_of_lt hdepth)
  · rw [compactInOrder, String.toList_ofList, ← memberTokens_eq_intercalate]
    exact hlegible.writes

/-- An object whose members were written in any order is read back with its members in order. -/
theorem parse?_compactInOrder {depth : Nat} {pairs : List (String × Json)}
    (h : ∀ p ∈ pairs, Plain depth p.2) (hdepth : depth < maxDepth) :
    parse? (compactInOrder pairs) = some (.object (Members.ofList pairs)) :=
  (objectLine_compactInOrder h hdepth).parse?_eq

/-! ## One line -/

theorem le_toNat_of_inWord {c : Char} (h : Token.inWord c = true) : 0x20 ≤ c.toNat := by
  have hall : ∀ n < 0x20, Token.inWord (Char.ofNat n) = false := by decide
  refine Nat.le_of_not_lt fun hlt => ?_
  have hfalse := hall c.toNat hlt
  rw [Char.ofNat_toNat, h] at hfalse
  cases hfalse

/-- Tokens that can be told apart are written without control characters. -/
theorem Legible.le_toNat {ts : List Token} (h : Legible ts) {c : Char}
    (hc : c ∈ ts.flatMap Token.chars) : 0x20 ≤ c.toNat := by
  obtain ⟨t, ht, hct⟩ := List.mem_flatMap.mp hc
  cases t with
  | word w => exact le_toNat_of_inWord ((h.proper _ ht).2 c hct)
  | text s =>
    rcases List.mem_append.mp hct with hct | hct
    · rcases List.mem_cons.mp hct with rfl | hct
      · decide
      · exact le_toNat_of_mem_escape hct
    · cases List.mem_singleton.mp hct
      decide
  | _ =>
    cases List.mem_singleton.mp hct
    decide

/-- An object is written on one line, and not on an empty one. -/
theorem compactInOrder_line {depth : Nat} {pairs : List (String × Json)}
    (h : ∀ p ∈ pairs, Plain depth p.2) :
    (∀ c ∈ (compactInOrder pairs).toList, 0x20 ≤ c.toNat) ∧
      (compactInOrder pairs).toList ≠ [] := by
  have hlegible := legible_object fun p hp => (h p hp).legible
  rw [compactInOrder, String.toList_ofList]
  exact ⟨fun c hc => hlegible.le_toNat hc, List.cons_ne_nil _ _⟩

end CardArchive.Json
