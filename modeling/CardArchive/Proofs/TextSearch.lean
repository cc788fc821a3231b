import CardArchive.Text.Blank
import CardArchive.Text.Search
import Mathlib.Data.List.Infix
import Mathlib.Data.List.TakeWhile

/-!
# Words, occurrences and pieces

What the functions on texts compute, said about the whole text. The words of a text are taken off one
by one, each a maximal run without blanks (`words_append`). A pattern occurs where the text has it as
an infix (`occursIn_iff`); one that stands at a single place is replaced there and nowhere else
(`replaceAll_append`). Cutting at a separator undoes joining with it (`splitAll_append_cons`).
-/

namespace CardArchive.Text

/-! ## Words -/

/-- Only blanks. -/
def AllBlank (s : List Char) : Prop := ∀ c ∈ s, isBlank c = true

/-- At least one character, and no blanks. -/
structure IsWord (w : List Char) : Prop where
  ne_nil : w ≠ []
  not_blank : ∀ c ∈ w, isBlank c = false

/-- Where a word can end: at the end of the text or in front of a blank. -/
def StopsWord (rest : List Char) : Prop := ∀ c ∈ rest.head?, isBlank c = true

instance (s : List Char) : Decidable (AllBlank s) :=
  decidable_of_iff (s.all isBlank = true) List.all_eq_true

instance (w : List Char) : Decidable (IsWord w) :=
  decidable_of_iff (w.isEmpty = false ∧ w.all (!isBlank ·) = true) (by
    rw [List.isEmpty_eq_false_iff, List.all_eq_true]
    simp only [Bool.not_eq_true']
    exact ⟨fun h => ⟨h.1, h.2⟩, fun h => ⟨h.1, h.2⟩⟩)

instance (rest : List Char) : Decidable (StopsWord rest) :=
  decidable_of_iff (rest.head?.all isBlank = true) (Option.all_eq_true isBlank rest.head?)

/-- The first two maximal runs of characters that are not blank. -/
def LeadingWords (s first second : List Char) : Prop :=
  ∃ lead gap rest, s = lead ++ first ++ gap ++ second ++ rest ∧ AllBlank lead ∧ IsWord first ∧
    AllBlank gap ∧ gap ≠ [] ∧ IsWord second ∧ StopsWord rest

theorem isBlank_of_isDigit {c : Char} (h : c.isDigit = true) : isBlank c = false := by
  obtain ⟨hlow, hhigh⟩ := Char.isDigit_iff_toNat.1 h
  have hzero : '0'.toNat = 48 := rfl
  have hnine : '9'.toNat = 57 := rfl
  simp only [isBlank, Bool.or_eq_false_iff, Bool.and_eq_false_iff, decide_eq_false_iff_not]
  omega

theorem words_cons_of_isBlank {c : Char} (hc : isBlank c = true) (s : List Char) :
    words (c :: s) = words s := by
  rw [words, List.foldr_cons, WordsFrom.push, if_pos hc]
  rfl

theorem words_append_of_allBlank {lead : List Char} (h : AllBlank lead) (s : List Char) :
    words (lead ++ s) = words s := by
  induction lead with
  | nil => rfl
  | cons c lead ih =>
    obtain ⟨hc, hlead⟩ := List.forall_mem_cons.1 h
    rw [List.cons_append, words_cons_of_isBlank hc, ih hlead]

/-- In front of a blank, and at the end, no word is under way. -/
theorem foldr_push_of_stopsWord {rest : List Char} (h : StopsWord rest) :
    rest.foldr WordsFrom.push ([], []) = ([], words rest) := by
  cases rest with
  | nil => rfl
  | cons c rest =>
    have hc : isBlank c = true := h c rfl
    rw [words_cons_of_isBlank hc, List.foldr_cons, WordsFrom.push, if_pos hc]
    rfl

theorem foldr_push_append {w : List Char} (hw : ∀ c ∈ w, isBlank c = false) (acc : WordsFrom) :
    w.foldr WordsFrom.push acc = (w ++ acc.1, acc.2) := by
  induction w with
  | nil => rfl
  | cons c w ih =>
    obtain ⟨hc, hw⟩ := List.forall_mem_cons.1 hw
    rw [List.foldr_cons, ih hw, WordsFrom.push, if_neg (by simp [hc])]
    rfl

/-- A maximal run without blanks is the first word. -/
theorem words_append {w rest : List Char} (hw : IsWord w) (hrest : StopsWord rest) :
    words (w ++ rest) = w :: words rest := by
  rw [words, List.foldr_append, foldr_push_of_stopsWord hrest, foldr_push_append hw.not_blank,
    List.append_nil]
  cases w with
  | nil => exact absurd rfl hw.ne_nil
  | cons c w => rfl

theorem words_of_allBlank {s : List Char} (h : AllBlank s) : words s = [] := by
  have hwords := words_append_of_allBlank h []
  rwa [List.append_nil] at hwords

/-- Every text begins with a run of characters that satisfy `p`, if only an empty one. -/
theorem exists_run_append (p : Char → Bool) (s : List Char) : ∃ run rest, s = run ++ rest ∧
    (∀ c ∈ run, p c = true) ∧ ∀ c ∈ rest.head?, p c = false := by
  refine ⟨s.takeWhile p, s.dropWhile p, List.takeWhile_append_dropWhile.symm,
    fun c hc => List.mem_takeWhile_imp hc, fun c hc => ?_⟩
  have hend := List.head?_dropWhile_not p s
  rw [Option.mem_def.1 hc] at hend
  exact hend

/-- A run followed by something else ends there. -/
theorem run_append {p : Char → Bool} {run rest : List Char} (hrun : ∀ c ∈ run, p c = true)
    (hrest : ∀ c ∈ rest.head?, p c = false) :
    (run ++ rest).takeWhile p = run ∧ (run ++ rest).dropWhile p = rest := by
  rw [List.takeWhile_append_of_pos hrun, List.dropWhile_append_of_pos hrun]
  cases rest with
  | nil => exact ⟨List.append_nil _, rfl⟩
  | cons c rest =>
    have hc := hrest c rfl
    rw [List.takeWhile_cons_of_neg (by simp [hc]), List.dropWhile_cons_of_neg (by simp [hc])]
    exact ⟨List.append_nil _, rfl⟩

/-- A text has only blanks, or a first word. -/
theorem allBlank_or_exists_word (s : List Char) : AllBlank s ∨ ∃ lead w rest,
    s = lead ++ (w ++ rest) ∧ AllBlank lead ∧ IsWord w ∧ StopsWord rest := by
  obtain ⟨lead, text, rfl, hlead, htext⟩ := exists_run_append isBlank s
  obtain ⟨w, rest, rfl, hw, hrest⟩ := exists_run_append (fun c => !isBlank c) text
  simp only [Bool.not_eq_true', Bool.not_eq_false'] at hw hrest
  cases w with
  | nil =>
    rw [List.nil_append] at htext ⊢
    cases rest with
    | nil => exact Or.inl (by rwa [List.append_nil])
    | cons c rest => exact absurd (hrest c rfl) (by rw [htext c rfl]; exact Bool.false_ne_true)
  | cons c w => exact Or.inr ⟨lead, c :: w, rest, rfl, hlead, ⟨List.cons_ne_nil c w, hw⟩, hrest⟩

theorem words_of_leadingWords {s first second : List Char} (h : LeadingWords s first second) :
    ∃ others, words s = first :: second :: others := by
  obtain ⟨lead, gap, rest, rfl, hlead, hfirst, hgap, hne, hsecond, hrest⟩ := h
  have hstop : StopsWord (gap ++ second ++ rest) := by
    cases gap with
    | nil => exact absurd rfl hne
    | cons c gap => exact fun d hd => hgap d (Option.mem_some_iff.1 hd ▸ List.mem_cons_self)
  refine ⟨words rest, ?_⟩
  rw [List.append_assoc, List.append_assoc, List.append_assoc, words_append_of_allBlank hlead,
    ← List.append_assoc gap, words_append hfirst hstop, List.append_assoc,
    words_append_of_allBlank hgap, words_append hsecond hrest]

/-- A text has two leading words, or one word at most. -/
theorem leadingWords_cases (s : List Char) : (∃ first second, LeadingWords s first second) ∨
    words s = [] ∨ ∃ w, IsWord w ∧ words s = [w] := by
  rcases allBlank_or_exists_word s with hs | ⟨lead, first, rest, rfl, hlead, hfirst, hrest⟩
  · exact Or.inr (Or.inl (words_of_allBlank hs))
  · rcases allBlank_or_exists_word rest with hblank | ⟨gap, second, rest, rfl, hgap, hsecond, hstop⟩
    · refine Or.inr (Or.inr ⟨first, hfirst, ?_⟩)
      rw [words_append_of_allBlank hlead, words_append hfirst hrest, words_of_allBlank hblank]
    · refine Or.inl ⟨first, second, lead, gap, rest, ?_, hlead, hfirst, hgap, ?_, hsecond, hstop⟩
      · simp only [List.append_assoc]
      · rintro rfl
        -- without a gap the second word would go on with the first
        cases second with
        | nil => exact hsecond.ne_nil rfl
        | cons c second =>
          have hc := hsecond.not_blank c List.mem_cons_self
          exact absurd (hrest c rfl) (by rw [hc]; exact Bool.false_ne_true)

/-! ## Occurrences -/

variable {pattern new : List Char}

/-- A pattern occurs where the text has it as an infix. -/
theorem occursIn_iff {s : List Char} : occursIn pattern s = true ↔ pattern <:+: s := by
  induction s with
  | nil => rw [occursIn, List.isEmpty_iff, List.infix_nil]
  | cons c s ih => rw [occursIn, Bool.or_eq_true, List.isPrefixOf_iff_prefix, ih, List.infix_cons_iff]

theorem replaceFrom_of_not_infix {s : List Char} (h : ¬ pattern <:+: s) :
    replaceFrom pattern new 0 s = s := by
  induction s with
  | nil => rfl
  | cons c s ih =>
    rw [List.infix_cons_iff, not_or] at h
    have hprefix : pattern.isPrefixOf (c :: s) = false := by
      rw [← Bool.not_eq_true, List.isPrefixOf_iff_prefix]
      exact h.1
    rw [replaceFrom, hprefix, ih h.2]
    rfl

theorem replaceFrom_length_append (skipped s : List Char) :
    replaceFrom pattern new skipped.length (skipped ++ s) = replaceFrom pattern new 0 s := by
  induction skipped with
  | nil => rfl
  | cons c skipped ih => rw [List.length_cons, List.cons_append, replaceFrom, ih]

/-- A pattern that stands at a single place is replaced there and nowhere else. -/
theorem replaceAll_append {before after : List Char} (hne : pattern ≠ [])
    (hunique : ∀ x y, x ++ pattern ++ y = before ++ pattern ++ after → x = before) :
    replaceAll pattern new (before ++ pattern ++ after) = before ++ new ++ after := by
  unfold replaceAll
  induction before with
  | nil =>
    -- the pattern behind the first place of it would be a second place
    have hafter : ¬ pattern <:+: after := by
      rintro ⟨x, y, hxy⟩
      have hsecond := hunique (pattern ++ x) y (by
        rw [← hxy, List.nil_append, List.append_assoc, List.append_assoc, List.append_assoc])
      exact hne (List.append_eq_nil_iff.1 hsecond).1
    obtain ⟨c, rest, rfl⟩ := List.exists_cons_of_ne_nil hne
    have hprefix : (c :: rest).isPrefixOf (c :: (rest ++ after)) = true := by
      rw [List.isPrefixOf_iff_prefix]
      exact List.prefix_append (c :: rest) after
    rw [List.nil_append, List.nil_append, List.cons_append, replaceFrom, hprefix, if_pos rfl,
      List.length_cons, Nat.add_sub_cancel, replaceFrom_length_append,
      replaceFrom_of_not_infix hafter]
  | cons c before ih =>
    have hprefix : pattern.isPrefixOf (c :: (before ++ pattern ++ after)) = false := by
      rw [← Bool.not_eq_true, List.isPrefixOf_iff_prefix]
      rintro ⟨y, hy⟩
      exact absurd (hunique [] y hy).symm (List.cons_ne_nil c before)
    rw [List.cons_append, List.cons_append, replaceFrom, hprefix, if_neg Bool.false_ne_true,
      ih fun x y hxy => ?_]
    · rfl
    · have hcons := hunique (c :: x) y (congrArg (c :: ·) hxy)
      exact (List.cons.inj hcons).2

/-! ## Pieces -/

variable {sep : Char}

theorem splitAll_cons_self (sep : Char) (s : List Char) :
    splitAll sep (sep :: s) = [] :: splitAll sep s := by
  rw [splitAll, splitAll, List.foldr_cons]
  dsimp only
  rw [if_pos rfl]

theorem splitAll_cons_of_ne {c : Char} (hc : c ≠ sep) (s : List Char) : ∃ piece pieces,
    splitAll sep s = piece :: pieces ∧ splitAll sep (c :: s) = (c :: piece) :: pieces := by
  refine ⟨_, _, rfl, ?_⟩
  rw [splitAll, List.foldr_cons]
  dsimp only
  rw [if_neg hc]

/-- Text without the separator stays in one piece. -/
theorem splitAll_append {a s : List Char} {piece : List Char} {pieces : List (List Char)}
    (ha : sep ∉ a) (hs : splitAll sep s = piece :: pieces) :
    splitAll sep (a ++ s) = (a ++ piece) :: pieces := by
  induction a with
  | nil => exact hs
  | cons c a ih =>
    obtain ⟨hc, ha⟩ := not_or.1 (List.mem_cons.not.1 ha)
    obtain ⟨_, _, hrest, hcons⟩ := splitAll_cons_of_ne (Ne.symm hc) (a ++ s)
    rw [ih ha] at hrest
    obtain ⟨rfl, rfl⟩ := List.cons.inj hrest
    exact hcons

theorem splitAll_of_not_mem {s : List Char} (h : sep ∉ s) : splitAll sep s = [s] := by
  have hsplit := splitAll_append (s := []) h rfl
  rwa [List.append_nil] at hsplit

/-- Cutting at a separator undoes joining with it. -/
theorem splitAll_append_cons {a : List Char} (h : sep ∉ a) (s : List Char) :
    splitAll sep (a ++ sep :: s) = a :: splitAll sep s := by
  rw [splitAll_append h (splitAll_cons_self sep s), List.append_nil]

/-- A separator divides the pieces of a text into those before it and those after it. -/
theorem splitAll_append_sep (sep : Char) (a s : List Char) :
    splitAll sep (a ++ sep :: s) = splitAll sep a ++ splitAll sep s := by
  induction a with
  | nil => exact splitAll_cons_self sep s
  | cons c a ih =>
    by_cases hc : c = sep
    · rw [hc, List.cons_append, splitAll_cons_self, splitAll_cons_self, ih, List.cons_append]
    · obtain ⟨_, _, hrest, hcons⟩ := splitAll_cons_of_ne hc (a ++ sep :: s)
      obtain ⟨_, _, ha, hca⟩ := splitAll_cons_of_ne hc a
      rw [ih, ha, List.cons_append] at hrest
      obtain ⟨rfl, rfl⟩ := List.cons.inj hrest
      rw [List.cons_append, hcons, hca, List.cons_append]

theorem splitOnce_append_cons {a : List Char} (h : sep ∉ a) (s : List Char) :
    splitOnce sep (a ++ sep :: s) = some (a, s) := by
  have hpass : ∀ c ∈ a, decide (c ≠ sep) = true := fun c hc =>
    decide_eq_true fun heq => h (heq ▸ hc)
  have hstop : ∀ c ∈ (sep :: s).head?, decide (c ≠ sep) = false := by simp
  obtain ⟨htake, hdrop⟩ := run_append hpass hstop
  rw [splitOnce, hdrop, htake]

theorem splitOnce_of_not_mem {s : List Char} (h : sep ∉ s) : splitOnce sep s = none := by
  have hdrop : s.dropWhile (· ≠ sep) = [] := by
    rw [List.dropWhile_eq_nil_iff]
    exact fun c hc => decide_eq_true fun heq => h (heq ▸ hc)
  rw [splitOnce, hdrop]

/-- A separator that stands at a single place divides a text in one way. -/
theorem append_cons_inj {a b x y : List Char} (ha : sep ∉ a) (hb : sep ∉ b)
    (h : x ++ sep :: y = a ++ sep :: b) : x = a ∧ y = b := by
  rcases List.append_eq_append_iff.1 h with ⟨d, rfl, hd⟩ | ⟨d, rfl, hd⟩
  · cases d with
    | nil => exact ⟨(List.append_nil x).symm, (List.cons.inj hd).2⟩
    | cons c d =>
      rw [(List.cons.inj hd).1] at ha
      exact absurd (List.mem_append_right x List.mem_cons_self) ha
  · cases d with
    | nil => exact ⟨List.append_nil a, (List.cons.inj hd).2.symm⟩
    | cons c d =>
      rw [(List.cons.inj hd).2] at hb
      exact absurd (List.mem_append_right d List.mem_cons_self) hb

end CardArchive.Text
