import CardArchive.Storage.Readings
import CardArchive.Proofs.DataLines

/-!
# Lines that are read

When asking for lines comes to an end, whatever the readings of a file are. Counting goes on until
the file ends where no line is begun, and if it never does, for ever: failures do not stop it. For a
file that gives its bytes and then its end, the lines are those into which its bytes are cut.
-/

namespace CardArchive

/-! ## Steps that are made again and again -/

section

variable {α β : Type} {f : α →. β ⊕ α} {a a' : α} {b : β}

theorem fix_eq_some (h : f a = .some (.inl b)) : f.fix a = .some b :=
  Part.eq_some_iff.mpr (PFun.fix_stop (h ▸ Part.mem_some _))

theorem fix_eq_fix (h : f a = .some (.inr a')) : f.fix a = f.fix a' :=
  PFun.fix_fwd_eq (h ▸ Part.mem_some _)

end

namespace Readings

variable {r : Readings} {place next : Nat} {begun bytes line rest : List UInt8}

/-! ## One reading of a line -/

theorem nextLine_of_readOn {p : Option (Except FileFault String) × Nat}
    (h : r.readOn (place, begun) = .inl p) : r.nextLine place begun = .some p :=
  fix_eq_some (congrArg Part.some h)

theorem nextLine_of_readOn_inr {begun' : List UInt8}
    (h : r.readOn (place, begun) = .inr (next, begun')) :
    r.nextLine place begun = r.nextLine next begun' :=
  fix_eq_fix (congrArg Part.some h)

theorem readOn_lineFeed (h : r place = .byte Text.lineFeed) :
    r.readOn (place, begun) =
      .inl (some (Text.decodeLine (Text.dropReturn begun.reverse)), place + 1) := by
  rw [readOn, h]
  exact if_pos rfl

theorem readOn_byte {b : UInt8} (h : r place = .byte b) (hb : b ≠ Text.lineFeed) :
    r.readOn (place, begun) = .inr (place + 1, b :: begun) := by
  rw [readOn, h]
  exact if_neg hb

theorem readOn_ended (h : r place = .ended) :
    r.readOn (place, begun) = .inl
      (if begun.isEmpty then none else some (Text.decodeLine begun.reverse), place + 1) := by
  rw [readOn, h]

theorem readOn_interrupted (h : r place = .interrupted) :
    r.readOn (place, begun) = .inr (place + 1, begun) := by
  rw [readOn, h]

theorem readOn_failed {fault : FileFault} (h : r place = .failed fault) :
    r.readOn (place, begun) = .inl (some (.error fault), place + 1) := by
  rw [readOn, h]

/-! ## The next line -/

/-- The first line that is delivered is the one up to the first line feed. -/
theorem nextLine_of_lineFeed (h : r.Deliver place (line ++ Text.lineFeed :: rest))
    (hline : ∀ b ∈ line, b ≠ Text.lineFeed) (begun : List UInt8) :
    ∃ next, r.nextLine place begun =
        .some (some (Text.decodeLine (Text.dropReturn (begun.reverse ++ line))), next) ∧
      r.Deliver next rest := by
  generalize hbytes : line ++ Text.lineFeed :: rest = bytes at h
  induction h generalizing line begun with
  | @byte place b others hread hrest ih =>
    cases line with
    | nil =>
      obtain ⟨rfl, rfl⟩ := List.cons.inj hbytes
      rw [List.append_nil]
      exact ⟨place + 1, nextLine_of_readOn (readOn_lineFeed hread), hrest⟩
    | cons c line =>
      obtain ⟨rfl, hothers⟩ := List.cons.inj hbytes
      obtain ⟨hc, hline⟩ := List.forall_mem_cons.mp hline
      obtain ⟨next, hnext, hdeliver⟩ := ih hline (c :: begun) hothers
      rw [List.reverse_cons, List.append_assoc, List.singleton_append] at hnext
      exact ⟨next, (nextLine_of_readOn_inr (readOn_byte hread hc)).trans hnext, hdeliver⟩
  | interrupted hread hrest ih =>
    obtain ⟨next, hnext, hdeliver⟩ := ih hline begun hbytes
    exact ⟨next, (nextLine_of_readOn_inr (readOn_interrupted hread)).trans hnext, hdeliver⟩
  | ended hread => simp at hbytes

/-- What is delivered without a line feed is the last line, or no line if it is nothing. -/
theorem nextLine_of_no_lineFeed (h : r.Deliver place line)
    (hline : ∀ b ∈ line, b ≠ Text.lineFeed) (begun : List UInt8) :
    ∃ next, r.nextLine place begun =
        .some (if begun.reverse ++ line = [] then none
          else some (Text.decodeLine (begun.reverse ++ line)), next) ∧
      r.Deliver next [] := by
  induction h generalizing begun with
  | @byte place b others hread hrest ih =>
    obtain ⟨hb, hothers⟩ := List.forall_mem_cons.mp hline
    obtain ⟨next, hnext, hdeliver⟩ := ih hothers (b :: begun)
    rw [List.reverse_cons, List.append_assoc, List.singleton_append] at hnext
    exact ⟨next, (nextLine_of_readOn_inr (readOn_byte hread hb)).trans hnext, hdeliver⟩
  | interrupted hread hrest ih =>
    obtain ⟨next, hnext, hdeliver⟩ := ih hline begun
    exact ⟨next, (nextLine_of_readOn_inr (readOn_interrupted hread)).trans hnext, hdeliver⟩
  | @ended place hread =>
    refine ⟨place + 1, ?_, .ended fun n hn => hread n (Nat.le_of_succ_le hn)⟩
    rw [nextLine_of_readOn (readOn_ended (hread place (Nat.le_refl _))), List.append_nil]
    cases begun <;> simp

/-! ## All lines -/

/-- What asking for one line after the other comes to, from a place on: lines that are found and
lines that cannot be read, and the place up to which readings were made. -/
inductive Yields (r : Readings) : Nat → List (Except FileFault String) → Nat → Prop where
  | nil (place : Nat) : Yields r place [] place
  | cons {place next last : Nat} {line : Except FileFault String}
      {lines : List (Except FileFault String)}
      (hline : r.nextLine place [] = .some (some line, next))
      (hrest : Yields r next lines last) : Yields r place (line :: lines) last

/-- The lines that are delivered are those into which the bytes are cut, and then there is none. -/
theorem yields_of_deliver (h : r.Deliver place bytes) :
    ∃ last next, r.Yields place ((Text.splitLines bytes).map Text.decodeLine) last ∧
      r.nextLine last [] = .some (none, next) := by
  -- by the number of bytes: a line takes at least its line feed away
  induction hlen : bytes.length using Nat.strongRecOn generalizing place bytes with
  | ind n ih =>
    by_cases hfeed : Text.lineFeed ∈ bytes
    · obtain ⟨line, rest, rfl, hnot⟩ := List.eq_append_cons_of_mem hfeed
      have hline : ∀ b ∈ line, b ≠ Text.lineFeed := fun b hb heq => hnot (heq ▸ hb)
      have hshorter : rest.length < n := by
        rw [← hlen, List.length_append, List.length_cons]
        omega
      obtain ⟨next, hfirst, hdeliver⟩ := nextLine_of_lineFeed h hline []
      obtain ⟨last, final, hyields, hnone⟩ := ih _ hshorter hdeliver rfl
      refine ⟨last, final, ?_, hnone⟩
      rw [Text.splitLines_append_lineFeed hline, List.map_cons]
      exact .cons hfirst hyields
    · have hline : ∀ b ∈ bytes, b ≠ Text.lineFeed := fun b hb heq => hfeed (heq ▸ hb)
      obtain ⟨next, hfirst, hdeliver⟩ := nextLine_of_no_lineFeed h hline []
      rw [List.reverse_nil, List.nil_append] at hfirst
      by_cases hnil : bytes = []
      · subst hnil
        exact ⟨place, next, .nil place, hfirst⟩
      · rw [if_neg hnil] at hfirst
        obtain ⟨final, hnone, -⟩ := nextLine_of_no_lineFeed hdeliver (List.forall_mem_nil _) []
        refine ⟨next, final, ?_, hnone⟩
        rw [Text.splitLines_of_no_lineFeed hline hnil]
        exact .cons hfirst (.nil next)

theorem countLines_of_none (h : r.nextLine place [] = .some (none, next)) (before : Nat) :
    r.countLines place before = .some before := by
  refine fix_eq_some ?_
  rw [countOn, h, Part.map_some]

theorem countLines_of_line {line : Except FileFault String}
    (h : r.nextLine place [] = .some (some line, next)) (before : Nat) :
    r.countLines place before = r.countLines next (before + 1) := by
  refine fix_eq_fix ?_
  rw [countOn, h, Part.map_some]

/-- Counting counts lines that cannot be read like others. -/
theorem countLines_of_yields {lines : List (Except FileFault String)} {last final : Nat}
    (h : r.Yields place lines last) (hnone : r.nextLine last [] = .some (none, final))
    (before : Nat) : r.countLines place before = .some (before + lines.length) := by
  induction h generalizing before with
  | nil place => exact countLines_of_none hnone before
  | cons hline hrest ih =>
    rw [countLines_of_line hline, ih hnone, List.length_cons]
    congr 1
    omega

/-! ## Whether counting comes to an end -/

/-- Whether a line has begun and not ended when a number of readings were made. -/
def lineBegun (r : Readings) : Nat → Bool
  | 0 => false
  | n + 1 =>
    match r n with
    | .byte b => b ≠ Text.lineFeed
    | .ended => false
    | .interrupted => lineBegun r n
    | .failed _ => false

/-- At some place the file ends, and no line has begun there. -/
def ComesToEnd (r : Readings) : Prop := ∃ n, r n = .ended ∧ r.lineBegun n = false

/-- Some reading fails. -/
def Fails (r : Readings) : Prop := ∃ n fault, r n = .failed fault

/-- At a place the file ends with no line begun, or the reading fails. Either way no line goes on
beyond it. -/
def StopsAt (r : Readings) (n : Nat) : Prop :=
  r n = .ended ∧ r.lineBegun n = false ∨ ∃ fault, r n = .failed fault

/-- The bytes that were read of a line are those since it has begun. -/
theorem lineBegun_of_readOn_inr {begun' : List UInt8}
    (h : r.readOn (place, begun) = .inr (next, begun'))
    (hbegun : r.lineBegun place = !begun.isEmpty) :
    next = place + 1 ∧ r.lineBegun next = !begun'.isEmpty := by
  cases hat : r place with
  | byte b =>
    by_cases hfeed : b = Text.lineFeed
    · subst hfeed
      rw [readOn_lineFeed hat] at h
      cases h
    · rw [readOn_byte hat hfeed] at h
      cases h
      refine ⟨rfl, ?_⟩
      rw [lineBegun, hat]
      simp [hfeed]
  | ended =>
    rw [readOn_ended hat] at h
    cases h
  | interrupted =>
    rw [readOn_interrupted hat] at h
    cases h
    refine ⟨rfl, ?_⟩
    rw [lineBegun, hat]
    exact hbegun
  | failed fault =>
    rw [readOn_failed hat] at h
    cases h

/-- When a line is found or not, no other has begun. There is none only where the file ends, and a
reading that fails makes a line that cannot be read. -/
theorem lineBegun_of_readOn_inl {found : Option (Except FileFault String)}
    (h : r.readOn (place, begun) = .inl (found, next))
    (hbegun : r.lineBegun place = !begun.isEmpty) :
    next = place + 1 ∧ r.lineBegun next = false ∧
      (found = none ↔ r place = .ended ∧ r.lineBegun place = false) ∧
      ∀ fault, r place = .failed fault → found = some (.error fault) := by
  cases hat : r place with
  | byte b =>
    by_cases hfeed : b = Text.lineFeed
    · subst hfeed
      rw [readOn_lineFeed hat] at h
      cases h
      simp [lineBegun, hat]
    · rw [readOn_byte hat hfeed] at h
      cases h
  | ended =>
    rw [readOn_ended hat] at h
    cases h
    simp [lineBegun, hat, hbegun]
  | interrupted =>
    rw [readOn_interrupted hat] at h
    cases h
  | failed fault =>
    rw [readOn_failed hat] at h
    cases h
    simp [lineBegun, hat]

/-- Before readings go beyond a place where they stop, a line is found or not, and no other has
begun then. If they go beyond it, there is no line or it cannot be read. -/
theorem nextLine_of_stopsAt {n : Nat} (hstop : r.StopsAt n) (hplace : place ≤ n)
    (begun : List UInt8) (hbegun : r.lineBegun place = !begun.isEmpty) :
    ∃ found next, r.nextLine place begun = .some (found, next) ∧ place < next ∧
      r.lineBegun next = false ∧
      (n < next → found = none ∨ ∃ fault, r n = .failed fault ∧ found = some (.error fault)) := by
  -- by the readings up to the place; all along, `begun` is what was read since the line has begun
  induction hrest : n - place generalizing place begun with
  | zero =>
    obtain rfl : place = n := by omega
    cases hon : r.readOn (place, begun) with
    | inl p =>
      obtain ⟨hnext, hlater, hnone, hfailed⟩ := lineBegun_of_readOn_inl hon hbegun
      refine ⟨p.1, p.2, nextLine_of_readOn hon, by omega, hlater, fun _ => ?_⟩
      rcases hstop with hended | ⟨fault, hfault⟩
      · exact Or.inl (hnone.mpr hended)
      · exact Or.inr ⟨fault, hfault, hfailed fault hfault⟩
    | inr p =>
      rcases hstop with ⟨hended, -⟩ | ⟨fault, hfault⟩
      · rw [readOn_ended hended] at hon
        cases hon
      · rw [readOn_failed hfault] at hon
        cases hon
  | succ m ih =>
    cases hon : r.readOn (place, begun) with
    | inl p =>
      obtain ⟨hnext, hlater, -, -⟩ := lineBegun_of_readOn_inl hon hbegun
      exact ⟨p.1, p.2, nextLine_of_readOn hon, by omega, hlater, fun _ => by omega⟩
    | inr p =>
      obtain ⟨hnext, hbegun'⟩ := lineBegun_of_readOn_inr hon hbegun
      have hwithin : p.1 ≤ n := by omega
      obtain ⟨found, next, hfound, hlt, hrest⟩ := ih hwithin p.2 hbegun' (by omega)
      exact ⟨found, next, (nextLine_of_readOn_inr hon).trans hfound, by omega, hrest⟩

/-- When a line was asked for, no other has begun; and if there was none, the file has ended. -/
theorem comesToEnd_of_nextLine {found : Option (Except FileFault String)}
    (h : (found, next) ∈ r.nextLine place begun)
    (hbegun : r.lineBegun place = !begun.isEmpty) :
    r.lineBegun next = false ∧ (found = none → r.ComesToEnd) := by
  refine PFun.fixInduction' (C := fun p => r.lineBegun p.1 = !p.2.isEmpty →
    r.lineBegun next = false ∧ (found = none → r.ComesToEnd)) h ?_ ?_ hbegun
  · rintro ⟨place, begun⟩ hfinal hbegun
    obtain ⟨-, hlater, hnone, -⟩ :=
      lineBegun_of_readOn_inl (Part.mem_some_iff.mp hfinal).symm hbegun
    exact ⟨hlater, fun hfound => ⟨place, hnone.mp hfound⟩⟩
  · rintro ⟨place, begun⟩ ⟨place', begun'⟩ - hon ih hbegun
    exact ih (lineBegun_of_readOn_inr (Part.mem_some_iff.mp hon).symm hbegun).2

/-- Induction over the lines up to a place where readings stop. A line before it is followed by
others, and the last one asked for is none or cannot be read. -/
theorem StopsAt.induction {n : Nat} (hstop : r.StopsAt n) {motive : Nat → Prop}
    (none : ∀ place next, r.nextLine place [] = .some (.none, next) → motive place)
    (failed : ∀ place next fault, r n = .failed fault →
      r.nextLine place [] = .some (some (.error fault), next) → motive place)
    (line : ∀ place line next, r.nextLine place [] = .some (some line, next) → motive next →
      motive place) : motive 0 := by
  suffices hall : ∀ m place, n - place = m → place ≤ n → r.lineBegun place = false →
      motive place from hall n 0 rfl (Nat.zero_le n) rfl
  intro m
  induction m using Nat.strongRecOn with
  | ind m ih =>
    intro place hm hplace hbegun
    obtain ⟨found, next, hnext, hlt, hlater, hbeyond⟩ :=
      nextLine_of_stopsAt hstop hplace [] hbegun
    cases found with
    | none => exact none place next hnext
    | some found =>
      by_cases hbefore : next ≤ n
      · exact line place found next hnext (ih (n - next) (by omega) next rfl hbefore hlater)
      · rcases hbeyond (Nat.lt_of_not_le hbefore) with hnone | ⟨fault, hfailed, hfound⟩
        · cases hnone
        · cases hfound
          exact failed place next fault hfailed hnext

theorem countLines_of_comesToEnd (h : r.ComesToEnd) : ∃ k, r.countLines 0 0 = .some k := by
  obtain ⟨n, hended, hnot⟩ := h
  refine StopsAt.induction (Or.inl ⟨hended, hnot⟩)
    (motive := fun place => ∀ before, ∃ k, r.countLines place before = .some k)
    ?none ?failed ?line 0
  case none => exact fun place next hnext before => ⟨before, countLines_of_none hnext before⟩
  case failed =>
    intro place next fault hfailed
    rw [hended] at hfailed
    cases hfailed
  case line =>
    intro place line next hnext ih before
    rw [countLines_of_line hnext]
    exact ih (before + 1)

theorem comesToEnd_of_countLines {k before : Nat} (h : k ∈ r.countLines place before)
    (hbegun : r.lineBegun place = false) : r.ComesToEnd := by
  refine PFun.fixInduction' (C := fun p => r.lineBegun p.1 = false → r.ComesToEnd) h ?_ ?_ hbegun
  · rintro ⟨place, count⟩ hfinal hbegun
    obtain ⟨⟨found, next⟩, hnext, hcount⟩ := (Part.mem_map_iff _).mp hfinal
    cases found with
    | none => exact (comesToEnd_of_nextLine hnext hbegun).2 rfl
    | some line => cases hcount
  · rintro ⟨place, count⟩ ⟨place', count'⟩ - hon ih hbegun
    obtain ⟨⟨found, next⟩, hnext, hcount⟩ := (Part.mem_map_iff _).mp hon
    cases found with
    | none => cases hcount
    | some line =>
      cases hcount
      exact ih (comesToEnd_of_nextLine hnext hbegun).1

/-- Counting comes to an end exactly when the file does. -/
theorem countLines_eq_none_iff : r.countLines 0 0 = .none ↔ ¬r.ComesToEnd := by
  constructor
  · intro hnone hend
    obtain ⟨k, hk⟩ := countLines_of_comesToEnd hend
    exact Part.some_ne_none k (hk.symm.trans hnone)
  · intro hnot
    rw [Part.eq_none_iff]
    exact fun k hk => hnot (comesToEnd_of_countLines hk rfl)

end Readings

end CardArchive
