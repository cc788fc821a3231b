import CardArchive.Proofs.TextSearch
import CardArchive.Storage.Path

/-!
# Names in paths

The last name of a path stands behind a front, which is empty or ends with a separator, and in front
of a trail of separators and single points, which does not count. A path that is put together in
this way is taken apart again (`lastName?_append`), and every path with a last name is put together so
(`lastName?_eq_some`). Replacing an extension keeps the front and the stem of the last name; the one
exception is a name that begins with two points, of which only these may be left
(`withExtension_cases`).
-/

namespace CardArchive.Path

/-! ## Parts of a path -/

/-- A name may stand behind it: it is empty or ends with a separator. -/
def IsFront (front : List Char) : Prop := ∀ c ∈ front.getLast?, c = '/'

/-- It counts as a name, be it that of the directory above. -/
structure IsName (name : List Char) : Prop where
  ne_nil : name ≠ []
  not_mem : '/' ∉ name
  ne_point : name ≠ ['.']

/-- It does not count behind the last name, read from the end: separators, some of them with a point
behind them. -/
inductive Trailing : List Char → Prop where
  | nil : Trailing []
  | separator {back : List Char} (h : Trailing back) : Trailing ('/' :: back)
  | point {back : List Char} (h : Trailing back) : Trailing ('.' :: '/' :: back)

variable {front name stem extension trail back : List Char}

theorem IsFront.nil : IsFront [] := fun _ hc => nomatch hc

theorem IsFront.append {rest : List Char} (h : IsFront front) (hrest : IsFront rest) :
    IsFront (front ++ rest) := by
  intro c hc
  rw [List.getLast?_append, Option.mem_def, Option.or_eq_some_iff] at hc
  rcases hc with hc | ⟨-, hc⟩
  · exact hrest c hc
  · exact h c hc

theorem Trailing.drop (h : Trailing back) (n : Nat) : Trailing (back.drop n) := by
  induction h generalizing n with
  | nil =>
    rw [List.drop_nil]
    exact .nil
  | separator h ih =>
    cases n with
    | zero => exact .separator h
    | succ n => exact ih n
  | point h ih =>
    match n with
    | 0 => exact .point h
    | 1 => exact .separator h
    | n + 2 => exact ih n

theorem dropTrailing_append (h : Trailing back) (rest : List Char) :
    dropTrailing (back ++ rest) = dropTrailing rest := by
  induction h with
  | nil => rfl
  | separator h ih => rw [List.cons_append, dropTrailing, ih]
  | point h ih => rw [List.cons_append, List.cons_append, dropTrailing, dropTrailing, ih]

theorem length_dropTrailing_le (s : List Char) : (dropTrailing s).length ≤ s.length := by
  fun_induction dropTrailing s with
  | case1 rest ih => exact ih.trans (Nat.le_succ _)
  | case2 rest ih => exact ih.trans (Nat.le_succ _)
  | case3 rest => exact le_rfl

/-- What is dropped does not count. -/
theorem exists_trailing (s : List Char) : ∃ back, Trailing back ∧ s = back ++ dropTrailing s := by
  fun_induction dropTrailing s with
  | case1 rest ih =>
    obtain ⟨back, hback, hrest⟩ := ih
    exact ⟨'/' :: back, .separator hback, by rw [List.cons_append, ← hrest]⟩
  | case2 rest ih =>
    obtain ⟨back, hback, hrest⟩ := ih
    rw [dropTrailing] at hrest ⊢
    cases hback with
    | nil =>
      -- more than nothing was dropped
      have hlength := length_dropTrailing_le rest
      rw [← List.nil_append (dropTrailing rest), ← hrest, List.length_cons] at hlength
      omega
    | separator h =>
      exact ⟨_, .point h, congrArg ('.' :: ·) hrest⟩
    | point h => cases (List.cons.inj hrest).1
  | case3 rest => exact ⟨[], .nil, rfl⟩

/-! ## The last name -/

/-- A name is not dropped: it ends neither with a separator nor with a point behind one. -/
theorem dropTrailing_name (hname : IsName name) (front : List Char) :
    dropTrailing (name.reverse ++ front) = name.reverse ++ front := by
  obtain ⟨back, hback, hsplit⟩ := exists_trailing (name.reverse ++ front)
  -- a trail that is not empty would end the name with a separator or with a point behind one
  suffices hnil : back = [] by rw [hnil] at hsplit; exact hsplit.symm
  rcases List.eq_nil_or_concat name with rfl | ⟨init, c, rfl⟩
  · exact absurd rfl hname.ne_nil
  rw [List.concat_eq_append] at hname hsplit
  rw [List.reverse_append, List.reverse_singleton, List.singleton_append,
    List.cons_append] at hsplit
  have hlast : c ≠ '/' := fun heq =>
    hname.not_mem (heq ▸ List.mem_append_right _ List.mem_cons_self)
  cases hback with
  | nil => rfl
  | separator h => exact absurd (List.cons.inj hsplit).1 hlast
  | point h =>
    obtain ⟨rfl, hrest⟩ := List.cons.inj hsplit
    rcases List.eq_nil_or_concat init with rfl | ⟨init, d, rfl⟩
    · exact absurd rfl hname.ne_point
    · rw [List.concat_eq_append] at hname hrest
      rw [List.reverse_append, List.reverse_singleton, List.singleton_append, List.cons_append]
        at hrest
      obtain rfl : d = '/' := (List.cons.inj hrest).1
      have hmem : '/' ∈ init ++ ['/'] ++ ['.'] :=
        List.mem_append_left _ (List.mem_append_right _ List.mem_cons_self)
      exact absurd hmem hname.not_mem

theorem lastName?_append (hfront : IsFront front) (hname : IsName name)
    (htrail : Trailing trail.reverse) :
    lastName? (front ++ (name ++ trail)) =
      if name = ['.', '.'] then none else some (front, name) := by
  have hback : dropTrailing (front ++ (name ++ trail)).reverse = name.reverse ++ front.reverse := by
    rw [List.reverse_append, List.reverse_append, List.append_assoc, dropTrailing_append htrail,
      dropTrailing_name hname]
  have hrun : ∀ c ∈ name.reverse, decide (c ≠ '/') = true := fun c hc =>
    decide_eq_true fun heq => hname.not_mem (heq ▸ List.mem_reverse.mp hc)
  have hstop : ∀ c ∈ front.reverse.head?, decide (c ≠ '/') = false := fun c hc =>
    decide_eq_false (not_not.mpr (hfront c (List.head?_reverse ▸ hc)))
  obtain ⟨htake, hdrop⟩ := Text.run_append hrun hstop
  simp only [lastName?, hback, htake, hdrop, List.reverse_reverse, hname.ne_nil, hname.ne_point,
    false_or]

theorem lastName?_of_name (hfront : IsFront front) (hname : IsName name) :
    lastName? (front ++ name) = if name = ['.', '.'] then none else some (front, name) := by
  have htrail : Trailing ([] : List Char).reverse := .nil
  have h := lastName?_append hfront hname htrail
  rwa [List.append_nil] at h

/-- A path with a last name has a front and a trail around it. -/
theorem lastName?_eq_some {path : List Char} (h : lastName? path = some (front, name)) :
    IsFront front ∧ IsName name ∧ name ≠ ['.', '.'] ∧
      ∃ trail, Trailing trail.reverse ∧ path = front ++ (name ++ trail) := by
  obtain ⟨back, hback, hsplit⟩ := exists_trailing path.reverse
  have hpath : path = (dropTrailing path.reverse).reverse ++ back.reverse := by
    rw [← List.reverse_append, ← hsplit, List.reverse_reverse]
  rw [lastName?] at h
  generalize dropTrailing path.reverse = rest at h hpath
  obtain ⟨run, behind, rfl, hrun, hstop⟩ := Text.exists_run_append (fun c => decide (c ≠ '/')) rest
  obtain ⟨htake, hdrop⟩ := Text.run_append hrun hstop
  simp only [htake, hdrop] at h
  split at h
  · cases h
  · next hregular =>
    rw [not_or, not_or] at hregular
    obtain ⟨rfl, rfl⟩ := Prod.mk.inj (Option.some.inj h)
    refine ⟨fun c hc => ?_, ⟨hregular.1, fun hmem => ?_, hregular.2.1⟩, hregular.2.2, back.reverse,
      by rwa [List.reverse_reverse], ?_⟩
    · rw [List.getLast?_reverse] at hc
      exact not_not.mp (of_decide_eq_false (hstop c hc))
    · exact of_decide_eq_true (hrun '/' (List.mem_reverse.mp hmem)) rfl
    · rw [hpath, List.reverse_append, List.append_assoc]

/-! ## Stem and extension -/

/-- A name is its stem and its extension with a point between them, or its stem alone. -/
theorem splitName_cases (name : List Char) :
    splitName name = (name, none) ∨ ∃ stem extension, splitName name = (stem, some extension) ∧
      name = stem ++ '.' :: extension ∧ '.' ∉ extension ∧ stem ≠ [] := by
  obtain ⟨run, behind, hname, hrun, hstop⟩ :=
    Text.exists_run_append (fun c => decide (c ≠ '.')) name.reverse
  obtain ⟨htake, hdrop⟩ := Text.run_append hrun hstop
  rw [← hname] at htake hdrop
  simp only [splitName, htake, hdrop]
  cases behind with
  | nil => exact Or.inl rfl
  | cons c stem =>
    obtain rfl : c = '.' := not_not.mp (of_decide_eq_false (hstop c rfl))
    cases stem with
    | nil => exact Or.inl rfl
    | cons d stem =>
      refine Or.inr ⟨(d :: stem).reverse, run.reverse, rfl, ?_, fun hmem => ?_, ?_⟩
      · rw [← List.reverse_reverse name, hname, List.reverse_append, List.reverse_cons (a := '.'),
          List.append_assoc, List.singleton_append]
      · exact of_decide_eq_true (hrun '.' (List.mem_reverse.mp hmem)) rfl
      · exact List.reverse_ne_nil_iff.mpr (List.cons_ne_nil d stem)

theorem splitName_append (hstem : stem ≠ []) (h : '.' ∉ extension) :
    splitName (stem ++ '.' :: extension) = (stem, some extension) := by
  have hrun : ∀ c ∈ extension.reverse, decide (c ≠ '.') = true := fun c hc =>
    decide_eq_true fun heq => h (heq ▸ List.mem_reverse.mp hc)
  have hstop : ∀ c ∈ ('.' :: stem.reverse).head?, decide (c ≠ '.') = false := by
    intro c hc
    cases hc
    rfl
  obtain ⟨htake, hdrop⟩ := Text.run_append hrun hstop
  have hback : (stem ++ '.' :: extension).reverse = extension.reverse ++ '.' :: stem.reverse := by
    rw [List.reverse_append, List.reverse_cons, List.append_assoc, List.singleton_append]
  have hne : stem.reverse.isEmpty = false := by
    rw [List.isEmpty_eq_false_iff]
    exact List.reverse_ne_nil_iff.mpr hstem
  simp only [splitName, hback, htake, hdrop, hne, Bool.false_eq_true, if_false,
    List.reverse_reverse]

/-- Behind the stem of a name there is no more than one point. -/
theorem ne_stem_append (name : List Char) {more : List Char} (h : '.' ∈ more) :
    name ≠ (splitName name).1 ++ '.' :: more := by
  rcases splitName_cases name with hsplit | ⟨stem, extension, hsplit, hname, hext, -⟩
  · rw [hsplit]
    intro heq
    have hlength : name.length = name.length + (more.length + 1) :=
      (congrArg List.length heq).trans List.length_append
    omega
  · rw [hsplit]
    intro heq
    have hmore := List.append_cancel_left (hname.symm.trans heq)
    exact hext ((List.cons.inj hmore).2 ▸ h)

theorem IsName.stem_ne_nil (hname : IsName name) : (splitName name).1 ≠ [] := by
  rcases splitName_cases name with hsplit | ⟨stem, extension, hsplit, -, -, hstem⟩
  · exact hsplit ▸ hname.ne_nil
  · exact hsplit ▸ hstem

theorem IsName.not_mem_stem (hname : IsName name) : '/' ∉ (splitName name).1 := by
  rcases splitName_cases name with hsplit | ⟨stem, extension, hsplit, hparts, -, -⟩
  · exact hsplit ▸ hname.not_mem
  · rw [hsplit]
    exact fun hmem => hname.not_mem (hparts ▸ List.mem_append_left _ hmem)

theorem isName_of_stem (hstem : stem ≠ []) (hslash : '/' ∉ stem) (h : '/' ∉ extension) :
    IsName (stem ++ '.' :: extension) where
  ne_nil := List.append_ne_nil_of_left_ne_nil hstem _
  not_mem := by
    rw [List.mem_append, List.mem_cons, not_or, not_or]
    exact ⟨hslash, by decide, h⟩
  ne_point heq := by
    obtain ⟨c, rest, rfl⟩ := List.exists_cons_of_ne_nil hstem
    cases (List.append_eq_nil_iff.mp (List.cons.inj heq).2).2

theorem extension?_of_name {path : String} (hfront : IsFront front) (hname : IsName name)
    (hpath : path.toList = front ++ name) :
    extension? path =
      if name = ['.', '.'] then none else (splitName name).2.map String.ofList := by
  rw [extension?, hpath, lastName?_of_name hfront hname]
  split
  · rfl
  · cases hsplit : (splitName name).2 <;> simp [hsplit]

theorem take_length_sub {s a b : List Char} {n : Nat} (hs : s = a ++ b) (hb : b.length = n) :
    s.take (s.length - n) = a := by
  rw [hs, List.length_append, hb, Nat.add_sub_cancel, List.take_left]

/-- What is cut off at the end comes from the trail if that is long enough. -/
theorem take_length_sub_of_le {path trail : List Char} {n : Nat}
    (hpath : path = front ++ (name ++ trail)) (hn : n ≤ trail.length) :
    path.take (path.length - n) = front ++ (name ++ trail.take (trail.length - n)) := by
  refine take_length_sub (b := trail.drop (trail.length - n)) ?_ ?_
  · rw [hpath, List.append_assoc, List.append_assoc, List.take_append_drop]
  · rw [List.length_drop]
    omega

/-- As much as there is of an extension, cut off behind a shorter trail, leaves a part of the
extension that is as long as the trail. -/
theorem take_length_sub_of_lt {path stem old trail : List Char}
    (hpath : path = front ++ ((stem ++ '.' :: old) ++ trail)) (hlength : trail.length < old.length) :
    path.take (path.length - old.length) = front ++ (stem ++ '.' :: old.take trail.length) := by
  refine take_length_sub (b := old.drop trail.length ++ trail) ?_ ?_
  · rw [hpath]
    simp only [List.append_assoc, List.cons_append]
    rw [← List.append_assoc (old.take _), List.take_append_drop]
  · rw [List.length_append, List.length_drop]
    omega

theorem eq_point_of_append_eq_points {stem extension : List Char} (hstem : stem ≠ [])
    (h : stem ++ '.' :: extension = ['.', '.']) : stem = ['.'] := by
  obtain ⟨c, rest, rfl⟩ := List.exists_cons_of_ne_nil hstem
  obtain ⟨rfl, hrest⟩ := List.cons.inj h
  cases rest with
  | nil => rfl
  | cons d rest => cases rest <;> cases (List.cons.inj hrest).2

/-- Replacing the extension keeps the front and the stem, unless the stem is a point: then only two
points may be left of the name. -/
theorem withExtension_cases {path : String} (h : lastName? path.toList = some (front, name))
    (new : String) :
    (withExtension path new).toList = front ++ ((splitName name).1 ++ '.' :: new.toList) ∨
      (splitName name).1 = ['.'] ∧ (withExtension path new).toList = front ++ ['.', '.'] := by
  obtain ⟨hfront, hname, hup, trail, htrail, hpath⟩ := lastName?_eq_some h
  rcases splitName_cases name with hsplit | ⟨stem, old, hsplit, hparts, hold, hstem⟩
  · -- nothing is cut off
    left
    simp only [withExtension, h, hsplit, Option.bind_some, Option.getD_none, List.length_nil,
      Nat.sub_zero, List.take_length, String.toList_ofList, List.append_assoc]
  simp only [withExtension, h, hsplit, Option.bind_some, Option.getD_some]
  by_cases hlength : old.length ≤ trail.length
  · -- all that is cut off comes from the trail
    left
    have hrest : Trailing (trail.take (trail.length - old.length)).reverse := by
      rw [List.reverse_take]
      exact htrail.drop _
    rw [take_length_sub_of_le hpath hlength, lastName?_append hfront hname hrest, if_neg hup]
    simp only [hsplit, String.toList_ofList, List.append_assoc]
  · -- the trail is cut off, and so much of the extension that a part as long as the trail is left
    have hcut := take_length_sub_of_lt (hparts ▸ hpath) (not_le.mp hlength)
    have hleft : IsName (stem ++ '.' :: old.take trail.length) := by
      have hslash := hname.not_mem
      rw [hparts, List.mem_append, List.mem_cons, not_or, not_or] at hslash
      exact isName_of_stem hstem hslash.1 fun hmem => hslash.2.2 (List.mem_of_mem_take hmem)
    rw [hcut, lastName?_of_name hfront hleft]
    by_cases hpoints : stem ++ '.' :: old.take trail.length = ['.', '.']
    · right
      rw [if_pos hpoints, hpoints]
      exact ⟨eq_point_of_append_eq_points hstem hpoints, String.toList_ofList⟩
    · left
      rw [if_neg hpoints]
      simp only [splitName_append hstem fun hmem => hold (List.mem_of_mem_take hmem),
        String.toList_ofList, List.append_assoc]

/-! ## Joined paths -/

/-- A path begins with a separator when what stands in front of its last name does. -/
theorem head?_front_name (hname : IsName name) (front rest : List Char) :
    (front ++ (name ++ rest)).head? = some '/' ↔ front.head? = some '/' := by
  cases front with
  | nil =>
    obtain ⟨c, more, rfl⟩ := List.exists_cons_of_ne_nil hname.ne_nil
    refine iff_of_false (fun heq => hname.not_mem ?_) (by simp)
    rw [← Option.some.inj heq]
    exact List.mem_cons_self
  | cons c front => rfl

/-- Paths that begin alike get the same in front of them when they are joined to a path. -/
theorem exists_join_front (base : String) {p q : String}
    (h : p.toList.head? = some '/' ↔ q.toList.head? = some '/') :
    ∃ front, IsFront front ∧ (join base p).toList = front ++ p.toList ∧
      (join base q).toList = front ++ q.toList := by
  unfold join
  by_cases hp : p.toList.head? = some '/'
  · refine ⟨[], .nil, ?_, ?_⟩
    · rw [if_pos hp, List.nil_append]
    · rw [if_pos (h.mp hp), List.nil_append]
  have hq : ¬q.toList.head? = some '/' := fun hq => hp (h.mpr hq)
  rw [if_neg hp, if_neg hq]
  -- a separator is put behind the base unless it ends with one or is empty
  by_cases hbase : (base.toList.isEmpty || decide (base.toList.getLast? = some '/')) = true
  · refine ⟨base.toList, fun c hc => ?_, ?_, ?_⟩
    · rw [Bool.or_eq_true, List.isEmpty_iff, decide_eq_true_eq] at hbase
      rcases hbase with hbase | hbase
      · rw [hbase] at hc
        cases hc
      · rw [hbase] at hc
        exact (Option.some.inj hc).symm
    · rw [if_pos hbase, String.toList_ofList]
    · rw [if_pos hbase, String.toList_ofList]
  · refine ⟨base.toList ++ ['/'], fun c hc => ?_, ?_, ?_⟩
    · rw [List.getLast?_concat] at hc
      exact (Option.some.inj hc).symm
    · rw [if_neg hbase, String.toList_ofList, List.append_assoc, List.singleton_append]
    · rw [if_neg hbase, String.toList_ofList, List.append_assoc, List.singleton_append]

end CardArchive.Path
