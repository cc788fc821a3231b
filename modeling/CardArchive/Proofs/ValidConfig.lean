import CardArchive.Dataset.Config

/-!
# Valid configurations

What a configuration promises once its datasets have been checked: there are some, each has a tag
and a table whose name is accepted, and no two of them share a tag or a table.
-/

namespace CardArchive

/-- The datasets of the configuration pass the check. -/
def Config.Valid (c : Config) : Prop := checkDatasets c.datasets = .ok ()

/-- Two datasets have neither their tag nor their table in common. -/
def Dataset.Apart (a b : Dataset) : Prop := a.tag ≠ b.tag ∧ Text.sameName a.table b.table = false

/-- A check that fails on a condition is passed when the condition does not hold. -/
theorem guard_eq_ok_iff {ε α β : Type} {p : Prop} [Decidable p] {e : ε} {k : α → Except ε β}
    {x : Except ε β} {b : β} :
    (if p then (throw e : Except ε α) >>= k else x) = .ok b ↔ ¬p ∧ x = .ok b := by
  by_cases h : p
  · simp [h, throw, throwThe, MonadExceptOf.throw, bind, Except.bind]
  · simp [h]

/-- A dataset passes the check after others when it passes its own checks and has none of their
tags and tables. -/
theorem checkDatasetsAfter_cons_eq_ok_iff {tags tables : List String} {d : Dataset}
    {rest : List Dataset} :
    checkDatasetsAfter tags tables (d :: rest) = .ok () ↔
      d.tag.isEmpty = false ∧ checkTable d.table = .ok () ∧ d.tag ∉ tags ∧
        (∀ table ∈ tables, Text.sameName d.table table = false) ∧
        checkDatasetsAfter (d.tag :: tags) (d.table :: tables) rest = .ok () := by
  rw [checkDatasetsAfter, guard_eq_ok_iff, Bool.not_eq_true]
  refine and_congr_right fun _ => ?_
  cases checkTable d.table with
  | error e => simp [bind, Except.bind]
  | ok _ =>
    rw [show ∀ k : Unit → Except ConfigError Unit, (Except.ok () >>= k) = k () from fun _ => rfl,
      guard_eq_ok_iff, guard_eq_ok_iff]
    simp only [true_and, List.contains_iff_mem, List.any_eq_true, not_exists, not_and,
      Bool.not_eq_true]

/-- Datasets pass the check after others with some tags and tables exactly when each of them passes
its own checks, has none of these tags and tables, and is apart from those after it. -/
theorem checkDatasetsAfter_eq_ok_iff {tags tables : List String} {datasets : List Dataset} :
    checkDatasetsAfter tags tables datasets = .ok () ↔
      (∀ d ∈ datasets, d.tag.isEmpty = false ∧ checkTable d.table = .ok () ∧ d.tag ∉ tags ∧
        ∀ table ∈ tables, Text.sameName d.table table = false) ∧
      datasets.Pairwise Dataset.Apart := by
  induction datasets generalizing tags tables with
  | nil => simp [checkDatasetsAfter]
  | cons d rest ih =>
    rw [checkDatasetsAfter_cons_eq_ok_iff, ih, List.forall_mem_cons, List.pairwise_cons]
    -- the first dataset joins those that each of the others must be apart from
    constructor
    · rintro ⟨hempty, htable, htag, hname, hall, hpair⟩
      refine ⟨⟨⟨hempty, htable, htag, hname⟩, fun a ha => ?_⟩, fun a ha => ?_, hpair⟩
      · obtain ⟨h1, h2, h3, h4⟩ := hall a ha
        exact ⟨h1, h2, fun h => h3 (List.mem_cons_of_mem _ h),
          fun t ht => h4 t (List.mem_cons_of_mem _ ht)⟩
      · obtain ⟨-, -, h3, h4⟩ := hall a ha
        refine ⟨fun h => h3 (h ▸ List.mem_cons_self), ?_⟩
        rw [Text.sameName_comm]
        exact h4 _ List.mem_cons_self
    · rintro ⟨⟨⟨hempty, htable, htag, hname⟩, hall⟩, hapart, hpair⟩
      refine ⟨hempty, htable, htag, hname, fun a ha => ?_, hpair⟩
      obtain ⟨h1, h2, h3, h4⟩ := hall a ha
      obtain ⟨hne, hdiff⟩ := hapart a ha
      refine ⟨h1, h2, fun h => ?_, fun t ht => ?_⟩
      · rcases List.mem_cons.mp h with heq | hmem
        · exact hne heq.symm
        · exact h3 hmem
      · rcases List.mem_cons.mp ht with rfl | hmem
        · rw [Text.sameName_comm]
          exact hdiff
        · exact h4 t hmem

theorem checkDatasets_eq_ok_iff {datasets : List Dataset} :
    checkDatasets datasets = .ok () ↔ datasets ≠ [] ∧
      (∀ d ∈ datasets, d.tag.isEmpty = false ∧ checkTable d.table = .ok ()) ∧
      datasets.Pairwise Dataset.Apart := by
  unfold checkDatasets
  cases datasets with
  | nil => simp
  | cons d rest =>
    rw [if_neg (by simp), checkDatasetsAfter_eq_ok_iff]
    simp

namespace Config.Valid

variable {c : Config}

theorem ne_nil (h : c.Valid) : c.datasets ≠ [] := (checkDatasets_eq_ok_iff.mp h).1

theorem checkTable (h : c.Valid) {d : Dataset} (hd : d ∈ c.datasets) :
    CardArchive.checkTable d.table = .ok () := ((checkDatasets_eq_ok_iff.mp h).2.1 d hd).2

theorem pairwise (h : c.Valid) : c.datasets.Pairwise Dataset.Apart :=
  (checkDatasets_eq_ok_iff.mp h).2.2

end Config.Valid

end CardArchive
