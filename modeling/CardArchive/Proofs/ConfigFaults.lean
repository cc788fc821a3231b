import CardArchive.Proofs.TableNames
import CardArchive.Proofs.ValidConfig
import Mathlib.Data.List.Induction

/-!
# What a configuration accepts

A configuration is accepted exactly when its datasets are valid together, which is said here without
the check. The check goes through the datasets once and carries along the tags and the tables that
it has seen. What carries the proofs is that these are the tags and tables of the datasets before;
so the check of one dataset comes to what that dataset adds to the ones before it, and the error is
that of the first dataset with which the ones up to it stop being valid.
-/

namespace CardArchive

/-- Datasets that are valid together. -/
structure ValidDatasets (datasets : List Dataset) : Prop where
  tagged : ∀ d ∈ datasets, d.tag ≠ ""
  /-- The names of the tables are identifiers. -/
  plain : ∀ d ∈ datasets, PlainName d.table
  /-- No database keeps these names for itself. -/
  free : ∀ d ∈ datasets, ¬ReservedName d.table
  differentTags : datasets.Pairwise fun a b => a.tag ≠ b.tag
  differentTables : datasets.Pairwise fun a b => ¬SameUpToCase a.table.toList b.table.toList

/-- A dataset may follow others. -/
structure FitsAfter (before : List Dataset) (d : Dataset) : Prop where
  tagged : d.tag ≠ ""
  plain : PlainName d.table
  free : ¬ReservedName d.table
  newTag : ∀ b ∈ before, b.tag ≠ d.tag
  newTable : ∀ b ∈ before, ¬SameUpToCase b.table.toList d.table.toList

/-- The first thing that is wrong with a dataset that follows others. -/
inductive FirstFault (before : List Dataset) (d : Dataset) : ConfigError → Prop where
  | emptyTag (htag : d.tag = "") : FirstFault before d .emptyTag
  | invalidTable (htag : d.tag ≠ "") (hname : ¬PlainName d.table) :
      FirstFault before d (.invalidTable d.table)
  | reservedTable (htag : d.tag ≠ "") (hname : PlainName d.table) (hfree : ReservedName d.table) :
      FirstFault before d (.reservedTable d.table)
  | duplicateTag (htag : d.tag ≠ "") (hname : PlainName d.table) (hfree : ¬ReservedName d.table)
      (hknown : ∃ b ∈ before, b.tag = d.tag) : FirstFault before d (.duplicateTag d.tag)
  | duplicateTable (htag : d.tag ≠ "") (hname : PlainName d.table) (hfree : ¬ReservedName d.table)
      (hnew : ∀ b ∈ before, b.tag ≠ d.tag)
      (hknown : ∃ b ∈ before, SameUpToCase b.table.toList d.table.toList) :
      FirstFault before d (.duplicateTable d.table)

variable {before after rest datasets : List Dataset} {d : Dataset} {e : ConfigError}

/-! ## One dataset more -/

theorem validDatasets_append_singleton_iff :
    ValidDatasets (before ++ [d]) ↔ ValidDatasets before ∧ FitsAfter before d := by
  constructor
  · rintro ⟨htagged, hplain, hfree, htags, htables⟩
    obtain ⟨htags₁, -, htags₂⟩ := List.pairwise_append.mp htags
    obtain ⟨htables₁, -, htables₂⟩ := List.pairwise_append.mp htables
    rw [List.forall_mem_append, List.forall_mem_singleton] at htagged hplain hfree
    exact ⟨⟨htagged.1, hplain.1, hfree.1, htags₁, htables₁⟩, htagged.2, hplain.2, hfree.2,
      fun b hb => htags₂ b hb d List.mem_cons_self,
      fun b hb => htables₂ b hb d List.mem_cons_self⟩
  · rintro ⟨hbefore, hd⟩
    have hlast {P : Dataset → Prop} (hall : ∀ b ∈ before, P b) (hone : P d) :
        ∀ b ∈ before ++ [d], P b :=
      List.forall_mem_append.mpr ⟨hall, List.forall_mem_singleton.mpr hone⟩
    refine ⟨hlast hbefore.tagged hd.tagged, hlast hbefore.plain hd.plain,
      hlast hbefore.free hd.free, ?_, ?_⟩
    · refine List.pairwise_append.mpr ⟨hbefore.differentTags, List.pairwise_singleton _ _, ?_⟩
      exact fun b hb => List.forall_mem_singleton.mpr (hd.newTag b hb)
    · refine List.pairwise_append.mpr ⟨hbefore.differentTables, List.pairwise_singleton _ _, ?_⟩
      exact fun b hb => List.forall_mem_singleton.mpr (hd.newTable b hb)

theorem fitsAfter_or_firstFault (before : List Dataset) (d : Dataset) :
    FitsAfter before d ∨ ∃ e, FirstFault before d e := by
  by_cases htag : d.tag = ""
  · exact Or.inr ⟨_, .emptyTag htag⟩
  by_cases hname : PlainName d.table
  swap
  · exact Or.inr ⟨_, .invalidTable htag hname⟩
  by_cases hfree : ReservedName d.table
  · exact Or.inr ⟨_, .reservedTable htag hname hfree⟩
  by_cases hknown : ∃ b ∈ before, b.tag = d.tag
  · exact Or.inr ⟨_, .duplicateTag htag hname hfree hknown⟩
  have hnew : ∀ b ∈ before, b.tag ≠ d.tag := fun b hb heq => hknown ⟨b, hb, heq⟩
  by_cases hsame : ∃ b ∈ before, SameUpToCase b.table.toList d.table.toList
  · exact Or.inr ⟨_, .duplicateTable htag hname hfree hnew hsame⟩
  · exact Or.inl ⟨htag, hname, hfree, hnew, fun b hb heq => hsame ⟨b, hb, heq⟩⟩

theorem FirstFault.not_fitsAfter (h : FirstFault before d e) : ¬FitsAfter before d := by
  intro hd
  cases h with
  | emptyTag htag => exact hd.tagged htag
  | invalidTable _ hname => exact hname hd.plain
  | reservedTable _ _ hfree => exact hd.free hfree
  | duplicateTag _ _ _ hknown =>
    obtain ⟨b, hb, heq⟩ := hknown
    exact hd.newTag b hb heq
  | duplicateTable _ _ _ _ hknown =>
    obtain ⟨b, hb, heq⟩ := hknown
    exact hd.newTable b hb heq

/-! ## The check of one dataset -/

/-- The tags and tables that the check carries along are those of the datasets before. -/
structure Seen (before : List Dataset) (tags tables : List String) : Prop where
  tag : ∀ s, s ∈ tags ↔ ∃ b ∈ before, b.tag = s
  table : ∀ s, s ∈ tables ↔ ∃ b ∈ before, b.table = s

variable {tags tables : List String}

theorem Seen.nil : Seen [] [] [] := ⟨fun _ => by simp, fun _ => by simp⟩

theorem Seen.push (h : Seen before tags tables) (d : Dataset) :
    Seen (before ++ [d]) (d.tag :: tags) (d.table :: tables) where
  tag s := by
    simp only [List.mem_cons, h.tag, List.mem_append, List.not_mem_nil, or_false, or_and_right,
      exists_or, exists_eq_left]
    rw [or_comm, eq_comm]
  table s := by
    simp only [List.mem_cons, h.table, List.mem_append, List.not_mem_nil, or_false, or_and_right,
      exists_or, exists_eq_left]
    rw [or_comm, eq_comm]

/-- A table has been seen under its name or under another spelling of it. -/
theorem Seen.any_sameName (h : Seen before tags tables) (name : String) :
    tables.any (Text.sameName name) = true ↔
      ∃ b ∈ before, SameUpToCase b.table.toList name.toList := by
  simp only [List.any_eq_true, h.table, Text.sameName_comm name, Text.sameName_iff_sameUpToCase]
  constructor
  · rintro ⟨_, ⟨b, hb, rfl⟩, hsame⟩
    exact ⟨b, hb, hsame⟩
  · rintro ⟨b, hb, hsame⟩
    exact ⟨_, ⟨b, hb, rfl⟩, hsame⟩

theorem checkDatasetsAfter_cons (tags tables : List String) (d : Dataset) (rest : List Dataset) :
    checkDatasetsAfter tags tables (d :: rest) =
      if d.tag = "" then .error .emptyTag
      else match checkTable d.table with
        | .error e => .error e
        | .ok _ =>
          if d.tag ∈ tags then .error (.duplicateTag d.tag)
          else if tables.any (Text.sameName d.table) then .error (.duplicateTable d.table)
          else checkDatasetsAfter (d.tag :: tags) (d.table :: tables) rest := by
  rw [checkDatasetsAfter]
  simp only [String.isEmpty_iff, List.contains_iff_mem]
  by_cases htag : d.tag = ""
  · rw [if_pos htag, if_pos htag]
    rfl
  · rw [if_neg htag, if_neg htag]
    cases checkTable d.table with
    | error e => rfl
    | ok _ =>
      by_cases hknown : d.tag ∈ tags <;> by_cases hsame : tables.any (Text.sameName d.table) <;>
        simp [hknown, hsame, bind, Except.bind, throw, throwThe, MonadExceptOf.throw]

/-- A dataset with a fault ends the check with it. -/
theorem checkDatasetsAfter_of_firstFault (hseen : Seen before tags tables)
    (h : FirstFault before d e) : checkDatasetsAfter tags tables (d :: rest) = .error e := by
  rw [checkDatasetsAfter_cons]
  cases h with
  | emptyTag htag => rw [if_pos htag]
  | invalidTable htag hname =>
    rw [if_neg htag, checkTable_eq_error_iff.mpr (Or.inl ⟨hname, rfl⟩)]
  | reservedTable htag hname hfree =>
    rw [if_neg htag, checkTable_eq_error_iff.mpr (Or.inr ⟨hname, hfree, rfl⟩)]
  | duplicateTag htag hname hfree hknown =>
    rw [if_neg htag, checkTable_eq_ok_iff.mpr ⟨hname, hfree⟩]
    exact if_pos ((hseen.tag _).mpr hknown)
  | duplicateTable htag hname hfree hnew hknown =>
    have hnotMem : d.tag ∉ tags := fun hmem => by
      obtain ⟨b, hb, heq⟩ := (hseen.tag _).mp hmem
      exact hnew b hb heq
    rw [if_neg htag, checkTable_eq_ok_iff.mpr ⟨hname, hfree⟩]
    exact (if_neg hnotMem).trans (if_pos ((hseen.any_sameName _).mpr hknown))

/-- A dataset that may follow is passed over, and has been seen from then on. -/
theorem checkDatasetsAfter_of_fitsAfter (hseen : Seen before tags tables) (h : FitsAfter before d) :
    checkDatasetsAfter tags tables (d :: rest) =
      checkDatasetsAfter (d.tag :: tags) (d.table :: tables) rest := by
  have hnotMem : d.tag ∉ tags := fun hmem => by
    obtain ⟨b, hb, heq⟩ := (hseen.tag _).mp hmem
    exact h.newTag b hb heq
  have hnotAny : ¬tables.any (Text.sameName d.table) = true := fun hany => by
    obtain ⟨b, hb, hsame⟩ := (hseen.any_sameName _).mp hany
    exact h.newTable b hb hsame
  rw [checkDatasetsAfter_cons, if_neg h.tagged, checkTable_eq_ok_iff.mpr ⟨h.plain, h.free⟩]
  exact (if_neg hnotMem).trans (if_neg hnotAny)

/-! ## The whole check -/

theorem ValidDatasets.nil : ValidDatasets [] where
  tagged := List.forall_mem_nil _
  plain := List.forall_mem_nil _
  free := List.forall_mem_nil _
  differentTags := .nil
  differentTables := .nil

theorem ValidDatasets.left (h : ValidDatasets (before ++ after)) : ValidDatasets before where
  tagged := (List.forall_mem_append.mp h.tagged).1
  plain := (List.forall_mem_append.mp h.plain).1
  free := (List.forall_mem_append.mp h.free).1
  differentTags := (List.pairwise_append.mp h.differentTags).1
  differentTables := (List.pairwise_append.mp h.differentTables).1

/-- Datasets are valid together, or there is a first one that may not follow those before it. -/
theorem validDatasets_or_firstFault (datasets : List Dataset) :
    ValidDatasets datasets ∨ ∃ before d after e, datasets = before ++ d :: after ∧
      ValidDatasets before ∧ FirstFault before d e := by
  induction datasets using List.reverseRecOn with
  | nil => exact Or.inl .nil
  | append_singleton datasets last ih =>
    rcases ih with hvalid | ⟨before, d, after, e, rfl, hvalid, hfault⟩
    · rcases fitsAfter_or_firstFault datasets last with hlast | ⟨e, hfault⟩
      · exact Or.inl (validDatasets_append_singleton_iff.mpr ⟨hvalid, hlast⟩)
      · exact Or.inr ⟨datasets, last, [], e, rfl, hvalid, hfault⟩
    · exact Or.inr ⟨before, d, after ++ [last], e, by simp, hvalid, hfault⟩

/-- Valid datasets are passed over, and have been seen from then on. -/
theorem checkDatasetsAfter_append {middle : List Dataset} (hseen : Seen before tags tables)
    (hvalid : ValidDatasets (before ++ middle)) (rest : List Dataset) :
    ∃ tags' tables', Seen (before ++ middle) tags' tables' ∧
      checkDatasetsAfter tags tables (middle ++ rest) = checkDatasetsAfter tags' tables' rest := by
  induction middle generalizing before tags tables with
  | nil => exact ⟨tags, tables, by rwa [List.append_nil], rfl⟩
  | cons d middle ih =>
    -- what is passed over first joins the datasets before, with its tag and table
    rw [← List.singleton_append, ← List.append_assoc] at hvalid
    obtain ⟨-, hd⟩ := validDatasets_append_singleton_iff.mp hvalid.left
    obtain ⟨tags', tables', hlater, hcheck⟩ := ih (hseen.push d) hvalid
    rw [List.append_assoc, List.singleton_append] at hlater
    refine ⟨tags', tables', hlater, ?_⟩
    rw [List.cons_append, checkDatasetsAfter_of_fitsAfter hseen hd, hcheck]

theorem checkDatasetsAfter_nil_of_valid (h : ValidDatasets datasets) :
    checkDatasetsAfter [] [] datasets = .ok () := by
  obtain ⟨_, _, -, hcheck⟩ := checkDatasetsAfter_append Seen.nil h []
  rw [List.append_nil] at hcheck
  exact hcheck.trans rfl

theorem checkDatasetsAfter_nil_of_firstFault (hbefore : ValidDatasets before)
    (h : FirstFault before d e) : checkDatasetsAfter [] [] (before ++ d :: after) = .error e := by
  obtain ⟨_, _, hseen, hcheck⟩ := checkDatasetsAfter_append Seen.nil hbefore (d :: after)
  exact hcheck.trans (checkDatasetsAfter_of_firstFault hseen h)

theorem Config.make_eq (dataDir database : String) (h : datasets ≠ []) :
    make dataDir database datasets =
      (checkDatasetsAfter [] [] datasets).map fun _ => ⟨dataDir, database, datasets⟩ := by
  rw [make, checkDatasets, if_neg (by simpa using h)]

/-- A configuration is made exactly of datasets that are valid together, at least one. Of others,
the error is the first fault of the first dataset with which those up to it stop being valid. -/
theorem Config.make_rejects_first_fault (dataDir database : String) (datasets : List Dataset) :
    make dataDir database [] = .error .noDatasets ∧
    (∀ c, make dataDir database datasets = .ok c ↔
      c = ⟨dataDir, database, datasets⟩ ∧ datasets ≠ [] ∧ ValidDatasets datasets) ∧
    ∀ e, datasets ≠ [] → (make dataDir database datasets = .error e ↔
      ∃ before d after, datasets = before ++ d :: after ∧ ValidDatasets before ∧
        ¬ValidDatasets (before ++ [d]) ∧ FirstFault before d e) := by
  refine ⟨rfl, fun c => ?_, fun e hne => ?_⟩
  · by_cases hne : datasets = []
    · subst hne
      simp [make, checkDatasets, Except.map]
    rw [make_eq dataDir database hne]
    rcases validDatasets_or_firstFault datasets with hvalid |
      ⟨before, d, after, e, rfl, hbefore, hfault⟩
    · rw [checkDatasetsAfter_nil_of_valid hvalid]
      simp [Except.map, hvalid, hne, eq_comm]
    · rw [checkDatasetsAfter_nil_of_firstFault hbefore hfault]
      refine iff_of_false (by simp [Except.map]) ?_
      rintro ⟨-, -, hvalid⟩
      rw [← List.singleton_append, ← List.append_assoc] at hvalid
      exact hfault.not_fitsAfter (validDatasets_append_singleton_iff.mp hvalid.left).2
  · rw [make_eq dataDir database hne]
    constructor
    · intro hmake
      rcases validDatasets_or_firstFault datasets with hvalid |
        ⟨before, d, after, e', rfl, hbefore, hfault⟩
      · rw [checkDatasetsAfter_nil_of_valid hvalid] at hmake
        cases hmake
      · rw [checkDatasetsAfter_nil_of_firstFault hbefore hfault] at hmake
        cases hmake
        refine ⟨before, d, after, rfl, hbefore, fun hvalid => ?_, hfault⟩
        exact hfault.not_fitsAfter (validDatasets_append_singleton_iff.mp hvalid).2
    · rintro ⟨before, d, after, rfl, hbefore, -, hfault⟩
      rw [checkDatasetsAfter_nil_of_firstFault hbefore hfault]
      rfl

end CardArchive
