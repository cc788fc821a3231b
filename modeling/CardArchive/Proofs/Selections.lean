import CardArchive.Dataset.Selection
import CardArchive.Proofs.TableNames
import CardArchive.Proofs.ValidConfig
import Mathlib.Data.List.Basic
import Mathlib.Logic.Relation

/-!
# What a selection selects

Including some tags and excluding them split the default datasets in two. A filter looks at its tags
in one way only: it asks whether one of them is the tag of a dataset, in any case of its letters. So
lists of tags that give the same answers to that question, `SameTags`, select the same, and writing
a list in another way, `Rewritten`, does not change the answers.
-/

namespace CardArchive

/-! ## Tags in any spelling -/

theorem SameUpToCase.refl (a : List Char) : SameUpToCase a a := sameUpToCase_iff.mpr rfl

theorem SameUpToCase.symm {a b : List Char} (h : SameUpToCase a b) : SameUpToCase b a :=
  sameUpToCase_iff.mpr (sameUpToCase_iff.mp h).symm

theorem SameUpToCase.trans {a b c : List Char} (hab : SameUpToCase a b) (hbc : SameUpToCase b c) :
    SameUpToCase a c :=
  sameUpToCase_iff.mpr ((sameUpToCase_iff.mp hab).trans (sameUpToCase_iff.mp hbc))

/-- One of the tags is a spelling of the text. -/
def SpelledIn (tags : List String) (s : String) : Prop :=
  ∃ tag ∈ tags, SameUpToCase s.toList tag.toList

/-- The tag is a spelling of that of a default dataset. -/
def KnownTag (tag : String) : Prop :=
  ∃ d ∈ Dataset.defaults, SameUpToCase d.tag.toList tag.toList

/-- The lists have spellings of the same texts. -/
def SameTags (a b : List String) : Prop := ∀ s, SpelledIn a s ↔ SpelledIn b s

/-- A list of tags is written in another way: in another order, with a tag given once more, or with
a tag in another case. -/
inductive Rewritten : List String → List String → Prop where
  | permuted {a b : List String} (h : a.Perm b) : Rewritten a b
  | repeated {tags : List String} {tag : String} (h : tag ∈ tags) : Rewritten tags (tag :: tags)
  | recased {before after : List String} {tag other : String}
      (h : SameUpToCase tag.toList other.toList) :
      Rewritten (before ++ tag :: after) (before ++ other :: after)

variable {tags a b : List String}

theorem spelledIn_append {s : String} : SpelledIn (a ++ b) s ↔ SpelledIn a s ∨ SpelledIn b s := by
  simp only [SpelledIn, List.mem_append, or_and_right, exists_or]

theorem spelledIn_cons {s tag : String} :
    SpelledIn (tag :: tags) s ↔ SameUpToCase s.toList tag.toList ∨ SpelledIn tags s := by
  simp only [SpelledIn, List.mem_cons, exists_eq_or_imp]

theorem Rewritten.sameTags (h : Rewritten a b) : SameTags a b := by
  intro s
  cases h with
  | permuted h => simp only [SpelledIn, h.mem_iff]
  | repeated hmem =>
    rw [spelledIn_cons]
    exact (or_iff_right_of_imp fun hsame => ⟨_, hmem, hsame⟩).symm
  | recased hcase =>
    rw [spelledIn_append, spelledIn_append, spelledIn_cons, spelledIn_cons]
    have hiff : SameUpToCase s.toList _ ↔ SameUpToCase s.toList _ :=
      ⟨fun h => h.trans hcase, fun h => h.trans hcase.symm⟩
    rw [hiff]

/-- However often a list of tags is rewritten, it has spellings of the same texts. -/
theorem sameTags_of_eqvGen (h : Relation.EqvGen Rewritten a b) : SameTags a b := by
  induction h with
  | rel _ _ h => exact h.sameTags
  | refl _ => exact fun _ => Iff.rfl
  | symm _ _ _ ih => exact fun s => (ih s).symm
  | trans _ _ _ _ _ ih₁ ih₂ => exact fun s => (ih₁ s).trans (ih₂ s)

/-- Tags of which one is not known have a first such one. -/
theorem exists_firstUnknown (h : ∃ t ∈ tags, ¬KnownTag t) :
    ∃ before tag after, tags = before ++ tag :: after ∧ (∀ t ∈ before, KnownTag t) ∧
      ¬KnownTag tag := by
  induction tags with
  | nil =>
    obtain ⟨_, ht, -⟩ := h
    cases ht
  | cons t rest ih =>
    by_cases ht : KnownTag t
    · have hrest : ∃ t ∈ rest, ¬KnownTag t := by
        obtain ⟨u, hu, hunknown⟩ := h
        rcases List.mem_cons.mp hu with rfl | hu
        · exact absurd ht hunknown
        · exact ⟨u, hu, hunknown⟩
      obtain ⟨before, tag, after, rfl, hbefore, htag⟩ := ih hrest
      exact ⟨t :: before, tag, after, rfl, List.forall_mem_cons.mpr ⟨ht, hbefore⟩, htag⟩
    · exact ⟨[], t, rest, rfl, List.forall_mem_nil _, ht⟩

/-- Lists with spellings of the same texts are known together. -/
theorem SameTags.known (h : SameTags a b) (hknown : ∀ tag ∈ a, KnownTag tag) :
    ∀ tag ∈ b, KnownTag tag := by
  intro tag htag
  obtain ⟨other, hother, hcase⟩ := (h tag).mpr ⟨tag, htag, .refl _⟩
  obtain ⟨d, hd, hsame⟩ := hknown other hother
  exact ⟨d, hd, hsame.trans hcase.symm⟩

/-! ## Filters -/

namespace Selection

theorem named_iff {d : Dataset} : named tags d = true ↔ SpelledIn tags d.tag := by
  simp only [named, SpelledIn, List.any_eq_true, Text.sameName_iff_sameUpToCase]

theorem any_defaults_iff {tag : String} :
    (Dataset.defaults.any fun d => Text.sameName d.tag tag) = true ↔ KnownTag tag := by
  simp only [KnownTag, List.any_eq_true, Text.sameName_iff_sameUpToCase]

/-- The default datasets for which being named is the same as `keep`. -/
def kept (tags : List String) (keep : Bool) : List Dataset :=
  Dataset.defaults.filter fun d => named tags d = keep

theorem mem_kept_true {d : Dataset} :
    d ∈ kept tags true ↔ d ∈ Dataset.defaults ∧ SpelledIn tags d.tag := by
  simp only [kept, List.mem_filter, decide_eq_true_eq, named_iff]

theorem mem_kept_false {d : Dataset} :
    d ∈ kept tags false ↔ d ∈ Dataset.defaults ∧ ¬SpelledIn tags d.tag := by
  simp only [kept, List.mem_filter, decide_eq_true_eq, ← named_iff, Bool.not_eq_true]

theorem kept_sublist (tags : List String) (keep : Bool) :
    (kept tags keep).Sublist Dataset.defaults :=
  List.filter_sublist

/-- What is named and what is not make up the default datasets. -/
theorem kept_perm (tags : List String) :
    (kept tags true ++ kept tags false).Perm Dataset.defaults := by
  have hsplit := List.filter_append_perm (named tags) Dataset.defaults
  simpa only [kept, Bool.decide_eq_true, Bool.decide_eq_false] using hsplit

theorem kept_congr (h : SameTags a b) (keep : Bool) : kept a keep = kept b keep := by
  have hnamed (d : Dataset) : named a d = named b d :=
    Bool.eq_iff_iff.mpr (named_iff.trans ((h d.tag).trans named_iff.symm))
  simp only [kept, hnamed]

/-- The first tag that is not known is the error of either filter. -/
theorem filtered_of_unknown {before after : List String} {tag : String}
    (hbefore : ∀ t ∈ before, KnownTag t) (htag : ¬KnownTag tag) (keep : Bool) :
    filtered (before ++ tag :: after) keep = .error (.unknownTag tag) := by
  have hfind : (before ++ tag :: after).find?
      (fun t => !Dataset.defaults.any fun d => Text.sameName d.tag t) = some tag := by
    refine List.find?_eq_some_iff_append.mpr ⟨?_, before, after, rfl, fun t ht => ?_⟩
    · simpa only [Bool.not_eq_true', ← Bool.not_eq_true, any_defaults_iff] using htag
    · simpa only [Bool.not_not, any_defaults_iff] using hbefore t ht
  rw [filtered, hfind]

/-- Where all tags are known, a filter selects what it keeps, unless that is nothing. -/
theorem filtered_of_known (h : ∀ t ∈ tags, KnownTag t) (keep : Bool) :
    filtered tags keep =
      if kept tags keep = [] then .error .nothingLeft else .ok (kept tags keep) := by
  have hfind : tags.find? (fun t => !Dataset.defaults.any fun d => Text.sameName d.tag t) =
      none := by
    refine List.find?_eq_none.mpr fun t ht => ?_
    simpa only [Bool.not_eq_true', Bool.not_eq_false, any_defaults_iff] using h t ht
  rw [filtered, hfind, ← kept]
  cases kept tags keep <;> rfl

theorem filtered_congr (h : SameTags a b) (hknown : ∀ t ∈ a, KnownTag t) (keep : Bool) :
    filtered b keep = filtered a keep := by
  rw [filtered_of_known hknown, filtered_of_known (h.known hknown), kept_congr h]

/-- Tags that are known include a dataset each. -/
theorem kept_true_eq_nil_iff (h : ∀ t ∈ tags, KnownTag t) : kept tags true = [] ↔ tags = [] := by
  constructor
  · intro hnil
    refine List.eq_nil_iff_forall_not_mem.mpr fun t ht => ?_
    obtain ⟨d, hd, hsame⟩ := h t ht
    have hmem : d ∈ kept tags true := mem_kept_true.mpr ⟨hd, t, ht, hsame⟩
    rw [hnil] at hmem
    cases hmem
  · rintro rfl
    refine List.eq_nil_iff_forall_not_mem.mpr fun d hd => ?_
    obtain ⟨-, t, ht, -⟩ := mem_kept_true.mp hd
    cases ht

theorem kept_false_eq_nil_iff :
    kept tags false = [] ↔ ∀ d ∈ Dataset.defaults, SpelledIn tags d.tag := by
  simp only [List.eq_nil_iff_forall_not_mem, mem_kept_false, not_and, not_not]

/-! ## What is selected can be configured -/

/-- Some of the default datasets are what a configuration accepts. -/
theorem checkDatasets_of_sublist {datasets : List Dataset} (h : datasets.Sublist Dataset.defaults)
    (hne : datasets ≠ []) : checkDatasets datasets = .ok () := by
  obtain ⟨-, hall, hpair⟩ := checkDatasets_eq_ok_iff.mp
    (show checkDatasets Dataset.defaults = .ok () by decide)
  exact checkDatasets_eq_ok_iff.mpr ⟨hne, fun d hd => hall d (h.subset hd), hpair.sublist h⟩

theorem filtered_eq_ok {keep : Bool} {selected : List Dataset}
    (h : filtered tags keep = .ok selected) :
    selected.Sublist Dataset.defaults ∧ selected ≠ [] := by
  rw [filtered, ← kept] at h
  cases hfind : tags.find? fun tag => !Dataset.defaults.any fun d => Text.sameName d.tag tag with
  | some tag =>
    rw [hfind] at h
    cases h
  | none =>
    rw [hfind] at h
    cases hkept : kept tags keep with
    | nil =>
      rw [hkept] at h
      cases h
    | cons d rest =>
      rw [hkept] at h
      cases h
      exact ⟨hkept ▸ kept_sublist tags keep, List.cons_ne_nil d rest⟩

theorem select_eq_ok {include? exclude? : Option (List String)} {selected : List Dataset}
    (h : select include? exclude? = .ok selected) :
    selected.Sublist Dataset.defaults ∧ selected ≠ [] := by
  cases include? with
  | some included =>
    cases exclude? with
    | some excluded => cases h
    | none => exact filtered_eq_ok h
  | none =>
    cases exclude? with
    | some excluded => exact filtered_eq_ok h
    | none =>
      cases h
      exact ⟨.refl _, by decide⟩

/-! ## The two filters together -/

/-- A tag that is not known is an error of either filter, the first one in the list. Other tags
split the default datasets, each part in the old order: the one filter selects the datasets that they
name, the other one the rest, and selecting nothing is an error. How the list is written makes no
difference. Both filters at once are an error, and whatever is selected can be configured. -/
theorem select_complementary (tags : List String) :
    ((∃ t ∈ tags, ¬KnownTag t) → ∃ before tag after, tags = before ++ tag :: after ∧
      (∀ t ∈ before, KnownTag t) ∧ ¬KnownTag tag ∧
      select (some tags) none = .error (.unknownTag tag) ∧
      select none (some tags) = .error (.unknownTag tag)) ∧
    ((∀ t ∈ tags, KnownTag t) → ∃ included excluded : List Dataset,
      (included ++ excluded).Perm Dataset.defaults ∧
      included.Sublist Dataset.defaults ∧ excluded.Sublist Dataset.defaults ∧
      (∀ d ∈ included, SpelledIn tags d.tag) ∧ (∀ d ∈ excluded, ¬SpelledIn tags d.tag) ∧
      (included = [] ↔ tags = []) ∧
      (excluded = [] ↔ ∀ d ∈ Dataset.defaults, SpelledIn tags d.tag) ∧
      select (some tags) none = (if included = [] then .error .nothingLeft else .ok included) ∧
      select none (some tags) = (if excluded = [] then .error .nothingLeft else .ok excluded) ∧
      ∀ others, Relation.EqvGen Rewritten tags others →
        select (some others) none = select (some tags) none ∧
        select none (some others) = select none (some tags)) ∧
    (∀ others, select (some tags) (some others) = .error .bothFilters) ∧
    ∀ include? exclude? selected, select include? exclude? = .ok selected →
      ∀ dataDir database,
        Config.make dataDir database selected = .ok ⟨dataDir, database, selected⟩ := by
  refine ⟨fun hunknown => ?_, fun hknown => ?_, fun _ => rfl, ?_⟩
  · obtain ⟨before, tag, after, rfl, hbefore, htag⟩ := exists_firstUnknown hunknown
    exact ⟨before, tag, after, rfl, hbefore, htag, filtered_of_unknown hbefore htag true,
      filtered_of_unknown hbefore htag false⟩
  · refine ⟨kept tags true, kept tags false, kept_perm tags, kept_sublist tags true,
      kept_sublist tags false, fun d hd => (mem_kept_true.mp hd).2,
      fun d hd => (mem_kept_false.mp hd).2,
      kept_true_eq_nil_iff hknown, kept_false_eq_nil_iff, filtered_of_known hknown true,
      filtered_of_known hknown false, fun others hothers => ?_⟩
    have hsame := sameTags_of_eqvGen hothers
    exact ⟨filtered_congr hsame hknown true, filtered_congr hsame hknown false⟩
  · intro include? exclude? selected hselected dataDir database
    obtain ⟨hsub, hne⟩ := select_eq_ok hselected
    rw [Config.make, checkDatasets_of_sublist hsub hne]
    rfl

example : select (some ["s3", "S1", "s1"]) none = .ok [.ofTag "S1", .ofTag "S3"] := by decide

end Selection

end CardArchive
