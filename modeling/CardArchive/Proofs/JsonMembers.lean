import CardArchive.Json.Value
import Mathlib.Data.List.Nodup

/-!
# Members of objects

An object is made by putting its members in one after the other. Whatever the order in which they
come, the keys end up in ascending order, and under a key lies the value that came last with it. An
object in order is given by its members, so where no key comes twice the order of coming is
forgotten.
-/

namespace CardArchive.Json.Members

/-! ## Values under keys -/

theorem get?_cons (p : String × Json) (members : Members) (key : String) :
    Members.get? (p :: members) key = if key = p.1 then some p.2 else members.get? key := by
  obtain ⟨k, v⟩ := p
  by_cases h : key = k
  · subst h
    simp [get?]
  · have hne : (key == k) = false := by simp [h]
    simp [get?, List.lookup_cons, hne, h]

/-- The value that was put in lies under its key, and the others stay. -/
theorem get?_insert (members : Members) (key : String) (value : Json) (k : String) :
    (members.insert key value).get? k = if k = key then some value else members.get? k := by
  induction members with
  | nil => exact get?_cons (key, value) [] k
  | cons p rest ih =>
    obtain ⟨a, b⟩ := p
    rw [insert]
    split
    · rw [get?_cons]
    · split
      · next heq =>
        subst heq
        rw [get?_cons, get?_cons]
        split <;> rfl
      · next hne =>
        rw [get?_cons, ih, get?_cons]
        by_cases hka : k = a
        · subst hka
          rw [if_pos rfl, if_pos rfl, if_neg (Ne.symm hne)]
        · rw [if_neg hka, if_neg hka]

/-- Puts in several members, one after the other. -/
def insertAll (members : Members) (pairs : List (String × Json)) : Members :=
  pairs.foldl (fun members p => members.insert p.1 p.2) members

theorem insertAll_cons (members : Members) (p : String × Json) (rest : List (String × Json)) :
    members.insertAll (p :: rest) = (members.insert p.1 p.2).insertAll rest := rfl

theorem ofList_eq_insertAll (pairs : List (String × Json)) : ofList pairs = insertAll [] pairs :=
  rfl

theorem ofList_append_singleton (pairs : List (String × Json)) (p : String × Json) :
    ofList (pairs ++ [p]) = (ofList pairs).insert p.1 p.2 := by
  rw [ofList, List.foldl_append]
  rfl

theorem get?_insertAll (members : Members) (pairs : List (String × Json)) (k : String) :
    (members.insertAll pairs).get? k = (pairs.reverse.lookup k).or (members.get? k) := by
  induction pairs generalizing members with
  | nil => rfl
  | cons p rest ih =>
    obtain ⟨key, value⟩ := p
    rw [insertAll_cons, ih, get?_insert, List.reverse_cons, List.lookup_append, Option.or_assoc]
    by_cases h : k = key
    · simp [h]
    · have hne : (k == key) = false := by simp [h]
      simp [List.lookup_cons, h, hne]

theorem get?_ofList (pairs : List (String × Json)) (k : String) :
    (ofList pairs).get? k = pairs.reverse.lookup k :=
  (get?_insertAll [] pairs k).trans Option.or_none

/-! ## The order of the keys -/

/-- A member of what was made is the one that was put in or one of the others. -/
theorem mem_insert {members : Members} {key : String} {value : Json} {p : String × Json}
    (h : p ∈ members.insert key value) : p = (key, value) ∨ p ∈ members := by
  induction members with
  | nil => exact Or.inl (List.mem_singleton.mp h)
  | cons q rest ih =>
    rw [insert] at h
    split at h
    · exact List.mem_cons.mp h
    · split at h
      · exact (List.mem_cons.mp h).imp_right (List.mem_cons_of_mem _)
      · rcases List.mem_cons.mp h with rfl | h
        · exact Or.inr List.mem_cons_self
        · exact (ih h).imp_right (List.mem_cons_of_mem _)

theorem ascending_insert {members : Members} (h : members.Ascending) (key : String)
    (value : Json) : Ascending (members.insert key value) := by
  induction members with
  | nil => exact List.pairwise_singleton _ _
  | cons q rest ih =>
    obtain ⟨hfirst, hrest⟩ := List.pairwise_cons.mp h
    rw [insert]
    split
    · next hlt =>
      refine List.pairwise_cons.mpr ⟨fun p hp => ?_, h⟩
      rcases List.mem_cons.mp hp with rfl | hp
      · exact hlt
      · exact String.lt_trans hlt (hfirst p hp)
    · split
      · next heq =>
        subst heq
        exact List.pairwise_cons.mpr ⟨hfirst, hrest⟩
      · next hnot hne =>
        refine List.pairwise_cons.mpr ⟨fun p hp => ?_, ih hrest⟩
        rcases mem_insert hp with rfl | hp
        · refine String.not_le.mp fun hle => hne ?_
          exact String.le_antisymm hle (String.not_lt.mp hnot)
        · exact hfirst p hp

/-- A property of all members that are put in holds of all members there are. -/
theorem forall_mem_insertAll {P : String × Json → Prop} {pairs : List (String × Json)}
    {members : Members} (hpairs : ∀ p ∈ pairs, P p) (hmembers : ∀ p ∈ members, P p) :
    ∀ p ∈ members.insertAll pairs, P p := by
  induction pairs generalizing members with
  | nil => exact hmembers
  | cons q rest ih =>
    refine ih (fun p hp => hpairs p (List.mem_cons_of_mem _ hp)) fun p hp => ?_
    rcases mem_insert hp with rfl | hp
    · exact hpairs q List.mem_cons_self
    · exact hmembers p hp

theorem forall_mem_ofList {P : String × Json → Prop} {pairs : List (String × Json)}
    (h : ∀ p ∈ pairs, P p) : ∀ p ∈ ofList pairs, P p :=
  forall_mem_insertAll h fun _ hp => nomatch hp

theorem ascending_insertAll {members : Members} (h : members.Ascending)
    (pairs : List (String × Json)) : Ascending (members.insertAll pairs) := by
  induction pairs generalizing members with
  | nil => exact h
  | cons p rest ih => exact ih (ascending_insert h p.1 p.2)

/-- The keys stand in ascending order, in whatever order the members came. -/
theorem ascending_ofList (pairs : List (String × Json)) : (ofList pairs).Ascending :=
  ascending_insertAll List.Pairwise.nil pairs

/-! ## Members and their keys -/

theorem nodup_keys {members : Members} (h : members.Ascending) :
    (members.map Prod.fst).Nodup := by
  refine List.pairwise_map.mpr (List.Pairwise.imp ?_ h)
  exact fun hlt => String.ne_of_lt hlt

/-- Where no key comes twice, every pair is found under its key. -/
theorem lookup_eq_some_iff_mem {pairs : List (String × Json)} (h : (pairs.map Prod.fst).Nodup)
    {key : String} {value : Json} : pairs.lookup key = some value ↔ (key, value) ∈ pairs := by
  rw [List.lookup_eq_some_iff]
  constructor
  · rintro ⟨before, after, rfl, -⟩
    exact List.mem_append_right before List.mem_cons_self
  · intro hmem
    obtain ⟨before, after, rfl⟩ := List.append_of_mem hmem
    refine ⟨before, after, rfl, fun p hp => ?_⟩
    rw [List.map_append, List.map_cons] at h
    have hne : p.1 ≠ key :=
      (List.nodup_append.mp h).2.2 _ (List.mem_map_of_mem hp) _ List.mem_cons_self
    simpa using Ne.symm hne

/-- Objects in order are given by their members. -/
theorem eq_of_forall_mem_iff {a b : Members} (ha : a.Ascending) (hb : b.Ascending)
    (h : ∀ p, p ∈ a ↔ p ∈ b) : a = b := by
  have hperm : a.Perm b :=
    (List.perm_ext_iff_of_nodup (nodup_keys ha).of_map (nodup_keys hb).of_map).mpr h
  exact hperm.eq_of_pairwise (fun p q _ _ hpq hqp => absurd hqp (String.lt_asymm hpq)) ha hb

/-- Members with different keys may be put in in any order. -/
theorem ofList_of_perm {members : Members} (h : members.Ascending)
    {pairs : List (String × Json)} (hperm : pairs.Perm members) : ofList pairs = members := by
  have hkeys : (pairs.reverse.map Prod.fst).Nodup := by
    have hall : (pairs.reverse.map Prod.fst).Perm (members.map Prod.fst) :=
      ((List.reverse_perm pairs).trans hperm).map Prod.fst
    exact hall.nodup_iff.mpr (nodup_keys h)
  refine eq_of_forall_mem_iff (ascending_ofList pairs) h fun p => ?_
  rw [← lookup_eq_some_iff_mem (nodup_keys (ascending_ofList pairs)), ← get?, get?_ofList,
    lookup_eq_some_iff_mem hkeys, List.mem_reverse, hperm.mem_iff]

theorem ofList_of_ascending {members : Members} (h : members.Ascending) :
    ofList members = members := ofList_of_perm h (List.Perm.refl members)

end CardArchive.Json.Members
