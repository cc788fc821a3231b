import CardArchive.Run.Import

/-!
# The rows of an import

An import works line by line and counts as it goes. Here it is taken apart into three things that
later modules speak of: the rows that the lines give, up to the first line that gives none; the
table with those rows added, where a row is added unless its identifier is there; and the
identifiers that are new. The counters of an import are read off them.
-/

namespace CardArchive

/-! ## Lines as rows -/

/-- The rows of some lines up to the first line that is not a row, and what is wrong with that
line. -/
def Row.ofLines : List (List UInt8) → List Row × Option LineFault
  | [] => ([], none)
  | line :: rest =>
    match Row.ofBytes line with
    | .ok row => (row :: (ofLines rest).1, (ofLines rest).2)
    | .error fault => ([], some fault)

namespace Row

theorem ofLines_cons_ok {line : List UInt8} {row : Row} (h : Row.ofBytes line = .ok row)
    (rest : List (List UInt8)) :
    ofLines (line :: rest) = (row :: (ofLines rest).1, (ofLines rest).2) := by
  simp [ofLines, h]

theorem ofLines_cons_error {line : List UInt8} {fault : LineFault}
    (h : Row.ofBytes line = .error fault) (rest : List (List UInt8)) :
    ofLines (line :: rest) = ([], some fault) := by
  simp [ofLines, h]

theorem ofBytes_eq_ok {bytes : List UInt8} {row : Row}
    (h : (Row.ofBytes bytes).toOption = some row) : Row.ofBytes bytes = .ok row := by
  cases hb : Row.ofBytes bytes with
  | error fault => rw [hb] at h; cases h
  | ok r => rw [hb] at h; cases h; rfl

/-- Every line is a row exactly when nothing is found wrong. -/
theorem ofLines_eq_none_iff {lines : List (List UInt8)} {rows : List Row} :
    ofLines lines = (rows, none) ↔ lines.map Row.ofBytes = rows.map Except.ok := by
  induction lines generalizing rows with
  | nil => cases rows <;> simp [ofLines]
  | cons line rest ih =>
    cases h : Row.ofBytes line with
    | error fault => cases rows <;> simp [ofLines_cons_error h, h]
    | ok row =>
      rw [ofLines_cons_ok h]
      cases rows with
      | nil => simp
      | cons first others =>
        simp only [List.cons.injEq, List.map_cons, h, Except.ok.injEq, ← ih,
          Prod.ext_iff, and_assoc]

/-- A fault is that of the first line that is not a row, and the rows are those of the lines before
it. -/
theorem ofLines_eq_some {lines : List (List UInt8)} {rows : List Row} {fault : LineFault}
    (h : ofLines lines = (rows, some fault)) :
    ∃ before line after, lines = before ++ line :: after ∧
      before.map Row.ofBytes = rows.map Except.ok ∧ Row.ofBytes line = .error fault := by
  induction lines generalizing rows with
  | nil => simp [ofLines] at h
  | cons line rest ih =>
    cases hl : Row.ofBytes line with
    | error f =>
      rw [ofLines_cons_error hl] at h
      obtain ⟨rfl, hf⟩ := Prod.mk.inj h
      exact ⟨[], line, rest, rfl, rfl, by rw [hl, Option.some.inj hf]⟩
    | ok row =>
      rw [ofLines_cons_ok hl] at h
      obtain ⟨rfl, hf⟩ := Prod.mk.inj h
      obtain ⟨before, bad, after, rfl, hb, hbad⟩ := ih (Prod.ext rfl hf)
      exact ⟨line :: before, bad, after, rfl, by simp [hl, hb], hbad⟩

end Row

/-! ## Rows added to a table -/

namespace Rows

/-- One more row, unless its identifier is there. -/
def addRow (m : Rows) (row : Row) : Rows := if m.contains row.id then m else m.insert row.id row

/-- More rows, one after the other. -/
def addAll (m : Rows) (rows : List Row) : Rows := rows.foldl addRow m

theorem addAll_nil (m : Rows) : addAll m [] = m := rfl

theorem addAll_cons (m : Rows) (row : Row) (rest : List Row) :
    addAll m (row :: rest) = addAll (addRow m row) rest := rfl

theorem getElem?_addRow (m : Rows) (row : Row) (id : Int) :
    (addRow m row)[id]? = m[id]?.or (if row.id = id then some row else none) := by
  unfold addRow
  split
  · next h =>
    rw [Std.ExtTreeMap.contains_eq_isSome_getElem?] at h
    by_cases hid : row.id = id
    · obtain ⟨old, hold⟩ := Option.isSome_iff_exists.mp h
      simp [← hid, hold]
    · simp [hid]
  · next h =>
    rw [Std.ExtTreeMap.contains_eq_isSome_getElem?] at h
    by_cases hid : row.id = id
    · have hnone : m[id]? = none := by simpa [hid] using h
      simp [hid, hnone]
    · simp [Std.ExtTreeMap.getElem?_insert, hid]

/-- What was there stays, and an identifier that is new gets the first row that carries it. -/
theorem getElem?_addAll (m : Rows) (rows : List Row) (id : Int) :
    (addAll m rows)[id]? = m[id]?.or (rows.find? (·.id = id)) := by
  induction rows generalizing m with
  | nil => simp [addAll_nil]
  | cons row rest ih =>
    rw [addAll_cons, ih, getElem?_addRow, Option.or_assoc, List.find?_cons]
    by_cases hid : row.id = id <;> simp [hid]

theorem mem_or_of_getElem?_addAll {m : Rows} {rows : List Row} {id : Int} {row : Row}
    (h : (addAll m rows)[id]? = some row) : m[id]? = some row ∨ (row ∈ rows ∧ row.id = id) := by
  rw [getElem?_addAll] at h
  rcases Option.or_eq_some_iff.mp h with hold | ⟨-, hnew⟩
  · exact Or.inl hold
  · have hid := List.find?_some hnew
    exact Or.inr ⟨List.mem_of_find?_eq_some hnew, of_decide_eq_true hid⟩

/-- Every row is found under its own identifier. -/
def Keyed (m : Rows) : Prop := ∀ (id : Int) (row : Row), m[id]? = some row → row.id = id

theorem keyed_empty : Keyed ∅ := fun id row h => by simp at h

theorem Keyed.addAll {m : Rows} (h : m.Keyed) (rows : List Row) : (addAll m rows).Keyed := by
  intro id row hrow
  rcases mem_or_of_getElem?_addAll hrow with hold | ⟨-, hid⟩
  · exact h id row hold
  · exact hid

/-- As a list a table has every identifier once. -/
theorem nodup_keys (m : Rows) : (m.toList.map Prod.fst).Nodup := by
  rw [List.Nodup, List.pairwise_map]
  refine (Std.ExtTreeMap.distinct_keys_toList (t := m)).imp fun {p q} hne heq => hne ?_
  rw [heq]
  exact Std.ReflCmp.compare_self

theorem mem_addAll {m : Rows} {rows : List Row} {id : Int} :
    id ∈ addAll m rows ↔ id ∈ m ∨ ∃ row ∈ rows, row.id = id := by
  simp only [Std.ExtTreeMap.mem_iff_isSome_getElem?, getElem?_addAll, Option.isSome_or,
    Bool.or_eq_true, List.find?_isSome, decide_eq_true_eq]

/-- Rows whose identifiers are all there change nothing. -/
theorem addAll_eq_self {m : Rows} {rows : List Row} (h : ∀ row ∈ rows, row.id ∈ m) :
    addAll m rows = m := by
  induction rows with
  | nil => rfl
  | cons row rest ih =>
    have hrow : addRow m row = m := if_pos (h row List.mem_cons_self)
    rw [addAll_cons, hrow]
    exact ih fun r hr => h r (List.mem_cons_of_mem _ hr)

/-- The identifiers of some rows that a table does not have, each once. -/
def newIds (m : Rows) : List Row → List Int
  | [] => []
  | row :: rest =>
    if row.id ∈ m then newIds m rest else row.id :: newIds (m.insert row.id row) rest

theorem newIds_cons_of_mem {m : Rows} {row : Row} (h : row.id ∈ m) (rest : List Row) :
    newIds m (row :: rest) = newIds m rest := if_pos h

theorem newIds_cons_of_notMem {m : Rows} {row : Row} (h : row.id ∉ m) (rest : List Row) :
    newIds m (row :: rest) = row.id :: newIds (m.insert row.id row) rest := if_neg h

theorem mem_newIds {m : Rows} {rows : List Row} {id : Int} :
    id ∈ newIds m rows ↔ (∃ row ∈ rows, row.id = id) ∧ id ∉ m := by
  induction rows generalizing m with
  | nil => simp [newIds]
  | cons row rest ih =>
    simp only [List.mem_cons, exists_eq_or_imp]
    by_cases h : row.id ∈ m
    · rw [newIds_cons_of_mem h, ih]
      constructor
      · rintro ⟨hrest, hid⟩
        exact ⟨Or.inr hrest, hid⟩
      · rintro ⟨rfl | hrest, hid⟩
        · exact absurd h hid
        · exact ⟨hrest, hid⟩
    · rw [newIds_cons_of_notMem h, List.mem_cons, ih]
      by_cases hid : row.id = id
      · simp [← hid, h]
      · simp [hid, Ne.symm hid]

theorem nodup_newIds (m : Rows) (rows : List Row) : (newIds m rows).Nodup := by
  induction rows generalizing m with
  | nil => exact List.nodup_nil
  | cons row rest ih =>
    by_cases h : row.id ∈ m
    · rw [newIds_cons_of_mem h]
      exact ih m
    · rw [newIds_cons_of_notMem h]
      refine List.nodup_cons.mpr ⟨?_, ih _⟩
      simp [mem_newIds]

end Rows

/-! ## The counters of an import -/

namespace Import

/-- Reading lines adds the rows that they give. -/
theorem addLines_eq (i : Import) (lines : List (List UInt8)) :
    i.addLines lines = ((Row.ofLines lines).1.foldl add i, (Row.ofLines lines).2) := by
  induction lines generalizing i with
  | nil => rfl
  | cons line rest ih =>
    cases h : Row.ofBytes line with
    | ok row => rw [addLines, h, Row.ofLines_cons_ok h]; exact ih (i.add row)
    | error fault => rw [addLines, h, Row.ofLines_cons_error h]; rfl

theorem add_rows (i : Import) (row : Row) : (i.add row).rows = Rows.addRow i.rows row := by
  unfold add Rows.addRow
  split <;> rfl

theorem add_read (i : Import) (row : Row) : (i.add row).read = i.read + 1 := by
  unfold add
  split <;> rfl

theorem foldl_add_rows (i : Import) (rows : List Row) :
    (rows.foldl add i).rows = Rows.addAll i.rows rows := by
  induction rows generalizing i with
  | nil => rfl
  | cons row rest ih => rw [List.foldl_cons, ih, add_rows, Rows.addAll_cons]

theorem foldl_add_read (i : Import) (rows : List Row) :
    (rows.foldl add i).read = i.read + rows.length := by
  induction rows generalizing i with
  | nil => rfl
  | cons row rest ih => rw [List.foldl_cons, ih, add_read, List.length_cons]; omega

/-- What was read was either added or skipped. -/
theorem foldl_add_read_eq {i : Import} (h : i.read = i.inserted + i.skipped) (rows : List Row) :
    (rows.foldl add i).read = (rows.foldl add i).inserted + (rows.foldl add i).skipped := by
  induction rows generalizing i with
  | nil => exact h
  | cons row rest ih =>
    refine ih ?_
    unfold add
    split
    · show i.read + 1 = i.inserted + (i.skipped + 1)
      omega
    · show i.read + 1 = i.inserted + 1 + i.skipped
      omega

/-- As many rows were added as there were new identifiers. -/
theorem foldl_add_inserted (i : Import) (rows : List Row) :
    (rows.foldl add i).inserted = i.inserted + (Rows.newIds i.rows rows).length := by
  induction rows generalizing i with
  | nil => rfl
  | cons row rest ih =>
    rw [List.foldl_cons, ih]
    by_cases h : i.rows.contains row.id
    · have hadd : (i.add row).rows = i.rows ∧ (i.add row).inserted = i.inserted := by simp [add, h]
      rw [hadd.1, hadd.2, Rows.newIds_cons_of_mem h]
    · have hadd : (i.add row).rows = i.rows.insert row.id row ∧
          (i.add row).inserted = i.inserted + 1 := by simp [add, h]
      rw [hadd.1, hadd.2, Rows.newIds_cons_of_notMem h, List.length_cons]
      omega

end Import

end CardArchive
