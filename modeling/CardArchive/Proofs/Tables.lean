import CardArchive.Database.Connection
import CardArchive.Dataset.Config
import CardArchive.Proofs.ImportRows

/-!
# Tables found by name

What is found under a name after a table was made or its rows were replaced. A name stands for all
its spellings, so each statement compares names by `Text.sameName`, and a table that is looked up
under one spelling may have been made under another.
-/

namespace CardArchive

namespace Text

theorem sameName_iff {a b : String} : sameName a b = true ↔ foldCase a = foldCase b := by
  simp [sameName]

theorem sameName_congr_left {a b : String} (h : sameName a b = true) (c : String) :
    sameName a c = sameName b c := by
  simp only [sameName, sameName_iff.mp h]

theorem sameName_congr_right {a b : String} (h : sameName a b = true) (c : String) :
    sameName c a = sameName c b := by
  simp only [sameName, sameName_iff.mp h]

end Text

namespace Database

/-! ## Making tables -/

/-- All spellings of a name find the same table. -/
theorem table?_congr (db : Database) {a b : String} (h : Text.sameName a b = true) :
    db.table? a = db.table? b := by
  simp only [table?, Text.sameName_congr_right h]

/-- A table that is found may have been made under another spelling of the name. -/
theorem sameName_of_table? {db : Database} {name : String} {t : Table}
    (h : db.table? name = some t) : Text.sameName t.name name = true := by
  have hfound := List.find?_some h
  exact hfound

/-- A table that is made is found under its name, unless one was found before. -/
theorem table?_addTable (db : Database) (name other : String) :
    (db.addTable name).table? other =
      (db.table? other).or (if Text.sameName name other then some ⟨name, ∅⟩ else none) := by
  unfold addTable
  split
  · next h =>
    by_cases hn : Text.sameName name other = true
    · obtain ⟨t, ht⟩ := Option.isSome_iff_exists.mp h
      rw [table?_congr db hn] at ht
      rw [ht, Option.some_or]
    · simp [hn]
  · have hlast : [(⟨name, ∅⟩ : Table)].find? (fun t => Text.sameName t.name other) =
        if Text.sameName name other then some ⟨name, ∅⟩ else none := by
      rw [List.find?_cons]
      cases Text.sameName name other <;> rfl
    rw [table?, List.find?_append, hlast]
    rfl

/-- The tables of other names are not touched. -/
theorem table?_addTable_of_ne (db : Database) {name other : String}
    (h : Text.sameName name other = false) : (db.addTable name).table? other = db.table? other := by
  simp [table?_addTable, h]

/-- A table that is made has the rows it had before, and none if it was not there. -/
theorem rows?_addTable_self (db : Database) (name : String) :
    (db.addTable name).rows? name = some ((db.rows? name).getD ∅) := by
  rw [rows?, rows?, table?_addTable, if_pos (Text.sameName_refl name)]
  cases db.table? name <;> rfl

theorem addTable_of_has {db : Database} {name : String} (h : db.has name = true) :
    db.addTable name = db :=
  if_pos h

/-- A table that is there is not made again, and keeps its rows and its spelling. -/
theorem addTable_addTable (db : Database) (name : String) :
    (db.addTable name).addTable name = db.addTable name := by
  refine addTable_of_has ?_
  simp [has, table?_addTable, Text.sameName_refl]

/-! ## Replacing rows -/

theorem name_replaceRows (t : Table) (c : Prop) [Decidable c] (rows : Rows) :
    (if c then { t with rows := rows } else t).name = t.name := by
  split <;> rfl

/-- Under any name, the same table is found as before, with other rows if the names agree. -/
theorem table?_setRows (db : Database) (name other : String) (rows : Rows) :
    (db.setRows name rows).table? other =
      (db.table? other).map fun t =>
        if Text.sameName other name then { t with rows := rows } else t := by
  rw [table?, setRows, List.find?_map, table?]
  simp only [Function.comp_def, name_replaceRows]
  cases ht : db.tables.find? fun t => Text.sameName t.name other with
  | none => rfl
  | some t =>
    have hfound : Text.sameName t.name other = true := sameName_of_table? ht
    rw [Option.map_some, Option.map_some, Text.sameName_congr_left hfound]

theorem table?_setRows_of_ne (db : Database) {name other : String} (rows : Rows)
    (h : Text.sameName name other = false) :
    (db.setRows name rows).table? other = db.table? other := by
  rw [table?_setRows, Text.sameName_comm, h]
  cases db.table? other <;> rfl

theorem rows?_setRows_self (db : Database) (name : String) (rows : Rows) :
    (db.setRows name rows).rows? name = (db.rows? name).map fun _ => rows := by
  rw [rows?, rows?, table?_setRows]
  cases db.table? name <;> simp [Text.sameName_refl]

/-- New rows do not make, rename or move a table. -/
theorem names_setRows (db : Database) (name : String) (rows : Rows) :
    (db.setRows name rows).tables.map Table.name = db.tables.map Table.name := by
  simp only [setRows, List.map_map, Function.comp_def, name_replaceRows]

/-! ## Adding rows -/

/-- The database with rows added to a table, which is made if it is not there. -/
def addRows (db : Database) (name : String) (rows : List Row) : Database :=
  (db.addTable name).setRows name (Rows.addAll ((db.rows? name).getD ∅) rows)

/-- The old rows come first, so a new row with the identifier of an old one is left out. -/
theorem rows?_addRows_self (db : Database) (name : String) (rows : List Row) :
    (db.addRows name rows).rows? name = some (Rows.addAll ((db.rows? name).getD ∅) rows) := by
  rw [addRows, rows?_setRows_self, rows?_addTable_self, Option.map_some]

theorem table?_addRows_of_ne (db : Database) {name other : String} (rows : List Row)
    (h : Text.sameName name other = false) :
    (db.addRows name rows).table? other = db.table? other := by
  rw [addRows, table?_setRows_of_ne _ _ h, table?_addTable_of_ne _ h]

/-- It makes no difference whether a table that rows are added to was made before. -/
theorem addRows_addTable (db : Database) (name : String) (rows : List Row) :
    (db.addTable name).addRows name rows = db.addRows name rows := by
  rw [addRows, addRows, addTable_addTable, rows?_addTable_self, Option.getD_some]

end Database

/-! ## Names that a configuration accepts -/

/-- Between quotes, a text without quotes and without the character zero says itself. -/
theorem Statement.unquote?_eq_self {s : List Char} (h : ∀ c ∈ s, c ≠ '"' ∧ c ≠ '\x00') :
    Statement.unquote? s = some s := by
  induction s with
  | nil => rfl
  | cons c rest ih =>
    have hc := h c List.mem_cons_self
    have hrest := ih fun x hx => h x (List.mem_cons_of_mem _ hx)
    rw [Statement.unquote?]
    · simp [hc.1, hc.2, hrest]
    · rintro _ rfl
      exact absurd rfl hc.1

/-- The characters of an identifier are letters, digits and underscores. -/
theorem isAlphanum_or_of_mem_identifier {name : String} (h : isIdentifier name = true) :
    ∀ c ∈ name.toList, c.isAlphanum = true ∨ c = '_' := by
  unfold isIdentifier at h
  split at h
  · exact absurd h Bool.false_ne_true
  · next c rest heq =>
    rw [heq]
    simp only [Bool.and_eq_true, Bool.or_eq_true, decide_eq_true_eq, List.all_eq_true] at h
    intro x hx
    rcases List.mem_cons.mp hx with rfl | hx
    · exact h.1.imp_left fun ha => by simp [Char.isAlphanum, ha]
    · exact h.2 x hx

/-- A statement names the table that it was built for, if nothing in the name closes the quotes. -/
theorem Statement.tableName_of_isIdentifier {name : String} (h : isIdentifier name = true) :
    Statement.tableName name = .ok name := by
  have hplain : ∀ c ∈ name.toList, c ≠ '"' ∧ c ≠ '\x00' := by
    intro c hc
    rcases isAlphanum_or_of_mem_identifier h c hc with ha | rfl
    · constructor <;> rintro rfl <;> exact absurd ha (by decide)
    · decide
  rw [tableName, unquote?_eq_self hplain]
  exact congrArg Except.ok String.ofList_toList

theorem isIdentifier_of_checkTable {name : String} (h : checkTable name = .ok ()) :
    isIdentifier name = true ∧ isReserved name = false := by
  unfold checkTable at h
  cases hi : isIdentifier name <;> cases hr : isReserved name <;> simp_all

namespace Database

variable {name : String}

/-- An accepted name makes its table without a failure. -/
theorem create_of_checkTable (db : Database) (h : checkTable name = .ok ()) :
    db.create name = .ok (db.addTable name) := by
  obtain ⟨hi, hr⟩ := isIdentifier_of_checkTable h
  rw [create, Statement.tableName_of_isIdentifier hi]
  simp only [bind, Except.bind, hr]
  rfl

/-- The rows that are added under an accepted name go to the table of that name. -/
theorem target_of_checkTable {db : Database} {rows : Rows} (h : checkTable name = .ok ())
    (hrows : db.rows? name = some rows) : db.target name = .ok (name, rows) := by
  obtain ⟨hi, -⟩ := isIdentifier_of_checkTable h
  rw [target, Statement.tableName_of_isIdentifier hi]
  simp only [bind, Except.bind, hrows]

/-- The rows that a statement adds to are those of a table that is there. -/
theorem rows?_of_target {db : Database} {between : String} {rows : Rows}
    (h : db.target between = .ok (name, rows)) : db.rows? name = some rows := by
  unfold target at h
  cases hn : Statement.tableName between with
  | error e => rw [hn] at h; cases h
  | ok n =>
    rw [hn] at h
    simp only [bind, Except.bind] at h
    split at h
    · next found hfound => cases h; exact hfound
    · cases h

end Database

end CardArchive
