import CardArchive.Run.Load
import CardArchive.Proofs.Execution
import CardArchive.Proofs.Tables

/-!
# Importing lines

What an import leaves behind. All lines are rows: then they are added to the table and the import
succeeds. A line is no row: then the import fails with the error of the first such line, and the
files are as they were.
-/

namespace CardArchive

namespace Connection

theorem database_store {c : Connection} {f : Files} {old : Database}
    (h : c.database f = .ok old) (db : Database) :
    (c.store f db).1.database (c.store f db).2 = .ok db := by
  cases c with
  | memory _ => rfl
  | file place => simp [store, database, databaseAt, Files.put]

end Connection

namespace Load

/-- The error for a line that is no row, after a number of lines that are. -/
def lineError (d : Dataset) (source : String) (before : Nat) : LineFault → LoadError
  | .notText => .io source .notText
  | .record e => .record d.tag (before + 1) e

/-- The reports that an import makes before its rows are in the database. -/
def progressReports (d : Dataset) (total : Nat) (i : Import) : List Report :=
  i.reported.reverse.map fun n => .progress ⟨n, total, d.tag⟩

section

variable {c : Connection} {d : Dataset} {source name : String} {lines : List (List UInt8)}
  {total : Nat} {s : RunState} {db : Database} {old : Rows} {rows : List Row}

/-- Lines that are all rows are stored, and the last report follows. -/
theorem exec_importLines_ok (hdb : c.database s.files = .ok db)
    (ht : db.target d.table = .ok (name, old)) (hl : Row.ofLines lines = (rows, none)) :
    (importLines c d source lines total).exec s =
      let i := rows.foldl Import.add { rows := old }
      let stored := c.store s.files (db.setRows name i.rows)
      let reported := (progressReports d total i).foldl RunState.report s
      (.ok (stored.1, i.stats d),
        ({ reported with files := stored.2 }).report (.progress ⟨i.read, total, d.tag⟩)) := by
  simp only [importLines, Run.exec_bind, Run.exec_files, hdb, Run.exec_orFail_ok, ht,
    Import.addLines_eq, hl, Run.exec_reportAll, RunState.files_foldl_report, Run.exec_setFiles,
    Run.exec_report, Run.exec_pure]
  rfl

/-- A line that is no row ends the import, and nothing is stored. -/
theorem exec_importLines_error {fault : LineFault} (hdb : c.database s.files = .ok db)
    (ht : db.target d.table = .ok (name, old)) (hl : Row.ofLines lines = (rows, some fault)) :
    (importLines c d source lines total).exec s =
      let i := rows.foldl Import.add { rows := old }
      (.error (lineError d source rows.length fault),
        (progressReports d total i).foldl RunState.report s) := by
  have hread : (rows.foldl Import.add { rows := old }).read = rows.length := by
    rw [Import.foldl_add_read, Nat.zero_add]
  simp only [importLines, Run.exec_bind, Run.exec_files, hdb, Run.exec_orFail_ok, ht,
    Import.addLines_eq, hl, Run.exec_reportAll]
  cases fault with
  | notText => rfl
  | record e => simp only [Run.exec_throw, hread]; rfl

/-- An import of lines that are all rows commits: what was in the table stays, an identifier that is
new gets the row of the first line that carries it, and nothing else changes. -/
theorem importLines_keeps_first_rows (source : String) (total : Nat)
    (hdb : c.database s.files = .ok db) (ht : db.target d.table = .ok (name, old))
    (hrows : lines.map Row.ofBytes = rows.map Except.ok) :
    ∃ c' stats s' db' new,
      (importLines c d source lines total).exec s = (.ok (c', stats), s') ∧
      c'.database s'.files = .ok db' ∧ db'.rows? name = some new ∧
      (∀ (id : Int) (row : Row), old[id]? = some row → new[id]? = some row) ∧
      (∀ id : Int, old[id]? = none → new[id]? = rows.find? (·.id = id)) ∧
      db'.tables.map Table.name = db.tables.map Table.name ∧
      (∀ other, Text.sameName name other = false → db'.table? other = db.table? other) ∧
      (Rows.newIds old rows).Nodup ∧
      (∀ id, id ∈ Rows.newIds old rows ↔ (∃ row ∈ rows, row.id = id) ∧ id ∉ old) ∧
      stats.read = lines.length ∧ stats.inserted = (Rows.newIds old rows).length ∧
      stats.inserted ≤ stats.read ∧ stats.skipped = stats.read - stats.inserted := by
  have hold : db.rows? name = some old := Database.rows?_of_target ht
  have hlen : rows.length = lines.length := by simpa using (congrArg List.length hrows).symm
  let i : Import := rows.foldl Import.add { rows := old }
  have hread : i.read = rows.length := (Import.foldl_add_read _ rows).trans (Nat.zero_add _)
  have hins : i.inserted = (Rows.newIds old rows).length :=
    (Import.foldl_add_inserted _ rows).trans (Nat.zero_add _)
  have hsum : i.read = i.inserted + i.skipped := Import.foldl_add_read_eq rfl rows
  have hnew : i.rows = Rows.addAll old rows := Import.foldl_add_rows _ rows
  refine ⟨_, _, _, db.setRows name i.rows, i.rows,
    exec_importLines_ok hdb ht (Row.ofLines_eq_none_iff.mpr hrows),
    Connection.database_store hdb _, ?_, ?_, ?_, Database.names_setRows _ _ _, ?_,
    Rows.nodup_newIds old rows, fun id => Rows.mem_newIds, ?_, hins, ?_, ?_⟩
  · rw [Database.rows?_setRows_self, hold, Option.map_some]
  · intro id row h
    rw [hnew, Rows.getElem?_addAll, h, Option.some_or]
  · intro id h
    rw [hnew, Rows.getElem?_addAll, h, Option.none_or]
  · intro other h
    exact Database.table?_setRows_of_ne db i.rows h
  · show i.read = lines.length
    rw [hread, hlen]
  · show i.inserted ≤ i.read
    omega
  · show i.skipped = i.read - i.inserted
    omega

end

/-! ## An example -/

/-- The text of a card that has an identifier, a name and nothing else. -/
def bareCard (name : String) : String :=
  "\x7b\"ID\":7,\"NAME\":\"" ++ name ++ "\",\"TYPE\":null,\"MOTTO\":null,\"CATEGORY\":null," ++
    "\"REGION\":null,\"FLAG\":null,\"CARDCATEGORY\":null,\"BADGES\":[],\"TROPHIES\":[]\x7d"

/-- The row of that card. -/
def bareRow (name : String) : Row where
  id := 7
  name := some name
  type := none
  motto := none
  category := none
  region := none
  flag := none
  cardCategory := none
  population := none
  description := none
  badges := "[]"
  trophies := "[]"

theorem ofBytes_bareCard_first : Row.ofBytes (Text.encode (bareCard "A")) = .ok (bareRow "A") :=
  Row.ofBytes_eq_ok (by decide +kernel)

theorem ofBytes_bareCard_second : Row.ofBytes (Text.encode (bareCard "B")) = .ok (bareRow "B") :=
  Row.ofBytes_eq_ok (by decide +kernel)

/-- A database with one table, which has one row. -/
def smallDatabase : Database := ⟨[⟨"s1", (∅ : Rows).insert 9 (bareRow "C")⟩]⟩

/-- Two cards with one identifier go into a table that has another one. -/
theorem importLines_keeps_first_rows_twins :
    ∃ c' stats s' db' new,
      (importLines (.memory smallDatabase) ⟨"S1", "cards.jsonl", "S1"⟩ "cards.jsonl"
        [Text.encode (bareCard "A"), Text.encode (bareCard "B")] 2).exec ⟨Files.empty, []⟩ =
          (.ok (c', stats), s') ∧
      c'.database s'.files = .ok db' ∧ db'.rows? "S1" = some new ∧
      new[(9 : Int)]? = some (bareRow "C") ∧ new[(7 : Int)]? = some (bareRow "A") ∧
      stats.read = 2 ∧ stats.inserted = 1 ∧ stats.skipped = 1 := by
  have ht : smallDatabase.target "S1" = .ok ("S1", (∅ : Rows).insert 9 (bareRow "C")) :=
    Database.target_of_checkTable (by rfl) (by rfl)
  have hrows : [Text.encode (bareCard "A"), Text.encode (bareCard "B")].map Row.ofBytes =
      [bareRow "A", bareRow "B"].map Except.ok := by
    simp only [List.map_cons, List.map_nil, ofBytes_bareCard_first, ofBytes_bareCard_second]
  obtain ⟨c', stats, s', db', new, hexec, hdb, hnew, hkept, hfirst, -, -, -, -, hread, hins, -,
      hskip⟩ :=
    importLines_keeps_first_rows (c := .memory smallDatabase) (d := ⟨"S1", "cards.jsonl", "S1"⟩)
      (s := ⟨Files.empty, []⟩) "cards.jsonl" 2 rfl ht hrows
  have hone : stats.inserted = 1 := by
    rw [hins, Rows.newIds_cons_of_notMem (by simp [bareRow]),
      Rows.newIds_cons_of_mem (by simp [bareRow])]
    rfl
  refine ⟨c', stats, s', db', new, hexec, hdb, hnew, hkept 9 _ (by simp), ?_, hread, hone, ?_⟩
  · rw [hfirst 7 (by simp)]
    rfl
  · rw [hskip, hread, hone]
    rfl

end Load

end CardArchive
