import CardArchive.Proofs.DatabaseFile
import CardArchive.Proofs.Import

/-!
# Loading one dataset

All that loading a dataset can do: its data file cannot be read, and nothing happens; all its lines
are rows, and they are added to its table; or a line is no row, and its table is made if it was not
there. Three equations say this with all reports; `loadDataset_eq_ok` and `loadDataset_eq_error` say
from the outcome which of them it was.

A data file that is the database itself is never loaded: when its lines are read the table is there,
and the file of a database is no text. So it need not be assumed of a load that succeeds that its
data file is apart from the database.
-/

namespace CardArchive

namespace Load

/-! ## Data files -/

/-- The data file of a dataset can be read, and its lines are these rows. -/
def HasRows (config : Config) (f : Files) (d : Dataset) (rows : List Row) : Prop :=
  ∃ lines, inputLines f (config.inputPath d) = .ok lines ∧ Row.ofLines lines = (rows, none)

/-- The data file of a dataset is not at the place of the database. No more is asked for: the files
that stand beside a database while it is used are left out, as is said with connections. -/
def FileApart (config : Config) (f : Files) (place : Location) (d : Dataset) : Prop :=
  f.locate (config.inputPath d) ≠ .ok place

theorem inputLines_eq_ok_iff {f : Files} {path : String} {lines : List (List UInt8)} :
    inputLines f path = .ok lines ↔ ∃ bytes, f.read path = .ok bytes ∧
      Text.splitLines bytes = lines := by
  unfold inputLines
  cases f.read path with
  | ok bytes => simp
  | error fault => cases fault <;> simp

section

variable {config : Config} {f g : Files} {place : Location} {db : Database} {d : Dataset}
  {lines : List (List UInt8)} {rows : List Row}

theorem HasRows.unique {rows' : List Row} (h : HasRows config f d rows)
    (h' : HasRows config f d rows') : rows = rows' := by
  obtain ⟨lines, hlines, hrows⟩ := h
  obtain ⟨lines', hlines', hrows'⟩ := h'
  cases hlines.symm.trans hlines'
  exact (Prod.mk.inj (hrows.symm.trans hrows')).1

theorem FileApart.inputLines (hapart : FileApart config f place d)
    (hagree : Files.AgreeOff place f g) (hf : f.lookup place ≠ some .directory)
    (hlines : inputLines f (config.inputPath d) = .ok lines) :
    inputLines g (config.inputPath d) = .ok lines := by
  obtain ⟨bytes, hread, rfl⟩ := inputLines_eq_ok_iff.mp hlines
  exact inputLines_eq_ok_iff.mpr ⟨bytes, hagree.read hf hapart hread, rfl⟩

theorem HasRows.of_agreeOff (h : HasRows config f d rows) (hagree : Files.AgreeOff place f g)
    (hf : f.lookup place ≠ some .directory) (hapart : FileApart config f place d) :
    HasRows config g d rows := by
  obtain ⟨lines, hlines, hrows⟩ := h
  exact ⟨lines, hapart.inputLines hagree hf hlines, hrows⟩

theorem FileApart.of_agreeOff (h : FileApart config f place d) (hagree : Files.AgreeOff place f g)
    (hg : g.lookup place ≠ some .directory) : FileApart config g place d :=
  fun hloc => h (hagree.symm.locate hg hloc)

/-- The file of a database is one line, which is no text. -/
theorem inputLines_of_database (hplace : f.locate (config.inputPath d) = .ok place)
    (hat : f.lookup place = some (.database db)) :
    inputLines f (config.inputPath d) = .ok [Files.databaseBytes] :=
  inputLines_eq_ok_iff.mpr
    ⟨_, Files.read_eq_ok_iff.mpr ⟨place, hplace, Or.inr ⟨⟨db, hat⟩, rfl⟩⟩, by decide +kernel⟩

theorem ofLines_databaseBytes : Row.ofLines [Files.databaseBytes] = ([], some .notText) := rfl

/-- A data file that has rows is not the file of a database. -/
theorem HasRows.fileApart (hrows : HasRows config f d rows)
    (hat : f.lookup place = some (.database db)) : FileApart config f place d := by
  intro hplace
  obtain ⟨lines, hlines, hof⟩ := hrows
  cases hlines.symm.trans (inputLines_of_database hplace hat)
  cases ofLines_databaseBytes.symm.trans hof

theorem exists_inputLines_put (hfile : DatabaseFile f config.database place db)
    (hlines : inputLines f (config.inputPath d) = .ok lines) (db' : Database) :
    ∃ lines', inputLines (f.put place (.database db')) (config.inputPath d) = .ok lines' := by
  have hagree := Files.agreeOff_put f place (.database db')
  by_cases hplace : f.locate (config.inputPath d) = .ok place
  · exact ⟨_, inputLines_of_database (hagree.locate hfile.lookup_ne_directory hplace)
      (Files.lookup_put_self _ _ _)⟩
  · exact ⟨_, FileApart.inputLines hplace hagree hfile.lookup_ne_directory hlines⟩

end

/-! ## Loading -/

/-- The state after it was reported that a dataset is worked on. -/
def announced (config : Config) (d : Dataset) (s : RunState) : RunState :=
  (s.report (.info (config.inputPath d ++ " -> " ++ config.database))).report
    (.log (d.tag ++ ": reading " ++ config.inputPath d))

/-- The import of some rows into the table of a dataset, which may not be there yet. -/
def importOf (db : Database) (d : Dataset) (rows : List Row) : Import :=
  rows.foldl Import.add { rows := (db.rows? d.table).getD ∅ }

theorem importOf_rows (db : Database) (d : Dataset) (rows : List Row) :
    (importOf db d rows).rows = Rows.addAll ((db.rows? d.table).getD ∅) rows :=
  Import.foldl_add_rows _ rows

section

variable {config : Config} {d : Dataset} {s s' : RunState} {place : Location} {db : Database}
  {counted lines : List (List UInt8)} {rows : List Row}

theorem exec_loadDataset_unreadable {e : LoadError}
    (h : inputLines s.files (config.inputPath d) = .error e) :
    (loadDataset config d).exec s = (.error e, s) := by
  simp only [loadDataset, Run.exec_bind, Run.exec_files, h, Run.exec_orFail_error, id]

/-- Once its lines are counted, the database is opened and the table is made. -/
theorem exec_loadDataset_opens
    (hcounted : inputLines s.files (config.inputPath d) = .ok counted) :
    (loadDataset config d).exec s =
      (do
        let c ← connect config.database
        let c ← createTable c d.table
        let (_, stats) ← importFile config c d counted.length
        Run.report (.loaded stats)
        return stats : Run LoadError LoadStats).exec (announced config d s) := by
  rw [loadDataset, Run.exec_bind_ok (Run.exec_files s), hcounted,
    Run.exec_bind_ok (Run.exec_orFail_ok id counted s), Run.exec_bind_ok (Run.exec_report _ s),
    Run.exec_bind_ok (Run.exec_report _ _)]
  rfl

/-- What an import of a file does is what an import of its lines does. -/
theorem exec_importFile (c : Connection) (total : Nat)
    (hlines : inputLines s.files (config.inputPath d) = .ok lines) :
    (importFile config c d total).exec s =
      (importLines c d (config.inputPath d) lines total).exec s := by
  rw [importFile, Run.exec_bind_ok (Run.exec_files s), hlines,
    Run.exec_bind_ok (Run.exec_orFail_ok id lines s)]

theorem exec_loadDataset_readable (hfile : DatabaseFile s.files config.database place db)
    (hname : checkTable d.table = .ok ())
    (hcounted : inputLines s.files (config.inputPath d) = .ok counted)
    (hlines : inputLines (s.files.put place (.database (db.addTable d.table)))
      (config.inputPath d) = .ok lines) :
    (loadDataset config d).exec s =
      (do
        let (_, stats) ← importLines (.file place) d (config.inputPath d) lines counted.length
        Run.report (.loaded stats)
        return stats : Run LoadError LoadStats).exec
          { announced config d s with
            files := s.files.put place (.database (db.addTable d.table)) } := by
  let made : RunState :=
    { announced config d s with files := s.files.put place (.database (db.addTable d.table)) }
  have hopen : (connect config.database >>= (createTable · d.table)).exec (announced config d s) =
      (.ok (.file place), made) := exec_openTable_file (s := announced config d s) hfile hname
  have hlines : inputLines made.files (config.inputPath d) = .ok lines := hlines
  rw [exec_loadDataset_opens hcounted, ← bind_assoc, Run.exec_bind_ok hopen, Run.exec_bind,
    exec_importFile (.file place) counted.length hlines, ← Run.exec_bind]

theorem exec_loadDataset_ok (hfile : DatabaseFile s.files config.database place db)
    (hname : checkTable d.table = .ok ()) (hapart : FileApart config s.files place d)
    (hlines : inputLines s.files (config.inputPath d) = .ok lines)
    (hrows : Row.ofLines lines = (rows, none)) :
    (loadDataset config d).exec s =
      let i := importOf db d rows
      let made : RunState :=
        { announced config d s with files := s.files.put place (.database (db.addTable d.table)) }
      let stored : RunState :=
        { (progressReports d lines.length i).foldl RunState.report made with
          files := s.files.put place (.database (db.addRows d.table rows)) }
      let finished := stored.report (.progress ⟨i.read, lines.length, d.tag⟩)
      (.ok (i.stats d), finished.report (.loaded (i.stats d))) := by
  have ht : (db.addTable d.table).target d.table = .ok (d.table, (db.rows? d.table).getD ∅) :=
    Database.target_of_checkTable hname (Database.rows?_addTable_self db d.table)
  have hread := hapart.inputLines (Files.agreeOff_put s.files place
    (.database (db.addTable d.table))) hfile.lookup_ne_directory hlines
  rw [exec_loadDataset_readable hfile hname hlines hread,
    Run.exec_bind_ok (exec_importLines_ok (Connection.database_put _ _ _) ht hrows)]
  simp only [Run.exec_bind, Run.exec_report, Run.exec_pure, Connection.store, Files.put_put]
  rw [Database.addRows, ← importOf_rows]
  rfl

/-- A data file with a line that is no row leaves its table there, as it was or empty. -/
theorem exec_loadDataset_error {fault : LineFault}
    (hfile : DatabaseFile s.files config.database place db) (hname : checkTable d.table = .ok ())
    (hcounted : inputLines s.files (config.inputPath d) = .ok counted)
    (hlines : inputLines (s.files.put place (.database (db.addTable d.table)))
      (config.inputPath d) = .ok lines)
    (hrows : Row.ofLines lines = (rows, some fault)) :
    (loadDataset config d).exec s =
      let made : RunState :=
        { announced config d s with files := s.files.put place (.database (db.addTable d.table)) }
      (.error (lineError d (config.inputPath d) rows.length fault),
        (progressReports d counted.length (importOf db d rows)).foldl RunState.report made) := by
  have ht : (db.addTable d.table).target d.table = .ok (d.table, (db.rows? d.table).getD ∅) :=
    Database.target_of_checkTable hname (Database.rows?_addTable_self db d.table)
  rw [exec_loadDataset_readable hfile hname hcounted hlines]
  exact Run.exec_bind_error (exec_importLines_error (Connection.database_put _ _ _) ht hrows)

/-- All that a load can do over a database in a file: its data file cannot be read; it is apart from
the database and its lines are all rows; or one of the lines is no row once the table is there. -/
theorem loadDataset_inFile_cases (hfile : DatabaseFile s.files config.database place db) :
    (∃ e, inputLines s.files (config.inputPath d) = .error e) ∨
    (∃ lines rows, FileApart config s.files place d ∧
      inputLines s.files (config.inputPath d) = .ok lines ∧ Row.ofLines lines = (rows, none)) ∨
    ∃ counted lines rows fault, inputLines s.files (config.inputPath d) = .ok counted ∧
      inputLines (s.files.put place (.database (db.addTable d.table))) (config.inputPath d) =
        .ok lines ∧ Row.ofLines lines = (rows, some fault) := by
  cases hcounted : inputLines s.files (config.inputPath d) with
  | error e => exact Or.inl ⟨e, rfl⟩
  | ok counted =>
    refine Or.inr ?_
    obtain ⟨lines, hlines⟩ := exists_inputLines_put hfile hcounted (db.addTable d.table)
    rcases hrows : Row.ofLines lines with ⟨rows, _ | fault⟩
    · have hput := hfile.put (db.addTable d.table)
      have hagree := (Files.agreeOff_put s.files place (.database (db.addTable d.table))).symm
      have hapart : FileApart config (s.files.put place (.database (db.addTable d.table))) place d :=
        HasRows.fileApart ⟨lines, hlines, hrows⟩ (Files.lookup_put_self _ _ _)
      have hsame := hapart.inputLines hagree hput.lookup_ne_directory hlines
      cases hcounted.symm.trans hsame
      exact Or.inl ⟨counted, rows, hapart.of_agreeOff hagree hfile.lookup_ne_directory, rfl, hrows⟩
    · exact Or.inr ⟨counted, lines, rows, fault, rfl, hlines, hrows⟩

/-- A dataset is loaded only if its data file is apart from the database and has only rows, and
these are added. -/
theorem loadDataset_eq_ok {stats : LoadStats}
    (hfile : DatabaseFile s.files config.database place db) (hname : checkTable d.table = .ok ())
    (h : (loadDataset config d).exec s = (.ok stats, s')) :
    ∃ lines rows, FileApart config s.files place d ∧
      inputLines s.files (config.inputPath d) = .ok lines ∧
      Row.ofLines lines = (rows, none) ∧ stats = (importOf db d rows).stats d ∧
      s'.files = s.files.put place (.database (db.addRows d.table rows)) := by
  rcases loadDataset_inFile_cases (d := d) hfile with ⟨e, hcounted⟩ |
    ⟨lines, rows, hapart, hlines, hrows⟩ | ⟨counted, lines, rows, fault, hcounted, hlines, hrows⟩
  · rw [exec_loadDataset_unreadable hcounted] at h
    cases h
  · rw [exec_loadDataset_ok hfile hname hapart hlines hrows] at h
    cases h
    exact ⟨lines, rows, hapart, hlines, hrows, rfl, rfl⟩
  · rw [exec_loadDataset_error hfile hname hcounted hlines hrows] at h
    cases h

/-- A dataset fails on its data file or on a line of it. -/
theorem loadDataset_eq_error {e : LoadError}
    (hfile : DatabaseFile s.files config.database place db) (hname : checkTable d.table = .ok ())
    (h : (loadDataset config d).exec s = (.error e, s')) :
    (inputLines s.files (config.inputPath d) = .error e ∧ s'.files = s.files) ∨
    ∃ lines rows fault,
      inputLines (s.files.put place (.database (db.addTable d.table))) (config.inputPath d) =
        .ok lines ∧
      Row.ofLines lines = (rows, some fault) ∧
      e = lineError d (config.inputPath d) rows.length fault ∧
      s'.files = s.files.put place (.database (db.addTable d.table)) := by
  rcases loadDataset_inFile_cases (d := d) hfile with ⟨e, hcounted⟩ |
    ⟨lines, rows, hapart, hlines, hrows⟩ | ⟨counted, lines, rows, fault, hcounted, hlines, hrows⟩
  · rw [exec_loadDataset_unreadable hcounted] at h
    cases h
    exact Or.inl ⟨hcounted, rfl⟩
  · rw [exec_loadDataset_ok hfile hname hapart hlines hrows] at h
    cases h
  · rw [exec_loadDataset_error hfile hname hcounted hlines hrows] at h
    cases h
    exact Or.inr ⟨lines, rows, fault, hlines, hrows, rfl, RunState.files_foldl_report _ _⟩

end

/-! ## Reports have no influence -/

theorem blind_importLines (c : Connection) (d : Dataset) (source : String)
    (lines : List (List UInt8)) (total : Nat) : (importLines c d source lines total).Blind := by
  refine .bind .files fun f => .bind (.orFail _ _) fun db => .bind (.orFail _ _) fun target => ?_
  refine .bind (.reportAll _) fun _ => ?_
  split
  · exact .throw _
  · exact .throw _
  · exact .bind .files fun f => .bind (.setFiles _) fun _ => .bind (.report _) fun _ => .pure _

theorem blind_importFile (config : Config) (c : Connection) (d : Dataset) (counted : Nat) :
    (importFile config c d counted).Blind :=
  .bind .files fun _ => .bind (.orFail _ _) fun _ => blind_importLines _ _ _ _ _

theorem blind_loadDataset (config : Config) (d : Dataset) : (loadDataset config d).Blind := by
  refine .bind .files fun f => .bind (.orFail _ _) fun lines => ?_
  refine .bind (.report _) fun _ => .bind (.report _) fun _ => ?_
  refine .bind ?_ fun c => .bind ?_ fun c => .bind (blind_importFile _ _ _ _) fun _ => ?_
  · exact .bind .files fun f => .bind (.orFail _ _) fun _ => .bind (.setFiles _) fun _ => .pure _
  · exact .bind .files fun f => .bind (.orFail _ _) fun db => .bind (.orFail _ _) fun made =>
      .bind .files fun f => .bind (.setFiles _) fun _ => .pure _
  · exact .bind (.report _) fun _ => .pure _

end Load

end CardArchive
