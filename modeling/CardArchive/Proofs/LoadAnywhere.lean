import CardArchive.Proofs.LoadRun

/-!
# Loading into whatever a path leads to

The modules before take it that the path of the database leads to one in a file. Here nothing is
taken for granted. Opening a path either gives a database in a file, or one in memory that is gone
after the load, or it ends in an error without a change; so a load that leaves other files than it
found has put a database into a file, and what it has put there is known.
-/

namespace CardArchive

/-- A path stands for a database in memory. -/
def Connection.InMemory (path : String) : Prop := path = memoryPath ∨ path.isEmpty = true

/-- A path is the name of a file: it stands for no database in memory, and is no address of one,
which would begin with `file:`. -/
structure Connection.InFile (path : String) : Prop where
  notInMemory : ¬InMemory path
  noAddress : ¬ addressPrefix.toList <+: path.toList

/-- A path leads to a database in a file. -/
def LeadsToDatabase (f : Files) (path : String) : Prop := ∃ place db, DatabaseFile f path place db

namespace Connection

variable {f : Files} {path : String}

theorem connect_of_inMemory (h : InMemory path) (f : Files) :
    connect f path = .ok (.memory {}, f) := by
  have hpath : (path = memoryPath || path.isEmpty) = true := by
    rcases h with rfl | hempty
    · simp
    · simp [hempty]
  rw [connect, if_pos hpath]

/-- Opening a path leads to a database. -/
def Opens (f : Files) (path : String) (db : Database) : Prop :=
  ∃ c g, connect f path = .ok (c, g) ∧ c.database g = .ok db

theorem opens_of_databaseFile {place : Location} {db : Database}
    (h : DatabaseFile f path place db) : Opens f path db := by
  obtain ⟨g, hconnect, hat, -⟩ := h.connect
  exact ⟨.file place, g, hconnect, hat⟩

/-- Every opening of a path that stands for memory begins with an empty database, whatever was put
into such a database before. -/
theorem opens_iff_of_inMemory (h : InMemory path) {db : Database} : Opens f path db ↔ db = {} := by
  constructor
  · rintro ⟨c, g, hconnect, hdb⟩
    rw [connect_of_inMemory h] at hconnect
    obtain ⟨rfl, rfl⟩ := Prod.mk.inj (Except.ok.inj hconnect)
    exact (Except.ok.inj hdb).symm
  · rintro rfl
    exact ⟨_, f, connect_of_inMemory h f, rfl⟩

/-- What opening a path comes to when it leads to no database in a file. -/
theorem connect_cases (hfile : ¬LeadsToDatabase f path) (hmemory : ¬InMemory path) :
    (∃ e, connect f path = .error e) ∨
      ∃ place, connect f path = .ok (.file place, f) ∧
        databaseAt f place = .error .notADatabase := by
  have hpath : (path = memoryPath || path.isEmpty) = false := by
    simp only [InMemory, not_or, Bool.not_eq_true] at hmemory
    simp [hmemory.1, hmemory.2]
  have hname : path ≠ memoryPath := fun heq => hmemory (Or.inl heq)
  simp only [connect, hpath, Bool.false_eq_true, if_false]
  cases hl : f.locate path with
  | error fault => exact Or.inl ⟨_, rfl⟩
  | ok place =>
    have hno : ∀ db, databaseAt f place ≠ .ok db :=
      fun db hdb => hfile ⟨place, db, hname, hl, Or.inl hdb⟩
    simp only
    -- an empty file and an empty place would both be taken for a database
    cases hp : f.lookup place with
    | none => exact absurd ⟨place, {}, hname, hl, Or.inr ⟨hp, rfl⟩⟩ hfile
    | some entry =>
      cases entry with
      | directory => exact Or.inl ⟨_, rfl⟩
      | database db => exact absurd (by rw [databaseAt, hp]) (hno db)
      | file bytes =>
        refine Or.inr ⟨place, rfl, ?_⟩
        cases bytes with
        | nil => exact absurd (by rw [databaseAt, hp]) (hno {})
        | cons b rest => rw [databaseAt, hp]

/-- Any other path leads to the database in its file. -/
theorem opens_iff_of_not_inMemory (h : ¬InMemory path) {db : Database} :
    Opens f path db ↔ ∃ place, DatabaseFile f path place db := by
  constructor
  · rintro ⟨c, g, hconnect, hdb⟩
    by_cases hfile : LeadsToDatabase f path
    · obtain ⟨place, held, hheld⟩ := hfile
      obtain ⟨g', hconnect', hdb', -⟩ := hheld.connect
      cases hconnect.symm.trans hconnect'
      cases hdb.symm.trans hdb'
      exact ⟨place, hheld⟩
    · rcases connect_cases hfile h with ⟨e, hopen⟩ | ⟨place, hopen, hat⟩
      · cases hconnect.symm.trans hopen
      · cases hconnect.symm.trans hopen
        cases hdb.symm.trans hat
  · rintro ⟨place, hfile⟩
    exact opens_of_databaseFile hfile

end Connection

namespace Load

/-! ## Opening a database and making a table in it -/

/-- A database in memory is private to its connection, and the table is made there. -/
theorem exec_openTable_inMemory {path table : String} (hmemory : Connection.InMemory path)
    (hname : checkTable table = .ok ()) (s : RunState) :
    (connect path >>= (createTable · table)).exec s =
      (.ok (.memory (Database.addTable {} table)), s) := by
  have hconnect := exec_connect_ok (s := s) (Connection.connect_of_inMemory hmemory _)
  refine (Run.exec_bind_ok hconnect).trans ?_
  simp only [createTable, Run.exec_bind, Run.exec_files, Connection.database,
    Run.exec_orFail_ok, Database.create_of_checkTable {} hname, Connection.store,
    Run.exec_setFiles, Run.exec_pure]

/-- Opening fails without a change where there is neither a database in a file nor one in memory. -/
theorem exec_openTable_nowhere {path : String} {s : RunState}
    (hfile : ¬LeadsToDatabase s.files path) (hmemory : ¬Connection.InMemory path) (table : String) :
    ∃ e, (connect path >>= (createTable · table)).exec s = (.error e, s) := by
  rcases Connection.connect_cases hfile hmemory with ⟨e, hopen⟩ | ⟨place, hopen, hat⟩
  · exact ⟨_, Run.exec_bind_error (exec_connect_error hopen)⟩
  · have hcreate : (createTable (.file place) table).exec s =
        (.error (.database .notADatabase), s) := by
      simp only [createTable, Run.exec_bind, Run.exec_files, Connection.database, hat,
        Run.exec_orFail_error]
    have hconnect : (connect path).exec s = (.ok (.file place), s) := exec_connect_ok hopen
    exact ⟨_, (Run.exec_bind_ok hconnect).trans hcreate⟩

/-- All that opening a database and making a table in it comes to, whatever the path leads to. -/
theorem exec_openTable (path : String) {table : String} (hname : checkTable table = .ok ())
    (s : RunState) :
    (∃ e, (connect path >>= (createTable · table)).exec s = (.error e, s)) ∨
      (Connection.InMemory path ∧ (connect path >>= (createTable · table)).exec s =
        (.ok (.memory (Database.addTable {} table)), s)) ∨
      ∃ place db, DatabaseFile s.files path place db ∧
        (connect path >>= (createTable · table)).exec s = (.ok (.file place),
          { s with files := s.files.put place (.database (db.addTable table)) }) := by
  by_cases hmemory : Connection.InMemory path
  · exact Or.inr (Or.inl ⟨hmemory, exec_openTable_inMemory hmemory hname s⟩)
  · by_cases hfile : LeadsToDatabase s.files path
    · obtain ⟨place, db, hdb⟩ := hfile
      exact Or.inr (Or.inr ⟨place, db, hdb, exec_openTable_file hdb hname⟩)
    · exact Or.inl (exec_openTable_nowhere hfile hmemory table)

/-- A table that is open is in memory, or in a file that holds a database then. Nothing is assumed
of its name. -/
theorem openTable_eq_ok {path table : String} {s s' : RunState} {c : Connection}
    (h : (connect path >>= (createTable · table)).exec s = (.ok c, s')) :
    s'.files = s.files ∨ ∃ place db made, DatabaseFile s.files path place db ∧
      s'.files = s.files.put place (.database made) := by
  by_cases hmemory : Connection.InMemory path
  · have hconnect := exec_connect_ok (s := s) (Connection.connect_of_inMemory hmemory _)
    rw [Run.exec_bind_ok hconnect] at h
    obtain ⟨made, hfiles⟩ := files_of_createTable h
    exact Or.inl hfiles
  · by_cases hfile : LeadsToDatabase s.files path
    · obtain ⟨place, db, hdb⟩ := hfile
      obtain ⟨f, hconnect, -, hput⟩ := exec_connect hdb
      rw [Run.exec_bind_ok hconnect] at h
      obtain ⟨made, hfiles⟩ := files_of_createTable h
      exact Or.inr ⟨place, db, made, hdb, hfiles.trans (hput _)⟩
    · obtain ⟨e, herror⟩ := exec_openTable_nowhere hfile hmemory table
      rw [herror] at h
      cases h

/-! ## Data files that become the database -/

/-- The data file of a dataset is an empty file that the database is going to be put into. It has
no lines when they are counted, and is no text when they are read. -/
def AtEmptyDatabase (config : Config) (f : Files) (d : Dataset) : Prop :=
  ∃ place, DatabaseFile f config.database place {} ∧ f.lookup place = some (.file []) ∧
    f.locate (config.inputPath d) = .ok place

/-- With the table open the data file reads as before, unless it was empty and became the database. -/
theorem inputLines_of_openTable {config : Config} {d : Dataset} {table : String} {s s' : RunState}
    {c : Connection} {lines : List (List UInt8)}
    (hlines : inputLines s.files (config.inputPath d) = .ok lines)
    (h : (connect config.database >>= (createTable · table)).exec s = (.ok c, s')) :
    inputLines s'.files (config.inputPath d) = .ok lines ∨
      AtEmptyDatabase config s.files d ∧ lines = [] ∧
        inputLines s'.files (config.inputPath d) = .ok [Files.databaseBytes] := by
  rcases openTable_eq_ok h with hsame | ⟨place, db, made, hfile, hput⟩
  · exact Or.inl (hsame ▸ hlines)
  · rw [hput]
    have hagree := Files.agreeOff_put s.files place (.database made)
    by_cases hplace : s.files.locate (config.inputPath d) = .ok place
    · have hread := inputLines_of_database (hagree.locate hfile.lookup_ne_directory hplace)
        (Files.lookup_put_self _ _ _)
      obtain ⟨bytes, hbytes, rfl⟩ := inputLines_eq_ok_iff.mp hlines
      obtain ⟨at_, hat, hentry⟩ := Files.read_eq_ok_iff.mp hbytes
      cases Except.ok.inj (hplace.symm.trans hat)
      -- a database file is empty, or it reads as a database before as well
      rcases hentry with hempty | ⟨-, rfl⟩
      · cases bytes with
        | nil =>
          have hdb : Connection.databaseAt s.files place = .ok {} := by
            rw [Connection.databaseAt, hempty]
          exact Or.inr ⟨⟨place, ⟨hfile.inFile, hfile.leads, Or.inl hdb⟩, hempty, hplace⟩, rfl,
            hread⟩
        | cons b rest =>
          rcases hfile.holds with hdb | ⟨hnone, -⟩
          · rw [Connection.databaseAt, hempty] at hdb
            cases hdb
          · rw [hempty] at hnone
            cases hnone
      · exact Or.inl (hread.trans (congrArg Except.ok (by decide +kernel)))
    · exact Or.inl (FileApart.inputLines hplace hagree hfile.lookup_ne_directory hlines)

/-! ## Loading a dataset -/

section

variable {config : Config} {d : Dataset} {s s' : RunState} {lines : List (List UInt8)}
  {out : Except LoadError LoadStats}

/-- A load into memory opens a database of its own, in which the table is made. The data file is
not touched by that. -/
theorem exec_loadDataset_inMemory (hmemory : Connection.InMemory config.database)
    (hname : checkTable d.table = .ok ())
    (hlines : inputLines s.files (config.inputPath d) = .ok lines) :
    (loadDataset config d).exec s =
      (do
        let (_, stats) ← importLines (.memory (Database.addTable {} d.table)) d
          (config.inputPath d) lines lines.length
        Run.report (.loaded stats)
        return stats : Run LoadError LoadStats).exec (announced config d s) := by
  have hopen := exec_openTable_inMemory hmemory hname (announced config d s)
  have hread : inputLines (announced config d s).files (config.inputPath d) = .ok lines := hlines
  rw [exec_loadDataset_opens hlines, ← bind_assoc, Run.exec_bind_ok hopen, Run.exec_bind,
    exec_importFile _ lines.length hread, ← Run.exec_bind]

theorem target_made (hname : checkTable d.table = .ok ()) :
    (Database.addTable {} d.table).target d.table =
      .ok (d.table, (Database.rows? {} d.table).getD ∅) :=
  Database.target_of_checkTable hname (Database.rows?_addTable_self {} d.table)

/-- A load into memory that goes well ends with its announcement, and no file has changed by then. -/
theorem exec_loadDataset_inMemory_ok (hmemory : Connection.InMemory config.database)
    (hname : checkTable d.table = .ok ()) {rows : List Row}
    (hlines : inputLines s.files (config.inputPath d) = .ok lines)
    (hrows : Row.ofLines lines = (rows, none)) :
    ∃ left : RunState, (loadDataset config d).exec s =
      (.ok ((importOf {} d rows).stats d), left.report (.loaded ((importOf {} d rows).stats d))) ∧
      left.files = s.files := by
  rw [exec_loadDataset_inMemory hmemory hname hlines,
    Run.exec_bind_ok (exec_importLines_ok (by rfl) (target_made hname) hrows)]
  exact ⟨_, rfl, rfl⟩

/-- A load into memory adds the rows to an empty table, and leaves the files alone. -/
theorem loadDataset_inMemory (hmemory : Connection.InMemory config.database)
    (hname : checkTable d.table = .ok ()) (h : (loadDataset config d).exec s = (out, s')) :
    s'.files = s.files ∧ ∀ stats, out = .ok stats → ∃ lines rows,
      inputLines s.files (config.inputPath d) = .ok lines ∧ Row.ofLines lines = (rows, none) ∧
      stats = (importOf {} d rows).stats d := by
  cases hlines : inputLines s.files (config.inputPath d) with
  | error e =>
    rw [exec_loadDataset_unreadable hlines] at h
    cases h
    refine ⟨rfl, ?_⟩
    rintro _ ⟨⟩
  | ok lines =>
    rcases hrows : Row.ofLines lines with ⟨rows, _ | fault⟩
    · obtain ⟨left, hrun, hfiles⟩ := exec_loadDataset_inMemory_ok hmemory hname hlines hrows
      rw [hrun] at h
      cases h
      refine ⟨hfiles, fun stats hstats => ?_⟩
      cases hstats
      exact ⟨lines, rows, rfl, hrows, rfl⟩
    · rw [exec_loadDataset_inMemory hmemory hname hlines,
        Run.exec_bind_error (exec_importLines_error (by rfl) (target_made hname) hrows)] at h
      cases h
      refine ⟨RunState.files_foldl_report _ _, ?_⟩
      rintro _ ⟨⟩

/-- A load fails without a change when there is neither a database in a file nor one in memory. -/
theorem loadDataset_nowhere (hfile : ¬LeadsToDatabase s.files config.database)
    (hmemory : ¬Connection.InMemory config.database)
    (h : (loadDataset config d).exec s = (out, s')) :
    s'.files = s.files ∧ ∀ stats, out ≠ .ok stats := by
  cases hlines : inputLines s.files (config.inputPath d) with
  | error e =>
    rw [exec_loadDataset_unreadable hlines] at h
    cases h
    refine ⟨rfl, ?_⟩
    rintro _ ⟨⟩
  | ok lines =>
    obtain ⟨e, hopen⟩ :=
      exec_openTable_nowhere (s := announced config d s) hfile hmemory d.table
    rw [exec_loadDataset_opens hlines, ← bind_assoc, Run.exec_bind_error hopen] at h
    cases h
    refine ⟨rfl, ?_⟩
    rintro _ ⟨⟩

/-- All that a load can do, whatever the path of the database leads to: it leaves the files as they
are, or it fails and a table is made in a file, or it succeeds and rows are added there. -/
theorem loadDataset_cases (hname : checkTable d.table = .ok ())
    (h : (loadDataset config d).exec s = (out, s')) :
    (s'.files = s.files ∧
        ((∃ e, out = .error e) ∨ Connection.InMemory config.database)) ∨
      ∃ place db, DatabaseFile s.files config.database place db ∧
        ((∃ e, out = .error e ∧ s'.files = s.files.put place (.database (db.addTable d.table))) ∨
          ∃ stats lines rows, out = .ok stats ∧
            inputLines s.files (config.inputPath d) = .ok lines ∧
            Row.ofLines lines = (rows, none) ∧
            s'.files = s.files.put place (.database (db.addRows d.table rows))) := by
  by_cases hmemory : Connection.InMemory config.database
  · exact Or.inl ⟨(loadDataset_inMemory hmemory hname h).1, Or.inr hmemory⟩
  · by_cases hfile : LeadsToDatabase s.files config.database
    · obtain ⟨place, db, hdb⟩ := hfile
      cases out with
      | ok stats =>
        obtain ⟨lines, rows, -, hlines, hrows, -, hput⟩ := loadDataset_eq_ok hdb hname h
        exact Or.inr ⟨place, db, hdb, Or.inr ⟨stats, lines, rows, rfl, hlines, hrows, hput⟩⟩
      | error e =>
        rcases loadDataset_eq_error hdb hname h with ⟨-, hkept⟩ | ⟨_, _, _, -, -, -, hput⟩
        · exact Or.inl ⟨hkept, Or.inl ⟨e, rfl⟩⟩
        · exact Or.inr ⟨place, db, hdb, Or.inl ⟨e, rfl, hput⟩⟩
    · obtain ⟨hkept, hout⟩ := loadDataset_nowhere hfile hmemory h
      cases out with
      | ok stats => exact absurd rfl (hout stats)
      | error e => exact Or.inl ⟨hkept, Or.inl ⟨e, rfl⟩⟩

end

end Load

end CardArchive
