import CardArchive.Proofs.AppendOnly
import CardArchive.Proofs.FailedLoad
import CardArchive.Proofs.LoadAnywhere

/-!
# Histories of a database

A database is used over a connection: tables are made and lines imported. Besides, loads open
connections of their own, which may lead to the same database. Any of this may fail. A history is a
list of such operations; between two of them everything but the database itself may change. Every
operation lets the database grow by the imports that succeeded in it, and so does a history.
-/

namespace CardArchive

/-! ## What a connection leads to -/

namespace Connection

/-- The database that a connection leads to; an empty one where there is none. -/
def contents (f : Files) (c : Connection) : Database :=
  match c.database f with
  | .ok db => db
  | .error _ => {}

/-- Whether opening a path leads to the same database. One in memory is reached by no path. -/
def reachedBy (f : Files) (path : String) : Connection → Bool
  | .file place => path ≠ memoryPath && (f.locate path).toOption = some place
  | .memory _ => false

variable {f : Files} {c : Connection} {path : String} {place : Location} {db : Database}

theorem contents_of_database (h : c.database f = .ok db) : c.contents f = db := by
  rw [contents, h]

theorem contents_put (f : Files) (place : Location) (db : Database) :
    contents (f.put place (.database db)) (.file place) = db :=
  contents_of_database (database_put f place db)

theorem contents_put_of_ne (f : Files) {other : Location} (e : Entry) (h : other ≠ place) :
    contents (f.put place e) (.file other) = contents f (.file other) := by
  simp only [contents, database, databaseAt, Files.lookup_put_of_ne f e h]

theorem contents_of_databaseFile (h : DatabaseFile f path place db) :
    contents f (.file place) = db := by
  rcases h.holds with hdb | ⟨hnone, rfl⟩
  · exact contents_of_database hdb
  · rw [contents, database, databaseAt, hnone]

theorem reachedBy_of_databaseFile (h : DatabaseFile f path place db) (other : Location) :
    reachedBy f path (.file other) = decide (place = other) := by
  have hpath : path ≠ memoryPath := h.inFile
  simp [reachedBy, hpath, h.leads, Except.toOption]

theorem reachedBy_of_inMemory (h : InMemory path) (f : Files) (c : Connection) :
    c.reachedBy f path = false := by
  cases c with
  | memory db => rfl
  | file place =>
    rcases h with rfl | hempty
    · simp [reachedBy]
    · have hlocate : f.locate path = .error .notFound := by rw [Files.locate, if_pos hempty]
      simp [reachedBy, hlocate, Except.toOption]

end Connection

/-! ## Operations -/

namespace Load

/-- The import of one dataset, if it goes to the database of the connection. -/
def ownCommit (c : Connection) (config : Config) (f : Files) (d : Dataset) : List Commit :=
  if c.reachedBy f config.database then
    (inputLines f (config.inputPath d)).toOption.toList.map fun lines => ⟨d.table, lines⟩
  else []

/-- The files when a dataset was loaded; none when it fails. -/
def loaded? (config : Config) (f : Files) (d : Dataset) : Option Files :=
  let ended := (loadDataset config d).start f
  ended.1.toOption.map fun _ => ended.2.files

/-- The imports that succeed when datasets are loaded one after the other, as far as they go to the
database of the connection. -/
def commits (c : Connection) (config : Config) : Files → List Dataset → List Commit
  | _, [] => []
  | f, d :: rest =>
    (loaded? config f d).elim [] fun g => ownCommit c config f d ++ commits c config g rest

end Load

/-- What is done to a database. -/
inductive Operation where
  | createTable (table : String)
  | importLines (d : Dataset) (source : String) (lines : List (List UInt8)) (total : Nat)
  | loadDataset (config : Config) (d : Dataset)
  | loadDatasets (config : Config)

namespace Operation

/-- Carries out an operation. The result is the connection; a database in memory is part of it. -/
def run (c : Connection) : Operation → Run LoadError Connection
  | createTable table => Load.createTable c table
  | importLines d source lines total => do
    let (c, _) ← Load.importLines c d source lines total
    return c
  | loadDataset config d => do
    let _ ← Load.loadDataset config d
    return c
  | loadDatasets config => do
    let _ ← Load.loadDatasets config
    return c

/-- The names of tables that an operation uses. -/
def tables : Operation → List String
  | createTable table => [table]
  | importLines d _ _ _ => [d.table]
  | loadDataset _ d => [d.table]
  | loadDatasets config => config.datasets.map Dataset.table

/-- The imports into the database of the connection that succeed in the course of an operation. -/
def commits (c : Connection) (f : Files) : Operation → List Commit
  | createTable _ => []
  | importLines d source lines total =>
    match ((Load.importLines c d source lines total).start f).1 with
    | .error _ => []
    | .ok _ => [⟨d.table, lines⟩]
  | loadDataset config d => Load.commits c config f [d]
  | loadDatasets config => Load.commits c config f config.datasets

end Operation

/-! ## Histories -/

/-- A database in use. -/
structure Store where
  connection : Connection
  files : Files

/-- An operation, and the files as it finds them, but for the database itself. -/
structure Step where
  operation : Operation
  files : Files

namespace Store

/-- The database. -/
def database (s : Store) : Database := s.connection.contents s.files

/-- The files that a step finds: its own, with the database of the store in its place. -/
def found (s : Store) (step : Step) : Files :=
  match s.connection with
  | .file place => step.files.takeAt place s.files
  | .memory _ => step.files

/-- The store that is left by an operation over a connection; the connection is kept when the
operation fails. -/
def left (c : Connection) : Except LoadError Connection × RunState → Store
  | (.ok c', s) => ⟨c', s.files⟩
  | (.error _, s) => ⟨c, s.files⟩

/-- The store after a step. -/
def after (s : Store) (step : Step) : Store :=
  left s.connection ((step.operation.run s.connection).start (s.found step))

/-- The store after some steps. -/
def run (s : Store) (steps : List Step) : Store := steps.foldl after s

/-- The imports that succeed in the course of some steps. -/
def log (s : Store) : List Step → List Commit
  | [] => []
  | step :: rest =>
    step.operation.commits s.connection (s.found step) ++ (s.after step).log rest

end Store

/-! ## Loads let the database grow -/

namespace Load

section

variable {config : Config} {d : Dataset} {s s' : RunState}

/-- A dataset lets the database of any connection grow by its import, if that succeeds and goes
there. -/
theorem growsBy_loadDataset {out : Except LoadError LoadStats} (c : Connection)
    (hname : checkTable d.table = .ok ()) (h : (loadDataset config d).exec s = (out, s')) :
    (c.contents s.files).GrowsBy
      (match out with | .ok _ => ownCommit c config s.files d | .error _ => [])
      (c.contents s'.files) := by
  have hnone : c.reachedBy s.files config.database = false → ownCommit c config s.files d = [] := by
    intro hreach
    rw [ownCommit, hreach]
    rfl
  rcases loadDataset_cases hname h with ⟨hkept, hout⟩ | ⟨place, db, hdb, hput⟩
  · rw [hkept]
    rcases hout with ⟨e, rfl⟩ | hmemory
    · exact .refl _
    · rw [hnone (Connection.reachedBy_of_inMemory hmemory _ _)]
      cases out <;> exact .refl _
  · -- the load went into a file, which is that of the connection or another one
    cases c with
    | memory held =>
      rw [hnone rfl]
      cases out <;> exact .refl _
    | file other =>
      by_cases hother : place = other
      · subst hother
        have hreach : Connection.reachedBy s.files config.database (.file place) = true := by
          simp [Connection.reachedBy_of_databaseFile hdb]
        rw [Connection.contents_of_databaseFile hdb]
        rcases hput with ⟨e, rfl, hfiles⟩ | ⟨stats, lines, rows, rfl, hlines, hrows, hfiles⟩
        · rw [hfiles, Connection.contents_put]
          exact Database.growsBy_addTable db d.table
        · have hown : ownCommit (.file place) config s.files d = [⟨d.table, lines⟩] := by
            rw [ownCommit, if_pos hreach, hlines]
            rfl
          rw [hfiles, Connection.contents_put]
          simp only [hown]
          exact Database.growsBy_addRows db d.table hrows
      · have hne : other ≠ place := fun heq => hother heq.symm
        have hsame : Connection.contents s'.files (.file other) =
            Connection.contents s.files (.file other) := by
          rcases hput with ⟨e, -, hfiles⟩ | ⟨_, _, _, -, -, -, hfiles⟩
          · rw [hfiles, Connection.contents_put_of_ne _ _ hne]
          · rw [hfiles, Connection.contents_put_of_ne _ _ hne]
        rw [hsame, hnone (by simp [Connection.reachedBy_of_databaseFile hdb, hother])]
        cases out <;> exact .refl _

theorem loaded?_of_ok {stats : LoadStats} (h : (loadDataset config d).exec s = (.ok stats, s')) :
    loaded? config s.files d = some s'.files := by
  obtain ⟨t, hrun, hfiles⟩ := (blind_loadDataset config d).start_of_exec h
  simp only [loaded?, hrun, Except.toOption, Option.map_some, hfiles]

theorem loaded?_of_error {e : LoadError} (h : (loadDataset config d).exec s = (.error e, s')) :
    loaded? config s.files d = none := by
  obtain ⟨t, hrun, -⟩ := (blind_loadDataset config d).start_of_exec h
  simp only [loaded?, hrun, Except.toOption, Option.map_none]

/-- Datasets that are loaded one after the other let the database grow, whether or not all of them
succeed. -/
theorem growsBy_loadEach {datasets : List Dataset} {out : Except LoadError (List LoadStats)}
    (c : Connection) (hnames : ∀ d ∈ datasets, checkTable d.table = .ok ())
    (h : (loadEach config datasets).exec s = (out, s')) :
    (c.contents s.files).GrowsBy (commits c config s.files datasets) (c.contents s'.files) := by
  induction datasets generalizing s out with
  | nil =>
    obtain ⟨-, rfl⟩ := Prod.mk.inj h
    exact .refl _
  | cons d rest ih =>
    have hname := hnames d List.mem_cons_self
    have hrest : ∀ a ∈ rest, checkTable a.table = .ok () :=
      fun a ha => hnames a (List.mem_cons_of_mem _ ha)
    rcases hd : (loadDataset config d).exec s with ⟨e | stats, s₁⟩
    · rw [loadEach, Run.exec_bind_error hd] at h
      obtain ⟨-, rfl⟩ := Prod.mk.inj h
      rw [commits, loaded?_of_error hd, Option.elim_none]
      exact growsBy_loadDataset c hname hd
    · rw [commits, loaded?_of_ok hd, Option.elim_some]
      refine (growsBy_loadDataset c hname hd).trans ?_
      rw [loadEach, Run.exec_bind_ok hd] at h
      -- whether the others succeed makes no difference to what they leave
      rcases hmore : (loadEach config rest).exec s₁ with ⟨e | more, s₂⟩
      · rw [Run.exec_bind_error hmore] at h
        obtain ⟨-, rfl⟩ := Prod.mk.inj h
        exact ih hrest hmore
      · rw [Run.exec_bind_ok hmore] at h
        obtain ⟨-, rfl⟩ := Prod.mk.inj h
        exact ih hrest hmore

/-- One dataset is loaded as a list of one is. -/
theorem growsBy_loadDataset_start (c : Connection) (hname : checkTable d.table = .ok ())
    (f : Files) :
    (c.contents f).GrowsBy (commits c config f [d])
      (c.contents ((loadDataset config d).start f).2.files) := by
  have hnames : ∀ a ∈ [d], checkTable a.table = .ok () := List.forall_mem_singleton.mpr hname
  rw [Run.start_eq_exec]
  rcases hd : (loadDataset config d).exec ⟨f, []⟩ with ⟨e | stats, s'⟩
  · have heach : (loadEach config [d]).exec ⟨f, []⟩ = (.error e, s') := by
      rw [loadEach, Run.exec_bind_error hd]
    exact growsBy_loadEach c hnames heach
  · have heach : (loadEach config [d]).exec ⟨f, []⟩ = (.ok [stats], s') :=
      exec_loadEach_cons_ok hd rfl
    exact growsBy_loadEach c hnames heach

/-- The reports at the beginning and at the end of a run have no part in what it does. -/
theorem growsBy_loadDatasets (c : Connection)
    (hnames : ∀ d ∈ config.datasets, checkTable d.table = .ok ()) (f : Files) :
    (c.contents f).GrowsBy (commits c config f config.datasets)
      (c.contents ((loadDatasets config).start f).2.files) := by
  obtain ⟨first, rfl, hstart⟩ := start_loadDatasets config f
  rcases hrun : (loadEach config config.datasets).exec first with ⟨out, s'⟩
  have hfiles : ((loadDatasets config).start first.files).2.files = s'.files := by
    rw [hstart _ _ hrun]
    cases out <;> rfl
  rw [hfiles]
  exact growsBy_loadEach c hnames hrun

end

/-! ## Operations over the connection let the database grow -/

section

variable {c : Connection} {s s' : RunState} {f : Files}

/-- Making a table over a connection makes it, or does nothing. -/
theorem createTable_cases {table : String} (hname : checkTable table = .ok ())
    (s : RunState) :
    (∃ e, (createTable c table).exec s = (.error e, s)) ∨
      ∃ db, c.database s.files = .ok db ∧
        (createTable c table).exec s = (.ok (c.store s.files (db.addTable table)).1,
          { s with files := (c.store s.files (db.addTable table)).2 }) := by
  cases hdb : c.database s.files with
  | error e =>
    refine Or.inl ⟨.database e, ?_⟩
    simp only [createTable, Run.exec_bind, Run.exec_files, hdb, Run.exec_orFail_error]
  | ok db =>
    refine Or.inr ⟨db, rfl, ?_⟩
    simp only [createTable, Run.exec_bind, Run.exec_files, hdb, Run.exec_orFail_ok,
      Database.create_of_checkTable db hname, Run.exec_setFiles, Run.exec_pure]

/-- An import over a connection fails without a change, or adds the rows of all its lines. -/
theorem importLines_cases {d : Dataset} {source : String} {lines : List (List UInt8)} {total : Nat}
    (hname : checkTable d.table = .ok ())
    {out : Except LoadError (Connection × LoadStats)}
    (h : (importLines c d source lines total).exec s = (out, s')) :
    (∃ e, out = .error e ∧ s'.files = s.files) ∨
      ∃ db old rows stats, c.database s.files = .ok db ∧ db.rows? d.table = some old ∧
        Row.ofLines lines = (rows, none) ∧
        out = .ok ((c.store s.files (db.setRows d.table (Rows.addAll old rows))).1, stats) ∧
        s'.files = (c.store s.files (db.setRows d.table (Rows.addAll old rows))).2 := by
  cases hdb : c.database s.files with
  | error e =>
    simp only [importLines, Run.exec_bind, Run.exec_files, hdb, Run.exec_orFail_error] at h
    cases h
    exact Or.inl ⟨_, rfl, rfl⟩
  | ok db =>
    cases hold : db.rows? d.table with
    | none =>
      -- the statement is about a table that is not there
      have htarget : db.target d.table = .error (.noSuchTable d.table) := by
        have hi := (isIdentifier_of_checkTable hname).1
        rw [Database.target, Statement.tableName_of_isIdentifier hi]
        simp only [bind, Except.bind, hold]
      simp only [importLines, Run.exec_bind, Run.exec_files, hdb, Run.exec_orFail_ok, htarget,
        Run.exec_orFail_error] at h
      cases h
      exact Or.inl ⟨_, rfl, rfl⟩
    | some old =>
      have htarget := Database.target_of_checkTable hname hold
      rcases hrows : Row.ofLines lines with ⟨rows, _ | fault⟩
      · have hadded : (rows.foldl Import.add { rows := old }).rows = Rows.addAll old rows :=
          Import.foldl_add_rows _ rows
        rw [exec_importLines_ok hdb htarget hrows] at h
        cases h
        exact Or.inr ⟨db, old, rows, _, rfl, hold, rfl, by rw [← hadded], by rw [← hadded]; rfl⟩
      · rw [exec_importLines_error hdb htarget hrows] at h
        cases h
        exact Or.inl ⟨_, rfl, RunState.files_foldl_report _ _⟩

end

end Load

namespace Store

section

variable (c : Connection) (f : Files)

theorem growsBy_left_createTable {table : String} (hname : checkTable table = .ok ()) :
    (c.contents f).GrowsBy [] (left c ((Load.createTable c table).start f)).database := by
  rw [Run.start_eq_exec]
  rcases Load.createTable_cases (c := c) hname ⟨f, []⟩ with ⟨e, hrun⟩ | ⟨db, hdb, hrun⟩
  · rw [hrun]
    exact .refl _
  · rw [hrun, Connection.contents_of_database hdb, left, database,
      Connection.contents_of_database (Connection.database_store hdb _)]
    exact Database.growsBy_addTable db table

theorem growsBy_left_importLines {d : Dataset} (source : String) (lines : List (List UInt8))
    (total : Nat) (hname : checkTable d.table = .ok ()) :
    (c.contents f).GrowsBy (Operation.commits c f (.importLines d source lines total))
      (left c ((Operation.run c (.importLines d source lines total)).start f)).database := by
  rw [Run.start_eq_exec]
  rcases hrun : (Load.importLines c d source lines total).exec ⟨f, []⟩ with ⟨out, s'⟩
  rw [Operation.run, Operation.commits, Run.start_eq_exec, hrun]
  rcases Load.importLines_cases hname hrun with
    ⟨e, rfl, hfiles⟩ | ⟨db, old, rows, stats, hdb, hold, hrows, rfl, hfiles⟩
  · rw [Run.exec_bind_error hrun, left, database, hfiles]
    exact .refl _
  · rw [Run.exec_bind_ok hrun, Connection.contents_of_database hdb]
    simp only [Run.exec_pure, left, database, hfiles]
    rw [Connection.contents_of_database (Connection.database_store hdb _)]
    exact Database.growsBy_setRows hold (Row.exists_line_of_ofLines hrows)

/-- A load keeps the connection, whatever comes of it. -/
theorem left_load {α : Type} (load : Run LoadError α) :
    left c ((do let _ ← load; return c : Run LoadError Connection).start f) =
      ⟨c, (load.start f).2.files⟩ := by
  rw [Run.start_eq_exec, Run.start_eq_exec]
  rcases hrun : load.exec ⟨f, []⟩ with ⟨e | a, s⟩
  · rw [Run.exec_bind_error hrun]
    rfl
  · rw [Run.exec_bind_ok hrun]
    rfl

/-- Every operation lets the database grow by the imports that succeed in it. -/
theorem growsBy_left (op : Operation) (hnames : ∀ table ∈ op.tables, checkTable table = .ok ()) :
    (c.contents f).GrowsBy (op.commits c f) (left c ((op.run c).start f)).database := by
  cases op with
  | createTable table =>
    exact growsBy_left_createTable c f (hnames table (List.mem_singleton_self _))
  | importLines d source lines total =>
    have hname := hnames d.table (List.mem_singleton_self _)
    exact growsBy_left_importLines c f source lines total hname
  | loadDataset config d =>
    rw [Operation.run, left_load]
    exact Load.growsBy_loadDataset_start c (hnames d.table (List.mem_singleton_self _)) f
  | loadDatasets config =>
    rw [Operation.run, left_load]
    exact Load.growsBy_loadDatasets c (fun d hd => hnames d.table (List.mem_map_of_mem hd)) f

end

theorem contents_found (s : Store) (step : Step) :
    s.connection.contents (s.found step) = s.database := by
  obtain ⟨c, f⟩ := s
  cases c with
  | memory db => rfl
  | file place =>
    simp only [found, database, Connection.contents, Connection.database, Connection.databaseAt,
      Files.lookup_takeAt_self]

theorem growsBy_after (s : Store) {step : Step}
    (hnames : ∀ table ∈ step.operation.tables, checkTable table = .ok ()) :
    s.database.GrowsBy (step.operation.commits s.connection (s.found step))
      (s.after step).database := by
  rw [← contents_found s step]
  exact growsBy_left s.connection (s.found step) step.operation hnames

theorem growsBy_run (s : Store) {steps : List Step}
    (hnames : ∀ step ∈ steps, ∀ table ∈ step.operation.tables, checkTable table = .ok ()) :
    s.database.GrowsBy (s.log steps) (s.run steps).database := by
  induction steps generalizing s with
  | nil => exact .refl _
  | cons step rest ih =>
    have hstep := growsBy_after s (hnames step List.mem_cons_self)
    have hrest := ih (s.after step) fun next hnext => hnames next (List.mem_cons_of_mem _ hnext)
    exact hstep.trans hrest

/-- Whatever is done to a database that was empty at first: its tables have different names, no
table has two rows with one identifier, every row comes from a line of an import into its table that
succeeded, and no operation takes a row away or changes it. -/
theorem run_append_only {s : Store} {steps : List Step} (hempty : s.database.tables = [])
    (hnames : ∀ step ∈ steps, ∀ table ∈ step.operation.tables, checkTable table = .ok ()) :
    ((s.run steps).database.tables.Pairwise fun a b => Text.sameName a.name b.name = false) ∧
    (∀ t ∈ (s.run steps).database.tables, (t.list.map Row.id).Nodup ∧
      ∀ row ∈ t.list, ∃ commit ∈ s.log steps, Text.sameName commit.table t.name = true ∧
        ∃ line ∈ commit.lines, Row.ofBytes line = .ok row) ∧
    ∀ earlier step later, steps = earlier ++ step :: later →
      ∀ t ∈ (s.run earlier).database.tables,
        ∃ t' ∈ (s.run (earlier ++ [step])).database.tables,
          t'.name = t.name ∧ ∀ row ∈ t.list, row ∈ t'.list := by
  have hstart : s.database = {} := congrArg Database.mk hempty
  have hsound : ∀ steps, (∀ step ∈ steps, ∀ table ∈ step.operation.tables,
      checkTable table = .ok ()) → (s.run steps).database.Sound (s.log steps) := by
    intro steps hnames
    exact (growsBy_run s hnames [] (hstart ▸ Database.sound_empty)).2
  obtain ⟨hapart, hid, hcommitted⟩ := hsound steps hnames
  refine ⟨hapart, fun t ht => ⟨Table.nodup_ids (hid t ht), hcommitted t ht⟩, ?_⟩
  rintro earlier step later rfl
  have hearlier := hsound earlier fun a ha => hnames a (List.mem_append_left _ ha)
  have hstep := growsBy_after (s.run earlier) (hnames step (by simp))
  have hrun : s.run (earlier ++ [step]) = (s.run earlier).after step := by
    rw [run, List.foldl_append]
    rfl
  rw [hrun]
  exact (hstep _ hearlier).1

/-! ## An example -/

/-- A load whose second dataset fails, then the table of the first dataset in another spelling, and
an import of one more card with the identifier of the card that is there. -/
def mixedSteps : List Step :=
  let files := Load.filesWith Load.brokenBytes
  [ ⟨.loadDatasets Load.twoDatasets, files⟩
  , ⟨.createTable "a", files⟩
  , ⟨.importLines ⟨"A", "cards.jsonl", "a"⟩ "cards.jsonl" [Text.encode (Load.bareCard "B")] 1,
      files⟩ ]

theorem checkTable_mixedSteps :
    ∀ step ∈ mixedSteps, ∀ table ∈ step.operation.tables, checkTable table = .ok () := by
  have hpass : ∀ step ∈ mixedSteps, ∀ table ∈ step.operation.tables,
      (checkTable table).toOption = some () := by
    decide +kernel
  intro step hstep table htable
  have htable := hpass step hstep table htable
  cases hcheck : checkTable table with
  | error e => rw [hcheck] at htable; cases htable
  | ok _ => rfl

/-- The card that came first is kept under its identifier, and the load that it comes from is one
that failed later. -/
theorem run_append_only_mixed :
    let s : Store := ⟨.file ["cards.db"], Load.filesWith Load.brokenBytes⟩
    s.database.tables = [] ∧
    (∀ step ∈ mixedSteps, ∀ table ∈ step.operation.tables, checkTable table = .ok ()) ∧
    ((s.run mixedSteps).database.tables.map fun t => (t.name, t.list)) =
      [("A", [Load.bareRow "A"]), ("B", [])] ∧
    ∃ commit ∈ s.log mixedSteps, Text.sameName commit.table "A" = true ∧
      ∃ line ∈ commit.lines, Row.ofBytes line = .ok (Load.bareRow "A") := by
  intro s
  have hempty : s.database.tables = [] := rfl
  have htables : ((s.run mixedSteps).database.tables.map fun t => (t.name, t.list)) =
      [("A", [Load.bareRow "A"]), ("B", [])] := by
    decide +kernel
  obtain ⟨-, hrows, -⟩ := run_append_only hempty checkTable_mixedSteps
  have hmem : ("A", [Load.bareRow "A"]) ∈
      (s.run mixedSteps).database.tables.map fun t => (t.name, t.list) :=
    htables ▸ List.mem_cons_self
  obtain ⟨t, ht, heq⟩ := List.mem_map.mp hmem
  obtain ⟨hname, hlist⟩ := Prod.mk.inj heq
  obtain ⟨-, hcommitted⟩ := hrows t ht
  have hrow := hcommitted (Load.bareRow "A") (hlist ▸ List.mem_singleton_self _)
  rw [hname] at hrow
  exact ⟨hempty, checkTable_mixedSteps, htables, hrow⟩

end Store

end CardArchive
