import CardArchive.Proofs.LoadOrder
import Mathlib.Data.List.Pairwise

/-!
# What is announced has been committed

A run says of a dataset that it was loaded after its import has committed, and never before. The
statement is about every moment at which something is reported: the imports of the datasets that
were announced up to then are over, and if the path of the database is that of a file, their rows
are in the database to which the path leads at that moment. A database in memory is another matter:
it is gone before its dataset is announced, so there the announcement says only that the import
went well.

This is carried through a run by one invariant of the state. Every report and every change of the
database preserves it, and a dataset is added to it when its import commits.
-/

namespace CardArchive

theorem Config.Valid.apart_of_ne {config : Config} (hvalid : config.Valid) {a b : Dataset}
    (ha : a ∈ config.datasets) (hb : b ∈ config.datasets) (hne : a ≠ b) : a.Apart b := by
  have hsymm : Std.Symm Dataset.Apart := ⟨fun _ _ h => h.symm⟩
  exact hvalid.pairwise.forall ha hb hne

/-! ## Announcements -/

/-- The counts that were announced, in the order in which they were; the moments come last first. -/
def Load.announcements (moments : List Moment) : List LoadStats :=
  moments.reverse.filterMap fun m => m.report.loaded?

/-- An import that has committed. -/
structure Imported where
  dataset : Dataset
  stats : LoadStats
  /-- The state that it left. -/
  left : RunState

/-- The data file of the dataset, as it was when the run began, has only rows, and the database to
which the path of the configuration leads has their identifiers in the table of the dataset. -/
def Imported.HeldIn (i : Imported) (config : Config) (start now : Files) : Prop :=
  ∃ rows db, Load.HasRows config start i.dataset rows ∧
    Connection.Opens now config.database db ∧ db.Holds i.dataset.table rows

/-- What an open connection leads to, when it was opened by a path. -/
inductive Connection.Serves (f : Files) (path : String) : Connection → Database → Prop where
  | file {place : Location} {db : Database} (leads : DatabaseFile f path place db) :
    Serves f path (.file place) db
  | memory {db : Database} (inMemory : InMemory path) : Serves f path (.memory db) db

namespace Load

theorem announcements_cons (m : Moment) (moments : List Moment) :
    announcements (m :: moments) = announcements moments ++ m.report.loaded?.toList := by
  rw [announcements, announcements, List.reverse_cons, List.filterMap_append]
  cases h : m.report.loaded? <;> simp [h]

/-! ## Imports that commit -/

/-- Loading a dataset up to the end of its import. -/
def importDataset (config : Config) (d : Dataset) : Run LoadError (Connection × LoadStats) := do
  let path := config.inputPath d
  let lines ← Run.orFail id (inputLines (← Run.files) path)
  Run.report (.info (path ++ " -> " ++ config.database))
  Run.report (.log (d.tag ++ ": reading " ++ path))
  let c ← connect config.database
  let c ← createTable c d.table
  importFile config c d lines.length

/-- The imports that commit when datasets are loaded one after the other from some state, up to the
first load that fails. -/
def imports (config : Config) : RunState → List Dataset → List Imported
  | _, [] => []
  | s, d :: rest =>
    let own := match (importDataset config d).exec s with
      | (.ok (_, stats), left) => [⟨d, stats, left⟩]
      | (.error _, _) => []
    match (loadDataset config d).exec s with
    | (.ok _, s') => own ++ imports config s' rest
    | (.error _, _) => own

section

variable {config : Config} {d : Dataset} {rest : List Dataset} {s left : RunState} {c : Connection}
  {stats : LoadStats} {e : LoadError}

theorem loadDataset_eq_importDataset (config : Config) (d : Dataset) :
    loadDataset config d = (do
      let p ← importDataset config d
      Run.report (.loaded p.2)
      return p.2) := by
  simp only [loadDataset, importDataset, bind_assoc]

theorem exec_loadDataset_of_imported (h : (importDataset config d).exec s = (.ok (c, stats), left)) :
    (loadDataset config d).exec s = (.ok stats, left.report (.loaded stats)) := by
  rw [loadDataset_eq_importDataset, Run.exec_bind_ok h]
  rfl

theorem exec_loadDataset_of_not_imported
    (h : (importDataset config d).exec s = (.error e, left)) :
    (loadDataset config d).exec s = (.error e, left) := by
  rw [loadDataset_eq_importDataset, Run.exec_bind_error h]

theorem imports_cons (config : Config) (s : RunState) (d : Dataset) (rest : List Dataset) :
    imports config s (d :: rest) =
      let own := match (importDataset config d).exec s with
        | (.ok (_, stats), left) => [⟨d, stats, left⟩]
        | (.error _, _) => []
      match (loadDataset config d).exec s with
      | (.ok _, s') => own ++ imports config s' rest
      | (.error _, _) => own := rfl

theorem imports_cons_of_imported (h : (importDataset config d).exec s = (.ok (c, stats), left)) :
    imports config s (d :: rest) =
      ⟨d, stats, left⟩ :: imports config (left.report (.loaded stats)) rest := by
  rw [imports_cons, exec_loadDataset_of_imported h, h]
  rfl

theorem imports_cons_of_not_imported (h : (importDataset config d).exec s = (.error e, left)) :
    imports config s (d :: rest) = [] := by
  rw [imports_cons, exec_loadDataset_of_not_imported h, h]

end

end Load

/-! ## Files over a run -/

/-- The second files are the first, but that the database may have become another, in which all
rows are still held. -/
def Files.GrownAt (path : String) (f g : Files) : Prop :=
  g = f ∨ ∃ place db db', DatabaseFile f path place db ∧ g = f.put place (.database db') ∧
    ∀ name rows, db.Holds name rows → db'.Holds name rows

namespace Files.GrownAt

variable {path : String} {f g k : Files} {place : Location} {db db' : Database}

theorem refl (path : String) (f : Files) : GrownAt path f f := Or.inl rfl

theorem put (h : DatabaseFile f path place db)
    (hholds : ∀ name rows, db.Holds name rows → db'.Holds name rows) :
    GrownAt path f (f.put place (.database db')) :=
  Or.inr ⟨place, db, db', h, rfl, hholds⟩

theorem databaseFile (h : GrownAt path f g) (hfile : DatabaseFile f path place db) :
    ∃ db', DatabaseFile g path place db' ∧ ∀ name rows, db.Holds name rows → db'.Holds name rows := by
  rcases h with rfl | ⟨other, old, db', hother, rfl, hholds⟩
  · exact ⟨db, hfile, fun _ _ hheld => hheld⟩
  · cases Except.ok.inj (hfile.leads.symm.trans hother.leads)
    cases hfile.unique hother
    exact ⟨db', hfile.put db', hholds⟩

theorem trans (h : GrownAt path f g) (h' : GrownAt path g k) : GrownAt path f k := by
  rcases h' with rfl | ⟨place', old, db'', hg, rfl, hholds'⟩
  · exact h
  · rcases h with rfl | ⟨place, db, db', hf, rfl, hholds⟩
    · exact put hg hholds'
    · have hput := hf.put db'
      cases Except.ok.inj (hput.leads.symm.trans hg.leads)
      cases hput.unique hg
      rw [Files.put_put]
      exact put hf fun name rows hheld => hholds' name rows (hholds name rows hheld)

end Files.GrownAt

namespace Connection

variable {path : String} {f g : Files} {c : Connection} {db db' : Database}

theorem Serves.store (h : c.Serves f path db)
    (hholds : ∀ name rows, db.Holds name rows → db'.Holds name rows) :
    Files.GrownAt path f (c.store f db').2 ∧ (c.store f db').1.Serves (c.store f db').2 path db' := by
  cases h with
  | file hfile => exact ⟨.put hfile hholds, .file (hfile.put db')⟩
  | memory hmemory => exact ⟨.refl path f, .memory hmemory⟩

/-- What is in the file of a database is found there when the path is opened again. -/
theorem Serves.opens (h : c.Serves f path db) (hfile : InFile path) : Opens f path db := by
  cases h with
  | file leads => exact opens_of_databaseFile leads
  | memory inMemory => exact absurd inMemory hfile.notInMemory

theorem Opens.grow (h : Opens f path db) (hfile : InFile path) (hgrown : Files.GrownAt path f g) :
    ∃ db', Opens g path db' ∧ ∀ name rows, db.Holds name rows → db'.Holds name rows := by
  obtain ⟨place, hplace⟩ := (opens_iff_of_not_inMemory hfile.notInMemory).mp h
  obtain ⟨db', hplace', hholds⟩ := hgrown.databaseFile hplace
  exact ⟨db', opens_of_databaseFile hplace', hholds⟩

end Connection

namespace Load

section

variable {config : Config} {f g : Files} {d : Dataset} {rows : List Row}

/-- A data file that has rows later in a run has them at the start: it is not the file of the
database, which is no text. -/
theorem HasRows.of_grownAt (hgrown : Files.GrownAt config.database f g)
    (h : HasRows config g d rows) : HasRows config f d rows := by
  rcases hgrown with rfl | ⟨place, db, db', hfile, rfl, -⟩
  · exact h
  · have hapart : FileApart config (f.put place (.database db')) place d :=
      h.fileApart (Files.lookup_put_self _ _ _)
    exact h.of_agreeOff (Files.agreeOff_put f place _).symm (hfile.put db').lookup_ne_directory
      hapart

end

/-! ## The invariant of a run -/

/-- The import came before the moments given, and its rows are held if they went into a file. -/
structure Durable (config : Config) (f g : Files) (moments : List Moment) (i : Imported) : Prop where
  before : i.left.moments <:+ moments
  held : Connection.InFile config.database → i.HeldIn config f g

/-- At a moment that comes after some others, the first of the imports have been announced, and they
are durable. -/
def Covered (config : Config) (f : Files) (done : List Imported) (m : Moment)
    (earlier : List Moment) : Prop :=
  ∃ announced, announced <+: done ∧
    announcements (m :: earlier) = announced.map Imported.stats ∧
    ∀ i ∈ announced, Durable config f m.files earlier i

/-- The state of a run that started with some files, when some imports have committed and were
announced. -/
structure Accounted (config : Config) (f : Files) (done : List Imported) (s : RunState) :
    Prop where
  /-- Only the database has changed. -/
  grown : Files.GrownAt config.database f s.files
  /-- The imports were announced, and nothing else was. -/
  reported : announcements s.moments = done.map Imported.stats
  /-- Their rows are in the database. -/
  durable : ∀ i ∈ done, Durable config f s.files s.moments i
  /-- So they were at every moment. -/
  covered : ∀ m earlier, m :: earlier <:+ s.moments → Covered config f done m earlier

section

variable {config : Config} {f g g' : Files} {i : Imported} {moments more : List Moment}
  {done : List Imported} {s : RunState}

theorem Durable.grow (h : Durable config f g moments i)
    (hgrown : Files.GrownAt config.database g g') (hmore : moments <:+ more) :
    Durable config f g' more i where
  before := h.before.trans hmore
  held := by
    intro hfile
    obtain ⟨rows, db, hrows, hopens, hheld⟩ := h.held hfile
    obtain ⟨db', hopens', hholds⟩ := hopens.grow hfile hgrown
    exact ⟨rows, db', hrows, hopens', hholds _ _ hheld⟩

theorem Covered.append {m : Moment} (h : Covered config f done m moments) (later : List Imported) :
    Covered config f (done ++ later) m moments := by
  obtain ⟨announced, hprefix, hrest⟩ := h
  exact ⟨announced, hprefix.trans (List.prefix_append done later), hrest⟩

namespace Accounted

theorem start (config : Config) (f : Files) : Accounted config f [] ⟨f, []⟩ where
  grown := .refl _ f
  reported := rfl
  durable := List.forall_mem_nil _
  covered := fun _ _ h => by cases List.suffix_nil.mp h

theorem setFiles (h : Accounted config f done s)
    (hgrown : Files.GrownAt config.database s.files g) :
    Accounted config f done { s with files := g } where
  grown := h.grown.trans hgrown
  reported := h.reported
  durable := fun i hi => (h.durable i hi).grow hgrown List.suffix_rfl
  covered := h.covered

/-- A report that announces nothing leaves all as it was. -/
theorem report (h : Accounted config f done s) {r : Report} (hr : r.loaded? = none) :
    Accounted config f done (s.report r) where
  grown := h.grown
  reported := by
    rw [RunState.report, announcements_cons, hr, h.reported]
    exact List.append_nil _
  durable := fun i hi => (h.durable i hi).grow (.refl _ _) (List.suffix_cons _ _)
  covered := by
    intro m earlier hm
    rcases List.suffix_cons_iff.mp hm with heq | hm
    · obtain ⟨rfl, rfl⟩ := List.cons.inj heq
      refine ⟨done, List.prefix_rfl, ?_, h.durable⟩
      rw [announcements_cons, hr, h.reported]
      exact List.append_nil _
    · exact h.covered m earlier hm

theorem foldl_report (h : Accounted config f done s) {rs : List Report}
    (hrs : ∀ r ∈ rs, r.loaded? = none) : Accounted config f done (rs.foldl RunState.report s) := by
  induction rs generalizing s with
  | nil => exact h
  | cons r rest ih =>
    obtain ⟨hr, hrest⟩ := List.forall_mem_cons.mp hrs
    exact ih (h.report hr) hrest

/-- An import that left its rows in the database may be announced. -/
theorem announce (h : Accounted config f done s) (hleft : i.left = s)
    (hheld : Connection.InFile config.database → i.HeldIn config f s.files) :
    Accounted config f (done ++ [i]) (s.report (.loaded i.stats)) := by
  have hannounced : announcements (s.report (.loaded i.stats)).moments =
      (done ++ [i]).map Imported.stats := by
    rw [RunState.report, announcements_cons, h.reported, List.map_append]
    rfl
  have hdurable : ∀ j ∈ done ++ [i], Durable config f s.files s.moments j := by
    intro j hj
    rcases List.mem_append.mp hj with hj | hj
    · exact h.durable j hj
    · cases List.mem_singleton.mp hj
      exact ⟨hleft ▸ List.suffix_rfl, hheld⟩
  refine ⟨h.grown, hannounced, fun j hj => ?_, fun m earlier hm => ?_⟩
  · exact (hdurable j hj).grow (.refl _ _) (List.suffix_cons _ _)
  · rcases List.suffix_cons_iff.mp hm with heq | hm
    · obtain ⟨rfl, rfl⟩ := List.cons.inj heq
      exact ⟨_, List.prefix_rfl, hannounced, hdurable⟩
    · exact (h.covered m earlier hm).append [i]

end Accounted

end

/-! ## One dataset -/

section

variable {config : Config} {f : Files} {d : Dataset} {done : List Imported} {s left : RunState}
  {c : Connection} {db : Database} {lines : List (List UInt8)}
  {out : Except LoadError (Connection × LoadStats)}

/-- Opening a database and making a table in it fails without a change, or gives a connection to a
database that has the table. -/
theorem exec_openTable_serves (path : String) {table : String} (hname : checkTable table = .ok ())
    (s : RunState) :
    (∃ e, (connect path >>= (createTable · table)).exec s = (.error e, s)) ∨
      ∃ c db g, (connect path >>= (createTable · table)).exec s = (.ok c, { s with files := g }) ∧
        Files.GrownAt path s.files g ∧ c.Serves g path (Database.addTable db table) ∧
        c.database g = .ok (Database.addTable db table) := by
  rcases exec_openTable path hname s with herror | ⟨hmemory, hopen⟩ |
    ⟨place, db, hfile, hopen⟩
  · exact Or.inl herror
  · exact Or.inr ⟨_, {}, s.files, hopen, .refl path _, .memory hmemory, rfl⟩
  · refine Or.inr ⟨_, db, _, hopen, ?_, .file (hfile.put _), Connection.database_put _ _ _⟩
    exact .put hfile fun _ _ hheld => hheld.addTable table

theorem loaded?_of_mem_progressReports {total : Nat} {i : Import} :
    ∀ r ∈ progressReports d total i, r.loaded? = none := by
  intro r hr
  obtain ⟨n, -, rfl⟩ := List.mem_map.mp hr
  rfl

/-- An import announces nothing. If it commits, the rows of the lines are held wherever the path of
the database leads to a file. -/
theorem Accounted.importLines {source : String} {total : Nat} (h : Accounted config f done s)
    (hname : checkTable d.table = .ok ())
    (hserves : c.Serves s.files config.database (db.addTable d.table))
    (hdb : c.database s.files = .ok (db.addTable d.table))
    (hrun : (importLines c d source lines total).exec s = (out, left)) :
    Accounted config f done left ∧ ∀ c' stats, out = .ok (c', stats) →
      stats.tag = d.tag ∧ stats.table = d.table ∧ ∃ rows, Row.ofLines lines = (rows, none) ∧
        (Connection.InFile config.database → ∃ held,
          Connection.Opens left.files config.database held ∧ held.Holds d.table rows) := by
  have htarget := Database.target_of_checkTable hname (Database.rows?_addTable_self db d.table)
  rcases hrows : Row.ofLines lines with ⟨rows, _ | fault⟩
  · rw [exec_importLines_ok hdb htarget hrows] at hrun
    obtain ⟨rfl, rfl⟩ := Prod.mk.inj hrun
    have hadd : (db.addTable d.table).setRows d.table
        (rows.foldl Import.add { rows := (db.rows? d.table).getD ∅ }).rows =
          db.addRows d.table rows := by
      rw [Import.foldl_add_rows, Database.addRows]
    -- the rows go into the table that was made, so whatever was held there is held still
    have hkeeps : ∀ name held, (db.addTable d.table).Holds name held →
        (db.addRows d.table rows).Holds name held := fun name held hheld =>
      Database.addRows_addTable db d.table rows ▸ hheld.addRows d.table rows
    obtain ⟨hgrown, hserves'⟩ := hserves.store hkeeps
    simp only [hadd]
    refine ⟨?_, ?_⟩
    · refine ((h.foldl_report loaded?_of_mem_progressReports).setFiles ?_).report rfl
      rw [RunState.files_foldl_report]
      exact hgrown
    · rintro c' stats hout
      cases hout
      exact ⟨rfl, rfl, rows, rfl, fun hfile => ⟨_, hserves'.opens hfile, .of_addRows db d.table rows⟩⟩
  · rw [exec_importLines_error hdb htarget hrows] at hrun
    obtain ⟨rfl, rfl⟩ := Prod.mk.inj hrun
    refine ⟨h.foldl_report loaded?_of_mem_progressReports, ?_⟩
    rintro c' stats ⟨⟩

theorem exec_importDataset_unreadable {e : LoadError}
    (h : inputLines s.files (config.inputPath d) = .error e) :
    (importDataset config d).exec s = (.error e, s) := by
  simp only [importDataset, Run.exec_bind, Run.exec_files, h, Run.exec_orFail_error, id]

theorem exec_importDataset_readable
    (hlines : inputLines s.files (config.inputPath d) = .ok lines) :
    (importDataset config d).exec s =
      ((connect config.database >>= (createTable · d.table)) >>= fun c =>
        importFile config c d lines.length).exec (announced config d s) := by
  rw [importDataset, Run.exec_bind_ok (Run.exec_files s), hlines,
    Run.exec_bind_ok (Run.exec_orFail_ok id lines s), Run.exec_bind_ok (Run.exec_report _ s),
    Run.exec_bind_ok (Run.exec_report _ _), bind_assoc]
  rfl

/-- Loading a dataset up to the end of its import announces nothing. If the import commits, the rows
of the data file are held in the file of the database, if there is one. -/
theorem Accounted.importDataset (h : Accounted config f done s)
    (hname : checkTable d.table = .ok ()) (hrun : (importDataset config d).exec s = (out, left)) :
    Accounted config f done left ∧ ∀ c stats, out = .ok (c, stats) →
      stats.tag = d.tag ∧ stats.table = d.table ∧ (Connection.InFile config.database →
        (Imported.mk d stats left).HeldIn config f left.files) := by
  cases hlines : inputLines s.files (config.inputPath d) with
  | error e =>
    rw [exec_importDataset_unreadable hlines] at hrun
    obtain ⟨rfl, rfl⟩ := Prod.mk.inj hrun
    exact ⟨h, fun _ _ hout => by cases hout⟩
  | ok lines =>
    have hannounced : Accounted config f done (announced config d s) := (h.report rfl).report rfl
    rw [exec_importDataset_readable hlines] at hrun
    rcases exec_openTable_serves config.database hname (announced config d s) with
      ⟨e, hopen⟩ | ⟨c, db, g, hopen, hgrown, hserves, hdb⟩
    · rw [Run.exec_bind_error hopen] at hrun
      obtain ⟨rfl, rfl⟩ := Prod.mk.inj hrun
      exact ⟨hannounced, fun _ _ hout => by cases hout⟩
    · have hmade := hannounced.setFiles hgrown
      obtain ⟨read, hread⟩ : ∃ read, inputLines g (config.inputPath d) = .ok read := by
        rcases inputLines_of_openTable (s := announced config d s) hlines hopen with
          hsame | ⟨-, -, hdatabase⟩
        · exact ⟨_, hsame⟩
        · exact ⟨_, hdatabase⟩
      rw [Run.exec_bind_ok hopen,
        exec_importFile (s := { announced config d s with files := g }) c _ hread] at hrun
      obtain ⟨hleft, hok⟩ := hmade.importLines hname hserves hdb hrun
      refine ⟨hleft, fun c' stats hout => ?_⟩
      obtain ⟨htag, htable, rows, hrows, hheld⟩ := hok c' stats hout
      refine ⟨htag, htable, fun hfile => ?_⟩
      obtain ⟨held, hopens, hheld⟩ := hheld hfile
      have hhas : HasRows config g d rows := ⟨read, hread, hrows⟩
      exact ⟨rows, held, hhas.of_grownAt hmade.grown, hopens, hheld⟩

end

/-! ## Datasets one after the other -/

section

variable {config : Config} {f : Files} {d : Dataset} {datasets : List Dataset}
  {done : List Imported} {s s' : RunState} {out : Except LoadError (List LoadStats)}

/-- A run over datasets announces the imports that commit in it. If it succeeds they are all. -/
theorem Accounted.loadEach (h : Accounted config f done s)
    (hnames : ∀ d ∈ datasets, checkTable d.table = .ok ())
    (hrun : (loadEach config datasets).exec s = (out, s')) :
    Accounted config f (done ++ imports config s datasets) s' ∧
      (imports config s datasets).map Imported.dataset <+: datasets ∧
      (∀ i ∈ imports config s datasets,
        i.stats.tag = i.dataset.tag ∧ i.stats.table = i.dataset.table) ∧
      ∀ stats, out = .ok stats → stats = (imports config s datasets).map Imported.stats ∧
        (imports config s datasets).map Imported.dataset = datasets := by
  induction datasets generalizing s s' done out with
  | nil =>
    obtain ⟨rfl, rfl⟩ := Prod.mk.inj hrun
    refine ⟨(List.append_nil done).symm ▸ h, List.prefix_rfl, List.forall_mem_nil _, ?_⟩
    rintro stats ⟨⟩
    exact ⟨rfl, rfl⟩
  | cons d rest ih =>
    rcases himport : (Load.importDataset config d).exec s with ⟨e | ⟨c, stats⟩, left⟩
    · obtain ⟨hleft, -⟩ := h.importDataset (hnames d List.mem_cons_self) himport
      rw [Load.loadEach, Run.exec_bind_error (exec_loadDataset_of_not_imported himport)] at hrun
      obtain ⟨rfl, rfl⟩ := Prod.mk.inj hrun
      rw [imports_cons_of_not_imported himport, List.append_nil]
      exact ⟨hleft, List.nil_prefix, List.forall_mem_nil _, fun _ hout => by cases hout⟩
    · obtain ⟨hleft, hok⟩ := h.importDataset (hnames d List.mem_cons_self) himport
      obtain ⟨htag, htable, hheld⟩ := hok c stats rfl
      have hnext := hleft.announce (i := ⟨d, stats, left⟩) rfl hheld
      have hnames' : ∀ a ∈ rest, checkTable a.table = .ok () :=
        fun a ha => hnames a (List.mem_cons_of_mem _ ha)
      rw [Load.loadEach, Run.exec_bind_ok (exec_loadDataset_of_imported himport)] at hrun
      rcases hrest : (Load.loadEach config rest).exec (left.report (.loaded stats)) with ⟨out', t⟩
      obtain ⟨hlast, hprefix, hstats, hall⟩ := ih hnext hnames' hrest
      rw [imports_cons_of_imported himport]
      rw [List.append_assoc] at hlast
      have hprefix' := (List.prefix_cons_inj d).mpr hprefix
      cases out' with
      | error e =>
        rw [Run.exec_bind_error hrest] at hrun
        obtain ⟨rfl, rfl⟩ := Prod.mk.inj hrun
        exact ⟨hlast, hprefix', List.forall_mem_cons.mpr ⟨⟨htag, htable⟩, hstats⟩,
          fun _ hout => by cases hout⟩
      | ok more =>
        rw [Run.exec_bind_ok hrest] at hrun
        obtain ⟨rfl, rfl⟩ := Prod.mk.inj hrun
        obtain ⟨rfl, hdatasets⟩ := hall more rfl
        refine ⟨hlast, hprefix', List.forall_mem_cons.mpr ⟨⟨htag, htable⟩, hstats⟩, ?_⟩
        rintro all ⟨⟩
        exact ⟨rfl, by rw [List.map_cons, hdatasets]⟩

/-- The rows of a table stay as they were when nothing is imported into it. A table that is made
counts as one without rows. -/
theorem loadDataset_untouched {place : Location} {db : Database} {name : String}
    {out : Except LoadError LoadStats} (hfile : DatabaseFile s.files config.database place db)
    (hname : checkTable d.table = .ok ()) (hrun : (loadDataset config d).exec s = (out, s'))
    (hother : (∃ e, out = .error e) ∨ Text.sameName d.table name = false) :
    ∃ db', DatabaseFile s'.files config.database place db' ∧
      (db'.rows? name).getD ∅ = (db.rows? name).getD ∅ := by
  rcases loadDataset_cases hname hrun with ⟨hkept, -⟩ | ⟨other, old, hold, hput⟩
  · exact ⟨db, hkept ▸ hfile, rfl⟩
  · cases Except.ok.inj (hfile.leads.symm.trans hold.leads)
    cases hfile.unique hold
    rcases hput with ⟨e, -, hput⟩ | ⟨stats, lines, rows, rfl, -, -, hput⟩
    · refine ⟨db.addTable d.table, hput ▸ hfile.put _, ?_⟩
      rw [Database.rows?, Database.rows?, Database.table?_addTable]
      cases db.table? name with
      | some t => rfl
      | none => cases Text.sameName d.table name <;> rfl
    · refine ⟨db.addRows d.table rows, hput ▸ hfile.put _, ?_⟩
      have hne := hother.resolve_left (by rintro ⟨e, he⟩; cases he)
      rw [Database.rows?, Database.rows?, Database.table?_addRows_of_ne db rows hne]

/-- The rows of a table stay as they were in a run that commits no import into it. -/
theorem loadEach_untouched {place : Location} {db : Database} {name : String}
    (hfile : DatabaseFile s.files config.database place db)
    (hnames : ∀ d ∈ datasets, checkTable d.table = .ok ())
    (hrun : (loadEach config datasets).exec s = (out, s'))
    (hother : ∀ i ∈ imports config s datasets, Text.sameName i.dataset.table name = false) :
    ∃ db', DatabaseFile s'.files config.database place db' ∧
      (db'.rows? name).getD ∅ = (db.rows? name).getD ∅ := by
  induction datasets generalizing s s' db out with
  | nil =>
    obtain ⟨-, rfl⟩ := Prod.mk.inj hrun
    exact ⟨db, hfile, rfl⟩
  | cons d rest ih =>
    have hname := hnames d List.mem_cons_self
    rcases himport : (importDataset config d).exec s with ⟨e | ⟨c, stats⟩, left⟩
    · have hload := exec_loadDataset_of_not_imported himport
      rw [loadEach, Run.exec_bind_error hload] at hrun
      obtain ⟨rfl, rfl⟩ := Prod.mk.inj hrun
      exact loadDataset_untouched hfile hname hload (Or.inl ⟨e, rfl⟩)
    · have hload := exec_loadDataset_of_imported himport
      rw [imports_cons_of_imported himport] at hother
      obtain ⟨hne, hothers⟩ := List.forall_mem_cons.mp hother
      obtain ⟨db₁, hfile₁, hrows₁⟩ := loadDataset_untouched hfile hname hload (Or.inr hne)
      rcases hrest : (loadEach config rest).exec (left.report (.loaded stats)) with ⟨out', t⟩
      have hlast : s'.files = t.files := by
        rw [loadEach, Run.exec_bind_ok hload, Run.exec_bind, hrest] at hrun
        cases out' <;> exact congrArg RunState.files (Prod.mk.inj hrun).2.symm
      obtain ⟨db₂, hfile₂, hrows₂⟩ :=
        ih hfile₁ (fun a ha => hnames a (List.mem_cons_of_mem _ ha)) hrest hothers
      exact ⟨db₂, hlast ▸ hfile₂, hrows₂.trans hrows₁⟩

end

/-! ## Runs -/

/-- The state in which the first dataset of a run is loaded. -/
def opened (config : Config) (f : Files) : RunState :=
  (((⟨f, []⟩ : RunState).report (.phase .preparing)).report (.log (toString
    config.datasets.length ++ " datasets into " ++ config.database))).report (.phase .loading)

theorem start_loadDatasets_eq (config : Config) (f : Files) :
    (loadDatasets config).start f = match (loadEach config config.datasets).exec (opened config f) with
      | (.ok stats, s) => (.ok ⟨stats⟩, s.report .noProgress)
      | (.error e, s) => (.error e, s) := by
  rw [Run.start_eq_exec, loadDatasets, Run.exec_bind_ok (Run.exec_report _ _),
    Run.exec_bind_ok (Run.exec_report _ _), Run.exec_bind_ok (Run.exec_report _ _), Run.exec_bind,
    opened]
  rcases (loadEach config config.datasets).exec _ with ⟨_ | _, _⟩ <;> rfl

section

variable {config : Config} {f : Files} {s : RunState} {out : Except LoadError RunSummary}

/-- All that a run announces, and when. -/
theorem loadDatasets_accounted (hnames : ∀ d ∈ config.datasets, checkTable d.table = .ok ())
    (hrun : (loadDatasets config).start f = (out, s)) :
    let done := imports config (opened config f) config.datasets
    Accounted config f done s ∧ done.map Imported.dataset <+: config.datasets ∧
      (∀ i ∈ done, i.stats.tag = i.dataset.tag ∧ i.stats.table = i.dataset.table) ∧
      (∀ summary, out = .ok summary → summary.datasets = done.map Imported.stats ∧
        done.map Imported.dataset = config.datasets) ∧
      ∃ out' s', (loadEach config config.datasets).exec (opened config f) = (out', s') ∧
        s.files = s'.files := by
  have hopened : Accounted config f [] (opened config f) :=
    (((Accounted.start config f).report rfl).report rfl).report rfl
  rcases heach : (loadEach config config.datasets).exec (opened config f) with ⟨out', s'⟩
  obtain ⟨hlast, hprefix, hstats, hall⟩ := hopened.loadEach hnames heach
  rw [List.nil_append] at hlast
  rw [start_loadDatasets_eq, heach] at hrun
  cases out' with
  | error e =>
    obtain ⟨rfl, rfl⟩ := Prod.mk.inj hrun
    exact ⟨hlast, hprefix, hstats, (fun _ hout => by cases hout), _, _, rfl, rfl⟩
  | ok stats =>
    obtain ⟨rfl, rfl⟩ := Prod.mk.inj hrun
    refine ⟨hlast.report rfl, hprefix, hstats, ?_, _, _, rfl, rfl⟩
    rintro summary ⟨⟩
    exact hall stats rfl

/-- No two datasets of a configuration have a tag in common, so an announcement under the tag of a
dataset is about its own import. -/
theorem Accounted.announced_iff {done : List Imported} (h : Accounted config f done s)
    (hvalid : config.Valid) (hfirst : done.map Imported.dataset <+: config.datasets)
    (hstats : ∀ i ∈ done, i.stats.tag = i.dataset.tag ∧ i.stats.table = i.dataset.table)
    {d : Dataset} (hd : d ∈ config.datasets) :
    (∃ stats ∈ announcements s.moments, stats.tag = d.tag) ↔ d ∈ done.map Imported.dataset := by
  rw [h.reported]
  constructor
  · rintro ⟨stats, hannounced, htag⟩
    obtain ⟨i, hi, rfl⟩ := List.mem_map.mp hannounced
    have hmem : i.dataset ∈ config.datasets := hfirst.subset (List.mem_map_of_mem hi)
    have hsame : i.dataset = d := by
      by_contra hne
      exact (hvalid.apart_of_ne hmem hd hne).1 ((hstats i hi).1.symm.trans htag)
    exact hsame ▸ List.mem_map_of_mem hi
  · intro hdone
    obtain ⟨i, hi, rfl⟩ := List.mem_map.mp hdone
    exact ⟨i.stats, List.mem_map_of_mem hi, (hstats i hi).1⟩

/-- A run announces exactly the imports that commit in it, in the order of the configuration and
each once, and none before it is over; on success these are the counts of its result. When the
database is in a file, the datasets announced so far have all identifiers of their data files there
at every moment, and still at the end. A dataset whose import does not commit is not announced, and
the rows of its table are as they were. -/
theorem loadDatasets_announces_committed (hvalid : config.Valid)
    (hrun : (loadDatasets config).start f = (out, s)) :
    let done := imports config (opened config f) config.datasets
    announcements s.moments = done.map Imported.stats ∧
    done.map Imported.dataset <+: config.datasets ∧
    (∀ i ∈ done, i.stats.tag = i.dataset.tag ∧ i.stats.table = i.dataset.table) ∧
    ((announcements s.moments).map LoadStats.tag).Nodup ∧
    (∀ m earlier, m :: earlier <:+ s.moments → ∃ announced, announced <+: done ∧
      announcements (m :: earlier) = announced.map Imported.stats ∧
      (∀ i ∈ announced, i.left.moments <:+ earlier) ∧
      (Connection.InFile config.database → ∀ i ∈ announced, i.HeldIn config f m.files)) ∧
    (Connection.InFile config.database → ∀ i ∈ done, i.HeldIn config f s.files) ∧
    (∀ summary, out = .ok summary → summary.datasets = announcements s.moments ∧
      done.map Imported.dataset = config.datasets) ∧
    ∀ d ∈ config.datasets,
      ((∃ stats ∈ announcements s.moments, stats.tag = d.tag) ↔ d ∈ done.map Imported.dataset) ∧
      (d ∉ done.map Imported.dataset → ∀ place db, DatabaseFile f config.database place db →
        ∃ db', DatabaseFile s.files config.database place db' ∧
          (db'.rows? d.table).getD ∅ = (db.rows? d.table).getD ∅) := by
  have hnames : ∀ d ∈ config.datasets, checkTable d.table = .ok () :=
    fun d hd => hvalid.checkTable hd
  intro done
  obtain ⟨haccounted, hprefix, hstats, hall, out', s', heach, hfiles⟩ :=
    loadDatasets_accounted hnames hrun
  have htags : (announcements s.moments).map LoadStats.tag =
      (done.map Imported.dataset).map Dataset.tag := by
    rw [haccounted.reported, List.map_map, List.map_map]
    exact List.map_congr_left fun i hi => (hstats i hi).1
  refine ⟨haccounted.reported, hprefix, hstats, ?once, ?moments, ?ending, ?result, ?datasets⟩
  case once =>
    rw [htags, List.Nodup, List.pairwise_map]
    exact (hvalid.pairwise.sublist hprefix.sublist).imp fun h => h.1
  case moments =>
    intro m earlier hm
    obtain ⟨announced, hannounced, hreported, hdurable⟩ := haccounted.covered m earlier hm
    exact ⟨announced, hannounced, hreported, fun i hi => (hdurable i hi).before,
      fun hfile i hi => (hdurable i hi).held hfile⟩
  case ending =>
    exact fun hfile i hi => (haccounted.durable i hi).held hfile
  case result =>
    intro summary hout
    rw [haccounted.reported]
    exact hall summary hout
  case datasets =>
    intro d hd
    refine ⟨haccounted.announced_iff hvalid hprefix hstats hd, fun hnot place db hfile => ?_⟩
    rw [hfiles]
    refine loadEach_untouched (s := opened config f) hfile hnames heach fun i hi => ?_
    have hmem : i.dataset ∈ config.datasets := hprefix.subset (List.mem_map_of_mem hi)
    refine (hvalid.apart_of_ne hmem hd ?_).2
    rintro rfl
    exact hnot (List.mem_map_of_mem hi)

end

/-- Of two datasets the second fails at its second line: the first was announced, and its rows are in
the file of the database; the second was not. -/
theorem loadDatasets_announces_committed_broken :
    ∃ (s : RunState) (i : Imported), (loadDatasets twoDatasets).start (filesWith brokenBytes) =
        (.error (.io "data/b.jsonl" .notText), s) ∧
      announcements s.moments = [i.stats] ∧ i.dataset = ⟨"A", "a.jsonl", "A"⟩ ∧
      i.HeldIn twoDatasets (filesWith brokenBytes) s.files := by
  obtain ⟨s, hstart⟩ := start_broken
  obtain ⟨hreported, -, -, -, -, hheld, -, -⟩ :=
    loadDatasets_announces_committed valid_twoDatasets hstart
  have hdone : (imports twoDatasets (opened twoDatasets (filesWith brokenBytes))
      twoDatasets.datasets).map Imported.dataset = [⟨"A", "a.jsonl", "A"⟩] := by
    decide +kernel
  obtain ⟨i, hi, hdataset⟩ := List.map_eq_singleton_iff.mp hdone
  have hfile : Connection.InFile twoDatasets.database :=
    ⟨by rw [Connection.InMemory]; decide +kernel, by decide +kernel⟩
  refine ⟨s, i, hstart, ?_, hdataset, hheld hfile i (hi ▸ List.mem_singleton_self i)⟩
  rw [hreported, hi, List.map_singleton]

/-! ## Databases in memory -/

/-- One dataset that goes into memory. -/
def oneInMemory : Config := ⟨"data", Connection.memoryPath, [⟨"A", "a.jsonl", "A"⟩]⟩

theorem valid_oneInMemory : oneInMemory.Valid := by
  have hpass : (checkDatasets oneInMemory.datasets).toOption = some () := by decide +kernel
  unfold Config.Valid
  cases hcheck : checkDatasets oneInMemory.datasets with
  | error e => rw [hcheck] at hpass; cases hpass
  | ok _ => rfl

theorem hasRows_oneInMemory :
    HasRows oneInMemory (filesWith []) ⟨"A", "a.jsonl", "A"⟩ [bareRow "A"] := by
  have hbytes : (filesWith []).read "data/a.jsonl" = .ok (Text.encode (bareCard "A")) := rfl
  refine ⟨[Text.encode (bareCard "A")], inputLines_eq_ok_iff.mpr ⟨_, hbytes, ?_⟩, ?_⟩
  · decide +kernel
  · rw [Row.ofLines_cons_ok ofBytes_bareCard_first]
    rfl

theorem lookup_filesWith_ne_database (second : List UInt8) (place : Location) (db : Database) :
    (filesWith second).lookup place ≠ some (.database db) := by
  rw [filesWith, Files.lookup_put, Files.lookup_put, Files.lookup_put, Files.empty]
  split_ifs <;> simp

/-- A dataset of one card that goes into memory is announced when the database is gone: no database to
which the path leads has its table, nor is there a database in any file, and a second run adds the
card once more. -/
theorem loadDatasets_inMemory_announces_lost :
    oneInMemory.Valid ∧
    ∃ (s : RunState) (m : Moment) (earlier : List Moment) (stats : LoadStats),
      (loadDatasets oneInMemory).start (filesWith []) = (.ok ⟨[stats]⟩, s) ∧
      m :: earlier <:+ s.moments ∧ m.report = .loaded stats ∧ stats.inserted = 1 ∧
      HasRows oneInMemory (filesWith []) ⟨"A", "a.jsonl", "A"⟩ [bareRow "A"] ∧
      (∀ db, Connection.Opens m.files oneInMemory.database db → db.table? "A" = none) ∧
      (∀ place db, m.files.lookup place ≠ some (.database db)) ∧
      (loadDatasets oneInMemory).start s.files = (.ok ⟨[stats]⟩, s) := by
  have hmemory : Connection.InMemory oneInMemory.database := Or.inl rfl
  have hname : checkTable "A" = .ok () := valid_oneInMemory.checkTable (List.mem_singleton_self _)
  obtain ⟨lines, hlines, hrows⟩ := hasRows_oneInMemory
  obtain ⟨first, hfirst, hstart⟩ := start_loadDatasets oneInMemory (filesWith [])
  obtain ⟨left, hload, hleft⟩ :=
    exec_loadDataset_inMemory_ok (s := first) hmemory hname (hfirst ▸ hlines) hrows
  have hrun := hstart _ _ (exec_loadEach_cons_ok hload rfl)
  have hfiles : left.files = filesWith [] := hleft.trans hfirst
  refine ⟨valid_oneInMemory, _, _, _, _, hrun, List.suffix_cons _ _, rfl, rfl,
    hasRows_oneInMemory, ?gone, ?nowhere, (congrArg (loadDatasets oneInMemory).start hfiles).trans hrun⟩
  case gone =>
    intro db hopens
    cases (Connection.opens_iff_of_inMemory hmemory).mp hopens
    rfl
  case nowhere =>
    intro place db
    show left.files.lookup place ≠ _
    rw [hfiles]
    exact lookup_filesWith_ne_database [] place db

end Load

end CardArchive
