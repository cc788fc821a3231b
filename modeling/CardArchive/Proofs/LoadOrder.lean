import CardArchive.Proofs.LoadAnywhere
import CardArchive.Proofs.Reload
import Mathlib.Data.List.Perm.Basic

/-!
# The order of datasets

Datasets that have a table each do not see one another. What a run finds under the name of a table
is what was there before with the rows of the one dataset that the table belongs to, and the counts
of a dataset depend on nothing but its table and its data file. So a run in another order succeeds
as well, counts the same, and leaves databases that differ at most in the order of their tables.
-/

namespace CardArchive

theorem Dataset.Apart.symm {a b : Dataset} (h : a.Apart b) : b.Apart a :=
  ⟨h.1.symm, by rw [Text.sameName_comm]; exact h.2⟩

/-! ## Databases up to the order of tables -/

namespace Database

/-- The same table is found under every name. -/
def Same (db db' : Database) : Prop := ∀ name, db.table? name = db'.table? name

variable {db db' : Database} {name other : String} {contents contents' : List (Dataset × List Row)}

theorem rows?_congr (h : db.table? name = db'.table? name) : db.rows? name = db'.rows? name := by
  rw [rows?, rows?, h]

theorem table?_addRows_congr (rows : List Row) (hsame : Text.sameName name other = true)
    (h : db.table? other = db'.table? other) :
    (db.addRows name rows).table? other = (db'.addRows name rows).table? other := by
  have hname : db.table? name = db'.table? name := by
    rw [table?_congr db hsame, table?_congr db' hsame, h]
  rw [addRows, addRows, table?_setRows, table?_setRows, table?_addTable, table?_addTable, h,
    rows?_congr hname]

/-- Under the name of a dataset's table, the rows of no other dataset are found. -/
theorem table?_addDatasets_of_mem (hpair : (contents.map Prod.fst).Pairwise Dataset.Apart)
    {p : Dataset × List Row} (hp : p ∈ contents) (hname : Text.sameName p.1.table name = true)
    (db : Database) :
    (db.addDatasets contents).table? name = (db.addRows p.1.table p.2).table? name := by
  induction contents generalizing db with
  | nil => exact nomatch hp
  | cons first rest ih =>
    obtain ⟨hfirst, hrest⟩ := List.pairwise_cons.mp hpair
    rw [addDatasets_cons]
    rcases List.mem_cons.mp hp with rfl | hp
    · refine table?_addDatasets_of_ne (fun q hq => ?_) _
      rw [← Text.sameName_congr_right hname]
      exact (hfirst q.1 (List.mem_map_of_mem hq)).symm.2
    · have hne : Text.sameName first.1.table name = false := by
        rw [← Text.sameName_congr_right hname]
        exact (hfirst p.1 (List.mem_map_of_mem hp)).2
      rw [ih hrest hp]
      exact table?_addRows_congr p.2 hname (table?_addRows_of_ne db first.2 hne)

/-- The order in which the rows of datasets are added makes no difference. -/
theorem same_addDatasets_of_perm (hperm : contents.Perm contents')
    (hpair : (contents.map Prod.fst).Pairwise Dataset.Apart) (db : Database) :
    (db.addDatasets contents).Same (db.addDatasets contents') := by
  have hpair' : (contents'.map Prod.fst).Pairwise Dataset.Apart :=
    (hperm.map Prod.fst).pairwise hpair fun h => h.symm
  intro name
  by_cases hone : ∃ p ∈ contents, Text.sameName p.1.table name = true
  · obtain ⟨p, hp, hname⟩ := hone
    rw [table?_addDatasets_of_mem hpair hp hname,
      table?_addDatasets_of_mem hpair' (hperm.mem_iff.mp hp) hname]
  · have hne : ∀ p ∈ contents, Text.sameName p.1.table name = false :=
      fun p hp => Bool.eq_false_iff.mpr fun hname => hone ⟨p, hp, hname⟩
    rw [table?_addDatasets_of_ne hne,
      table?_addDatasets_of_ne fun p hp => hne p (hperm.mem_iff.mpr hp)]

end Database

/-- The files are the same, but that databases may differ in the order of their tables. -/
def Files.Same (f g : Files) : Prop :=
  ∀ place, f.lookup place = g.lookup place ∨ ∃ db db', f.lookup place = some (.database db) ∧
    g.lookup place = some (.database db') ∧ db.Same db'

theorem Files.same_put (f : Files) (place : Location) {db db' : Database} (h : db.Same db') :
    (f.put place (.database db)).Same (f.put place (.database db')) := by
  intro other
  by_cases hother : other = place
  · subst hother
    exact Or.inr ⟨db, db', Files.lookup_put_self _ _ _, Files.lookup_put_self _ _ _, h⟩
  · left
    rw [Files.lookup_put_of_ne _ _ hother, Files.lookup_put_of_ne _ _ hother]

theorem Config.Valid.perm {config : Config} {datasets : List Dataset} (hvalid : config.Valid)
    (hperm : datasets.Perm config.datasets) :
    Config.Valid { config with datasets := datasets } := by
  obtain ⟨hne, hall, hpair⟩ := checkDatasets_eq_ok_iff.mp hvalid
  refine checkDatasets_eq_ok_iff.mpr ⟨?_, fun d hd => hall d (hperm.mem_iff.mp hd), ?_⟩
  · rintro rfl
    exact hne hperm.nil_eq.symm
  · exact hperm.symm.pairwise hpair fun h => h.symm

theorem RunSummary.perm_totals {a b : RunSummary} (h : a.datasets.Perm b.datasets) :
    a.inserted = b.inserted ∧ a.skipped = b.skipped :=
  ⟨(h.map LoadStats.inserted).foldr_eq 0, (h.map LoadStats.skipped).foldr_eq 0⟩

namespace Load

/-! ## What a dataset comes to by itself -/

/-- The rows that a data file gives. -/
def rowsIn (config : Config) (f : Files) (d : Dataset) : List Row :=
  (inputLines f (config.inputPath d)).toOption.elim [] fun lines => (Row.ofLines lines).1

/-- A data file can be read and all its lines are rows. -/
def Loadable (config : Config) (f : Files) (d : Dataset) : Prop :=
  HasRows config f d (rowsIn config f d)

/-- The counts of a dataset that is loaded by itself. -/
def statsIn (config : Config) (db : Database) (f : Files) (d : Dataset) : LoadStats :=
  (importOf db d (rowsIn config f d)).stats d

section

variable {config : Config} {f g : Files} {place : Location} {db db' : Database} {d : Dataset}
  {rows : List Row}

theorem HasRows.eq_rowsIn (h : HasRows config f d rows) : rows = rowsIn config f d := by
  obtain ⟨lines, hlines, hrows⟩ := h
  rw [rowsIn, hlines]
  exact (congrArg Prod.fst hrows).symm

theorem HasRows.loadable (h : HasRows config f d rows) : Loadable config f d := by
  rw [Loadable, ← h.eq_rowsIn]
  exact h

theorem importOf_congr (rows : List Row) (h : db.table? d.table = db'.table? d.table) :
    importOf db d rows = importOf db' d rows := by
  rw [importOf, importOf, Database.rows?_congr h]

/-- The counts of datasets that have a table each are those of every dataset by itself. -/
theorem statsOf_eq_map {contents : List (Dataset × List Row)}
    (hpair : (contents.map Prod.fst).Pairwise Dataset.Apart) (db : Database) :
    statsOf db contents = contents.map fun p => (importOf db p.1 p.2).stats p.1 := by
  induction contents generalizing db with
  | nil => rfl
  | cons p rest ih =>
    obtain ⟨d, rows⟩ := p
    obtain ⟨hfirst, hrest⟩ := List.pairwise_cons.mp hpair
    rw [statsOf, ih hrest, List.map_cons]
    refine congrArg _ (List.map_congr_left fun q hq => ?_)
    have hne := (hfirst q.1 (List.mem_map_of_mem hq)).2
    rw [importOf_congr q.2 (Database.table?_addRows_of_ne db rows hne)]

theorem eq_map_rowsIn {datasets : List Dataset} {contents : List (Dataset × List Row)}
    (hmap : contents.map Prod.fst = datasets) (hrows : ∀ p ∈ contents, HasRows config f p.1 p.2) :
    contents = datasets.map fun d => (d, rowsIn config f d) := by
  rw [← hmap, List.map_map]
  refine (List.map_id _).symm.trans (List.map_congr_left fun p hp => ?_)
  exact Prod.ext rfl (hrows p hp).eq_rowsIn

/-! ## Runs over a database in a file -/

theorem fileApart_of_loadEach {datasets : List Dataset} {stats : List LoadStats} {s s' : RunState}
    (hfile : DatabaseFile s.files config.database place db)
    (hnames : ∀ d ∈ datasets, checkTable d.table = .ok ())
    (h : (loadEach config datasets).exec s = (.ok stats, s')) :
    ∀ d ∈ datasets, FileApart config s.files place d := by
  obtain ⟨contents, rfl, -, -, -, hcontents⟩ := loadEach_eq_ok hfile hnames h
  exact List.forall_mem_map.mpr fun p hp => (hcontents p hp).1

/-- A run over a database in a file succeeds exactly when all data files have only rows; then the
rows are added, and every dataset counts as by itself. -/
theorem loadDatasets_inFile_eq_ok_iff (hvalid : config.Valid)
    (hfile : DatabaseFile f config.database place db)
    (hapart : ∀ d ∈ config.datasets, FileApart config f place d) {summary : RunSummary} :
    (∃ s, (loadDatasets config).start f = (.ok summary, s) ∧ s.files = g) ↔
      (∀ d ∈ config.datasets, Loadable config f d) ∧
        summary = ⟨config.datasets.map (statsIn config db f)⟩ ∧
        g = f.put place (.database
          (db.addDatasets (config.datasets.map fun d => (d, rowsIn config f d)))) := by
  have hfst : (config.datasets.map fun d => (d, rowsIn config f d)).map Prod.fst =
      config.datasets := by
    rw [List.map_map]
    exact List.map_id _
  have hpair := hvalid.pairwise
  rw [← hfst] at hpair
  -- the tables are apart, so what a dataset adds does not depend on those before it
  have hstats : statsOf db (config.datasets.map fun d => (d, rowsIn config f d)) =
      config.datasets.map (statsIn config db f) := by
    rw [statsOf_eq_map hpair, List.map_map]
    rfl
  rw [loadDatasets_eq_ok_iff hvalid hfile hapart]
  constructor
  · rintro ⟨contents, hmap, hrows, rfl, rfl⟩
    have hloadable : ∀ d ∈ config.datasets, Loadable config f d := by
      intro d hd
      obtain ⟨p, hp, rfl⟩ := List.mem_map.mp (hmap ▸ hd)
      exact (hrows p hp).loadable
    rw [eq_map_rowsIn hmap hrows, hstats]
    exact ⟨hloadable, rfl, rfl⟩
  · rintro ⟨hloadable, rfl, rfl⟩
    refine ⟨_, hfst, fun p hp => ?_, by rw [hstats], rfl⟩
    obtain ⟨d, hd, rfl⟩ := List.mem_map.mp hp
    exact hloadable d hd

/-! ## Runs in memory -/

/-- Datasets that are loaded into memory go into databases of their own. -/
theorem loadEach_inMemory_eq_ok {datasets : List Dataset} {stats : List LoadStats} {s s' : RunState}
    (hmemory : Connection.InMemory config.database)
    (hnames : ∀ d ∈ datasets, checkTable d.table = .ok ())
    (h : (loadEach config datasets).exec s = (.ok stats, s')) :
    s'.files = s.files ∧ (∀ d ∈ datasets, Loadable config s.files d) ∧
      stats = datasets.map (statsIn config {} s.files) := by
  induction datasets generalizing s stats with
  | nil =>
    obtain ⟨hstats, rfl⟩ := Prod.mk.inj h
    cases hstats
    exact ⟨rfl, List.forall_mem_nil _, rfl⟩
  | cons d rest ih =>
    obtain ⟨first, more, s₁, hd, hrest, rfl⟩ := loadEach_cons_eq_ok h
    obtain ⟨hkept, hout⟩ := loadDataset_inMemory hmemory (hnames d List.mem_cons_self) hd
    obtain ⟨lines, rows, hlines, hrows, rfl⟩ := hout first rfl
    obtain ⟨hfiles, hloadable, rfl⟩ := ih (fun a ha => hnames a (List.mem_cons_of_mem _ ha)) hrest
    have hd : HasRows config s.files d rows := ⟨lines, hlines, hrows⟩
    rw [hkept] at hfiles hloadable
    refine ⟨hfiles, List.forall_mem_cons.mpr ⟨hd.loadable, hloadable⟩, ?_⟩
    rw [hkept, hd.eq_rowsIn]
    rfl

theorem exec_loadEach_inMemory {datasets : List Dataset} {s : RunState}
    (hmemory : Connection.InMemory config.database)
    (hnames : ∀ d ∈ datasets, checkTable d.table = .ok ())
    (hloadable : ∀ d ∈ datasets, Loadable config s.files d) :
    ∃ s', (loadEach config datasets).exec s = (.ok (datasets.map (statsIn config {} s.files)), s') ∧
      s'.files = s.files := by
  induction datasets generalizing s with
  | nil => exact ⟨s, rfl, rfl⟩
  | cons d rest ih =>
    obtain ⟨lines, hlines, hrows⟩ := hloadable d List.mem_cons_self
    obtain ⟨left, hd, hkept⟩ :=
      exec_loadDataset_inMemory_ok hmemory (hnames d List.mem_cons_self) hlines hrows
    obtain ⟨s', hrest, hfiles⟩ := ih (s := left.report _)
      (fun a ha => hnames a (List.mem_cons_of_mem _ ha))
      fun a ha => hkept ▸ hloadable a (List.mem_cons_of_mem _ ha)
    rw [show (left.report _).files = s.files from hkept] at hrest hfiles
    exact ⟨s', exec_loadEach_cons_ok hd hrest, hfiles⟩

theorem loadDatasets_inMemory_eq_ok_iff (hvalid : config.Valid)
    (hmemory : Connection.InMemory config.database) {summary : RunSummary} :
    (∃ s, (loadDatasets config).start f = (.ok summary, s) ∧ s.files = g) ↔
      (∀ d ∈ config.datasets, Loadable config f d) ∧
        summary = ⟨config.datasets.map (statsIn config {} f)⟩ ∧ g = f := by
  have hnames : ∀ d ∈ config.datasets, checkTable d.table = .ok () :=
    fun d hd => hvalid.checkTable hd
  rw [start_loadDatasets_eq_ok_iff]
  constructor
  · rintro ⟨s, hs, rfl⟩
    obtain ⟨hfiles, hloadable, hstats⟩ := loadEach_inMemory_eq_ok (s := ⟨f, []⟩) hmemory hnames hs
    exact ⟨hloadable, congrArg RunSummary.mk hstats, hfiles⟩
  · rintro ⟨hloadable, rfl, rfl⟩
    exact exec_loadEach_inMemory (s := ⟨_, []⟩) hmemory hnames hloadable

end

/-! ## Runs in another order -/

section

variable {config : Config} {f : Files} {datasets : List Dataset} {summary : RunSummary}
  {s : RunState}

/-- A run that succeeds goes to a database in memory, or to one in a file that is apart from the
data files. -/
theorem database_of_loadDatasets (hvalid : config.Valid)
    (h : (loadDatasets config).start f = (.ok summary, s)) :
    Connection.InMemory config.database ∨ ∃ place db, DatabaseFile f config.database place db ∧
      ∀ d ∈ config.datasets, FileApart config f place d := by
  have hnames : ∀ d ∈ config.datasets, checkTable d.table = .ok () :=
    fun d hd => hvalid.checkTable hd
  obtain ⟨s', hrun, -⟩ := start_loadDatasets_eq_ok_iff.mp ⟨s, h, rfl⟩
  rw [Run.start_eq_exec] at hrun
  by_cases hmemory : Connection.InMemory config.database
  · exact Or.inl hmemory
  · by_cases hfile : LeadsToDatabase f config.database
    · obtain ⟨place, db, hdb⟩ := hfile
      exact Or.inr ⟨place, db, hdb, fileApart_of_loadEach (s := ⟨f, []⟩) hdb hnames hrun⟩
    · obtain ⟨d, rest, hsplit⟩ := List.exists_cons_of_ne_nil hvalid.ne_nil
      rw [hsplit] at hrun
      obtain ⟨first, _, _, hd, -, -⟩ := loadEach_cons_eq_ok hrun
      exact absurd rfl ((loadDataset_nowhere hfile hmemory hd).2 first)

/-- A run in another order succeeds when the run succeeds. Both leave the same tables, and every
dataset has the same counts in both, so that the sums are the same. -/
theorem loadDatasets_perm (hvalid : config.Valid) (hperm : datasets.Perm config.datasets)
    (hrun : (loadDatasets config).start f = (.ok summary, s)) :
    Config.Valid { config with datasets := datasets } ∧
      ∃ summary' s', (loadDatasets { config with datasets := datasets }).start f =
          (.ok summary', s') ∧
        s.files.Same s'.files ∧
        (∃ stats : Dataset → LoadStats, summary.datasets = config.datasets.map stats ∧
          summary'.datasets = datasets.map stats) ∧
        summary'.inserted = summary.inserted ∧ summary'.skipped = summary.skipped := by
  have hvalid' := hvalid.perm hperm
  refine ⟨hvalid', ?_⟩
  have hmem : ∀ d ∈ datasets, d ∈ config.datasets := fun d hd => hperm.mem_iff.mp hd
  have htotals : ∀ stats : Dataset → LoadStats,
      RunSummary.inserted ⟨datasets.map stats⟩ = RunSummary.inserted ⟨config.datasets.map stats⟩ ∧
        RunSummary.skipped ⟨datasets.map stats⟩ = RunSummary.skipped ⟨config.datasets.map stats⟩ :=
    fun stats => RunSummary.perm_totals (hperm.map stats)
  -- in memory each dataset is by itself; in a file they share the database
  rcases database_of_loadDatasets hvalid hrun with hmemory | ⟨place, db, hfile, hapart⟩
  · obtain ⟨hloadable, rfl, hfiles⟩ :=
      (loadDatasets_inMemory_eq_ok_iff hvalid hmemory).mp ⟨s, hrun, rfl⟩
    obtain ⟨s', hrun', hfiles'⟩ := (loadDatasets_inMemory_eq_ok_iff hvalid' hmemory).mpr
      ⟨fun d hd => hloadable d (hmem d hd), rfl, rfl⟩
    refine ⟨_, s', hrun', fun place => Or.inl ?_, ⟨_, rfl, rfl⟩, htotals _⟩
    rw [hfiles, hfiles']
  · obtain ⟨hloadable, rfl, hfiles⟩ :=
      (loadDatasets_inFile_eq_ok_iff hvalid hfile hapart).mp ⟨s, hrun, rfl⟩
    obtain ⟨s', hrun', hfiles'⟩ := (loadDatasets_inFile_eq_ok_iff hvalid' hfile
      fun d hd => hapart d (hmem d hd)).mpr ⟨fun d hd => hloadable d (hmem d hd), rfl, rfl⟩
    refine ⟨_, s', hrun', ?_, ⟨_, rfl, rfl⟩, htotals _⟩
    rw [hfiles, hfiles']
    refine Files.same_put f place (Database.same_addDatasets_of_perm ?_ ?_ db)
    · exact (hperm.map fun d => (d, rowsIn config f d)).symm
    · rw [List.map_map]
      exact (List.map_id config.datasets).symm ▸ hvalid.pairwise

end

/-! ## An example -/

/-- Two datasets in one order and in the other. -/
theorem loadDatasets_perm_swapped :
    ∃ summary s summary' s',
      (loadDatasets twoDatasets).start (filesWith mendedBytes) = (.ok summary, s) ∧
      (loadDatasets { twoDatasets with datasets := twoDatasets.datasets.reverse }).start
        (filesWith mendedBytes) = (.ok summary', s') ∧
      s.files.Same s'.files ∧ summary.inserted = 2 ∧ summary'.inserted = 2 := by
  obtain ⟨s, hrun, -⟩ := (loadDatasets_eq_ok_iff valid_twoDatasets
    (databaseFile_filesWith mendedBytes) (fileApart_filesWith mendedBytes)).mpr
      ⟨_, rfl, hasRows_mended, rfl, rfl⟩
  obtain ⟨-, summary', s', hrun', hfiles, -, hinserted, -⟩ :=
    loadDatasets_perm valid_twoDatasets (List.reverse_perm _) hrun
  have htwo : RunSummary.inserted ⟨statsOf {} [((⟨"A", "a.jsonl", "A"⟩ : Dataset), [bareRow "A"]),
      (⟨"B", "b.jsonl", "B"⟩, [bareRow "B"])]⟩ = 2 := by
    decide +kernel
  exact ⟨_, s, summary', s', hrun, hrun', hfiles, htwo, hinserted.trans htwo⟩

end Load

end CardArchive
