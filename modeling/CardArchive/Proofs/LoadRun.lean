import CardArchive.Proofs.LoadDataset
import CardArchive.Proofs.ValidConfig

/-!
# Loading a list of datasets

A run that succeeds has added the rows of each data file to the table of its dataset, one dataset
after the other. A run that fails has first succeeded on the datasets before the one that fails.
Both are followed here along the list of datasets; what is carried along is that the database is
still in its file and that the other files are as they were.
-/

namespace CardArchive

/-- The database with the rows of some datasets added, one dataset after the other. -/
def Database.addDatasets (db : Database) (contents : List (Dataset × List Row)) : Database :=
  contents.foldl (fun db p => db.addRows p.1.table p.2) db

namespace Database

theorem addDatasets_cons (db : Database) (p : Dataset × List Row)
    (rest : List (Dataset × List Row)) :
    db.addDatasets (p :: rest) = (db.addRows p.1.table p.2).addDatasets rest := rfl

theorem addDatasets_append (db : Database) (first second : List (Dataset × List Row)) :
    db.addDatasets (first ++ second) = (db.addDatasets first).addDatasets second :=
  List.foldl_append

/-- A table that belongs to none of the datasets stays as it is. -/
theorem table?_addDatasets_of_ne {name : String} {contents : List (Dataset × List Row)}
    (h : ∀ p ∈ contents, Text.sameName p.1.table name = false) (db : Database) :
    (db.addDatasets contents).table? name = db.table? name := by
  induction contents generalizing db with
  | nil => rfl
  | cons p rest ih =>
    rw [addDatasets_cons, ih fun q hq => h q (List.mem_cons_of_mem _ hq),
      table?_addRows_of_ne db p.2 (h p List.mem_cons_self)]

end Database

namespace Load

/-! ## One dataset more -/

section

variable {config : Config} {d : Dataset} {rest : List Dataset} {s s₁ s' : RunState}

theorem exec_loadEach_cons_ok {first : LoadStats} {more : List LoadStats}
    (hd : (loadDataset config d).exec s = (.ok first, s₁))
    (hrest : (loadEach config rest).exec s₁ = (.ok more, s')) :
    (loadEach config (d :: rest)).exec s = (.ok (first :: more), s') := by
  rw [loadEach, Run.exec_bind_ok hd, Run.exec_bind_ok hrest]
  rfl

theorem loadEach_cons_eq_ok {stats : List LoadStats}
    (h : (loadEach config (d :: rest)).exec s = (.ok stats, s')) :
    ∃ first more s₁, (loadDataset config d).exec s = (.ok first, s₁) ∧
      (loadEach config rest).exec s₁ = (.ok more, s') ∧ stats = first :: more := by
  rw [loadEach] at h
  rcases hd : (loadDataset config d).exec s with ⟨e | first, s₁⟩
  · rw [Run.exec_bind_error hd] at h
    cases h
  · rw [Run.exec_bind_ok hd] at h
    rcases hrest : (loadEach config rest).exec s₁ with ⟨e | more, s₂⟩
    · rw [Run.exec_bind_error hrest] at h
      cases h
    · rw [Run.exec_bind_ok hrest] at h
      cases h
      exact ⟨first, more, s₁, rfl, hrest, rfl⟩

/-- The first dataset fails, or it is loaded and one of the others fails. -/
theorem loadEach_cons_eq_error {e : LoadError}
    (h : (loadEach config (d :: rest)).exec s = (.error e, s')) :
    (loadDataset config d).exec s = (.error e, s') ∨
      ∃ first s₁, (loadDataset config d).exec s = (.ok first, s₁) ∧
        (loadEach config rest).exec s₁ = (.error e, s') := by
  rw [loadEach] at h
  rcases hd : (loadDataset config d).exec s with ⟨e' | first, s₁⟩
  · rw [Run.exec_bind_error hd] at h
    cases h
    exact Or.inl rfl
  · rw [Run.exec_bind_ok hd] at h
    rcases hrest : (loadEach config rest).exec s₁ with ⟨e' | more, s₂⟩
    · rw [Run.exec_bind_error hrest] at h
      cases h
      exact Or.inr ⟨first, s₁, rfl, hrest⟩
    · rw [Run.exec_bind_ok hrest] at h
      cases h

end

/-! ## Runs that succeed -/

/-- The counts of datasets that are loaded one after the other. -/
def statsOf : Database → List (Dataset × List Row) → List LoadStats
  | _, [] => []
  | db, (d, rows) :: rest => (importOf db d rows).stats d :: statsOf (db.addRows d.table rows) rest

/-- What is left when the rows of some datasets were added to a database in a file. -/
structure Stored (config : Config) (f : Files) (place : Location) (db : Database) (g : Files) :
    Prop where
  file : DatabaseFile g config.database place db
  /-- The other files are as they were. -/
  agree : Files.AgreeOff place f g

section

variable {config : Config} {place : Location} {db : Database} {datasets : List Dataset}
  {s s' : RunState}

theorem Stored.put {f : Files} (h : DatabaseFile f config.database place db) (db' : Database) :
    Stored config f place db' (f.put place (.database db')) :=
  ⟨h.put db', Files.agreeOff_put f place _⟩

theorem Stored.trans {f g k : Files} {db' : Database} (h : Stored config f place db g)
    (h' : Stored config g place db' k) : Stored config f place db' k :=
  ⟨h'.file, h.agree.trans h'.agree⟩

/-- A run that succeeds has added the rows of each dataset. Its data files are apart from the
database, so they are at the end what they were at the start. -/
theorem loadEach_eq_ok {stats : List LoadStats}
    (hfile : DatabaseFile s.files config.database place db)
    (hnames : ∀ d ∈ datasets, checkTable d.table = .ok ())
    (h : (loadEach config datasets).exec s = (.ok stats, s')) :
    ∃ contents, contents.map Prod.fst = datasets ∧ stats = statsOf db contents ∧
      Stored config s.files place (db.addDatasets contents) s'.files ∧
      (datasets ≠ [] → s'.files.lookup place = some (.database (db.addDatasets contents))) ∧
      ∀ p ∈ contents, FileApart config s.files place p.1 ∧ HasRows config s.files p.1 p.2 := by
  induction datasets generalizing s db stats with
  | nil =>
    obtain ⟨hstats, rfl⟩ := Prod.mk.inj h
    cases hstats
    exact ⟨[], rfl, rfl, ⟨hfile, fun _ _ => rfl⟩, fun hne => absurd rfl hne,
      List.forall_mem_nil _⟩
  | cons d rest ih =>
    obtain ⟨first, more, s₁, hd, hrest, rfl⟩ := loadEach_cons_eq_ok h
    obtain ⟨lines, rows, hapart, hlines, hrows, rfl, hput⟩ :=
      loadDataset_eq_ok hfile (hnames d List.mem_cons_self) hd
    have hstored : Stored config s.files place (db.addRows d.table rows) s₁.files :=
      hput ▸ Stored.put hfile _
    obtain ⟨contents, hmap, rfl, hall, hlast, hread⟩ := ih hstored.file
      (fun a ha => hnames a (List.mem_cons_of_mem _ ha)) hrest
    -- the later data files are apart from the database that the first dataset leaves, and so they
    -- were from the one before
    refine ⟨(d, rows) :: contents, by rw [List.map_cons, hmap], rfl, hstored.trans hall, ?_, ?_⟩
    · intro _
      by_cases hnil : rest = []
      · subst hnil
        obtain ⟨-, rfl⟩ := Prod.mk.inj hrest
        rw [List.map_eq_nil_iff.mp hmap, hput]
        exact Files.lookup_put_self _ _ _
      · exact hlast hnil
    · refine List.forall_mem_cons.mpr ⟨⟨hapart, lines, hlines, hrows⟩, fun p hp => ?_⟩
      obtain ⟨hapart₁, hrows₁⟩ := hread p hp
      exact ⟨hapart₁.of_agreeOff hstored.agree.symm hfile.lookup_ne_directory,
        hrows₁.of_agreeOff hstored.agree.symm hstored.file.lookup_ne_directory hapart₁⟩

/-- Datasets whose data files have only rows and are apart from the database can be loaded. -/
theorem exec_loadEach_of_hasRows {contents : List (Dataset × List Row)}
    (hfile : DatabaseFile s.files config.database place db)
    (hnames : ∀ p ∈ contents, checkTable p.1.table = .ok ())
    (hapart : ∀ p ∈ contents, FileApart config s.files place p.1)
    (hrows : ∀ p ∈ contents, HasRows config s.files p.1 p.2) :
    ∃ s', (loadEach config (contents.map Prod.fst)).exec s = (.ok (statsOf db contents), s') := by
  induction contents generalizing s db with
  | nil => exact ⟨s, rfl⟩
  | cons p rest ih =>
    obtain ⟨d, rows⟩ := p
    obtain ⟨lines, hlines, hl⟩ := hrows _ List.mem_cons_self
    have hd := exec_loadDataset_ok hfile (hnames _ List.mem_cons_self)
      (hapart _ List.mem_cons_self) hlines hl
    have hstored : Stored config s.files place (db.addRows d.table rows)
        ((loadDataset config d).exec s).2.files := by
      rw [hd]
      exact Stored.put hfile _
    -- the first dataset changes the database only, so the other data files are what they were
    have hapart' : ∀ q ∈ rest, FileApart config s.files place q.1 :=
      fun q hq => hapart q (List.mem_cons_of_mem _ hq)
    obtain ⟨s', hrest⟩ := ih hstored.file (fun q hq => hnames q (List.mem_cons_of_mem _ hq))
      (fun q hq => (hapart' q hq).of_agreeOff hstored.agree hstored.file.lookup_ne_directory)
      (fun q hq => (hrows q (List.mem_cons_of_mem _ hq)).of_agreeOff hstored.agree
        hfile.lookup_ne_directory (hapart' q hq))
    have hfirst : (loadDataset config d).exec s =
        (.ok ((importOf db d rows).stats d), ((loadDataset config d).exec s).2) := by
      rw [hd]
    exact ⟨s', exec_loadEach_cons_ok hfirst hrest⟩

/-! ## Runs that fail -/

/-- A run that fails has succeeded on the datasets before the one that fails. -/
theorem loadEach_eq_error {e : LoadError}
    (h : (loadEach config datasets).exec s = (.error e, s')) :
    ∃ earlier d later stats before, datasets = earlier ++ d :: later ∧
      (loadEach config earlier).exec s = (.ok stats, before) ∧
      (loadDataset config d).exec before = (.error e, s') := by
  induction datasets generalizing s with
  | nil => cases (Prod.mk.inj h).1
  | cons d rest ih =>
    rcases loadEach_cons_eq_error h with hd | ⟨first, s₁, hd, hrest⟩
    · exact ⟨[], d, rest, [], s, rfl, rfl, hd⟩
    · obtain ⟨earlier, d', later, stats, before, rfl, hok, herr⟩ := ih hrest
      have hearlier := exec_loadEach_cons_ok hd hok
      exact ⟨d :: earlier, d', later, first :: stats, before, rfl, hearlier, herr⟩

/-- The datasets of a configuration are loaded between reports. -/
theorem start_loadDatasets (config : Config) (f : Files) :
    ∃ s, s.files = f ∧ ∀ out s', (loadEach config config.datasets).exec s = (out, s') →
      (loadDatasets config).start f = match out with
        | .ok stats => (.ok ⟨stats⟩, s'.report .noProgress)
        | .error e => (.error e, s') := by
  refine ⟨(((⟨f, []⟩ : RunState).report (.phase .preparing)).report (.log (toString
    config.datasets.length ++ " datasets into " ++ config.database))).report (.phase .loading),
    rfl, fun out s' h => ?_⟩
  rw [Run.start_eq_exec, loadDatasets, Run.exec_bind_ok (Run.exec_report _ _),
    Run.exec_bind_ok (Run.exec_report _ _), Run.exec_bind_ok (Run.exec_report _ _), Run.exec_bind,
    h]
  cases out <;> rfl

theorem blind_loadEach (config : Config) (datasets : List Dataset) :
    (loadEach config datasets).Blind := by
  induction datasets with
  | nil => exact .pure _
  | cons d rest ih =>
    exact .bind (blind_loadDataset config d) fun _ => .bind ih fun _ => .pure _

/-- Loading the datasets of a configuration succeeds when loading each of them does. -/
theorem start_loadDatasets_eq_ok_iff {f g : Files} {summary : RunSummary} :
    (∃ s, (loadDatasets config).start f = (.ok summary, s) ∧ s.files = g) ↔
      ∃ s, (loadEach config config.datasets).start f = (.ok summary.datasets, s) ∧
        s.files = g := by
  obtain ⟨first, rfl, hstart⟩ := start_loadDatasets config f
  constructor
  · rintro ⟨s, hs, rfl⟩
    rcases hrun : (loadEach config config.datasets).exec first with ⟨e | stats, s'⟩
    · rw [hstart _ _ hrun] at hs
      cases hs
    · rw [hstart _ _ hrun] at hs
      cases hs
      obtain ⟨t, ht, hfiles⟩ := (blind_loadEach config config.datasets).start_of_exec hrun
      exact ⟨t, ht, hfiles⟩
  · rintro ⟨s, hs, rfl⟩
    obtain ⟨s', hrun, hfiles⟩ := (blind_loadEach config config.datasets).transfer hs
      (t := first) rfl
    exact ⟨_, hstart _ _ hrun, hfiles⟩

end

end Load

end CardArchive
