import CardArchive.Run.Load
import CardArchive.Proofs.Execution
import CardArchive.Proofs.Tables

/-!
# The file of a database

Loading changes the files at one place only, that of the database. Nothing else depends on what is
at that place as long as it is no directory: every way that leads somewhere passes through
directories, so no way passes through the database. A path therefore leads to the same place, and a
data file at another place reads the same, whatever the database has become.
-/

namespace CardArchive

namespace Files

/-! ## Ways that avoid a place -/

theorem ext_lookup {f g : Files} (h : ∀ place, f.lookup place = g.lookup place) : f = g := by
  cases f
  cases g
  exact congrArg Files.mk (funext h)

@[simp] theorem lookup_put_self (f : Files) (place : Location) (e : Entry) :
    (f.put place e).lookup place = some e := by
  rw [lookup_put, if_pos rfl]

theorem lookup_put_of_ne (f : Files) {place other : Location} (e : Entry) (h : other ≠ place) :
    (f.put place e).lookup other = f.lookup other := by
  rw [lookup_put, if_neg h]

@[simp] theorem put_put (f : Files) (place : Location) (e e' : Entry) :
    (f.put place e).put place e' = f.put place e' := by
  refine ext_lookup fun other => ?_
  by_cases h : other = place
  · simp [h]
  · simp [lookup_put_of_ne, h]

/-- The files agree at all places but one. -/
def AgreeOff (place : Location) (f g : Files) : Prop :=
  ∀ other, other ≠ place → f.lookup other = g.lookup other

variable {f g : Files} {place : Location}

theorem AgreeOff.symm (h : AgreeOff place f g) : AgreeOff place g f :=
  fun other hne => (h other hne).symm

theorem AgreeOff.trans {k : Files} (hfg : AgreeOff place f g) (hgk : AgreeOff place g k) :
    AgreeOff place f k :=
  fun other hne => (hfg other hne).trans (hgk other hne)

theorem agreeOff_put (f : Files) (place : Location) (e : Entry) :
    AgreeOff place f (f.put place e) :=
  fun _ hne => (lookup_put_of_ne f e hne).symm

/-- Names lead to the same place when files agree at all places but one that is no directory. -/
theorem AgreeOff.follow (h : AgreeOff place f g) (hf : f.lookup place ≠ some .directory)
    {start finish : Location} {names : List String} (hfollow : f.follow start names = .ok finish) :
    g.follow start names = .ok finish := by
  induction names generalizing start with
  | nil => exact hfollow
  | cons name rest ih =>
    rw [Files.follow] at hfollow ⊢
    cases hstart : f.lookup start with
    | none => rw [hstart] at hfollow; cases hfollow
    | some entry =>
      cases entry with
      | file bytes => rw [hstart] at hfollow; cases hfollow
      | database db => rw [hstart] at hfollow; cases hfollow
      | directory =>
        have hne : start ≠ place := fun heq => hf (heq ▸ hstart)
        rw [hstart] at hfollow
        rw [← h start hne, hstart]
        -- the four ways to go on from a directory, each to be followed in both files
        simp only at hfollow ⊢
        split at hfollow
        · rw [if_pos ‹_›]; exact ih hfollow
        · rw [if_neg ‹_›]
          split at hfollow
          · rw [if_pos ‹_›]; exact ih hfollow
          · rw [if_neg ‹_›]
            split at hfollow
            · cases hfollow
            · rw [if_neg ‹_›]; exact ih hfollow

theorem AgreeOff.locate (h : AgreeOff place f g) (hf : f.lookup place ≠ some .directory)
    {path : String} {finish : Location} (hlocate : f.locate path = .ok finish) :
    g.locate path = .ok finish := by
  unfold Files.locate at hlocate ⊢
  split at hlocate
  · cases hlocate
  · rw [if_neg ‹_›]
    split at hlocate
    · cases hlocate
    · rw [if_neg ‹_›]
      split at hlocate
      · cases hlocate
      · rw [if_neg ‹_›]
        exact h.follow hf hlocate

/-- What can be read has a place, and is what lies there. -/
theorem read_eq_ok_iff {path : String} {bytes : List UInt8} :
    f.read path = .ok bytes ↔ ∃ at_, f.locate path = .ok at_ ∧
      (f.lookup at_ = some (.file bytes) ∨
        (∃ db, f.lookup at_ = some (.database db)) ∧ bytes = databaseBytes) := by
  unfold Files.read Files.open?
  cases hl : f.locate path with
  | error fault => simp [bind, Except.bind]
  | ok at_ =>
    simp only [bind, Except.bind, Except.ok.injEq]
    cases hat : f.lookup at_ with
    | none => simp [hat]
    | some entry => cases entry <;> simp [hat, eq_comm]

/-- A file at another place reads the same. -/
theorem AgreeOff.read (h : AgreeOff place f g) (hf : f.lookup place ≠ some .directory)
    {path : String} (hne : f.locate path ≠ .ok place) {bytes : List UInt8}
    (hread : f.read path = .ok bytes) : g.read path = .ok bytes := by
  obtain ⟨at_, hl, hat⟩ := read_eq_ok_iff.mp hread
  have hat_ne : at_ ≠ place := fun heq => hne (heq ▸ hl)
  rw [h at_ hat_ne] at hat
  exact read_eq_ok_iff.mpr ⟨at_, h.locate hf hl, hat⟩

/-! ## Files that differ at one place -/

/-- What differs at one place only is the same once that place is written. -/
theorem AgreeOff.put_eq (h : AgreeOff place f g) (e : Entry) : f.put place e = g.put place e := by
  refine ext_lookup fun other => ?_
  by_cases hne : other = place
  · simp [hne]
  · rw [lookup_put_of_ne f e hne, lookup_put_of_ne g e hne, h other hne]

theorem AgreeOff.eq_put (h : AgreeOff place f g) {e : Entry} (he : g.lookup place = some e) :
    g = f.put place e := by
  refine ext_lookup fun other => ?_
  by_cases hne : other = place
  · simp [hne, he]
  · rw [lookup_put_of_ne f e hne, h other hne]

/-- The files with what others have at a place. -/
def takeAt (f : Files) (place : Location) (g : Files) : Files :=
  ⟨fun other => if other = place then g.lookup other else f.lookup other⟩

theorem lookup_takeAt_self (f : Files) (place : Location) (g : Files) :
    (f.takeAt place g).lookup place = g.lookup place := if_pos rfl

theorem agreeOff_takeAt (f : Files) (place : Location) (g : Files) :
    AgreeOff place f (f.takeAt place g) := fun _ hne => (if_neg hne).symm

end Files

/-! ## Databases in files -/

/-- A path leads to a database in a file. A place where nothing is yet counts as an empty one, since
the file is made when the database is opened. Addresses are taken for names of files, and the files
that stand beside a database while it is used are no part of it, as is said with connections. -/
structure DatabaseFile (f : Files) (path : String) (place : Location) (db : Database) : Prop where
  inFile : path ≠ Connection.memoryPath
  leads : f.locate path = .ok place
  /-- The database is at the place, or nothing is. -/
  holds : Connection.databaseAt f place = .ok db ∨ f.lookup place = none ∧ db = {}

namespace DatabaseFile

variable {f g : Files} {path : String} {place : Location} {db : Database}

theorem lookup_ne_directory (h : DatabaseFile f path place db) :
    f.lookup place ≠ some .directory := by
  intro hd
  rcases h.holds with hdb | ⟨hnone, -⟩
  · rw [Connection.databaseAt, hd] at hdb
    cases hdb
  · rw [hnone] at hd
    cases hd

theorem path_ne_empty (h : DatabaseFile f path place db) : path.isEmpty = false := by
  refine Bool.eq_false_iff.mpr fun he => ?_
  have hleads := h.leads
  rw [Files.locate, if_pos he] at hleads
  cases hleads

theorem unique {db' : Database} (h : DatabaseFile f path place db)
    (h' : DatabaseFile f path place db') : db = db' := by
  rcases h.holds with hdb | ⟨hnone, rfl⟩ <;> rcases h'.holds with hdb' | ⟨hnone', rfl⟩
  · exact Except.ok.inj (hdb.symm.trans hdb')
  · rw [Connection.databaseAt, hnone'] at hdb
    cases hdb
  · rw [Connection.databaseAt, hnone] at hdb'
    cases hdb'
  · rfl

/-- A database may be changed without changing the way to it. -/
theorem of_agreeOff (h : DatabaseFile f path place db) (hagree : Files.AgreeOff place f g)
    {db' : Database} (hdb : g.lookup place = some (.database db')) :
    DatabaseFile g path place db' where
  inFile := h.inFile
  leads := hagree.locate h.lookup_ne_directory h.leads
  holds := Or.inl (by rw [Connection.databaseAt, hdb])

theorem put (h : DatabaseFile f path place db) (db' : Database) :
    DatabaseFile (f.put place (.database db')) path place db' :=
  h.of_agreeOff (Files.agreeOff_put f place _) (Files.lookup_put_self f place _)

/-- Opening a database makes its file if need be, and touches nothing else. -/
theorem connect (h : DatabaseFile f path place db) :
    ∃ g, Connection.connect f path = .ok (.file place, g) ∧
      Connection.databaseAt g place = .ok db ∧ ∀ e, g.put place e = f.put place e := by
  have hfile : (path = Connection.memoryPath || path.isEmpty) = false := by
    simp [h.inFile, h.path_ne_empty]
  rcases h.holds with hdb | ⟨hnone, rfl⟩
  · refine ⟨f, ?_, hdb, fun _ => rfl⟩
    simp only [Connection.connect, hfile, Bool.false_eq_true, if_false, h.leads]
    rw [Connection.databaseAt] at hdb
    cases hl : f.lookup place with
    | none => rw [hl] at hdb; cases hdb
    | some entry =>
      cases entry with
      | directory => exact absurd hl h.lookup_ne_directory
      | file bytes => rfl
      | database old => rfl
  · refine ⟨f.put place (.file []), ?_, ?_, fun e => Files.put_put _ _ _ e⟩
    · simp only [Connection.connect, hfile, Bool.false_eq_true, if_false, h.leads, hnone]
    · rw [Connection.databaseAt, Files.lookup_put_self]

end DatabaseFile

/-- A database that was put at a place is what a connection to it leads to. -/
theorem Connection.database_put (f : Files) (place : Location) (db : Database) :
    Connection.database (f.put place (.database db)) (.file place) = .ok db := by
  rw [Connection.database, databaseAt, Files.lookup_put_self]

/-! ## Opening a database and making a table -/

namespace Load

variable {s : RunState} {path table : String} {place : Location} {db : Database}

theorem exec_connect_ok {c : Connection} {f : Files}
    (h : Connection.connect s.files path = .ok (c, f)) :
    (connect path).exec s = (.ok c, { s with files := f }) := by
  simp only [connect, Run.exec_bind, Run.exec_files, h, Run.exec_orFail_ok, Run.exec_setFiles,
    Run.exec_pure]

theorem exec_connect_error {e : DatabaseError}
    (h : Connection.connect s.files path = .error e) :
    (connect path).exec s = (.error (.database e), s) := by
  simp only [connect, Run.exec_bind, Run.exec_files, h, Run.exec_orFail_error]

/-- Opening a database makes its file if need be, and touches nothing else. -/
theorem exec_connect (h : DatabaseFile s.files path place db) :
    ∃ f, (connect path).exec s = (.ok (.file place), { s with files := f }) ∧
      Connection.databaseAt f place = .ok db ∧ ∀ e, f.put place e = s.files.put place e := by
  obtain ⟨f, hconnect, hat, hput⟩ := h.connect
  exact ⟨f, exec_connect_ok hconnect, hat, hput⟩

theorem exec_createTable (hdb : Connection.databaseAt s.files place = .ok db)
    (hname : checkTable table = .ok ()) :
    (createTable (.file place) table).exec s =
      (.ok (.file place),
        { s with files := s.files.put place (.database (db.addTable table)) }) := by
  simp only [createTable, Run.exec_bind, Run.exec_files, Connection.database, hdb,
    Run.exec_orFail_ok, Database.create_of_checkTable db hname, Connection.store,
    Run.exec_setFiles, Run.exec_pure]

/-- Whatever the name is, a table is made by storing a database over the connection. -/
theorem files_of_createTable {c c' : Connection} {s' : RunState}
    (h : (createTable c table).exec s = (.ok c', s')) :
    ∃ made, s'.files = (c.store s.files made).2 := by
  cases hdb : c.database s.files with
  | error e =>
    simp only [createTable, Run.exec_bind, Run.exec_files, hdb, Run.exec_orFail_error] at h
    cases h
  | ok db =>
    cases hmade : db.create table with
    | error e =>
      simp only [createTable, Run.exec_bind, Run.exec_files, hdb, Run.exec_orFail_ok, hmade,
        Run.exec_orFail_error] at h
      cases h
    | ok made =>
      simp only [createTable, Run.exec_bind, Run.exec_files, hdb, Run.exec_orFail_ok, hmade,
        Run.exec_setFiles, Run.exec_pure] at h
      obtain ⟨-, rfl⟩ := Prod.mk.inj h
      exact ⟨made, rfl⟩

/-- When the path leads to a database in a file, the table is made there. -/
theorem exec_openTable_file (h : DatabaseFile s.files path place db)
    (hname : checkTable table = .ok ()) :
    (connect path >>= (createTable · table)).exec s =
      (.ok (.file place),
        { s with files := s.files.put place (.database (db.addTable table)) }) := by
  obtain ⟨f, hconnect, hat, hput⟩ := exec_connect h
  have hcreate := exec_createTable (s := { s with files := f }) hat hname
  rw [hput] at hcreate
  exact (Run.exec_bind_ok hconnect).trans hcreate

end Load

end CardArchive
