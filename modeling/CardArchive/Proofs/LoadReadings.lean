import CardArchive.Run.LoadReadings
import CardArchive.Proofs.FailedLoad
import CardArchive.Proofs.LoadAnywhere
import CardArchive.Proofs.ReadLines

/-!
# When a load comes to an end

An import ends with the first line that cannot be read, and counting does not: so a load ends unless
its data file never comes to an end when the lines are counted. A directory never does. Apart from
it, a load that goes on reading by reading is the load of the bytes of the file.

Once it is known what counting and importing come to, what is left of a load always ends. It is
written down as a run that takes the outcome of the import for granted.
-/

namespace CardArchive

namespace OpenRun

variable {ε α β : Type}

/-! ## Runs that come to an end -/

theorem exec_bind (r : OpenRun ε α) (k : α → OpenRun ε β) (s : RunState) :
    (r >>= k).exec s = (r.exec s).bind fun p => match p with
      | (.ok a, s') => (k a).exec s'
      | (.error e, s') => .some (.error e, s') := by
  have h : (r >>= k).exec s =
      (r.exec s).bind fun p => (ExceptT.bindCont k p.1).run p.2 := rfl
  rw [h]
  refine congrArg (r.exec s).bind (funext fun p => ?_)
  rcases p with ⟨_ | _, _⟩ <;> rfl

/-- The run comes to an end from every state, and does there what another does that always ends. -/
def EndsAs (r : OpenRun ε α) (p : Run ε α) : Prop := ∀ s, r.exec s = .some (p.exec s)

namespace EndsAs

theorem ofRun (p : Run ε α) : (OpenRun.ofRun p).EndsAs p := fun _ => rfl

theorem pure (a : α) : (Pure.pure a : OpenRun ε α).EndsAs (Pure.pure a) := fun _ => rfl

theorem bind {r : OpenRun ε α} {p : Run ε α} {k : α → OpenRun ε β} {q : α → Run ε β}
    (hr : r.EndsAs p) (hk : ∀ a, (k a).EndsAs (q a)) : (r >>= k).EndsAs (p >>= q) := by
  intro s
  rw [exec_bind, hr s, Run.exec_bind, Part.bind_some]
  rcases p.exec s with ⟨e | a, s'⟩
  · rfl
  · exact hk a s'

end EndsAs

theorem exec_await_some (a : α) (k : α → OpenRun ε β) (s : RunState) :
    (await (.some a) >>= k).exec s = (k a).exec s := by
  have h : (await (.some a) : OpenRun ε α).exec s = .some (.ok a, s) := Part.map_some _ _
  rw [exec_bind, h, Part.bind_some]

/-- After waiting for a value that never comes, nothing happens any more. -/
theorem exec_await_none (k : α → OpenRun ε β) (s : RunState) :
    (await .none >>= k).exec s = .none := by
  have h : (await .none : OpenRun ε α).exec s = .none := Part.map_none _
  rw [exec_bind, h, Part.bind_none]

end OpenRun

/-! ## Importing what is read -/

/-- A line that cannot be read is the first that is no row. -/
def Readings.UnreadableFirst (r : Readings) (fault : FileFault) : Prop :=
  ∃ (lines : List String) (last next : Nat), r.Yields 0 (lines.map .ok) last ∧
    r.nextLine last [] = .some (some (.error fault), next) ∧
    ∀ line ∈ lines, ∃ row, Row.ofLine line = .ok row

/-- Why an import stops at a line. -/
def LineFault.stop : LineFault → Stop
  | notText => .unreadable .notText
  | record e => .record e

namespace Import

variable {r : Readings} {place next last : Nat} {fault : FileFault} {line : String}

theorem addReadings_of_none (h : r.nextLine place [] = .some (none, next)) (i : Import) :
    i.addReadings r place = .some (i, none) := by
  refine fix_eq_some ?_
  rw [addReading, h, Part.map_some]

theorem addReadings_of_unreadable (h : r.nextLine place [] = .some (some (.error fault), next))
    (i : Import) : i.addReadings r place = .some (i, some (.unreadable fault)) := by
  refine fix_eq_some ?_
  rw [addReading, h, Part.map_some]

theorem addReadings_of_row (h : r.nextLine place [] = .some (some (.ok line), next)) {row : Row}
    (hrow : Row.ofLine line = .ok row) (i : Import) :
    i.addReadings r place = (i.add row).addReadings r next := by
  refine fix_eq_fix ?_
  rw [addReading, h, Part.map_some]
  simp only [hrow]

theorem addReadings_of_record (h : r.nextLine place [] = .some (some (.ok line), next))
    {e : RecordError} (hrow : Row.ofLine line = .error e) (i : Import) :
    i.addReadings r place = .some (i, some (.record e)) := by
  refine fix_eq_some ?_
  rw [addReading, h, Part.map_some]
  simp only [hrow]

/-- An import ends when the file does, and when a reading fails. -/
theorem addReadings_ends (h : r.ComesToEnd ∨ r.Fails) (i : Import) :
    ∃ p, i.addReadings r 0 = .some p := by
  obtain ⟨n, hstop⟩ : ∃ n, r.StopsAt n := by
    rcases h with ⟨n, hended⟩ | ⟨n, fault, hfailed⟩
    · exact ⟨n, Or.inl hended⟩
    · exact ⟨n, Or.inr ⟨fault, hfailed⟩⟩
  refine hstop.induction (motive := fun place => ∀ i : Import, ∃ p, i.addReadings r place = .some p)
    ?none ?failed ?line i
  case none => exact fun place next hnext i => ⟨_, addReadings_of_none hnext i⟩
  case failed => exact fun place next fault _ hnext i => ⟨_, addReadings_of_unreadable hnext i⟩
  case line =>
    intro place line next hnext ih i
    cases line with
    | error fault => exact ⟨_, addReadings_of_unreadable hnext i⟩
    | ok line =>
      cases hrow : Row.ofLine line with
      | error e => exact ⟨_, addReadings_of_record hnext hrow i⟩
      | ok row =>
        rw [addReadings_of_row hnext hrow]
        exact ih (i.add row)

/-- An import adds the rows before a line that cannot be read, and stops there. -/
theorem addReadings_of_unreadableFirst (h : r.UnreadableFirst fault) :
    ∃ rows : List Row, ∀ i : Import,
      i.addReadings r 0 = .some (rows.foldl add i, some (.unreadable fault)) := by
  obtain ⟨lines, last, next, hyields, hnext, hrows⟩ := h
  suffices hall : ∀ place, r.Yields place (lines.map .ok) last → ∃ rows : List Row, ∀ i : Import,
      i.addReadings r place = .some (rows.foldl add i, some (.unreadable fault)) from hall 0 hyields
  clear hyields
  induction lines with
  | nil =>
    rintro place ⟨⟩
    exact ⟨[], addReadings_of_unreadable hnext⟩
  | cons line rest ih =>
    intro place hyields
    obtain ⟨⟨row, hrow⟩, hrest⟩ := List.forall_mem_cons.mp hrows
    cases hyields with
    | cons hline hyields =>
      obtain ⟨rows, hadd⟩ := ih hrest _ hyields
      exact ⟨row :: rows, fun i => (addReadings_of_row hline hrow i).trans (hadd (i.add row))⟩

/-- The lines that are read are added as they are when they are given. -/
theorem addReadings_of_yields {lines : List (List UInt8)}
    (h : r.Yields place (lines.map Text.decodeLine) last)
    (hnone : r.nextLine last [] = .some (none, next)) (i : Import) :
    i.addReadings r place =
      .some ((i.addLines lines).1, (i.addLines lines).2.map LineFault.stop) := by
  induction lines generalizing place i with
  | nil =>
    cases h
    exact addReadings_of_none hnone i
  | cons line rest ih =>
    rw [List.map_cons] at h
    cases h with
    | cons hline hrest =>
      rw [Text.decodeLine] at hline
      -- a line that is no text was given as one that cannot be read
      cases htext : Text.decode line with
      | none =>
        have hbytes : Row.ofBytes line = .error .notText := by rw [Row.ofBytes, htext]
        rw [htext] at hline
        rw [addLines, hbytes]
        exact addReadings_of_unreadable hline i
      | some text =>
        have hbytes : Row.ofBytes line = (Row.ofLine text).mapError .record := by
          rw [Row.ofBytes, htext]
        rw [htext] at hline
        rw [addLines, hbytes]
        cases hrow : Row.ofLine text with
        | error e => exact addReadings_of_record hline hrow i
        | ok row => exact (addReadings_of_row hline hrow i).trans (ih hrest (i.add row))

end Import

/-- The second files are the first, but that the database may have become another with the same
rows. -/
def Files.NoRowsAdded (path : String) (f g : Files) : Prop :=
  g = f ∨ ∃ place db db', DatabaseFile f path place db ∧ g = f.put place (.database db') ∧
    ∀ name, (db'.rows? name).getD ∅ = (db.rows? name).getD ∅

theorem Database.getD_rows?_addTable (db : Database) (name other : String) :
    ((db.addTable name).rows? other).getD ∅ = (db.rows? other).getD ∅ := by
  rw [rows?, rows?, table?_addTable]
  cases db.table? other with
  | some table => rfl
  | none =>
    rw [Option.none_or]
    split <;> rfl

namespace Load

/-! ## What is left of a load -/

variable {config : Config} {c : Connection} {d : Dataset} {source : String}
  {counted imported : Readings} {total : Nat} {s : RunState}
  {outcome : Import → Import × Option Stop}

/-- An import with a known outcome. -/
def importAs (c : Connection) (d : Dataset) (source : String) (total : Nat)
    (outcome : Import → Import × Option Stop) : Run LoadError (Connection × LoadStats) := do
  let (db, name, rows) ← beginImport c d
  let (i, stop?) := outcome { rows := rows }
  endImport c d total db name i (stop?.map (Stop.error d source i.read))

/-- A load with a known number of lines and a known outcome of its import. -/
def loadAs (config : Config) (d : Dataset) (total : Nat) (outcome : Import → Import × Option Stop) :
    Run LoadError LoadStats := do
  let path := config.inputPath d
  Run.report (.info (path ++ " -> " ++ config.database))
  Run.report (.log (d.tag ++ ": reading " ++ path))
  let c ← connect config.database
  let c ← createTable c d.table
  let (_, stats) ← importAs c d path total outcome
  Run.report (.loaded stats)
  return stats

theorem exec_loadAs_opens (total : Nat) (outcome : Import → Import × Option Stop) (s : RunState) :
    (loadAs config d total outcome).exec s =
      ((connect config.database >>= (createTable · d.table)) >>= fun c => do
        let (_, stats) ← importAs c d (config.inputPath d) total outcome
        Run.report (.loaded stats)
        return stats).exec (announced config d s) := by
  rw [loadAs, Run.exec_bind_ok (Run.exec_report _ s), Run.exec_bind_ok (Run.exec_report _ _),
    bind_assoc]
  rfl

theorem endsAs_importReading (hread : ∀ i : Import, i.addReadings imported 0 = .some (outcome i)) :
    (importReading c d source imported total).EndsAs (importAs c d source total outcome) := by
  refine .bind (.ofRun _) fun target s => ?_
  simp only [hread]
  exact OpenRun.exec_await_some _ _ s

theorem exec_loadReading_of_counted (hcount : counted.countLines 0 0 = .some total)
    (hread : ∀ i : Import, i.addReadings imported 0 = .some (outcome i)) (s : RunState) :
    (loadReading config d counted imported).exec s =
      .some ((loadAs config d total outcome).exec s) := by
  have hrest : OpenRun.EndsAs _ (loadAs config d total outcome) :=
    .bind (.ofRun _) fun _ => .bind (.ofRun _) fun _ => .bind (.ofRun _) fun _ =>
      .bind (.ofRun _) fun _ => .bind (endsAs_importReading hread) fun _ =>
        .bind (.ofRun _) fun _ => .pure _
  rw [loadReading, hcount]
  exact (OpenRun.exec_await_some _ _ s).trans (hrest s)

theorem exec_loadReading_of_endless (h : ¬counted.ComesToEnd) (s : RunState) :
    (loadReading config d counted imported).exec s = .none := by
  rw [loadReading, Readings.countLines_eq_none_iff.mpr h]
  exact OpenRun.exec_await_none _ s

/-! ## An import that stops -/

/-- Nothing is stored when an import stops. -/
theorem exec_importAs_stopped {db : Database} {name : String} {old : Rows} {i : Import}
    {stop : Stop} (hdb : c.database s.files = .ok db) (ht : db.target d.table = .ok (name, old))
    (hstop : outcome { rows := old } = (i, some stop)) :
    (importAs c d source total outcome).exec s =
      (.error (stop.error d source i.read),
        (progressReports d total i).foldl RunState.report s) := by
  simp only [importAs, beginImport, endImport, Run.exec_bind, Run.exec_files, hdb,
    Run.exec_orFail_ok, ht, hstop, Run.exec_pure, Run.exec_reportAll, Option.map_some,
    Run.exec_throw]
  rfl

/-- A load whose import stops fails with the reason for it. It may have made the table. -/
theorem exec_loadAs_stopped {stop : Stop} {rows : List Row} (total : Nat)
    (hname : checkTable d.table = .ok ())
    (husable : LeadsToDatabase s.files config.database ∨ Connection.InMemory config.database)
    (hstop : ∀ i, outcome i = (rows.foldl Import.add i, some stop)) :
    ∃ s', (loadAs config d total outcome).exec s =
        (.error (stop.error d (config.inputPath d) rows.length), s') ∧
      (s'.files = s.files ∨ ∃ place db, DatabaseFile s.files config.database place db ∧
        s'.files = s.files.put place (.database (db.addTable d.table))) := by
  have hread (old : Rows) : (rows.foldl Import.add { rows := old }).read = rows.length :=
    (Import.foldl_add_read _ rows).trans (Nat.zero_add _)
  -- wherever the database is, the connection leads to it with the table made
  have hrun {c : Connection} {s₁ : RunState} {db : Database}
      (hopen : (connect config.database >>= (createTable · d.table)).exec (announced config d s) =
        (.ok c, s₁)) (hdb : c.database s₁.files = .ok (db.addTable d.table)) :
      ∃ s', (loadAs config d total outcome).exec s =
        (.error (stop.error d (config.inputPath d) rows.length), s') ∧ s'.files = s₁.files := by
    have ht := Database.target_of_checkTable hname (Database.rows?_addTable_self db d.table)
    have himport : (importAs c d (config.inputPath d) total outcome).exec s₁ = _ :=
      exec_importAs_stopped hdb ht (hstop _)
    rw [hread] at himport
    rw [exec_loadAs_opens, Run.exec_bind_ok hopen, Run.exec_bind_error himport]
    exact ⟨_, rfl, RunState.files_foldl_report _ _⟩
  rcases husable with ⟨place, db, hfile⟩ | hmemory
  · obtain ⟨s', hexec, hfiles⟩ := hrun
      (exec_openTable_file (s := announced config d s) hfile hname) (Connection.database_put _ _ _)
    exact ⟨s', hexec, Or.inr ⟨place, db, hfile, hfiles⟩⟩
  · obtain ⟨s', hexec, hfiles⟩ :=
      hrun (exec_openTable_inMemory hmemory hname (announced config d s)) rfl
    exact ⟨s', hexec, Or.inl hfiles⟩

/-! ## The bytes of a file -/

/-- An import of lines that are given is one with a known outcome. -/
theorem importLines_eq_importAs (c : Connection) (d : Dataset) (source : String)
    (lines : List (List UInt8)) (total : Nat) :
    importLines c d source lines total = importAs c d source total fun i =>
      ((i.addLines lines).1, (i.addLines lines).2.map LineFault.stop) := by
  simp only [importLines, importAs, beginImport, endImport, bind_assoc, pure_bind]
  refine bind_congr fun f => bind_congr fun db => bind_congr fun target => ?_
  refine bind_congr fun _ => ?_
  -- the two differ only in where the reason for stopping becomes an error
  cases (({ rows := target.2 } : Import).addLines lines).2 with
  | none => rfl
  | some fault => cases fault <;> rfl

/-- A load is one with known lines, unless its data file becomes the database in between. -/
theorem exec_loadDataset_eq_loadAs {lines : List (List UInt8)}
    (hlines : inputLines s.files (config.inputPath d) = .ok lines)
    (hempty : ¬AtEmptyDatabase config s.files d) :
    (loadDataset config d).exec s = (loadAs config d lines.length fun i =>
      ((i.addLines lines).1, (i.addLines lines).2.map LineFault.stop)).exec s := by
  rw [exec_loadDataset_opens hlines, exec_loadAs_opens, ← bind_assoc]
  rcases hopen : (connect config.database >>= (createTable · d.table)).exec
    (announced config d s) with ⟨e | c, s₁⟩
  · rw [Run.exec_bind_error hopen, Run.exec_bind_error hopen]
  · have hread : inputLines s₁.files (config.inputPath d) = .ok lines :=
      (inputLines_of_openTable (s := announced config d s) hlines hopen).resolve_right
        fun h => hempty h.1
    rw [Run.exec_bind_ok hopen, Run.exec_bind_ok hopen, Run.exec_bind,
      exec_importFile c lines.length hread, importLines_eq_importAs, ← Run.exec_bind]

/-- An open entry that is no directory gives the bytes of the data file. -/
theorem inputLines_of_open {e : Entry} {path : String} {f : Files} (hopen : f.open? path = .ok e)
    (hne : e ≠ .directory) : ∃ bytes, inputLines f path = .ok (Text.splitLines bytes) ∧
      ∀ r : Readings, e.Gives r → r.Deliver 0 bytes := by
  cases e with
  | directory => exact absurd rfl hne
  | file bytes =>
    refine ⟨bytes, inputLines_eq_ok_iff.mpr ⟨bytes, ?_, rfl⟩, fun r h => h⟩
    rw [Files.read, hopen]
    rfl
  | database db =>
    refine ⟨Files.databaseBytes, inputLines_eq_ok_iff.mpr ⟨_, ?_, rfl⟩, fun r h => h⟩
    rw [Files.read, hopen]
    rfl

/-- Where readings come to the bytes of the data file, a load is the load of these bytes. -/
theorem exec_loadReading_of_gives {e : Entry} (hopen : s.files.open? (config.inputPath d) = .ok e)
    (hne : e ≠ .directory) (hempty : ¬AtEmptyDatabase config s.files d)
    (hcounted : e.Gives counted) (himported : e.Gives imported) :
    (loadReading config d counted imported).exec s = .some ((loadDataset config d).exec s) := by
  obtain ⟨bytes, hlines, hdeliver⟩ := inputLines_of_open hopen hne
  obtain ⟨last, final, hyields, hnone⟩ := Readings.yields_of_deliver (hdeliver counted hcounted)
  have hcount := Readings.countLines_of_yields hyields hnone 0
  rw [List.length_map, Nat.zero_add] at hcount
  obtain ⟨last', final', hyields', hnone'⟩ :=
    Readings.yields_of_deliver (hdeliver imported himported)
  rw [exec_loadReading_of_counted hcount (Import.addReadings_of_yields hyields' hnone'),
    exec_loadDataset_eq_loadAs hlines hempty]

theorem inputLines_of_directory {path : String} {f : Files} (hopen : f.open? path = .ok .directory) :
    inputLines f path = .error (.endless path) := by
  rw [inputLines, Files.read, hopen]
  rfl

/-- A directory never comes to an end. -/
theorem not_comesToEnd_of_directory (h : Entry.directory.Gives counted) : ¬counted.ComesToEnd := by
  rintro ⟨n, hended, -⟩
  rw [h n] at hended
  cases hended

/-! ## Whatever is read -/

/-- Counting decides whether a load comes to an end. It passes over readings that fail, so it goes
on for ever where the data file does not end, and a directory never does. Where counting comes to an
end, the import ends with the file or with a reading that fails; if a line that cannot be read is
the first that is no row, then this is what the load fails with, and no row is added. What can be
opened and is no directory is loaded as its bytes are, unless the database is put into it before
they are imported; of a directory `loadDataset` says that it is endless. -/
theorem loadReading_ends_where_counting_ends (config : Config) (d : Dataset)
    (counted imported : Readings) (s : RunState) :
    (¬counted.ComesToEnd → (loadReading config d counted imported).exec s = .none) ∧
    (counted.ComesToEnd → imported.ComesToEnd ∨ imported.Fails →
      ∃ out s', (loadReading config d counted imported).exec s = .some (out, s')) ∧
    (∀ fault, counted.ComesToEnd → imported.UnreadableFirst fault →
      checkTable d.table = .ok () →
      LeadsToDatabase s.files config.database ∨ Connection.InMemory config.database →
      ∃ s', (loadReading config d counted imported).exec s =
          .some (.error (.io (config.inputPath d) fault), s') ∧
        Files.NoRowsAdded config.database s.files s'.files) ∧
    ∀ e, s.files.open? (config.inputPath d) = .ok e → e.Gives counted → e.Gives imported →
      (e = .directory → (loadReading config d counted imported).exec s = .none ∧
        (loadDataset config d).exec s = (.error (.endless (config.inputPath d)), s)) ∧
      (e ≠ .directory → ¬AtEmptyDatabase config s.files d →
        (loadReading config d counted imported).exec s = .some ((loadDataset config d).exec s)) := by
  refine ⟨fun hnot => exec_loadReading_of_endless hnot s, fun hcounted himported => ?ends,
    fun fault hcounted hfirst hname husable => ?unreadable, fun e hopen hcounted himported =>
      ⟨?directory, fun hne hempty =>
        exec_loadReading_of_gives hopen hne hempty hcounted himported⟩⟩
  case ends =>
    obtain ⟨total, hcount⟩ := Readings.countLines_of_comesToEnd hcounted
    choose outcome hread using Import.addReadings_ends himported
    exact ⟨_, _, exec_loadReading_of_counted hcount hread s⟩
  case unreadable =>
    obtain ⟨total, hcount⟩ := Readings.countLines_of_comesToEnd hcounted
    obtain ⟨rows, hread⟩ := Import.addReadings_of_unreadableFirst hfirst
    obtain ⟨s', hexec, hfiles⟩ := exec_loadAs_stopped total hname husable fun _ => rfl
    refine ⟨s', (exec_loadReading_of_counted hcount hread s).trans (congrArg Part.some hexec), ?_⟩
    rcases hfiles with hsame | ⟨place, db, hfile, hput⟩
    · exact Or.inl hsame
    · exact Or.inr ⟨place, db, _, hfile, hput, Database.getD_rows?_addTable db d.table⟩
  case directory =>
    rintro rfl
    exact ⟨exec_loadReading_of_endless (not_comesToEnd_of_directory hcounted) s,
      exec_loadDataset_unreadable (inputLines_of_directory hopen)⟩

/-! ## A directory -/

/-- There is a directory where the data file of a dataset should be. -/
def filesWithDirectory : Files :=
  (Files.empty.put ["data"] .directory).put ["a.jsonl", "data"] .directory

/-- Every reading fails, and the load fails at none of them. -/
theorem loadReading_directory_endless :
    ∃ d ∈ twoDatasets.datasets, ∃ r : Readings,
      filesWithDirectory.open? (twoDatasets.inputPath d) = .ok .directory ∧
      Entry.directory.Gives r ∧
      (loadReading twoDatasets d r r).exec ⟨filesWithDirectory, []⟩ = .none := by
  have hgives : Entry.directory.Gives fun _ => .failed .isADirectory := fun _ => rfl
  exact ⟨⟨"A", "a.jsonl", "A"⟩, List.mem_cons_self, _, rfl, hgives,
    exec_loadReading_of_endless (not_comesToEnd_of_directory hgives) _⟩

end Load

end CardArchive
