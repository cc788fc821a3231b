import CardArchive.Run.Convert
import CardArchive.Proofs.DatabaseFile

/-!
# Converting a list of dumps

For the files, converting is a function: reports have no part in it. Here it is written down as
such, for one dataset and for a list of them, and a run is shown to compute it. The data file of a
dataset is written in one step, after the whole of its dump was read and all its cards were taken,
so a dataset either has all of its data file written or leaves the files as it found them. What a
list of datasets does follows by induction on the list.
-/

namespace CardArchive

namespace Files

variable {f g : Files} {path : String} {bytes : List UInt8}

theorem write_eq_ok_iff : f.write path bytes = .ok g ↔ ∃ place, f.locate path = .ok place ∧
    f.lookup place ≠ some .directory ∧ g = f.put place (.file bytes) := by
  unfold Files.write
  cases hl : f.locate path with
  | error fault => simp [bind, Except.bind]
  | ok place =>
    simp only [bind, Except.bind, Except.ok.injEq]
    cases hp : f.lookup place with
    | none => simp [hp, eq_comm]
    | some entry => cases entry <;> simp [hp, eq_comm]

theorem read_of_write (h : f.write path bytes = .ok g) : g.read path = .ok bytes := by
  obtain ⟨place, hl, hd, rfl⟩ := write_eq_ok_iff.mp h
  have hplace : (f.put place (.file bytes)).locate path = .ok place :=
    (agreeOff_put f place _).locate hd hl
  exact read_eq_ok_iff.mpr ⟨place, hplace, Or.inl (lookup_put_self f place _)⟩

end Files

namespace Convert

/-! ## One dataset -/

/-- The cards of the dump at a path. -/
def dumpCards (f : Files) (dump : String) : Except ConvertError (List DumpCard) :=
  (readDump f dump).bind cardsOf

/-- Where the data file of a dataset is written. -/
def outputPath (dataDir : String) (d : Dataset) : String := Path.join dataDir d.inputFile

/-- What comes of converting a dataset: what is said about it, and the files with its data file. -/
@[irreducible] def converted (dataDir : String) (f : Files) (d : Dataset) :
    Except ConvertError (ConvertStats × Files) :=
  match dumpCards f (source f dataDir d) with
  | .error e => .error e
  | .ok cards =>
    match f.write (outputPath dataDir d) (Text.encode (Dump.dataText cards)) with
    | .error fault => .error (.io (outputPath dataDir d) fault)
    | .ok g => .ok (⟨d.tag, source f dataDir d, outputPath dataDir d, cards.length⟩, g)

section

variable {dataDir : String} {f g : Files} {d : Dataset}

/-- A dataset fails on its dump, or on its data file once the dump was read. -/
theorem converted_eq_error_iff {e : ConvertError} :
    converted dataDir f d = .error e ↔ dumpCards f (source f dataDir d) = .error e ∨
      ∃ cards fault, dumpCards f (source f dataDir d) = .ok cards ∧
        f.write (outputPath dataDir d) (Text.encode (Dump.dataText cards)) = .error fault ∧
        e = .io (outputPath dataDir d) fault := by
  unfold converted
  cases hc : dumpCards f (source f dataDir d) with
  | error e' => simp
  | ok cards =>
    cases hw : f.write (outputPath dataDir d) (Text.encode (Dump.dataText cards)) with
    | error fault => simp [hw, eq_comm]
    | ok g => simp [hw]

theorem converted_eq_ok_iff {stats : ConvertStats} :
    converted dataDir f d = .ok (stats, g) ↔ ∃ cards,
      dumpCards f (source f dataDir d) = .ok cards ∧
      f.write (outputPath dataDir d) (Text.encode (Dump.dataText cards)) = .ok g ∧
      stats = ⟨d.tag, source f dataDir d, outputPath dataDir d, cards.length⟩ := by
  unfold converted
  cases hc : dumpCards f (source f dataDir d) with
  | error e => simp
  | ok cards =>
    cases hw : f.write (outputPath dataDir d) (Text.encode (Dump.dataText cards)) with
    | error fault => simp [hw]
    | ok h => simp [hw, and_comm, eq_comm]

end

/-- The files change only when the data file is written, which comes last. -/
theorem exec_convertFile (dump output : String) (s : RunState) :
    (convertFile dump output).exec s = match dumpCards s.files dump with
      | .error e => (.error e, s)
      | .ok cards =>
        match s.files.write output (Text.encode (Dump.dataText cards)) with
        | .error fault => (.error (.io output fault), s)
        | .ok g => (.ok cards.length, { s with files := g }) := by
  unfold dumpCards
  cases hread : readDump s.files dump with
  | error e =>
    simp only [convertFile, Run.exec_bind, Run.exec_files, hread, Run.exec_orFail_error,
      Except.bind, id]
  | ok text =>
    cases hcards : cardsOf text with
    | error e =>
      simp only [convertFile, Run.exec_bind, Run.exec_files, hread, Run.exec_orFail_ok, hcards,
        Run.exec_orFail_error, Except.bind, id]
    | ok cards =>
      cases hwrite : s.files.write output (Text.encode (Dump.dataText cards)) with
      | error fault =>
        simp only [convertFile, Run.exec_bind, Run.exec_files, hread, Run.exec_orFail_ok, hcards,
          hwrite, Run.exec_orFail_error, Except.bind]
      | ok g =>
        simp only [convertFile, Run.exec_bind, Run.exec_files, hread, Run.exec_orFail_ok, hcards,
          hwrite, Run.exec_setFiles, Run.exec_pure, Except.bind]

theorem exec_convertDataset (dataDir : String) (d : Dataset) (s : RunState) :
    ∃ s', (convertDataset dataDir d).exec s =
        ((converted dataDir s.files d).map Prod.fst, s') ∧
      s'.files = match converted dataDir s.files d with
        | .error _ => s.files
        | .ok (_, g) => g := by
  have hfile := exec_convertFile (source s.files dataDir d) (outputPath dataDir d)
    (s.report (.info (source s.files dataDir d ++ " -> " ++ outputPath dataDir d)))
  rw [RunState.files_report] at hfile
  rw [convertDataset, Run.exec_bind_ok (Run.exec_files s), Run.exec_bind_ok (Run.exec_report _ s)]
  rcases hc : converted dataDir s.files d with e | ⟨own, g⟩
  · rcases converted_eq_error_iff.mp hc with hcards | ⟨cards, fault, hcards, hwrite, rfl⟩
    · rw [hcards] at hfile
      exact ⟨_, Run.exec_bind_error hfile, rfl⟩
    · rw [hcards] at hfile
      simp only [hwrite] at hfile
      exact ⟨_, Run.exec_bind_error hfile, rfl⟩
  · obtain ⟨cards, hcards, hwrite, rfl⟩ := converted_eq_ok_iff.mp hc
    rw [hcards] at hfile
    simp only [hwrite] at hfile
    exact ⟨_, Run.exec_bind_ok hfile, rfl⟩

/-! ## A list of datasets -/

/-- What comes of converting datasets, one after the other up to the first that fails: what is said
about them, and the files that are left. -/
def convertedEach (dataDir : String) :
    Files → List Dataset → Except ConvertError (List ConvertStats) × Files
  | f, [] => (.ok [], f)
  | f, d :: rest =>
    match converted dataDir f d with
    | .error e => (.error e, f)
    | .ok (own, g) =>
      match convertedEach dataDir g rest with
      | (.error e, left) => (.error e, left)
      | (.ok more, left) => (.ok (own :: more), left)

section

variable {dataDir : String} {f g left : Files} {d : Dataset} {rest earlier datasets : List Dataset}
  {own : ConvertStats} {stats more : List ConvertStats} {e : ConvertError}

theorem convertedEach_cons_error (h : converted dataDir f d = .error e) (rest : List Dataset) :
    convertedEach dataDir f (d :: rest) = (.error e, f) := by
  rw [convertedEach, h]

theorem convertedEach_cons_ok (h : converted dataDir f d = .ok (own, g))
    (hrest : convertedEach dataDir g rest = (.ok more, left)) :
    convertedEach dataDir f (d :: rest) = (.ok (own :: more), left) := by
  simp only [convertedEach, h, hrest]

theorem convertedEach_cons_ok_error (h : converted dataDir f d = .ok (own, g))
    (hrest : convertedEach dataDir g rest = (.error e, left)) :
    convertedEach dataDir f (d :: rest) = (.error e, left) := by
  simp only [convertedEach, h, hrest]

theorem convertedEach_cons_eq_ok (h : convertedEach dataDir f (d :: rest) = (.ok stats, left)) :
    ∃ own more g, converted dataDir f d = .ok (own, g) ∧
      convertedEach dataDir g rest = (.ok more, left) ∧ stats = own :: more := by
  rcases hc : converted dataDir f d with e | ⟨own, g⟩
  · rw [convertedEach_cons_error hc] at h
    cases (Prod.mk.inj h).1
  · rcases hrest : convertedEach dataDir g rest with ⟨e | more, k⟩
    · rw [convertedEach_cons_ok_error hc hrest] at h
      cases (Prod.mk.inj h).1
    · rw [convertedEach_cons_ok hc hrest] at h
      obtain ⟨hstats, rfl⟩ := Prod.mk.inj h
      exact ⟨own, more, g, rfl, hrest, (Except.ok.inj hstats).symm⟩

theorem convertedEach_cons_eq_error (h : convertedEach dataDir f (d :: rest) = (.error e, left)) :
    (converted dataDir f d = .error e ∧ left = f) ∨
      ∃ own g, converted dataDir f d = .ok (own, g) ∧
        convertedEach dataDir g rest = (.error e, left) := by
  rcases hc : converted dataDir f d with e' | ⟨own, g⟩
  · rw [convertedEach_cons_error hc] at h
    obtain ⟨he, rfl⟩ := Prod.mk.inj h
    exact Or.inl ⟨congrArg _ (Except.error.inj he), rfl⟩
  · rcases hrest : convertedEach dataDir g rest with ⟨e' | more, k⟩
    · rw [convertedEach_cons_ok_error hc hrest] at h
      exact Or.inr ⟨own, g, rfl, hrest.trans h⟩
    · rw [convertedEach_cons_ok hc hrest] at h
      cases (Prod.mk.inj h).1

/-- Converting datasets computes `convertedEach`; the counters serve the reports only. -/
theorem exec_convertEach (dataDir : String) (total done : Nat) (datasets : List Dataset)
    (s : RunState) :
    ∃ s', (convertEach dataDir total done datasets).exec s =
        ((convertedEach dataDir s.files datasets).1, s') ∧
      s'.files = (convertedEach dataDir s.files datasets).2 := by
  induction datasets generalizing done s with
  | nil => exact ⟨s, rfl, rfl⟩
  | cons d rest ih =>
    obtain ⟨s₁, hd, hfiles⟩ := exec_convertDataset dataDir d s
    rcases hc : converted dataDir s.files d with e | ⟨own, g⟩
    · rw [hc] at hd hfiles
      rw [convertedEach_cons_error hc, convertEach]
      exact ⟨s₁, Run.exec_bind_error hd, hfiles⟩
    · rw [hc] at hd hfiles
      obtain ⟨s₂, hrest, hleft⟩ := ih (done + 1)
        ((s₁.report (.log own.display)).report (.progress ⟨done + 1, total, d.tag⟩))
      rw [RunState.files_report, RunState.files_report, hfiles] at hrest hleft
      have hexec : (convertEach dataDir total done (d :: rest)).exec s =
          (convertEach dataDir total (done + 1) rest >>= fun more => pure (own :: more)).exec
            ((s₁.report (.log own.display)).report (.progress ⟨done + 1, total, d.tag⟩)) := by
        rw [convertEach, Run.exec_bind_ok hd, Run.exec_bind_ok (Run.exec_report _ _),
          Run.exec_bind_ok (Run.exec_report _ _)]
      -- the reports in between have left the files alone
      rcases hout : convertedEach dataDir g rest with ⟨e | more, left⟩
      · rw [hout] at hrest hleft
        rw [convertedEach_cons_ok_error hc hout, hexec]
        exact ⟨s₂, Run.exec_bind_error hrest, hleft⟩
      · rw [hout] at hrest hleft
        rw [convertedEach_cons_ok hc hout, hexec, Run.exec_bind_ok hrest]
        exact ⟨s₂, rfl, hleft⟩

theorem start_convertDatasets (dataDir : String) (datasets : List Dataset) (f : Files) :
    ∃ s, (convertDatasets dataDir datasets).start f = ((convertedEach dataDir f datasets).1, s) ∧
      s.files = (convertedEach dataDir f datasets).2 := by
  obtain ⟨s, hrun, hfiles⟩ := exec_convertEach dataDir datasets.length 0 datasets
    (((⟨f, []⟩ : RunState).report (.phase .converting)).report
      (.log (toString datasets.length ++ " dumps in " ++ dataDir)))
  rw [RunState.files_report, RunState.files_report] at hrun hfiles
  rw [Run.start_eq_exec, convertDatasets, Run.exec_bind_ok (Run.exec_report _ _),
    Run.exec_bind_ok (Run.exec_report _ _)]
  rcases hout : convertedEach dataDir f datasets with ⟨e | stats, left⟩
  · rw [hout] at hrun hfiles
    exact ⟨s, Run.exec_bind_error hrun, hfiles⟩
  · rw [hout] at hrun hfiles
    rw [Run.exec_bind_ok hrun]
    exact ⟨s.report .noProgress, rfl, hfiles⟩

/-- A list that fails is one that is converted up to the dataset that fails. -/
theorem convertedEach_eq_error (h : convertedEach dataDir f datasets = (.error e, left)) :
    ∃ earlier d later stats, datasets = earlier ++ d :: later ∧
      convertedEach dataDir f earlier = (.ok stats, left) ∧
      converted dataDir left d = .error e := by
  induction datasets generalizing f with
  | nil => cases (Prod.mk.inj h).1
  | cons d rest ih =>
    rcases convertedEach_cons_eq_error h with ⟨hd, rfl⟩ | ⟨own, g, hd, hrest⟩
    · exact ⟨[], d, rest, [], rfl, rfl, hd⟩
    · obtain ⟨earlier, d', later, stats, rfl, hearlier, hd'⟩ := ih hrest
      exact ⟨d :: earlier, d', later, own :: stats, rfl, convertedEach_cons_ok hd hearlier, hd'⟩

/-- A list that is converted has a result for each of its datasets: that of converting it on the
files that the datasets before it leave. -/
theorem convertedEach_eq_ok {later : List Dataset}
    (h : convertedEach dataDir f (earlier ++ d :: later) = (.ok stats, left)) :
    ∃ own before next, convertedEach dataDir f earlier = (.ok (stats.take earlier.length), before) ∧
      converted dataDir before d = .ok (own, next) ∧ stats[earlier.length]? = some own ∧
      convertedEach dataDir f (earlier ++ [d]) = (.ok (stats.take (earlier.length + 1)), next) := by
  induction earlier generalizing f stats with
  | nil =>
    obtain ⟨own, more, next, hd, -, rfl⟩ := convertedEach_cons_eq_ok h
    have hone : convertedEach dataDir next [] = (.ok [], next) := rfl
    exact ⟨own, f, next, rfl, hd, rfl, convertedEach_cons_ok hd hone⟩
  | cons first rest ih =>
    obtain ⟨own, more, g, hfirst, hmore, rfl⟩ := convertedEach_cons_eq_ok h
    obtain ⟨own', before, next, hbefore, hd, hget, hnext⟩ := ih hmore
    exact ⟨own', before, next, convertedEach_cons_ok hfirst hbefore, hd, hget,
      convertedEach_cons_ok hfirst hnext⟩

theorem length_convertedEach (h : convertedEach dataDir f datasets = (.ok stats, left)) :
    stats.length = datasets.length := by
  induction datasets generalizing f stats with
  | nil => cases (Prod.mk.inj h).1; rfl
  | cons d rest ih =>
    obtain ⟨own, more, g, -, hmore, rfl⟩ := convertedEach_cons_eq_ok h
    rw [List.length_cons, List.length_cons, ih hmore]

end

/-- A run that fails leaves the files as converting the datasets before the failing one does: of the
failing one and those after it nothing is written. A run that succeeds has one result for each
dataset, with the number of cards of its dump as it was when its turn came, and the data file of
each was written as a whole. -/
theorem convertDatasets_all_or_nothing (dataDir : String) (datasets : List Dataset) (f : Files) :
    match (convertDatasets dataDir datasets).start f with
    | (.error e, s) => ∃ earlier d later stats before, datasets = earlier ++ d :: later ∧
        (convertDatasets dataDir earlier).start f = (.ok stats, before) ∧
        s.files = before.files ∧
        ((readDump before.files (source before.files dataDir d)).bind cardsOf = .error e ∨
          ∃ cards fault,
            (readDump before.files (source before.files dataDir d)).bind cardsOf = .ok cards ∧
            before.files.write (Path.join dataDir d.inputFile) (Text.encode (Dump.dataText cards)) =
              .error fault ∧
            e = .io (Path.join dataDir d.inputFile) fault)
    | (.ok stats, _) => stats.length = datasets.length ∧
        ∀ earlier d later, datasets = earlier ++ d :: later → ∃ cards before next,
          (convertDatasets dataDir earlier).start f = (.ok (stats.take earlier.length), before) ∧
          (readDump before.files (source before.files dataDir d)).bind cardsOf = .ok cards ∧
          stats[earlier.length]? = some ⟨d.tag, source before.files dataDir d,
            Path.join dataDir d.inputFile, cards.length⟩ ∧
          (convertDatasets dataDir (earlier ++ [d])).start f =
            (.ok (stats.take (earlier.length + 1)), next) ∧
          next.files.read (Path.join dataDir d.inputFile) =
            .ok (Text.encode (Dump.dataText cards)) := by
  obtain ⟨s, hstart, hfiles⟩ := start_convertDatasets dataDir datasets f
  rcases hout : convertedEach dataDir f datasets with ⟨e | stats, left⟩
  · obtain ⟨earlier, d, later, stats, hsplit, hearlier, hd⟩ := convertedEach_eq_error hout
    obtain ⟨before, hbefore, hleft⟩ := start_convertDatasets dataDir earlier f
    rw [hout] at hstart hfiles
    rw [hearlier] at hbefore hleft
    have hleft' : before.files = left := hleft
    rw [← hleft'] at hd
    rw [hstart]
    exact ⟨earlier, d, later, stats, before, hsplit, hbefore, hfiles.trans hleft.symm,
      converted_eq_error_iff.mp hd⟩
  · rw [hstart, hout]
    refine ⟨length_convertedEach hout, ?_⟩
    rintro earlier d later rfl
    obtain ⟨own, at_, after, hearlier, hd, hget, hone⟩ := convertedEach_eq_ok hout
    obtain ⟨before, hbefore, hleft⟩ := start_convertDatasets dataDir earlier f
    obtain ⟨next, hnext, hafter⟩ := start_convertDatasets dataDir (earlier ++ [d]) f
    rw [hearlier] at hbefore hleft
    rw [hone] at hnext hafter
    have hleft' : before.files = at_ := hleft
    rw [← hleft'] at hd
    obtain ⟨cards, hcards, hwrite, rfl⟩ := converted_eq_ok_iff.mp hd
    have hread := Files.read_of_write hwrite
    exact ⟨cards, before, next, hbefore, hcards, hget, hnext, hafter ▸ hread⟩

end Convert

end CardArchive
