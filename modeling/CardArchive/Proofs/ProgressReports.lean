import CardArchive.Proofs.DataLines
import CardArchive.Proofs.FailedLoad
import CardArchive.Proofs.LoadAnywhere
import Mathlib.Data.List.Induction

/-!
# Progress is reported exactly

A load reports how far it has come after every thousand lines, and once more when its rows are in
the database. The total that is shown with it was counted before any line was read. What is shown in
any load is determined by two numbers, that of the lines of the data file and that of the lines that
were read; it never goes back and never exceeds the total.
-/

namespace CardArchive

/-- The progress that a report shows, if it does. -/
def Report.progress? : Report → Option Progress
  | .progress p => some p
  | _ => none

/-- The progress that was reported, in the order in which it was. -/
def RunState.progress (s : RunState) : List Progress := s.reports.filterMap Report.progress?

/-- What is shown while a number of lines are read: each full thousand of them. -/
def Progress.thousands (read total : Nat) (label : String) : List Progress :=
  (List.range (read / 1000)).map fun k => ⟨1000 * (k + 1), total, label⟩

/-! ## What is shown in a state -/

namespace RunState

theorem progress_report (s : RunState) (r : Report) :
    (s.report r).progress = s.progress ++ r.progress?.toList := by
  rw [progress, progress, reports, reports, report, List.reverse_cons, List.map_append,
    List.filterMap_append]
  cases h : r.progress? <;> simp [h]

theorem progress_foldl_report (rs : List Report) (s : RunState) :
    (rs.foldl report s).progress = s.progress ++ rs.filterMap Report.progress? := by
  induction rs generalizing s with
  | nil => simp
  | cons r rest ih =>
    rw [List.foldl_cons, ih, progress_report, List.append_assoc, List.filterMap_cons]
    cases r.progress? <;> rfl

theorem progress_eq_of_moments {s t : RunState} (h : s.moments = t.moments) :
    s.progress = t.progress := by
  rw [progress, progress, reports, reports, h]

end RunState

/-! ## Full thousands -/

namespace Progress

variable {read total : Nat} {label : String}

theorem thousands_succ (read total : Nat) (label : String) :
    thousands (read + 1) total label = thousands read total label ++
      if (read + 1) % 1000 = 0 then [⟨read + 1, total, label⟩] else [] := by
  unfold thousands
  split
  · next h =>
    have hdiv : (read + 1) / 1000 = read / 1000 + 1 := by omega
    have hlast : 1000 * (read / 1000 + 1) = read + 1 := by omega
    rw [hdiv, List.range_succ, List.map_append, List.map_singleton, hlast]
  · next h =>
    have hdiv : (read + 1) / 1000 = read / 1000 := by omega
    rw [hdiv, List.append_nil]

theorem current_le_of_mem_thousands {p : Progress} (h : p ∈ thousands read total label) :
    p.current ≤ read ∧ p.total = total ∧ p.label = label := by
  obtain ⟨k, hk, rfl⟩ := List.mem_map.mp h
  have hlt : k < read / 1000 := List.mem_range.mp hk
  exact ⟨by show 1000 * (k + 1) ≤ read; omega, rfl, rfl⟩

theorem pairwise_thousands (read total : Nat) (label : String) :
    (thousands read total label).Pairwise fun p q => p.current ≤ q.current := by
  rw [thousands, List.pairwise_map]
  refine List.pairwise_lt_range.imp fun {a b} hlt => ?_
  show 1000 * (a + 1) ≤ 1000 * (b + 1)
  omega

/-- The last of the full thousands is all that was read if that is a multiple of a thousand. -/
theorem thousands_of_dvd (hpos : 0 < read) (hdvd : 1000 ∣ read) (total : Nat) (label : String) :
    ∃ before, thousands read total label = before ++ [⟨read, total, label⟩] := by
  obtain ⟨earlier, rfl⟩ : ∃ earlier, read = earlier + 1 := ⟨read - 1, by omega⟩
  rw [thousands_succ, if_pos (Nat.mod_eq_zero_of_dvd hdvd)]
  exact ⟨_, rfl⟩

/-- Full thousands, and what was read after them. -/
theorem pairwise_thousands_append (read total : Nat) (label : String) :
    (thousands read total label ++ [(⟨read, total, label⟩ : Progress)]).Pairwise
      fun p q => p.current ≤ q.current := by
  refine List.pairwise_append.mpr
    ⟨pairwise_thousands read total label, List.pairwise_singleton _ _, fun p hp q hq => ?_⟩
  cases List.mem_singleton.mp hq
  exact (current_le_of_mem_thousands hp).1

end Progress

namespace Load

variable {config : Config} {d : Dataset} {s s' : RunState}

/-! ## What an import shows -/

/-- An import notes the number of lines that it has read after every thousand. -/
theorem filterMap_progressReports (m : Rows) (rows : List Row) (total : Nat) :
    (progressReports d total (rows.foldl Import.add { rows := m })).filterMap Report.progress? =
      Progress.thousands rows.length total d.tag := by
  -- from the end, since a report that the last row makes is the last one
  induction rows using List.reverseRecOn with
  | nil => rfl
  | append_singleton rows row ih =>
    let i : Import := rows.foldl Import.add { rows := m }
    have hread : i.read = rows.length := (Import.foldl_add_read _ rows).trans (Nat.zero_add _)
    have hnoted : (i.add row).reported =
        if (i.read + 1) % 1000 = 0 then (i.read + 1) :: i.reported else i.reported := by
      unfold Import.add
      split <;> rfl
    rw [List.foldl_append, List.foldl_cons, List.foldl_nil, List.length_append,
      List.length_singleton, Progress.thousands_succ, ← ih]
    show (((i.add row).reported.reverse.map _).filterMap _) =
      ((i.reported.reverse.map _).filterMap _) ++ _
    rw [hnoted, hread]
    split
    · rw [List.reverse_cons, List.map_append, List.filterMap_append]
      rfl
    · rw [List.append_nil]

theorem progress_announced (config : Config) (d : Dataset) (s : RunState) :
    (announced config d s).progress = s.progress := by
  rw [announced, RunState.progress_report, RunState.progress_report]
  exact (List.append_nil _).trans (List.append_nil _)

/-! ## Parts of a load that show nothing -/

/-- The part reports nothing, and it fails only because of the database. -/
def Quiet {α : Type} (r : Run LoadError α) : Prop :=
  ∀ s, (r.exec s).2.moments = s.moments ∧
    ∀ e, (r.exec s).1 = .error e → ∃ reason, e = .database reason

namespace Quiet

variable {α β : Type}

theorem pure (a : α) : Quiet (Pure.pure a : Run LoadError α) :=
  fun _ => ⟨rfl, fun _ h => by cases h⟩

theorem files : Quiet (Run.files : Run LoadError Files) := fun _ => ⟨rfl, fun _ h => by cases h⟩

theorem setFiles (f : Files) : Quiet (Run.setFiles f : Run LoadError Unit) :=
  fun _ => ⟨rfl, fun _ h => by cases h⟩

theorem orFail (x : Except DatabaseError α) : Quiet (Run.orFail LoadError.database x) := by
  intro s
  cases x with
  | ok a => exact ⟨rfl, fun _ h => by cases h⟩
  | error reason => exact ⟨rfl, fun e h => ⟨reason, (Except.error.inj h).symm⟩⟩

theorem bind {r : Run LoadError α} {k : α → Run LoadError β} (hr : Quiet r)
    (hk : ∀ a, Quiet (k a)) : Quiet (r >>= k) := by
  intro s
  obtain ⟨hmoments, herror⟩ := hr s
  rcases hs : r.exec s with ⟨e | a, s₁⟩
  · rw [hs] at hmoments herror
    rw [Run.exec_bind_error hs]
    exact ⟨hmoments, fun e' he => herror e' (by cases he; rfl)⟩
  · rw [hs] at hmoments
    rw [Run.exec_bind_ok hs]
    exact ⟨((hk a s₁).1).trans hmoments, (hk a s₁).2⟩

end Quiet

/-- Opening a database and making a table in it is quiet. -/
theorem quiet_openTable (path table : String) : Quiet (connect path >>= (createTable · table)) := by
  have hconnect : Quiet (connect path) :=
    .bind .files fun _ => .bind (.orFail _) fun _ => .bind (.setFiles _) fun _ => .pure _
  have hcreate (c : Connection) : Quiet (createTable c table) :=
    .bind .files fun _ => .bind (.orFail _) fun _ => .bind (.orFail _) fun _ =>
      .bind .files fun _ => .bind (.setFiles _) fun _ => .pure _
  exact .bind hconnect hcreate

/-- An import that cannot begin fails because of the database, with nothing reported. -/
theorem importLines_begins_or_fails (c : Connection) (d : Dataset) (source : String)
    (lines : List (List UInt8)) (total : Nat) (s : RunState) :
    (∃ reason, (importLines c d source lines total).exec s = (.error (.database reason), s)) ∨
      ∃ db name old, c.database s.files = .ok db ∧ db.target d.table = .ok (name, old) := by
  cases hdb : c.database s.files with
  | error reason =>
    refine Or.inl ⟨reason, ?_⟩
    simp only [importLines, Run.exec_bind, Run.exec_files, hdb, Run.exec_orFail_error]
  | ok db =>
    cases ht : db.target d.table with
    | error reason =>
      refine Or.inl ⟨reason, ?_⟩
      simp only [importLines, Run.exec_bind, Run.exec_files, hdb, Run.exec_orFail_ok, ht,
        Run.exec_orFail_error]
    | ok target => exact Or.inr ⟨db, target.1, target.2, rfl, ht⟩

/-! ## What a load shows -/

/-- What a load of a dataset shows when it ends, by how it ends. -/
inductive Shown (config : Config) (f : Files) (d : Dataset) :
    Except LoadError LoadStats → List Progress → Prop where
  /-- All lines were read. -/
  | loaded {lines : List (List UInt8)} {stats : LoadStats}
      (hlines : inputLines f (config.inputPath d) = .ok lines) (hread : stats.read = lines.length) :
      Shown config f d (.ok stats)
        (Progress.thousands lines.length lines.length d.tag ++
          [⟨lines.length, lines.length, d.tag⟩])
  /-- Some lines were read, and the next one is no row. -/
  | stopped {lines good : List (List UInt8)} {fault : LineFault}
      (hlines : inputLines f (config.inputPath d) = .ok lines)
      (hbad : FirstBadLine f (config.inputPath d) good fault) :
      Shown config f d (.error (lineError d (config.inputPath d) good.length fault))
        (Progress.thousands good.length lines.length d.tag)
  /-- The data file was empty, and has become the database when its first line is read. -/
  | overwritten (hempty : AtEmptyDatabase config f d) :
      Shown config f d (.error (.io (config.inputPath d) .notText)) []
  /-- The data file cannot be read. -/
  | unreadable {e : LoadError} (hlines : inputLines f (config.inputPath d) = .error e) :
      Shown config f d (.error e) []
  /-- The database cannot be used. -/
  | refused (reason : DatabaseError) : Shown config f d (.error (.database reason)) []

/-- An import of the file of a database stops before any line is read. -/
theorem shown_importDatabase {c : Connection} {total : Nat} {f : Files}
    {out : Except LoadError (Connection × LoadStats)} (hempty : AtEmptyDatabase config f d)
    (hrun : (importLines c d (config.inputPath d) [Files.databaseBytes] total).exec s =
      (out, s')) :
    ∃ shown, s'.progress = s.progress ++ shown ∧
      Shown config f d (out.map Prod.snd) shown := by
  rcases importLines_begins_or_fails c d (config.inputPath d) [Files.databaseBytes] total s with
    ⟨reason, hfail⟩ | ⟨db, name, old, hdb, ht⟩
  · rw [hfail] at hrun
    cases hrun
    exact ⟨[], (List.append_nil _).symm, .refused reason⟩
  · rw [exec_importLines_error hdb ht ofLines_databaseBytes] at hrun
    cases hrun
    exact ⟨[], (List.append_nil _).symm, .overwritten hempty⟩

/-- An import shows what its lines make it show. -/
theorem shown_importLines {c : Connection} {lines : List (List UInt8)} {f : Files}
    {out : Except LoadError (Connection × LoadStats)}
    (hlines : inputLines f (config.inputPath d) = .ok lines)
    (hrun : (importLines c d (config.inputPath d) lines lines.length).exec s = (out, s')) :
    ∃ shown, s'.progress = s.progress ++ shown ∧
      Shown config f d (out.map Prod.snd) shown := by
  rcases importLines_begins_or_fails c d (config.inputPath d) lines lines.length s with
    ⟨reason, hfail⟩ | ⟨db, name, old, hdb, ht⟩
  · rw [hfail] at hrun
    cases hrun
    exact ⟨[], (List.append_nil _).symm, .refused reason⟩
  · rcases hrows : Row.ofLines lines with ⟨rows, _ | fault⟩
    · have hlen : rows.length = lines.length := by
        simpa using (congrArg List.length (Row.ofLines_eq_none_iff.mp hrows)).symm
      have hread : (rows.foldl Import.add { rows := old }).read = lines.length := by
        rw [Import.foldl_add_read, Nat.zero_add, hlen]
      rw [exec_importLines_ok hdb ht hrows] at hrun
      cases hrun
      refine ⟨_, ?_, .loaded hlines hread⟩
      rw [RunState.progress_report, hread]
      show (RunState.progress (List.foldl _ s _)) ++ _ = _
      rw [RunState.progress_foldl_report, filterMap_progressReports, hlen, List.append_assoc]
      rfl
    · obtain ⟨good, hbad, hlen⟩ := firstBadLine_of_ofLines hlines hrows
      rw [exec_importLines_error hdb ht hrows, ← hlen] at hrun
      cases hrun
      refine ⟨_, ?_, .stopped hlines hbad⟩
      rw [RunState.progress_foldl_report, filterMap_progressReports, hlen]

/-- With the table open, the import of a data file shows what its lines make it show. -/
theorem shown_importFile {c : Connection} {lines : List (List UInt8)} {t : RunState}
    {out : Except LoadError (Connection × LoadStats)}
    (hlines : inputLines t.files (config.inputPath d) = .ok lines)
    (hopen : (connect config.database >>= (createTable · d.table)).exec t = (.ok c, s))
    (hrun : (importFile config c d lines.length).exec s = (out, s')) :
    ∃ shown, s'.progress = s.progress ++ shown ∧
      Shown config t.files d (out.map Prod.snd) shown := by
  rcases inputLines_of_openTable hlines hopen with hsame | ⟨hempty, -, hread⟩
  · rw [exec_importFile c _ hsame] at hrun
    exact shown_importLines hlines hrun
  · rw [exec_importFile c _ hread] at hrun
    exact shown_importDatabase hempty hrun

/-- All that a load shows. -/
theorem shown_loadDataset {out : Except LoadError LoadStats}
    (hrun : (loadDataset config d).exec s = (out, s')) :
    ∃ shown, s'.progress = s.progress ++ shown ∧ Shown config s.files d out shown := by
  cases hlines : inputLines s.files (config.inputPath d) with
  | error e =>
    rw [exec_loadDataset_unreadable hlines] at hrun
    cases hrun
    exact ⟨[], (List.append_nil _).symm, .unreadable hlines⟩
  | ok lines =>
    rw [exec_loadDataset_opens hlines, ← bind_assoc] at hrun
    obtain ⟨hmoments, herror⟩ := quiet_openTable config.database d.table (announced config d s)
    have hsame := (RunState.progress_eq_of_moments hmoments).trans (progress_announced config d s)
    rcases hopen : (connect config.database >>= (createTable · d.table)).exec
      (announced config d s) with ⟨e | c, s₁⟩ <;> rw [hopen] at hsame herror
    · obtain ⟨reason, rfl⟩ := herror e rfl
      rw [Run.exec_bind_error hopen] at hrun
      cases hrun
      exact ⟨[], by rw [hsame, List.append_nil], .refused reason⟩
    · rw [Run.exec_bind_ok hopen] at hrun
      rcases himport : (importFile config c d lines.length).exec s₁ with ⟨imported, s₂⟩
      obtain ⟨shown, hprogress, hshown⟩ :=
        shown_importFile (t := announced config d s) hlines hopen himport
      rw [hsame] at hprogress
      cases imported with
      | error e =>
        rw [Run.exec_bind_error himport] at hrun
        cases hrun
        exact ⟨shown, hprogress, hshown⟩
      | ok p =>
        rw [Run.exec_bind_ok himport, Run.exec_bind_ok (Run.exec_report _ _)] at hrun
        cases hrun
        refine ⟨shown, ?_, hshown⟩
        rw [RunState.progress_report, hprogress]
        exact List.append_nil _

namespace Shown

variable {f : Files} {out : Except LoadError LoadStats} {shown : List Progress}

theorem pairwise (h : Shown config f d out shown) :
    shown.Pairwise fun p q => p.current ≤ q.current := by
  cases h with
  | loaded _ _ => exact Progress.pairwise_thousands_append _ _ _
  | stopped _ _ => exact Progress.pairwise_thousands _ _ _
  | overwritten _ => exact List.Pairwise.nil
  | unreadable _ => exact List.Pairwise.nil
  | refused _ => exact List.Pairwise.nil

theorem current_le_total (h : Shown config f d out shown) :
    ∀ p ∈ shown, p.current ≤ p.total ∧ p.label = d.tag := by
  intro p hp
  cases h with
  | loaded _ _ =>
    rcases List.mem_append.mp hp with hp | hp
    · obtain ⟨hle, htotal, hlabel⟩ := Progress.current_le_of_mem_thousands hp
      exact ⟨htotal ▸ hle, hlabel⟩
    · cases List.mem_singleton.mp hp
      exact ⟨Nat.le_refl _, rfl⟩
  | stopped hlines hbad =>
    obtain ⟨bad, rest, hall, -, -⟩ := hbad
    cases hlines.symm.trans hall
    obtain ⟨hle, htotal, hlabel⟩ := Progress.current_le_of_mem_thousands hp
    refine ⟨htotal ▸ Nat.le_trans hle ?_, hlabel⟩
    rw [List.length_append]
    exact Nat.le_add_right _ _
  | overwritten _ => cases hp
  | unreadable _ => cases hp
  | refused _ => cases hp

/-- A load that succeeds shows at last that all was read, and shows it twice if that is a multiple
of a thousand. -/
theorem ends_with_all {stats : LoadStats} (h : Shown config f d (.ok stats) shown) :
    let all : Progress := ⟨stats.read, stats.read, d.tag⟩
    (∃ before, shown = before ++ [all]) ∧
      (0 < stats.read → 1000 ∣ stats.read → ∃ before, shown = before ++ [all, all]) := by
  cases h with
  | loaded _ hread =>
    rw [← hread]
    refine ⟨⟨_, rfl⟩, fun hpos hdvd => ?_⟩
    obtain ⟨before, hbefore⟩ := Progress.thousands_of_dvd hpos hdvd stats.read d.tag
    exact ⟨before, by rw [hbefore, List.append_assoc]; rfl⟩

end Shown

/-- What a load shows is determined by the lines of the data file. If all are read, it is every full
thousand of them and at last all of them; if the load fails at a line, it is every full thousand of
the lines before that one, and if no line is reached, nothing. So what is shown never goes back and
never exceeds the total. -/
theorem loadDataset_shows_exact_progress {out : Except LoadError LoadStats}
    (hrun : (loadDataset config d).exec s = (out, s')) :
    ∃ shown, s'.progress = s.progress ++ shown ∧ Shown config s.files d out shown ∧
      (∀ stats, out = .ok stats →
        let all : Progress := ⟨stats.read, stats.read, d.tag⟩
        (∃ before, shown = before ++ [all]) ∧
          (0 < stats.read → 1000 ∣ stats.read → ∃ before, shown = before ++ [all, all])) ∧
      shown.Pairwise (fun p q => p.current ≤ q.current) ∧
      ∀ p ∈ shown, p.current ≤ p.total ∧ p.label = d.tag := by
  obtain ⟨shown, hprogress, hshown⟩ := shown_loadDataset hrun
  refine ⟨shown, hprogress, hshown, ?_, hshown.pairwise, hshown.current_le_total⟩
  rintro stats rfl
  exact hshown.ends_with_all

/-- The same card two thousand times, a line each. -/
def repeatedBytes : List UInt8 :=
  Text.encode ("\n".intercalate (List.replicate 2000 (bareCard "B")))

/-- A load of two thousand lines shows the first thousand once and all of them twice. -/
theorem loadDataset_shows_exact_progress_repeated :
    ∃ stats s', (loadDataset twoDatasets ⟨"B", "b.jsonl", "B"⟩).exec ⟨filesWith repeatedBytes, []⟩ =
        (.ok stats, s') ∧ stats.read = 2000 ∧
      s'.progress = [⟨1000, 2000, "B"⟩, ⟨2000, 2000, "B"⟩, ⟨2000, 2000, "B"⟩] := by
  have hplain : ∀ line ∈ List.replicate 2000 (bareCard "B"),
      line.toList ≠ [] ∧ ∀ c ∈ line.toList, 0x20 ≤ c.toNat := by
    intro line hline
    cases List.eq_of_mem_replicate hline
    have hcodes : (bareCard "B").toList.all (fun c => 0x20 ≤ c.toNat) = true := by decide +kernel
    refine ⟨by decide +kernel, fun c hc => ?_⟩
    exact of_decide_eq_true (List.all_eq_true.mp hcodes c hc)
  have hsplit : Text.splitLines repeatedBytes =
      List.replicate 2000 (Text.encode (bareCard "B")) := by
    rw [repeatedBytes, Text.splitLines_encode_intercalate (fun l hl => (hplain l hl).2)
      (fun l hl => (hplain l hl).1), List.map_replicate]
  have hlines : inputLines (filesWith repeatedBytes) "data/b.jsonl" =
      .ok (List.replicate 2000 (Text.encode (bareCard "B"))) :=
    inputLines_eq_ok_iff.mpr ⟨repeatedBytes, rfl, hsplit⟩
  have hrows : Row.ofLines (List.replicate 2000 (Text.encode (bareCard "B"))) =
      (List.replicate 2000 (bareRow "B"), none) :=
    Row.ofLines_eq_none_iff.mpr (by
      rw [List.map_replicate, List.map_replicate, ofBytes_bareCard_second])
  obtain ⟨stats, s', hrun⟩ : ∃ stats s', (loadDataset twoDatasets ⟨"B", "b.jsonl", "B"⟩).exec
      ⟨filesWith repeatedBytes, []⟩ = (.ok stats, s') :=
    ⟨_, _, exec_loadDataset_ok (databaseFile_filesWith repeatedBytes) (by rfl)
      (fileApart_filesWith repeatedBytes _ (by decide)) hlines hrows⟩
  obtain ⟨shown, hprogress, hshown, -, -, -⟩ := loadDataset_shows_exact_progress hrun
  cases hshown with
  | loaded hlines' hread =>
    cases hlines.symm.trans hlines'
    rw [List.length_replicate] at hprogress hread
    exact ⟨stats, s', hrun, hread, hprogress⟩

end Load

end CardArchive
