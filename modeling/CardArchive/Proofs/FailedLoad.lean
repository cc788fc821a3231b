import CardArchive.Proofs.LoadRun

/-!
# Runs that fail

A run of the loader that fails leaves the database as the datasets before the failing one have made
it. Of the failing dataset nothing is kept but its table, and that only when the failure is that of
a line: then the table is there, with the rows that it had before.
-/

namespace CardArchive

namespace Load

/-- The first line of a data file that is no row comes after some good ones. -/
def FirstBadLine (f : Files) (path : String) (good : List (List UInt8)) (fault : LineFault) :
    Prop :=
  ∃ bad rest, inputLines f path = .ok (good ++ bad :: rest) ∧
    (∀ line ∈ good, ∃ row, Row.ofBytes line = .ok row) ∧ Row.ofBytes bad = .error fault

theorem firstBadLine_of_ofLines {f : Files} {path : String} {lines : List (List UInt8)}
    {rows : List Row} {fault : LineFault} (hlines : inputLines f path = .ok lines)
    (hrows : Row.ofLines lines = (rows, some fault)) :
    ∃ good, FirstBadLine f path good fault ∧ good.length = rows.length := by
  obtain ⟨good, bad, rest, rfl, hgood, hbad⟩ := Row.ofLines_eq_some hrows
  refine ⟨good, ⟨bad, rest, hlines, fun line hline => ?_, hbad⟩, ?_⟩
  · have hmem : Row.ofBytes line ∈ rows.map Except.ok := hgood ▸ List.mem_map_of_mem hline
    obtain ⟨row, -, hrow⟩ := List.mem_map.mp hmem
    exact ⟨row, hrow.symm⟩
  · simpa using congrArg List.length hgood

theorem loadEach_with_datasets (config : Config) (others datasets : List Dataset) :
    loadEach { config with datasets := others } datasets = loadEach config datasets := by
  induction datasets with
  | nil => rfl
  | cons d rest ih =>
    rw [loadEach, loadEach, ih]
    rfl

/-- A run that fails has done to the files what loading the datasets before the failing one does,
and then what that dataset does. -/
theorem loadDatasets_eq_error {config : Config} {f : Files} {e : LoadError} {s : RunState}
    (h : (loadDatasets config).start f = (.error e, s)) :
    ∃ earlier d later stats first before, config.datasets = earlier ++ d :: later ∧
      first.files = f ∧ (loadEach config earlier).exec first = (.ok stats, before) ∧
      (loadDataset config d).exec before = (.error e, s) := by
  obtain ⟨first, hfirst, hstart⟩ := start_loadDatasets config f
  rcases hrun : (loadEach config config.datasets).exec first with ⟨e' | stats, s'⟩
  · rw [hstart _ _ hrun] at h
    obtain ⟨he, rfl⟩ := Prod.mk.inj h
    cases he
    obtain ⟨earlier, d, later, stats, before, hsplit, hok, herr⟩ := loadEach_eq_error hrun
    exact ⟨earlier, d, later, stats, first, before, hsplit, hfirst, hok, herr⟩
  · rw [hstart _ _ hrun] at h
    cases h

/-- Loading datasets is, for the files, loading one after the other. -/
theorem start_loadDatasets_of_loadEach {config : Config} {f : Files} {first before : RunState}
    {datasets : List Dataset} {stats : List LoadStats} (hfirst : first.files = f)
    (h : (loadEach config datasets).exec first = (.ok stats, before)) :
    ∃ after, (loadDatasets { config with datasets := datasets }).start f = (.ok ⟨stats⟩, after) ∧
      after.files = before.files := by
  obtain ⟨s, hs, hstart⟩ := start_loadDatasets { config with datasets := datasets } f
  obtain ⟨s', hrun, hfiles⟩ :=
    (blind_loadEach config datasets).transfer h (hs.trans hfirst.symm)
  rw [loadEach_with_datasets] at hstart
  exact ⟨_, hstart _ _ hrun, hfiles⟩

/-- A run that fails keeps the datasets before the failing one, keeps nothing of the failing one but
its table, and touches none of those after it. -/
theorem loadDatasets_keeps_earlier_of_error {config : Config} {f : Files} {place : Location}
    {db : Database} {e : LoadError} {s : RunState} (hvalid : config.Valid)
    (hfile : DatabaseFile f config.database place db)
    (hapart : ∀ d ∈ config.datasets, FileApart config f place d)
    (hfail : (loadDatasets config).start f = (.error e, s)) :
    ∃ earlier d later summary before dbBefore dbAfter,
      config.datasets = earlier ++ d :: later ∧
      (loadDatasets { config with datasets := earlier }).start f = (.ok summary, before) ∧
      (earlier = [] → before.files = f) ∧
      DatabaseFile before.files config.database place dbBefore ∧
      DatabaseFile s.files config.database place dbAfter ∧ Files.AgreeOff place f s.files ∧
      ((inputLines before.files (config.inputPath d) = .error e ∧ s.files = before.files) ∨
        ∃ good fault, FirstBadLine before.files (config.inputPath d) good fault ∧
          e = lineError d (config.inputPath d) good.length fault ∧
          dbAfter.rows? d.table = some ((dbBefore.rows? d.table).getD ∅) ∧
          dbBefore.rows? d.table = db.rows? d.table ∧
          ∀ name, Text.sameName d.table name = false →
            dbAfter.table? name = dbBefore.table? name) ∧
      (∀ path, e = .missingFile path → s.files = before.files) ∧
      ∀ l ∈ later, dbAfter.table? l.table = db.table? l.table := by
  obtain ⟨earlier, d, later, stats, first, before, hsplit, rfl, hearlier, hd⟩ :=
    loadDatasets_eq_error hfail
  obtain ⟨after, hstart, hafter⟩ := start_loadDatasets_of_loadEach rfl hearlier
  have hmem : ∀ a ∈ earlier ++ d :: later, checkTable a.table = .ok () :=
    fun a ha => hvalid.checkTable (hsplit ▸ ha)
  have hpair : (earlier ++ d :: later).Pairwise Dataset.Apart := hsplit ▸ hvalid.pairwise
  obtain ⟨hfirst, hsecond, hcross⟩ := List.pairwise_append.mp hpair
  obtain ⟨hlater, -⟩ := List.pairwise_cons.mp hsecond
  obtain ⟨contents, hmap, -, hstored, -, -⟩ := loadEach_eq_ok hfile
    (fun a ha => hmem a (List.mem_append_left _ ha)) hearlier
  -- the datasets before have touched neither the table of this one nor those of the ones after it
  have hframe : ∀ a ∈ d :: later,
      (db.addDatasets contents).table? a.table = db.table? a.table := by
    intro a ha
    refine Database.table?_addDatasets_of_ne (fun p hp => ?_) db
    exact (hcross p.1 (hmap ▸ List.mem_map_of_mem hp) a ha).2
  have hnone : earlier = [] → after.files = first.files := by
    rintro rfl
    rw [hafter, ← (Prod.mk.inj hearlier).2]
  rw [← hafter] at hstored
  rcases loadDataset_eq_error (hafter ▸ hstored.file) (hmem d (by simp)) hd with
    ⟨hread, hkept⟩ | ⟨lines, rows, fault, hread, hrows, rfl, hput⟩
  · rw [← hafter] at hread hkept
    refine ⟨earlier, d, later, _, after, _, _, hsplit, hstart, hnone, hstored.file,
      hkept ▸ hstored.file, hkept ▸ hstored.agree, Or.inl ⟨hread, hkept⟩, fun _ _ => hkept, ?_⟩
    exact fun l hl => hframe l (List.mem_cons_of_mem _ hl)
  · have hmade : Stored config after.files place ((db.addDatasets contents).addTable d.table)
        s.files := by
      rw [hput, ← hafter]
      exact Stored.put hstored.file _
    have hplace : FileApart config s.files place d :=
      (hapart d (by simp [hsplit])).of_agreeOff (hstored.agree.trans hmade.agree)
        hmade.file.lookup_ne_directory
    rw [← hput] at hread
    have hlines := hplace.inputLines hmade.agree.symm hmade.file.lookup_ne_directory hread
    obtain ⟨good, hbad, hlen⟩ := firstBadLine_of_ofLines hlines hrows
    refine ⟨earlier, d, later, _, after, _, _, hsplit, hstart, hnone, hstored.file, hmade.file,
      hstored.agree.trans hmade.agree, Or.inr ⟨good, fault, hbad, by rw [hlen], ?_, ?_, ?_⟩, ?_, ?_⟩
    · exact Database.rows?_addTable_self _ _
    · rw [Database.rows?, Database.rows?, hframe d List.mem_cons_self]
    · exact fun name hname => Database.table?_addTable_of_ne _ hname
    · rintro path hmissing
      cases fault <;> cases hmissing
    · intro l hl
      rw [Database.table?_addTable_of_ne _ (hlater l hl).2, hframe l (List.mem_cons_of_mem _ hl)]

/-! ## An example -/

/-- Two datasets that go into one database. -/
def twoDatasets : Config := ⟨"data", "cards.db", [⟨"A", "a.jsonl", "A"⟩, ⟨"B", "b.jsonl", "B"⟩]⟩

/-- The data files of the two datasets; the first has one card. -/
def filesWith (second : List UInt8) : Files :=
  ((Files.empty.put ["data"] .directory).put ["a.jsonl", "data"]
    (.file (Text.encode (bareCard "A")))).put ["b.jsonl", "data"] (.file second)

/-- A data file in which a line that is no text follows one that is a row. -/
def brokenBytes : List UInt8 := Text.encode (bareCard "B") ++ [0x0A, 0xFF]

theorem valid_twoDatasets : twoDatasets.Valid := by
  have hpass : (checkDatasets twoDatasets.datasets).toOption = some () := by decide +kernel
  unfold Config.Valid
  cases hcheck : checkDatasets twoDatasets.datasets with
  | error e => rw [hcheck] at hpass; cases hpass
  | ok _ => rfl

theorem databaseFile_filesWith (second : List UInt8) :
    DatabaseFile (filesWith second) twoDatasets.database ["cards.db"] {} where
  inFile := by decide
  leads := rfl
  holds := Or.inr ⟨rfl, rfl⟩

theorem fileApart_filesWith (second : List UInt8) :
    ∀ d ∈ twoDatasets.datasets, FileApart twoDatasets (filesWith second) ["cards.db"] d := by
  have hfirst : (filesWith second).locate "data/a.jsonl" = .ok ["a.jsonl", "data"] := rfl
  have hsecond : (filesWith second).locate "data/b.jsonl" = .ok ["b.jsonl", "data"] := rfl
  refine List.forall_mem_cons.mpr ⟨fun hplace => ?_, List.forall_mem_singleton.mpr fun hplace => ?_⟩
  · exact absurd (Except.ok.inj (hfirst.symm.trans hplace)) (by decide)
  · exact absurd (Except.ok.inj (hsecond.symm.trans hplace)) (by decide)

theorem start_broken :
    ∃ s, (loadDatasets twoDatasets).start (filesWith brokenBytes) =
      (.error (.io "data/b.jsonl" .notText), s) := by
  have hcheck : (match ((loadDatasets twoDatasets).start (filesWith brokenBytes)).1 with
      | .error (.io path .notText) => path == "data/b.jsonl"
      | _ => false) = true := by
    decide +kernel
  rcases hrun : (loadDatasets twoDatasets).start (filesWith brokenBytes) with ⟨out, s⟩
  rw [hrun] at hcheck
  split at hcheck
  · next path hout =>
    cases hout
    exact ⟨s, by rw [eq_of_beq hcheck]⟩
  · exact absurd hcheck Bool.false_ne_true

/-- The second of two datasets fails at its second line. -/
theorem loadDatasets_keeps_earlier_of_error_broken :
    ∃ s earlier d later dbAfter,
      (loadDatasets twoDatasets).start (filesWith brokenBytes) =
        (.error (.io "data/b.jsonl" .notText), s) ∧
      twoDatasets.datasets = earlier ++ d :: later ∧
      DatabaseFile s.files "cards.db" ["cards.db"] dbAfter ∧
      ∀ l ∈ later, dbAfter.table? l.table = none := by
  obtain ⟨s, hstart⟩ := start_broken
  obtain ⟨earlier, d, later, _, _, _, dbAfter, hsplit, -, -, -, hafter, -, -, -, hlater⟩ :=
    loadDatasets_keeps_earlier_of_error valid_twoDatasets (databaseFile_filesWith brokenBytes)
      (fileApart_filesWith brokenBytes) hstart
  exact ⟨s, earlier, d, later, dbAfter, hstart, hsplit, hafter, hlater⟩

end Load

end CardArchive
