import CardArchive.Proofs.FailedLoad
import CardArchive.Proofs.HeldRows

/-!
# Loading again

A run that ended at some dataset can be followed by another, and what comes of it is what comes of
the second run alone, provided that the data files of the datasets that were committed are the same
in both. The database between the runs holds the rows of the committed datasets, and may have a
table more, that of the dataset which failed: the second run adds the first ones without effect and
makes no difference between a table that it finds empty and one that it does not find.
-/

namespace CardArchive

/-- A database that was taken to other files is found under the same path. -/
theorem DatabaseFile.transfer {f g k : Files} {path : String} {place : Location} {db db' : Database}
    (h : DatabaseFile f path place db) (hagree : Files.AgreeOff place f g)
    (hk : DatabaseFile k path place db') (hlookup : g.lookup place = k.lookup place) :
    DatabaseFile g path place db' where
  inFile := h.inFile
  leads := hagree.locate h.lookup_ne_directory h.leads
  holds := by
    rw [Connection.databaseAt, hlookup]
    exact hk.holds

/-! ## Databases between two runs -/

namespace Database

/-- What a run leaves of a database when it has added the rows of some datasets and others remain:
there may be the table of the next one as well. -/
def Leaves (db : Database) (done : List (Dataset × List Row)) (rest : List Dataset)
    (left : Database) : Prop :=
  left = db.addDatasets done ∨
    ∃ d later, rest = d :: later ∧ left = (db.addDatasets done).addTable d.table

namespace Leaves

variable {db left : Database} {done more : List (Dataset × List Row)} {rest : List Dataset}

theorem holds (h : db.Leaves done rest left) (hpair : (done.map Prod.fst).Pairwise Dataset.Apart) :
    ∀ p ∈ done, left.Holds p.1.table p.2 := by
  have hdone := holds_addDatasets hpair db
  rcases h with rfl | ⟨d, later, -, rfl⟩
  · exact hdone
  · exact fun p hp => (hdone p hp).addTable d.table

/-- The datasets are added without effect, and a table that was made for the next one makes no
difference. -/
theorem addDatasets_eq (h : db.Leaves done (more.map Prod.fst) left)
    (hheld : ∀ p ∈ done, left.Holds p.1.table p.2) :
    left.addDatasets (done ++ more) = db.addDatasets (done ++ more) := by
  rw [addDatasets_append, addDatasets_eq_self hheld, addDatasets_append]
  rcases h with rfl | ⟨d, later, hmore, rfl⟩
  · rfl
  · obtain ⟨first, others, rfl, rfl, -⟩ := List.map_eq_cons_iff.mp hmore
    rw [addDatasets_cons, addRows_addTable, addDatasets_cons]

end Leaves

end Database

namespace Load

/-! ## Committed datasets -/

/-- The datasets that are committed when some datasets are loaded: those before the first that
fails. -/
def committed (config : Config) : Files → List Dataset → List Dataset
  | _, [] => []
  | f, d :: rest =>
    match (loadDataset config d).start f with
    | (.ok _, s) => d :: committed config s.files rest
    | (.error _, _) => []

theorem committed_nil (config : Config) (f : Files) : committed config f [] = [] := rfl

theorem committed_cons (config : Config) (f : Files) (d : Dataset) (rest : List Dataset) :
    committed config f (d :: rest) = match (loadDataset config d).start f with
      | (.ok _, s) => d :: committed config s.files rest
      | (.error _, _) => [] := rfl

section

variable {config : Config} {place : Location} {db : Database} {s s' : RunState}

theorem committed_cons_ok {d : Dataset} {stats : LoadStats}
    (h : (loadDataset config d).exec s = (.ok stats, s')) (rest : List Dataset) :
    committed config s.files (d :: rest) = d :: committed config s'.files rest := by
  obtain ⟨t, hrun, hfiles⟩ := (blind_loadDataset config d).start_of_exec h
  rw [committed_cons, hrun, ← hfiles]

theorem committed_cons_error {d : Dataset} {e : LoadError}
    (h : (loadDataset config d).exec s = (.error e, s')) (rest : List Dataset) :
    committed config s.files (d :: rest) = [] := by
  obtain ⟨t, hrun, -⟩ := (blind_loadDataset config d).start_of_exec h
  rw [committed_cons, hrun]

/-- Datasets that are loaded without an error are committed. -/
theorem committed_append {earlier : List Dataset} {stats : List LoadStats}
    (h : (loadEach config earlier).exec s = (.ok stats, s')) (rest : List Dataset) :
    committed config s.files (earlier ++ rest) = earlier ++ committed config s'.files rest := by
  induction earlier generalizing s stats with
  | nil =>
    obtain ⟨-, rfl⟩ := Prod.mk.inj h
    rfl
  | cons d others ih =>
    obtain ⟨first, more, s₁, hd, hmore, -⟩ := loadEach_cons_eq_ok h
    rw [List.cons_append, committed_cons_ok hd, ih hmore, List.cons_append]

/-- What any run leaves: the rows of the committed datasets, and at most the table of the one that
comes next. -/
theorem loadEach_leaves {datasets : List Dataset} {out : Except LoadError (List LoadStats)}
    (hfile : DatabaseFile s.files config.database place db)
    (hnames : ∀ d ∈ datasets, checkTable d.table = .ok ())
    (h : (loadEach config datasets).exec s = (out, s')) :
    ∃ done rest left, datasets = done.map Prod.fst ++ rest ∧
      committed config s.files datasets = done.map Prod.fst ∧
      (∀ p ∈ done, HasRows config s.files p.1 p.2) ∧
      DatabaseFile s'.files config.database place left ∧
      db.Leaves done rest left := by
  cases out with
  | ok stats =>
    obtain ⟨done, hmap, -, hstored, -, hrows⟩ := loadEach_eq_ok hfile hnames h
    have hall := committed_append h []
    rw [List.append_nil, committed_nil, List.append_nil] at hall
    exact ⟨done, [], _, by rw [hmap, List.append_nil], hall.trans hmap.symm,
      fun p hp => (hrows p hp).2, hstored.file, Or.inl rfl⟩
  | error e =>
    obtain ⟨earlier, d, later, stats, before, rfl, hearlier, hd⟩ := loadEach_eq_error h
    obtain ⟨done, rfl, -, hstored, -, hrows⟩ := loadEach_eq_ok hfile
      (fun a ha => hnames a (List.mem_append_left _ ha)) hearlier
    have hcommitted := committed_append hearlier (d :: later)
    rw [committed_cons_error hd, List.append_nil] at hcommitted
    have hread : ∀ p ∈ done, HasRows config s.files p.1 p.2 := fun p hp => (hrows p hp).2
    rcases loadDataset_eq_error hstored.file (hnames d (by simp)) hd with
      ⟨-, hkept⟩ | ⟨_, _, _, -, -, -, hput⟩
    · exact ⟨done, d :: later, _, rfl, hcommitted, hread, hkept ▸ hstored.file, Or.inl rfl⟩
    · exact ⟨done, d :: later, _, rfl, hcommitted, hread, hput ▸ hstored.file.put _,
        Or.inr ⟨d, later, rfl, rfl⟩⟩

end

/-! ## Runs that succeed, by their data files -/

section

variable {config : Config} {f g : Files} {place : Location} {db : Database}

/-- The rows of datasets are determined by their data files, as far as the datasets are the same. -/
theorem append_of_hasRows {done contents : List (Dataset × List Row)} {rest : List Dataset}
    (hmap : contents.map Prod.fst = done.map Prod.fst ++ rest)
    (hdone : ∀ p ∈ done, HasRows config f p.1 p.2)
    (hall : ∀ p ∈ contents, HasRows config f p.1 p.2) :
    ∃ more, contents = done ++ more ∧ more.map Prod.fst = rest := by
  induction done generalizing contents with
  | nil => exact ⟨contents, rfl, hmap⟩
  | cons p others ih =>
    obtain ⟨q, contents, rfl, hfst, hmap⟩ := List.map_eq_cons_iff.mp hmap
    obtain ⟨more, rfl, hmore⟩ := ih hmap (fun r hr => hdone r (List.mem_cons_of_mem _ hr))
      fun r hr => hall r (List.mem_cons_of_mem _ hr)
    have hq := hall q List.mem_cons_self
    rw [hfst] at hq
    have hsnd : q.2 = p.2 := hq.unique (hdone p List.mem_cons_self)
    exact ⟨more, by rw [Prod.ext hfst hsnd, List.cons_append], hmore⟩

theorem eq_of_hasRows {contents contents' : List (Dataset × List Row)}
    (hmap : contents.map Prod.fst = contents'.map Prod.fst)
    (h : ∀ p ∈ contents, HasRows config f p.1 p.2)
    (h' : ∀ p ∈ contents', HasRows config f p.1 p.2) : contents = contents' := by
  obtain ⟨more, rfl, hmore⟩ := append_of_hasRows (hmap.trans (List.append_nil _).symm) h' h
  rw [List.map_eq_nil_iff.mp hmore, List.append_nil]

/-- A run succeeds exactly when all data files have only rows, and then it has added these rows to
the database and done nothing else. -/
theorem loadDatasets_eq_ok_iff (hvalid : config.Valid)
    (hfile : DatabaseFile f config.database place db)
    (hapart : ∀ d ∈ config.datasets, FileApart config f place d) {summary : RunSummary} :
    (∃ s, (loadDatasets config).start f = (.ok summary, s) ∧ s.files = g) ↔
      ∃ contents, contents.map Prod.fst = config.datasets ∧
        (∀ p ∈ contents, HasRows config f p.1 p.2) ∧ summary = ⟨statsOf db contents⟩ ∧
        g = f.put place (.database (db.addDatasets contents)) := by
  -- a run of the datasets that succeeds is one of the rows in their data files
  have hok : ∀ stats s', (loadEach config config.datasets).start f = (.ok stats, s') →
      ∃ contents, contents.map Prod.fst = config.datasets ∧
        (∀ p ∈ contents, HasRows config f p.1 p.2) ∧ stats = statsOf db contents ∧
        s'.files = f.put place (.database (db.addDatasets contents)) := by
    intro stats s' hrun
    obtain ⟨contents, hmap, hstats, hstored, hlast, hrows⟩ := loadEach_eq_ok
      (s := ⟨f, []⟩) hfile (fun d hd => hvalid.checkTable hd) hrun
    exact ⟨contents, hmap, fun p hp => (hrows p hp).2, hstats,
      hstored.agree.eq_put (hlast hvalid.ne_nil)⟩
  rw [start_loadDatasets_eq_ok_iff]
  constructor
  · rintro ⟨s, hs, rfl⟩
    obtain ⟨contents, hmap, hrows, hstats, hfiles⟩ := hok _ s hs
    exact ⟨contents, hmap, hrows, congrArg RunSummary.mk hstats, hfiles⟩
  · rintro ⟨contents, hmap, hrows, rfl, rfl⟩
    have hmem : ∀ p ∈ contents, p.1 ∈ config.datasets := fun p hp =>
      hmap ▸ List.mem_map_of_mem hp
    obtain ⟨s', hrun⟩ := exec_loadEach_of_hasRows (s := ⟨f, []⟩) hfile
      (fun p hp => hvalid.checkTable (hmem p hp)) (fun p hp => hapart _ (hmem p hp)) hrows
    rw [hmap] at hrun
    obtain ⟨contents', hmap', hrows', -, hfiles⟩ := hok _ s' hrun
    cases eq_of_hasRows (hmap'.trans hmap.symm) hrows' hrows
    exact ⟨s', hrun, hfiles⟩

theorem HasRows.of_read {d : Dataset} {rows : List Row} (h : HasRows config f d rows)
    (hread : g.read (config.inputPath d) = f.read (config.inputPath d)) :
    HasRows config g d rows := by
  obtain ⟨lines, hlines, hrows⟩ := h
  refine ⟨lines, ?_, hrows⟩
  rw [inputLines, hread]
  exact hlines

end

/-! ## Two runs -/

section

variable {config : Config} {f₁ f₂ again : Files} {place : Location} {db : Database}

/-- A run after another comes to the same as the second run alone, when the data files that were
committed are the same in both: it adds the same rows, of which it skips those that the first run
has committed. -/
theorem start_again (hvalid : config.Valid) (h₁ : DatabaseFile f₁ config.database place db)
    (h₂ : DatabaseFile f₂ config.database place db)
    (hapart₂ : ∀ d ∈ config.datasets, FileApart config f₂ place d)
    (hsame : ∀ d ∈ committed config f₁ config.datasets,
      f₂.read (config.inputPath d) = f₁.read (config.inputPath d))
    (hagain : Files.AgreeOff place f₂ again)
    (hdb : again.lookup place = ((loadDatasets config).start f₁).2.files.lookup place) :
    ∃ left, (∀ summary g,
        (∃ s, (loadDatasets config).start again = (.ok summary, s) ∧ s.files = g) ↔
          ∃ contents, contents.map Prod.fst = config.datasets ∧
            (∀ p ∈ contents, HasRows config f₂ p.1 p.2) ∧ summary = ⟨statsOf left contents⟩ ∧
            g = f₂.put place (.database (db.addDatasets contents))) ∧
      ∀ contents, contents.map Prod.fst = config.datasets →
        (∀ p ∈ contents, HasRows config f₂ p.1 p.2) →
        ∀ d ∈ committed config f₁ config.datasets, ∀ stats ∈ statsOf left contents,
          stats.tag = d.tag → stats.inserted = 0 ∧ stats.skipped = stats.read := by
  obtain ⟨first, rfl, hstart⟩ := start_loadDatasets config f₁
  rcases hrun : (loadEach config config.datasets).exec first with ⟨out, s₁⟩
  obtain ⟨done, rest, left, hsplit, hdone, hrows, hleft, hleaves⟩ := loadEach_leaves h₁
    (fun d hd => hvalid.checkTable hd) hrun
  have hfiles : ((loadDatasets config).start first.files).2.files = s₁.files := by
    rw [hstart _ _ hrun]
    cases out <;> rfl
  rw [hfiles] at hdb
  have hag : DatabaseFile again config.database place left := h₂.transfer hagain hleft hdb
  have hapart : ∀ d ∈ config.datasets, FileApart config again place d :=
    fun d hd => (hapart₂ d hd).of_agreeOff hagain hag.lookup_ne_directory
  have hrows₂ : ∀ p ∈ done, HasRows config f₂ p.1 p.2 := fun p hp =>
    (hrows p hp).of_read (hsame p.1 (hdone ▸ List.mem_map_of_mem hp))
  have hheld : ∀ p ∈ done, left.Holds p.1.table p.2 :=
    hleaves.holds (List.pairwise_append.mp (hsplit ▸ hvalid.pairwise)).1
  -- what the second run adds begins with what the first has committed
  have hcontents : ∀ contents, contents.map Prod.fst = config.datasets →
      (∀ p ∈ contents, HasRows config f₂ p.1 p.2) →
      left.addDatasets contents = db.addDatasets contents ∧
        ∀ d ∈ committed config first.files config.datasets, ∀ stats ∈ statsOf left contents,
          stats.tag = d.tag → stats.inserted = 0 ∧ stats.skipped = stats.read := by
    intro contents hmap hall
    obtain ⟨more, rfl, rfl⟩ := append_of_hasRows (hmap.trans hsplit) hrows₂ hall
    exact ⟨hleaves.addDatasets_eq hheld,
      hdone ▸ statsOf_append_of_holds (hmap ▸ hvalid.pairwise) hheld⟩
  refine ⟨left, fun summary g => ?_, fun contents hmap hall => (hcontents contents hmap hall).2⟩
  rw [loadDatasets_eq_ok_iff hvalid hag hapart]
  constructor
  · rintro ⟨contents, hmap, hall, rfl, rfl⟩
    have hall₂ : ∀ p ∈ contents, HasRows config f₂ p.1 p.2 := fun p hp =>
      (hall p hp).of_agreeOff hagain.symm hag.lookup_ne_directory
        (hapart _ (hmap ▸ List.mem_map_of_mem hp))
    exact ⟨contents, hmap, hall₂, rfl, by rw [(hcontents contents hmap hall₂).1, hagain.put_eq]⟩
  · rintro ⟨contents, hmap, hall₂, rfl, rfl⟩
    refine ⟨contents, hmap, fun p hp => ?_, rfl, ?_⟩
    · exact (hall₂ p hp).of_agreeOff hagain h₂.lookup_ne_directory
        (hapart₂ _ (hmap ▸ List.mem_map_of_mem hp))
    · rw [(hcontents contents hmap hall₂).1, hagain.put_eq]

/-- A run that follows another, interrupted or not, on data files of which those that were committed
are the same, succeeds when it would have succeeded alone, leaves the same files, and skips all that
was committed. In particular a second run on the same files changes nothing. -/
theorem loadDatasets_resumes (hvalid : config.Valid)
    (h₁ : DatabaseFile f₁ config.database place db)
    (h₂ : DatabaseFile f₂ config.database place db)
    (hapart₁ : ∀ d ∈ config.datasets, FileApart config f₁ place d)
    (hapart₂ : ∀ d ∈ config.datasets, FileApart config f₂ place d)
    (hsame : ∀ d ∈ committed config f₁ config.datasets,
      f₂.read (config.inputPath d) = f₁.read (config.inputPath d))
    (hagain : again = f₂.takeAt place ((loadDatasets config).start f₁).2.files) :
    ((∃ summary s, (loadDatasets config).start again = (.ok summary, s)) ↔
      ∃ summary s, (loadDatasets config).start f₂ = (.ok summary, s)) ∧
    (∀ summary s summary' s', (loadDatasets config).start again = (.ok summary, s) →
      (loadDatasets config).start f₂ = (.ok summary', s') →
      s.files = s'.files ∧
      summary.datasets.map LoadStats.tag = config.datasets.map Dataset.tag ∧
      ∀ d ∈ committed config f₁ config.datasets, ∀ stats ∈ summary.datasets, stats.tag = d.tag →
        stats.inserted = 0 ∧ stats.skipped = stats.read) ∧
    ∀ summary s, (loadDatasets config).start f₁ = (.ok summary, s) →
      ∃ summary' s', (loadDatasets config).start s.files = (.ok summary', s') ∧
        s'.files = s.files := by
  obtain ⟨left, hiff, hskipped⟩ := start_again hvalid h₁ h₂ hapart₂ hsame
    (hagain ▸ Files.agreeOff_takeAt f₂ place _) (hagain ▸ Files.lookup_takeAt_self f₂ place _)
  refine ⟨⟨?_, ?_⟩, ?_, ?_⟩
  · rintro ⟨summary, s, hs⟩
    obtain ⟨contents, hmap, hall, -⟩ := (hiff summary s.files).mp ⟨s, hs, rfl⟩
    obtain ⟨s', hs', -⟩ := (loadDatasets_eq_ok_iff hvalid h₂ hapart₂).mpr
      ⟨contents, hmap, hall, rfl, rfl⟩
    exact ⟨_, s', hs'⟩
  · rintro ⟨summary, s, hs⟩
    obtain ⟨contents, hmap, hall, -⟩ :=
      (loadDatasets_eq_ok_iff hvalid h₂ hapart₂).mp ⟨s, hs, rfl⟩
    obtain ⟨s', hs', -⟩ := (hiff _ _).mpr ⟨contents, hmap, hall, rfl, rfl⟩
    exact ⟨_, s', hs'⟩
  · intro summary s summary' s' hs hs'
    obtain ⟨contents, hmap, hall, rfl, hfiles⟩ := (hiff summary s.files).mp ⟨s, hs, rfl⟩
    obtain ⟨contents', hmap', hall', -, hfiles'⟩ :=
      (loadDatasets_eq_ok_iff hvalid h₂ hapart₂).mp ⟨s', hs', rfl⟩
    cases eq_of_hasRows (hmap.trans hmap'.symm) hall hall'
    refine ⟨hfiles.trans hfiles'.symm, ?_, hskipped contents hmap hall⟩
    rw [map_tag_statsOf, ← hmap, List.map_map]
    rfl
  · -- the files that the first run leaves are those of a second run on the same data files
    intro summary s hs
    obtain ⟨contents, hmap, hall, -, hfiles⟩ :=
      (loadDatasets_eq_ok_iff hvalid h₁ hapart₁).mp ⟨s, hs, rfl⟩
    have hagree : Files.AgreeOff place f₁ s.files := hfiles ▸ Files.agreeOff_put f₁ place _
    obtain ⟨_, htwice, -⟩ := start_again hvalid h₁ h₁ hapart₁ (fun _ _ => rfl) hagree
      (by rw [hs])
    obtain ⟨s', hs', hsame⟩ := (htwice _ _).mpr ⟨contents, hmap, hall, rfl, rfl⟩
    exact ⟨_, s', hs', hsame.trans hfiles.symm⟩

end

/-! ## An example -/

/-- The second data file after it was mended. -/
def mendedBytes : List UInt8 := Text.encode (bareCard "B")

theorem read_filesWith_first (second : List UInt8) :
    (filesWith second).read "data/a.jsonl" = .ok (Text.encode (bareCard "A")) := by
  rfl

theorem read_filesWith_second (second : List UInt8) :
    (filesWith second).read "data/b.jsonl" = .ok second := by
  rfl

theorem committed_broken :
    committed twoDatasets (filesWith brokenBytes) twoDatasets.datasets =
      [⟨"A", "a.jsonl", "A"⟩] := by
  decide +kernel

theorem hasRows_mended :
    ∀ p ∈ [((⟨"A", "a.jsonl", "A"⟩ : Dataset), [bareRow "A"]),
        (⟨"B", "b.jsonl", "B"⟩, [bareRow "B"])],
      HasRows twoDatasets (filesWith mendedBytes) p.1 p.2 := by
  refine List.forall_mem_cons.mpr ⟨?_, List.forall_mem_singleton.mpr ?_⟩
  · have hlines : Text.splitLines (Text.encode (bareCard "A")) = [Text.encode (bareCard "A")] := by
      decide +kernel
    exact ⟨_, inputLines_eq_ok_iff.mpr ⟨_, read_filesWith_first _, hlines⟩,
      Row.ofLines_cons_ok ofBytes_bareCard_first []⟩
  · have hlines : Text.splitLines (Text.encode (bareCard "B")) = [Text.encode (bareCard "B")] := by
      decide +kernel
    exact ⟨_, inputLines_eq_ok_iff.mpr ⟨_, read_filesWith_second _, hlines⟩,
      Row.ofLines_cons_ok ofBytes_bareCard_second []⟩

/-- The first run fails at the second dataset, whose data file is then mended. The second run loads
it and skips the first dataset. -/
theorem loadDatasets_resumes_mended :
    ∃ summary s s', (loadDatasets twoDatasets).start ((filesWith mendedBytes).takeAt ["cards.db"]
        ((loadDatasets twoDatasets).start (filesWith brokenBytes)).2.files) = (.ok summary, s) ∧
      (∃ alone, (loadDatasets twoDatasets).start (filesWith mendedBytes) = (.ok alone, s')) ∧
      s.files = s'.files ∧ summary.datasets.map LoadStats.tag = ["A", "B"] ∧
      ∀ stats ∈ summary.datasets, stats.tag = "A" → stats.inserted = 0 := by
  have hsame : ∀ d ∈ committed twoDatasets (filesWith brokenBytes) twoDatasets.datasets,
      (filesWith mendedBytes).read (twoDatasets.inputPath d) =
        (filesWith brokenBytes).read (twoDatasets.inputPath d) := by
    intro d hd
    rw [committed_broken] at hd
    cases List.mem_singleton.mp hd
    exact (read_filesWith_first _).trans (read_filesWith_first _).symm
  obtain ⟨hiff, hall, -⟩ := loadDatasets_resumes valid_twoDatasets
    (databaseFile_filesWith brokenBytes) (databaseFile_filesWith mendedBytes)
    (fileApart_filesWith brokenBytes) (fileApart_filesWith mendedBytes) hsame rfl
  obtain ⟨s', halone, -⟩ := (loadDatasets_eq_ok_iff valid_twoDatasets
    (databaseFile_filesWith mendedBytes) (fileApart_filesWith mendedBytes)).mpr
      ⟨_, rfl, hasRows_mended, rfl, rfl⟩
  obtain ⟨summary, s, hs⟩ := hiff.mpr ⟨_, s', halone⟩
  obtain ⟨hfiles, htags, hskipped⟩ := hall _ _ _ _ hs halone
  refine ⟨summary, s, s', hs, ⟨_, halone⟩, hfiles, htags, fun stats hstats htag => ?_⟩
  refine (hskipped ⟨"A", "a.jsonl", "A"⟩ ?_ stats hstats htag).1
  rw [committed_broken]
  exact List.mem_singleton_self _

end Load

end CardArchive
