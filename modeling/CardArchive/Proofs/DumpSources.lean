import CardArchive.Proofs.ConvertRun
import CardArchive.Proofs.Ways

/-!
# Plain and compressed dumps

A dataset is converted from its plain dump, or from the compressed one where there is no plain one.
Which of them is read and how it is read are decided apart from each other, by what there is and by
the extension of the path. That the two always agree, and that a dump never gets in the way of the
other one or of the data file, rests on the names of the three files: behind the same front they are
different, and only the compressed dump has the extension of one.
-/

namespace CardArchive.Convert

open CardArchive.Path (IsFront IsName Trailing)

/-! ## The names of the files of a dataset -/

/-- How the files of a dataset are named: behind the same front, the plain dump, the compressed dump
and the data file have different last names. -/
structure DumpNames (dataDir : String) (d : Dataset) where
  front : List Char
  /-- The last name of the plain dump. -/
  dump : List Char
  /-- The last name of the data file. -/
  data : List Char
  /-- What stands behind the last name of the data file. -/
  trail : List Char
  isFront : IsFront front
  dumpIsName : IsName dump
  dataIsName : IsName data
  trailing : Trailing trail.reverse
  plain_eq : (plainDump dataDir d).toList = front ++ dump
  output_eq : (outputPath dataDir d).toList = front ++ (data ++ trail)
  data_ne : data ≠ dump ++ '.' :: compressedExtension.toList
  /-- The plain dump has not the extension of compressed ones. -/
  isPlain : dump = ['.', '.'] ∨ (Path.splitName dump).2 ≠ some compressedExtension.toList

theorem nonempty_dumpNames (dataDir : String) {d : Dataset}
    (h : (Path.lastName? d.inputFile.toList).isSome = true) : Nonempty (DumpNames dataDir d) := by
  obtain ⟨⟨before, name⟩, hlast⟩ := Option.isSome_iff_exists.mp h
  obtain ⟨hbefore, hname, hup, trail, htrail, hinput⟩ := Path.lastName?_eq_some hlast
  -- the new extension stands behind the stem, unless the stem is a point and two points are left
  obtain ⟨dump, hdump, hfile, hne, hplain⟩ : ∃ dump, IsName dump ∧
      d.dumpFile.toList = before ++ dump ∧ name ≠ dump ++ '.' :: compressedExtension.toList ∧
      (dump = ['.', '.'] ∨ (Path.splitName dump).2 ≠ some compressedExtension.toList) := by
    rcases Path.withExtension_cases hlast "xml" with hfile | ⟨hstem, hfile⟩
    · have hdump := Path.isName_of_stem hname.stem_ne_nil hname.not_mem_stem
        (show '/' ∉ "xml".toList by decide)
      refine ⟨_, hdump, hfile, ?_, ?_⟩
      · rw [List.append_assoc]
        exact Path.ne_stem_append name (by decide)
      · rw [Path.splitName_append hname.stem_ne_nil (by decide)]
        exact Or.inr fun heq => absurd (Option.some.inj heq) (by decide)
    · refine ⟨['.', '.'], ⟨by decide, by decide, by decide⟩, hfile, ?_, Or.inl rfl⟩
      have hpoint : '.' ∈ '.' :: compressedExtension.toList := by decide
      have hne := Path.ne_stem_append name hpoint
      rwa [hstem] at hne
  -- both names are absolute or neither is, so the data directory stands in front of both or of none
  have hhead : d.inputFile.toList.head? = some '/' ↔ d.dumpFile.toList.head? = some '/' := by
    rw [hinput, hfile, ← List.append_nil dump, Path.head?_front_name hname,
      Path.head?_front_name hdump]
  obtain ⟨base, hbase, houtput, hdumpPath⟩ := Path.exists_join_front dataDir hhead
  exact ⟨{
    front := base ++ before
    dump := dump
    data := name
    trail := trail
    isFront := hbase.append hbefore
    dumpIsName := hdump
    dataIsName := hname
    trailing := htrail
    plain_eq := by rw [plainDump, hdumpPath, hfile, List.append_assoc]
    output_eq := by rw [outputPath, houtput, hinput, List.append_assoc]
    data_ne := hne
    isPlain := hplain }⟩

namespace DumpNames

variable {dataDir : String} {d : Dataset} (n : DumpNames dataDir d)

/-- The last name of the compressed dump. -/
def compressed : List Char := n.dump ++ '.' :: compressedExtension.toList

theorem compressedIsName : IsName n.compressed :=
  Path.isName_of_stem n.dumpIsName.ne_nil n.dumpIsName.not_mem (by decide)

theorem compressed_eq : (compressedDump dataDir d).toList = n.front ++ n.compressed := by
  rw [compressedDump, String.toList_append, String.toList_append, n.plain_eq, compressed,
    List.append_assoc, List.append_assoc]
  rfl

theorem compressed_ne_up : n.compressed ≠ ['.', '.'] := fun heq => by
  have hlength := congrArg List.length heq
  rw [compressed, List.length_append] at hlength
  have hthree : ('.' :: compressedExtension.toList).length = 3 := rfl
  have htwo : ['.', '.'].length = 2 := rfl
  omega

include n in
theorem extension?_plain : Path.extension? (plainDump dataDir d) ≠ some compressedExtension := by
  rw [Path.extension?_of_name n.isFront n.dumpIsName n.plain_eq]
  split
  · simp
  · next hup =>
    intro heq
    obtain ⟨extension, hextension, hof⟩ := Option.map_eq_some_iff.mp heq
    refine n.isPlain.elim hup fun hne => hne ?_
    rw [hextension, ← hof, String.toList_ofList]

include n in
theorem extension?_compressed :
    Path.extension? (compressedDump dataDir d) = some compressedExtension := by
  rw [Path.extension?_of_name n.isFront n.compressedIsName n.compressed_eq,
    if_neg n.compressed_ne_up, compressed, Path.splitName_append n.dumpIsName.ne_nil (by decide),
    Option.map_some, String.ofList_toList]

variable {f g : Files} {place : Location}

theorem exists_directory (h : f.locate (compressedDump dataDir d) = .ok place) :
    ∃ here, f.frontPlace n.front = .ok here ∧ f.lookup here = some .directory ∧
      place = Files.enter here (String.ofList n.compressed) :=
  Files.locate_eq_ok n.isFront n.compressedIsName n.compressed_eq h

include n in
/-- What lies at the place of the compressed dump has no influence on where the plain dump and the
data file are. -/
theorem locate_beside (hplace : f.locate (compressedDump dataDir d) = .ok place)
    (hfile : f.lookup place ≠ some .directory) (h : Files.AgreeOff place f g) :
    (g.locate (plainDump dataDir d) = f.locate (plainDump dataDir d) ∧
      f.locate (plainDump dataDir d) ≠ .ok place) ∧
    g.locate (outputPath dataDir d) = f.locate (outputPath dataDir d) ∧
      f.locate (outputPath dataDir d) ≠ .ok place := by
  obtain ⟨here, hhere, hdir, rfl⟩ := n.exists_directory hplace
  have hplain : n.dump ≠ n.compressed := fun heq => by
    have hlength := congrArg List.length heq
    rw [compressed, List.length_append, List.length_cons] at hlength
    omega
  constructor
  · have htrail : Trailing ([] : List Char).reverse := .nil
    refine h.locate_beside hfile hhere hdir n.isFront n.dumpIsName htrail ?_ ?_
    · rw [n.plain_eq, List.append_nil]
    · exact Files.enter_ne here (mt String.ofList_inj.mp hplain)
  · refine h.locate_beside hfile hhere hdir n.isFront n.dataIsName n.trailing n.output_eq ?_
    exact Files.enter_ne here (mt String.ofList_inj.mp n.data_ne)

end DumpNames

/-! ## Which dump is read, and how -/

section

variable {dataDir : String} {d : Dataset} {f g : Files} {place : Location}

theorem source_of_plain (h : f.exists? (plainDump dataDir d) = true) :
    source f dataDir d = plainDump dataDir d := if_pos h

theorem source_of_compressed (hplain : f.exists? (plainDump dataDir d) = false)
    (h : f.exists? (compressedDump dataDir d) = true) :
    source f dataDir d = compressedDump dataDir d := by
  rw [source, hplain, if_neg Bool.false_ne_true, if_pos h]

theorem source_of_none (hplain : f.exists? (plainDump dataDir d) = false)
    (h : f.exists? (compressedDump dataDir d) = false) :
    source f dataDir d = plainDump dataDir d := by
  rw [source, hplain, h, if_neg Bool.false_ne_true, if_neg Bool.false_ne_true]

/-- The text that bytes stand for, of a dump at a path. -/
def textOf (path : String) (bytes : List UInt8) : Except ConvertError String :=
  (Text.decode bytes).elim (.error (.io path .notText)) .ok

theorem decodeDump_plain (n : DumpNames dataDir d) (bytes : List UInt8) :
    decodeDump (plainDump dataDir d) bytes = textOf (plainDump dataDir d) bytes := by
  rw [decodeDump, if_neg n.extension?_plain, textOf]
  cases h : Text.decode bytes with
  | none => simp only [pure_bind, h]; rfl
  | some text => simp only [pure_bind, h]; rfl

theorem decodeDump_compressed (n : DumpNames dataDir d) (bytes : List UInt8) :
    decodeDump (compressedDump dataDir d) bytes =
      (Gzip.decode? bytes).elim (.error (.io (compressedDump dataDir d) .damaged))
        (textOf (compressedDump dataDir d)) := by
  rw [decodeDump, if_pos n.extension?_compressed]
  cases hz : Gzip.decode? bytes with
  | none => rfl
  | some b =>
    rw [Option.elim_some, textOf]
    cases h : Text.decode b with
    | none => simp only [pure_bind, h]; rfl
    | some text => simp only [pure_bind, h]; rfl

/-! ## Runs on one dataset -/

theorem start_convertDataset (dataDir : String) (d : Dataset) (f : Files) :
    ((convertDataset dataDir d).start f).1 = (converted dataDir f d).map Prod.fst ∧
      ((convertDataset dataDir d).start f).2.files = match converted dataDir f d with
        | .error _ => f
        | .ok (_, g) => g := by
  obtain ⟨s, hrun, hfiles⟩ := exec_convertDataset dataDir d ⟨f, []⟩
  rw [Run.start_eq_exec, hrun]
  exact ⟨rfl, hfiles⟩

theorem start_of_dumpCards_error {e : ConvertError}
    (h : dumpCards f (source f dataDir d) = .error e) :
    ((convertDataset dataDir d).start f).1 = .error e ∧
      ((convertDataset dataDir d).start f).2.files = f := by
  have hstart := start_convertDataset dataDir d f
  rwa [converted_eq_error_iff.mpr (Or.inl h)] at hstart

theorem start_of_write_error {cards : List DumpCard} {fault : FileFault}
    (h : dumpCards f (source f dataDir d) = .ok cards)
    (hwrite : f.write (outputPath dataDir d) (Text.encode (Dump.dataText cards)) = .error fault) :
    ((convertDataset dataDir d).start f).1 = .error (.io (outputPath dataDir d) fault) ∧
      ((convertDataset dataDir d).start f).2.files = f := by
  have hstart := start_convertDataset dataDir d f
  rwa [converted_eq_error_iff.mpr (Or.inr ⟨cards, fault, h, hwrite, rfl⟩)] at hstart

theorem start_of_write_ok {cards : List DumpCard}
    (h : dumpCards f (source f dataDir d) = .ok cards)
    (hwrite : f.write (outputPath dataDir d) (Text.encode (Dump.dataText cards)) = .ok g) :
    ((convertDataset dataDir d).start f).1 =
        .ok ⟨d.tag, source f dataDir d, outputPath dataDir d, cards.length⟩ ∧
      ((convertDataset dataDir d).start f).2.files = g := by
  have hstart := start_convertDataset dataDir d f
  rwa [converted_eq_ok_iff.mpr ⟨cards, h, hwrite, rfl⟩] at hstart

/-- Where there is a plain dump, what lies at the place of the compressed one makes no
difference. -/
theorem start_beside_compressed (n : DumpNames dataDir d)
    (hplain : f.exists? (plainDump dataDir d) = true)
    (hplace : f.locate (compressedDump dataDir d) = .ok place)
    (hfile : f.lookup place ≠ some .directory) (h : Files.AgreeOff place f g) :
    ((convertDataset dataDir d).start g).1 = ((convertDataset dataDir d).start f).1 ∧
      Files.AgreeOff place ((convertDataset dataDir d).start f).2.files
        ((convertDataset dataDir d).start g).2.files ∧
      ((convertDataset dataDir d).start g).2.files.read (outputPath dataDir d) =
        ((convertDataset dataDir d).start f).2.files.read (outputPath dataDir d) := by
  obtain ⟨⟨hlocate, hne⟩, houtput, houtput_ne⟩ := n.locate_beside hplace hfile h
  -- neither the plain dump nor the data file lies at the place, so both are found as before
  have hplain' : g.exists? (plainDump dataDir d) = true := by
    rw [Files.exists?, h.open?_eq hlocate hne]
    exact hplain
  have hsource : source g dataDir d = source f dataDir d := by
    rw [source_of_plain hplain, source_of_plain hplain']
  have hcards : dumpCards g (source g dataDir d) = dumpCards f (source f dataDir d) := by
    rw [source_of_plain hplain, source_of_plain hplain', dumpCards, dumpCards, readDump, readDump,
      h.read_eq hlocate hne]
  cases hc : dumpCards f (source f dataDir d) with
  | error e =>
    obtain ⟨hf, hleft⟩ := start_of_dumpCards_error hc
    obtain ⟨hg, hleft'⟩ := start_of_dumpCards_error (hcards.trans hc)
    rw [hf, hg, hleft, hleft']
    exact ⟨rfl, h, h.read_eq houtput houtput_ne⟩
  | ok cards =>
    rcases h.write_cases houtput houtput_ne (Text.encode (Dump.dataText cards)) with
      ⟨fault, hw, hw'⟩ | ⟨f', g', hw, hw', hagree⟩
    · obtain ⟨hf, hleft⟩ := start_of_write_error hc hw
      obtain ⟨hg, hleft'⟩ := start_of_write_error (hcards.trans hc) hw'
      rw [hf, hg, hleft, hleft']
      exact ⟨rfl, h, h.read_eq houtput houtput_ne⟩
    · obtain ⟨hf, hleft⟩ := start_of_write_ok hc hw
      obtain ⟨hg, hleft'⟩ := start_of_write_ok (hcards.trans hc) hw'
      rw [hf, hg, hleft, hleft', hsource, Files.read_of_write hw, Files.read_of_write hw']
      exact ⟨rfl, hagree, rfl⟩

/-! ## Converting from the compressed dump -/

/-- Outcomes of converting a dataset from two dumps, at different paths but with the same bytes in
the end. Only the path of the dump is different; but the reason why a data file cannot be written
may be a different one when the one dump is in its way and the other is not. -/
inductive SameButDump (output dump other : String) :
    Except ConvertError ConvertStats → Except ConvertError ConvertStats → Prop where
  | converted (tag : String) (cards : Nat) : SameButDump output dump other
      (.ok ⟨tag, dump, output, cards⟩) (.ok ⟨tag, other, output, cards⟩)
  | unreadable (fault : FileFault) :
      SameButDump output dump other (.error (.io dump fault)) (.error (.io other fault))
  | invalidXml : SameButDump output dump other (.error .invalidXml) (.error .invalidXml)
  | card (fault : CardFault) :
      SameButDump output dump other (.error (.card fault)) (.error (.card fault))
  | unwritable (fault reason : FileFault) :
      SameButDump output dump other (.error (.io output fault)) (.error (.io output reason))

/-- Where there is only a compressed dump, there is a place for a plain one. -/
theorem DumpNames.exists_plain_place (n : DumpNames dataDir d)
    (hplain : f.exists? (plainDump dataDir d) = false) {bytes : List UInt8}
    (h : f.read (compressedDump dataDir d) = .ok bytes) :
    ∃ place, f.locate (plainDump dataDir d) = .ok place ∧ f.lookup place = none := by
  obtain ⟨at_, hat, -⟩ := Files.read_eq_ok_iff.mp h
  obtain ⟨here, hhere, hdir, rfl⟩ := n.exists_directory hat
  -- what a file can have as its name with an extension, it can have without the extension
  have hpath : compressedDump dataDir d = plainDump dataDir d ++ ("." ++ compressedExtension) := by
    rw [compressedDump, String.append_assoc]
  have hname : String.ofList n.compressed =
      String.ofList n.dump ++ ("." ++ compressedExtension) := by
    rw [compressed, String.ofList_append]
    rfl
  obtain ⟨hclean, hshort, hfits, -⟩ :=
    (Files.locate_eq_ok_iff n.isFront n.compressedIsName n.compressed_eq hhere hdir).mp hat
  have hlocate : f.locate (plainDump dataDir d) =
      .ok (Files.enter here (String.ofList n.dump)) := by
    refine (Files.locate_eq_ok_iff n.isFront n.dumpIsName n.plain_eq hhere hdir).mpr
      ⟨?_, ?_, ?_, rfl⟩
    · rw [hpath, String.toList_append, List.mem_append, not_or] at hclean
      exact hclean.1
    · rw [hpath, String.utf8ByteSize_append] at hshort
      omega
    · refine hfits.elim (fun hup => absurd hup n.compressed_ne_up) fun hlong => Or.inr ?_
      rw [hname, String.utf8ByteSize_append] at hlong
      omega
  refine ⟨_, hlocate, ?_⟩
  cases hlookup : f.lookup (Files.enter here (String.ofList n.dump)) with
  | none => rfl
  | some e =>
    rw [Files.exists?, Files.open?, hlocate] at hplain
    simp [bind, Except.bind, hlookup, Except.toBool] at hplain

theorem exists_write (h : Files.AgreeOff place f g) (hf : f.lookup place ≠ some .directory)
    (hg : g.lookup place ≠ some .directory) {path : String} {bytes : List UInt8} {f' : Files}
    (hwrite : f.write path bytes = .ok f') : ∃ g', g.write path bytes = .ok g' := by
  obtain ⟨at_, hat, hdir, -⟩ := Files.write_eq_ok_iff.mp hwrite
  refine ⟨_, Files.write_eq_ok_iff.mpr ⟨at_, h.locate hf hat, ?_, rfl⟩⟩
  by_cases heq : at_ = place
  · exact heq ▸ hg
  · exact h at_ heq ▸ hdir

/-- The path of a dump is no matter for its cards, only for an error that names the dump. -/
theorem textOf_bind_cardsOf_cases (output dump other : String) (content : List UInt8) :
    (∃ e e', (textOf dump content).bind cardsOf = .error e ∧
      (textOf other content).bind cardsOf = .error e' ∧
      SameButDump output dump other (.error e) (.error e')) ∨
    ∃ cards, (textOf dump content).bind cardsOf = .ok cards ∧
      (textOf other content).bind cardsOf = .ok cards := by
  unfold textOf
  cases Text.decode content with
  | none => exact Or.inl ⟨_, _, rfl, rfl, .unreadable .notText⟩
  | some text =>
    simp only [Option.elim_some, Except.bind, cardsOf]
    cases Xml.rootElement? text with
    | none => exact Or.inl ⟨_, _, rfl, rfl, .invalidXml⟩
    | some root =>
      dsimp only
      cases Dump.cards root with
      | error fault => exact Or.inl ⟨_, _, rfl, rfl, .card fault⟩
      | ok cards => exact Or.inr ⟨cards, rfl, rfl⟩

/-- Two dumps with the same cards are written alike, though one of them may lie in the way of the data
file: then it lies there as a file, to be replaced. -/
theorem start_of_same_cards {cards : List DumpCard} (hagree : Files.AgreeOff place f g)
    (hf : f.lookup place ≠ some .directory) (hg : g.lookup place ≠ some .directory)
    (hcards : dumpCards f (source f dataDir d) = .ok cards)
    (hcards' : dumpCards g (source g dataDir d) = .ok cards) :
    SameButDump (outputPath dataDir d) (source f dataDir d) (source g dataDir d)
        ((convertDataset dataDir d).start f).1 ((convertDataset dataDir d).start g).1 ∧
      ∀ stats, ((convertDataset dataDir d).start f).1 = .ok stats → ∃ data,
        ((convertDataset dataDir d).start f).2.files.read (outputPath dataDir d) = .ok data ∧
        ((convertDataset dataDir d).start g).2.files.read (outputPath dataDir d) = .ok data := by
  cases hwrite : f.write (outputPath dataDir d) (Text.encode (Dump.dataText cards)) with
  | error reason =>
    cases hwrite' : g.write (outputPath dataDir d) (Text.encode (Dump.dataText cards)) with
    | error reason' =>
      obtain ⟨hrun, -⟩ := start_of_write_error hcards hwrite
      obtain ⟨hrun', -⟩ := start_of_write_error hcards' hwrite'
      rw [hrun, hrun']
      exact ⟨.unwritable reason reason', nofun⟩
    | ok g' =>
      obtain ⟨f', hf'⟩ := exists_write hagree.symm hg hf hwrite'
      cases hwrite.symm.trans hf'
  | ok f' =>
    obtain ⟨g', hwrite'⟩ := exists_write hagree hf hg hwrite
    obtain ⟨hrun, hfiles⟩ := start_of_write_ok hcards hwrite
    obtain ⟨hrun', hfiles'⟩ := start_of_write_ok hcards' hwrite'
    rw [hrun, hrun', hfiles, hfiles']
    exact ⟨.converted d.tag cards.length, fun _ _ =>
      ⟨_, Files.read_of_write hwrite, Files.read_of_write hwrite'⟩⟩

/-- Where there is only a compressed dump, it is as good as a plain dump with the bytes that it is
decoded to. -/
theorem start_from_compressed (n : DumpNames dataDir d)
    (hplain : f.exists? (plainDump dataDir d) = false) {bytes content : List UInt8}
    (h : f.read (compressedDump dataDir d) = .ok bytes)
    (hcontent : Gzip.decode? bytes = some content) :
    ∃ g, f.write (plainDump dataDir d) content = .ok g ∧
      SameButDump (outputPath dataDir d) (compressedDump dataDir d) (plainDump dataDir d)
        ((convertDataset dataDir d).start f).1 ((convertDataset dataDir d).start g).1 ∧
      ∀ stats, ((convertDataset dataDir d).start f).1 = .ok stats → ∃ data,
        ((convertDataset dataDir d).start f).2.files.read (outputPath dataDir d) = .ok data ∧
        ((convertDataset dataDir d).start g).2.files.read (outputPath dataDir d) = .ok data := by
  obtain ⟨place, hlocate, hnone⟩ := n.exists_plain_place hplain h
  have hf : f.lookup place ≠ some .directory := by simp [hnone]
  have hg : (f.put place (.file content)).lookup place ≠ some .directory := by simp
  have hagree := Files.agreeOff_put f place (.file content)
  have hplace : f.write (plainDump dataDir d) content = .ok (f.put place (.file content)) :=
    Files.write_eq_ok_iff.mpr ⟨place, hlocate, hf, rfl⟩
  refine ⟨_, hplace, ?_⟩
  generalize f.put place (.file content) = g at hplace hagree hg
  have hread := Files.read_of_write hplace
  have hsource := source_of_compressed hplain (Files.exists?_of_read h)
  have hsource' := source_of_plain (Files.exists?_of_read hread)
  have hdump : dumpCards f (source f dataDir d) =
      (textOf (compressedDump dataDir d) content).bind cardsOf := by
    rw [hsource, dumpCards, readDump, h]
    simp only [decodeDump_compressed n, hcontent, Option.elim_some]
  have hdump' : dumpCards g (source g dataDir d) =
      (textOf (plainDump dataDir d) content).bind cardsOf := by
    rw [hsource', dumpCards, readDump, hread]
    simp only [decodeDump_plain n]
  rcases textOf_bind_cardsOf_cases (outputPath dataDir d) (compressedDump dataDir d)
    (plainDump dataDir d) content with ⟨e, e', hcards, hcards', hsame⟩ | ⟨cards, hcards, hcards'⟩
  · obtain ⟨hrun, -⟩ := start_of_dumpCards_error (hdump.trans hcards)
    obtain ⟨hrun', -⟩ := start_of_dumpCards_error (hdump'.trans hcards')
    rw [hrun, hrun']
    exact ⟨hsame, nofun⟩
  · have hboth := start_of_same_cards hagree hf hg (hdump.trans hcards) (hdump'.trans hcards')
    rwa [hsource, hsource'] at hboth

/-! ## Converting from no dump -/

theorem inputError_of_ne (path : String) {fault : FileFault} (h : fault ≠ .notFound) :
    inputError path fault = .io path fault := by
  cases fault with
  | notFound => exact absurd rfl h
  | _ => rfl

/-- Where there is no dump, the error is for the plain one. -/
theorem start_of_no_dump {fault : FileFault}
    (hplain : f.open? (plainDump dataDir d) = .error fault)
    (hcompressed : f.exists? (compressedDump dataDir d) = false) :
    ((convertDataset dataDir d).start f).1 = .error (inputError (plainDump dataDir d) fault) ∧
      ((convertDataset dataDir d).start f).2.files = f := by
  have hnone := Files.exists?_of_error hplain
  refine start_of_dumpCards_error ?_
  rw [source_of_none hnone hcompressed, dumpCards, readDump, Files.read, hplain]
  rfl

end

/-- A dataset is converted from its plain dump if there is one, whatever lies where the compressed
one would be, otherwise from the compressed one, with the outcome that a plain dump of its data
would have. Where there is neither, the error is for the plain one: it is missing if opening it fails
because it is not found, and cannot be read if it fails for another reason. Among the files that are
spoken of here, without links and with all permissions, it is not found unless the way to it leads
through a file or nothing can have its path. Only a compressed dump is decompressed, and it always
is. -/
theorem dumps_interchangeable (dataDir : String) (d : Dataset) (f : Files)
    (hname : (Path.lastName? d.inputFile.toList).isSome = true) :
    (∀ place g, f.exists? (plainDump dataDir d) = true →
      f.locate (compressedDump dataDir d) = .ok place → f.lookup place ≠ some .directory →
      Files.AgreeOff place f g →
        ((convertDataset dataDir d).start g).1 = ((convertDataset dataDir d).start f).1 ∧
        Files.AgreeOff place ((convertDataset dataDir d).start f).2.files
          ((convertDataset dataDir d).start g).2.files ∧
        ((convertDataset dataDir d).start g).2.files.read (outputPath dataDir d) =
          ((convertDataset dataDir d).start f).2.files.read (outputPath dataDir d)) ∧
    (∀ bytes content, f.exists? (plainDump dataDir d) = false →
      f.read (compressedDump dataDir d) = .ok bytes → Gzip.decode? bytes = some content →
        ∃ g, f.write (plainDump dataDir d) content = .ok g ∧
          SameButDump (outputPath dataDir d) (compressedDump dataDir d) (plainDump dataDir d)
            ((convertDataset dataDir d).start f).1 ((convertDataset dataDir d).start g).1 ∧
          ∀ stats, ((convertDataset dataDir d).start f).1 = .ok stats → ∃ data,
            ((convertDataset dataDir d).start f).2.files.read (outputPath dataDir d) = .ok data ∧
            ((convertDataset dataDir d).start g).2.files.read (outputPath dataDir d) = .ok data) ∧
    (f.exists? (plainDump dataDir d) = false → f.exists? (compressedDump dataDir d) = false →
      ((convertDataset dataDir d).start f).2.files = f ∧
      (f.open? (plainDump dataDir d) = .error .notFound →
        ((convertDataset dataDir d).start f).1 = .error (.missingFile (plainDump dataDir d))) ∧
      (∀ fault, f.open? (plainDump dataDir d) = .error fault → fault ≠ .notFound →
        ((convertDataset dataDir d).start f).1 = .error (.io (plainDump dataDir d) fault)) ∧
      (f.NoFileAbove (plainDump dataDir d) → Files.Possible (plainDump dataDir d) →
        f.open? (plainDump dataDir d) = .error .notFound)) ∧
    (source f dataDir d = plainDump dataDir d ∨ source f dataDir d = compressedDump dataDir d) ∧
    ∀ bytes, decodeDump (plainDump dataDir d) bytes = textOf (plainDump dataDir d) bytes ∧
      decodeDump (compressedDump dataDir d) bytes =
        (Gzip.decode? bytes).elim (.error (.io (compressedDump dataDir d) .damaged))
          (textOf (compressedDump dataDir d)) := by
  obtain ⟨n⟩ := nonempty_dumpNames dataDir hname
  refine ⟨?beside, ?compressed, ?none, ?source, ?decoded⟩
  case beside =>
    intro place g hplain hplace hfile hagree
    exact start_beside_compressed n hplain hplace hfile hagree
  case compressed =>
    intro bytes content hplain hread hcontent
    exact start_from_compressed n hplain hread hcontent
  case none =>
    intro hplain hcompressed
    obtain ⟨fault, hfault⟩ := Files.exists?_eq_false_iff.mp hplain
    obtain ⟨hrun, hfiles⟩ := start_of_no_dump hfault hcompressed
    refine ⟨hfiles, fun hnotFound => ?_, fun other hother hne => ?_, fun habove hpossible =>
      Files.open?_eq_notFound hpossible habove hplain⟩
    · cases hfault.symm.trans hnotFound
      exact hrun
    · cases hfault.symm.trans hother
      rw [hrun, inputError_of_ne _ hne]
  case source =>
    unfold source
    split
    · exact Or.inl rfl
    · split
      · exact Or.inr rfl
      · exact Or.inl rfl
  case decoded =>
    intro bytes
    exact ⟨decodeDump_plain n bytes, decodeDump_compressed n bytes⟩

/-! ## An example -/

/-- A dataset whose data file has a name like that of a compressed dump. -/
def season : Dataset := ⟨"S1", "season.gz", "S1"⟩

/-- The dumps of the dataset, as far as there are any. -/
def seasonFiles (plain compressed : Option (List UInt8)) : Files :=
  ⟨fun place =>
    if place = ["data"] then some .directory
    else if place = ["season.xml", "data"] then plain.map .file
    else if place = ["season.xml.gz", "data"] then compressed.map .file
    else Files.empty.lookup place⟩

/-- No data, compressed. -/
def compressedNothing : List UInt8 :=
  [0x1F, 0x8B, 8, 0, 0, 0, 0, 0, 0, 3, 3, 0, 0, 0, 0, 0, 0, 0, 0, 0]

/-- A dump beside a compressed one, a compressed one without it, and no dump. -/
theorem dumps_interchangeable_season :
    ((convertDataset "data" season).start (seasonFiles (some []) (some [1]))).1 =
        ((convertDataset "data" season).start (seasonFiles (some []) none)).1 ∧
      (∃ g, (seasonFiles none (some compressedNothing)).write (plainDump "data" season) [] = .ok g ∧
        SameButDump "data/season.gz" "data/season.xml.gz" "data/season.xml"
          ((convertDataset "data" season).start (seasonFiles none (some compressedNothing))).1
          ((convertDataset "data" season).start g).1) ∧
      ((convertDataset "data" season).start (seasonFiles none none)).1 =
        .error (.missingFile "data/season.xml") := by
  have hname : (Path.lastName? season.inputFile.toList).isSome = true := by decide +kernel
  have hplain : plainDump "data" season = "data/season.xml" := by decide +kernel
  have hcompressed : compressedDump "data" season = "data/season.xml.gz" := by decide +kernel
  have houtput : outputPath "data" season = "data/season.gz" := by decide +kernel
  refine ⟨?_, ?_, ?_⟩
  · have hbeside := (dumps_interchangeable "data" season (seasonFiles (some []) none) hname).1
      ["season.xml.gz", "data"] (seasonFiles (some []) (some [1]))
    rw [hplain, hcompressed] at hbeside
    refine (hbeside (by decide +kernel) rfl nofun fun place hne => ?_).1
    simp only [seasonFiles, if_neg hne]
  · have hfrom := (dumps_interchangeable "data" season (seasonFiles none (some compressedNothing))
      hname).2.1 compressedNothing []
    obtain ⟨g, hg, hsame, -⟩ := hfrom (by rw [hplain]; decide +kernel) (by rw [hcompressed]; rfl)
      (by decide +kernel)
    rw [hplain, hcompressed, houtput] at hsame
    exact ⟨g, hg, hsame⟩
  · have hnone := (dumps_interchangeable "data" season (seasonFiles none none) hname).2.2.1
    rw [hplain, hcompressed] at hnone
    obtain ⟨-, hmissing, -, hnotFound⟩ := hnone (by decide +kernel) (by decide +kernel)
    refine hmissing (hnotFound ?_ ⟨?_, ?_, ?_⟩)
    · intro before name after place e _ _ he
      simp only [seasonFiles, Option.map_none] at he
      split at he
      · exact (Option.some.inj he).symm
      split at he
      · cases he
      split at he
      · cases he
      · exact Files.directory_of_empty he
    · decide +kernel
    · decide +kernel
    · decide +kernel

/-! ## Names that no file can have -/

/-- A name so long that there is no room for an extension. -/
def longName : List Char := List.replicate 252 'a'

/-- A dataset whose data file has the name. -/
def longNamed : Dataset := ⟨"S1", String.ofList longName, "S1"⟩

/-- A data directory with nothing in it. -/
def emptyData : Files := Files.empty.put ["data"] .directory

theorem withExtension_undotted {name : List Char} (hlast : Path.lastName? name = some ([], name))
    (hsplit : Path.splitName name = (name, none)) (extension : String) :
    Path.withExtension (String.ofList name) extension =
      String.ofList (name ++ '.' :: extension.toList) := by
  simp only [Path.withExtension, String.toList_ofList, hlast, hsplit, Option.bind_some,
    Option.getD_none, List.length_nil, Nat.sub_zero, List.take_length, List.nil_append]

theorem toList_plainDump_longNamed :
    (plainDump "data" longNamed).toList = "data/".toList ++ (longName ++ ".xml".toList) := by
  have hdump : longNamed.dumpFile = String.ofList (longName ++ ".xml".toList) :=
    withExtension_undotted (by decide +kernel) (by decide +kernel) "xml"
  rw [plainDump, hdump, Path.join, String.toList_ofList, if_neg (by decide), if_neg (by decide),
    String.toList_ofList]
  rfl

theorem toList_compressedDump_longNamed :
    (compressedDump "data" longNamed).toList =
      "data/".toList ++ (longName ++ ".xml.gz".toList) := by
  rw [compressedDump, String.toList_append, String.toList_append, toList_plainDump_longNamed,
    List.append_assoc, List.append_assoc, List.append_assoc]
  rfl

/-- The name only gets longer by what stands behind it. -/
theorem open?_longName {path : String} {more : List Char}
    (hpath : path.toList = "data/".toList ++ (longName ++ more)) (hname : IsName (longName ++ more))
    (hclean : '\x00' ∉ "data/".toList ++ (longName ++ more))
    (hlong : Files.maxName < (String.ofList (longName ++ more)).utf8ByteSize) :
    emptyData.open? path = .error .nameTooLong := by
  have hfront : IsFront "data/".toList := fun c hc => (Option.some.inj hc).symm
  have hup : longName ++ more ≠ ['.', '.'] := fun heq => by
    have hlength := congrArg List.length heq
    rw [List.length_append, longName, List.length_replicate, List.length_cons, List.length_cons,
      List.length_nil] at hlength
    omega
  rw [Files.open?, Files.locate_of_long_name hfront hname hpath rfl rfl (hpath ▸ hclean)
    ⟨hup, hlong⟩]
  rfl

/-- A dump that is not there is not said to be missing when no file can have its name. -/
theorem start_longNamed :
    (Path.lastName? longNamed.inputFile.toList).isSome = true ∧
      emptyData.exists? (plainDump "data" longNamed) = false ∧
      emptyData.exists? (compressedDump "data" longNamed) = false ∧
      emptyData.NoFileAbove (plainDump "data" longNamed) ∧
      ((convertDataset "data" longNamed).start emptyData).1 =
        .error (.io (plainDump "data" longNamed) .nameTooLong) := by
  have hplain : emptyData.open? (plainDump "data" longNamed) = .error .nameTooLong :=
    open?_longName toList_plainDump_longNamed
      ⟨by decide +kernel, by decide +kernel, by decide +kernel⟩ (by decide +kernel)
      (by decide +kernel)
  have hcompressed : emptyData.exists? (compressedDump "data" longNamed) = false :=
    Files.exists?_of_error (open?_longName toList_compressedDump_longNamed
      ⟨by decide +kernel, by decide +kernel, by decide +kernel⟩ (by decide +kernel)
      (by decide +kernel))
  refine ⟨?_, Files.exists?_of_error hplain, hcompressed, ?_,
    (start_of_no_dump hplain hcompressed).1⟩
  · rw [longNamed, String.toList_ofList]
    decide +kernel
  · intro before name after place e _ _ he
    rw [emptyData, Files.lookup_put] at he
    split at he
    · exact (Option.some.inj he).symm
    · exact Files.directory_of_empty he

end CardArchive.Convert
