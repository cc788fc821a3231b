import CardArchive.Proofs.DatabaseFile
import CardArchive.Proofs.PathNames

/-!
# Where paths lead

A path leads to the directory of its front, and from there by its last name to a place beside those
of other names behind the same front. So what lies at a place has no influence on paths with another
last name (`AgreeOff.locate_beside`). A path that leads nowhere is not found, unless there is a file
where a directory should be or no file can have the path (`open?_eq_notFound`).
-/

namespace CardArchive

/-! ## The names on a way -/

namespace Path

/-- The place at which a front starts, and the names on its way. -/
def frontWay (front : List Char) : Location × List String :=
  (if front.head? = some '/' then [Location.root] else [],
    (Text.splitAll '/' front).dropLast.map String.ofList)

/-- A name that stays where it is. -/
def Stays (name : String) : Prop := name = "" ∨ name = "."

variable {front name trail : List Char}

/-- A name and what does not count behind it are cut into the name and names that stay. -/
theorem splitAll_name_trail (hname : IsName name) {back : List Char} (h : Trailing back) :
    ∃ stays, (∀ s ∈ stays, Stays (String.ofList s)) ∧ (back = [] → stays = []) ∧
      Text.splitAll '/' (name ++ back.reverse) = name :: stays := by
  -- each separator of the trail begins one more piece, which is empty or a point
  have hmore {before extra : List Char} {stays : List (List Char)}
      (hbefore : Text.splitAll '/' (name ++ before) = name :: stays) (hextra : '/' ∉ extra) :
      Text.splitAll '/' (name ++ (before ++ '/' :: extra)) = name :: (stays ++ [extra]) := by
    rw [← List.append_assoc, Text.splitAll_append_sep, hbefore, Text.splitAll_of_not_mem hextra,
      List.cons_append]
  induction h with
  | nil =>
    refine ⟨[], List.forall_mem_nil _, fun _ => rfl, ?_⟩
    rw [List.reverse_nil, List.append_nil, Text.splitAll_of_not_mem hname.not_mem]
  | separator h ih =>
    obtain ⟨stays, hstays, -, hsplit⟩ := ih
    refine ⟨stays ++ [[]], ?_, fun heq => absurd heq (List.cons_ne_nil _ _), ?_⟩
    · rw [List.forall_mem_append, List.forall_mem_singleton]
      exact ⟨hstays, Or.inl rfl⟩
    · rw [List.reverse_cons]
      exact hmore hsplit List.not_mem_nil
  | point h ih =>
    obtain ⟨stays, hstays, -, hsplit⟩ := ih
    refine ⟨stays ++ [['.']], ?_, fun heq => absurd heq (List.cons_ne_nil _ _), ?_⟩
    · rw [List.forall_mem_append, List.forall_mem_singleton]
      exact ⟨hstays, Or.inr rfl⟩
    · rw [List.reverse_cons, List.reverse_cons, List.append_assoc, List.singleton_append]
      exact hmore hsplit (by decide)

/-- The names on the way of a path are those of its front, its last name, and names that stay. -/
theorem way_eq {path : String} (hfront : IsFront front) (hname : IsName name)
    (htrail : Trailing trail.reverse) (hpath : path.toList = front ++ (name ++ trail)) :
    ∃ stays, (∀ s ∈ stays, Stays s) ∧ (trail = [] → stays = []) ∧
      Files.way path =
        ((frontWay front).1, (frontWay front).2 ++ String.ofList name :: stays) := by
  obtain ⟨stays, hstays, hnil, hsplit⟩ := splitAll_name_trail hname htrail
  rw [List.reverse_reverse] at hsplit
  have hpieces : Text.splitAll '/' path.toList =
      (Text.splitAll '/' front).dropLast ++ name :: stays := by
    rcases List.eq_nil_or_concat front with rfl | ⟨init, c, rfl⟩
    · rw [hpath, List.nil_append, hsplit]
      rfl
    · rw [List.concat_eq_append] at hfront hpath ⊢
      obtain rfl : c = '/' := hfront c List.getLast?_concat
      rw [hpath, List.append_assoc, List.singleton_append, Text.splitAll_append_sep, hsplit,
        Text.splitAll_append_sep, Text.splitAll_of_not_mem List.not_mem_nil, List.dropLast_concat]
  refine ⟨stays.map String.ofList, ?_, fun h => ?_, ?_⟩
  · simpa only [List.mem_map, forall_exists_index, and_imp, forall_apply_eq_imp_iff₂] using hstays
  · rw [hnil (List.reverse_eq_nil_iff.mpr h), List.map_nil]
  · have hhead : (path.toList.head? = some '/') = (front.head? = some '/') :=
      propext (hpath ▸ head?_front_name hname front trail)
    rw [Files.way, hpieces, frontWay, List.map_append, List.map_cons]
    simp only [hhead]

end Path

namespace Files

open CardArchive.Path (IsFront IsName Trailing Stays frontWay way_eq)

variable {f g : Files} {place here : Location} {front name trail : List Char} {path : String}

/-! ## Going on from a directory -/

/-- The place that a name leads to from a directory. -/
def enter (here : Location) (name : String) : Location :=
  if name = Location.above then here.parent else name :: here

theorem enter_ne {a b : String} (here : Location) (h : a ≠ b) : enter here a ≠ enter here b := by
  -- the directory above is not one below, as it has another number of names, or a last name `..`
  have habove {name : String} (hname : name ≠ Location.above) : here.parent ≠ name :: here := by
    intro heq
    unfold Location.parent at heq
    split at heq
    · next hroot =>
      have hlength := congrArg List.length heq
      rw [List.length_cons] at hlength
      omega
    · split at heq
      · split at heq
        · exact hname (List.cons.inj heq).1.symm
        · have hlength := congrArg List.length heq
          simp only [List.length_cons] at hlength
          omega
      · exact hname (List.cons.inj heq).1.symm
  unfold enter
  split <;> split
  · next ha hb => exact absurd (ha.trans hb.symm) h
  · next ha hb => exact habove hb
  · next ha hb => exact (habove ha).symm
  · exact fun heq => h (List.cons.inj heq).1

theorem follow_step (f : Files) (here : Location) (name : String) :
    (f.lookup here = none ∧ ∀ rest, f.follow here (name :: rest) = .error .notFound) ∨
    (∃ e, f.lookup here = some e ∧ e ≠ .directory ∧
      ∀ rest, f.follow here (name :: rest) = .error .notADirectory) ∨
    (maxName < name.utf8ByteSize ∧ ∀ rest, f.follow here (name :: rest) = .error .nameTooLong) ∨
    ∃ next, ∀ rest, f.follow here (name :: rest) = f.follow next rest := by
  simp only [follow]
  cases hhere : f.lookup here with
  | none => exact Or.inl ⟨rfl, fun _ => rfl⟩
  | some e =>
    cases e with
    | file bytes => exact Or.inr (Or.inl ⟨_, rfl, by simp, fun _ => rfl⟩)
    | database db => exact Or.inr (Or.inl ⟨_, rfl, by simp, fun _ => rfl⟩)
    | directory =>
      refine Or.inr (Or.inr ?_)
      by_cases hstay : (name.isEmpty || decide (name = ".")) = true
      · exact Or.inr ⟨here, fun _ => if_pos hstay⟩
      by_cases habove : name = Location.above
      · exact Or.inr ⟨here.parent, fun _ => (if_neg hstay).trans (if_pos habove)⟩
      by_cases hlong : maxName < name.utf8ByteSize
      · exact Or.inl ⟨hlong, fun _ => (if_neg hstay).trans ((if_neg habove).trans (if_pos hlong))⟩
      · exact Or.inr ⟨name :: here, fun _ =>
          (if_neg hstay).trans ((if_neg habove).trans (if_neg hlong))⟩

theorem directory_of_follow {name : String} {rest : List String}
    (h : f.follow here (name :: rest) = .ok place) : f.lookup here = some .directory := by
  rw [follow] at h
  split at h
  · cases h
  · next hdir => exact hdir
  · cases h

theorem follow_append (f : Files) (start : Location) (names more : List String) :
    f.follow start (names ++ more) = (f.follow start names).bind (f.follow · more) := by
  induction names generalizing start with
  | nil => rfl
  | cons name rest ih =>
    rw [List.cons_append]
    rcases follow_step f start name with ⟨-, h⟩ | ⟨e, -, -, h⟩ | ⟨-, h⟩ | ⟨next, h⟩
    · rw [h, h]
      rfl
    · rw [h, h]
      rfl
    · rw [h, h]
      rfl
    · rw [h, h, ih]

/-- From a directory a name leads to its place, unless it is too long. -/
theorem follow_cons (hhere : f.lookup here = some .directory) (hname : IsName name)
    (rest : List String) :
    f.follow here (String.ofList name :: rest) =
      if name ≠ ['.', '.'] ∧ maxName < (String.ofList name).utf8ByteSize then .error .nameTooLong
      else f.follow (enter here (String.ofList name)) rest := by
  have hmoves : ((String.ofList name).isEmpty || decide (String.ofList name = ".")) = false := by
    rw [Bool.or_eq_false_iff, decide_eq_false_iff_not, Bool.eq_false_iff, Ne, String.isEmpty_iff]
    refine ⟨fun h => hname.ne_nil ?_, fun h => hname.ne_point ?_⟩
    · exact String.ofList_inj.mp h
    · exact String.ofList_inj.mp h
  have habove : String.ofList name = Location.above ↔ name = ['.', '.'] := String.ofList_inj
  rw [follow, hhere]
  simp only [hmoves, Bool.false_eq_true, if_false, enter, habove]
  by_cases hup : name = ['.', '.']
  · rw [if_pos hup, if_pos hup, if_neg fun h => h.1 hup]
  · rw [if_neg hup, if_neg hup]
    simp only [ne_eq, hup, not_false_eq_true, true_and]

theorem follow_stays {stays : List String} (hstays : ∀ s ∈ stays, Stays s) {finish : Location}
    (h : f.follow here stays = .ok finish) : finish = here := by
  induction stays with
  | nil => exact (Except.ok.inj h).symm
  | cons s rest ih =>
    obtain ⟨hs, hrest⟩ := List.forall_mem_cons.mp hstays
    have hstay : (s.isEmpty || decide (s = ".")) = true := by
      rcases hs with rfl | rfl <;> decide
    rw [follow] at h
    split at h
    · cases h
    · rw [if_pos hstay] at h
      exact ih hrest h
    · cases h

theorem follow_stays_congr {stays : List String} (hstays : ∀ s ∈ stays, Stays s)
    (h : f.lookup here = g.lookup here) : f.follow here stays = g.follow here stays := by
  induction stays with
  | nil => rfl
  | cons s rest ih =>
    obtain ⟨hs, hrest⟩ := List.forall_mem_cons.mp hstays
    have hstay : (s.isEmpty || decide (s = ".")) = true := by
      rcases hs with rfl | rfl <;> decide
    rw [follow, follow, ← h]
    split
    · rfl
    · rw [if_pos hstay, if_pos hstay, ih hrest]
    · rfl

/-! ## The directory of a front -/

/-- The directory that a front leads to, if it leads to any. -/
def frontPlace (f : Files) (front : List Char) : Except FileFault Location :=
  f.follow (frontWay front).1 (frontWay front).2

/-- A path is followed by its front first and then by its last name. -/
theorem locate_eq (hfront : IsFront front) (hname : IsName name) (htrail : Trailing trail.reverse)
    (hpath : path.toList = front ++ (name ++ trail)) :
    ∃ stays, (∀ s ∈ stays, Stays s) ∧ (trail = [] → stays = []) ∧ ∀ f : Files, f.locate path =
      if path.toList.contains '\x00' then .error .invalidName
      else if maxPath < path.utf8ByteSize then .error .nameTooLong
      else (f.frontPlace front).bind (f.follow · (String.ofList name :: stays)) := by
  obtain ⟨stays, hstays, hnil, hway⟩ := way_eq hfront hname htrail hpath
  refine ⟨stays, hstays, hnil, fun f => ?_⟩
  have hne : path.isEmpty = false := by
    rw [Bool.eq_false_iff, Ne, String.isEmpty_iff]
    rintro rfl
    exact hname.ne_nil (List.append_eq_nil_iff.mp (List.append_eq_nil_iff.mp hpath.symm).2).1
  rw [locate, if_neg (by simp [hne]), hway]
  simp only [follow_append, frontPlace]

theorem locate_eq_name (hfront : IsFront front) (hname : IsName name)
    (hpath : path.toList = front ++ name) (f : Files) :
    f.locate path =
      if path.toList.contains '\x00' then .error .invalidName
      else if maxPath < path.utf8ByteSize then .error .nameTooLong
      else (f.frontPlace front).bind (f.follow · [String.ofList name]) := by
  have htrail : Trailing ([] : List Char).reverse := .nil
  rw [← List.append_nil name] at hpath
  obtain ⟨stays, -, hnil, hlocate⟩ := locate_eq hfront hname htrail hpath
  rw [hlocate, hnil rfl]

/-- From the directory of its front, a path that ends with its last name leads to the place of the
name, unless no file can have the path. -/
theorem locate_eq_ok_iff (hfront : IsFront front) (hname : IsName name)
    (hpath : path.toList = front ++ name) (hhere : f.frontPlace front = .ok here)
    (hdir : f.lookup here = some .directory) :
    f.locate path = .ok place ↔
      '\x00' ∉ path.toList ∧ path.utf8ByteSize ≤ maxPath ∧
        (name = ['.', '.'] ∨ (String.ofList name).utf8ByteSize ≤ maxName) ∧
        enter here (String.ofList name) = place := by
  have hfits : ¬(name ≠ ['.', '.'] ∧ maxName < (String.ofList name).utf8ByteSize) ↔
      name = ['.', '.'] ∨ (String.ofList name).utf8ByteSize ≤ maxName := by
    rw [not_and_or, not_ne_iff, not_lt]
  rw [locate_eq_name hfront hname hpath, hhere, Except.bind, follow_cons hdir hname, follow,
    ← hfits, ← not_lt, ← List.contains_iff_mem]
  split
  · next hnul => exact iff_of_false (by simp) fun h => absurd hnul h.1
  split
  · next hlong => exact iff_of_false (by simp) fun h => absurd hlong h.2.1
  split
  · next hboth => exact iff_of_false (by simp) fun h => absurd hboth h.2.2.1
  · next hnul hlong hboth =>
    exact ⟨fun h => ⟨hnul, hlong, hboth, Except.ok.inj h⟩, fun h => congrArg Except.ok h.2.2.2⟩

/-- A path that ends with its last name leads nowhere but from a directory. -/
theorem locate_eq_ok (hfront : IsFront front) (hname : IsName name)
    (hpath : path.toList = front ++ name) (h : f.locate path = .ok place) :
    ∃ here, f.frontPlace front = .ok here ∧ f.lookup here = some .directory ∧
      place = enter here (String.ofList name) := by
  rw [locate_eq_name hfront hname hpath] at h
  split at h
  · cases h
  split at h
  · cases h
  cases hhere : f.frontPlace front with
  | error fault =>
    rw [hhere] at h
    cases h
  | ok here =>
    rw [hhere, Except.bind] at h
    have hdir := directory_of_follow h
    rw [follow_cons hdir hname] at h
    split at h
    · cases h
    · exact ⟨here, rfl, hdir, (Except.ok.inj h).symm⟩

/-- A path whose last name is too long leads nowhere. -/
theorem locate_of_long_name (hfront : IsFront front) (hname : IsName name)
    (hpath : path.toList = front ++ name) (hhere : f.frontPlace front = .ok here)
    (hdir : f.lookup here = some .directory) (hclean : '\x00' ∉ path.toList)
    (hlong : name ≠ ['.', '.'] ∧ maxName < (String.ofList name).utf8ByteSize) :
    f.locate path = .error .nameTooLong := by
  rw [locate_eq_name hfront hname hpath, if_neg (mt List.contains_iff_mem.mp hclean), hhere,
    Except.bind, follow_cons hdir hname, if_pos hlong]
  split
  · rfl
  · rfl

/-- Where one path leads from a directory to a place, a path with another last name leads to the
same place whatever lies at the first, and it is another place. -/
theorem AgreeOff.locate_beside (h : AgreeOff place f g) (hf : f.lookup place ≠ some .directory)
    (hhere : f.frontPlace front = .ok here) (hdir : f.lookup here = some .directory)
    (hfront : IsFront front) (hname : IsName name) (htrail : Trailing trail.reverse)
    (hpath : path.toList = front ++ (name ++ trail))
    (hne : enter here (String.ofList name) ≠ place) :
    g.locate path = f.locate path ∧ f.locate path ≠ .ok place := by
  obtain ⟨stays, hstays, -, hlocate⟩ := locate_eq hfront hname htrail hpath
  have hhere' : g.frontPlace front = .ok here := h.follow hf hhere
  have hdir' : g.lookup here = some .directory := by
    rw [← h here fun heq => hf (heq ▸ hdir), hdir]
  have hrest : f.follow (enter here (String.ofList name)) stays =
      g.follow (enter here (String.ofList name)) stays := follow_stays_congr hstays (h _ hne)
  rw [hlocate, hlocate, hhere, hhere']
  simp only [Except.bind, follow_cons hdir hname, follow_cons hdir' hname, hrest, true_and]
  intro heq
  split at heq
  · cases heq
  split at heq
  · cases heq
  split at heq
  · cases heq
  · exact hne (follow_stays hstays heq).symm

theorem AgreeOff.open?_eq (h : AgreeOff place f g) (hlocate : g.locate path = f.locate path)
    (hne : f.locate path ≠ .ok place) : g.open? path = f.open? path := by
  unfold open?
  rw [hlocate]
  cases hat : f.locate path with
  | error fault => rfl
  | ok at_ =>
    have hat_ne : at_ ≠ place := fun heq => hne (heq ▸ hat)
    simp only [bind, Except.bind, h at_ hat_ne]

theorem AgreeOff.read_eq (h : AgreeOff place f g) (hlocate : g.locate path = f.locate path)
    (hne : f.locate path ≠ .ok place) : g.read path = f.read path := by
  rw [Files.read, Files.read, h.open?_eq hlocate hne]

theorem AgreeOff.put (h : AgreeOff place f g) (other : Location) (e : Entry) :
    AgreeOff place (f.put other e) (g.put other e) := by
  intro at_ hne
  rw [lookup_put, lookup_put, h at_ hne]

/-- A file is written in both or in none. -/
theorem AgreeOff.write_cases (h : AgreeOff place f g) (hlocate : g.locate path = f.locate path)
    (hne : f.locate path ≠ .ok place) (bytes : List UInt8) :
    (∃ fault, f.write path bytes = .error fault ∧ g.write path bytes = .error fault) ∨
      ∃ f' g', f.write path bytes = .ok f' ∧ g.write path bytes = .ok g' ∧
        AgreeOff place f' g' := by
  unfold write
  rw [hlocate]
  cases hat : f.locate path with
  | error fault => exact Or.inl ⟨fault, rfl, rfl⟩
  | ok at_ =>
    have hat_ne : at_ ≠ place := fun heq => hne (heq ▸ hat)
    simp only [bind, Except.bind, ← h at_ hat_ne]
    split
    · exact Or.inl ⟨_, rfl, rfl⟩
    · exact Or.inr ⟨_, _, rfl, rfl, h.put at_ _⟩

/-- What is not there cannot be opened, and the other way round. -/
theorem exists?_eq_false_iff : f.exists? path = false ↔ ∃ fault, f.open? path = .error fault := by
  rw [exists?]
  cases f.open? path with
  | error fault => exact ⟨fun _ => ⟨fault, rfl⟩, fun _ => rfl⟩
  | ok e => exact ⟨nofun, nofun⟩

theorem exists?_of_error {fault : FileFault} (h : f.open? path = .error fault) :
    f.exists? path = false := exists?_eq_false_iff.mpr ⟨fault, h⟩

theorem exists?_of_read {bytes : List UInt8} (h : f.read path = .ok bytes) :
    f.exists? path = true := by
  rw [Files.read] at h
  rw [exists?]
  cases hopen : f.open? path with
  | error fault =>
    rw [hopen] at h
    cases h
  | ok e => rfl

/-! ## Paths that lead nowhere -/

/-- Where a path leads through something that is there, it is a directory. -/
def NoFileAbove (f : Files) (path : String) : Prop :=
  ∀ before name after place e, (way path).2 = before ++ name :: after →
    f.follow (way path).1 before = .ok place → f.lookup place = some e → e = .directory

theorem directory_of_empty {e : Entry} (h : empty.lookup place = some e) : e = .directory := by
  rw [empty] at h
  dsimp only at h
  split at h
  · exact (Option.some.inj h).symm
  · cases h

/-- Something can have the path: neither the path nor a name in it is too long, and there is no
character in it that no name holds. -/
structure Possible (path : String) : Prop where
  clean : '\x00' ∉ path.toList
  short : path.utf8ByteSize ≤ maxPath
  names : ∀ name ∈ (way path).2, name.utf8ByteSize ≤ maxName

/-- Names that lead nowhere are not found, are too long, or lead through something that is no
directory. -/
theorem follow_eq_error {start : Location} {names : List String} {fault : FileFault}
    (h : f.follow start names = .error fault) :
    fault = .notFound ∨ (∃ name ∈ names, maxName < name.utf8ByteSize) ∨
      ∃ before name after place e, names = before ++ name :: after ∧
        f.follow start before = .ok place ∧ f.lookup place = some e ∧ e ≠ .directory := by
  induction names generalizing start with
  | nil => cases h
  | cons name rest ih =>
    rcases follow_step f start name with ⟨-, hstep⟩ | ⟨e, he, hne, hstep⟩ | ⟨hlong, hstep⟩ |
      ⟨next, hstep⟩
    · rw [hstep] at h
      exact Or.inl (Except.error.inj h).symm
    · exact Or.inr (Or.inr ⟨[], name, rest, start, e, rfl, rfl, he, hne⟩)
    · exact Or.inr (Or.inl ⟨name, List.mem_cons_self, hlong⟩)
    · rw [hstep] at h
      rcases ih h with hfault | ⟨long, hmem, hlong⟩ |
        ⟨before, other, after, place, e, rfl, hplace, he, hne⟩
      · exact Or.inl hfault
      · exact Or.inr (Or.inl ⟨long, List.mem_cons_of_mem _ hmem, hlong⟩)
      · exact Or.inr (Or.inr ⟨name :: before, other, after, place, e, rfl,
          (hstep before).trans hplace, he, hne⟩)

theorem locate_of_possible (hpath : Possible path) (hne : path.isEmpty = false) (f : Files) :
    f.locate path = f.follow (way path).1 (way path).2 := by
  have hclean : ¬path.toList.contains '\x00' = true := by
    rw [List.contains_iff_mem]
    exact hpath.clean
  rw [locate, if_neg (by simp [hne]), if_neg hclean, if_neg (not_lt.mpr hpath.short)]

/-- A path that something can have and that leads through no file leads somewhere, or it is not
found. -/
theorem open?_eq_notFound (hpath : Possible path) (habove : f.NoFileAbove path)
    (h : f.exists? path = false) : f.open? path = .error .notFound := by
  cases hne : path.isEmpty with
  | true =>
    rw [open?, locate, if_pos hne]
    rfl
  | false =>
    have hlocate := locate_of_possible hpath hne f
    cases hfollow : f.follow (way path).1 (way path).2 with
    | error fault =>
      rw [open?, hlocate, hfollow]
      -- the other two ways to fail are excluded: a name that is too long, and a file on the way
      rcases follow_eq_error hfollow with rfl | ⟨name, hname, hlong⟩ |
        ⟨before, name, after, place, e, hway, hplace, he, hfile⟩
      · rfl
      · exact absurd (hpath.names name hname) (not_le.mpr hlong)
      · exact absurd (habove before name after place e hway hplace he) hfile
    | ok place =>
      rw [hfollow] at hlocate
      rw [exists?, open?, hlocate] at h
      rw [open?, hlocate]
      cases hplace : f.lookup place with
      | none => simp [bind, Except.bind, hplace]
      | some e => simp [bind, Except.bind, hplace, Except.toBool] at h

end Files

end CardArchive
