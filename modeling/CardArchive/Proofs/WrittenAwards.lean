import CardArchive.Proofs.AwardMaps

/-!
# Awards that are written and read again

A map from names to integers can be written as elements: a badge has its count in parentheses behind
the name, a trophy has its name as type and its count as text. The elements may come in any order, and
an integer may be spelt in any way that denotes it. Reading gives the map back, if no name of a badge
can be mistaken for something else (`Award.Writable`) and the integers are not out of reach
(`Tally.counts`).
-/

namespace CardArchive

/-- A map from names to integers. -/
structure Tally where
  entries : List (String × Int)
  /-- The names stand in ascending order, so none of them stands there twice. -/
  ascending : entries.Pairwise fun p q => p.1 < q.1
  /-- The integers have 64 bits, and their sizes have them without a sign. -/
  counts : ∀ p ∈ entries, -0x8000000000000000 < p.2 ∧ p.2 < 0x8000000000000000

namespace Award

/-- The award that gives a name an integer. -/
def ofEntry (p : String × Int) : Award := (p.1, .integer p.2)

/-- Nothing of the name is lost, or taken for a count, when it stands as the text of a badge. -/
structure Writable (name : String) : Prop where
  trim_eq : Text.trim name.toList = name.toList
  no_parenthesis : '(' ∉ name.toList
  not_plural : name ≠ "Easter Eggs"

/-- The badge has the entry as its text. One is not counted if it need not be. -/
inductive WritesBadge (n : Xml.Node) (p : String × Int) : Prop where
  | counted {digits : List Char} (h : n.attributes = []) (hdigits : Number.Denotes digits p.2)
    (htext : n.directText = p.1.toList ++ ' ' :: '(' :: 'x' :: (digits ++ [')']))
  | bare (h : n.attributes = []) (hone : p.2 = 1) (htext : n.directText = p.1.toList)

/-- The trophy has the entry as its type and its text. -/
structure WritesTrophy (n : Xml.Node) (p : String × Int) : Prop where
  type : n.attributes = [⟨{ label := "type" }, p.1⟩]
  text : Number.Denotes n.directText p.2

end Award

namespace Tally

/-- The object of the map. -/
def members (t : Tally) : Json.Members := t.entries.map Award.ofEntry

/-- The elements have the entries of the map, in some order. -/
def WrittenAs (t : Tally) (writes : Xml.Node → String × Int → Prop) (nodes : List Xml.Node) :
    Prop := ∃ order, order.Perm t.entries ∧ List.Forall₂ writes nodes order

end Tally

/-! ## Integers and their spellings -/

namespace Number

variable {s : List Char} {n : Int}

/-- A spelling of an integer has digits in it, and perhaps a sign. -/
theorem isDigit_or_sign_of_denotes (h : Denotes s n) {c : Char} (hc : c ∈ s) :
    c.isDigit = true ∨ c = '+' ∨ c = '-' := by
  obtain ⟨sign, digits, rfl, -, hdigits, -⟩ := h
  rcases List.mem_append.mp hc with hc | hc
  · cases sign with
    | absent => cases hc
    | plus => exact Or.inr (Or.inl (List.mem_singleton.mp hc))
    | minus => exact Or.inr (Or.inr (List.mem_singleton.mp hc))
  · exact Or.inl (hdigits c hc)

/-- So the characters around a count are not mistaken for a part of it. -/
theorem not_mem_of_denotes (h : Denotes s n) {c : Char}
    (hc : ¬(c.isDigit = true ∨ c = '+' ∨ c = '-')) : c ∉ s :=
  fun hmem => hc (isDigit_or_sign_of_denotes h hmem)

theorem not_isBlank_of_denotes (h : Denotes s n) {c : Char} (hc : c ∈ s) :
    Text.isBlank c = false := by
  rcases isDigit_or_sign_of_denotes h hc with hdigit | rfl | rfl
  · exact Text.isBlank_of_isDigit hdigit
  · decide
  · decide

/-- An integer denotes itself as it is usually written. -/
theorem denotes_integerText (n : Int) : Denotes (Json.integerText n) n := by
  have hvalue : digitsValue (Nat.toDigits 10 n.natAbs) = n.natAbs := Nat.ofDigitChars_ten_toDigits
  rw [Json.integerText]
  split
  · next hneg =>
    refine ⟨.minus, Nat.toDigits 10 n.natAbs, rfl, Nat.toDigits_ne_nil,
      fun c => Json.isDigit_of_mem_toDigits, ?_⟩
    rw [hvalue]
    change n = -(n.natAbs : Int)
    omega
  · next hpos =>
    refine ⟨.absent, Nat.toDigits 10 n.natAbs, rfl, Nat.toDigits_ne_nil,
      fun c => Json.isDigit_of_mem_toDigits, ?_⟩
    rw [hvalue]
    change n = (n.natAbs : Int)
    omega

end Number

/-! ## One element -/

namespace Award

variable {n : Xml.Node} {p : String × Int}

theorem Writable.trims {name : String} (h : Writable name) :
    Text.Trims name.toList name.toList := by
  have hall := Text.trims_trim name.toList
  rwa [h.trim_eq] at hall

/-- A name with a blank and more behind it is still the name, though a blank alone is cut off. -/
theorem exists_trims_append {name tail : List Char} (hname : Text.Trims name name)
    (hne : tail ≠ []) (hhead : ∀ c ∈ tail.head?, Text.isBlank c = false)
    (hlast : ∀ c ∈ tail.getLast?, Text.isBlank c = false) :
    ∃ before, Text.Trims (name ++ ' ' :: tail) (before ++ tail) ∧ Text.Trims before name ∧
      ∀ c ∈ before, c ∈ name ∨ c = ' ' := by
  have hblank : Text.AllBlank [' '] := by decide
  obtain ⟨-, -, -, -, -, hfirst, hend⟩ := hname
  cases name with
  | nil =>
    exact ⟨[], ⟨[' '], [], by simp, hblank, List.forall_mem_nil _, hhead, hlast⟩,
      Text.trims_self (List.forall_mem_nil _), List.forall_mem_nil _⟩
  | cons c name =>
    have hnone : Text.AllBlank [] := List.forall_mem_nil _
    refine ⟨c :: name ++ [' '], ⟨[], [], by simp, hnone, hnone, ?_, ?_⟩,
      ⟨[], [' '], rfl, hnone, hblank, hfirst, hend⟩, fun d hd => ?_⟩
    · exact fun d hd => hfirst d hd
    · rwa [List.getLast?_append_of_ne_nil _ hne]
    · exact (List.mem_append.mp hd).imp_right List.mem_singleton.mp

/-- The first `x` and the first closing parenthesis are those around the count, since it has none
itself. -/
theorem counts_of_denotes {digits : List Char} {m : Int} (h : Number.Denotes digits m)
    (hm : -0x8000000000000000 < m ∧ m < 0x8000000000000000) :
    Counts ((('x' :: (digits ++ [')'])).erase 'x').erase ')') (.integer m) := by
  have hclose : ')' ∉ digits := Number.not_mem_of_denotes h (by decide)
  have herase : (('x' :: (digits ++ [')'])).erase 'x').erase ')' = digits := by
    rw [List.erase_cons_head, List.erase_append_right _ hclose, List.erase_cons_head,
      List.append_nil]
  rw [herase]
  exact .integer (Number.leads_of_denotes h hm)

/-- The text of a badge gives back its name and its count. -/
theorem exists_counted {name : String} {digits : List Char} {m : Int} (hname : Writable name)
    (h : Number.Denotes digits m) (hm : -0x8000000000000000 < m ∧ m < 0x8000000000000000) :
    ∃ text, Text.Trims (name.toList ++ ' ' :: '(' :: 'x' :: (digits ++ [')'])) text ∧
      Counted text (ofEntry (name, m)) := by
  have hlast : ∀ c ∈ ('(' :: 'x' :: (digits ++ [')'])).getLast?, Text.isBlank c = false := by
    rw [← List.cons_append, ← List.cons_append, List.getLast?_concat]
    rintro c ⟨⟩
    decide
  obtain ⟨before, htrims, hbefore, hmem⟩ := exists_trims_append hname.trims
    (List.cons_ne_nil '(' _) (by rintro c ⟨⟩; decide) hlast
  -- the first parenthesis is the one in front of the count
  have hopen : '(' ∉ before := by
    intro hc
    rcases hmem _ hc with hc | hc
    · exact hname.no_parenthesis hc
    · exact absurd hc (by decide)
  have hinner : '(' ∉ 'x' :: (digits ++ [')']) := by
    have hdigits : '(' ∉ digits := Number.not_mem_of_denotes h (by decide)
    simpa using hdigits
  have hcounted : Counted (before ++ '(' :: ('x' :: (digits ++ [')']) ++ [])) _ :=
    .times hopen hbefore hinner (by simp) (counts_of_denotes h hm)
  have hsame : countedName name.toList = name.toList :=
    if_neg fun hplural => hname.not_plural (String.toList_injective hplural)
  rw [List.append_nil, hsame, String.ofList_toList] at hcounted
  exact ⟨_, htrims, hcounted⟩

/-- Counted or bare, a badge contributes the entry that it was written for. -/
theorem badgeGives_of_writes (hname : Writable p.1)
    (hp : -0x8000000000000000 < p.2 ∧ p.2 < 0x8000000000000000) (h : WritesBadge n p) :
    BadgeGives n (some (ofEntry p)) := by
  cases h with
  | counted h hdigits htext =>
    obtain ⟨text, htrims, hcounted⟩ := exists_counted hname hdigits hp
    exact .counted h (htext ▸ htrims) hcounted
  | bare h hone htext =>
    have hcounted := Counted.once hname.no_parenthesis
    rw [String.ofList_toList, ← hone] at hcounted
    exact .counted h (htext ▸ hname.trims) hcounted

theorem trophyGives_of_writes (hp : -0x8000000000000000 < p.2 ∧ p.2 < 0x8000000000000000)
    (h : WritesTrophy n p) : TrophyGives n (some (ofEntry p)) := by
  have htype : n.attribute? "type" = some p.1 := by
    rw [Xml.Node.attribute?, h.type]
    simp
  have htrims : Text.Trims n.directText n.directText :=
    Text.trims_self fun c hc => Number.not_isBlank_of_denotes h.text hc
  exact .typed htype htrims (.integer (Number.leads_of_denotes h.text hp))

/-- Elements that are read one by one are read in the order in which they were written. -/
theorem contributed_of_writes {writes : Xml.Node → String × Int → Prop}
    {gives : Xml.Node → Option Award → Prop} {nodes : List Xml.Node} {order : List (String × Int)}
    (hwritten : List.Forall₂ writes nodes order)
    (h : ∀ p ∈ order, ∀ n, writes n p → gives n (some (ofEntry p))) :
    Contributed gives nodes (order.map ofEntry) := by
  induction hwritten with
  | nil => exact .nil
  | cons hn _ ih =>
    obtain ⟨hfirst, hrest⟩ := List.forall_mem_cons.mp h
    exact .award (hfirst _ hn) (ih hrest)

end Award

/-! ## Whole maps -/

namespace Tally

variable {t : Tally} {order : List (String × Int)}

theorem ascending_members (t : Tally) : t.members.Ascending :=
  List.pairwise_map.mpr t.ascending

/-- An object does not keep the order of its contributions when no name comes twice. -/
theorem ofList_of_order (horder : order.Perm t.entries) :
    Json.Members.ofList (order.map Award.ofEntry) = t.members :=
  Json.Members.ofList_of_perm t.ascending_members (horder.map Award.ofEntry)

end Tally

/-- Badges and trophies are read as they were written, in whatever order that was. A single trophy is
set among the badges. -/
theorem awards_of_written {badges trophies : Xml.Node} {b t : Tally}
    (hnames : ∀ p ∈ b.entries, Award.Writable p.1)
    (hbadges : b.WrittenAs Award.WritesBadge (badges.childrenWith "BADGE"))
    (htrophies : t.WrittenAs Award.WritesTrophy (trophies.childrenWith "TROPHY")) :
    (t.entries.length ≠ 1 → awards badges trophies = (b.members, t.members)) ∧
      ∀ p, t.entries = [p] →
        awards badges trophies = (b.members.insert p.1 (.integer p.2), []) := by
  obtain ⟨badgeOrder, hbadgeOrder, hwrittenBadges⟩ := hbadges
  obtain ⟨trophyOrder, htrophyOrder, hwrittenTrophies⟩ := htrophies
  have htoBadges := Award.contributed_of_writes hwrittenBadges fun p hp n hn =>
    have hmem := hbadgeOrder.mem_iff.mp hp
    Award.badgeGives_of_writes (hnames p hmem) (b.counts p hmem) hn
  have htoTrophies := Award.contributed_of_writes hwrittenTrophies fun p hp n hn =>
    Award.trophyGives_of_writes (t.counts p (htrophyOrder.mem_iff.mp hp)) hn
  have hlength : (trophies.childrenWith "TROPHY").length = t.entries.length :=
    hwrittenTrophies.length_eq.trans htrophyOrder.length_eq
  -- there are as many trophies as entries, so the map decides where they go
  constructor
  · intro hseveral
    rw [awards_of_not_single (hlength ▸ hseveral) htoBadges htoTrophies,
      Tally.ofList_of_order hbadgeOrder, Tally.ofList_of_order htrophyOrder]
  · intro p hp
    have hsingle : (trophies.childrenWith "TROPHY").length = 1 := by rw [hlength, hp]; rfl
    have horder : trophyOrder = [p] := by rwa [hp, List.perm_singleton] at htrophyOrder
    rw [awards_of_single hsingle htoBadges htoTrophies, horder]
    change (Json.Members.ofList (_ ++ [_]), _) = _
    rw [Json.Members.ofList_append_singleton, Tally.ofList_of_order hbadgeOrder]
    rfl

/-- Two badges, one of which has in its name whatever is looked for in a count. -/
def someBadges : Tally where
  entries := [("Founder", 1), ("x2) fox", -4)]
  ascending := by decide
  counts := by decide

/-- Trophies under two names. -/
def someTrophies : Tally where
  entries := [("cte-1", 10), ("econ-5", 5)]
  ascending := by decide
  counts := by decide

/-- A single trophy under the name of a badge. -/
def oneTrophy : Tally where
  entries := [("Founder", 7)]
  ascending := by decide
  counts := by decide

/-- The badges, in the other order. -/
def someBadgeElements : Xml.Node :=
  .element { label := "BADGES" } []
    [ .element { label := "BADGE" } [] [.text "x2) fox (x-4)"]
    , .element { label := "BADGE" } [] [.text "Founder"] ]

/-- A trophy with its count as text. -/
def trophyElement (type count : String) : Xml.Node :=
  .element { label := "TROPHY" } [⟨{ label := "type" }, type⟩] [.text count]

theorem writtenAs_someBadgeElements :
    someBadges.WrittenAs Award.WritesBadge (someBadgeElements.childrenWith "BADGE") := by
  refine ⟨[("x2) fox", -4), ("Founder", 1)], List.Perm.swap _ _ _, .cons ?_ (.cons ?_ .nil)⟩
  · exact .counted rfl (Number.denotes_integerText (-4)) rfl
  · exact .bare rfl rfl rfl

/-- Both maps come back, and a single trophy takes the place of the badge with its name. -/
theorem awards_of_written_someBadges :
    awards someBadgeElements (.element { label := "TROPHIES" } []
        [trophyElement "econ-5" "+5", trophyElement "cte-1" "10"]) =
      ([("Founder", .integer 1), ("x2) fox", .integer (-4))],
        [("cte-1", .integer 10), ("econ-5", .integer 5)]) ∧
    awards someBadgeElements (.element { label := "TROPHIES" } [] [trophyElement "Founder" "7"]) =
      ([("Founder", .integer 7), ("x2) fox", .integer (-4))], []) := by
  have hnames : ∀ p ∈ someBadges.entries, Award.Writable p.1 :=
    List.forall_mem_cons.mpr ⟨⟨by decide, by decide, by decide⟩,
      List.forall_mem_singleton.mpr ⟨by decide, by decide, by decide⟩⟩
  constructor
  · have hplus : Number.Denotes "+5".toList 5 :=
      ⟨.plus, ['5'], rfl, List.cons_ne_nil _ _, List.forall_mem_singleton.mpr rfl, rfl⟩
    have hten : Number.Denotes "10".toList 10 := Number.denotes_integerText 10
    refine And.left (awards_of_written (t := someTrophies) hnames writtenAs_someBadgeElements ?_)
      (by decide)
    exact ⟨[("econ-5", 5), ("cte-1", 10)], List.Perm.swap _ _ _,
      .cons ⟨rfl, hplus⟩ (.cons ⟨rfl, hten⟩ .nil)⟩
  · refine And.right (awards_of_written (t := oneTrophy) hnames writtenAs_someBadgeElements ?_) _ rfl
    exact ⟨[("Founder", 7)], List.Perm.refl _, .cons ⟨rfl, Number.denotes_integerText 7⟩ .nil⟩

end CardArchive
