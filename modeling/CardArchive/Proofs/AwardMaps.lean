import CardArchive.Proofs.ElementText

/-!
# The maps of awards

Each badge and each trophy contributes an award or none, by its own attributes and its own text, and
the contributions of a list of elements stand in the order of the elements. A map has exactly the keys
that are contributed to it, each with the value that was contributed last (`Json.Members.Binds`).
Whether the contribution of a trophy goes to the badges depends on how many trophies there are, and not
on what they contribute.
-/

namespace CardArchive

/-! ## The last value under a key -/

namespace Json.Members

variable {pairs : List (String × Json)} {members : Members} {key : String} {value : Json}

/-- The value comes under the key, and nothing comes under the key behind it. -/
def LastUnder (pairs : List (String × Json)) (key : String) (value : Json) : Prop :=
  ∃ before after, pairs = before ++ (key, value) :: after ∧ ∀ later ∈ after, later.1 ≠ key

/-- The last value under a key is the first one from behind. -/
theorem lookup_reverse_eq_some_iff :
    pairs.reverse.lookup key = some value ↔ LastUnder pairs key value := by
  rw [List.lookup_eq_some_iff]
  constructor
  · rintro ⟨later, earlier, hreverse, hlater⟩
    refine ⟨earlier.reverse, later.reverse, ?_, fun p hp => ?_⟩
    · rw [← List.reverse_reverse pairs, hreverse, List.reverse_append, List.reverse_cons,
        List.append_assoc, List.singleton_append]
    · exact Ne.symm (bne_iff_ne.mp (hlater p (List.mem_reverse.mp hp)))
  · rintro ⟨before, after, rfl, hafter⟩
    refine ⟨after.reverse, before.reverse, ?_, fun p hp => ?_⟩
    · rw [List.reverse_append, List.reverse_cons, List.append_assoc, List.singleton_append]
    · exact bne_iff_ne.mpr (Ne.symm (hafter p (List.mem_reverse.mp hp)))

/-- Under a key that comes at all, one value comes last. -/
theorem exists_lastUnder (h : key ∈ pairs.map Prod.fst) : ∃ value, LastUnder pairs key value := by
  -- what is looked up from the end is the last value
  cases hlookup : pairs.reverse.lookup key with
  | some value => exact ⟨value, lookup_reverse_eq_some_iff.mp hlookup⟩
  | none =>
    obtain ⟨p, hp, rfl⟩ := List.mem_map.mp h
    have hne := List.lookup_eq_none_iff.mp hlookup p (List.mem_reverse.mpr hp)
    simp at hne

/-- The object has the keys of the contributions, each once, with the value that came last. -/
structure Binds (members : Members) (contributions : List (String × Json)) : Prop where
  /-- The keys stand in ascending order, so none of them stands there twice. -/
  ascending : members.Ascending
  /-- No key is lost, and none is made up. -/
  keys : ∀ key, key ∈ members.map Prod.fst ↔ key ∈ contributions.map Prod.fst
  /-- A value is lost only to a later one under the same key. -/
  values : ∀ key value, (key, value) ∈ members ↔ LastUnder contributions key value

/-- Objects are made by inserting one pair after the other, and a key that is there takes the new
value. -/
theorem binds_ofList (pairs : List (String × Json)) : Binds (ofList pairs) pairs := by
  have hascending := ascending_ofList pairs
  have hvalues : ∀ key value, (key, value) ∈ ofList pairs ↔ LastUnder pairs key value := by
    intro key value
    rw [← lookup_eq_some_iff_mem (nodup_keys hascending), ← lookup_reverse_eq_some_iff,
      ← get?_ofList, get?]
  refine ⟨hascending, fun key => ⟨fun h => ?_, fun h => ?_⟩, hvalues⟩
  · obtain ⟨⟨_, value⟩, hmem, rfl⟩ := List.mem_map.mp h
    obtain ⟨before, after, rfl, -⟩ := (hvalues _ value).mp hmem
    simp
  · obtain ⟨value, hlast⟩ := exists_lastUnder h
    exact List.mem_map.mpr ⟨_, (hvalues key value).mpr hlast, rfl⟩

end Json.Members

namespace Award

/-! ## What an element contributes -/

/-- The integer with which the text begins, or null where it begins with none. -/
inductive Counts (s : List Char) : Json → Prop where
  | integer {n : Int} (h : Number.Leads s n) : Counts s (.integer n)
  | null (h : ∀ n, ¬Number.Leads s n) : Counts s .null

/-- The award that a text without a type stands for. -/
inductive Counted : List Char → Award → Prop where
  /-- The text is a name that counts once. -/
  | once {text : List Char} (h : '(' ∉ text) : Counted text (String.ofList text, .integer 1)
  /-- The name stands before the first parenthesis. The count stands behind it, as far as the next
  one, without an `x` and a closing parenthesis. -/
  | times {before name inner rest : List Char} {value : Json} (hbefore : '(' ∉ before)
    (hname : Text.Trims before name) (hinner : '(' ∉ inner) (hrest : ∀ c ∈ rest.head?, c = '(')
    (hvalue : Counts ((inner.erase 'x').erase ')') value) :
    Counted (before ++ '(' :: (inner ++ rest)) (String.ofList (countedName name), value)

/-- What a badge contributes. Without attributes its text says it all; with a type the text is the
value, and there has to be one. -/
inductive BadgeGives (n : Xml.Node) : Option Award → Prop where
  | counted {text : List Char} {award : Award} (h : n.attributes = [])
    (htext : Text.Trims n.directText text) (haward : Counted text award) : BadgeGives n (some award)
  | typed {type : String} {text : List Char} (h : n.attribute? "type" = some type)
    (htext : Text.Trims n.directText text) (hne : text ≠ []) :
    BadgeGives n (some (type, scalar text))
  | untyped (h : n.attributes ≠ []) (htype : n.attribute? "type" = none) : BadgeGives n none
  | textless (h : n.attributes ≠ []) (htext : Text.Trims n.directText []) : BadgeGives n none

/-- What a trophy contributes. -/
inductive TrophyGives (n : Xml.Node) : Option Award → Prop where
  | typed {type : String} {text : List Char} {value : Json} (h : n.attribute? "type" = some type)
    (htext : Text.Trims n.directText text) (hvalue : Counts text value) :
    TrophyGives n (some (type, value))
  | untyped (h : n.attribute? "type" = none) : TrophyGives n none

/-- The contributions of the elements, in their order. -/
inductive Contributed (gives : Xml.Node → Option Award → Prop) :
    List Xml.Node → List Award → Prop where
  | nil : Contributed gives [] []
  | award {n : Xml.Node} {award : Award} {nodes : List Xml.Node} {awards : List Award}
    (h : gives n (some award)) (hrest : Contributed gives nodes awards) :
    Contributed gives (n :: nodes) (award :: awards)
  | nothing {n : Xml.Node} {nodes : List Xml.Node} {awards : List Award}
    (h : gives n none) (hrest : Contributed gives nodes awards) :
    Contributed gives (n :: nodes) awards

variable {s text : List Char} {value : Json} {award : Award} {n : Xml.Node} {o : Option Award}

/-- The relation gives each text one value, the one that is read. -/
theorem count_eq_iff : count s = value ↔ Counts s value := by
  unfold count
  constructor
  · rintro rfl
    split
    · next n h => exact .integer (leadingInt?_eq_some_iff.mp h)
    · next h => exact .null fun n hn => by rw [leadingInt?_eq_some_iff.mpr hn] at h; cases h
  · intro h
    cases h with
    | integer h => rw [leadingInt?_eq_some_iff.mpr h]
    | null h =>
      cases hread : leadingInt? s with
      | none => rfl
      | some n => exact absurd (leadingInt?_eq_some_iff.mp hread) (h n)

theorem counted_of_not_mem (h : '(' ∉ text) : counted text = (String.ofList text, .integer 1) := by
  rw [counted, Text.splitOnce_of_not_mem h]

/-- The name is cut off at the first parenthesis, and what stands behind a second one is not looked
at. -/
theorem counted_append {before name inner rest : List Char} (hbefore : '(' ∉ before)
    (hname : Text.Trims before name) (hinner : '(' ∉ inner) (hrest : ∀ c ∈ rest.head?, c = '(') :
    counted (before ++ '(' :: (inner ++ rest)) =
      (String.ofList (countedName name), count ((inner.erase 'x').erase ')')) := by
  have hpass : ∀ c ∈ inner, decide (c ≠ '(') = true := fun c hc =>
    decide_eq_true fun heq => hinner (heq ▸ hc)
  have hstop : ∀ c ∈ rest.head?, decide (c ≠ '(') = false := fun c hc => by simp [hrest c hc]
  rw [counted, Text.splitOnce_append_cons hbefore]
  simp only [Text.trim_of_trims hname, (Text.run_append hpass hstop).1]

/-- Every text is counted in exactly one way. -/
theorem counted_eq_iff : counted text = award ↔ Counted text award := by
  constructor
  · rintro rfl
    by_cases hmem : '(' ∈ text
    · obtain ⟨before, behind, rfl, hbefore⟩ := List.eq_append_cons_of_mem hmem
      obtain ⟨inner, rest, rfl, hinner, hrest⟩ :=
        Text.exists_run_append (fun c => decide (c ≠ '(')) behind
      have hopen : '(' ∉ inner := fun hc => by simpa using hinner _ hc
      have hnext : ∀ c ∈ rest.head?, c = '(' := fun c hc => by simpa using hrest c hc
      have hname := Text.trims_trim before
      rw [counted_append hbefore hname hopen hnext]
      exact .times hbefore hname hopen hnext (count_eq_iff.mp rfl)
    · rw [counted_of_not_mem hmem]
      exact .once hmem
  · intro h
    cases h with
    | once h => exact counted_of_not_mem h
    | times hbefore hname hinner hrest hvalue =>
      rw [counted_append hbefore hname hinner hrest, count_eq_iff.mpr hvalue]

theorem trims_textOf (n : Xml.Node) : Text.Trims n.directText (textOf n) :=
  Text.trims_trim n.directText

theorem textOf_of_trims (h : Text.Trims n.directText text) : textOf n = text :=
  Text.trim_of_trims h

/-- Every element contributes one award or none, as its attributes and its text say. -/
theorem ofBadge_eq_iff : ofBadge n = o ↔ BadgeGives n o := by
  unfold ofBadge
  constructor
  · rintro rfl
    have htext := trims_textOf n
    by_cases hnone : n.attributes = []
    · simp only [hnone, List.isEmpty_nil, if_true]
      exact .counted hnone htext (counted_eq_iff.mp rfl)
    · simp only [List.isEmpty_iff, hnone, if_false]
      cases htype : n.attribute? "type" with
      | none => exact .untyped hnone htype
      | some type =>
        dsimp only
        split
        · next hempty =>
          rw [hempty] at htext
          exact .textless hnone htext
        · next hne => exact .typed htype htext hne
  · intro h
    cases h with
    | counted h htext haward =>
      simp only [h, List.isEmpty_nil, if_true, textOf_of_trims htext, counted_eq_iff.mpr haward]
    | typed h htext hne =>
      have hsome : n.attributes ≠ [] := by
        intro hnil
        rw [Xml.Node.attribute?, hnil] at h
        cases h
      simp only [List.isEmpty_iff, hsome, if_false, h, textOf_of_trims htext, hne]
    | untyped h htype => simp only [List.isEmpty_iff, h, if_false, htype]
    | textless h htext =>
      simp only [List.isEmpty_iff, h, if_false, textOf_of_trims htext, if_true]
      cases n.attribute? "type" <;> rfl

theorem ofTrophy_eq_iff : ofTrophy n = o ↔ TrophyGives n o := by
  unfold ofTrophy
  constructor
  · rintro rfl
    cases htype : n.attribute? "type" with
    | none => exact .untyped htype
    | some type => exact .typed htype (trims_textOf n) (count_eq_iff.mp rfl)
  · intro h
    cases h with
    | typed h htext hvalue =>
      rw [h, Option.map_some, textOf_of_trims htext, count_eq_iff.mpr hvalue]
    | untyped h => rw [h, Option.map_none]

/-- If each element contributes in one way, so does a list of them. -/
theorem filterMap_eq_iff {f : Xml.Node → Option Award} {gives : Xml.Node → Option Award → Prop}
    (h : ∀ n o, f n = o ↔ gives n o) {nodes : List Xml.Node} {awards : List Award} :
    nodes.filterMap f = awards ↔ Contributed gives nodes awards := by
  constructor
  · rintro rfl
    induction nodes with
    | nil => exact .nil
    | cons n rest ih =>
      cases hn : f n with
      | none =>
        rw [List.filterMap_cons_none hn]
        exact .nothing ((h n none).mp hn) ih
      | some award =>
        rw [List.filterMap_cons_some hn]
        exact .award ((h n _).mp hn) ih
  · intro hcontributed
    induction hcontributed with
    | nil => rfl
    | award hn _ ih => rw [List.filterMap_cons_some ((h _ _).mpr hn), ih]
    | nothing hn _ ih => rw [List.filterMap_cons_none ((h _ _).mpr hn), ih]

theorem filterMap_ofBadge_eq_iff {nodes : List Xml.Node} {awards : List Award} :
    nodes.filterMap ofBadge = awards ↔ Contributed BadgeGives nodes awards :=
  filterMap_eq_iff fun _ _ => ofBadge_eq_iff

theorem filterMap_ofTrophy_eq_iff {nodes : List Xml.Node} {awards : List Award} :
    nodes.filterMap ofTrophy = awards ↔ Contributed TrophyGives nodes awards :=
  filterMap_eq_iff fun _ _ => ofTrophy_eq_iff

end Award

/-! ## Both maps -/

variable {badges trophies : Xml.Node} {toBadges toTrophies : List Award}

/-- A trophy that is the only one contributes to the badges, behind them. -/
theorem awards_of_single (hsingle : (trophies.childrenWith "TROPHY").length = 1)
    (hbadges : Award.Contributed Award.BadgeGives (badges.childrenWith "BADGE") toBadges)
    (htrophies : Award.Contributed Award.TrophyGives (trophies.childrenWith "TROPHY") toTrophies) :
    awards badges trophies = (Json.Members.ofList (toBadges ++ toTrophies), []) := by
  obtain ⟨single, hnodes⟩ := List.length_eq_one_iff.mp hsingle
  have hone : (Award.ofTrophy single).toList = toTrophies := by
    rw [← Award.filterMap_ofTrophy_eq_iff, hnodes] at htrophies
    rw [← htrophies]
    cases h : Award.ofTrophy single with
    | none => rw [List.filterMap_cons_none h]; rfl
    | some award => rw [List.filterMap_cons_some h]; rfl
  unfold awards
  simp only [hnodes, Award.filterMap_ofBadge_eq_iff.mpr hbadges, hone]

/-- Any other number of trophies stays apart from the badges. -/
theorem awards_of_not_single (hseveral : (trophies.childrenWith "TROPHY").length ≠ 1)
    (hbadges : Award.Contributed Award.BadgeGives (badges.childrenWith "BADGE") toBadges)
    (htrophies : Award.Contributed Award.TrophyGives (trophies.childrenWith "TROPHY") toTrophies) :
    awards badges trophies = (Json.Members.ofList toBadges, Json.Members.ofList toTrophies) := by
  unfold awards
  simp only [Award.filterMap_ofBadge_eq_iff.mpr hbadges]
  split
  · next single hnodes => exact absurd (congrArg List.length hnodes) hseveral
  · rw [Award.filterMap_ofTrophy_eq_iff.mpr htrophies]

/-- The badges and trophies of a card contribute in one way, and each map binds what is contributed
to it. A single trophy contributes to the badges, behind all of them. -/
theorem awards_bind_last (badges trophies : Xml.Node) : ∃ toBadges toTrophies,
    (∀ awards, Award.Contributed Award.BadgeGives (badges.childrenWith "BADGE") awards ↔
      awards = toBadges) ∧
    (∀ awards, Award.Contributed Award.TrophyGives (trophies.childrenWith "TROPHY") awards ↔
      awards = toTrophies) ∧
    ((trophies.childrenWith "TROPHY").length = 1 →
      (awards badges trophies).1.Binds (toBadges ++ toTrophies) ∧ (awards badges trophies).2 = []) ∧
    ((trophies.childrenWith "TROPHY").length ≠ 1 →
      (awards badges trophies).1.Binds toBadges ∧ (awards badges trophies).2.Binds toTrophies) ∧
    (trophies.childrenWith "TROPHY" = [] → (awards badges trophies).2 = []) := by
  refine ⟨_, _, fun _ => Award.filterMap_ofBadge_eq_iff.symm.trans eq_comm,
    fun _ => Award.filterMap_ofTrophy_eq_iff.symm.trans eq_comm, fun hsingle => ?_,
    fun hseveral => ?_, fun hnone => ?_⟩
  · rw [awards_of_single hsingle (Award.filterMap_ofBadge_eq_iff.mp rfl)
      (Award.filterMap_ofTrophy_eq_iff.mp rfl)]
    exact ⟨Json.Members.binds_ofList _, rfl⟩
  · rw [awards_of_not_single hseveral (Award.filterMap_ofBadge_eq_iff.mp rfl)
      (Award.filterMap_ofTrophy_eq_iff.mp rfl)]
    exact ⟨Json.Members.binds_ofList _, Json.Members.binds_ofList _⟩
  · unfold awards
    rw [hnone]
    rfl

/-- A counted badge, a bare one, and one with a type that takes the place of the bare one. -/
def rivalBadges : Xml.Node :=
  .element { label := "BADGES" } []
    [ .element { label := "BADGE" } [] [.text " Easter Eggs (x3)"]
    , .element { label := "BADGE" } [] [.text "Founder"]
    , .element { label := "BADGE" } [⟨{ label := "type" }, "Empty"⟩] []
    , .element { label := "BADGE" } [⟨{ label := "type" }, "Founder"⟩] [.text "yes"] ]

/-- A trophy under the name of a badge. -/
def rivalTrophy : Xml.Node :=
  .element { label := "TROPHY" } [⟨{ label := "type" }, "Founder"⟩] [.text "7th"]

/-- The trophy is folded into the badges where it is alone. A second one without a type keeps it
apart, though that one contributes nothing. -/
theorem awards_bind_last_rivals :
    ((awards rivalBadges (.element { label := "TROPHIES" } [] [rivalTrophy])).1.Binds
      [("Easter Egg", .integer 3), ("Founder", .integer 1), ("Founder", .string "yes"),
        ("Founder", .integer 7)]) ∧
    (awards rivalBadges (.element { label := "TROPHIES" } []
      [rivalTrophy, .element { label := "TROPHY" } [] []])).2.Binds [("Founder", .integer 7)] := by
  constructor
  · obtain ⟨toBadges, toTrophies, hbadges, htrophies, hsingle, -⟩ :=
      awards_bind_last rivalBadges (.element { label := "TROPHIES" } [] [rivalTrophy])
    have hb := (hbadges _).mp (Award.filterMap_ofBadge_eq_iff.mp rfl)
    have ht := (htrophies _).mp (Award.filterMap_ofTrophy_eq_iff.mp rfl)
    rw [← hb, ← ht] at hsingle
    exact (hsingle rfl).1
  · obtain ⟨toBadges, toTrophies, -, htrophies, -, hseveral, -⟩ :=
      awards_bind_last rivalBadges (.element { label := "TROPHIES" } []
        [rivalTrophy, .element { label := "TROPHY" } [] []])
    have ht := (htrophies _).mp (Award.filterMap_ofTrophy_eq_iff.mp rfl)
    rw [← ht] at hseveral
    exact (hseveral (by decide)).2

end CardArchive
