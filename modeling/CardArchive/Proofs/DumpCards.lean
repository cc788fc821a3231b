import CardArchive.Proofs.DumpFormat
import CardArchive.Proofs.ElementText

/-!
# The cards of a dump

Which cards a dump has is said by the elements of its tree. Each of the elements that stand for cards
gives one card, and what it gives is in that element alone: the first child with a label counts, and
its text without the blanks around it. The first element that gives none decides what is wrong with the
dump; it is reported by its position among all elements that stand for cards, in whatever set it is.
-/

namespace CardArchive

/-! ## Children of an element -/

namespace Xml.Node

variable {label : String} {n child : Node}

/-- The child is the first with the label. -/
def FirstChild (label : String) (n child : Node) : Prop :=
  child.hasLabel label = true ∧ ∃ before after, n.children = before ++ child :: after ∧
    ∀ earlier ∈ before, earlier.hasLabel label = false

/-- There is no child with the label. -/
def Lacks (label : String) (n : Node) : Prop := ∀ child ∈ n.children, child.hasLabel label = false

theorem child?_eq_some_iff : n.child? label = some child ↔ n.FirstChild label child := by
  rw [child?, List.find?_eq_some_iff_append, FirstChild]
  simp only [Bool.not_eq_true']

theorem child?_eq_none_iff : n.child? label = none ↔ n.Lacks label := by
  simp only [child?, List.find?_eq_none, Lacks, Bool.not_eq_true]

end Xml.Node

namespace DumpCard

variable {n : Xml.Node} {label : String} {position : Nat} {c : DumpCard} {fault : CardFault}

/-! ## What an element gives -/

/-- The text under a label: that of the first child with it, even if it is empty, and none without
such a child. -/
inductive GivesText (n : Xml.Node) (label : String) : Option String → Prop where
  | absent (h : n.Lacks label) : GivesText n label none
  | present {child : Xml.Node} {s : List Char} (h : n.FirstChild label child)
    (hs : Text.Trims child.directText s) : GivesText n label (some (String.ofList s))

/-- The identifier is an integer of 64 bits with a sign. -/
def GivesId (n : Xml.Node) (id : Int) : Prop :=
  ∃ value, GivesText n "ID" (some value) ∧ Number.Denotes value.toList id ∧
    -0x8000000000000000 ≤ id ∧ id < 0x8000000000000000

/-- The texts that a card may have, with the labels of their elements. -/
def labelledTexts (c : DumpCard) : List (String × Option String) :=
  c.requiredTexts ++ [("DESCRIPTION", c.description)]

/-- The element gives the card, and nothing else has a part in it. -/
structure Gives (n : Xml.Node) (c : DumpCard) : Prop where
  id : GivesId n c.id
  texts : ∀ p ∈ c.labelledTexts, GivesText n p.1 p.2
  awards : ∃ badges trophies, n.FirstChild "BADGES" badges ∧ n.FirstChild "TROPHIES" trophies ∧
    (c.badges, c.trophies) = awards badges trophies

/-- Everything is there without which an element gives no card. -/
structure Usable (n : Xml.Node) : Prop where
  id : ∃ id, GivesId n id
  badges : ∃ child, n.FirstChild "BADGES" child
  trophies : ∃ child, n.FirstChild "TROPHIES" child

/-- What is wrong with an element at a position. The identifier comes first, then the badges; the
trophies are missed only where all else is there. -/
inductive Lacking (position : Nat) (n : Xml.Node) : CardFault → Prop where
  | noId (h : n.Lacks "ID") : Lacking position n (.missingElement position "ID")
  | badId {value : String} (h : GivesText n "ID" (some value)) (hid : ∀ id, ¬GivesId n id) :
    Lacking position n (.invalidId position value)
  | noBadges {id : Int} (hid : GivesId n id) (h : n.Lacks "BADGES") :
    Lacking position n (.missingElement position "BADGES")
  | noTrophies {id : Int} {badges : Xml.Node} (hid : GivesId n id)
    (hbadges : n.FirstChild "BADGES" badges) (h : n.Lacks "TROPHIES") :
    Lacking position n (.missingElement position "TROPHIES")

/-! ## One element -/

theorem text?_eq_iff {s : Option String} : text? n label = s ↔ GivesText n label s := by
  constructor
  · intro h
    subst h
    unfold text?
    cases hchild : n.child? label with
    | none => exact .absent (Xml.Node.child?_eq_none_iff.mp hchild)
    | some child => exact .present (Xml.Node.child?_eq_some_iff.mp hchild) (Text.trims_trim _)
  · intro h
    unfold text?
    cases h with
    | absent h => rw [Xml.Node.child?_eq_none_iff.mpr h, Option.map_none]
    | present h hs =>
      rw [Xml.Node.child?_eq_some_iff.mpr h, Option.map_some, Award.textOf, Text.trim_of_trims hs]

theorem givesId_iff {id : Int} : GivesId n id ↔
    ∃ value, text? n "ID" = some value ∧ Number.readInt64? value.toList = some id := by
  simp only [GivesId, text?_eq_iff, Number.readInt64?_eq_some_iff]

theorem ofNode_of_lacking (h : Lacking position n fault) : ofNode position n = .error fault := by
  cases h with
  | noId h => rw [ofNode, text?_eq_iff.mpr (.absent h)]
  | @badId value h hid =>
    have htext := text?_eq_iff.mpr h
    have hread : Number.readInt64? value.toList = none := by
      cases hread : Number.readInt64? value.toList with
      | none => rfl
      | some id => exact absurd (givesId_iff.mpr ⟨value, htext, hread⟩) (hid id)
    simp only [ofNode, htext, hread]
  | noBadges hid h =>
    obtain ⟨value, htext, hread⟩ := givesId_iff.mp hid
    simp only [ofNode, htext, hread, Xml.Node.child?_eq_none_iff.mpr h]
  | noTrophies hid hbadges h =>
    obtain ⟨value, htext, hread⟩ := givesId_iff.mp hid
    simp only [ofNode, htext, hread, Xml.Node.child?_eq_some_iff.mpr hbadges,
      Xml.Node.child?_eq_none_iff.mpr h]

/-- A usable element gives a card. -/
theorem ofNode_of_usable (h : Usable n) (position : Nat) :
    ∃ c, ofNode position n = .ok c ∧ Gives n c := by
  obtain ⟨id, hid⟩ := h.id
  obtain ⟨badges, hbadges⟩ := h.badges
  obtain ⟨trophies, htrophies⟩ := h.trophies
  obtain ⟨value, htext, hread⟩ := givesId_iff.mp hid
  simp only [ofNode, htext, hread, Xml.Node.child?_eq_some_iff.mpr hbadges,
    Xml.Node.child?_eq_some_iff.mpr htrophies]
  refine ⟨_, rfl, hid, ?_, badges, trophies, hbadges, htrophies, rfl⟩
  simp only [← text?_eq_iff]
  simp [labelledTexts, requiredTexts]

/-- An element that is not usable has a fault. -/
theorem exists_lacking (h : ¬Usable n) (position : Nat) : ∃ fault, Lacking position n fault := by
  by_cases hid : ∃ id, GivesId n id
  · obtain ⟨id, hid⟩ := hid
    cases hbadges : n.child? "BADGES" with
    | none => exact ⟨_, .noBadges hid (Xml.Node.child?_eq_none_iff.mp hbadges)⟩
    | some badges =>
      have hbadges := Xml.Node.child?_eq_some_iff.mp hbadges
      cases htrophies : n.child? "TROPHIES" with
      | none => exact ⟨_, .noTrophies hid hbadges (Xml.Node.child?_eq_none_iff.mp htrophies)⟩
      | some trophies =>
        have htrophies := Xml.Node.child?_eq_some_iff.mp htrophies
        exact absurd ⟨⟨id, hid⟩, ⟨badges, hbadges⟩, ⟨trophies, htrophies⟩⟩ h
  · -- without a text there is no child, and any other text is no integer
    have hnone : ∀ id, ¬GivesId n id := fun id h => hid ⟨id, h⟩
    cases htext : text? n "ID" with
    | none =>
      cases text?_eq_iff.mp htext with
      | absent h => exact ⟨_, .noId h⟩
    | some value => exact ⟨_, .badId (text?_eq_iff.mp htext) hnone⟩

theorem usable_iff (position : Nat) : Usable n ↔ ∃ c, ofNode position n = .ok c := by
  constructor
  · intro h
    obtain ⟨c, hc, -⟩ := ofNode_of_usable h position
    exact ⟨c, hc⟩
  · rintro ⟨c, hc⟩
    by_contra h
    obtain ⟨fault, hfault⟩ := exists_lacking h position
    rw [ofNode_of_lacking hfault] at hc
    cases hc

end DumpCard

namespace Dump

open DumpCard

/-! ## All elements -/

theorem cardsFrom_of_usable {nodes : List Xml.Node} (h : ∀ n ∈ nodes, Usable n) (position : Nat) :
    ∃ cs, cardsFrom position nodes = .ok cs ∧ List.Forall₂ Gives nodes cs := by
  induction nodes generalizing position with
  | nil => exact ⟨[], rfl, .nil⟩
  | cons n rest ih =>
    obtain ⟨hn, hrest⟩ := List.forall_mem_cons.mp h
    obtain ⟨c, hc, hgives⟩ := ofNode_of_usable hn position
    obtain ⟨cs, hcs, hall⟩ := ih hrest (position + 1)
    exact ⟨c :: cs, by rw [cardsFrom, hc, hcs]; rfl, .cons hgives hall⟩

/-- The first fault is reported, whatever comes behind it. -/
theorem cardsFrom_of_lacking {before after : List Xml.Node} {n : Xml.Node} {position : Nat}
    {fault : CardFault} (hbefore : ∀ m ∈ before, Usable m)
    (h : Lacking (position + before.length) n fault) :
    cardsFrom position (before ++ n :: after) = .error fault := by
  induction before generalizing position with
  | nil =>
    have hn := ofNode_of_lacking h
    rw [List.length_nil, Nat.add_zero] at hn
    rw [List.nil_append, cardsFrom, hn]
    rfl
  | cons m rest ih =>
    obtain ⟨hm, hrest⟩ := List.forall_mem_cons.mp hbefore
    obtain ⟨c, hc, -⟩ := ofNode_of_usable hm position
    have hmore : cardsFrom (position + 1) (rest ++ n :: after) = .error fault := by
      refine ih hrest ?_
      rwa [List.length_cons, Nat.add_comm rest.length, ← Nat.add_assoc] at h
    rw [List.cons_append, cardsFrom, hc, hmore]
    rfl

/-- The elements that stand for cards: those in the sets of the root, set by set and in the order in
which they stand there. -/
def cardElements (root : Xml.Node) : List Xml.Node :=
  (root.children.filter (Xml.Node.hasLabel "SET")).flatMap fun set =>
    set.children.filter (Xml.Node.hasLabel "CARD")

theorem cards_of_label {root : Xml.Node} (h : root.hasLabel "CARDS" = true) :
    cards root = cardsFrom 1 (cardElements root) := by
  rw [cards, cardNodes, if_pos h]
  rfl

/-- A root with another name has no cards. Otherwise each element that stands for a card gives one, or
the first that gives none is reported, and nothing behind it matters. -/
theorem cards_of_elements :
    (∀ root, root.hasLabel "CARDS" = false → cards root = .ok []) ∧
      (∀ root, root.hasLabel "CARDS" = true → (∀ n ∈ cardElements root, Usable n) →
        ∃ cs, cards root = .ok cs ∧ List.Forall₂ Gives (cardElements root) cs) ∧
      ∀ before n, (∀ m ∈ before, Usable m) → ¬Usable n →
        ∃ fault, Lacking (before.length + 1) n fault ∧
          ∀ root after, root.hasLabel "CARDS" = true →
            cardElements root = before ++ n :: after → cards root = .error fault := by
  refine ⟨fun root h => ?_, fun root h husable => ?_, fun before n hbefore hn => ?_⟩
  · rw [cards, cardNodes, h]
    rfl
  · rw [cards_of_label h]
    exact cardsFrom_of_usable husable 1
  · obtain ⟨fault, hfault⟩ := exists_lacking hn (before.length + 1)
    refine ⟨fault, hfault, fun root after h helements => ?_⟩
    rw [cards_of_label h, helements]
    exact cardsFrom_of_lacking hbefore (Nat.add_comm 1 _ ▸ hfault)

/-- An element that has nothing but an identifier and no awards. -/
def bareElement (id : String) : Xml.Node :=
  .element { label := "CARD" } []
    [leaf "ID" id, .element { label := "BADGES" } [] [], .element { label := "TROPHIES" } [] []]

/-- Three sets, of which the second is empty and the third has two faults. -/
def faultySets : Xml.Node :=
  .element { label := "CARDS" } []
    [ .element { label := "SET" } [] [bareElement " 1 "]
    , .element { label := "SET" } [] []
    , .element { label := "SET" } [] [bareElement "2x", .element { label := "CARD" } [] []] ]

/-- The positions go on from set to set, and the first of the two faults is reported. Without a fault
there is a card for each element. -/
theorem cards_of_elements_faultySets :
    (Lacking 2 (bareElement "2x") (.invalidId 2 "2x") ∧
      cards faultySets = .error (.invalidId 2 "2x")) ∧
    List.Forall₂ Gives (cardElements twoCards) [firstCard, secondCard] := by
  obtain ⟨-, hcards, hfault⟩ := cards_of_elements
  constructor
  · -- what is reported is one fault, so it is enough to run the dump
    have hfirst : ∀ m ∈ [bareElement " 1 "], Usable m :=
      List.forall_mem_singleton.mpr ((usable_iff 1).mpr ⟨_, rfl⟩)
    have hsecond : ¬Usable (bareElement "2x") := by
      rintro h
      obtain ⟨c, hc⟩ := (usable_iff 2).mp h
      cases hc
    obtain ⟨fault, hlacking, herror⟩ := hfault _ _ hfirst hsecond
    have hfaulty := herror faultySets [.element { label := "CARD" } [] []] rfl rfl
    have hrun : cards faultySets = .error (.invalidId 2 "2x") := rfl
    obtain rfl := Except.error.inj (hrun.symm.trans hfaulty)
    exact ⟨hlacking, hrun⟩
  · have husable : ∀ n ∈ cardElements twoCards, Usable n :=
      List.forall_mem_cons.mpr ⟨(usable_iff 1).mpr ⟨_, rfl⟩,
        List.forall_mem_singleton.mpr ((usable_iff 2).mpr ⟨_, rfl⟩)⟩
    obtain ⟨cs, hcs, hall⟩ := hcards twoCards rfl husable
    rw [cards_twoCards] at hcs
    exact Except.ok.inj hcs ▸ hall

end Dump

end CardArchive
