import CardArchive.Dump.Card
import Mathlib.Data.List.Basic
import Mathlib.Logic.Relation

/-!
# Markup that does not matter

A dump may be edited where nobody looks: something is put among the children of a container under
another name than those that are looked for there, or text is interrupted by something else. `Edit` is
one such change anywhere in a tree, `Relation.EqvGen Edit` any number of them in both directions.

Every tree has an `essence`, in which each container has only what is looked for in it and each text is
in one piece. An edit leaves the essence as it is, and the cards of a tree are those of its essence.
-/

namespace CardArchive.Dump

open Xml (Node Name Attribute)
open Xml.Node

/-! ## Edits -/

/-- The elements of a card that have a text. -/
def fieldLabels : List String :=
  ["ID", "NAME", "TYPE", "MOTTO", "CATEGORY", "REGION", "FLAG", "CARDCATEGORY", "DESCRIPTION"]

/-- The elements whose text is read. -/
def textLabels : List String := fieldLabels ++ ["BADGE", "TROPHY"]

/-- The elements whose children are looked at, with the labels that are looked for. -/
def containers : List (String × List String) :=
  [ ("CARDS", ["SET"]), ("SET", ["CARD"]), ("CARD", fieldLabels ++ ["BADGES", "TROPHIES"])
  , ("BADGES", ["BADGE"]), ("TROPHIES", ["TROPHY"]) ]

/-- Something is inserted that does not matter. -/
inductive Edit : Node → Node → Prop where
  /-- A node is put into a container, and it is not what is looked for there. -/
  | intrude {name : Name} {attributes : List Attribute} {labels : List String}
    {before after : List Node} {x : Node} (h : (name.label, labels) ∈ containers)
    (hx : ∀ label ∈ labels, x.hasLabel label = false) :
    Edit (.element name attributes (before ++ after)) (.element name attributes (before ++ x :: after))
  /-- A node that is no text is put beside the texts of an element. -/
  | accompany {name : Name} {attributes : List Attribute} {before after : List Node} {x : Node}
    (h : name.label ∈ textLabels) (hx : ∀ s, x ≠ .text s) :
    Edit (.element name attributes (before ++ after)) (.element name attributes (before ++ x :: after))
  /-- A node that is no text is put in the middle of a text. -/
  | interrupt {name : Name} {attributes : List Attribute} {before after : List Node} {x : Node}
    (s t : String) (h : name.label ∈ textLabels) (hx : ∀ s, x ≠ .text s) :
    Edit (.element name attributes (before ++ .text (s ++ t) :: after))
      (.element name attributes (before ++ .text s :: x :: .text t :: after))
  | inside {name : Name} {attributes : List Attribute} {before after : List Node} {n n' : Node}
    (h : Edit n n') :
    Edit (.element name attributes (before ++ n :: after))
      (.element name attributes (before ++ n' :: after))

/-! ## What matters -/

/-- The labels that are looked for among the children of an element. -/
def lookedFor (label : String) : List String := (containers.lookup label).getD []

mutual

/-- The tree without what does not matter. -/
def essence : Node → Node
  | .element name attributes children =>
    if name.label ∈ textLabels then
      .element name attributes [.text (String.ofList (children.flatMap ownText))]
    else .element name attributes (essences (lookedFor name.label) children)
  | n => n

/-- The children with one of the labels, without what does not matter in them. -/
def essences (labels : List String) : List Node → List Node
  | [] => []
  | n :: rest =>
    if labels.any fun label => n.hasLabel label then essence n :: essences labels rest
    else essences labels rest

end

variable {n n' root : Node} {label : String} {labels : List String}

/-- Of an element with a text, nothing but its own text is left, in one piece. -/
theorem essence_of_text {name : Name} (attributes : List Attribute) (children : List Node)
    (h : name.label ∈ textLabels) : essence (.element name attributes children) =
      .element name attributes [.text (String.ofList (children.flatMap ownText))] := by
  rw [essence, if_pos h]

/-- No container has a text that is read. -/
theorem essence_of_container {name : Name} (attributes : List Attribute) (children : List Node)
    (h : (name.label, labels) ∈ containers) : essence (.element name attributes children) =
      .element name attributes (essences labels children) := by
  have hall : ∀ p ∈ containers, p.1 ∉ textLabels ∧ lookedFor p.1 = p.2 := by decide
  obtain ⟨htext, hlabels⟩ := hall _ h
  rw [essence, if_neg htext, hlabels]

/-- What is left of one node does not depend on the nodes beside it. -/
theorem essences_append (labels : List String) (ns ms : List Node) :
    essences labels (ns ++ ms) = essences labels ns ++ essences labels ms := by
  induction ns with
  | nil => rfl
  | cons n rest ih =>
    rw [List.cons_append, essences, essences, ih]
    split <;> rfl

/-- The nodes that are looked for stay in their order. -/
theorem essences_eq_map (labels : List String) (ns : List Node) : essences labels ns =
    (ns.filter fun n => labels.any fun label => n.hasLabel label).map essence := by
  induction ns with
  | nil => rfl
  | cons n rest ih =>
    rw [essences, List.filter_cons, ih]
    split <;> rfl

/-- A node is found under the same label as before. -/
theorem hasLabel_essence (n : Node) (label : String) :
    (essence n).hasLabel label = n.hasLabel label := by
  cases n with
  | element name attributes children =>
    rw [essence]
    split <;> rfl
  | _ => rfl

theorem attributes_essence (n : Node) : (essence n).attributes = n.attributes := by
  cases n with
  | element name attributes children =>
    rw [essence]
    split <;> rfl
  | _ => rfl

/-! ## Edits leave the essence -/

theorem ownText_of_ne {x : Node} (h : ∀ s, x ≠ .text s) : x.ownText = [] := by
  cases x with
  | text s => exact absurd rfl (h s)
  | _ => rfl

/-- No edit changes what a node adds to the text of the element around it. -/
theorem ownText_of_edit (h : Edit n n') : n.ownText = n'.ownText := by
  cases h <;> rfl

/-- By induction on the depth at which something is inserted. -/
theorem essence_of_edit (h : Edit n n') : essence n = essence n' := by
  -- by induction on how deep the edit is made
  induction h with
  | @intrude name attributes labels before after x h hx =>
    have hskip : ¬(labels.any fun label => x.hasLabel label) = true := by simpa using hx
    rw [essence_of_container _ _ h, essence_of_container _ _ h, essences_append, essences_append,
      essences, if_neg hskip]
  | accompany h hx =>
    rw [essence_of_text _ _ h, essence_of_text _ _ h, List.flatMap_append, List.flatMap_append,
      List.flatMap_cons, ownText_of_ne hx, List.nil_append]
  | interrupt s t h hx =>
    have htext : (Node.text (s ++ t)).ownText = (Node.text s).ownText ++ (Node.text t).ownText :=
      String.toList_append
    rw [essence_of_text _ _ h, essence_of_text _ _ h, List.flatMap_append, List.flatMap_append,
      List.flatMap_cons, List.flatMap_cons, List.flatMap_cons, List.flatMap_cons, htext,
      ownText_of_ne hx, List.nil_append, List.append_assoc]
  | @inside name attributes before after n n' h ih =>
    -- an edit inside a text changes none of its own pieces, and a child is kept or dropped by its label
    have hlabel : ∀ label, n.hasLabel label = n'.hasLabel label := fun label => by
      rw [← hasLabel_essence n, ih, hasLabel_essence]
    rw [essence, essence]
    split
    · rw [List.flatMap_append, List.flatMap_append, List.flatMap_cons, List.flatMap_cons,
        ownText_of_edit h]
    · simp only [essences_append, essences, hlabel, ih]

theorem essence_of_eqvGen (h : Relation.EqvGen Edit n n') : essence n = essence n' := by
  induction h with
  | rel n n' h => exact essence_of_edit h
  | refl n => rfl
  | symm n n' _ ih => exact ih.symm
  | trans n m n' _ _ ih ih' => exact ih.trans ih'

/-! ## The essence has the same cards -/

theorem directText_essence (hn : n.hasLabel label = true) (h : label ∈ textLabels) :
    (essence n).directText = n.directText := by
  cases n with
  | element name attributes inside =>
    obtain rfl : name.label = label := of_decide_eq_true hn
    rw [essence_of_text _ _ h]
    simp [directText, children, ownText]
  | _ => cases hn

/-- What is looked for in an element is what its container lists. -/
theorem mem_containers {container : String} (h : label ∈ lookedFor container) :
    (container, lookedFor container) ∈ containers := by
  unfold lookedFor at h ⊢
  cases hlabels : containers.lookup container with
  | none =>
    rw [hlabels] at h
    cases h
  | some labels =>
    obtain ⟨before, after, hcontainers, -⟩ := List.lookup_eq_some_iff.mp hlabels
    rw [hcontainers]
    exact List.mem_append_cons_self

/-- In a container, the children that are looked for are found as before, each without what does not
matter in it. -/
theorem childrenWith_essence {container : String} (hn : n.hasLabel container = true)
    (h : label ∈ lookedFor container) :
    (essence n).childrenWith label = (n.childrenWith label).map essence := by
  cases n with
  | element name attributes inside =>
    obtain rfl : name.label = container := of_decide_eq_true hn
    rw [essence_of_container _ _ (mem_containers h), essences_eq_map, childrenWith, childrenWith,
      children, children, List.filter_map, List.filter_filter]
    refine congrArg (List.map essence) (List.filter_congr fun m _ => ?_)
    rw [Function.comp_apply, hasLabel_essence]
    cases hm : m.hasLabel label with
    | false => rfl
    | true =>
      rw [Bool.true_and, List.any_eq_true]
      exact ⟨label, h, hm⟩
  | _ => cases hn

theorem child?_essence {container : String} (hn : n.hasLabel container = true)
    (h : label ∈ lookedFor container) :
    (essence n).child? label = (n.child? label).map essence := by
  have hchildren := congrArg List.head? (childrenWith_essence hn h)
  rwa [childrenWith, childrenWith, List.head?_filter, List.head?_map, List.head?_filter] at hchildren

/-- Texts are read from the essence as from the node. -/
theorem textOf_essence (hn : n.hasLabel label = true) (h : label ∈ textLabels) :
    Award.textOf (essence n) = Award.textOf n := by
  rw [Award.textOf, Award.textOf, directText_essence hn h]

theorem attribute?_essence (n : Node) (label : String) :
    (essence n).attribute? label = n.attribute? label := by
  rw [attribute?, attribute?, attributes_essence]

/-! ### Awards -/

theorem ofBadge_essence (hn : n.hasLabel "BADGE" = true) :
    Award.ofBadge (essence n) = Award.ofBadge n := by
  unfold Award.ofBadge
  rw [textOf_essence hn (by decide), attributes_essence, attribute?_essence]

theorem ofTrophy_essence (hn : n.hasLabel "TROPHY" = true) :
    Award.ofTrophy (essence n) = Award.ofTrophy n := by
  rw [Award.ofTrophy, Award.ofTrophy, textOf_essence hn (by decide), attribute?_essence]

/-- What is read from each child alone is read from the essences of the children. -/
theorem filterMap_essence {β : Type} {f : Node → Option β}
    (h : ∀ m, m.hasLabel label = true → f (essence m) = f m) (n : Node) :
    ((n.childrenWith label).map essence).filterMap f = (n.childrenWith label).filterMap f := by
  rw [List.filterMap_map]
  exact List.filterMap_congr fun m hm => h m (List.mem_filter.mp hm).2

/-- Both maps are made of the badges and trophies alone, and of how many trophies there are. -/
theorem awards_essence {badges trophies : Node} (hbadges : badges.hasLabel "BADGES" = true)
    (htrophies : trophies.hasLabel "TROPHIES" = true) :
    awards (essence badges) (essence trophies) = awards badges trophies := by
  have hbadge : (essence badges).childrenWith "BADGE" = _ :=
    childrenWith_essence hbadges (by decide)
  have htrophy : (essence trophies).childrenWith "TROPHY" = _ :=
    childrenWith_essence htrophies (by decide)
  have hmany := filterMap_essence (fun m hm => ofTrophy_essence hm) trophies
  unfold awards
  rw [hbadge, htrophy, filterMap_essence fun m hm => ofBadge_essence hm]
  -- the switch is on the number of trophies, which is the same on both sides
  cases hlist : trophies.childrenWith "TROPHY" with
  | nil => rfl
  | cons first rest =>
    rw [hlist] at hmany
    cases rest with
    | nil =>
      have hfirst : first ∈ trophies.childrenWith "TROPHY" := hlist ▸ List.mem_cons_self
      have hone := ofTrophy_essence (List.mem_filter.mp hfirst).2
      simp only [List.map_cons, List.map_nil, hone]
    | cons second rest =>
      simp only [List.map_cons] at hmany ⊢
      rw [hmany]

/-! ### Cards -/

theorem text?_essence (hn : n.hasLabel "CARD" = true) (h : label ∈ fieldLabels) :
    DumpCard.text? (essence n) label = DumpCard.text? n label := by
  have htext : label ∈ textLabels := List.mem_append_left _ h
  have hchild := child?_essence hn (List.mem_append_left ["BADGES", "TROPHIES"] h)
  rw [DumpCard.text?, DumpCard.text?, hchild]
  cases hfirst : n.child? label with
  | none => rfl
  | some child =>
    have hlabel := List.find?_some hfirst
    rw [Option.map_some, Option.map_some, Option.map_some, textOf_essence hlabel htext]

/-- A card is read from the essence with the same texts and awards, or refused with the same
fault. -/
theorem ofNode_essence (hn : n.hasLabel "CARD" = true) (position : Nat) :
    DumpCard.ofNode position (essence n) = DumpCard.ofNode position n := by
  have htext : ∀ label ∈ fieldLabels, DumpCard.text? (essence n) label = DumpCard.text? n label :=
    fun label h => text?_essence hn h
  have hbadges : (essence n).child? "BADGES" = _ := child?_essence hn (by decide)
  have htrophies : (essence n).child? "TROPHIES" = _ := child?_essence hn (by decide)
  simp only [fieldLabels, List.forall_mem_cons] at htext
  obtain ⟨hid, hname, htype, hmotto, hcategory, hregion, hflag, hcardCategory, hdescription, -⟩ :=
    htext
  unfold DumpCard.ofNode
  rw [hid, hname, htype, hmotto, hcategory, hregion, hflag, hcardCategory, hdescription, hbadges,
    htrophies]
  cases hb : n.child? "BADGES" with
  | none => rfl
  | some badges =>
    cases ht : n.child? "TROPHIES" with
    | none => rfl
    | some trophies =>
      simp only [Option.map_some]
      rw [awards_essence (List.find?_some hb) (List.find?_some ht)]

/-- Positions are counted over the cards, so nothing that was left out moves them. -/
theorem cardsFrom_essence {nodes : List Node} (h : ∀ n ∈ nodes, n.hasLabel "CARD" = true)
    (position : Nat) : cardsFrom position (nodes.map essence) = cardsFrom position nodes := by
  induction nodes generalizing position with
  | nil => rfl
  | cons n rest ih =>
    obtain ⟨hn, hrest⟩ := List.forall_mem_cons.mp h
    rw [List.map_cons, cardsFrom, cardsFrom, ofNode_essence hn, ih hrest]

theorem cardNodes_essence (root : Node) : cardNodes (essence root) = (cardNodes root).map essence := by
  unfold cardNodes
  rw [hasLabel_essence]
  split
  · next hroot =>
    rw [childrenWith_essence hroot (by decide), List.flatMap_map, List.map_flatMap]
    refine List.flatMap_congr fun set hset => ?_
    exact childrenWith_essence (List.mem_filter.mp hset).2 (by decide)
  · rfl

/-- The cards of a dump are those of its essence. -/
theorem cards_essence (root : Node) : cards (essence root) = cards root := by
  have hlabel : ∀ n ∈ cardNodes root, n.hasLabel "CARD" = true := by
    intro n hn
    unfold cardNodes at hn
    split at hn
    · obtain ⟨set, -, hset⟩ := List.mem_flatMap.mp hn
      exact (List.mem_filter.mp hset).2
    · cases hn
  rw [cards, cards, cardNodes_essence, cardsFrom_essence hlabel]

/-- Trees that differ by any number of such edits have the same cards, or the same fault. -/
theorem cards_eq_of_edits {root root' : Node} (h : Relation.EqvGen Edit root root') :
    cards root = cards root' := by
  rw [← cards_essence root, essence_of_eqvGen h, cards_essence]

/-- A dump with one set, whose only card has this between the tags of its identifier. -/
def dumpWith (identifier besides : List Node) : Node :=
  .element { label := "CARDS" } []
    [.element { label := "SET" } []
      (.element { label := "CARD" } []
        [ .element { label := "ID" } [] identifier, .element { label := "BADGES" } [] []
        , .element { label := "TROPHIES" } [] [] ] :: besides)]

/-- A comment is taken out of the identifier, and an unknown element is put behind the card. -/
theorem cards_eq_of_edits_interrupted :
    Relation.EqvGen Edit (dumpWith [.text "1", .comment "no", .text "2"] [])
        (dumpWith [.text "12"] [.element { label := "NOTE" } [] []]) ∧
      cards (dumpWith [.text "1", .comment "no", .text "2"] []) =
        cards (dumpWith [.text "12"] [.element { label := "NOTE" } [] []]) := by
  have hinterrupt : Edit (dumpWith [.text "12"] [])
      (dumpWith [.text "1", .comment "no", .text "2"] []) := by
    refine @Edit.inside _ _ [] [] _ _ (@Edit.inside _ _ [] [] _ _ (@Edit.inside _ _ [] _ _ _ ?_))
    exact @Edit.interrupt _ _ [] [] _ "1" "2" (by decide) (by simp)
  have hintrude : Edit (dumpWith [.text "12"] [])
      (dumpWith [.text "12"] [.element { label := "NOTE" } [] []]) := by
    refine @Edit.inside _ _ [] [] _ _ ?_
    exact @Edit.intrude _ _ ["CARD"] [_] [] _ (by decide) (by decide)
  have hedits := Relation.EqvGen.trans _ _ _ (.symm _ _ (.rel _ _ hinterrupt)) (.rel _ _ hintrude)
  exact ⟨hedits, cards_eq_of_edits hedits⟩

end CardArchive.Dump
