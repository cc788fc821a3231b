import CardArchive.Json.Document
import CardArchive.Proofs.JsonLexing
import CardArchive.Proofs.JsonMembers

/-!
# The grammar of JSON values

The rules by which tokens spell a value, next to the machine that reads them. The machine reads
exactly what the rules allow: tokens that spell a value take it there, and whatever it has taken so
far is explained by the containers that are still open and the complete values inside them.
-/

namespace CardArchive.Json

/-- A key, the value under it and the tokens of that value. -/
abbrev Member := String × Json × List Token

namespace Member

/-- The tokens of a member. -/
def tokens (m : Member) : List Token := .text m.1.toList :: .colon :: m.2.2

/-- The key and the value. -/
def pair (m : Member) : String × Json := (m.1, m.2.1)

end Member

/-- The tokens spell the value with at most so many levels of containers. Items and members have a
comma between them, and under a key that comes again lies the last of its values. -/
inductive Spells : Nat → Json → List Token → Prop where
  /-- One of the three names, or a number. -/
  | word {depth : Nat} {w : List Char} {v : Json} (h : wordValue? w = some v) :
    Spells depth v [.word w]
  | text {depth : Nat} (s : String) : Spells depth (.string s) [.text s.toList]
  | array {depth : Nat} {items : List (Json × List Token)}
    (all : ∀ p ∈ items, Spells depth p.1 p.2) :
    Spells (depth + 1) (.array (items.map Prod.fst))
      (.openArray :: [Token.comma].intercalate (items.map Prod.snd) ++ [.closeArray])
  | object {depth : Nat} {members : List Member} (all : ∀ m ∈ members, Spells depth m.2.1 m.2.2) :
    Spells (depth + 1) (.object (Members.ofList (members.map Member.pair)))
      (.openObject :: [Token.comma].intercalate (members.map Member.tokens) ++ [.closeObject])

/-- More levels do no harm. -/
theorem Spells.mono {depth depth' : Nat} {v : Json} {ts : List Token} (h : Spells depth v ts)
    (hle : depth ≤ depth') : Spells depth' v ts := by
  induction h generalizing depth' with
  | word h => exact .word h
  | text s => exact .text s
  | array _ ih =>
    obtain ⟨more, rfl⟩ := Nat.exists_eq_add_of_lt hle
    exact .array fun p hp => ih p hp (Nat.le_add_right _ _)
  | object _ ih =>
    obtain ⟨more, rfl⟩ := Nat.exists_eq_add_of_lt hle
    exact .object fun m hm => ih m hm (Nat.le_add_right _ _)

/-- Runs with a comma between them are runs with a comma behind each but the last. -/
theorem intercalate_comma_append (runs : List (List Token)) (run : List Token) :
    [Token.comma].intercalate (runs ++ [run]) = runs.flatMap (· ++ [.comma]) ++ run := by
  induction runs with
  | nil => exact List.intercalate_singleton
  | cons first rest ih =>
    have hcons : [Token.comma].intercalate (first :: (rest ++ [run])) =
        first ++ [.comma] ++ [Token.comma].intercalate (rest ++ [run]) := by
      cases rest <;> exact List.intercalate_cons_cons
    rw [List.cons_append, hcons, ih, List.flatMap_cons, List.append_assoc _ _ run]

namespace Reading

variable {depth : Nat} {v : Json} {ts : List Token} {stack : List Frame}

/-! ## What is spelled is read -/

/-- The tokens take the machine to the value, with these containers open. -/
def Reads (v : Json) (ts : List Token) (stack : List Frame) : Prop :=
  ts.foldlM feed (value stack) = some (complete v stack)

/-- The first item of a sequence is read as any other. -/
theorem foldlM_firstItem (h : Spells depth v ts) (more : List Token) (stack : List Frame) :
    (ts ++ more).foldlM feed (firstItem stack) =
      (ts ++ more).foldlM feed (value (.array [] :: stack)) := by
  cases h <;> rfl

/-- Items are read one after the other. -/
theorem foldlM_items {p : Json × List Token} {rest : List (Json × List Token)} {done : List Json}
    (h : ∀ q ∈ p :: rest, ∀ done, Reads q.1 q.2 (.array done :: stack)) :
    ([Token.comma].intercalate ((p :: rest).map Prod.snd) ++ [Token.closeArray]).foldlM feed
        (value (.array done :: stack)) =
      some (complete (.array (done.reverse ++ (p :: rest).map Prod.fst)) stack) := by
  induction rest generalizing p done with
  | nil =>
    have hp : p.2.foldlM feed (value (.array done :: stack)) = _ := h p List.mem_cons_self done
    rw [List.map_singleton, List.intercalate_singleton, List.foldlM_append, hp]
    show some (complete (.array (p.1 :: done).reverse) stack) = _
    rw [List.reverse_cons]
    rfl
  | cons next rest ih =>
    have hp : p.2.foldlM feed (value (.array done :: stack)) = _ := h p List.mem_cons_self done
    rw [List.map_cons, List.map_cons, List.intercalate_cons_cons, List.append_assoc,
      List.append_assoc, List.foldlM_append, hp]
    show ([Token.comma].intercalate ((next :: rest).map Prod.snd) ++ [Token.closeArray]).foldlM
      feed (value (.array (p.1 :: done) :: stack)) = _
    rw [ih fun q hq => h q (List.mem_cons_of_mem _ hq), List.reverse_cons, List.append_assoc]
    rfl

theorem foldlM_array {items : List (Json × List Token)} (hdepth : stack.length < maxDepth)
    (hspells : ∀ p ∈ items, Spells depth p.1 p.2)
    (h : ∀ p ∈ items, ∀ done, Reads p.1 p.2 (.array done :: stack)) :
    Reads (.array (items.map Prod.fst))
      (.openArray :: [Token.comma].intercalate (items.map Prod.snd) ++ [.closeArray]) stack := by
  have hopen : feed (value stack) .openArray = some (firstItem stack) := if_pos hdepth
  rw [Reads, List.cons_append, List.foldlM_cons, hopen]
  show ([Token.comma].intercalate (items.map Prod.snd) ++ [Token.closeArray]).foldlM feed
    (firstItem stack) = _
  cases items with
  | nil => rfl
  | cons p rest =>
    refine Eq.trans ?_ (@foldlM_items stack p rest [] h)
    have hp : Spells depth p.1 p.2 := hspells p List.mem_cons_self
    cases rest with
    | nil =>
      rw [List.map_singleton, List.intercalate_singleton]
      exact foldlM_firstItem hp _ stack
    | cons next rest =>
      rw [List.map_cons, List.map_cons, List.intercalate_cons_cons, List.append_assoc,
        List.append_assoc]
      exact foldlM_firstItem hp _ stack

/-- A member is read up to its value. -/
theorem foldlM_member {m : Member} {members : Members}
    (h : Reads m.2.1 m.2.2 (.object members m.1 :: stack)) :
    m.tokens.foldlM feed (key members stack) =
      some (complete m.2.1 (.object members m.1 :: stack)) := by
  show m.2.2.foldlM feed (value (.object members (String.ofList m.1.toList) :: stack)) = _
  rw [String.ofList_toList]
  exact h

/-- Members are read one after the other and put into the object. -/
theorem foldlM_members {m : Member} {rest : List Member} {members : Members}
    (h : ∀ q ∈ m :: rest, ∀ members, Reads q.2.1 q.2.2 (.object members q.1 :: stack)) :
    ([Token.comma].intercalate ((m :: rest).map Member.tokens) ++ [Token.closeObject]).foldlM feed
        (key members stack) =
      some (complete (.object (members.insertAll ((m :: rest).map Member.pair))) stack) := by
  have hm := foldlM_member (h m List.mem_cons_self members)
  induction rest generalizing m members with
  | nil =>
    rw [List.map_singleton, List.intercalate_singleton, List.foldlM_append, hm]
    rfl
  | cons next rest ih =>
    have hrest : ∀ q ∈ next :: rest, _ := fun q hq => h q (List.mem_cons_of_mem _ hq)
    rw [List.map_cons, List.map_cons, List.intercalate_cons_cons, List.append_assoc,
      List.append_assoc, List.foldlM_append, hm]
    show ([Token.comma].intercalate ((next :: rest).map Member.tokens) ++
      [Token.closeObject]).foldlM feed (key (members.insert m.1 m.2.1) stack) = _
    exact ih hrest (foldlM_member (hrest next List.mem_cons_self _))

theorem foldlM_object {members : List Member} (hdepth : stack.length < maxDepth)
    (h : ∀ m ∈ members, ∀ seen, Reads m.2.1 m.2.2 (.object seen m.1 :: stack)) :
    Reads (.object (Members.ofList (members.map Member.pair)))
      (.openObject :: [Token.comma].intercalate (members.map Member.tokens) ++ [.closeObject])
      stack := by
  have hopen : feed (value stack) .openObject = some (firstKey stack) := if_pos hdepth
  rw [Reads, List.cons_append, List.foldlM_cons, hopen]
  show ([Token.comma].intercalate (members.map Member.tokens) ++ [Token.closeObject]).foldlM feed
    (firstKey stack) = _
  cases members with
  | nil => rfl
  | cons m rest =>
    rw [Members.ofList_eq_insertAll, ← foldlM_members h]
    cases rest <;> rfl

/-- What the rules allow is read, as long as the containers are not too many. -/
theorem reads_of_spells (h : Spells depth v ts) (hdepth : stack.length + depth ≤ maxDepth) :
    Reads v ts stack := by
  induction h generalizing stack with
  | word h =>
    have hbegin : feed (value stack) (.word _) = _ := congrArg (Option.map (complete · stack)) h
    rw [Reads, List.foldlM_cons, hbegin]
    rfl
  | text s =>
    show some (complete (.string (String.ofList s.toList)) stack) = _
    rw [String.ofList_toList]
  | array all ih =>
    exact foldlM_array (by omega) all fun p hp done => ih p hp (by rw [List.length_cons]; omega)
  | object all ih =>
    exact foldlM_object (by omega) fun m hm seen => ih m hm (by rw [List.length_cons]; omega)

/-! ## What is read is spelled -/

/-- The tokens explain the state of the machine. Where a container is under way, the tokens before
it explain that its value was to come. -/
inductive Consumed : Reading → List Token → Prop where
  | start : Consumed (value []) []
  | firstItem {stack : List Frame} {before : List Token} (outer : Consumed (value stack) before)
    (hdepth : stack.length < maxDepth) : Consumed (firstItem stack) (before ++ [.openArray])
  /-- A comma stands behind the last item. -/
  | item {stack : List Frame} {before : List Token} {items : List (Json × List Token)}
    (outer : Consumed (value stack) before) (hdepth : stack.length < maxDepth)
    (all : ∀ p ∈ items, Spells (maxDepth - stack.length - 1) p.1 p.2) :
    Consumed (value (.array (items.map Prod.fst).reverse :: stack))
      (before ++ .openArray :: (items.map Prod.snd).flatMap (· ++ [.comma]))
  | firstKey {stack : List Frame} {before : List Token} (outer : Consumed (value stack) before)
    (hdepth : stack.length < maxDepth) : Consumed (firstKey stack) (before ++ [.openObject])
  /-- A comma stands behind the last member. -/
  | key {stack : List Frame} {before : List Token} {members : List Member}
    (outer : Consumed (value stack) before) (hdepth : stack.length < maxDepth)
    (all : ∀ m ∈ members, Spells (maxDepth - stack.length - 1) m.2.1 m.2.2) :
    Consumed (key (Members.ofList (members.map Member.pair)) stack)
      (before ++ .openObject :: (members.map Member.tokens).flatMap (· ++ [.comma]))
  | colon {stack : List Frame} {members : Members} {before : List Token} (k : String)
    (h : Consumed (key members stack) before) :
    Consumed (colon members k stack) (before ++ [.text k.toList])
  /-- A key and a colon have been read. -/
  | member {stack : List Frame} {members : Members} {k : String} {before : List Token}
    (h : Consumed (colon members k stack) before) :
    Consumed (value (.object members k :: stack)) (before ++ [.colon])
  | complete {stack : List Frame} {before run : List Token} {v : Json}
    (outer : Consumed (value stack) before) (spells : Spells (maxDepth - stack.length) v run) :
    Consumed (complete v stack) (before ++ run)

/-- An empty sequence or object is a container without items or members. -/
theorem consumed_item_nil (outer : Consumed (value stack) ts) (hdepth : stack.length < maxDepth) :
    Consumed (value (.array [] :: stack)) (ts ++ [.openArray]) :=
  @Consumed.item _ _ [] outer hdepth (List.forall_mem_nil _)

theorem consumed_key_nil (outer : Consumed (value stack) ts) (hdepth : stack.length < maxDepth) :
    Consumed (key [] stack) (ts ++ [.openObject]) :=
  @Consumed.key _ _ [] outer hdepth (List.forall_mem_nil _)

theorem consumed_begin {t : Token} {r : Reading} (outer : Consumed (value stack) ts)
    (h : begin stack t = some r) : Consumed r (ts ++ [t]) := by
  cases t with
  | word w =>
    obtain ⟨v, hv, rfl⟩ := Option.map_eq_some_iff.mp h
    exact .complete outer (.word hv)
  | text s =>
    cases h
    have hspells := @Spells.text (maxDepth - stack.length) (String.ofList s)
    rw [String.toList_ofList] at hspells
    exact .complete outer hspells
  | openArray =>
    obtain ⟨hdepth, h⟩ := Option.ite_none_right_eq_some.mp h
    cases h
    exact .firstItem outer hdepth
  | openObject =>
    obtain ⟨hdepth, h⟩ := Option.ite_none_right_eq_some.mp h
    cases h
    exact .firstKey outer hdepth
  | _ => cases h

theorem consumed_text {members : Members} {s : List Char} (h : Consumed (key members stack) ts) :
    Consumed (colon members (String.ofList s) stack) (ts ++ [.text s]) := by
  have hcolon := Consumed.colon (String.ofList s) h
  rw [String.toList_ofList] at hcolon
  exact hcolon

theorem spells_snoc_item {items : List (Json × List Token)} {run : List Token}
    (all : ∀ p ∈ items, Spells depth p.1 p.2) (spells : Spells depth v run) :
    (∀ p ∈ items ++ [(v, run)], Spells depth p.1 p.2) ∧
      (v :: (items.map Prod.fst).reverse).reverse = (items ++ [(v, run)]).map Prod.fst := by
  refine ⟨List.forall_mem_append.mpr ⟨all, List.forall_mem_singleton.mpr spells⟩, ?_⟩
  rw [List.reverse_cons, List.reverse_reverse, List.map_append]
  rfl

theorem consumed_complete_array {items : List Json} {run : List Token}
    (outer : Consumed (value (.array items :: stack)) ts)
    (spells : Spells (maxDepth - stack.length - 1) v run) :
    Consumed (value (.array (v :: items) :: stack)) (ts ++ run ++ [.comma]) ∧
      Consumed (complete (.array (v :: items).reverse) stack) (ts ++ run ++ [.closeArray]) := by
  cases outer with
  | @item _ before items outer hdepth all =>
    obtain ⟨hall, hitems⟩ := spells_snoc_item all spells
    constructor
    · have hitem := Consumed.item outer hdepth hall
      rw [← hitems, List.reverse_reverse] at hitem
      simpa [List.flatMap_append] using hitem
    · have harray := Spells.array hall
      rw [Nat.sub_add_cancel (by omega), ← hitems, List.map_append] at harray
      have hcomplete := Consumed.complete outer harray
      rw [List.map_singleton, intercalate_comma_append] at hcomplete
      simpa using hcomplete

theorem consumed_complete_object {members : Members} {k : String} {run : List Token}
    (outer : Consumed (value (.object members k :: stack)) ts)
    (spells : Spells (maxDepth - stack.length - 1) v run) :
    Consumed (key (members.insert k v) stack) (ts ++ run ++ [.comma]) ∧
      Consumed (complete (.object (members.insert k v)) stack) (ts ++ run ++ [.closeObject]) := by
  cases outer with
  | member h => cases h with
    | colon _ h => cases h with
      | @key _ before members outer hdepth all =>
        have hall : ∀ m ∈ members ++ [(k, v, run)],
            Spells (maxDepth - stack.length - 1) m.2.1 m.2.2 :=
          List.forall_mem_append.mpr ⟨all, List.forall_mem_singleton.mpr spells⟩
        have hmembers : (Members.ofList (members.map Member.pair)).insert k v =
            Members.ofList ((members ++ [(k, v, run)]).map Member.pair) := by
          rw [List.map_append]
          exact (Members.ofList_append_singleton _ (k, v)).symm
        rw [hmembers]
        constructor
        · have hkey := Consumed.key outer hdepth hall
          simpa [List.flatMap_append, Member.tokens] using hkey
        · have hobject := Spells.object hall
          rw [Nat.sub_add_cancel (by omega)] at hobject
          have hcomplete := Consumed.complete outer hobject
          rw [@List.map_append _ _ Member.tokens, List.map_singleton,
            intercalate_comma_append] at hcomplete
          simpa [Member.tokens] using hcomplete

theorem consumed_feed {r r' : Reading} {t : Token} (hr : Consumed r ts)
    (h : feed r t = some r') : Consumed r' (ts ++ [t]) := by
  -- a case for each state of the reading and each token: what was consumed of a container is the
  -- spelling of its items so far, and of the whole once it is closed
  fun_cases feed r t with
  | case1 stack t => exact consumed_begin hr h
  | case2 stack =>
    cases h
    cases hr with
    | @firstItem _ before outer hdepth =>
      have harray := @Spells.array (maxDepth - stack.length - 1) [] (List.forall_mem_nil _)
      rw [Nat.sub_add_cancel (by omega)] at harray
      rw [List.append_assoc]
      exact .complete outer harray
  | case3 stack t hclose =>
    rw [feed] at h
    · cases hr with
      | firstItem outer hdepth => exact consumed_begin (consumed_item_nil outer hdepth) h
    · exact hclose
  | case4 stack =>
    cases h
    cases hr with
    | @firstKey _ before outer hdepth =>
      have hobject := @Spells.object (maxDepth - stack.length - 1) [] (List.forall_mem_nil _)
      rw [Nat.sub_add_cancel (by omega)] at hobject
      rw [List.append_assoc]
      exact .complete outer hobject
  | case5 stack k =>
    cases h
    cases hr with
    | firstKey outer hdepth => exact consumed_text (consumed_key_nil outer hdepth)
  | case6 members stack k =>
    cases h
    exact consumed_text hr
  | case7 members k stack =>
    cases h
    exact .member hr
  | case8 v items stack =>
    cases h
    cases hr with
    | complete outer spells => exact (consumed_complete_array outer spells).1
  | case9 v items stack =>
    cases h
    cases hr with
    | complete outer spells => exact (consumed_complete_array outer spells).2
  | case10 v members k stack =>
    cases h
    cases hr with
    | complete outer spells => exact (consumed_complete_object outer spells).1
  | case11 v members k stack =>
    cases h
    cases hr with
    | complete outer spells => exact (consumed_complete_object outer spells).2
  | case12 =>
    rw [feed] at h
    · cases h
    all_goals assumption

theorem consumed_foldlM {r r' : Reading} {before : List Token} (hr : Consumed r before)
    (h : ts.foldlM feed r = some r') : Consumed r' (before ++ ts) := by
  induction ts generalizing r before with
  | nil =>
    cases h
    rw [List.append_nil]
    exact hr
  | cons t rest ih =>
    rw [List.foldlM_cons] at h
    obtain ⟨next, hnext, h⟩ := Option.bind_eq_some_iff.mp h
    rw [List.append_cons]
    exact ih (consumed_feed hr hnext) h

end Reading

/-- Tokens are read as the value that they spell, and nothing else is read. -/
theorem ofTokens?_eq_some_iff {v : Json} {ts : List Token} :
    ofTokens? ts = some v ↔ Spells maxDepth v ts := by
  constructor
  · intro h
    obtain ⟨r, hread, hfinish⟩ := Option.bind_eq_some_iff.mp h
    have hr := Reading.consumed_foldlM .start hread
    rw [List.nil_append] at hr
    cases hr with
    | @complete stack before run w outer spells =>
      cases stack with
      | cons frame stack => cases hfinish
      | nil =>
        cases hfinish
        cases outer
        exact spells
    | _ => cases hfinish
  · intro h
    have hread : ts.foldlM Reading.feed (.value []) = _ :=
      Reading.reads_of_spells h (Nat.le_of_eq (Nat.zero_add _))
    rw [ofTokens?, hread]
    rfl

/-! ## Lines -/

variable {line : String}

/-- The line is a JSON text, and this is its value. -/
def ValueLine (line : String) (v : Json) : Prop :=
  ∃ ts, Writes line.toList ts ∧ Spells maxDepth v ts

/-- The line is the JSON text of an object with these keys and values, in the order in which they
stand there and with every repetition. -/
def ObjectLine (line : String) (pairs : List (String × Json)) : Prop :=
  ∃ members : List Member, pairs = members.map Member.pair ∧
    (∀ m ∈ members, Spells (maxDepth - 1) m.2.1 m.2.2) ∧
    Writes line.toList
      (.openObject :: [Token.comma].intercalate (members.map Member.tokens) ++ [.closeObject])

/-- A line is read as the value that it is the text of, and nothing else is read. -/
theorem parse?_eq_some_iff {v : Json} : parse? line = some v ↔ ValueLine line v := by
  rw [parse?, Option.bind_eq_some_iff]
  exact exists_congr fun ts => and_congr tokens?_eq_some_iff ofTokens?_eq_some_iff

theorem ObjectLine.parse?_eq {pairs : List (String × Json)} (h : ObjectLine line pairs) :
    parse? line = some (.object (Members.ofList pairs)) := by
  obtain ⟨members, rfl, hall, hw⟩ := h
  exact parse?_eq_some_iff.mpr ⟨_, hw, .object hall⟩

/-- A numeral is an integer or a floating point number. -/
theorem Numeral.value_cases {x : Numeral} {v : Json} (h : x.value = some v) :
    (∃ n, v = .integer n) ∨ ∃ f, v = .float f := by
  unfold value at h
  simp only at h
  split at h
  · split at h
    · exact Or.inl ⟨_, (Option.some.inj h).symm⟩
    · obtain ⟨f, -, hf⟩ := Option.map_eq_some_iff.mp h
      exact Or.inr ⟨_, hf.symm⟩
  · obtain ⟨f, -, hf⟩ := Option.map_eq_some_iff.mp h
    exact Or.inr ⟨_, hf.symm⟩

/-- No word is an object. -/
theorem wordValue?_ne_object (w : List Char) (members : Members) :
    wordValue? w ≠ some (.object members) := by
  intro h
  unfold wordValue? at h
  split at h
  · cases h
  split at h
  · cases h
  split at h
  · cases h
  obtain ⟨x, -, hx⟩ := Option.bind_eq_some_iff.mp h
  rcases Numeral.value_cases hx with ⟨n, hn⟩ | ⟨f, hf⟩
  · cases hn
  · cases hf

/-- Where an object is read, its members stand in the line. -/
theorem objectLine_of_parse? {members : Members} (h : parse? line = some (.object members)) :
    ∃ pairs, ObjectLine line pairs ∧ members = Members.ofList pairs := by
  obtain ⟨ts, hw, hspells⟩ := parse?_eq_some_iff.mp h
  cases hspells with
  | word hword => exact absurd hword (wordValue?_ne_object _ _)
  | @object _ members hall => exact ⟨_, ⟨members, rfl, hall, hw⟩, rfl⟩

end CardArchive.Json
