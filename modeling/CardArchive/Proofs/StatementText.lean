import CardArchive.Card.Row
import CardArchive.Database.Statement
import CardArchive.Proofs.Tables
import Mathlib.Data.List.Basic

/-!
# What statements say

A database reads a statement as words, quoted names and marks. A double quote begins a quoted name,
two double quotes inside it stand for one, and a single one ends it. What a statement that adds a
row does with the values it is given is said of the pieces that are read: its columns and the places
for values are two lists in parentheses, and each value goes to the column at the same position.
-/

namespace CardArchive.Statement

/-! ## The pieces of a statement -/

/-- A piece of a statement. -/
inductive Token where
  /-- A keyword, or a name without quotes. -/
  | word (s : String)
  | quoted (name : String)
  | mark (c : Char)
  deriving DecidableEq

/-- What is being read, with the characters that were read of it, last first. -/
inductive Reading where
  | blank
  | word (read : List Char)
  | quoted (read : List Char)
  /-- A quoted name, and a quote that ends it unless another one follows. -/
  | atQuote (read : List Char)
  deriving DecidableEq

/-- Whether a character separates words. -/
def isSpace (c : Char) : Bool := c = ' ' || c = '\n' || c = '\t' || c = '\r' || c = '\x0c'

/-- Whether a character belongs to a word. -/
def isWordChar (c : Char) : Bool := c.isAlphanum || c = '_' || c = '$' || 0x80 ≤ c.toNat

namespace Reading

/-- What a character begins. -/
def start (c : Char) : List Token × Reading :=
  if isSpace c then ([], blank)
  else if c = '"' then ([], quoted [])
  else if isWordChar c then ([], word [c])
  else ([.mark c], blank)

/-- The pieces that one more character ends. -/
def next : Reading → Char → List Token × Reading
  | blank, c => start c
  | word read, c =>
    if isWordChar c then ([], word (c :: read))
    else (.word (String.ofList read.reverse) :: (start c).1, (start c).2)
  | quoted read, c => if c = '"' then ([], atQuote read) else ([], quoted (c :: read))
  | atQuote read, c =>
    if c = '"' then ([], quoted (c :: read))
    else (.quoted (String.ofList read.reverse) :: (start c).1, (start c).2)

/-- The pieces that more characters end. -/
def run : Reading → List Char → List Token × Reading
  | r, [] => ([], r)
  | r, c :: rest =>
    let (tokens, r) := r.next c
    let (more, r) := r.run rest
    (tokens ++ more, r)

/-- The piece that the end of the statement ends; a quoted name must have ended before. -/
def finish? : Reading → Option (List Token)
  | blank => some []
  | word read => some [.word (String.ofList read.reverse)]
  | quoted _ => none
  | atQuote read => some [.quoted (String.ofList read.reverse)]

theorem run_cons (r : Reading) (c : Char) (rest : List Char) :
    r.run (c :: rest) =
      ((r.next c).1 ++ ((r.next c).2.run rest).1, ((r.next c).2.run rest).2) := rfl

theorem run_append {r r' r'' : Reading} {first second : List Char} {tokens more : List Token}
    (h : r.run first = (tokens, r')) (h' : r'.run second = (more, r'')) :
    r.run (first ++ second) = (tokens ++ more, r'') := by
  induction first generalizing r tokens with
  | nil =>
    obtain ⟨rfl, rfl⟩ := Prod.mk.inj h
    exact h'
  | cons c rest ih =>
    rw [run_cons] at h
    obtain ⟨rfl, hlast⟩ := Prod.mk.inj h
    rw [List.cons_append, run_cons, ih (Prod.ext rfl hlast), List.append_assoc]

/-- Between quotes, a name is read as it is unquoted. -/
theorem run_quoted {between name : List Char} (h : unquote? between = some name)
    (read : List Char) : (quoted read).run between = ([], quoted (name.reverse ++ read)) := by
  fun_induction unquote? between generalizing name read with
  | case1 =>
    cases h
    rfl
  | case2 rest ih =>
    obtain ⟨name, hname, rfl⟩ := Option.map_eq_some_iff.mp h
    rw [run_cons, next, if_pos rfl, run_cons, next, if_pos rfl, ih hname]
    simp
  | case3 c rest hpair hbad => cases h
  | case4 c rest hpair hgood ih =>
    obtain ⟨name, hname, rfl⟩ := Option.map_eq_some_iff.mp h
    have hquote : c ≠ '"' := by
      rintro rfl
      simp at hgood
    rw [run_cons, next, if_neg hquote, ih hname]
    simp

/-- A quote and a space end a quoted name. -/
theorem run_quoted_end (read : List Char) {rest : List Char} {tokens : List Token} {r : Reading}
    (h : blank.run rest = (tokens, r)) :
    (quoted read).run ('"' :: ' ' :: rest) =
      (.quoted (String.ofList read.reverse) :: tokens, r) := by
  obtain ⟨rfl, rfl⟩ := Prod.mk.inj h
  rfl

end Reading

/-- The pieces of a statement. -/
def tokens? (statement : String) : Option (List Token) :=
  let (tokens, last) := Reading.blank.run statement.toList
  last.finish?.map (tokens ++ ·)

theorem tokens?_of_run {statement : String} {tokens : List Token}
    (h : Reading.blank.run statement.toList = (tokens, .blank)) :
    tokens? statement = some tokens := by
  rw [tokens?, h]
  simp [Reading.finish?]

/-! ## Statements that add a row -/

/-- What stands in parentheses that were opened, between commas, and what comes after them. -/
def listed? : List Token → Option (List Token × List Token)
  | item :: .mark c :: rest =>
    if c = ',' then (listed? rest).map fun (items, after) => (item :: items, after)
    else if c = ')' then some ([item], rest)
    else none
  | _ => none

/-- The name that a word is. -/
def Token.word? : Token → Option String
  | .word s => some s
  | _ => none

/-- The table, the columns and the number of places for values of a statement that adds a row. -/
def insertion? (tokens : List Token) : Option (String × List String × Nat) := do
  let rest ← (["INSERT", "OR", "IGNORE", "INTO"].map Token.word).isPrefixOf? tokens
  let .quoted table :: .mark '(' :: rest := rest | none
  let (columns, rest) ← listed? rest
  let rest ← [Token.word "VALUES", .mark '('].isPrefixOf? rest
  let (places, rest) ← listed? rest
  let columns ← columns.mapM Token.word?
  if rest.isEmpty && places.all (· = .mark '?') then some (table, columns, places.length) else none

/-- The table that a statement adds a row to and the value that each column gets; none unless there
is one place and one value for each column. -/
def bound? (statement : String) (values : List Cell) : Option (String × List (String × Cell)) := do
  let (table, columns, places) ← insertion? (← tokens? statement)
  if places = columns.length ∧ values.length = places then some (table, columns.zip values)
  else none

theorem listed?_intersperse {items : List Token} (h : items ≠ []) (after : List Token) :
    listed? (items.intersperse (.mark ',') ++ .mark ')' :: after) = some (items, after) := by
  induction items with
  | nil => exact absurd rfl h
  | cons item rest ih =>
    cases rest with
    | nil => rfl
    | cons next more =>
      have hmore := ih (List.cons_ne_nil next more)
      rw [List.intersperse_cons_cons, List.cons_append, List.cons_append, listed?, if_pos rfl,
        hmore]
      rfl

theorem mapM_word? (names : List String) :
    (names.map Token.word).mapM Token.word? = some names := by
  induction names with
  | nil => rfl
  | cons name rest ih => simp [Token.word?, ih]

/-! ## The statement that adds a row -/

/-- A list in parentheses. -/
def listTokens (items : List Token) : List Token :=
  .mark '(' :: items.intersperse (.mark ',') ++ [.mark ')']

/-- The pieces of the statement that adds a row: the name of the table is one of them, and the
others do not depend on it. -/
def insertTokens (name : String) : List Token :=
  ["INSERT", "OR", "IGNORE", "INTO"].map .word ++ .quoted name ::
    (listTokens (columnNames.map .word) ++ .word "VALUES" ::
      listTokens (columnNames.map fun _ => .mark '?'))

theorem run_beforeName :
    Reading.blank.run "INSERT OR IGNORE INTO \"".toList =
      (["INSERT", "OR", "IGNORE", "INTO"].map .word, .quoted []) := by
  decide +kernel

theorem run_afterName :
    Reading.blank.run ("(" ++ ", ".intercalate columnNames ++ ") VALUES (" ++
        ", ".intercalate (columnNames.map fun _ => "?") ++ ")").toList =
      (listTokens (columnNames.map .word) ++ .word "VALUES" ::
        listTokens (columnNames.map fun _ => .mark '?'), .blank) := by
  simp only [String.toList_append, String.toList_intercalate]
  decide +kernel

theorem unquote?_of_tableName {table name : String} (h : tableName table = .ok name) :
    unquote? table.toList = some name.toList := by
  unfold tableName at h
  split at h
  · next chars hchars =>
    cases h
    rw [hchars, String.toList_ofList]
  · cases h

/-- A statement with a name between quotes is read as what stands before it, the name, and what
stands after it. -/
theorem tokens?_of_parts {table name statement : String} {before after : List Char}
    {first last : List Token} (h : tableName table = .ok name)
    (hstatement : statement.toList = before ++ (table.toList ++ '"' :: ' ' :: after))
    (hbefore : Reading.blank.run before = (first, .quoted []))
    (hafter : Reading.blank.run after = (last, .blank)) :
    tokens? statement = some (first ++ .quoted name :: last) := by
  have hname := Reading.run_quoted (unquote?_of_tableName h) []
  rw [List.append_nil] at hname
  have hrun := Reading.run_append hbefore
    (Reading.run_append hname (Reading.run_quoted_end _ hafter))
  rw [List.nil_append, List.reverse_reverse, String.ofList_toList, ← hstatement] at hrun
  exact tokens?_of_run hrun

/-- What stands between the quotes of the statement is read as one name. -/
theorem tokens?_insert {table name : String} (h : tableName table = .ok name) :
    tokens? (insert table) = some (insertTokens name) := by
  have hsplit : ∀ columns places : String,
      ("INSERT OR IGNORE INTO \"" ++ table ++ "\" (" ++ columns ++ ") VALUES (" ++ places ++
        ")").toList = "INSERT OR IGNORE INTO \"".toList ++ (table.toList ++
          '"' :: ' ' :: ("(" ++ columns ++ ") VALUES (" ++ places ++ ")").toList) := by
    intro columns places
    simp
  exact tokens?_of_parts h (hsplit _ _) run_beforeName run_afterName

theorem insertion?_insertTokens (name : String) :
    insertion? (insertTokens name) = some (name, columnNames, columnNames.length) := by
  have hskip : ∀ first rest : List Token, first.isPrefixOf? (first ++ rest) = some rest :=
    fun _ _ => List.isPrefixOf?_eq_some_iff_append_eq.mpr rfl
  have hcolumns : columnNames.map Token.word ≠ [] := List.cons_ne_nil _ _
  have hplaces : (columnNames.map fun _ => Token.mark '?') ≠ [] := List.cons_ne_nil _ _
  have hvalues := hskip [.word "VALUES", .mark '(']
  rw [insertion?, insertTokens, hskip]
  simp only [listTokens, Option.bind_eq_bind, Option.bind_some, List.cons_append, List.append_assoc,
    List.nil_append, listed?_intersperse hcolumns, mapM_word?] at hvalues ⊢
  rw [hvalues, Option.bind_some, listed?_intersperse hplaces]
  simp

/-- The statement that adds a row puts each of the values into the column at its position. -/
theorem bound?_insert {table name : String} (h : tableName table = .ok name) {values : List Cell}
    (hvalues : values.length = columnNames.length) :
    bound? (insert table) values = some (name, columnNames.zip values) := by
  simp [bound?, tokens?_insert h, insertion?_insertTokens, hvalues]

end CardArchive.Statement
