import CardArchive.Proofs.StatementText
import CardArchive.Proofs.TableNames

/-!
# Names that stay between their quotes

The name of a table is put between the quotes of a statement as it is. When a configuration accepts
the name, each statement is read as the pieces that it has for any name, with the name as the one
quoted piece among them. So the statement that makes a table and the one that adds a row to it are
about the same table, and what the second fills in is what the first declares.
-/

namespace CardArchive.Statement

/-- The name that a piece is, if it is a quoted one. -/
def Token.quoted? : Token → Option String
  | .quoted name => some name
  | _ => none

/-- The table that a statement is about: the one quoted name in it. -/
def subject? (statement : String) : Option String := do
  match (← tokens? statement).filterMap Token.quoted? with
  | [name] => some name
  | _ => none

/-- The columns that are declared, each with its type, and what comes after the words that begin the
primary key. -/
def declared? : List Token → Option (List (String × String) × List Token)
  | .word name :: .word type :: .mark c :: rest =>
    if c = ',' then (declared? rest).map fun (columns, after) => ((name, type) :: columns, after)
    else if name = "PRIMARY" ∧ type = "KEY" ∧ c = '(' then some ([], rest)
    else none
  | _ => none

/-- The table, the columns and the primary key of a statement that makes a table. -/
def creation? (tokens : List Token) : Option (String × List (String × String) × List String) := do
  let rest ← (["CREATE", "TABLE", "IF", "NOT", "EXISTS"].map Token.word).isPrefixOf? tokens
  let .quoted table :: .mark '(' :: rest := rest | none
  let (columns, rest) ← declared? rest
  let (key, rest) ← listed? rest
  let key ← key.mapM Token.word?
  if rest = [.mark ')'] then some (table, columns, key) else none

/-! ## The statement that makes a table -/

/-- The columns with their types. -/
def typedColumns : List (String × String) := cardColumns.map fun c => (c.name, c.type.sqlType)

/-- What stands in the parentheses of the statement that makes a table. -/
def declarationTokens : List Token :=
  typedColumns.flatMap (fun (name, type) => [.word name, .word type, .mark ',']) ++
    .word "PRIMARY" :: .word "KEY" ::
      listTokens (((cardColumns.filter Column.primaryKey).map Column.name).map .word)

/-- The pieces of the statement that makes a table. -/
def createTokens (name : String) : List Token :=
  ["CREATE", "TABLE", "IF", "NOT", "EXISTS"].map .word ++ .quoted name ::
    (.mark '(' :: declarationTokens ++ [.mark ')'])

theorem run_beforeCreated :
    Reading.blank.run "CREATE TABLE IF NOT EXISTS \"".toList =
      (["CREATE", "TABLE", "IF", "NOT", "EXISTS"].map .word, .quoted []) := by
  decide +kernel

theorem run_declarations :
    Reading.blank.run ("(\n" ++ ",\n".intercalate declarations ++ "\n)").toList =
      (.mark '(' :: declarationTokens ++ [.mark ')'], .blank) := by
  -- texts that are put together would be decoded as a whole
  simp only [String.toList_append, String.toList_intercalate]
  decide +kernel

theorem tokens?_create {table name : String} (h : tableName table = .ok name) :
    tokens? (create table) = some (createTokens name) := by
  have hsplit : ∀ columns : String,
      ("CREATE TABLE IF NOT EXISTS \"" ++ table ++ "\" (\n" ++ columns ++ "\n)").toList =
        "CREATE TABLE IF NOT EXISTS \"".toList ++ (table.toList ++
          '"' :: ' ' :: ("(\n" ++ columns ++ "\n)").toList) := by
    intro columns
    simp
  exact tokens?_of_parts h (hsplit _) run_beforeCreated run_declarations

theorem declared?_declarationTokens :
    declared? (declarationTokens ++ [.mark ')']) =
      some (typedColumns, [.word "id", .mark ')', .mark ')']) := by
  decide +kernel

theorem creation?_createTokens (name : String) :
    creation? (createTokens name) = some (name, typedColumns, ["id"]) := by
  have hskip : (["CREATE", "TABLE", "IF", "NOT", "EXISTS"].map Token.word).isPrefixOf?
      (createTokens name) =
        some (.quoted name :: (.mark '(' :: declarationTokens ++ [.mark ')'])) :=
    List.isPrefixOf?_eq_some_iff_append_eq.mpr rfl
  rw [creation?, hskip]
  simp only [Option.bind_eq_bind, Option.bind_some, List.cons_append, declared?_declarationTokens]
  rfl

/-! ## Both statements -/

/-- A statement with one quoted name among its pieces is about the table of that name. -/
theorem subject?_of_tokens {statement name : String} {before after : List Token}
    (h : tokens? statement = some (before ++ .quoted name :: after))
    (hplain : ∀ t ∈ before ++ after, t.quoted? = none) : subject? statement = some name := by
  have hnone : ∀ part : List Token, (∀ t ∈ part, t.quoted? = none) →
      part.filterMap Token.quoted? = [] := fun _ hpart => List.filterMap_eq_nil_iff.mpr hpart
  obtain ⟨hbefore, hafter⟩ := List.forall_mem_append.mp hplain
  have honly : (before ++ .quoted name :: after).filterMap Token.quoted? = [name] := by
    rw [List.filterMap_append, hnone before hbefore, List.filterMap_cons, hnone after hafter]
    rfl
  rw [subject?, h]
  simp only [Option.bind_eq_bind, Option.bind_some, honly]

theorem typedColumns_map_fst : typedColumns.map Prod.fst = columnNames := rfl

/-- Two names are those of one table in every database exactly when they are the same name. -/
theorem table?_eq_iff {a b : String} :
    (∀ db : Database, db.table? a = db.table? b) ↔ SameUpToCase a.toList b.toList := by
  rw [← Text.sameName_iff_sameUpToCase]
  constructor
  · intro h
    have hmade := h (Database.addTable {} a)
    rw [Database.table?_addTable, Database.table?_addTable, Text.sameName_refl] at hmade
    by_contra hne
    rw [if_neg hne] at hmade
    cases hmade
  · intro h db
    exact db.table?_congr h

/-- An accepted name is the one quoted piece of either statement, and the other pieces do not depend
on it. So both statements are about the table of that name, the columns that the second fills in are
those that the first declares, and there is a place for each cell of a row. Two accepted names are
those of one table exactly when they differ at most in case. -/
theorem accepted_names_stay_quoted :
    (∃ madeBefore madeAfter addedBefore addedAfter : List Token,
      (∀ t ∈ madeBefore ++ madeAfter ++ (addedBefore ++ addedAfter), t.quoted? = none) ∧
      ∀ name, checkTable name = .ok () →
        tokens? (create name) = some (madeBefore ++ .quoted name :: madeAfter) ∧
        tokens? (insert name) = some (addedBefore ++ .quoted name :: addedAfter)) ∧
    (∀ name, checkTable name = .ok () →
      subject? (create name) = some name ∧ subject? (insert name) = some name ∧
      (∀ db : Database, db.create name = .ok (db.addTable name) ∧
        (db.addTable name).target name = .ok (name, (db.rows? name).getD ∅)) ∧
      ∃ columns key places,
        (tokens? (create name)).bind creation? = some (name, columns, key) ∧
        (tokens? (insert name)).bind insertion? = some (name, columns.map Prod.fst, places) ∧
        ∀ row : Row, row.cells.length = places) ∧
    ∀ a b, checkTable a = .ok () → checkTable b = .ok () →
      ((∀ db : Database, db.table? a = db.table? b) ↔ SameUpToCase a.toList b.toList) := by
  have hcreate : ∀ name, checkTable name = .ok () →
      tokens? (create name) = some (createTokens name) :=
    fun name h => tokens?_create (tableName_of_isIdentifier (isIdentifier_of_checkTable h).1)
  have hinsert : ∀ name, checkTable name = .ok () →
      tokens? (insert name) = some (insertTokens name) :=
    fun name h => tokens?_insert (tableName_of_isIdentifier (isIdentifier_of_checkTable h).1)
  have hmade : ∀ t ∈ ["CREATE", "TABLE", "IF", "NOT", "EXISTS"].map Token.word ++
      (.mark '(' :: declarationTokens ++ [.mark ')']), t.quoted? = none := by
    decide +kernel
  have hadded : ∀ t ∈ ["INSERT", "OR", "IGNORE", "INTO"].map Token.word ++
      (listTokens (columnNames.map .word) ++ .word "VALUES" ::
        listTokens (columnNames.map fun _ => .mark '?')), t.quoted? = none := by
    decide +kernel
  refine ⟨⟨_, _, _, _, List.forall_mem_append.mpr ⟨hmade, hadded⟩,
    fun name h => ⟨hcreate name h, hinsert name h⟩⟩, fun name h => ?_, fun _ _ _ _ => table?_eq_iff⟩
  refine ⟨subject?_of_tokens (hcreate name h) hmade, subject?_of_tokens (hinsert name h) hadded,
    fun db => ⟨db.create_of_checkTable h,
      Database.target_of_checkTable h (db.rows?_addTable_self name)⟩,
    typedColumns, ["id"], columnNames.length, ?_, ?_, fun _ => rfl⟩
  · rw [hcreate name h, Option.bind_some, creation?_createTokens]
  · rw [hinsert name h, Option.bind_some, insertion?_insertTokens, typedColumns_map_fst]

end CardArchive.Statement
