import CardArchive.Proofs.StatementText

/-!
# The cells of a row

A row is written down four times: as the columns with the keys they are read from, as the record
that is read under these keys, as the cells in their order, and as the columns that a statement
names. What is said here of a cell is said by its column alone, from the value under the key of the
column; so the four must agree on what stands where.
-/

namespace CardArchive

/-! ## What a column holds -/

/-- The cell of a column of texts, by the value under its key. Numbers are kept as JSON text. -/
inductive Cell.OfScalar : Json → Cell → Prop where
  | null : OfScalar .null .null
  /-- A text is kept as it is. -/
  | string (s : String) : OfScalar (.string s) (.text s)
  /-- A truth value is kept as a digit. -/
  | bool (b : Bool) : OfScalar (.bool b) (.text (if b then "1" else "0"))
  | integer (n : Int) : OfScalar (.integer n) (.text (Json.integer n).compact)
  | float (x : Binary64) : OfScalar (.float x) (.text (Json.float x).compact)

/-- What a column holds of an object, given all cells of the row under the names of their columns. A
column without a key holds the population that the description of the same row gives. -/
def Column.Holds (members : Json.Members) (named : List (String × Cell)) (c : Column)
    (cell : Cell) : Prop :=
  match c.key, c.type with
  | some key, .integer => ∃ n, members.get? key = some (.integer n) ∧ cell = .integer n
  | some key, .text =>
    (∃ value, members.get? key = some value ∧ Cell.OfScalar value cell) ∨
      members.get? key = none ∧ key ∈ optionalKeys ∧ cell = .null
  | some key, .json => ∃ value, members.get? key = some value ∧ cell = .text value.compact
  | none, _ => ∃ description population, ("description", Cell.ofText? description) ∈ named ∧
      population? description = .ok population ∧ cell = .ofInt? population

/-- The cells of a row under the names of the columns. -/
def Row.named (r : Row) : List (String × Cell) := columnNames.zip r.cells

/-! ## Records, key by key -/

/-- A chain of readings that succeeds has succeeded at each step. -/
theorem bind_eq_ok {ε α β : Type} {x : Except ε α} {k : α → Except ε β} {b : β}
    (h : x >>= k = .ok b) : ∃ a, x = .ok a ∧ k a = .ok b := by
  cases x with
  | error e => cases h
  | ok a => exact ⟨a, rfl, h⟩

theorem mapError_eq_ok {ε ε' α : Type} {x : Except ε α} {wrap : ε → ε'} {a : α}
    (h : x.mapError wrap = .ok a) : x = .ok a := by
  cases x with
  | error e => cases h
  | ok b => exact congrArg Except.ok (Except.ok.inj h)

theorem Json.compact_integer (n : Int) :
    (Json.integer n).compact = String.ofList (Json.integerText n) := by
  simp [compact, tokens, Token.chars]

theorem Json.compact_float (x : Binary64) :
    (Json.float x).compact = String.ofList (Json.floatText x) := by
  simp [compact, tokens, Token.chars]

namespace Record

/-- An identifier is an integer of the line: no text and no float is taken for one. -/
theorem identifier_eq_ok {value : Json} {n : Int} (h : identifier value = .ok n) :
    value = .integer n := by
  unfold identifier at h
  split at h
  · next m =>
    split at h
    · rw [Except.ok.inj h]
    · cases h
  · cases h

/-- The texts of a record under their keys. -/
def texts (r : Record) : List (String × Option String) :=
  [ ("NAME", r.name), ("TYPE", r.type), ("MOTTO", r.motto), ("CATEGORY", r.category)
  , ("REGION", r.region), ("FLAG", r.flag), ("CARDCATEGORY", r.cardCategory)
  , ("DESCRIPTION", r.description) ]

variable {members : Json.Members} {r : Record}

/-- Everything in a record comes from the value under its own key. -/
theorem ofMembers_eq_ok (h : ofMembers members = .ok r) :
    identifier ((members.get? "ID").getD .null) = .ok r.id ∧
      (∀ p ∈ r.texts, text ((members.get? p.1).getD .null) = .ok p.2) ∧
      r.badges = (members.get? "BADGES").getD .null ∧
      r.trophies = (members.get? "TROPHIES").getD .null := by
  obtain ⟨cardCategory, hcardCategory, h⟩ := bind_eq_ok h
  obtain ⟨category, hcategory, h⟩ := bind_eq_ok h
  obtain ⟨description, hdescription, h⟩ := bind_eq_ok h
  obtain ⟨flag, hflag, h⟩ := bind_eq_ok h
  obtain ⟨id, hid, h⟩ := bind_eq_ok h
  obtain ⟨motto, hmotto, h⟩ := bind_eq_ok h
  obtain ⟨name, hname, h⟩ := bind_eq_ok h
  obtain ⟨region, hregion, h⟩ := bind_eq_ok h
  obtain ⟨type, htype, h⟩ := bind_eq_ok h
  cases h
  simp [texts, hcardCategory, hcategory, hdescription, hflag, hid, hmotto, hname, hregion, htype]

/-- No required key is missing from an object that was not refused. -/
theorem get?_of_missingKey? (h : missingKey? members = none) {key : String}
    (hkey : key ∈ requiredKeys) : ∃ value, members.get? key = some value := by
  have hpresent := List.find?_eq_none.mp h key hkey
  cases hvalue : members.get? key with
  | none => simp [hvalue] at hpresent
  | some value => exact ⟨value, rfl⟩

/-- A line that is a record is an object in which every record's keys are present. -/
theorem ofLine_eq_ok {line : String} (h : ofLine line = .ok r) :
    ∃ members : Json.Members, Json.parse? line = some (.object members) ∧
      missingKey? members = none ∧ ofMembers members = .ok r := by
  unfold ofLine at h
  split at h
  · next value hparse =>
    unfold ofJson at h
    split at h
    · next members =>
      split at h
      · cases h
      · next hmissing => exact ⟨members, hparse, hmissing, mapError_eq_ok h⟩
    · cases h
  · cases h

end Record

/-! ## Columns, key by key -/

namespace Column.Holds

variable {members : Json.Members} {named : List (String × Cell)} {c : Column} {key : String}

/-- Every value that a column of texts accepts becomes the cell that is described above, and none
becomes two. -/
theorem ofScalar_of_text {value : Json} {s : Option String} (h : Record.text value = .ok s) :
    Cell.OfScalar value (.ofText? s) := by
  cases value with
  | null => cases h; exact .null
  | bool b => cases h; exact .bool b
  | integer n =>
    cases h
    exact Json.compact_integer n ▸ .integer n
  | float x =>
    cases h
    exact Json.compact_float x ▸ .float x
  | string s => cases h; exact .string s
  | array items => cases h
  | object members => cases h

/-- The column of the identifier holds it as a number. -/
theorem of_identifier (hkey : c.key = some key) (htype : c.type = .integer) {n : Int}
    (h : Record.identifier ((members.get? key).getD .null) = .ok n) :
    c.Holds members named (.integer n) := by
  have hvalue := Record.identifier_eq_ok h
  cases hget : members.get? key with
  | none =>
    rw [hget] at hvalue
    cases hvalue
  | some value =>
    rw [hget, Option.getD_some] at hvalue
    rw [Holds, hkey, htype]
    exact ⟨n, hvalue ▸ hget, rfl⟩

/-- A column of texts holds null only for a null or for an optional key that is absent. -/
theorem of_text (hmissing : Record.missingKey? members = none) (hkey : c.key = some key)
    (htype : c.type = .text) (hlisted : key ∈ requiredKeys ∨ key ∈ optionalKeys)
    {s : Option String} (h : Record.text ((members.get? key).getD .null) = .ok s) :
    c.Holds members named (.ofText? s) := by
  rw [Holds, hkey, htype]
  cases hvalue : members.get? key with
  | none =>
    rw [hvalue] at h
    cases h
    rcases hlisted with hrequired | hoptional
    · obtain ⟨value, hsome⟩ := Record.get?_of_missingKey? hmissing hrequired
      rw [hvalue] at hsome
      cases hsome
    · exact Or.inr ⟨hvalue, hoptional, rfl⟩
  | some value =>
    rw [hvalue, Option.getD_some] at h
    exact Or.inl ⟨value, hvalue, ofScalar_of_text h⟩

/-- A column of JSON holds the compact text of the value, whatever the value is. -/
theorem of_json (hmissing : Record.missingKey? members = none) (hkey : c.key = some key)
    (htype : c.type = .json) (hrequired : key ∈ requiredKeys) :
    c.Holds members named (.text ((members.get? key).getD .null).compact) := by
  obtain ⟨value, hvalue⟩ := Record.get?_of_missingKey? hmissing hrequired
  rw [Holds, hkey, htype, hvalue]
  exact ⟨value, hvalue, rfl⟩

end Column.Holds

/-! ## The cells of a row -/

namespace Row

variable {line : String} {row : Row}

theorem length_cells (r : Row) : r.cells.length = columnNames.length := rfl

theorem description_mem_named (r : Row) : ("description", .ofText? r.description) ∈ r.named := by
  simp [named, columnNames, cardColumns, cells]

/-- Every line that is a row is an object, and each cell of the row holds what its column says. The
statement that adds a row puts the cells into these columns. -/
theorem cells_of_ofLine (h : ofLine line = .ok row) :
    row.cells.length = columnNames.length ∧ row.named.length = 12 ∧
      row.named = (cardColumns.zip row.cells).map (fun p => (p.1.name, p.2)) ∧
      (∃ members, Json.parse? line = some (.object members) ∧
        ∀ p ∈ cardColumns.zip row.cells, p.1.Holds members row.named p.2) ∧
      ∀ table name, Statement.tableName table = .ok name →
        Statement.bound? (Statement.insert table) row.cells = some (name, row.named) := by
  obtain ⟨record, hrecord, hrow⟩ := bind_eq_ok h
  obtain ⟨members, hparse, hmissing, hmembers⟩ := Record.ofLine_eq_ok hrecord
  obtain ⟨hid, htexts, hbadges, htrophies⟩ := Record.ofMembers_eq_ok hmembers
  have hrow := mapError_eq_ok hrow
  refine ⟨length_cells row, rfl, List.zip_map_left, ⟨members, hparse, ?_⟩,
    fun table name hname => Statement.bound?_insert hname (length_cells row)⟩
  -- a record whose description gives no population is no row
  cases hpopulation : population? record.description with
  | error e =>
    rw [ofRecord, hpopulation] at hrow
    cases hrow
  | ok population =>
    rw [ofRecord, hpopulation] at hrow
    cases hrow
    simp only [Record.texts, List.forall_mem_cons] at htexts
    obtain ⟨hname, htype, hmotto, hcategory, hregion, hflag, hcardCategory, hdescription, -⟩ :=
      htexts
    rw [hbadges, htrophies]
    simp only [cardColumns, cells, List.zip_cons_cons, List.forall_mem_cons]
    -- the columns in their order
    exact ⟨.of_identifier rfl rfl hid,
      .of_text hmissing rfl rfl (by decide) hname,
      .of_text hmissing rfl rfl (by decide) htype,
      .of_text hmissing rfl rfl (by decide) hmotto,
      .of_text hmissing rfl rfl (by decide) hcategory,
      .of_text hmissing rfl rfl (by decide) hregion,
      .of_text hmissing rfl rfl (by decide) hflag,
      .of_text hmissing rfl rfl (by decide) hcardCategory,
      ⟨record.description, population, description_mem_named _, hpopulation, rfl⟩,
      .of_text hmissing rfl rfl (by decide) hdescription,
      .of_json hmissing rfl rfl (by decide),
      .of_json hmissing rfl rfl (by decide), List.forall_mem_nil _⟩

/-! ## An example -/

/-- A line with values of many kinds. -/
def mixedLine : String :=
  "\x7b\"ID\":7,\"NAME\":true,\"TYPE\":12,\"MOTTO\":\"m\",\"CATEGORY\":null,\"REGION\":\"r\"," ++
    "\"FLAG\":1.5,\"CARDCATEGORY\":\"c\",\"DESCRIPTION\":\"2 million\"," ++
    "\"BADGES\":\x7b\"a\":1\x7d,\"TROPHIES\":null\x7d"

/-- The cells of that line under the names of their columns. -/
def mixedCells : List (String × Cell) :=
  [ ("id", .integer 7), ("name", .text "1"), ("type", .text "12"), ("motto", .text "m")
  , ("category", .null), ("region", .text "r"), ("flag", .text "1.5"), ("cardcategory", .text "c")
  , ("population", .integer 2000000), ("description", .text "2 million")
  , ("badges", .text "\x7b\"a\":1\x7d"), ("trophies", .text "null") ]

theorem named_mixedLine : (ofLine mixedLine).toOption.map named = some mixedCells := by
  decide +kernel

theorem cells_of_ofLine_mixed :
    ∃ row members, ofLine mixedLine = .ok row ∧ row.named = mixedCells ∧
      Json.parse? mixedLine = some (.object members) ∧
      (∀ p ∈ cardColumns.zip row.cells, p.1.Holds members row.named p.2) ∧
      Statement.bound? (Statement.insert "S1") row.cells = some ("S1", mixedCells) := by
  have hnamed := named_mixedLine
  cases hrow : ofLine mixedLine with
  | error e =>
    rw [hrow] at hnamed
    cases hnamed
  | ok row =>
    rw [hrow] at hnamed
    have hcells : row.named = mixedCells := Option.some.inj hnamed
    have hname : Statement.tableName "S1" = .ok "S1" :=
      Statement.tableName_of_isIdentifier (by decide)
    obtain ⟨-, -, -, ⟨members, hparse, hholds⟩, hbound⟩ := cells_of_ofLine hrow
    exact ⟨row, members, rfl, hcells, hparse, hholds, hcells ▸ hbound "S1" "S1" hname⟩

end Row

end CardArchive
