import CardArchive.Proofs.Import
import CardArchive.Proofs.RowCells
import CardArchive.Proofs.StatementNames
import Mathlib.Data.List.Nodup

/-!
# What adding a row does

An import adds a row unless its identifier is in the table. For the database this is no rule of its
own: it follows from the two statements that are put to it. The one that makes the table says which
columns are the key, and the first words of the one that adds a row say what becomes of a row whose
key is taken. Here both are read, and carried out on the rows of a table in the way that SQL
describes; an import comes to the same as the statement carried out once for each of its rows, and
counts what the statement changes.

None of these statements fails, so an import fails only on its lines, and then nothing is stored.
-/

namespace CardArchive.Statement

/-! ## Keys that are taken -/

/-- A row as the cells of its columns. -/
abbrev NamedCells := List (String × Cell)

/-- The cells that make the key of a row. -/
def keyOf (key : List String) (row : NamedCells) : List (Option Cell) := key.map fun c => row.lookup c

/-- What becomes of a row whose key is taken. -/
inductive OnConflict where
  /-- The statement fails. -/
  | abort
  /-- The row is left out. -/
  | ignore
  /-- The row takes the place of the one with its key. -/
  | replace
  deriving DecidableEq

namespace OnConflict

/-- The words with which a statement begins that adds a row in this way. -/
def opening : OnConflict → List String
  | abort => ["INSERT", "INTO"]
  | ignore => ["INSERT", "OR", "IGNORE", "INTO"]
  | replace => ["INSERT", "OR", "REPLACE", "INTO"]

/-- The rows of a table after one more, and how many of them were changed; none when the statement
fails. -/
def put? (policy : OnConflict) (key : List String) (rows : List NamedCells) (row : NamedCells) :
    Option (List NamedCells × Nat) :=
  if rows.any fun r => keyOf key r = keyOf key row then
    match policy with
    | abort => none
    | ignore => some (rows, 0)
    | replace => some (rows.filter (fun r => keyOf key r ≠ keyOf key row) ++ [row], 1)
  else some (rows ++ [row], 1)

end OnConflict

/-- What the first words of a statement say about keys that are taken. -/
def onConflict? (tokens : List Token) : Option OnConflict :=
  [.abort, .ignore, .replace].find? fun policy => (policy.opening.map Token.word).isPrefixOf tokens

/-! ## Carrying out statements -/

/-- Carries out a statement that adds a row to the table that another one has made: the rows of the
table after it, and how many of them were changed. -/
def carryOut? (made added : String) (rows : List NamedCells) (values : List Cell) :
    Option (List NamedCells × Nat) := do
  let (table, _, key) ← (tokens? made).bind creation?
  let policy ← (tokens? added).bind onConflict?
  let (target, row) ← bound? added values
  if Text.sameName target table then policy.put? key rows row else none

/-- Carries out the statement once for each of some rows of values, and counts what was changed. -/
def carryOutAll? (made added : String) : List NamedCells → List (List Cell) →
    Option (List NamedCells × Nat)
  | rows, [] => some (rows, 0)
  | rows, values :: rest => do
    let (rows, changed) ← carryOut? made added rows values
    let (rows, more) ← carryOutAll? made added rows rest
    some (rows, changed + more)

theorem onConflict?_insertTokens (name : String) : onConflict? (insertTokens name) = some .ignore :=
  rfl

/-- The statement that adds a row to a card table leaves it out when its identifier is taken. -/
theorem carryOut?_insert {name : String} (h : checkTable name = .ok ()) (rows : List NamedCells)
    {values : List Cell} (hvalues : values.length = columnNames.length) :
    carryOut? (create name) (insert name) rows values =
      OnConflict.ignore.put? ["id"] rows (columnNames.zip values) := by
  have hname := tableName_of_isIdentifier (isIdentifier_of_checkTable h).1
  simp only [carryOut?, tokens?_create hname, tokens?_insert hname, bound?_insert hname hvalues,
    Option.bind_eq_bind, Option.bind_some, creation?_createTokens, onConflict?_insertTokens,
    Text.sameName_refl, if_true]

/-- Where nothing is said about a taken key, a statement that meets one fails. -/
example : ((tokens? "INSERT INTO \"S1\" (id) VALUES (?)").bind onConflict?).map
    (fun policy => policy.put? ["id"] [[("id", .integer 1)]] [("id", .integer 1)]) = some none := by
  decide +kernel

end CardArchive.Statement

namespace CardArchive

open Statement

/-! ## The rows of a card table -/

namespace Rows

/-- The rows of a table with their columns. -/
def named (m : Rows) : List NamedCells := m.toList.map fun p => p.2.named

variable {m : Rows} {row : Row}

theorem mem_named {cells : NamedCells} :
    cells ∈ m.named ↔ ∃ (id : Int) (row : Row), m[id]? = some row ∧ row.named = cells := by
  simp only [named, List.mem_map, Prod.exists, Std.ExtTreeMap.mem_toList_iff_getElem?_eq_some]

/-- Of two rows the keys are the same exactly when the identifiers are. -/
theorem keyOf_named (a b : Row) : keyOf ["id"] a.named = keyOf ["id"] b.named ↔ a.id = b.id := by
  have hkey : ∀ row : Row, keyOf ["id"] row.named = [some (.integer row.id)] := fun _ => rfl
  rw [hkey, hkey]
  simp

/-- The key of a row is taken in a table exactly when its identifier is there. -/
theorem any_keyOf_named (hkeyed : m.Keyed) (row : Row) :
    (m.named.any fun r => keyOf ["id"] r = keyOf ["id"] row.named) = m.contains row.id := by
  rw [Bool.eq_iff_iff, List.any_eq_true, Std.ExtTreeMap.contains_eq_isSome_getElem?,
    Option.isSome_iff_exists]
  constructor
  · rintro ⟨cells, hcells, hkey⟩
    obtain ⟨id, other, hother, rfl⟩ := mem_named.mp hcells
    have hid := (keyOf_named other row).mp (of_decide_eq_true hkey)
    exact ⟨other, by rw [← hid, hkeyed id other hother]; exact hother⟩
  · rintro ⟨other, hother⟩
    refine ⟨other.named, mem_named.mpr ⟨row.id, other, hother, rfl⟩, ?_⟩
    exact decide_eq_true ((keyOf_named other row).mpr (hkeyed _ _ hother))

theorem named_insert_perm (h : row.id ∉ m) :
    (m.named ++ [row.named]).Perm (named (m.insert row.id row)) := by
  have hnone : m[row.id]? = none := by simpa using h
  have hlist : (m.toList ++ [(row.id, row)]).Perm (m.insert row.id row).toList := by
    refine (List.perm_ext_iff_of_nodup ?_ (nodup_keys _).of_map).mpr ?_
    · refine List.nodup_append.mpr ⟨(nodup_keys m).of_map, List.nodup_singleton _, ?_⟩
      rintro ⟨id, other⟩ hmem _ hlast rfl
      obtain ⟨rfl, rfl⟩ := Prod.mk.inj (List.mem_singleton.mp hlast)
      cases hnone.symm.trans (Std.ExtTreeMap.mem_toList_iff_getElem?_eq_some.mp hmem)
    · rintro ⟨id, other⟩
      rw [List.mem_append, List.mem_singleton, Std.ExtTreeMap.mem_toList_iff_getElem?_eq_some,
        Std.ExtTreeMap.mem_toList_iff_getElem?_eq_some, Std.ExtTreeMap.getElem?_insert]
      by_cases hid : row.id = id
      · subst hid
        simp [hnone, eq_comm]
      · simp [hid, Ne.symm hid]
  have hmap := hlist.map fun p => p.2.named
  rwa [List.map_append] at hmap

end Rows

/-! ## Imports -/

section

variable {name : String} {m : Rows} {table : List NamedCells}

/-- One row of an import: the statement does not fail, the rows that it leaves are those of the
import, and the row is counted as added if it changes one and as skipped if it changes none. -/
theorem Import.carryOut?_add (hname : checkTable name = .ok ()) {i : Import}
    (hkeyed : i.rows.Keyed) (htable : table.Perm i.rows.named) (row : Row) :
    ∃ after changed, carryOut? (create name) (insert name) table row.cells = some (after, changed) ∧
      after.Perm (i.add row).rows.named ∧ (i.add row).inserted = i.inserted + changed ∧
      (i.add row).skipped = i.skipped + if changed = 0 then 1 else 0 := by
  have htaken : (table.any fun r => keyOf ["id"] r = keyOf ["id"] row.named) =
      i.rows.contains row.id := by
    rw [htable.any_eq, Rows.any_keyOf_named hkeyed]
  rw [carryOut?_insert hname table rfl]
  change ∃ after changed, OnConflict.ignore.put? ["id"] table row.named = _ ∧ _
  rw [OnConflict.put?, htaken]
  unfold Import.add
  split
  · exact ⟨table, 0, rfl, htable, rfl, rfl⟩
  · next hnot =>
    refine ⟨_, 1, rfl, (htable.append_right _).trans (Rows.named_insert_perm ?_), rfl, rfl⟩
    rw [← Std.ExtTreeMap.contains_iff_mem]
    exact hnot

/-- A whole import, row after row. -/
theorem Import.carryOutAll?_foldl (hname : checkTable name = .ok ()) {i : Import}
    (hkeyed : i.rows.Keyed) (htable : table.Perm i.rows.named) (rows : List Row) :
    ∃ after changed,
      carryOutAll? (create name) (insert name) table (rows.map Row.cells) = some (after, changed) ∧
      after.Perm (rows.foldl add i).rows.named ∧
      (rows.foldl add i).inserted = i.inserted + changed := by
  induction rows generalizing i table with
  | nil => exact ⟨table, 0, rfl, htable, rfl⟩
  | cons row rest ih =>
    obtain ⟨after, changed, hrow, hafter, hinserted, -⟩ :=
      carryOut?_add hname hkeyed htable row
    have hkeyed' : (i.add row).rows.Keyed := by
      rw [add_rows]
      exact hkeyed.addAll [row]
    obtain ⟨last, more, hrest, hlast, hmore⟩ := ih hkeyed' hafter
    refine ⟨last, changed + more, ?_, hlast, ?_⟩
    · rw [List.map_cons, carryOutAll?, hrow]
      simp only [Option.bind_eq_bind, Option.bind_some, hrest]
    · rw [List.foldl_cons, hmore, hinserted]
      omega

namespace Load

variable {c : Connection} {d : Dataset} {lines : List (List UInt8)} {s : RunState} {db : Database}
  {old : Rows} {rows : List Row}

/-- An import of lines that are all rows leaves the rows that the statement would leave if it were
carried out once for each of them, and counts those that the statement changes. None of the
statements fails. -/
theorem importLines_carriesOut (source : String) (total : Nat) (hname : checkTable d.table = .ok ())
    (hdb : c.database s.files = .ok db) (hold : db.rows? d.table = some old) (hkeyed : old.Keyed)
    (hrows : lines.map Row.ofBytes = rows.map Except.ok) :
    ∃ c' stats s' db' new after,
      (importLines c d source lines total).exec s = (.ok (c', stats), s') ∧
      c'.database s'.files = .ok db' ∧ db'.rows? d.table = some new ∧
      carryOutAll? (create d.table) (insert d.table) old.named (rows.map Row.cells) =
        some (after, stats.inserted) ∧
      after.Perm new.named := by
  have htarget := Database.target_of_checkTable hname hold
  let i : Import := rows.foldl Import.add { rows := old }
  obtain ⟨after, changed, hall, hafter, hchanged⟩ :=
    Import.carryOutAll?_foldl (i := { rows := old }) hname hkeyed (.refl _) rows
  refine ⟨_, _, _, db.setRows d.table i.rows, i.rows, after,
    exec_importLines_ok hdb htarget (Row.ofLines_eq_none_iff.mpr hrows),
    Connection.database_store hdb _, ?_, ?_, hafter⟩
  · rw [Database.rows?_setRows_self, hold, Option.map_some]
  · rw [hall, ← Nat.zero_add changed, ← hchanged]
    rfl

end Load

end

end CardArchive
