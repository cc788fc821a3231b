import CardArchive.Proofs.Tables
import Mathlib.Data.List.Pairwise

/-!
# Databases that only grow

What is promised of a database whose history is known: its tables have different names, each row is
found under its own identifier, and each row is that of some line which was imported into its table
by an import that succeeded. Making a table and adding the rows of such an import keep the promise,
and keep every row. Both are put into one relation, `GrowsBy`, which composes, so that a history is
followed one change at a time.
-/

namespace CardArchive

theorem Row.exists_line_of_ofLines {lines : List (List UInt8)} {rows : List Row}
    (h : Row.ofLines lines = (rows, none)) :
    ∀ row ∈ rows, ∃ line ∈ lines, Row.ofBytes line = .ok row := by
  intro row hrow
  have hmap := Row.ofLines_eq_none_iff.mp h
  have hmem : Except.ok row ∈ lines.map Row.ofBytes := hmap ▸ List.mem_map_of_mem hrow
  exact List.mem_map.mp hmem

/-- An import that succeeded. -/
structure Commit where
  /-- The table, as the import spelled it. -/
  table : String
  /-- The lines, all of which are rows. -/
  lines : List (List UInt8)

/-- A row comes from a line that was imported into a table. -/
def Committed (log : List Commit) (name : String) (row : Row) : Prop :=
  ∃ commit ∈ log, Text.sameName commit.table name = true ∧
    ∃ line ∈ commit.lines, Row.ofBytes line = .ok row

theorem Committed.append_right {log : List Commit} {name : String} {row : Row}
    (h : Committed log name row) (more : List Commit) : Committed (log ++ more) name row := by
  obtain ⟨commit, hmem, hrest⟩ := h
  exact ⟨commit, List.mem_append_left more hmem, hrest⟩

/-! ## The rows of a table in a list -/

namespace Table

/-- The rows of a table, one after the other. -/
def list (t : Table) : List Row := t.rows.toList.map Prod.snd

theorem mem_list {t : Table} {row : Row} : row ∈ t.list ↔ ∃ id : Int, t.rows[id]? = some row := by
  constructor
  · intro h
    obtain ⟨⟨id, r⟩, hmem, hr⟩ := List.mem_map.mp h
    have hrow : r = row := hr
    exact ⟨id, hrow ▸ Std.ExtTreeMap.mem_toList_iff_getElem?_eq_some.mp hmem⟩
  · rintro ⟨id, h⟩
    have hmem : (id, row) ∈ t.rows.toList := Std.ExtTreeMap.mem_toList_iff_getElem?_eq_some.mpr h
    exact List.mem_map.mpr ⟨(id, row), hmem, rfl⟩

/-- Rows that are found under their own identifiers have different ones. -/
theorem nodup_ids {t : Table} (h : t.rows.Keyed) : (t.list.map Row.id).Nodup := by
  have hfst : t.list.map Row.id = t.rows.toList.map Prod.fst := by
    rw [list, List.map_map]
    refine List.map_congr_left fun p hp => ?_
    exact h p.1 p.2 (Std.ExtTreeMap.mem_toList_iff_getElem?_eq_some.mp hp)
  rw [hfst]
  exact Rows.nodup_keys t.rows

end Table

namespace Database

/-- Each row of the database is in its table under its own identifier and comes from an import, and
the tables have different names. -/
structure Sound (db : Database) (log : List Commit) : Prop where
  apart : db.tables.Pairwise fun a b => Text.sameName a.name b.name = false
  keyed : ∀ t ∈ db.tables, t.rows.Keyed
  committed : ∀ t ∈ db.tables, ∀ row ∈ t.list, Committed log t.name row

/-- Every table of the first database is in the second, with all its rows. -/
def Keeps (db db' : Database) : Prop :=
  ∀ t ∈ db.tables, ∃ t' ∈ db'.tables, t'.name = t.name ∧ ∀ row ∈ t.list, row ∈ t'.list

/-- Some imports, and tables that were made, lead from one database to another. -/
def GrowsBy (db : Database) (log : List Commit) (db' : Database) : Prop :=
  ∀ before, db.Sound before → db.Keeps db' ∧ db'.Sound (before ++ log)

theorem Keeps.refl (db : Database) : db.Keeps db := fun t ht => ⟨t, ht, rfl, fun _ hrow => hrow⟩

theorem Keeps.trans {db db' db'' : Database} (h : db.Keeps db') (h' : db'.Keeps db'') :
    db.Keeps db'' := by
  intro t ht
  obtain ⟨t', ht', hname, hrows⟩ := h t ht
  obtain ⟨t'', ht'', hname', hrows'⟩ := h' t' ht'
  exact ⟨t'', ht'', hname'.trans hname, fun row hrow => hrows' row (hrows row hrow)⟩

theorem sound_empty : Database.Sound {} [] where
  apart := List.Pairwise.nil
  keyed := fun _ ht => nomatch ht
  committed := fun _ ht => nomatch ht

namespace GrowsBy

theorem refl (db : Database) : db.GrowsBy [] db := by
  intro before h
  rw [List.append_nil]
  exact ⟨.refl db, h⟩

theorem trans {db db' db'' : Database} {first second : List Commit} (h : db.GrowsBy first db')
    (h' : db'.GrowsBy second db'') : db.GrowsBy (first ++ second) db'' := by
  intro before hbefore
  obtain ⟨hkeeps, hsound⟩ := h before hbefore
  obtain ⟨hkeeps', hsound'⟩ := h' (before ++ first) hsound
  exact ⟨hkeeps.trans hkeeps', List.append_assoc before first second ▸ hsound'⟩

end GrowsBy

/-! ## What makes a database grow -/

section

variable {db : Database} {log : List Commit} {name : String} {rows : List Row}

/-- Two tables with the same name are one. -/
theorem Sound.eq_of_sameName (h : db.Sound log) {a b : Table} (ha : a ∈ db.tables)
    (hb : b ∈ db.tables) (hname : Text.sameName a.name b.name = true) : a = b := by
  have hsymm : Std.Symm fun a b : Table => Text.sameName a.name b.name = false :=
    ⟨fun a b hab => by rw [Text.sameName_comm]; exact hab⟩
  by_cases heq : a = b
  · exact heq
  · have hdiff := h.apart.forall ha hb heq
    rw [hname] at hdiff
    exact Bool.noConfusion hdiff

/-- In a sound database the rows that are found under a name are those of every table with it. -/
theorem Sound.rows_eq_of_sameName {present : Rows} (h : db.Sound log)
    (hpresent : db.rows? name = some present) {t : Table} (ht : t ∈ db.tables)
    (hname : Text.sameName t.name name = true) : t.rows = present := by
  obtain ⟨found, hfound, hrows⟩ := Option.map_eq_some_iff.mp hpresent
  have hsame : Text.sameName t.name found.name = true := by
    refine Text.sameName_trans hname ?_
    rw [Text.sameName_comm]
    exact sameName_of_table? hfound
  rw [h.eq_of_sameName ht (List.mem_of_find?_eq_some hfound) hsame, hrows]

theorem growsBy_addTable (db : Database) (name : String) : db.GrowsBy [] (db.addTable name) := by
  intro before hsound
  rw [List.append_nil]
  by_cases hhas : db.has name = true
  · rw [addTable_of_has hhas]
    exact ⟨.refl db, hsound⟩
  have htables : (db.addTable name).tables = db.tables ++ [⟨name, ∅⟩] := by
    rw [addTable, if_neg hhas]
  refine ⟨fun t ht => ?keeps, ?apart, ?keyed, ?committed⟩
  case keeps => exact ⟨t, htables ▸ List.mem_append_left _ ht, rfl, fun _ hrow => hrow⟩
  case apart =>
    have hnone : db.table? name = none := by
      simpa [has] using hhas
    rw [htables]
    refine List.pairwise_append.mpr ⟨hsound.apart, List.pairwise_singleton _ _, fun t ht => ?_⟩
    exact List.forall_mem_singleton.mpr
      (Bool.eq_false_iff.mpr (List.find?_eq_none.mp hnone t ht))
  case keyed =>
    rw [htables]
    exact List.forall_mem_append.mpr ⟨hsound.keyed, List.forall_mem_singleton.mpr Rows.keyed_empty⟩
  case committed =>
    rw [htables]
    refine List.forall_mem_append.mpr ⟨hsound.committed,
      List.forall_mem_singleton.mpr fun row hrow => ?_⟩
    obtain ⟨id, hid⟩ := Table.mem_list.mp hrow
    simp at hid

/-- A table of the database after rows were replaced is one from before, perhaps with them. -/
theorem mem_setRows {t : Table} {new : Rows} :
    t ∈ (db.setRows name new).tables ↔ ∃ old ∈ db.tables,
      t = if Text.sameName old.name name then { old with rows := new } else old := by
  simp only [setRows, List.mem_map, eq_comm]

/-- What holds of the other tables, and of those with the name once their rows were replaced. -/
theorem forall_mem_setRows {P : Table → Prop} {new : Rows}
    (hother : ∀ t ∈ db.tables, P t)
    (hnamed : ∀ t ∈ db.tables, Text.sameName t.name name = true → P { t with rows := new }) :
    ∀ t ∈ (db.setRows name new).tables, P t := by
  intro t ht
  obtain ⟨old, hold, rfl⟩ := mem_setRows.mp ht
  by_cases hname : Text.sameName old.name name = true
  · rw [if_pos hname]
    exact hnamed old hold hname
  · rw [if_neg hname]
    exact hother old hold

/-- Replacing rows keeps all rows when the tables with the name lose none. -/
theorem keeps_setRows {new : Rows}
    (h : ∀ t ∈ db.tables, Text.sameName t.name name = true →
      ∀ row ∈ t.list, row ∈ ({ t with rows := new } : Table).list) :
    db.Keeps (db.setRows name new) := by
  intro t ht
  by_cases hname : Text.sameName t.name name = true
  · exact ⟨{ t with rows := new }, mem_setRows.mpr ⟨t, ht, by rw [if_pos hname]⟩, rfl,
      h t ht hname⟩
  · exact ⟨t, mem_setRows.mpr ⟨t, ht, by rw [if_neg hname]⟩, rfl, fun _ hrow => hrow⟩

/-- Rows of lines that are imported are added to the rows of their table. -/
theorem growsBy_setRows {lines : List (List UInt8)} {present : Rows}
    (hpresent : db.rows? name = some present)
    (hlines : ∀ row ∈ rows, ∃ line ∈ lines, Row.ofBytes line = .ok row) :
    db.GrowsBy [⟨name, lines⟩] (db.setRows name (Rows.addAll present rows)) := by
  intro before hsound
  -- every table with the name is the one that was found, so its rows were the present ones
  have hone : ∀ t ∈ db.tables, Text.sameName t.name name = true → t.rows = present :=
    fun t ht hname => hsound.rows_eq_of_sameName hpresent ht hname
  refine ⟨keeps_setRows fun t ht hname row hrow => ?keeps, ?apart,
    forall_mem_setRows hsound.keyed fun t ht hname => ?keyed,
    forall_mem_setRows (fun t ht row hrow => (hsound.committed t ht row hrow).append_right _)
      fun t ht hname row hrow => ?committed⟩
  case keeps =>
    obtain ⟨id, hid⟩ := Table.mem_list.mp hrow
    rw [hone t ht hname] at hid
    refine Table.mem_list.mpr ⟨id, ?_⟩
    rw [Rows.getElem?_addAll, hid, Option.some_or]
  case apart =>
    rw [setRows, List.pairwise_map]
    simp only [name_replaceRows]
    exact hsound.apart
  case keyed => exact (hone t ht hname ▸ hsound.keyed t ht).addAll rows
  case committed =>
    obtain ⟨id, hid⟩ := Table.mem_list.mp hrow
    rcases Rows.mem_or_of_getElem?_addAll hid with hold | ⟨hnew, -⟩
    · have hbefore : row ∈ t.list := Table.mem_list.mpr ⟨id, hone t ht hname ▸ hold⟩
      exact (hsound.committed t ht row hbefore).append_right _
    · obtain ⟨line, hline, hrow⟩ := hlines row hnew
      have hspelled : Text.sameName name t.name = true := by
        rw [Text.sameName_comm]
        exact hname
      exact ⟨⟨name, lines⟩, List.mem_append_right _ (List.mem_singleton_self _), hspelled, line,
        hline, hrow⟩

theorem growsBy_addRows (db : Database) (name : String) {lines : List (List UInt8)}
    (hlines : Row.ofLines lines = (rows, none)) :
    db.GrowsBy [⟨name, lines⟩] (db.addRows name rows) := by
  have hrows := Row.exists_line_of_ofLines hlines
  exact (growsBy_addTable db name).trans (growsBy_setRows (rows?_addTable_self db name) hrows)

end

end Database

end CardArchive
