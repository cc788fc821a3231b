import CardArchive.Proofs.LoadRun

/-!
# Rows that a database holds

Adding rows a second time does nothing: the first time has left each of their identifiers in the
table, and a row whose identifier is there is not added. A database that holds the rows of some
datasets keeps holding them while rows go into other tables, so it is enough that they were added
at some time before.
-/

namespace CardArchive

namespace Database

/-- There is a table with a name, and it has the identifiers of some rows. -/
structure Holds (db : Database) (name : String) (rows : List Row) : Prop where
  /-- All tables with the name have the same rows, and there is one. -/
  present : ∃ present, db.rows? name = some present ∧
    (∀ t ∈ db.tables, Text.sameName t.name name = true → t.rows = present) ∧
    ∀ row ∈ rows, row.id ∈ present

variable {db : Database} {name other : String} {rows : List Row}

theorem has_of_rows? {present : Rows} (h : db.rows? name = some present) : db.has name = true := by
  rw [rows?] at h
  rw [has]
  cases ht : db.table? name with
  | none => rw [ht] at h; cases h
  | some t => rfl

/-- Replacing the rows of all tables with a name by the rows that they have changes nothing. -/
theorem setRows_eq_self {present : Rows}
    (h : ∀ t ∈ db.tables, Text.sameName t.name name = true → t.rows = present) :
    db.setRows name present = db := by
  have hmap : db.tables.map (fun t => if Text.sameName t.name name then { t with rows := present }
      else t) = db.tables := by
    refine (List.map_congr_left fun t ht => ?_).trans (List.map_id _)
    split
    · next hname => rw [← h t ht hname]; rfl
    · rfl
  exact congrArg Database.mk hmap

namespace Holds

/-- Rows that are held are added without effect. -/
theorem addRows_eq_self (h : db.Holds name rows) : db.addRows name rows = db := by
  obtain ⟨present, hrows, hall, hids⟩ := h.present
  rw [addRows, addTable_of_has (has_of_rows? hrows), hrows, Option.getD_some,
    Rows.addAll_eq_self hids]
  exact setRows_eq_self hall

theorem importOf_inserted (d : Dataset) (h : db.Holds d.table rows) :
    (Load.importOf db d rows).inserted = 0 := by
  obtain ⟨present, hrows, -, hids⟩ := h.present
  have hnew : Rows.newIds present rows = [] := by
    refine List.eq_nil_iff_forall_not_mem.mpr fun id hid => ?_
    obtain ⟨⟨row, hrow, rfl⟩, hnot⟩ := Rows.mem_newIds.mp hid
    exact hnot (hids row hrow)
  rw [Load.importOf, hrows, Import.foldl_add_inserted]
  exact congrArg (0 + List.length ·) hnew

theorem of_addRows (db : Database) (name : String) (rows : List Row) :
    (db.addRows name rows).Holds name rows where
  present := by
    refine ⟨_, rows?_addRows_self db name rows, fun t ht hname => ?_, fun row hrow => ?_⟩
    · obtain ⟨old, -, rfl⟩ := List.mem_map.mp ht
      rw [name_replaceRows] at hname
      rw [if_pos hname]
    · exact Rows.mem_addAll.mpr (Or.inr ⟨row, hrow, rfl⟩)

/-- Making a table leaves held rows held. -/
theorem addTable (h : db.Holds name rows) (other : String) :
    (db.addTable other).Holds name rows := by
  obtain ⟨present, hrows, hall, hids⟩ := h.present
  cases hhas : db.has other with
  | true =>
    rw [addTable_of_has hhas]
    exact h
  | false =>
    have hne : Text.sameName other name = false := by
      refine Bool.eq_false_iff.mpr fun hsame => ?_
      rw [has, table?_congr db hsame, ← has, has_of_rows? hrows] at hhas
      cases hhas
    refine ⟨present, ?_, fun t ht hname => ?_, hids⟩
    · rw [rows?, table?_addTable_of_ne db hne]
      exact hrows
    · rw [Database.addTable, hhas] at ht
      rcases List.mem_append.mp ht with ht | ht
      · exact hall t ht hname
      · cases List.mem_singleton.mp ht
        exact absurd hname (by rw [hne]; exact Bool.false_ne_true)

/-- Adding rows to another table leaves held rows held. -/
theorem addRows_of_ne (h : db.Holds name rows) (more : List Row)
    (hne : Text.sameName other name = false) : (db.addRows other more).Holds name rows := by
  obtain ⟨present, hrows, hall, hids⟩ := (h.addTable other).present
  refine ⟨present, ?_, fun t ht hname => ?_, hids⟩
  · rw [addRows, rows?, table?_setRows_of_ne _ _ hne]
    exact hrows
  · obtain ⟨old, hold, rfl⟩ := List.mem_map.mp ht
    rw [name_replaceRows] at hname
    have hdiff : Text.sameName old.name other = false := by
      rw [Text.sameName_comm, ← hne]
      exact Text.sameName_congr_right hname other
    rw [if_neg (by rw [hdiff]; exact Bool.false_ne_true)]
    exact hall old hold hname

/-- Adding rows to any table leaves held rows held. -/
theorem addRows (h : db.Holds name rows) (other : String) (more : List Row) :
    (db.addRows other more).Holds name rows := by
  cases hsame : Text.sameName other name with
  | false => exact h.addRows_of_ne more hsame
  | true =>
    obtain ⟨present, hrows, -, hids⟩ := h.present
    have hother : db.rows? other = some present := by
      rw [rows?, table?_congr db hsame]
      exact hrows
    refine ⟨Rows.addAll present more, ?_, fun t ht hname => ?_, fun row hrow => ?_⟩
    · rw [rows?, ← table?_congr _ hsame, ← rows?, rows?_addRows_self, hother, Option.getD_some]
    · obtain ⟨old, -, rfl⟩ := List.mem_map.mp ht
      rw [name_replaceRows] at hname
      have hold : Text.sameName old.name other = true := by
        rw [Text.sameName_congr_right hsame old.name]
        exact hname
      rw [if_pos hold, hother, Option.getD_some]
    · exact Rows.mem_addAll.mpr (Or.inl (hids row hrow))

/-- Adding the rows of datasets with other tables leaves held rows held. -/
theorem addDatasets_of_ne {contents : List (Dataset × List Row)} (h : db.Holds name rows)
    (hne : ∀ p ∈ contents, Text.sameName p.1.table name = false) :
    (db.addDatasets contents).Holds name rows := by
  induction contents generalizing db with
  | nil => exact h
  | cons p rest ih =>
    exact ih (h.addRows_of_ne p.2 (hne p List.mem_cons_self))
      fun q hq => hne q (List.mem_cons_of_mem _ hq)

end Holds

/-! ## Datasets that are held -/

/-- The rows of datasets that have a table each are held once they were added. -/
theorem holds_addDatasets {contents : List (Dataset × List Row)}
    (hpair : (contents.map Prod.fst).Pairwise Dataset.Apart) (db : Database) :
    ∀ p ∈ contents, (db.addDatasets contents).Holds p.1.table p.2 := by
  induction contents generalizing db with
  | nil => exact fun p hp => nomatch hp
  | cons first rest ih =>
    obtain ⟨hfirst, hrest⟩ := List.pairwise_cons.mp hpair
    intro p hp
    rw [addDatasets_cons]
    rcases List.mem_cons.mp hp with rfl | hp
    · refine (Holds.of_addRows db p.1.table p.2).addDatasets_of_ne fun q hq => ?_
      rw [Text.sameName_comm]
      exact (hfirst q.1 (List.mem_map_of_mem hq)).2
    · exact ih hrest _ p hp

theorem addDatasets_eq_self {contents : List (Dataset × List Row)}
    (h : ∀ p ∈ contents, db.Holds p.1.table p.2) : db.addDatasets contents = db := by
  induction contents with
  | nil => rfl
  | cons p rest ih =>
    rw [addDatasets_cons, (h p List.mem_cons_self).addRows_eq_self]
    exact ih fun q hq => h q (List.mem_cons_of_mem _ hq)

end Database

/-! ## Counts -/

namespace Load

theorem statsOf_append (db : Database) (first second : List (Dataset × List Row)) :
    statsOf db (first ++ second) = statsOf db first ++ statsOf (db.addDatasets first) second := by
  induction first generalizing db with
  | nil => rfl
  | cons p rest ih => exact congrArg _ (ih _)

theorem map_tag_statsOf (db : Database) (contents : List (Dataset × List Row)) :
    (statsOf db contents).map LoadStats.tag = contents.map fun p => p.1.tag := by
  induction contents generalizing db with
  | nil => rfl
  | cons p rest ih => exact congrArg _ (ih _)

/-- Of datasets that are held, everything is skipped. -/
theorem statsOf_of_holds {db : Database} {contents : List (Dataset × List Row)}
    (h : ∀ p ∈ contents, db.Holds p.1.table p.2) :
    ∀ stats ∈ statsOf db contents, stats.inserted = 0 ∧ stats.skipped = stats.read := by
  induction contents with
  | nil => exact fun stats hstats => nomatch hstats
  | cons p rest ih =>
    obtain ⟨d, rows⟩ := p
    have hp : db.Holds d.table rows := h _ List.mem_cons_self
    intro stats hstats
    rw [statsOf, hp.addRows_eq_self] at hstats
    rcases List.mem_cons.mp hstats with rfl | hstats
    · have hnone := hp.importOf_inserted
      have hsum : (importOf db d rows).read =
          (importOf db d rows).inserted + (importOf db d rows).skipped :=
        Import.foldl_add_read_eq rfl rows
      refine ⟨hnone, ?_⟩
      show (importOf db d rows).skipped = (importOf db d rows).read
      omega
    · exact ih (fun q hq => h q (List.mem_cons_of_mem _ hq)) stats hstats

/-- Of the datasets that are held among others, everything is skipped. -/
theorem statsOf_append_of_holds {db : Database} {done more : List (Dataset × List Row)}
    (hpair : ((done ++ more).map Prod.fst).Pairwise Dataset.Apart)
    (hheld : ∀ p ∈ done, db.Holds p.1.table p.2) :
    ∀ d ∈ done.map Prod.fst, ∀ stats ∈ statsOf db (done ++ more), stats.tag = d.tag →
      stats.inserted = 0 ∧ stats.skipped = stats.read := by
  intro d hd stats hstats htag
  rw [statsOf_append] at hstats
  rcases List.mem_append.mp hstats with hstats | hstats
  · exact statsOf_of_holds hheld stats hstats
  · -- the counts of another dataset have another tag
    have hmem := List.mem_map_of_mem (f := LoadStats.tag) hstats
    rw [map_tag_statsOf] at hmem
    obtain ⟨p, hp, hptag⟩ := List.mem_map.mp hmem
    rw [List.map_append] at hpair
    have hapart := (List.pairwise_append.mp hpair).2.2 d hd p.1 (List.mem_map_of_mem hp)
    exact absurd (hptag.trans htag).symm hapart.1

end Load

end CardArchive
