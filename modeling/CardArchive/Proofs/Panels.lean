import CardArchive.Screen.Dashboard
import Mathlib.Data.List.DropRight

/-!
# What the panels hold and show

The log keeps its newest entries, and its panel shows the newest of these that there is room for.
The panel of datasets has a row for each dataset that was loaded, and its height counts them in
sixteen bits.
-/

namespace CardArchive.Screen

/-! ## Lines of a frame -/

theorem fitLine_fitLine (width : Nat) (line : Line) :
    fitLine width (fitLine width line) = fitLine width line := by
  have hlength := length_fitLine width line
  rw [fitLine, hlength, Nat.sub_self, List.replicate_zero, List.append_nil]
  exact List.take_of_length_le hlength.le

/-- What is put into a frame appears line by line below its upper edge, as far as there is room. -/
theorem getElem?_framed (title : String) (width : Nat) {height i : Nat} {inner : Grid} {line : Line}
    (hline : inner[i]? = some line) (hi : i < height - 2) :
    (framed title width height inner)[i + 1]? = some (between width line) := by
  have hfit : (fit (width - 2) (height - 2) inner)[i]? = some (fitLine (width - 2) line) := by
    have hinner : i < inner.length := (List.getElem?_eq_some_iff.mp hline).1
    rw [fit, List.getElem?_map, List.getElem?_append_left (by rw [List.length_take]; omega),
      List.getElem?_take_of_lt hi, hline, Option.map_some]
  have hlines : i < ((fit (width - 2) (height - 2) inner).map (between width)).length := by
    rw [List.length_map, length_fit]
    exact hi
  rw [framed, List.getElem?_take_of_lt (by omega), List.cons_append, List.getElem?_cons_succ,
    List.getElem?_append_left hlines, List.getElem?_map, hfit, Option.map_some, between, between,
    fitLine_fitLine]

/-! ## The log -/

namespace LogPanel

/-- The log after some messages, one after the other. -/
def pushAll (p : LogPanel) (messages : List String) : LogPanel := messages.foldl push p

variable {p : LogPanel}

theorem length_rtake_le {α : Type} (n : Nat) (l : List α) : (l.rtake n).length ≤ n := by
  rw [List.rtake, List.length_drop]
  omega

theorem rtake_min_length {α : Type} (n : Nat) (l : List α) :
    l.rtake (min l.length n) = l.rtake n := by
  rw [List.rtake, List.rtake]
  congr 1
  omega

theorem rtake_rtake {α : Type} (n m : Nat) (l : List α) :
    (l.rtake m).rtake n = l.rtake (min n m) := by
  simp only [List.rtake_eq_reverse_take_reverse, List.reverse_reverse, List.take_take]

theorem rtake_rtake_append {α : Type} (n : Nat) (older newer : List α) :
    (older.rtake n ++ newer).rtake n = (older ++ newer).rtake n := by
  simp only [List.rtake_eq_reverse_take_reverse, List.reverse_append, List.reverse_reverse,
    List.take_append, List.take_take]
  congr 3
  omega

theorem entries_push (h : p.entries.length ≤ maxEntries) (message : String) :
    (p.push message).entries = (p.entries ++ [message]).rtake maxEntries := by
  have hlength : (p.entries ++ [message]).length = p.entries.length + 1 := by
    rw [List.length_append, List.length_singleton]
  rw [push, List.rtake]
  split
  · rw [show (p.entries ++ [message]).length - maxEntries = 1 by omega]
  · rw [show (p.entries ++ [message]).length - maxEntries = 0 by omega, List.drop_zero]

/-- What a log holds after some messages are the newest of the old entries and the messages. -/
theorem entries_pushAll (h : p.entries.length ≤ maxEntries) (messages : List String) :
    (p.pushAll messages).entries = (p.entries ++ messages).rtake maxEntries := by
  induction messages generalizing p with
  | nil =>
    rw [pushAll, List.foldl_nil, List.append_nil, List.rtake, Nat.sub_eq_zero_of_le h,
      List.drop_zero]
  | cons message rest ih =>
    have hpush := entries_push h message
    have hfits : (p.push message).entries.length ≤ maxEntries := hpush ▸ length_rtake_le _ _
    have hrest := ih hfits
    rw [hpush, rtake_rtake_append, List.append_assoc, List.singleton_append] at hrest
    exact hrest

/-- Of a list, all but the last are marked by `false`, and the last by `true`, when each is marked
by whether its place is that of the last. -/
theorem map_zipIdx_eq_last {α : Type} (shown : List α) {start last : Nat}
    (h : shown ≠ [] → start + shown.length = last + 1) :
    (shown.zipIdx.map fun q => (q.1, decide (start + q.2 = last))) =
      shown.dropLast.map (·, false) ++ shown.getLast?.toList.map (·, true) := by
  rcases List.eq_nil_or_concat shown with rfl | ⟨older, newest, rfl⟩
  · rfl
  · rw [List.concat_eq_append] at h ⊢
    -- the place of the newest is the last one, and the older ones come before it
    have hplace : start + older.length = last := by
      have hlength := h (List.append_ne_nil_of_right_ne_nil _ (List.cons_ne_nil _ _))
      rw [List.length_append, List.length_singleton] at hlength
      omega
    have holder : (older.zipIdx.map fun q => (q.1, decide (start + q.2 = last))) =
        older.zipIdx.map fun q => (q.1, false) := by
      refine List.map_congr_left fun q hq => ?_
      have hlt := List.snd_lt_of_mem_zipIdx hq
      rw [decide_eq_false (by omega)]
    have hnewest : ([newest].zipIdx (0 + older.length)).map
        (fun q => (q.1, decide (start + q.2 = last))) = [(newest, true)] := by
      rw [List.zipIdx_singleton, List.map_singleton, Nat.zero_add, decide_eq_true hplace]
    have hfirst : (older.zipIdx.map fun q => (q.1, false)) = older.map (·, false) := by
      conv_rhs => rw [← List.zipIdx_map_fst 0 older, List.map_map]
      rfl
    rw [List.zipIdx_append, List.map_append, holder, hnewest, hfirst, List.dropLast_concat,
      List.getLast?_concat]
    rfl

/-- The panel shows the newest entries that there is room for, and marks the newest of all. -/
theorem visible_eq (p : LogPanel) (height : Nat) :
    p.visible height = (p.entries.rtake (height - 2)).dropLast.map (·, false) ++
      (p.entries.rtake (height - 2)).getLast?.toList.map (·, true) := by
  refine map_zipIdx_eq_last (p.entries.rtake (height - 2)) fun hne => ?_
  have hlength : (p.entries.rtake (height - 2)).length = p.entries.length - p.start height := by
    rw [List.rtake, List.length_drop, start]
  have hpos := List.length_pos_iff.mpr hne
  rw [start] at *
  omega

/-- The lines of the panel are what it shows, in white what is newest and dark the rest. -/
theorem getElem?_draw {p : LogPanel} {width height i : Nat} {message : String} {newest : Bool}
    (h : (p.visible height)[i]? = some (message, newest)) :
    (p.draw width height)[i + 1]? =
      some (between width (styled (if newest then .white else .darkGray) (" " ++ message))) := by
  have hlength : (p.visible height).length ≤ height - 2 := by
    rw [visible, List.length_map, List.length_zipIdx, List.length_drop, start]
    omega
  have hi : i < (p.visible height).length := (List.getElem?_eq_some_iff.mp h).1
  refine getElem?_framed _ _ ?_ (by omega)
  rw [List.getElem?_map, h, Option.map_some]

/-- After some messages a log holds the newest of them, at most 200. Its panel shows the newest that
there is room for, a line each below its upper edge, and in white the newest of all only. -/
theorem shows_newest (messages : List String) (width height : Nat) :
    let p : LogPanel := pushAll {} messages
    let shown := messages.rtake (min (height - 2) (min messages.length 200))
    p.entries = messages.rtake (min messages.length 200) ∧
    p.start height ≤ p.entries.length ∧
    p.visible height = shown.dropLast.map (·, false) ++ shown.getLast?.toList.map (·, true) ∧
    ∀ i message newest, (p.visible height)[i]? = some (message, newest) →
      (p.draw width height)[i + 1]? =
        some (between width (styled (if newest then .white else .darkGray) (" " ++ message))) := by
  intro p shown
  have hentries : p.entries = messages.rtake (min messages.length 200) := by
    rw [rtake_min_length]
    exact entries_pushAll (Nat.zero_le _) messages
  have hshown : p.entries.rtake (height - 2) = shown := by rw [hentries, rtake_rtake]
  exact ⟨hentries, Nat.sub_le _ _, hshown ▸ visible_eq p height, fun _ _ _ => getElem?_draw⟩

end LogPanel

/-! ## The loaded datasets -/

theorem DatasetPanel.height_eq (p : DatasetPanel) :
    p.height = min (p.rows.length % 65536 + 3) 65535 := rfl

namespace Dashboard

theorem rows_apply (d : Dashboard) (r : Report) :
    (d.apply r).datasets.rows = d.datasets.rows ++ r.loaded?.toList := by
  cases r with
  | loaded stats => rfl
  | _ => exact (List.append_nil _).symm

theorem rows_foldl_apply (d : Dashboard) (reports : List Report) :
    (reports.foldl apply d).datasets.rows =
      d.datasets.rows ++ reports.filterMap Report.loaded? := by
  induction reports generalizing d with
  | nil => exact (List.append_nil _).symm
  | cons r rest ih =>
    rw [List.foldl_cons, ih, rows_apply, List.append_assoc]
    cases h : r.loaded? <;> simp [h]

/-- The panel has a row for each dataset that was loaded. It has room for them, its header and its
frame, up to the largest height, as long as their number fits into sixteen bits, and again close to
the end of each further round. It always has room for header and frame. One dataset more makes it
lower exactly when its number begins a new round. -/
theorem height_exact_iff (reports : List Report) :
    let d : Dashboard := reports.foldl apply {}
    let n := (reports.filterMap Report.loaded?).length
    d.datasets.rows = reports.filterMap Report.loaded? ∧
    (d.datasets.height = min (n + 3) 65535 ↔ n < 65536 ∨ 65532 ≤ n % 65536) ∧
    3 ≤ d.datasets.height ∧ d.datasets.height ≤ 65535 ∧
    ∀ stats, (d.apply (.loaded stats)).datasets.height < d.datasets.height ↔ n % 65536 = 65535 := by
  intro d n
  have hrows : d.datasets.rows = reports.filterMap Report.loaded? := rows_foldl_apply {} reports
  have hheight : d.datasets.height = min (n % 65536 + 3) 65535 := by
    rw [DatasetPanel.height_eq, hrows]
  refine ⟨hrows, ?_, ?_, ?_, fun stats => ?_⟩
  · rw [hheight]
    omega
  · rw [hheight]
    omega
  · rw [hheight]
    omega
  · have hnext : (d.apply (.loaded stats)).datasets.height = min ((n + 1) % 65536 + 3) 65535 := by
      rw [DatasetPanel.height_eq, rows_apply, hrows, List.length_append]
      rfl
    rw [hnext, hheight]
    omega

/-- After the last dataset that can be counted, the panel is back at the height of an empty one. -/
theorem height_of_too_many :
    let datasets (n : Nat) := List.replicate n (Report.loaded ⟨"S", "T", 0, 0, 0⟩)
    ((datasets 65535).foldl apply {}).datasets.height = 65535 ∧
      ((datasets 65536).foldl apply {}).datasets.height = 3 := by
  intro datasets
  have hheight (n : Nat) : ((datasets n).foldl apply {}).datasets.height =
      min (n % 65536 + 3) 65535 := by
    have hloaded : (datasets n).filterMap Report.loaded? = List.replicate n ⟨"S", "T", 0, 0, 0⟩ :=
      List.filterMap_replicate_of_some rfl
    rw [DatasetPanel.height_eq, rows_foldl_apply, hloaded, List.nil_append, List.length_replicate]
  exact ⟨hheight 65535, hheight 65536⟩

end Dashboard

end CardArchive.Screen
