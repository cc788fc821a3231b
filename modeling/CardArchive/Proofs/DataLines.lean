import CardArchive.Text.Lines
import Mathlib.Data.List.Basic

/-!
# Lines of a text

Bytes are cut into lines at their line feeds, one after the other. A text that is made of lines is
cut into the same lines, and each of them is decoded to what it was. Outside the ASCII characters no
byte is a line feed or a carriage return, so it is enough that the lines have neither as a
character.
-/

namespace CardArchive.Text

/-! ## Bytes of characters -/

theorem encode_eq (s : String) : encode s = s.toList.flatMap String.utf8EncodeChar := by
  rw [encode, String.toUTF8_eq_toByteArray, ← String.utf8Encode_toList, List.utf8Encode,
    List.toList_data_toByteArray]

theorem encode_append (s t : String) : encode (s ++ t) = encode s ++ encode t := by
  rw [encode_eq, encode_eq, encode_eq, String.toList_append, List.flatMap_append]

theorem encode_ne_nil {s : String} (h : s.toList ≠ []) : encode s ≠ [] := by
  rw [encode_eq]
  cases hs : s.toList with
  | nil => exact absurd hs h
  | cons c rest =>
    rw [List.flatMap_cons]
    exact List.append_ne_nil_of_left_ne_nil String.utf8EncodeChar_ne_nil _

/-- A text comes back from its bytes. -/
theorem decode_encode (s : String) : decode (encode s) = some s := by
  have hbytes : (⟨(encode s).toArray⟩ : ByteArray) = s.toByteArray := by
    rw [encode, Array.toArray_toList, String.toUTF8_eq_toByteArray]
  rw [decode, hbytes, String.fromUTF8?, dif_pos s.isValidUTF8]
  rfl

/-- A character that is no control character has no byte of one. -/
theorem le_toNat_of_mem_utf8EncodeChar {c : Char} (h : 0x20 ≤ c.toNat) {b : UInt8}
    (hb : b ∈ String.utf8EncodeChar c) : 0x20 ≤ b.toNat := by
  have hsize : c.val.toNat = c.toNat := rfl
  unfold String.utf8EncodeChar at hb
  simp only [hsize] at hb
  split at hb
  · cases List.mem_singleton.mp hb
    rw [UInt8.toNat_ofNat']
    omega
  · split at hb
    · simp only [List.mem_cons, List.not_mem_nil, or_false] at hb
      rcases hb with rfl | rfl <;> rw [UInt8.toNat_ofNat'] <;> omega
    · split at hb
      · simp only [List.mem_cons, List.not_mem_nil, or_false] at hb
        rcases hb with rfl | rfl | rfl <;> rw [UInt8.toNat_ofNat'] <;> omega
      · simp only [List.mem_cons, List.not_mem_nil, or_false] at hb
        rcases hb with rfl | rfl | rfl | rfl <;> rw [UInt8.toNat_ofNat'] <;> omega

/-! ## Cutting -/

theorem foldr_pushByte {line : List UInt8} (h : ∀ b ∈ line, b ≠ lineFeed) (next : List UInt8)
    (lines : List (List UInt8)) :
    line.foldr pushByte (false, next :: lines) = (false, (line ++ next) :: lines) := by
  induction line with
  | nil => rfl
  | cons b rest ih =>
    obtain ⟨hb, hrest⟩ := List.forall_mem_cons.mp h
    rw [List.foldr_cons, ih hrest]
    simp [pushByte, hb]

/-- A line feed ends a line, and a carriage return before it is dropped. -/
theorem splitLines_append_lineFeed {line : List UInt8} (h : ∀ b ∈ line, b ≠ lineFeed)
    (rest : List UInt8) :
    splitLines (line ++ lineFeed :: rest) = dropReturn line :: splitLines rest := by
  rw [splitLines, splitLines, List.foldr_append, List.foldr_cons]
  rcases rest.foldr pushByte (false, []) with ⟨ends, lines⟩
  have hfeed : pushByte lineFeed (ends, lines) = (true, [] :: lines) := by simp [pushByte]
  rw [hfeed]
  -- only the byte before the line feed meets it
  rcases line.eq_nil_or_concat' with rfl | ⟨init, last, rfl⟩
  · rfl
  · obtain ⟨hinit, hlast⟩ := List.forall_mem_append.mp h
    rw [List.forall_mem_singleton] at hlast
    rw [List.foldr_append, List.foldr_cons, List.foldr_nil, dropReturn, List.getLast?_concat,
      List.dropLast_concat]
    by_cases hreturn : last = carriageReturn
    · rw [if_pos (congrArg some hreturn)]
      have hpush : pushByte last (true, [] :: lines) = (false, [] :: lines) := by
        simp [pushByte, hreturn]
        decide
      rw [hpush, foldr_pushByte hinit, List.append_nil]
    · rw [if_neg (by simpa using hreturn)]
      have hpush : pushByte last (true, [] :: lines) = (false, [last] :: lines) := by
        simp [pushByte, hlast, hreturn]
      rw [hpush, foldr_pushByte hinit]

theorem splitLines_of_no_lineFeed {line : List UInt8} (h : ∀ b ∈ line, b ≠ lineFeed)
    (hne : line ≠ []) : splitLines line = [line] := by
  obtain ⟨init, last, rfl⟩ := line.eq_nil_or_concat'.resolve_left hne
  obtain ⟨hinit, hlast⟩ := List.forall_mem_append.mp h
  rw [List.forall_mem_singleton] at hlast
  have hpush : pushByte last (false, []) = (false, [[last]]) := by simp [pushByte, hlast]
  rw [splitLines, List.foldr_append, List.foldr_cons, List.foldr_nil, hpush, foldr_pushByte hinit]

/-! ## Lines without line ends in them -/

/-- The bytes of a line have no line ends among them. -/
def Unbroken (line : List UInt8) : Prop := ∀ b ∈ line, b ≠ lineFeed ∧ b ≠ carriageReturn

theorem unbroken_encode {s : String} (h : ∀ c ∈ s.toList, 0x20 ≤ c.toNat) :
    Unbroken (encode s) := by
  intro b hb
  rw [encode_eq] at hb
  obtain ⟨c, hc, hb⟩ := List.mem_flatMap.mp hb
  have hle := le_toNat_of_mem_utf8EncodeChar (h c hc) hb
  constructor
  · rintro rfl
    exact absurd hle (by decide)
  · rintro rfl
    exact absurd hle (by decide)

theorem Unbroken.dropReturn_eq {line : List UInt8} (h : Unbroken line) : dropReturn line = line :=
  if_neg fun hlast => (h _ (List.mem_of_getLast? hlast)).2 rfl

/-- Lines with line feeds between them are cut into these lines, unless the last is empty. -/
theorem splitLines_intercalate {lines : List (List UInt8)} (h : ∀ line ∈ lines, Unbroken line)
    (hne : ∀ line ∈ lines, line ≠ []) :
    splitLines ([lineFeed].intercalate lines) = lines := by
  induction lines with
  | nil => rfl
  | cons line rest ih =>
    obtain ⟨hline, hrest⟩ := List.forall_mem_cons.mp h
    obtain ⟨hline', hrest'⟩ := List.forall_mem_cons.mp hne
    have hfeed : ∀ b ∈ line, b ≠ lineFeed := fun b hb => (hline b hb).1
    cases rest with
    | nil =>
      rw [List.intercalate_singleton]
      exact splitLines_of_no_lineFeed hfeed hline'
    | cons next rest =>
      rw [List.intercalate_cons_cons, List.append_assoc, List.singleton_append,
        splitLines_append_lineFeed hfeed, hline.dropReturn_eq, ih hrest hrest']

theorem encode_intercalate (lines : List String) :
    encode ("\n".intercalate lines) = [lineFeed].intercalate (lines.map encode) := by
  have hfeed : encode "\n" = [lineFeed] := by decide
  induction lines with
  | nil => rfl
  | cons line rest ih =>
    cases rest with
    | nil => rw [String.intercalate_singleton, List.map_singleton, List.intercalate_singleton]
    | cons next rest =>
      rw [String.intercalate_cons_cons, encode_append, encode_append, ih, hfeed, List.map_cons,
        List.map_cons, List.map_cons, List.intercalate_cons_cons]

/-- A text of lines without control characters is cut into these lines. -/
theorem splitLines_encode_intercalate {lines : List String}
    (h : ∀ line ∈ lines, ∀ c ∈ line.toList, 0x20 ≤ c.toNat)
    (hne : ∀ line ∈ lines, line.toList ≠ []) :
    splitLines (encode ("\n".intercalate lines)) = lines.map encode := by
  rw [encode_intercalate]
  refine splitLines_intercalate (fun line hline => ?_) fun line hline => ?_
  · obtain ⟨s, hs, rfl⟩ := List.mem_map.mp hline
    exact unbroken_encode (h s hs)
  · obtain ⟨s, hs, rfl⟩ := List.mem_map.mp hline
    exact encode_ne_nil (hne s hs)

end CardArchive.Text
