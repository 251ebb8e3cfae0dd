/-
The lines of standard input. `Lines` says what the lines of some bytes
are, without the fuel and the cutting of the reader: bytes up to a line
feed are a line, the feed apart, and so are bytes behind the last feed,
if there are any. The reader finds these lines and no others
(`lines_iff`).

# Texts as lines

A text that is written with its end and read again may come back
shorter: a carriage return that it ends with counts as part of the line
feed. That is all, since no byte of a longer character is a line feed or
a carriage return (`encodeChar_cases`); and the return is a blank, so
what comes back is the same text once both are trimmed
(`trim_withoutReturn`).
-/
import DiceNotation.Terminal
import Mathlib.Data.List.TakeWhile

namespace DiceNotation.Terminal

-- ================================================================ bytes

/-- The bytes of a text. -/
def bytesOf (text : List Char) : List UInt8 :=
  text.flatMap String.utf8EncodeChar

/-- The list of an array of bytes goes on where a part of it was already
taken, which stands in reverse. -/
theorem toList_loop (bytes : ByteArray) (i : Nat) (taken : List UInt8) :
    ByteArray.toList.loop bytes i taken
      = taken.reverse ++ bytes.data.toList.drop i := by
  fun_induction ByteArray.toList.loop bytes i taken with
  | case1 i taken hlt ih =>
      have hlength : i < bytes.data.toList.length := by simpa using hlt
      have hget : bytes.get! i = bytes.data.toList[i] :=
        getElem!_pos bytes.data i hlt
      rw [ih, List.drop_eq_getElem_cons hlength, hget, List.reverse_cons,
        List.append_assoc, List.singleton_append]
  | case2 i taken hge =>
      rw [List.drop_eq_nil_of_le (by simpa using Nat.le_of_not_lt hge),
        List.append_nil]

theorem toList_eq_data (bytes : ByteArray) :
    bytes.toList = bytes.data.toList :=
  toList_loop bytes 0 []

theorem length_toList (bytes : ByteArray) :
    bytes.toList.length = bytes.size := by
  rw [toList_eq_data]
  exact Array.length_toList

theorem toList_toUTF8 (text : String) :
    text.toUTF8.toList = bytesOf text.toList := by
  rw [String.toUTF8_eq_toByteArray, ← String.utf8Encode_toList,
    toList_eq_data]
  exact List.toList_data_toByteArray

/-- The bytes of a text encode that text. -/
theorem decode_bytesOf (text : List Char) :
    decode (bytesOf text) = some (String.ofList text) := by
  have hbytes : (⟨(bytesOf text).toArray⟩ : ByteArray)
      = text.utf8Encode := by
    apply ByteArray.ext
    exact List.data_toByteArray.symm
  unfold decode String.fromUTF8?
  rw [hbytes, dif_pos ByteArray.isValidUTF8_utf8Encode]
  rfl

/-- A character of ASCII is one byte, its number; the bytes of other
characters are beyond ASCII. -/
theorem encodeChar_cases (c : Char) :
    (c.toNat < 0x80 ∧ String.utf8EncodeChar c = [UInt8.ofNat c.toNat])
      ∨ (∀ b ∈ String.utf8EncodeChar c, 0x80 ≤ b.toNat) := by
  have hval : c.val.toNat = c.toNat := rfl
  unfold String.utf8EncodeChar
  simp only [hval]
  split
  · exact .inl ⟨by omega, rfl⟩
  · right
    split
    · simp only [List.forall_mem_cons, UInt8.toNat_ofNat']
      exact ⟨by omega, by omega, by simp⟩
    · split
      · simp only [List.forall_mem_cons, UInt8.toNat_ofNat']
        exact ⟨by omega, by omega, by omega, by simp⟩
      · simp only [List.forall_mem_cons, UInt8.toNat_ofNat']
        exact ⟨by omega, by omega, by omega, by omega, by simp⟩

/-- A byte of ASCII keeps its number. -/
theorem ascii_toNat {n : Nat} (h : n < 0x80) : (UInt8.ofNat n).toNat = n := by
  rw [UInt8.toNat_ofNat']
  omega

/-- A byte of ASCII in a character is that character. -/
theorem eq_of_byte_mem {c : Char} (mark : Char) (hmark : mark.toNat < 0x80)
    (h : UInt8.ofNat mark.toNat ∈ String.utf8EncodeChar c) : c = mark := by
  rcases encodeChar_cases c with ⟨hascii, hencode⟩ | hbeyond
  · rw [hencode, List.mem_singleton, ← UInt8.toNat_inj, ascii_toNat hmark,
      ascii_toNat hascii] at h
    rw [← Char.ofNat_toNat c, ← h, Char.ofNat_toNat]
  · have hlow := hbeyond _ h
    rw [ascii_toNat hmark] at hlow
    omega

/-- A text without a line feed has no byte that is one. -/
theorem feed_not_mem {text : List Char} (h : '\n' ∉ text) :
    10 ∉ bytesOf text := by
  intro hmem
  obtain ⟨c, hc, hbyte⟩ := List.mem_flatMap.1 hmem
  rw [eq_of_byte_mem '\n' (by decide) hbyte] at hc
  exact h hc

-- ====================================================== carriage returns

/-- A text without a carriage return at its end. -/
def withoutReturn (text : List Char) : List Char :=
  if text.getLast? = some '\r' then text.dropLast else text

/-- A text and its bytes end in a carriage return together. -/
theorem dropReturn_bytesOf (text : List Char) :
    dropReturn (bytesOf text) = bytesOf (withoutReturn text) := by
  rcases List.eq_nil_or_concat text with rfl | ⟨front, c, rfl⟩
  · rfl
  rw [List.concat_eq_append]
  have hbytes : bytesOf (front ++ [c])
      = bytesOf front ++ String.utf8EncodeChar c := by
    simp [bytesOf]
  unfold dropReturn withoutReturn
  rw [List.getLast?_concat, List.dropLast_concat]
  by_cases hreturn : c = '\r'
  · subst hreturn
    have hencode : String.utf8EncodeChar '\r' = [13] := rfl
    rw [hbytes, hencode, if_pos rfl, List.getLast?_concat, if_pos rfl,
      List.dropLast_concat]
  · -- the last byte is one of the last character, which has at least one
    have hother : (bytesOf (front ++ [c])).getLast? ≠ some 13 := by
      intro h
      rw [hbytes, List.getLast?_append,
        List.getLast?_eq_some_getLast String.utf8EncodeChar_ne_nil,
        Option.some_or] at h
      injection h with h
      have hmem := List.getLast_mem (String.utf8EncodeChar_ne_nil (c := c))
      rw [h] at hmem
      exact hreturn (eq_of_byte_mem '\r' (by decide) hmem)
    rw [if_neg hother, if_neg (by simpa using hreturn)]

/-- A carriage return at the end is no part of the trimmed text. -/
theorem trim_withoutReturn (text : List Char) :
    Text.trim (withoutReturn text) = Text.trim text := by
  rcases List.eq_nil_or_concat text with rfl | ⟨front, c, rfl⟩
  · rfl
  rw [List.concat_eq_append]
  unfold withoutReturn
  rw [List.getLast?_concat, List.dropLast_concat]
  by_cases hreturn : c = '\r'
  · subst hreturn
    rw [if_pos rfl]
    unfold Text.trim Text.dropTrailingBlank Text.skipBlank
    rw [List.dropWhile_append]
    split
    · next hblank =>
        rw [List.isEmpty_iff.1 hblank]
        rfl
    · rw [List.reverse_append, List.reverse_singleton,
        List.singleton_append, List.dropWhile_cons_of_pos rfl]
  · rw [if_neg (by simpa using hreturn)]

-- ================================================================ lines

/-- The lines of bytes, each as the text it encodes, or missing if it
encodes none. A carriage return in front of a line feed belongs to
it. -/
inductive Lines : List UInt8 → List (Option String) → Prop
  | none : Lines [] []
  | last {line : List UInt8} (some : line ≠ []) (noFeed : 10 ∉ line) :
      Lines line [decode line]
  | more {line rest : List UInt8} {lines : List (Option String)}
      (noFeed : 10 ∉ line) (others : Lines rest lines) :
      Lines (line ++ 10 :: rest) (decode (dropReturn line) :: lines)

/-- All bytes are the bytes of lines. -/
theorem exists_lines (bytes : List UInt8) : ∃ lines, Lines bytes lines := by
  by_cases hfeed : 10 ∈ bytes
  · obtain ⟨line, rest, hsplit, hline⟩ := List.eq_append_cons_of_mem hfeed
    obtain ⟨lines, hlines⟩ := exists_lines rest
    rw [hsplit]
    exact ⟨_, .more hline hlines⟩
  · cases bytes with
    | nil => exact ⟨_, .none⟩
    | cons byte bytes => exact ⟨_, .last (List.cons_ne_nil _ _) hfeed⟩
termination_by bytes.length
decreasing_by
  rw [hsplit, List.length_append, List.length_cons]
  omega

/-- No byte of a line stops the search for its end. -/
theorem ne_feed_of_not_mem {line : List UInt8} (h : 10 ∉ line) :
    ∀ byte ∈ line, (byte != 10) = true := by
  intro byte hbyte
  rw [bne_iff_ne]
  rintro rfl
  exact h hbyte

theorem splitLine_of_not_mem {line : List UInt8} (h : 10 ∉ line) :
    splitLine line = (line, none) := by
  have hall := ne_feed_of_not_mem h
  have hnone := List.dropWhile_eq_nil_iff.2 hall
  unfold splitLine
  rw [hnone, List.takeWhile_eq_self_iff.2 hall]

theorem splitLine_append {line : List UInt8} (h : 10 ∉ line)
    (rest : List UInt8) : splitLine (line ++ 10 :: rest) = (line, some rest)
    := by
  have hall := ne_feed_of_not_mem h
  unfold splitLine
  rw [List.takeWhile_append_of_pos hall, List.dropWhile_append_of_pos hall,
    List.takeWhile_cons_of_neg (by simp),
    List.dropWhile_cons_of_neg (by simp), List.append_nil]

/-- With fuel for each byte, the lines that are read are the lines. -/
theorem Lines.eq_linesWithin {bytes : List UInt8}
    {lines : List (Option String)} (h : Lines bytes lines) {fuel : Nat}
    (hfuel : bytes.length ≤ fuel) : linesWithin fuel bytes = lines := by
  induction h generalizing fuel with
  | none => rw [linesWithin]
  | @last line some noFeed =>
      obtain ⟨byte, bytes, rfl⟩ := List.exists_cons_of_ne_nil some
      cases fuel with
      | zero => cases hfuel
      | succ fuel => rw [linesWithin, splitLine_of_not_mem noFeed]; simp
  | @more line rest lines noFeed _ ih =>
      rw [List.length_append, List.length_cons] at hfuel
      cases fuel with
      | zero => omega
      | succ fuel =>
          rw [linesWithin, splitLine_append noFeed]
          · exact congrArg _ (ih (by omega))
          · simp

/-- The lines of standard input are those of its bytes. -/
theorem lines_iff (input : ByteArray) (lines : List (Option String)) :
    Lines input.toList lines ↔ linesOf input = lines := by
  have hfuel : input.toList.length ≤ input.size :=
    Nat.le_of_eq (length_toList input)
  constructor
  · intro h
    exact h.eq_linesWithin hfuel
  · rintro rfl
    obtain ⟨lines, hlines⟩ := exists_lines input.toList
    unfold linesOf
    rwa [hlines.eq_linesWithin hfuel]

-- ========================================================= written lines

/-- Lines as they are written, as characters. -/
theorem toList_textOf (lines : List String) :
    (Output.textOf lines).toList
      = lines.flatMap fun line => line.toList ++ ['\n'] := by
  have hfold : ∀ text : String,
      (lines.foldl (fun text line => text ++ line ++ "\n") text).toList
        = text.toList ++ lines.flatMap fun line => line.toList ++ ['\n'] := by
    induction lines with
    | nil => simp
    | cons line lines ih =>
        intro text
        rw [List.foldl_cons, ih, String.toList_append, String.toList_append,
          List.flatMap_cons, List.append_assoc, List.append_assoc,
          List.append_assoc]
        rfl
  exact hfold ""

/-- Texts without line feeds that are written as lines are the lines that
are read, up to a carriage return at the end of each. -/
theorem lines_textOf {lines : List String}
    (h : ∀ line ∈ lines, '\n' ∉ line.toList) :
    Lines (Output.textOf lines).toUTF8.toList
      (lines.map fun line =>
        some (String.ofList (withoutReturn line.toList))) := by
  rw [toList_toUTF8, toList_textOf]
  induction lines with
  | nil => exact .none
  | cons line lines ih =>
      obtain ⟨hline, hlines⟩ := List.forall_mem_cons.1 h
      have hbytes : bytesOf ((line :: lines).flatMap
            fun line => line.toList ++ ['\n'])
          = bytesOf line.toList ++ 10 :: bytesOf (lines.flatMap
              fun line => line.toList ++ ['\n']) := by
        unfold bytesOf
        rw [List.flatMap_cons, List.flatMap_append, List.flatMap_append,
          List.append_assoc]
        rfl
      rw [hbytes, List.map_cons, ← decode_bytesOf, ← dropReturn_bytesOf]
      exact .more (feed_not_mem hline) (ih hlines)

end DiceNotation.Terminal
