import Calc24.Lib.CharBuffer
import Calc24.Lib.Framing
import Calc24.Net.ByteBuffer

/-!
# The binary dump

`CAsyncLog::outputBinary` prints a buffer as rows of 32 bytes in hexadecimal, each with its number
in front, and puts the text on the queue of the log (`appsrc/AsyncLog.cpp`).  It hands pieces of 512
bytes to `formLog`, which fills an array of 1544 cells.  There the length of the text is counted in
`len`, while `strcat` looks for the end itself.

The two agree, no write is outside the array, and the loop never stops early (`Formed.formByte`).
What is printed after the first line is one row for every 32 bytes, numbered from `0` across all
pieces, and the digits of the rows are those of the buffer (`outputBinary_rows`).
-/

namespace Calc24

/-! ## Numbers as text -/

/-- `%06u`. -/
def decimal6 (n : ℕ) : Bytes :=
  decimalPadded 6 n

/-- `CAsyncLog::ullto4Str`: the number is printed as unsigned. -/
def ullto4Str (n : Int32) : Bytes :=
  decimal6 n.toUInt32.toNat

/-- What `operator<<` prints for a `long`. -/
def decimalLong (n : Int64) : Bytes :=
  if n < 0 then ascii "-" ++ decimal n.toInt.natAbs else decimal n.toInt.natAbs

def szchar : Bytes :=
  ascii "0123456789abcdef"

/-- The two digits of a byte. -/
def hexByte (b : UInt8) : Bytes :=
  [szchar.getD ((b >>> 4) &&& 0xf).toNat 0, szchar.getD (b &&& 0xf).toNat 0]

/-! ## One piece -/

/-- The local variables of `formLog`, and its parameter `index`. -/
structure FormLog where
  index : Int32
  szbuf : CharBuffer UInt8
  len : ℕ
  lsize : ℕ
  headlen : ℕ

namespace FormLog

/-- `szbuf[len++] = c`. -/
def put (s : FormLog) (c : UInt8) : FormLog :=
  { s with szbuf := s.szbuf.store s.len c, len := s.len + 1 }

/-- The number of the row, and a blank, are put together in `szhead` and appended with `strcat`. -/
def head (s : FormLog) : FormLog :=
  let szhead := (CharBuffer.zeroed UInt8 65).strncpy (ullto4Str s.index) 64
  let headlen := szhead.strlen
  let szhead := szhead.store headlen 32
  { s with
    index := s.index + 1
    szbuf := s.szbuf.strcat szhead.str
    len := s.len + (headlen + 1)
    headlen := headlen + 1 }

/-- The beginning of a row, which ends the row before it. -/
def beginRow (s : FormLog) : FormLog :=
  if s.lsize % 32 = 0 then (if s.headlen ≠ 0 then s.put LF else s).head else s

/-- One round of the loop of `formLog`. -/
def formByte (s : FormLog) (b : UInt8) : FormLog :=
  let s := s.beginRow
  let s := if s.lsize % 16 = 0 ∧ s.headlen ≠ 0 then s.put 32 else s
  let s := (s.put (szchar.getD ((b >>> 4) &&& 0xf).toNat 0)).put (szchar.getD (b &&& 0xf).toNat 0)
  { s with lsize := s.lsize + 1 }

/-- The loop, over the bytes that are left. -/
def formBytes (size_buf : ℕ) : FormLog → Bytes → FormLog
  | s, [] => s
  | s, b :: buffer => if s.len + 10 < size_buf then formBytes size_buf (s.formByte b) buffer else s

end FormLog

/-- `CAsyncLog::formLog`: the new value of `index`, and the array. -/
def formLog (index : Int32) (szbuf : CharBuffer UInt8) (size_buf : ℕ) (buffer : Bytes) :
    Int32 × CharBuffer UInt8 :=
  let s := FormLog.formBytes size_buf
    { index := index, szbuf := szbuf, len := 0, lsize := 0, headlen := 0 } buffer
  let s := (s.put LF).put 0
  (s.index, s.szbuf)

/-! ## The whole buffer -/

def PRINTSIZE : ℕ := 512

/-- The text so far, and as a ghost whether all writes to `szbuf` have been inside it. -/
structure BinaryDump where
  os : Bytes
  inBounds : Bool

/-- The loop of `outputBinary`, over the bytes that are left. -/
def outputPieces (index : Int32) (s : BinaryDump) (buffer : Bytes) : BinaryDump :=
  if buffer = [] then s
  else
    let szbuf := CharBuffer.zeroed UInt8 (PRINTSIZE * 3 + 8)
    let (index, szbuf) := formLog index szbuf (PRINTSIZE * 3 + 8) (buffer.take PRINTSIZE)
    outputPieces index { os := s.os ++ szbuf.str, inBounds := s.inBounds && szbuf.inBounds }
      (buffer.drop PRINTSIZE)
  termination_by buffer.length
  decreasing_by
    have hpos := List.length_pos_of_ne_nil ‹¬ buffer = []›
    rw [List.length_drop, PRINTSIZE]
    omega

/-- `CAsyncLog::outputBinary` for a buffer at some address: what it puts on the queue. -/
def outputBinary (address : Int64) (buffer : Bytes) : BinaryDump :=
  outputPieces 0
    { os := ascii "address[" ++ decimalLong address ++ ascii "] size[" ++ decimal buffer.length ++
        ascii "] \n"
      inBounds := true } buffer

/-! ## Reading a dump -/

/-- What follows the first line. -/
def afterFirstLine (text : Bytes) : Bytes :=
  (text.dropWhile fun c => c ≠ LF).drop 1

/-- The value of a digit. -/
def hexValue (c : UInt8) : Option UInt8 :=
  if 48 ≤ c ∧ c ≤ 57 then some (c - 48) else if 97 ≤ c ∧ c ≤ 102 then some (c - 87) else none

/-- The bytes that pairs of digits stand for. -/
def decodeHex : Bytes → Option Bytes
  | [] => some []
  | [_] => none
  | c :: c' :: text => do
    let high ← hexValue c
    let low ← hexValue c'
    let rest ← decodeHex text
    return (high <<< 4 ||| low) :: rest

/-- The digits of the rows from the number `r` on, each behind the row number, without blanks and
the line feed. -/
def rowDigits (r : ℕ) : List Bytes → Bytes
  | [] => []
  | row :: rows => ((row.drop (decimal6 r).length).filter fun c => c ≠ 32 ∧ c ≠ LF) ++
      rowDigits (r + 1) rows

/-! ## Digits -/

variable {n r i j : ℕ} {c : UInt8} {buffer rest text : Bytes} {s : FormLog}

lemma mem_decimal (h : c ∈ decimal n) : 48 ≤ c ∧ c ≤ 57 := by
  obtain ⟨digit, hdigit, rfl⟩ := List.mem_map.mp h
  have hrange := Nat.isDigit_of_mem_toDigits (by decide) (by decide) hdigit
  simp only [Char.isDigit, Bool.and_eq_true, decide_eq_true_eq, ge_iff_le, UInt32.le_iff_toNat_le]
    at hrange
  have hsmall : digit.toNat < 256 := by
    have hupper : digit.toNat ≤ 57 := hrange.2
    omega
  rw [UInt8.le_iff_toNat_le, UInt8.le_iff_toNat_le, UInt8.toNat_ofNat_of_lt' hsmall]
  exact hrange

lemma mem_decimal6 (h : c ∈ decimal6 n) : 48 ≤ c ∧ c ≤ 57 := by
  rcases List.mem_append.mp h with hpad | hdigit
  · rw [List.eq_of_mem_replicate hpad]
    decide
  · exact mem_decimal hdigit

/-- Digits are neither the end of a string nor a blank nor a line feed. -/
lemma digit_ne {c' : UInt8} (h : 48 ≤ c ∧ c ≤ 57) (hc' : c' < 48) : c ≠ c' := by
  rintro rfl
  exact absurd hc' (UInt8.not_lt.mpr h.1)

/-- Blanks, line feeds and zeros are no digits. -/
lemma notMem_decimal6 (h : c < 48) : c ∉ decimal6 n :=
  fun hmem => digit_ne (mem_decimal6 hmem) h rfl

/-- The number of a row has at least six digits, and at most ten as it is no negative `int`. -/
lemma length_decimal6 (h : n < 2 ^ 31) : 6 ≤ (decimal6 n).length ∧ (decimal6 n).length ≤ 10 := by
  have hdecimal : (decimal n).length ≤ 10 := by
    rw [decimal, List.length_map, Nat.length_toDigits_le_iff (by decide) (by decide)]
    omega
  rw [decimal6, decimalPadded, List.length_leftpad]
  omega

/-- The sixteen digits. -/
lemma digit_spec : ∀ i < 16, hexValue (szchar.getD i 0) = some (UInt8.ofNat i) ∧
    szchar.getD i 0 ≠ 0 ∧ szchar.getD i 0 ≠ 32 ∧ szchar.getD i 0 ≠ LF := by
  decide

/-- A byte is made of its two halves. -/
lemma halves : ∀ b : UInt8, ((b >>> 4) &&& 0xf).toNat < 16 ∧ (b &&& 0xf).toNat < 16 ∧
    ((b >>> 4) &&& 0xf) <<< 4 ||| (b &&& 0xf) = b := by
  decide +kernel

/-- The digits of a byte are neither the end of a text nor a blank nor a line feed. -/
lemma mem_hexByte (b c : UInt8) (hc : c ∈ hexByte b) : c ≠ 0 ∧ c ≠ 32 ∧ c ≠ LF := by
  obtain ⟨hhigh, hlow, -⟩ := halves b
  rcases List.mem_cons.mp hc with rfl | hc
  · exact (digit_spec _ hhigh).2
  · rw [List.mem_singleton.mp hc]
    exact (digit_spec _ hlow).2

/-- The digits of some bytes stand for these bytes. -/
lemma decodeHex_flatMap (buffer : Bytes) : decodeHex (buffer.flatMap hexByte) = some buffer := by
  induction buffer with
  | nil => rfl
  | cons b buffer ih =>
    obtain ⟨hhigh, hlow, hbyte⟩ := halves b
    rw [List.flatMap_cons, hexByte, List.cons_append, List.cons_append, List.nil_append, decodeHex,
      (digit_spec _ hhigh).1, (digit_spec _ hlow).1, ih, UInt8.ofNat_toNat, UInt8.ofNat_toNat]
    exact congrArg (fun b => some (b :: buffer)) hbyte

/-! ## One piece -/

/-- What the beginning of a row adds at the position `j` of a piece whose first row has the number
`r`. -/
def rowHead (r j : ℕ) : Bytes :=
  if j % 32 = 0 then (if j = 0 then [] else [LF]) ++ (decimal6 (r + j / 32) ++ [32]) else []

/-- What a round of the loop adds for the byte at the position `j`. -/
def entryText (r j : ℕ) (b : UInt8) : Bytes :=
  rowHead r j ++ ((if j % 16 = 0 then [32] else []) ++ hexByte b)

/-- What the loop adds for the bytes from the position `j` on. -/
def entriesText (r : ℕ) : ℕ → Bytes → Bytes
  | _, [] => []
  | j, b :: buffer => entryText r j b ++ entriesText r (j + 1) buffer

namespace FormLog

/-- The loop has come to the position `j` and has put `text` into the array. -/
structure Formed (r j : ℕ) (text : Bytes) (s : FormLog) : Prop where
  holds : CharBuffer.Holds (PRINTSIZE * 3 + 8) text s.szbuf
  len : s.len = text.length
  lsize : s.lsize = j
  index : s.index = Int32.ofNat (r + (j + 31) / 32)
  headlen : s.headlen = 0 ↔ j = 0
  short : text.length ≤ 2 * j + (j + 15) / 16 + 12 * ((j + 31) / 32)

/-- The part of `Formed` that holds inside a round too. -/
structure Filled (text : Bytes) (s : FormLog) : Prop where
  holds : CharBuffer.Holds (PRINTSIZE * 3 + 8) text s.szbuf
  len : s.len = text.length

/-- A character that fits is added to the text. -/
lemma Filled.put (h : Filled text s) (hc : c ≠ 0) (hroom : text.length < PRINTSIZE * 3 + 8) :
    Filled (text ++ [c]) (s.put c) where
  holds := by
    rw [FormLog.put, h.len]
    exact h.holds.store hc hroom
  len := by rw [FormLog.put, h.len, List.length_append, List.length_singleton]

/-- A character is put where a condition says so. -/
lemma Filled.put_if (h : Filled text s) {p : Prop} [Decidable p] (hc : c ≠ 0)
    (hroom : text.length < PRINTSIZE * 3 + 8) :
    Filled (text ++ if p then [c] else []) (if p then s.put c else s) := by
  split
  · exact h.put hc hroom
  · rwa [List.append_nil]

/-- The number of the row is appended, whatever the length of the number. -/
lemma Filled.head (h : Filled text s) (hindex : s.index = Int32.ofNat n) (hn : n < 2 ^ 31)
    (hroom : text.length + 12 ≤ PRINTSIZE * 3 + 8) :
    Filled (text ++ (decimal6 n ++ [32])) s.head := by
  have hstr : ullto4Str s.index = decimal6 n := by
    rw [ullto4Str, hindex, Int32.toUInt32_ofNat', UInt32.toNat_ofNat_of_lt' (hn.trans (by decide))]
  obtain ⟨-, hlength⟩ := length_decimal6 hn
  have hnumber : CharBuffer.Holds 65 (decimal6 n)
      ((CharBuffer.zeroed UInt8 65).strncpy (decimal6 n) 64) :=
    CharBuffer.holds_strncpy (notMem_decimal6 (by decide)) (by omega) (by decide)
  have hhead := hnumber.store (c := 32) (by decide) (by omega)
  constructor
  · simp only [FormLog.head, hstr, hnumber.strlen_eq, hhead.str_eq]
    apply h.holds.strcat hhead.zero_notMem
    rw [List.length_append, List.length_singleton]
    omega
  · simp only [FormLog.head, hstr, hnumber.strlen_eq, h.len, List.length_append,
      List.length_singleton]

@[simp] lemma head_index (s : FormLog) : s.head.index = s.index + 1 := rfl

/-- The beginning of a row has at most twelve characters: a line feed, the number and a blank. -/
lemma length_rowHead (hindex : r + j / 32 < 2 ^ 31) :
    (rowHead r j).length ≤ if j % 32 = 0 then 12 else 0 := by
  obtain ⟨-, hlength⟩ := length_decimal6 hindex
  rw [rowHead]
  split
  · have hline : (if j = 0 then [] else [LF]).length ≤ 1 := by split <;> simp
    rw [List.length_append, List.length_append, List.length_singleton]
    omega
  · exact le_refl _

/-- After the beginning of a row there is a number in front of the bytes to come. -/
lemma Formed.beginRow (h : Formed r j text s) (hindex : r + j / 32 < 2 ^ 31)
    (hroom : text.length + 13 ≤ PRINTSIZE * 3 + 8) :
    Filled (text ++ rowHead r j) s.beginRow ∧ s.beginRow.lsize = j ∧
      s.beginRow.index = Int32.ofNat (r + (j + 1 + 31) / 32) ∧ s.beginRow.headlen ≠ 0 := by
  have hfilled : Filled text s := ⟨h.holds, h.len⟩
  rw [rowHead, FormLog.beginRow, h.lsize]
  by_cases hrow : j % 32 = 0
  · have hline : Filled (text ++ if j = 0 then [] else [LF])
        (if s.headlen ≠ 0 then s.put LF else s) := by
      by_cases hj : j = 0
      · rw [if_pos hj, List.append_nil, if_neg (not_not.mpr (h.headlen.mpr hj))]
        exact hfilled
      · rw [if_neg hj, if_pos fun hzero => hj (h.headlen.mp hzero)]
        exact hfilled.put (by decide) (by omega)
    have hline_index : (if s.headlen ≠ 0 then s.put LF else s).index = Int32.ofNat (r + j / 32) := by
      have hround : (j + 31) / 32 = j / 32 := by omega
      rw [← hround, ← h.index]
      split <;> rfl
    have hline_lsize : (if s.headlen ≠ 0 then s.put LF else s).lsize = j := by
      rw [← h.lsize]
      split <;> rfl
    have hline_length : (text ++ if j = 0 then [] else [LF]).length ≤ text.length + 1 := by
      rw [List.length_append]
      split <;> simp
    rw [if_pos hrow, if_pos hrow, ← List.append_assoc]
    refine ⟨hline.head hline_index hindex (by omega), hline_lsize, ?_, Nat.succ_ne_zero _⟩
    have hnext : r + (j + 1 + 31) / 32 = r + j / 32 + 1 := by omega
    rw [head_index, hline_index, hnext, Int32.ofNat_add (r + j / 32) 1]
    rfl
  · have hround : (j + 1 + 31) / 32 = (j + 31) / 32 := by omega
    rw [if_neg hrow, if_neg hrow, List.append_nil, hround]
    exact ⟨hfilled, h.lsize, h.index, fun hzero => hrow (by rw [h.headlen.mp hzero])⟩

/-- **One round adds the two digits of its byte**, with what has to be in front of them. -/
lemma Formed.formByte (h : Formed r j text s) (b : UInt8) (hindex : r + j / 32 < 2 ^ 31)
    (hj : j < PRINTSIZE) : Formed r (j + 1) (text ++ entryText r j b) (s.formByte b) := by
  have hshort := h.short
  have hsize : PRINTSIZE * 3 + 8 = 1544 := rfl
  have hj' : j < 512 := hj
  obtain ⟨hrow, hlsize, hindex', hheadlen⟩ := h.beginRow hindex (by omega)
  have hrowHead := length_rowHead hindex
  have hrow_length : (text ++ rowHead r j).length ≤ text.length + if j % 32 = 0 then 12 else 0 := by
    rw [List.length_append]
    omega
  have hblank_length : (if j % 16 = 0 then [(32 : UInt8)] else []).length =
      if j % 16 = 0 then 1 else 0 := by
    split <;> rfl
  set s₁ := s.beginRow with hs₁
  have hblank : Filled (text ++ rowHead r j ++ if j % 16 = 0 then [(32 : UInt8)] else [])
      (if s₁.lsize % 16 = 0 ∧ s₁.headlen ≠ 0 then s₁.put 32 else s₁) := by
    simp only [hlsize, ne_eq, hheadlen, not_false_iff, and_true]
    exact hrow.put_if (by decide) (by split at hrow_length <;> omega)
  set s₂ := if s₁.lsize % 16 = 0 ∧ s₁.headlen ≠ 0 then s₁.put 32 else s₁ with hs₂
  have hs₂_fields : s₂.lsize = s₁.lsize ∧ s₂.index = s₁.index ∧ s₂.headlen = s₁.headlen := by
    rw [hs₂]
    split <;> exact ⟨rfl, rfl, rfl⟩
  have hdigit : ∀ c ∈ hexByte b, c ≠ 0 := fun c hc => (mem_hexByte b c hc).1
  have hblank_room : (text ++ rowHead r j ++ if j % 16 = 0 then [(32 : UInt8)] else []).length ≤
      2 * j + (j + 1 + 15) / 16 + 12 * ((j + 1 + 31) / 32) := by
    rw [List.length_append, hblank_length]
    split at hrow_length <;> split <;> omega
  have hhigh := hblank.put (hdigit _ (List.mem_cons_self ..)) (by omega)
  have hlow := hhigh.put (hdigit _ (List.mem_cons_of_mem _ (List.mem_singleton_self _)))
    (by rw [List.length_append, List.length_singleton]; omega)
  have htext : text ++ entryText r j b = text ++ rowHead r j ++
      (if j % 16 = 0 then [(32 : UInt8)] else []) ++ [szchar.getD ((b >>> 4) &&& 0xf).toNat 0] ++
        [szchar.getD (b &&& 0xf).toNat 0] := by
    simp only [entryText, hexByte, List.append_assoc, List.cons_append, List.nil_append]
  rw [htext]
  refine ⟨hlow.holds, hlow.len, ?_, ?_, ?_, ?_⟩
  · exact congrArg (· + 1) (hs₂_fields.1.trans hlsize)
  · exact hs₂_fields.2.1.trans hindex'
  · exact iff_of_false (fun hzero => hheadlen (hs₂_fields.2.2.symm.trans hzero)) (Nat.succ_ne_zero j)
  · rw [List.length_append, List.length_append, List.length_singleton, List.length_singleton]
    omega

/-- The whole loop: it does not stop before the end of the piece. -/
lemma Formed.formBytes (h : Formed r j text s) (buffer : Bytes)
    (hlength : j + buffer.length ≤ PRINTSIZE)
    (hindex : r + (j + buffer.length) / 32 < 2 ^ 31) :
    Formed r (j + buffer.length) (text ++ entriesText r j buffer)
      (s.formBytes (PRINTSIZE * 3 + 8) buffer) := by
  induction buffer generalizing j text s with
  | nil => simpa [entriesText, FormLog.formBytes] using h
  | cons b buffer ih =>
    rw [List.length_cons] at hlength hindex
    have hroom : s.len + 10 < PRINTSIZE * 3 + 8 := by
      have hshort := h.short
      have hlen := h.len
      rw [PRINTSIZE] at hlength ⊢
      omega
    have hbyte := h.formByte b (by omega) (by omega)
    have hrest := ih hbyte (by omega) (by omega)
    rw [FormLog.formBytes, if_pos hroom, entriesText, List.length_cons, ← List.append_assoc,
      Nat.add_comm buffer.length 1, ← Nat.add_assoc]
    exact hrest

end FormLog

/-- A call of `formLog` on a zeroed array. -/
lemma formLog_eq (r : ℕ) (buffer : Bytes) (hlength : buffer.length ≤ PRINTSIZE)
    (hindex : r + buffer.length / 32 < 2 ^ 31) :
    (formLog (Int32.ofNat r) (CharBuffer.zeroed UInt8 (PRINTSIZE * 3 + 8)) (PRINTSIZE * 3 + 8)
        buffer).1 = Int32.ofNat (r + (buffer.length + 31) / 32) ∧
      CharBuffer.Holds (PRINTSIZE * 3 + 8) (entriesText r 0 buffer ++ [LF])
        (formLog (Int32.ofNat r) (CharBuffer.zeroed UInt8 (PRINTSIZE * 3 + 8)) (PRINTSIZE * 3 + 8)
          buffer).2 := by
  have hstart : FormLog.Formed r 0 []
      { index := Int32.ofNat r, szbuf := CharBuffer.zeroed UInt8 (PRINTSIZE * 3 + 8), len := 0,
        lsize := 0, headlen := 0 } :=
    ⟨CharBuffer.holds_zeroed _, rfl, rfl, rfl, Iff.rfl, le_refl _⟩
  have hend := hstart.formBytes buffer (by omega) (by rwa [Nat.zero_add])
  rw [List.nil_append, Nat.zero_add] at hend
  have hshort := hend.short
  have hsize : PRINTSIZE = 512 := rfl
  have hput := FormLog.Filled.put ⟨hend.holds, hend.len⟩ (c := LF) (by decide) (by omega)
  have hzero := hput.holds.store_zero (by
    rw [List.length_append, List.length_singleton]
    omega)
  rw [← hput.len] at hzero
  exact ⟨hend.index, hzero⟩

/-! ## Rows -/

/-- The bytes of a row from its position `j` on. -/
def bytesText : ℕ → Bytes → Bytes
  | _, [] => []
  | j, b :: buffer => (if j % 16 = 0 then [32] else []) ++ hexByte b ++ bytesText (j + 1) buffer

/-- A row without its line feed. -/
def rowText (r : ℕ) (buffer : Bytes) : Bytes :=
  decimal6 r ++ ([32] ++ bytesText 0 buffer)

/-- All rows, the first of them with the number `r`. -/
def dumpRows (r : ℕ) (buffer : Bytes) : List Bytes :=
  if buffer = [] then []
  else (rowText r (buffer.take 32) ++ [LF]) :: dumpRows (r + 1) (buffer.drop 32)
  termination_by buffer.length
  decreasing_by
    have hpos := List.length_pos_of_ne_nil ‹¬ buffer = []›
    rw [List.length_drop]
    omega

@[simp] lemma dumpRows_nil (r : ℕ) : dumpRows r [] = [] := by
  rw [dumpRows, if_pos rfl]

lemma dumpRows_of_ne_nil (h : buffer ≠ []) : dumpRows r buffer =
    (rowText r (buffer.take 32) ++ [LF]) :: dumpRows (r + 1) (buffer.drop 32) := by
  rw [dumpRows, if_neg h]

/-- The induction along the rows. -/
lemma rowInduction {motive : ℕ → Bytes → Prop} (nil : ∀ r, motive r [])
    (row : ∀ r buffer, buffer ≠ [] → motive (r + 1) (buffer.drop 32) → motive r buffer)
    (r : ℕ) (buffer : Bytes) : motive r buffer := by
  induction r, buffer using dumpRows.induct with
  | case1 r => exact nil r
  | case2 r buffer hne ih => exact row r buffer hne ih

/-- Only the position in the half of the row matters. -/
lemma bytesText_congr (h : i % 16 = j % 16) (buffer : Bytes) :
    bytesText i buffer = bytesText j buffer := by
  induction buffer generalizing i j with
  | nil => rfl
  | cons b buffer ih => rw [bytesText, bytesText, h, ih (i := i + 1) (j := j + 1) (by omega)]

/-- The loop inside a row. -/
lemma entriesText_inside (h : j % 32 ≠ 0) (buffer : Bytes) : entriesText r j buffer =
    bytesText j (buffer.take (32 - j % 32)) ++
      entriesText r (j + (32 - j % 32)) (buffer.drop (32 - j % 32)) := by
  induction buffer generalizing j with
  | nil => simp [entriesText, bytesText]
  | cons b buffer ih =>
    obtain ⟨rest, hrest⟩ : ∃ rest, 32 - j % 32 = rest + 1 := ⟨31 - j % 32, by omega⟩
    rw [hrest, List.take_succ_cons, List.drop_succ_cons, entriesText, bytesText, entryText, rowHead,
      if_neg h, List.nil_append]
    by_cases hlast : (j + 1) % 32 = 0
    · obtain rfl : rest = 0 := by omega
      simp [bytesText]
    · have hrest' : 32 - (j + 1) % 32 = rest := by omega
      rw [ih hlast, hrest']
      simp only [List.append_assoc]
      congr 4
      omega

/-- The loop over one row. -/
lemma entriesText_row (h : j % 32 = 0) (hne : buffer ≠ []) : entriesText r j buffer =
    (if j = 0 then [] else [LF]) ++ rowText (r + j / 32) (buffer.take 32) ++
      entriesText r (j + 32) (buffer.drop 32) := by
  obtain ⟨b, buffer, rfl⟩ := List.exists_cons_of_ne_nil hne
  have hmod : (j + 1) % 32 = 1 := by omega
  have hzero : j % 16 = 0 := by omega
  rw [entriesText, entriesText_inside (by omega), hmod, entryText, rowHead, if_pos h, if_pos hzero,
    rowText, List.take_succ_cons, List.drop_succ_cons, bytesText, if_pos (Nat.zero_mod 16),
    bytesText_congr (show (0 + 1) % 16 = (j + 1) % 16 by omega)]
  simp only [List.append_assoc]

/-- What the loop prints for a piece, with the line feed behind it, is a sequence of rows. -/
lemma entriesText_eq (h : j % 32 = 0) (hne : buffer ≠ []) : entriesText r j buffer ++ [LF] =
    (if j = 0 then [] else [LF]) ++ (dumpRows (r + j / 32) buffer).flatten := by
  induction hn : buffer.length using Nat.strong_induction_on generalizing j buffer with
  | _ n ih =>
    rw [entriesText_row h hne, dumpRows_of_ne_nil hne, List.flatten_cons]
    by_cases hrest : buffer.drop 32 = []
    · simp [hrest, entriesText]
    · have hlt : (buffer.drop 32).length < n := by
        have hpos := List.length_pos_of_ne_nil hne
        rw [List.length_drop]
        omega
      have hnext : r + (j + 32) / 32 = r + j / 32 + 1 := by omega
      have hrows := ih _ hlt (by omega) hrest rfl (j := j + 32)
      rw [if_neg (by omega), hnext] at hrows
      rw [List.append_assoc, hrows]
      simp only [List.append_assoc]

/-- Rows of whole pieces follow each other. -/
lemma dumpRows_append (k : ℕ) (hlength : buffer.length = 32 * k) (rest : Bytes) :
    dumpRows r (buffer ++ rest) = dumpRows r buffer ++ dumpRows (r + k) rest := by
  induction k generalizing r buffer with
  | zero =>
    obtain rfl := List.eq_nil_of_length_eq_zero hlength
    simp
  | succ k ih =>
    have hne : buffer ≠ [] := List.ne_nil_of_length_pos (by omega)
    rw [dumpRows_of_ne_nil hne, dumpRows_of_ne_nil (List.append_ne_nil_of_left_ne_nil hne rest),
      List.take_append_of_le_length (by omega), List.drop_append_of_le_length (by omega),
      ih (by rw [List.length_drop]; omega), List.cons_append, Nat.add_assoc, Nat.add_comm 1 k]

/-- **All pieces together are the rows of the whole buffer**, and no write is outside the array. -/
lemma outputPieces_eq (r : ℕ) (buffer : Bytes) (s : BinaryDump)
    (hindex : r + (buffer.length + 31) / 32 < 2 ^ 31) :
    outputPieces (Int32.ofNat r) s buffer =
      { os := s.os ++ (dumpRows r buffer).flatten, inBounds := s.inBounds } := by
  induction hn : buffer.length using Nat.strong_induction_on generalizing r s buffer with
  | _ n ih =>
    rw [outputPieces]
    split
    · next hnil => simp [hnil]
    · next hne =>
      have hpos := List.length_pos_of_ne_nil hne
      have hpiece : (buffer.take PRINTSIZE).length = min PRINTSIZE buffer.length :=
        List.length_take
      have hsize : PRINTSIZE = 512 := rfl
      obtain ⟨hnext, hholds⟩ := formLog_eq r (buffer.take PRINTSIZE) (by omega) (by omega)
      have hpiece_ne : buffer.take PRINTSIZE ≠ [] := List.ne_nil_of_length_pos (by omega)
      have hrows := entriesText_eq (r := r) (Nat.zero_mod 32) hpiece_ne
      rw [if_pos rfl, List.nil_append, Nat.zero_div, Nat.add_zero] at hrows
      simp only [hnext, hholds.str_eq, hholds.inBounds, Bool.and_true, hrows]
      rcases le_or_gt buffer.length PRINTSIZE with hlast | hmore
      · rw [List.take_of_length_le hlast, List.drop_of_length_le hlast, outputPieces, if_pos rfl]
      · have hfull : (buffer.take PRINTSIZE).length = 32 * 16 := by omega
        have hsplit := dumpRows_append (r := r) 16 hfull (buffer.drop PRINTSIZE)
        rw [List.take_append_drop] at hsplit
        have hrounds : (32 * 16 + 31) / 32 = 16 := rfl
        rw [hfull, hrounds, ih (buffer.drop PRINTSIZE).length (by rw [List.length_drop]; omega) _ _ _
          (by rw [List.length_drop]; omega) rfl, hsplit, List.flatten_append, List.append_assoc]

/-! ## What the rows say -/

/-- There is a row for every 32 bytes, and one for what is left. -/
lemma length_dumpRows (r : ℕ) (buffer : Bytes) :
    (dumpRows r buffer).length = (buffer.length + 31) / 32 := by
  induction r, buffer using rowInduction with
  | nil r => rw [dumpRows_nil, List.length_nil, List.length_nil]
  | row r buffer hne ih =>
    have hpos := List.length_pos_of_ne_nil hne
    rw [dumpRows_of_ne_nil hne, List.length_cons, ih, List.length_drop]
    omega

/-- The rows are numbered one after another. -/
lemma prefix_dumpRows (r : ℕ) (buffer : Bytes) :
    ∀ k row, (dumpRows r buffer)[k]? = some row → decimal6 (r + k) <+: row := by
  induction r, buffer using rowInduction with
  | nil r => simp
  | row r buffer hne ih =>
    intro k row hrow
    rw [dumpRows_of_ne_nil hne] at hrow
    cases k with
    | zero =>
      obtain rfl := Option.some.inj hrow
      rw [rowText, List.append_assoc]
      exact List.prefix_append _ _
    | succ k =>
      rw [List.getElem?_cons_succ] at hrow
      rw [← Nat.add_assoc, Nat.add_right_comm]
      exact ih k row hrow

/-- There is no line feed within a row. -/
lemma notMem_bytesText (j : ℕ) (buffer : Bytes) : LF ∉ bytesText j buffer := by
  induction buffer generalizing j with
  | nil => exact List.not_mem_nil
  | cons b buffer ih =>
    rw [bytesText, List.mem_append, List.mem_append, not_or, not_or]
    refine ⟨⟨?_, fun hmem => (mem_hexByte b LF hmem).2.2 rfl⟩, ih (j + 1)⟩
    split <;> decide

/-- A row ends with its only line feed. -/
lemma exists_of_mem_dumpRows (r : ℕ) (buffer : Bytes) :
    ∀ row ∈ dumpRows r buffer, ∃ body, LF ∉ body ∧ row = body ++ [LF] := by
  induction r, buffer using rowInduction with
  | nil r => simp
  | row r buffer hne ih =>
    rw [dumpRows_of_ne_nil hne]
    refine List.forall_mem_cons.mpr ⟨⟨_, ?_, rfl⟩, ih⟩
    rw [rowText, List.mem_append, List.mem_append, not_or, not_or]
    exact ⟨notMem_decimal6 (by decide), by decide, notMem_bytesText 0 _⟩

/-- Without blanks the digits are left. -/
lemma filter_bytesText (j : ℕ) (buffer : Bytes) :
    ((bytesText j buffer).filter fun c => c ≠ 32 ∧ c ≠ LF) = buffer.flatMap hexByte := by
  induction buffer generalizing j with
  | nil => rfl
  | cons b buffer ih =>
    have hblank : ((if j % 16 = 0 then [(32 : UInt8)] else []).filter
        fun c => c ≠ 32 ∧ c ≠ LF) = [] := by
      split <;> rfl
    have hdigits : ((hexByte b).filter fun c => c ≠ 32 ∧ c ≠ LF) = hexByte b :=
      List.filter_eq_self.mpr fun c hc => decide_eq_true (mem_hexByte b c hc).2
    rw [bytesText, List.filter_append, List.filter_append, hblank, hdigits, ih, List.flatMap_cons,
      List.nil_append]

/-- The digits of the rows are those of the bytes, in order. -/
lemma rowDigits_dumpRows (r : ℕ) (buffer : Bytes) :
    rowDigits r (dumpRows r buffer) = buffer.flatMap hexByte := by
  induction r, buffer using rowInduction with
  | nil r => rw [dumpRows_nil]; rfl
  | row r buffer hne ih =>
    have hlineFeed : ([LF].filter fun c => c ≠ 32 ∧ c ≠ LF) = [] := rfl
    have hblank : ([(32 : UInt8)].filter fun c => c ≠ 32 ∧ c ≠ LF) = [] := rfl
    rw [dumpRows_of_ne_nil hne, rowDigits, ih, rowText, List.append_assoc, List.drop_left,
      List.filter_append, List.filter_append, hlineFeed, hblank, filter_bytesText, List.nil_append,
      List.append_nil, ← List.flatMap_append, List.take_append_drop]

/-- The first line ends where it should. -/
lemma afterFirstLine_append (address : Int64) (size : ℕ) (text : Bytes) :
    afterFirstLine (ascii "address[" ++ decimalLong address ++ ascii "] size[" ++ decimal size ++
      ascii "] \n" ++ text) = text := by
  have hdecimal : ∀ n, LF ∉ decimal n := fun n hmem => digit_ne (mem_decimal hmem) (by decide) rfl
  have hlong : LF ∉ decimalLong address := by
    rw [decimalLong]
    split
    · rw [List.mem_append, not_or]
      exact ⟨by decide, hdecimal _⟩
    · exact hdecimal _
  have hline : ∀ c ∈ ascii "address[" ++ decimalLong address ++ ascii "] size[" ++ decimal size ++
      ascii "] ", decide (c ≠ LF) = true := by
    refine fun c hc => decide_eq_true fun heq => ?_
    subst heq
    simp only [List.mem_append] at hc
    rcases hc with (((hc | hc) | hc) | hc) | hc
    · exact absurd hc (by decide)
    · exact hlong hc
    · exact absurd hc (by decide)
    · exact hdecimal size hc
    · exact absurd hc (by decide)
  have hend : ascii "] \n" = ascii "] " ++ [LF] := by decide
  rw [afterFirstLine, hend, ← List.append_assoc, List.append_assoc _ [LF],
    List.dropWhile_append_of_pos hline]
  rfl

/-- **The dump of a buffer is one row for every 32 bytes, each with its number; the digits behind
the numbers are those of the buffer, and no write of `formLog` is outside its array.** -/
theorem outputBinary_rows (address : Int64) (h : buffer.length ≤ 32 * (2 ^ 31 - 1)) :
    (Framing.frames LF (afterFirstLine (outputBinary address buffer).os)).length =
        (buffer.length + 31) / 32 ∧
      Framing.residue LF (afterFirstLine (outputBinary address buffer).os) = [] ∧
      (∀ r row, (Framing.frames LF (afterFirstLine (outputBinary address buffer).os))[r]? =
        some row → decimal6 r <+: row) ∧
      decodeHex (rowDigits 0
        (Framing.frames LF (afterFirstLine (outputBinary address buffer).os))) = some buffer ∧
      (outputBinary address buffer).inBounds = true := by
  have hpieces := outputPieces_eq 0 buffer
    { os := ascii "address[" ++ decimalLong address ++ ascii "] size[" ++ decimal buffer.length ++
        ascii "] \n"
      inBounds := true } (by omega)
  have htext : outputBinary address buffer = _ := hpieces
  obtain ⟨hframes, hresidue⟩ := Framing.frames_flatten_append (exists_of_mem_dumpRows 0 buffer) []
  rw [List.append_nil, Framing.frames_nil, List.append_nil] at hframes
  rw [List.append_nil, Framing.residue_nil] at hresidue
  rw [htext, afterFirstLine_append, hframes]
  refine ⟨length_dumpRows 0 buffer, hresidue, fun r row hrow => ?_, ?_, rfl⟩
  · have hprefix := prefix_dumpRows 0 buffer r row hrow
    rwa [Nat.zero_add] at hprefix
  · rw [rowDigits_dumpRows, decodeHex_flatMap]

/-- A buffer of two rows. -/
theorem outputBinary_rows_twoRows :
    (Framing.frames LF (afterFirstLine (outputBinary 4096 (List.replicate 33 7)).os)).length = 2 ∧
      decodeHex (rowDigits 0 (Framing.frames LF
        (afterFirstLine (outputBinary 4096 (List.replicate 33 7)).os))) =
          some (List.replicate 33 7) ∧
      (outputBinary 4096 (List.replicate 33 7)).inBounds = true := by
  have hshort : (List.replicate 33 (7 : UInt8)).length ≤ 32 * (2 ^ 31 - 1) := by decide
  obtain ⟨hlength, -, -, hdigits, hinBounds⟩ := outputBinary_rows 4096 hshort
  exact ⟨hlength, hdigits, hinBounds⟩

end Calc24
