import Calc24.Lib.Framing

/-!
# `ByteBuffer`

The growable buffer behind both directions of a connection (`net/ByteBuffer.h`).  It wraps one
`std::string`; a moved-from string is empty, as in libstdc++.
-/

namespace Calc24

/-- A sequence of `char`. -/
abbrev Bytes := List UInt8

/-- The bytes of an ASCII string literal. -/
def ascii (s : String) : Bytes :=
  s.toList.map fun c => UInt8.ofNat c.toNat

/-- The decimal digits of a number. -/
def decimal (n : ℕ) : Bytes :=
  (Nat.toDigits 10 n).map fun c => UInt8.ofNat c.toNat

/-- The digits with zeros in front, as `printf` prints them for a width. -/
def decimalPadded (width n : ℕ) : Bytes :=
  (decimal n).leftpad width 48

/-- The line feed that ends a package. -/
def LF : UInt8 := 10

/-- `class ByteBuffer`. -/
structure ByteBuffer where
  internalBuf : Bytes := []
  deriving DecidableEq, Repr

namespace ByteBuffer

/-- Add bytes at the end of the buffer. -/
def append (b : ByteBuffer) (buf : Bytes) : ByteBuffer :=
  { internalBuf := b.internalBuf ++ buf }

/-- Take bytes from the front: `0`, or a length that reaches the end, takes everything. -/
def retrieve (b : ByteBuffer) (bufLen : ℕ) : Bytes × ByteBuffer :=
  if bufLen = 0 ∨ b.internalBuf.length ≤ bufLen then
    (b.internalBuf, { internalBuf := [] })
  else
    (b.internalBuf.take bufLen, { internalBuf := b.internalBuf.drop bufLen })

/-- Drop bytes from the front: `0`, or a length that reaches the end, drops everything. -/
def erase (b : ByteBuffer) (bufLen : ℕ) : ByteBuffer :=
  if bufLen = 0 ∨ b.internalBuf.length ≤ bufLen then { internalBuf := [] }
  else { internalBuf := b.internalBuf.drop bufLen }

/-- The position of the first line feed, `none` standing for `std::string::npos`. -/
def fiindLF (b : ByteBuffer) : Option ℕ :=
  b.internalBuf.findIdx? (· == LF)

/-- The number of bytes in the buffer. -/
def remaining (b : ByteBuffer) : ℕ :=
  b.internalBuf.length

def isEmpty (b : ByteBuffer) : Bool :=
  b.internalBuf.isEmpty

variable {b : ByteBuffer}

@[simp] lemma append_internalBuf (b : ByteBuffer) (buf : Bytes) :
    (b.append buf).internalBuf = b.internalBuf ++ buf := rfl

@[simp] lemma append_nil (b : ByteBuffer) : b.append [] = b := by
  simp [append]

@[simp] lemma remaining_append (b : ByteBuffer) (buf : Bytes) :
    (b.append buf).remaining = b.remaining + buf.length := by
  simp [remaining]

/-- A buffer is empty if nothing remains in it. -/
lemma isEmpty_iff_remaining : b.isEmpty = true ↔ b.remaining = 0 := by
  simp [isEmpty, remaining]

/-- Dropping what a `::send` call has taken: fewer bytes than there are stay behind. -/
lemma remaining_erase {n : ℕ} (hn : 0 < n) : (b.erase n).remaining = b.remaining - n := by
  unfold erase
  split
  · simp only [remaining, List.length_nil]
    omega
  · simp [remaining]

/-- Without a line feed there is no position to find. -/
lemma fiindLF_eq_none_iff : b.fiindLF = none ↔ LF ∉ b.internalBuf := by
  simp only [fiindLF, List.findIdx?_eq_none_iff, beq_eq_false_iff_ne, ne_eq]
  exact ⟨fun h hmem => h LF hmem rfl, fun h x hx hxLF => h (hxLF ▸ hx)⟩

/-- The first line feed is found where it stands. -/
lemma fiindLF_eq_some {body rest : Bytes} (hb : b.internalBuf = body ++ LF :: rest)
    (hbody : LF ∉ body) : b.fiindLF = some body.length := by
  rw [fiindLF, hb, List.findIdx?_append]
  have hnone : body.findIdx? (· == LF) = none := by
    rw [List.findIdx?_eq_none_iff]
    intro x hx
    rw [beq_eq_false_iff_ne]
    rintro rfl
    exact hbody hx
  simp [hnone, List.findIdx?_cons]

/-- Retrieving up to a line feed takes that frame, also when it is all there is and the sentinel
branch of `retrieve` is used. -/
lemma retrieve_frame {body rest : Bytes} (hb : b.internalBuf = body ++ LF :: rest) :
    b.retrieve (body.length + 1) = (body ++ [LF], { internalBuf := rest }) := by
  unfold retrieve
  cases rest with
  | nil => simp [hb]
  | cons x rest =>
    rw [hb, if_neg]
    · congr 2
      · rw [List.take_append]
        simp
      · rw [List.drop_append]
        simp
    · simp

end ByteBuffer

end Calc24
