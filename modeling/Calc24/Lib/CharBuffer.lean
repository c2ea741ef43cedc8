import Mathlib

/-!
# Strings in arrays of fixed size

An array of `n` cells holds a string that ends at the first cell with `0`.  A program that writes
cell by cell, next to calls that look for the end themselves, is right only as long as the two agree
on where the end is.  `CharBuffer.Holds n s b` says that they do: the first cells are `s`, which is
without `0`, all others are `0`, and no write so far was outside the array.

The array that has been zeroed holds the empty string; a character stored behind the string is
appended, and `strcat` appends a string, where there is room for it and one cell more
(`Holds.store`, `Holds.strcat`).
-/

/-- An array of cells.  Whether all writes so far were inside it is a ghost; a write outside has no
effect on the cells. -/
structure CharBuffer (α : Type*) where
  cells : List α
  inBounds : Bool
  deriving DecidableEq

namespace CharBuffer

variable {α : Type*} [Zero α]

/-- An array after `memset` to `0`. -/
def zeroed (α : Type*) [Zero α] (n : ℕ) : CharBuffer α where
  cells := List.replicate n 0
  inBounds := true

omit [Zero α] in
/-- `buf[i] = c`. -/
def store (b : CharBuffer α) (i : ℕ) (c : α) : CharBuffer α where
  cells := b.cells.set i c
  inBounds := b.inBounds && decide (i < b.cells.length)

omit [Zero α] in
/-- Stores to consecutive cells. -/
def storeAll (b : CharBuffer α) (i : ℕ) : List α → CharBuffer α
  | [] => b
  | c :: s => (b.store i c).storeAll (i + 1) s

variable [DecidableEq α]

/-- The string in the array. -/
def str (b : CharBuffer α) : List α :=
  b.cells.takeWhile fun c => c ≠ 0

/-- The position of the first `0`. -/
def strlen (b : CharBuffer α) : ℕ :=
  b.str.length

/-- `strcat` of a string: it and a `0` are written from the first `0` on. -/
def strcat (b : CharBuffer α) (s : List α) : CharBuffer α :=
  b.storeAll b.strlen (s ++ [0])

/-- `strncpy` of a string: it is cut off after `count` characters, or filled up with `0`. -/
def strncpy (b : CharBuffer α) (s : List α) (count : ℕ) : CharBuffer α :=
  b.storeAll 0 ((s ++ List.replicate count 0).take count)

/-- The array of `n` cells holds the string and nothing else. -/
structure Holds (n : ℕ) (s : List α) (b : CharBuffer α) : Prop where
  cells : b.cells = s ++ List.replicate (n - s.length) 0
  length_le : s.length ≤ n
  zero_notMem : (0 : α) ∉ s
  inBounds : b.inBounds = true

variable {n i : ℕ} {c : α} {s t : List α} {b : CharBuffer α}

omit [DecidableEq α] in
/-- An array of zeros holds the empty text. -/
lemma holds_zeroed (n : ℕ) : Holds n [] (zeroed α n) where
  cells := rfl
  length_le := Nat.zero_le n
  zero_notMem := List.not_mem_nil
  inBounds := rfl

/-- What the calls that look for the end find. -/
lemma Holds.str_eq (h : Holds n s b) : b.str = s := by
  have hs : ∀ c ∈ s, decide (c ≠ 0) = true := fun c hc =>
    decide_eq_true fun hzero => h.zero_notMem (hzero ▸ hc)
  rw [str, h.cells, List.takeWhile_append_of_pos hs]
  cases n - s.length <;> simp [List.replicate_succ]

/-- The length of the text is what `strlen` finds. -/
lemma Holds.strlen_eq (h : Holds n s b) : b.strlen = s.length :=
  congrArg List.length h.str_eq

omit [DecidableEq α] in
/-- The array keeps its size. -/
lemma Holds.length_cells (h : Holds n s b) : b.cells.length = n := by
  have hle := h.length_le
  rw [h.cells, List.length_append, List.length_replicate]
  omega

omit [DecidableEq α] in
/-- The cells behind the string. -/
lemma Holds.replicate_eq (h : Holds n s b) (hroom : s.length < n) :
    b.cells = s ++ 0 :: List.replicate (n - (s.length + 1)) 0 := by
  rw [h.cells, show n - s.length = n - (s.length + 1) + 1 by omega, List.replicate_succ]

omit [DecidableEq α] in
/-- A character stored behind the string is appended to it. -/
lemma Holds.store (h : Holds n s b) (hc : c ≠ 0) (hroom : s.length < n) :
    Holds n (s ++ [c]) (b.store s.length c) where
  cells := by
    simp only [CharBuffer.store, h.replicate_eq hroom, List.set_append_right _ _ (le_refl _),
      Nat.sub_self, List.set_cons_zero, List.length_append, List.length_singleton,
      List.append_assoc, List.singleton_append]
  length_le := by
    rw [List.length_append, List.length_singleton]
    exact hroom
  zero_notMem := by
    rw [List.mem_append, List.mem_singleton, not_or]
    exact ⟨h.zero_notMem, hc.symm⟩
  inBounds := by simp [CharBuffer.store, h.inBounds, h.length_cells, hroom]

omit [DecidableEq α] in
/-- A `0` stored there changes nothing. -/
lemma Holds.store_zero (h : Holds n s b) (hroom : s.length < n) :
    Holds n s (b.store s.length 0) where
  cells := by
    simp only [CharBuffer.store, h.replicate_eq hroom, List.set_append_right _ _ (le_refl _),
      Nat.sub_self, List.set_cons_zero, ← h.cells]
  length_le := h.length_le
  zero_notMem := h.zero_notMem
  inBounds := by simp [CharBuffer.store, h.inBounds, h.length_cells, hroom]

omit [Zero α] [DecidableEq α] in
/-- Consecutive stores replace a part of the array. -/
lemma cells_storeAll (h : i + t.length ≤ b.cells.length) :
    (b.storeAll i t).cells = b.cells.take i ++ t ++ b.cells.drop (i + t.length) ∧
      (b.storeAll i t).inBounds = b.inBounds := by
  induction t generalizing i b with
  | nil => simp [CharBuffer.storeAll]
  | cons c t ih =>
    rw [List.length_cons] at h
    have hlength : (b.store i c).cells.length = b.cells.length := List.length_set
    obtain ⟨hcells, hinBounds⟩ := ih (i := i + 1) (b := b.store i c) (by omega)
    rw [CharBuffer.storeAll, hcells, hinBounds]
    constructor
    · have htake : (b.store i c).cells.take (i + 1) = b.cells.take i ++ [c] := by
        rw [CharBuffer.store, List.take_add_one, List.take_set_of_le (le_refl i),
          List.getElem?_set_self (by omega), Option.toList_some]
      have hdrop : (b.store i c).cells.drop (i + 1 + t.length) =
          b.cells.drop (i + (c :: t).length) := by
        rw [CharBuffer.store, List.drop_set_of_lt (by omega), List.length_cons]
        congr 1
        omega
      rw [htake, hdrop]
      simp only [List.append_assoc, List.cons_append, List.nil_append]
    · simp only [CharBuffer.store, decide_eq_true (show i < b.cells.length by omega),
        Bool.and_true]

/-- `strcat` appends, where there is room for the string and a `0`. -/
lemma Holds.strcat (h : Holds n s b) (ht : (0 : α) ∉ t) (hroom : s.length + t.length < n) :
    Holds n (s ++ t) (b.strcat t) := by
  have hroom' : s.length + (t ++ [0]).length ≤ b.cells.length := by
    rw [h.length_cells, List.length_append, List.length_singleton]
    omega
  obtain ⟨hcells, hinBounds⟩ := cells_storeAll hroom'
  rw [CharBuffer.strcat, h.strlen_eq]
  refine ⟨?_, ?_, ?_, hinBounds.trans h.inBounds⟩
  · have hzeros : n - (s ++ t).length = 1 + (n - s.length - (t.length + 1)) := by
      rw [List.length_append]
      omega
    rw [hcells, h.cells, List.take_left, List.drop_length_add_append, List.drop_replicate,
      List.length_append, List.length_singleton, hzeros, List.replicate_add]
    simp only [List.replicate_one, List.append_assoc]
  · rw [List.length_append]
    omega
  · rw [List.mem_append, not_or]
    exact ⟨h.zero_notMem, ht⟩

omit [DecidableEq α] in
/-- `strncpy` into a zeroed array that is large enough. -/
lemma holds_strncpy {count : ℕ} (hs : (0 : α) ∉ s) (hcount : s.length ≤ count) (hn : count ≤ n) :
    Holds n s ((zeroed α n).strncpy s count) := by
  have hcopied : (s ++ List.replicate count 0).take count =
      s ++ List.replicate (count - s.length) (0 : α) := by
    rw [List.take_append, List.take_of_length_le hcount, List.take_replicate,
      min_eq_left (Nat.sub_le _ _)]
  have hroom : 0 + (s ++ List.replicate (count - s.length) (0 : α)).length ≤
      (zeroed α n).cells.length := by
    rw [(holds_zeroed n).length_cells, List.length_append, List.length_replicate]
    omega
  obtain ⟨hcells, hinBounds⟩ := cells_storeAll hroom
  rw [strncpy, hcopied]
  refine ⟨?_, hcount.trans hn, hs, hinBounds⟩
  rw [hcells, List.take_zero, List.nil_append, (holds_zeroed n).cells, List.nil_append,
    List.length_nil, List.drop_replicate, List.append_assoc, ← List.replicate_add]
  congr 2
  rw [List.length_append, List.length_replicate]
  omega

end CharBuffer
