import Mathlib

/-!
# Delimited framing of a stream

A stream over an alphabet with a delimiter `d` is cut after every occurrence of `d`.  `frames d l`
are the complete pieces, each ending with its delimiter, and `residue d l` is what follows the
last delimiter.  The two are characterised by `flatten_frames_append_residue`,
`exists_eq_append_of_mem_frames` and `not_mem_residue`, and they are compatible with cutting the
stream anywhere (`frames_append`, `residue_append`): the residue of the first part is all that a
decoder has to remember, and it is no longer than the runs without a delimiter (`RunsAtMost`).

The second half is about a decoder with a bounded memory.  It receives the stream in chunks and
gives up as soon as the residue it has to keep is longer than `limit`.  What such a decoder
delivers depends on where the chunk borders fall, and `chunkingIndependent_iff` says for exactly
which streams it does not.
-/

namespace Framing

variable {α : Type*} [DecidableEq α]

/-- The complete frames of a list and the unfinished rest. -/
def split (d : α) : List α → List (List α) × List α
  | [] => ([], [])
  | a :: l =>
    if a = d then ([d] :: (split d l).1, (split d l).2)
    else
      match split d l with
      | ([], r) => ([], a :: r)
      | (f :: fs, r) => ((a :: f) :: fs, r)

/-- The complete frames of a stream, each with its delimiter as the last element. -/
def frames (d : α) (l : List α) : List (List α) :=
  (split d l).1

/-- What follows the last delimiter of a stream. -/
def residue (d : α) (l : List α) : List α :=
  (split d l).2

variable {d : α} {l m body : List α}

/-! ## The characterisation of frames and residue -/

@[simp] lemma frames_nil : frames d [] = [] := rfl

@[simp] lemma residue_nil : residue d [] = [] := rfl

/-- A stream that starts with a delimiter has the delimiter alone as its first frame. -/
lemma split_cons_delimiter : split d (d :: l) = ([d] :: frames d l, residue d l) := by
  simp [split, frames, residue]

/-- Without a delimiter there is no frame and everything is unfinished. -/
lemma split_of_not_mem (h : d ∉ l) : split d l = ([], l) := by
  induction l with
  | nil => rfl
  | cons a l ih =>
    rw [List.mem_cons, not_or] at h
    rw [split, if_neg (Ne.symm h.1), ih h.2]

lemma frames_of_not_mem (h : d ∉ l) : frames d l = [] := by
  rw [frames, split_of_not_mem h]

lemma residue_of_not_mem (h : d ∉ l) : residue d l = l := by
  rw [residue, split_of_not_mem h]

/-- The first delimiter of a stream ends its first frame. -/
lemma split_append_delimiter (h : d ∉ body) :
    split d (body ++ d :: l) = ((body ++ [d]) :: frames d l, residue d l) := by
  induction body with
  | nil => exact split_cons_delimiter
  | cons a body ih =>
    rw [List.mem_cons, not_or] at h
    rw [List.cons_append, split, if_neg (Ne.symm h.1), ih h.2]
    rfl

/-- The first frame ends at the first delimiter. -/
lemma frames_append_delimiter (h : d ∉ body) :
    frames d (body ++ d :: l) = (body ++ [d]) :: frames d l := by
  rw [frames, split_append_delimiter h]

/-- What is left over is left over behind the first delimiter. -/
lemma residue_append_delimiter (h : d ∉ body) :
    residue d (body ++ d :: l) = residue d l := by
  rw [residue, split_append_delimiter h]

/-- The first delimiter cuts a list in one way only. -/
lemma append_delimiter_inj {body' l' : List α} (h : d ∉ body) (h' : d ∉ body')
    (heq : body ++ d :: l = body' ++ d :: l') : body = body' ∧ l = l' := by
  have hframes := congrArg (frames d) heq
  rw [frames_append_delimiter h, frames_append_delimiter h'] at hframes
  obtain rfl : body = body' := List.append_cancel_right (List.cons.inj hframes).1
  exact ⟨rfl, (List.cons.inj (List.append_cancel_left heq)).2⟩

/-- A list either has no delimiter or is a body, the delimiter and a rest. -/
lemma not_mem_or_exists_first (d : α) (l : List α) :
    d ∉ l ∨ ∃ body rest, d ∉ body ∧ l = body ++ d :: rest := by
  by_cases h : d ∈ l
  · obtain ⟨body, rest, rfl, hbody⟩ := List.eq_append_cons_of_mem h
    exact Or.inr ⟨body, rest, hbody, rfl⟩
  · exact Or.inl h

/-- The induction along the frames of a stream: a stream without a delimiter, or a frame
followed by a shorter stream. -/
lemma frameInduction {motive : List α → Prop} (d : α) (open_ : ∀ l, d ∉ l → motive l)
    (frame : ∀ body rest, d ∉ body → motive rest → motive (body ++ d :: rest)) (l : List α) :
    motive l := by
  induction hn : l.length using Nat.strong_induction_on generalizing l with
  | _ n ih =>
    rcases not_mem_or_exists_first d l with h | ⟨body, rest, hbody, rfl⟩
    · exact open_ l h
    · refine frame body rest hbody (ih rest.length ?_ rest rfl)
      subst hn
      simp only [List.length_append, List.length_cons]
      omega

/-- Nothing is lost: the frames and the residue together are the stream. -/
theorem flatten_frames_append_residue (d : α) (l : List α) :
    (frames d l).flatten ++ residue d l = l := by
  induction l using frameInduction d with
  | open_ l h => simp [frames_of_not_mem h, residue_of_not_mem h]
  | frame body rest h ih =>
    rw [frames_append_delimiter h, residue_append_delimiter h, List.flatten_cons,
      List.append_assoc, ih]
    simp

/-- The residue holds no delimiter. -/
theorem not_mem_residue (d : α) (l : List α) : d ∉ residue d l := by
  induction l using frameInduction d with
  | open_ l h => rwa [residue_of_not_mem h]
  | frame body rest h ih => rwa [residue_append_delimiter h]

/-- Every frame is a body without delimiter, followed by the delimiter. -/
theorem exists_eq_append_of_mem_frames {f : List α} (hf : f ∈ frames d l) :
    ∃ body, d ∉ body ∧ f = body ++ [d] := by
  induction l using frameInduction d with
  | open_ l h => simp [frames_of_not_mem h] at hf
  | frame body rest h ih =>
    rw [frames_append_delimiter h, List.mem_cons] at hf
    rcases hf with rfl | hf
    · exact ⟨body, h, rfl⟩
    · exact ih hf

/-- A frame is no longer than the stream it is cut from. -/
lemma length_le_of_mem_frames {f : List α} (hf : f ∈ frames d l) : f.length ≤ l.length := by
  have hflat : f.length ≤ (frames d l).flatten.length :=
    (List.sublist_flatten_of_mem hf).length_le
  have hl := congrArg List.length (flatten_frames_append_residue d l)
  rw [List.length_append] at hl
  omega

/-! ## Cutting the stream -/

/-- The frames of a stream in two parts: those of the first part, then those of the second part
with the residue of the first in front of it. -/
theorem frames_append (d : α) (l m : List α) :
    frames d (l ++ m) = frames d l ++ frames d (residue d l ++ m) := by
  induction l using frameInduction d with
  | open_ l h => rw [frames_of_not_mem h, residue_of_not_mem h, List.nil_append]
  | frame body rest h ih =>
    rw [List.append_assoc, List.cons_append, frames_append_delimiter h,
      frames_append_delimiter h, residue_append_delimiter h, ih, List.cons_append]

/-- The residue of a stream in two parts depends on the first part through its residue only. -/
theorem residue_append (d : α) (l m : List α) :
    residue d (l ++ m) = residue d (residue d l ++ m) := by
  induction l using frameInduction d with
  | open_ l h => rw [residue_of_not_mem h]
  | frame body rest h ih =>
    rw [List.append_assoc, List.cons_append, residue_append_delimiter h,
      residue_append_delimiter h, ih]

/-- A stream that ends with the delimiter has no residue. -/
lemma residue_concat (d : α) (l : List α) : residue d (l ++ [d]) = [] := by
  rw [residue_append, residue_append_delimiter (not_mem_residue d l), residue_nil]

/-- Streams without residue put one after the other have the frames of all of them. -/
lemma frames_flatten_of_residue_nil {ls : List (List α)} (h : ∀ l ∈ ls, residue d l = []) :
    frames d ls.flatten = ls.flatMap (frames d) ∧ residue d ls.flatten = [] := by
  induction ls with
  | nil => exact ⟨rfl, rfl⟩
  | cons l ls ih =>
    obtain ⟨hfirst, hrest⟩ := List.forall_mem_cons.mp h
    obtain ⟨hframes, hresidue⟩ := ih hrest
    rw [List.flatten_cons, List.flatMap_cons, frames_append, residue_append, hfirst,
      List.nil_append]
    exact ⟨congrArg _ hframes, hresidue⟩

/-- A piece without delimiter starts the first frame of what follows it. -/
lemma exists_frame_of_frames_append {f : List α} {fs : List (List α)} (hl : d ∉ l)
    (h : frames d (l ++ m) = f :: fs) : l.length < f.length := by
  rcases not_mem_or_exists_first d m with hm | ⟨body, rest, hbody, rfl⟩
  · have hlm : d ∉ l ++ m := by simp [hl, hm]
    rw [frames_of_not_mem hlm] at h
    exact absurd h (by simp)
  · have hlb : d ∉ l ++ body := by simp [hl, hbody]
    rw [← List.append_assoc, frames_append_delimiter hlb] at h
    obtain ⟨rfl, -⟩ := List.cons.inj h
    simp only [List.length_append, List.length_singleton]
    omega

/-- A stream that starts with whole frames has them as its first frames. -/
lemma frames_flatten_append {fs : List (List α)} (hfs : ∀ f ∈ fs, ∃ body, d ∉ body ∧ f = body ++ [d])
    (l : List α) :
    frames d (fs.flatten ++ l) = fs ++ frames d l ∧ residue d (fs.flatten ++ l) = residue d l := by
  induction fs with
  | nil => simp
  | cons f fs ih =>
    obtain ⟨⟨body, hbody, rfl⟩, hrest⟩ := List.forall_mem_cons.mp hfs
    obtain ⟨hframes, hresidue⟩ := ih hrest
    have hcut : ((body ++ [d]) :: fs).flatten ++ l = body ++ d :: (fs.flatten ++ l) := by simp
    rw [hcut, frames_append_delimiter hbody, residue_append_delimiter hbody, hframes, hresidue]
    exact ⟨rfl, rfl⟩

/-- Nowhere in the stream do more than `limit` elements follow each other without a delimiter. -/
def RunsAtMost (d : α) (limit : ℕ) (l : List α) : Prop :=
  ∀ run, run <:+: l → d ∉ run → run.length ≤ limit

/-- What follows the last delimiter of a first part is one of the runs. -/
lemma RunsAtMost.length_residue {limit : ℕ} (h : RunsAtMost d limit (l ++ m)) :
    (residue d l).length ≤ limit := by
  refine h _ ⟨(frames d l).flatten, m, ?_⟩ (not_mem_residue d l)
  rw [flatten_frames_append_residue]

/-- The runs are no longer when the complete frames of a first part are taken off. -/
lemma RunsAtMost.residue_append {limit : ℕ} (h : RunsAtMost d limit (l ++ m)) :
    RunsAtMost d limit (residue d l ++ m) := by
  intro run hrun hd
  refine h run (hrun.trans ⟨(frames d l).flatten, [], ?_⟩) hd
  rw [List.append_nil, ← List.append_assoc, flatten_frames_append_residue]

/-! ## A decoder with a bounded residue -/

/-- The decoder: it keeps the residue `b`, appends each chunk to it, delivers the complete frames
and gives up once what it has to keep is longer than `limit`.  The result is what it has
delivered and whether it has given up. -/
def feed (d : α) (limit : ℕ) : List α → List (List α) → List (List α) × Bool
  | _, [] => ([], false)
  | b, c :: cs =>
    if limit < (residue d (b ++ c)).length then (frames d (b ++ c), true)
    else
      let next := feed d limit (residue d (b ++ c)) cs
      (frames d (b ++ c) ++ next.1, next.2)

/-- A way of cutting the stream `s` into non-empty chunks of at most `maxChunk` elements. -/
structure IsChunking (maxChunk : ℕ) (s : List α) (cs : List (List α)) : Prop where
  flatten_eq : cs.flatten = s
  ne_nil : ∀ c ∈ cs, c ≠ []
  length_le : ∀ c ∈ cs, c.length ≤ maxChunk

/-- The decoder behaves in the same way on every chunking of the stream. -/
def ChunkingIndependent (d : α) (limit maxChunk : ℕ) (s : List α) : Prop :=
  ∀ cs cs', IsChunking maxChunk s cs → IsChunking maxChunk s cs' →
    feed d limit [] cs = feed d limit [] cs'

/-- A frame whose body exceeds the limit. -/
def IsLong (limit : ℕ) (f : List α) : Bool :=
  limit + 1 < f.length

/-- The first frame whose body exceeds the limit, if there is one, exceeds it by so much that no
chunk can hide it. -/
def FirstLongIsHuge (d : α) (limit maxChunk : ℕ) (s : List α) : Prop :=
  ∀ f, (frames d s).find? (IsLong limit) = some f → limit + maxChunk < f.length

instance (d : α) (limit maxChunk : ℕ) (s : List α) :
    Decidable (FirstLongIsHuge d limit maxChunk s) :=
  match h : (frames d s).find? (IsLong limit) with
  | none => .isTrue fun f hf => by simp [h] at hf
  | some g => decidable_of_iff (limit + maxChunk < g.length)
      ⟨fun hg f hf => by rw [h] at hf; cases hf; exact hg, fun H => H g h⟩

/-- Feeding chunks in two batches: unless the first batch was given up on, the second one is fed
from the residue of the first. -/
lemma feed_append (limit : ℕ) (b : List α) (cs cs' : List (List α)) (hb : d ∉ b)
    (hok : (feed d limit b cs).2 = false) :
    (feed d limit b (cs ++ cs')).1 =
      (feed d limit b cs).1 ++ (feed d limit (residue d (b ++ cs.flatten)) cs').1 := by
  induction cs generalizing b with
  | nil => simp [feed, residue_of_not_mem hb]
  | cons c cs ih =>
    rw [feed] at hok
    split at hok
    · simp at hok
    · next hlen =>
      have hnext := ih (residue d (b ++ c)) (not_mem_residue d (b ++ c)) hok
      have hres : residue d (b ++ (c :: cs).flatten) = residue d (residue d (b ++ c) ++ cs.flatten) := by
        rw [List.flatten_cons, ← List.append_assoc, residue_append]
      rw [List.cons_append, feed, if_neg hlen, feed, if_neg hlen, hres]
      simp only [hnext, List.append_assoc]

/-- Where no long frame can hide in a chunk, what the decoder does is read off the whole stream:
it delivers the frames before the first long one, and it gives up if there is a long frame or if
the unfinished rest is too long. -/
theorem feed_eq_of_firstLongIsHuge {limit maxChunk : ℕ} (cs : List (List α)) (b : List α)
    (hb : d ∉ b) (hlen : b.length ≤ limit) (hcs : ∀ c ∈ cs, c.length ≤ maxChunk)
    (huge : FirstLongIsHuge d limit maxChunk (b ++ cs.flatten)) :
    feed d limit b cs =
      ((frames d (b ++ cs.flatten)).takeWhile (fun f => !IsLong limit f),
        (frames d (b ++ cs.flatten)).any (IsLong limit) ||
          decide (limit < (residue d (b ++ cs.flatten)).length)) := by
  induction cs generalizing b with
  | nil =>
    simp only [List.flatten_nil, List.append_nil]
    rw [frames_of_not_mem hb, residue_of_not_mem hb]
    simp [feed, Nat.not_lt.mpr hlen]
  | cons c cs ih =>
    obtain ⟨hc, hrest⟩ := List.forall_mem_cons.mp hcs
    have hcut : b ++ (c :: cs).flatten = (b ++ c) ++ cs.flatten := by simp
    have hframes := frames_append d (b ++ c) cs.flatten
    have hresidue := residue_append d (b ++ c) cs.flatten
    rw [hcut] at huge ⊢
    -- a frame completed by this chunk is too short to be the huge one, so it is not long
    have hshort : ∀ f ∈ frames d (b ++ c), IsLong limit f = false := by
      by_contra hex
      push Not at hex
      obtain ⟨f, hf, hlong⟩ := hex
      have hany : ((frames d (b ++ c)).find? (IsLong limit)).isSome := by
        rw [List.find?_isSome]
        exact ⟨f, hf, by simpa using hlong⟩
      obtain ⟨g, hg⟩ := Option.isSome_iff_exists.mp hany
      have hbig : limit + maxChunk < g.length := by
        apply huge g
        rw [hframes, List.find?_append, hg, Option.some_or]
      have hsmall : g.length ≤ (b ++ c).length :=
        length_le_of_mem_frames (List.mem_of_find?_eq_some hg)
      rw [List.length_append] at hsmall
      omega
    have htake : (frames d ((b ++ c) ++ cs.flatten)).takeWhile (fun f => !IsLong limit f) =
        frames d (b ++ c) ++
          (frames d (residue d (b ++ c) ++ cs.flatten)).takeWhile (fun f => !IsLong limit f) := by
      rw [hframes, List.takeWhile_append_of_pos]
      intro f hf
      simp [hshort f hf]
    have hany : (frames d ((b ++ c) ++ cs.flatten)).any (IsLong limit) =
        (frames d (residue d (b ++ c) ++ cs.flatten)).any (IsLong limit) := by
      have hnone : (frames d (b ++ c)).any (IsLong limit) = false := by
        rw [List.any_eq_false]
        intro f hf
        simp [hshort f hf]
      rw [hframes, List.any_append, hnone, Bool.false_or]
    rw [htake, hany, hresidue, feed]
    by_cases hover : limit < (residue d (b ++ c)).length
    · rw [if_pos hover]
      -- the decoder gives up here, and the frame that the residue starts is the first long one
      cases hnext : frames d (residue d (b ++ c) ++ cs.flatten) with
      | nil =>
        have hopen := flatten_frames_append_residue d (residue d (b ++ c) ++ cs.flatten)
        rw [hnext, List.flatten_nil, List.nil_append] at hopen
        have hlong : limit < (residue d (residue d (b ++ c) ++ cs.flatten)).length := by
          rw [hopen, List.length_append]
          omega
        simp [hlong]
      | cons f fs =>
        have hf := exists_frame_of_frames_append (not_mem_residue d (b ++ c)) hnext
        have hlong : IsLong limit f = true := by
          simp only [IsLong, decide_eq_true_eq]
          omega
        simp [hlong]
    · rw [if_neg hover]
      have huge' : FirstLongIsHuge d limit maxChunk (residue d (b ++ c) ++ cs.flatten) := by
        intro f hf
        apply huge f
        have hnone : (frames d (b ++ c)).find? (IsLong limit) = none := by
          rw [List.find?_eq_none]
          intro g hg
          simp [hshort g hg]
        rw [hframes, List.find?_append, hnone, Option.none_or, hf]
      rw [ih (residue d (b ++ c)) (not_mem_residue d (b ++ c)) (Nat.not_lt.mp hover) hrest huge']

/-- The finest chunking of a stream. -/
def singletons (s : List α) : List (List α) :=
  s.map fun a => [a]

omit [DecidableEq α] in
/-- Pieces of one element each are a cutting. -/
lemma flatten_singletons (s : List α) : (singletons s).flatten = s := by
  induction s with
  | nil => rfl
  | cons a s ih => exact congrArg (a :: ·) ih

omit [DecidableEq α] in
lemma length_of_mem_singletons {s c : List α} (hc : c ∈ singletons s) : c.length = 1 := by
  obtain ⟨a, -, rfl⟩ := List.mem_map.mp hc
  rfl

omit [DecidableEq α] in
/-- Chunkings of two parts of a stream make a chunking of the stream. -/
lemma IsChunking.append {maxChunk : ℕ} {s t : List α} {cs cs' : List (List α)}
    (hs : IsChunking maxChunk s cs) (ht : IsChunking maxChunk t cs') :
    IsChunking maxChunk (s ++ t) (cs ++ cs') where
  flatten_eq := by rw [List.flatten_append, hs.flatten_eq, ht.flatten_eq]
  ne_nil := List.forall_mem_append.mpr ⟨hs.ne_nil, ht.ne_nil⟩
  length_le := List.forall_mem_append.mpr ⟨hs.length_le, ht.length_le⟩

omit [DecidableEq α] in
/-- One chunk that is short enough. -/
lemma isChunking_singleton {maxChunk : ℕ} {c : List α} (hc : c ≠ []) (hlen : c.length ≤ maxChunk) :
    IsChunking maxChunk c [c] where
  flatten_eq := by simp
  ne_nil := by simpa using hc
  length_le := by simpa using hlen

omit [DecidableEq α] in
/-- A stream may come in one element at a time. -/
lemma isChunking_singletons {maxChunk : ℕ} (h : 1 ≤ maxChunk) (s : List α) :
    IsChunking maxChunk s (singletons s) where
  flatten_eq := flatten_singletons s
  ne_nil := fun c hc => List.ne_nil_of_length_pos (by rw [length_of_mem_singletons hc]; decide)
  length_le := fun c hc => by rwa [length_of_mem_singletons hc]

/-- Fed element by element, the decoder never delivers a long frame. -/
lemma feed_singletons {limit : ℕ} (s : List α) :
    feed d limit [] (singletons s) =
      ((frames d s).takeWhile (fun f => !IsLong limit f),
        (frames d s).any (IsLong limit) || decide (limit < (residue d s).length)) := by
  have huge : FirstLongIsHuge d limit 1 ([] ++ (singletons s).flatten) := by
    intro f hf
    have hlong := List.find?_some hf
    simpa [IsLong] using hlong
  have h := feed_eq_of_firstLongIsHuge (singletons s) [] List.not_mem_nil (Nat.zero_le limit)
    (fun c hc => (length_of_mem_singletons hc).le) huge
  rwa [List.nil_append, flatten_singletons] at h

/-- A long frame that fits into a chunk is delivered by the chunking that takes its first `limit`
elements one by one and the rest of it at once. -/
lemma exists_isChunking_delivering {limit maxChunk : ℕ} {s f : List α} {pre post : List (List α)}
    (hs : frames d s = pre ++ f :: post) (hpre : ∀ g ∈ pre, IsLong limit g = false)
    (hlong : IsLong limit f = true) (hfit : f.length ≤ limit + maxChunk) :
    ∃ cs, IsChunking maxChunk s cs ∧ ∃ rest, (feed d limit [] cs).1 = pre ++ f :: rest := by
  simp only [IsLong, decide_eq_true_eq] at hlong
  have hmem : ∀ g ∈ frames d s, ∃ body, d ∉ body ∧ g = body ++ [d] :=
    fun g hg => exists_eq_append_of_mem_frames hg
  rw [hs] at hmem
  have hpreFrames : ∀ g ∈ pre, ∃ body, d ∉ body ∧ g = body ++ [d] :=
    fun g hg => hmem g (List.mem_append_left _ hg)
  obtain ⟨body, hbody, rfl⟩ := hmem f (by simp)
  rw [List.length_append, List.length_singleton] at hlong hfit
  -- the stream is the earlier frames, the first `limit` elements of `f`, the rest of `f`, the rest
  set start := pre.flatten ++ body.take limit with hstart
  set hidden := body.drop limit ++ [d] with hhidden
  set tail := post.flatten ++ residue d s with htail
  have hsplit : s = start ++ (hidden ++ tail) := by
    conv_lhs => rw [← flatten_frames_append_residue d s, hs]
    simp only [hstart, hhidden, htail, List.flatten_append, List.flatten_cons, List.append_assoc]
    rw [← List.append_assoc (body.take limit), List.take_append_drop]
  have htakeBody : d ∉ body.take limit := fun h => hbody (List.mem_of_mem_take h)
  obtain ⟨hstartFrames, hstartResidue⟩ := frames_flatten_append hpreFrames (body.take limit)
  rw [frames_of_not_mem htakeBody, List.append_nil] at hstartFrames
  rw [residue_of_not_mem htakeBody] at hstartResidue
  have hchunks : IsChunking maxChunk s (singletons start ++ ([hidden] ++ singletons tail)) := by
    have hone : 1 ≤ maxChunk := by omega
    have hhiddenLen : hidden.length ≤ maxChunk := by
      rw [hhidden, List.length_append, List.length_drop, List.length_singleton]
      omega
    rw [hsplit]
    exact (isChunking_singletons hone start).append
      ((isChunking_singleton (by simp [hhidden]) hhiddenLen).append
        (isChunking_singletons hone tail))
  refine ⟨_, hchunks, (feed d limit [] (singletons tail)).1, ?_⟩
  -- the elements before the hidden chunk are taken without giving up
  have hfirst : feed d limit [] (singletons start) = (pre, false) := by
    have htake : pre.takeWhile (fun g => !IsLong limit g) = pre :=
      List.takeWhile_eq_self_iff.mpr fun g hg => by simp [hpre g hg]
    have hnone : pre.any (IsLong limit) = false :=
      List.any_eq_false.mpr fun g hg => by simp [hpre g hg]
    rw [feed_singletons, hstartFrames, hstartResidue, htake, hnone, List.length_take]
    simp
  have hkept : residue d ([] ++ (singletons start).flatten) = body.take limit := by
    rw [List.nil_append, flatten_singletons, hstartResidue]
  have hwhole : body.take limit ++ hidden = body ++ d :: [] := by
    rw [hhidden, ← List.append_assoc, List.take_append_drop]
  rw [feed_append limit [] _ _ List.not_mem_nil (by rw [hfirst]), hkept, hfirst,
    List.singleton_append, feed, hwhole, residue_append_delimiter hbody,
    frames_append_delimiter hbody]
  simp

/-- **A decoder with a bounded residue is independent of the chunking exactly where the first
frame it cannot keep, if there is one, is too long for any chunk to hide.** -/
theorem chunkingIndependent_iff {limit maxChunk : ℕ} {s : List α} :
    ChunkingIndependent d limit maxChunk s ↔ FirstLongIsHuge d limit maxChunk s := by
  constructor
  · intro hind f hf
    by_contra hfit
    obtain ⟨hlong, pre, post, hs, hpre⟩ := List.find?_eq_some_iff_append.mp hf
    have hpre' : ∀ g ∈ pre, IsLong limit g = false := fun g hg => by simpa using hpre g hg
    obtain ⟨cs, hcs, rest, hfeed⟩ :=
      exists_isChunking_delivering hs hpre' hlong (Nat.not_lt.mp hfit)
    have hone : 1 ≤ maxChunk := by
      simp only [IsLong, decide_eq_true_eq] at hlong
      omega
    have heq := congrArg Prod.fst (hind cs (singletons s) hcs (isChunking_singletons hone s))
    have htake : pre.takeWhile (fun g => !IsLong limit g) = pre :=
      List.takeWhile_eq_self_iff.mpr fun g hg => by simp [hpre' g hg]
    rw [hfeed, feed_singletons, hs, List.takeWhile_append, htake, if_pos rfl,
      List.takeWhile_cons, hlong] at heq
    simp at heq
  · intro huge cs cs' hcs hcs'
    have h := feed_eq_of_firstLongIsHuge cs [] List.not_mem_nil (Nat.zero_le limit)
      hcs.length_le (by rwa [List.nil_append, hcs.flatten_eq])
    have h' := feed_eq_of_firstLongIsHuge cs' [] List.not_mem_nil (Nat.zero_le limit)
      hcs'.length_le (by rwa [List.nil_append, hcs'.flatten_eq])
    rw [h, h', hcs.flatten_eq, hcs'.flatten_eq]

end Framing
