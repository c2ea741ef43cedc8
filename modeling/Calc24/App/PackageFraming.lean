import Calc24.App.Decode

/-!
# Packages and chunks

TCP delivers a client's bytes in chunks of its own choosing, and a session takes packages off the
receive buffer as they become complete.  This file follows one connection through any sequence of
chunks, for any handler of packages.

* `receive_lossless`: the packages handed over and the buffer together are the bytes received, the
  packages are the lines, and the call fails exactly when the unfinished line is too long.
* `sameMeaning_iff`: two ways of cutting a stream give the same packages and the same verdict for
  exactly those streams whose first line longer than `MAX_MSG_LENGTH`, if it is ended at all, is
  too long to arrive within one chunk of what the limit has let through.
-/

namespace Calc24

/-- The size of the array that `TCPConnection::onRead` receives into. -/
def RECV_BUF_SIZE : ℕ := 1024

/-- What the callbacks of a connection act on: the state of the rest of the server, with two
ghosts, the packages passed to `processPackage` so far and whether the last call of
`Calc24Session::onRead` has failed. -/
structure ReadState (σ : Type*) where
  server : σ
  handed : List Bytes
  failed : Bool

/-- A connection between two read events; `received` is a ghost. -/
structure Reader (σ : Type*) where
  recvBuf : ByteBuffer
  state : ReadState σ
  received : Bytes

namespace Reader

variable {σ : Type*} (processPackage : Bytes → σ → σ) (onClose : σ → σ)

/-- A connection that has not received anything. -/
def start (s : σ) : Reader σ where
  recvBuf := {}
  state := { server := s, handed := [], failed := false }
  received := []

/-- `processPackage` with the package recorded. -/
def handPackage (package : Bytes) (s : ReadState σ) : ReadState σ :=
  { s with server := processPackage package s.server, handed := s.handed ++ [package] }

/-- The read callback: `Calc24Session::onRead` with `forceClose`. -/
def readCallback (recvBuf : ByteBuffer) (s : ReadState σ) : ByteBuffer × ReadState σ :=
  match Calc24Session.onRead (handPackage processPackage) recvBuf s with
  | (.failed, recvBuf, s) => (recvBuf, { s with server := onClose s.server, failed := true })
  | (_, recvBuf, s) => (recvBuf, { s with failed := false })

/-- One call of `TCPConnection::onRead` that receives a chunk. -/
def onRead (chunk : Bytes) (r : Reader σ) : Reader σ :=
  let (recvBuf, state) := TCPConnection.onRead (fun s => { s with server := onClose s.server })
    (readCallback processPackage onClose) true (.data chunk) r.recvBuf r.state
  { recvBuf := recvBuf, state := state, received := r.received ++ chunk }

/-- Successive calls, up to and including the first one that fails. -/
def receive : List Bytes → Reader σ → Reader σ
  | [], r => r
  | chunk :: chunks, r =>
    if (r.onRead processPackage onClose chunk).state.failed then
      r.onRead processPackage onClose chunk
    else receive chunks (r.onRead processPackage onClose chunk)

/-! ## One call -/

variable {processPackage onClose}

/-- Each package is handed over once, in order. -/
lemma foldl_handPackage_handed (packages : List Bytes) (s : ReadState σ) :
    (packages.foldl (fun s p => handPackage processPackage p s) s).handed =
      s.handed ++ packages := by
  induction packages generalizing s with
  | nil => simp
  | cons p packages ih =>
    rw [List.foldl_cons, ih]
    simp [handPackage]

variable (processPackage onClose)

/-- A call cuts the buffered bytes and the chunk into packages and a residue. -/
theorem onRead_spec (chunk : Bytes) (r : Reader σ) :
    (r.onRead processPackage onClose chunk).recvBuf.internalBuf =
        Framing.residue LF (r.recvBuf.internalBuf ++ chunk) ∧
      (r.onRead processPackage onClose chunk).state.handed =
        r.state.handed ++ Framing.frames LF (r.recvBuf.internalBuf ++ chunk) ∧
      ((r.onRead processPackage onClose chunk).state.failed = true ↔
        MAX_MSG_LENGTH < (Framing.residue LF (r.recvBuf.internalBuf ++ chunk)).length) := by
  have hloop := Calc24Session.onRead_eq (handPackage processPackage) (r.recvBuf.append chunk) r.state
  rw [ByteBuffer.append_internalBuf] at hloop
  by_cases hlen : (Framing.residue LF (r.recvBuf.internalBuf ++ chunk)).length > MAX_MSG_LENGTH
  · rw [if_pos hlen] at hloop
    simp [onRead, TCPConnection.onRead, readCallback, hloop, foldl_handPackage_handed, hlen]
  · rw [if_neg hlen] at hloop
    simp [onRead, TCPConnection.onRead, readCallback, hloop, foldl_handPackage_handed, hlen]

/-! ## Any number of calls -/

/-- What holds between two calls. -/
structure Framed (r : Reader σ) : Prop where
  lossless : r.state.handed.flatten ++ r.recvBuf.internalBuf = r.received
  packages : ∀ p ∈ r.state.handed, ∃ body, LF ∉ body ∧ p = body ++ [LF]
  residue : LF ∉ r.recvBuf.internalBuf
  failed_iff : MAX_MSG_LENGTH < r.recvBuf.remaining ↔ r.state.failed = true

lemma framed_start (s : σ) : Framed (start s) where
  lossless := rfl
  packages := by simp [start]
  residue := by simp [start]
  failed_iff := by simp [start, ByteBuffer.remaining]

/-- A call keeps it. -/
lemma Framed.onRead (chunk : Bytes) {r : Reader σ} (h : Framed r) :
    Framed (r.onRead processPackage onClose chunk) := by
  obtain ⟨hbuf, hhanded, hfailed⟩ := onRead_spec processPackage onClose chunk r
  constructor
  · have hcut := Framing.flatten_frames_append_residue LF (r.recvBuf.internalBuf ++ chunk)
    rw [hbuf, hhanded, List.flatten_append, List.append_assoc, hcut, ← List.append_assoc,
      h.lossless]
    rfl
  · intro p hp
    rw [hhanded, List.mem_append] at hp
    rcases hp with hp | hp
    · exact h.packages p hp
    · exact Framing.exists_eq_append_of_mem_frames hp
  · rw [hbuf]
    exact Framing.not_mem_residue LF _
  · rw [hfailed, ByteBuffer.remaining, hbuf]

/-- Any number of calls keep it, and together they take a prefix of the chunks, all of them
unless the last call has failed. -/
lemma Framed.receive (chunks : List Bytes) {r : Reader σ} (h : Framed r)
    (hok : r.state.failed = false) :
    Framed (receive processPackage onClose chunks r) ∧
      ∃ k ≤ chunks.length,
        (receive processPackage onClose chunks r).received =
            r.received ++ (chunks.take k).flatten ∧
          ((receive processPackage onClose chunks r).state.failed = false →
            k = chunks.length) := by
  induction chunks generalizing r with
  | nil => exact ⟨h, 0, le_refl _, by simp [Reader.receive], fun _ => rfl⟩
  | cons chunk chunks ih =>
    have hnext := Framed.onRead processPackage onClose chunk h
    rw [Reader.receive]
    split
    · next hfailed =>
      refine ⟨hnext, 1, by simp, ?_, fun hnot => ?_⟩
      · simp [Reader.onRead]
      · rw [hfailed] at hnot
        cases hnot
    · next hnot =>
      obtain ⟨hframed, k, hk, hreceived, hall⟩ := ih hnext (by simpa using hnot)
      refine ⟨hframed, k + 1, by simpa using hk, ?_, fun hok' => ?_⟩
      · rw [hreceived, List.take_succ_cons, List.flatten_cons, ← List.append_assoc]
        rfl
      · rw [hall hok', List.length_cons]

/-- **Framing is lossless and exact.**  Whatever chunks arrive, after the calls that receive them,
up to and including the first one that fails, the packages handed over and the buffer are the
bytes received; every package ends at its only line feed; the buffer holds none; and the buffer is
longer than a message may be exactly if the last call has failed. -/
theorem receive_lossless (processPackage : Bytes → σ → σ) (onClose : σ → σ) (s : σ)
    (chunks : List Bytes) :
    let r := receive processPackage onClose chunks (start s)
    (∃ k ≤ chunks.length, r.received = (chunks.take k).flatten ∧
      (r.state.failed = false → k = chunks.length)) ∧
    r.state.handed.flatten ++ r.recvBuf.internalBuf = r.received ∧
    (∀ p ∈ r.state.handed, ∃ body, LF ∉ body ∧ p = body ++ [LF]) ∧
    LF ∉ r.recvBuf.internalBuf ∧
    (MAX_MSG_LENGTH < r.recvBuf.remaining ↔ r.state.failed = true) := by
  intro r
  obtain ⟨hframed, htaken⟩ :=
    Framed.receive processPackage onClose chunks (framed_start s) rfl
  exact ⟨htaken, hframed.lossless, hframed.packages, hframed.residue, hframed.failed_iff⟩

/-! ## Two ways of cutting one stream -/

variable {processPackage onClose}

/-- The calls are a decoder with a bounded residue. -/
lemma receive_eq_feed (chunks : List Bytes) {r : Reader σ} (hok : r.state.failed = false) :
    let fed := Framing.feed LF MAX_MSG_LENGTH r.recvBuf.internalBuf chunks
    (receive processPackage onClose chunks r).state.handed = r.state.handed ++ fed.1 ∧
      (receive processPackage onClose chunks r).state.failed = fed.2 := by
  induction chunks generalizing r with
  | nil => simp [receive, Framing.feed, hok]
  | cons chunk chunks ih =>
    obtain ⟨hbuf, hhanded, hfailed⟩ := onRead_spec processPackage onClose chunk r
    rw [receive, Framing.feed]
    by_cases hlong :
        MAX_MSG_LENGTH < (Framing.residue LF (r.recvBuf.internalBuf ++ chunk)).length
    · rw [if_pos (hfailed.mpr hlong), if_pos hlong]
      exact ⟨hhanded, hfailed.mpr hlong⟩
    · have hnot : ¬ (r.onRead processPackage onClose chunk).state.failed = true :=
        fun hf => hlong (hfailed.mp hf)
      rw [if_neg hnot, if_neg hlong]
      obtain ⟨hnext, hnextFailed⟩ := ih (by simpa using hnot)
      rw [hbuf, hhanded, List.append_assoc] at hnext
      rw [hbuf] at hnextFailed
      exact ⟨hnext, hnextFailed⟩

variable (processPackage onClose) in
/-- A stream whose runs without a line feed are no longer than a message may be is received as a
whole: its lines are the packages, and what follows the last line feed is left in the buffer. -/
lemma receive_of_runsAtMost (chunks : List Bytes) {r : Reader σ} (hok : r.state.failed = false)
    (hbuf : LF ∉ r.recvBuf.internalBuf)
    (hruns : Framing.RunsAtMost LF MAX_MSG_LENGTH (r.recvBuf.internalBuf ++ chunks.flatten)) :
    (receive processPackage onClose chunks r).state.handed =
        r.state.handed ++ Framing.frames LF (r.recvBuf.internalBuf ++ chunks.flatten) ∧
      (receive processPackage onClose chunks r).recvBuf.internalBuf =
        Framing.residue LF (r.recvBuf.internalBuf ++ chunks.flatten) ∧
      (receive processPackage onClose chunks r).state.failed = false := by
  induction chunks generalizing r with
  | nil =>
    simp [receive, hok, Framing.frames_of_not_mem hbuf, Framing.residue_of_not_mem hbuf]
  | cons chunk chunks ih =>
    obtain ⟨hrest, hhanded, hfailed⟩ := onRead_spec processPackage onClose chunk r
    rw [List.flatten_cons, ← List.append_assoc] at hruns ⊢
    have hshort := hruns.length_residue
    have hnot : ¬ (r.onRead processPackage onClose chunk).state.failed = true := by
      rw [hfailed]
      omega
    obtain ⟨hnext, hleft, hfinal⟩ := ih (r := r.onRead processPackage onClose chunk)
      (by simpa using hnot) (by rw [hrest]; exact Framing.not_mem_residue LF _)
      (by rw [hrest]; exact hruns.residue_append)
    rw [receive, if_neg hnot]
    rw [hrest, hhanded, List.append_assoc, ← Framing.frames_append] at hnext
    rw [hrest, ← Framing.residue_append] at hleft
    exact ⟨hnext, hleft, hfinal⟩

variable (processPackage onClose) in
/-- The stream means the same however it is cut into chunks that `recv` can return: the same
packages are handed over, and the stream is rejected or not. -/
def SameMeaning (s : σ) (stream : Bytes) : Prop :=
  ∀ cs cs', Framing.IsChunking RECV_BUF_SIZE stream cs →
    Framing.IsChunking RECV_BUF_SIZE stream cs' →
      (receive processPackage onClose cs (start s)).state.handed =
          (receive processPackage onClose cs' (start s)).state.handed ∧
        (receive processPackage onClose cs (start s)).state.failed =
          (receive processPackage onClose cs' (start s)).state.failed

/-- **A stream means the same however it is cut exactly if its first line with more than
`MAX_MSG_LENGTH` bytes before the line feed, if there is one, is longer than the limit and a chunk
together.** -/
theorem sameMeaning_iff (processPackage : Bytes → σ → σ) (onClose : σ → σ) (s : σ)
    (stream : Bytes) :
    SameMeaning processPackage onClose s stream ↔
      Framing.FirstLongIsHuge LF MAX_MSG_LENGTH RECV_BUF_SIZE stream := by
  rw [← Framing.chunkingIndependent_iff]
  have hfeed : ∀ cs,
      (receive processPackage onClose cs (start s)).state.handed =
          (Framing.feed LF MAX_MSG_LENGTH [] cs).1 ∧
        (receive processPackage onClose cs (start s)).state.failed =
          (Framing.feed LF MAX_MSG_LENGTH [] cs).2 :=
    fun cs => receive_eq_feed cs rfl
  constructor
  · intro hsame cs cs' hcs hcs'
    obtain ⟨hhanded, hfailed⟩ := hsame cs cs' hcs hcs'
    rw [(hfeed cs).1, (hfeed cs').1] at hhanded
    rw [(hfeed cs).2, (hfeed cs').2] at hfailed
    exact Prod.ext hhanded hfailed
  · intro hind cs cs' hcs hcs'
    rw [(hfeed cs).1, (hfeed cs).2, (hfeed cs').1, (hfeed cs').2, hind cs cs' hcs hcs']
    exact ⟨rfl, rfl⟩

/-- A line of 65 letters is a package when it arrives in one chunk, and is rejected when its line
feed arrives in a chunk of its own. -/
theorem not_sameMeaning_of_65_letters :
    ¬ ∀ stream : Bytes, SameMeaning (fun _ s => s) id () stream := by
  intro h
  have hlong := h (List.replicate 65 97 ++ [LF]) [List.replicate 65 97 ++ [LF]]
    [List.replicate 65 97, [LF]] ⟨by decide, by decide, by decide⟩ ⟨by decide, by decide, by decide⟩
  rw [(receive_eq_feed _ rfl).2, (receive_eq_feed _ rfl).2] at hlong
  exact absurd hlong.2 (by decide)

end Reader

end Calc24
