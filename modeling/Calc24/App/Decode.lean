import Calc24.Net.TCPConnection

/-!
# Decoding packages

The read path of a session (`appsrc/Calc24Session.cpp`): `decodePackage` takes one package off the
receive buffer and hands it to `processPackage`, and `onRead` repeats that until more data is
wanted or the connection has to be closed.

What `processPackage` does to the rest of the server is left open: the functions are written over
any state `σ` and any handler.  A handler does not touch the receive buffer.
-/

namespace Calc24

/-- `MAX_MSG_LENGTH`. -/
def MAX_MSG_LENGTH : ℕ := 64

/-- `enum class DecodePackageResult`. -/
inductive DecodePackageResult
  | success
  | failed
  | wantMoreData
  deriving DecidableEq, Repr

namespace Calc24Session

variable {σ : Type*} (processPackage : Bytes → σ → σ)

/-- `Calc24Session::decodePackage`. -/
def decodePackage (recvBuf : ByteBuffer) (s : σ) : DecodePackageResult × ByteBuffer × σ :=
  match recvBuf.fiindLF with
  | none =>
    if recvBuf.remaining > MAX_MSG_LENGTH then (.failed, recvBuf, s)
    else (.wantMoreData, recvBuf, s)
  | some position =>
    let (currentPackage, recvBuf) := recvBuf.retrieve (position + 1)
    (.success, recvBuf, processPackage currentPackage s)

variable {recvBuf : ByteBuffer}

/-- Without a line feed no package is taken; what counts is the length of the buffer. -/
lemma decodePackage_of_not_mem (h : LF ∉ recvBuf.internalBuf) (s : σ) :
    decodePackage processPackage recvBuf s =
      (if recvBuf.remaining > MAX_MSG_LENGTH then .failed else .wantMoreData, recvBuf, s) := by
  by_cases hlen : recvBuf.remaining > MAX_MSG_LENGTH <;>
    simp [decodePackage, ByteBuffer.fiindLF_eq_none_iff.mpr h, hlen]

/-- With a line feed the package that it ends is taken, whatever its length. -/
lemma decodePackage_frame {body rest : Bytes} (hbuf : recvBuf.internalBuf = body ++ LF :: rest)
    (hbody : LF ∉ body) (s : σ) :
    decodePackage processPackage recvBuf s =
      (.success, { internalBuf := rest }, processPackage (body ++ [LF]) s) := by
  rw [decodePackage, ByteBuffer.fiindLF_eq_some hbuf hbody]
  simp only [ByteBuffer.retrieve_frame hbuf]

/-- A package that is taken leaves a shorter buffer. -/
lemma remaining_lt_of_success {processPackage : Bytes → σ → σ} {recvBuf' : ByteBuffer} {s s' : σ}
    (h : decodePackage processPackage recvBuf s = (.success, recvBuf', s')) :
    recvBuf'.remaining < recvBuf.remaining := by
  rcases Framing.not_mem_or_exists_first LF recvBuf.internalBuf with hno | ⟨body, rest, hbody, hbuf⟩
  · rw [decodePackage_of_not_mem processPackage hno] at h
    split at h <;> simp at h
  · rw [decodePackage_frame processPackage hbuf hbody] at h
    simp only [Prod.mk.injEq, true_and] at h
    rw [← h.1, ByteBuffer.remaining, ByteBuffer.remaining, hbuf]
    simp only [List.length_append, List.length_cons]
    omega

/-- `Calc24Session::onRead` up to `forceClose`: the first component is the result that ended the
loop, and `failed` means that `forceClose` is called next. -/
def onRead (recvBuf : ByteBuffer) (s : σ) : DecodePackageResult × ByteBuffer × σ :=
  match _h : decodePackage processPackage recvBuf s with
  | (.wantMoreData, recvBuf', s') => (.wantMoreData, recvBuf', s')
  | (.failed, recvBuf', s') => (.failed, recvBuf', s')
  | (.success, recvBuf', s') => onRead recvBuf' s'
termination_by recvBuf.remaining
decreasing_by exact remaining_lt_of_success (by assumption)

/-- Without a line feed in the buffer `onRead` waits for more, or gives up if there is too much
already. -/
lemma onRead_of_not_mem (h : LF ∉ recvBuf.internalBuf) (s : σ) :
    onRead processPackage recvBuf s =
      (if recvBuf.remaining > MAX_MSG_LENGTH then .failed else .wantMoreData, recvBuf, s) := by
  have hdecode := decodePackage_of_not_mem processPackage h s
  by_cases hlen : recvBuf.remaining > MAX_MSG_LENGTH
  · rw [if_pos hlen] at hdecode ⊢
    rw [onRead]
    split <;> rename_i heq <;> rw [hdecode] at heq <;> cases heq
    rfl
  · rw [if_neg hlen] at hdecode ⊢
    rw [onRead]
    split <;> rename_i heq <;> rw [hdecode] at heq <;> cases heq
    rfl

/-- A line in the buffer is handled, and `onRead` goes on behind it. -/
lemma onRead_frame {body rest : Bytes} (hbuf : recvBuf.internalBuf = body ++ LF :: rest)
    (hbody : LF ∉ body) (s : σ) :
    onRead processPackage recvBuf s =
      onRead processPackage { internalBuf := rest } (processPackage (body ++ [LF]) s) := by
  have hdecode := decodePackage_frame processPackage hbuf hbody s
  rw [onRead]
  split <;> rename_i heq <;> rw [hdecode] at heq <;> cases heq
  rfl

/-- **The read loop hands over the complete frames of the buffer in order and leaves its residue;
it fails exactly if the residue is longer than a message may be.** -/
theorem onRead_eq (recvBuf : ByteBuffer) (s : σ) :
    onRead processPackage recvBuf s =
      (if (Framing.residue LF recvBuf.internalBuf).length > MAX_MSG_LENGTH then .failed
        else .wantMoreData,
        { internalBuf := Framing.residue LF recvBuf.internalBuf },
        (Framing.frames LF recvBuf.internalBuf).foldl (fun s p => processPackage p s) s) := by
  obtain ⟨buf⟩ := recvBuf
  induction buf using Framing.frameInduction LF generalizing s with
  | open_ l h =>
    rw [onRead_of_not_mem processPackage h, Framing.frames_of_not_mem h, Framing.residue_of_not_mem h]
    rfl
  | frame body rest h ih =>
    rw [onRead_frame processPackage rfl h, ih, Framing.frames_append_delimiter h,
      Framing.residue_append_delimiter h, List.foldl_cons]

end Calc24Session

end Calc24
