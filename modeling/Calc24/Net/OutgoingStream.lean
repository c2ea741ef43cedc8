import Calc24.Lib.Mailbox
import Calc24.Net.BufferedOutput

/-!
# The outgoing stream of a connection

`TCPConnection::send` is called on any thread.  On the thread of the connection's loop the message
goes to `sendInternal` at once; on other threads it becomes a task of the loop, which takes its
queue as a whole in `doOtherTask`.  The tasks that send on one connection are a mailbox with a
direct path, and `sendInternal` and `onWrite` share one buffer for what the kernel has not
accepted yet.

The bytes that the kernel has accepted, followed by the send buffer, are the messages that have
been handed to `sendInternal`, whole and in this order; and these are, for each thread, the first
messages it has sent, the rest being queued (`outgoingStream_wholeMessages`).  This holds whatever
the kernel answers.
-/

namespace Calc24

variable {T δ : Type*} [DecidableEq T] (self : δ) (owner : T)

/-- A connection with the sends that are queued for it, and as ghosts the bytes that the kernel
has accepted and the messages for which `send` has been called. -/
structure OutgoingStream (T δ : Type*) where
  endpoint : Endpoint δ
  sends : Mailbox T Bytes := {}
  accepted : Bytes := []
  calls : List (T × Bytes) := []

/-- A call of `send`, a step of the loop over its tasks, or another call on the connection. -/
inductive StreamStep (T δ : Type*)
  | send (thread : T) (answers : List SendResult) (buf : Bytes)
  | swap
  | runTask (answers : List SendResult)
  | other (call : ConnectionCall δ)

/-- The bytes that the kernel accepts during a loop of `::send` calls. -/
def flushed : List SendResult → ByteBuffer → Bytes
  | [], sendBuf => sendBuf.internalBuf
  | .sent n :: answers, sendBuf =>
    if n = 0 then []
    else if (sendBuf.erase n).isEmpty then sendBuf.internalBuf.take n
    else sendBuf.internalBuf.take n ++ flushed answers (sendBuf.erase n)
  | .error .EINTR :: answers, sendBuf => flushed answers sendBuf
  | .error _ :: _, _ => []

/-- The bytes that the kernel accepts during a call. -/
def ConnectionCall.accepts (p : Endpoint δ) : ConnectionCall δ → Bytes
  | .sendInternal answers buf => flushed answers (p.connection.sendBuf.append buf)
  | .onWrite answers => if p.connection.enableWrite then flushed answers p.connection.sendBuf else []
  | _ => []

/-- The message that a call is about. -/
def ConnectionCall.message : ConnectionCall δ → Bytes
  | .sendInternal _ buf => buf
  | _ => []

namespace OutgoingStream

/-- Make a call on the connection. -/
def perform (call : ConnectionCall δ) (s : OutgoingStream T δ) : OutgoingStream T δ :=
  { s with
    endpoint := call.perform self s.endpoint
    accepted := s.accepted ++ call.accepts s.endpoint }

/-- `TCPConnection::send`: on the thread of the loop the message goes to `sendInternal`, and
otherwise into the queue of the loop. -/
def send (thread : T) (answers : List SendResult) (buf : Bytes) (s : OutgoingStream T δ) :
    OutgoingStream T δ :=
  let s := { s with
    sends := s.sends.post owner (thread, buf)
    calls := s.calls ++ [(thread, buf)] }
  if thread = owner then s.perform self (.sendInternal answers buf) else s

/-- One step, where it is possible.  Messages are not empty and their lengths are values of
`int`. -/
def next (s : OutgoingStream T δ) : StreamStep T δ → Option (OutgoingStream T δ)
  | .send thread answers buf =>
    if buf ≠ [] ∧ buf.length < 2 ^ 31 then some (s.send self owner thread answers buf) else none
  | .swap => if s.sends.batch = [] then some { s with sends := s.sends.take } else none
  | .runTask answers =>
    match s.sends.batch with
    | [] => none
    | (_, buf) :: _ =>
      some ({ s with sends := s.sends.handleNext }.perform self (.sendInternal answers buf))
  | .other (.sendInternal _ _) => none
  | .other call => some (s.perform self call)

end OutgoingStream

/-- The runs of a connection with threads that send on it, from `startRead` on. -/
def streamSystem : TransitionSystem (OutgoingStream T δ) (StreamStep T δ) where
  init s := ∃ (fd : ℕ) (loop : LoopId) (epoll : Epoll δ),
    s = { endpoint :=
      Endpoint.startRead self { connection := { fd := fd, loop := loop }, epoll := epoll } }
  step s l s' := s.next self owner l = some s'

/-! ## What the kernel accepts -/

/-- The loop of `::send` calls splits the buffer into what is accepted and what is left. -/
lemma flushed_append_flush (answers : List SendResult) (sendBuf : ByteBuffer) :
    flushed answers sendBuf ++ (flush answers sendBuf).2.internalBuf = sendBuf.internalBuf := by
  induction answers generalizing sendBuf with
  | nil =>
    by_cases h : sendBuf.remaining = 0
    · have hempty : sendBuf.internalBuf = [] := List.eq_nil_of_length_eq_zero h
      simp [flushed, flush, h, hempty]
    · simp [flushed, flush, h]
  | cons answer answers ih =>
    cases answer with
    | sent n =>
      by_cases hn : n = 0
      · simp [flushed, flush, hn]
      · have hsplit : sendBuf.internalBuf.take n ++ (sendBuf.erase n).internalBuf =
            sendBuf.internalBuf := by
          unfold ByteBuffer.erase
          split
          · next hall =>
            simp [List.take_of_length_le (hall.resolve_left hn)]
          · exact List.take_append_drop n sendBuf.internalBuf
        by_cases hempty : (sendBuf.erase n).isEmpty = true
        · simpa only [flushed, flush, hn, if_false, hempty, if_true] using hsplit
        · simp only [flushed, flush, hn, if_false, hempty, Bool.false_eq_true]
          rw [List.append_assoc, ih, hsplit]
    | error e =>
      cases e with
      | EINTR => exact ih sendBuf
      | EAGAIN => simp [flushed, flush]
      | EWOULDBLOCK => simp [flushed, flush]
      | other code => simp [flushed, flush]

variable {self owner} {p : Endpoint δ} {s s' : OutgoingStream T δ} {l : StreamStep T δ}

/-- A close leaves the send buffer alone. -/
@[simp] lemma onClose_sendBuf (p : Endpoint δ) :
    (p.onClose self).connection.sendBuf = p.connection.sendBuf := rfl

@[simp] lemma registerWriteEvent_sendBuf (p : Endpoint δ) :
    (p.registerWriteEvent self).connection.sendBuf = p.connection.sendBuf := by
  unfold Endpoint.registerWriteEvent
  split <;> rfl

@[simp] lemma unregisterWriteEvent_sendBuf (p : Endpoint δ) :
    (p.unregisterWriteEvent self).connection.sendBuf = p.connection.sendBuf := by
  unfold Endpoint.unregisterWriteEvent
  split <;> rfl

/-- A message is appended to the send buffer, which is flushed then. -/
lemma perform_sendInternal_sendBuf (answers : List SendResult) (buf : Bytes) :
    ((ConnectionCall.sendInternal answers buf).perform self p).connection.sendBuf =
      (flush answers (p.connection.sendBuf.append buf)).2 := by
  simp only [ConnectionCall.perform, Endpoint.sendInternal]
  cases hflush : flush answers (p.connection.sendBuf.append buf) with
  | mk ending sendBuf => cases ending <;> simp [Endpoint.setSendBuf]

/-- The write event flushes the send buffer. -/
lemma onWrite_sendBuf (answers : List SendResult) :
    (p.onWrite self answers).connection.sendBuf =
      if p.connection.enableWrite then (flush answers p.connection.sendBuf).2
      else p.connection.sendBuf := by
  unfold Endpoint.onWrite
  cases p.connection.enableWrite with
  | false => rfl
  | true =>
    cases hflush : flush answers p.connection.sendBuf with
    | mk ending sendBuf => cases ending <;> simp [Endpoint.setSendBuf]

/-- No call loses or repeats a byte: what was buffered, followed by the message, is what the
kernel accepts followed by what is buffered then. -/
theorem accepts_append_sendBuf (call : ConnectionCall δ) :
    call.accepts p ++ (call.perform self p).connection.sendBuf.internalBuf =
      p.connection.sendBuf.internalBuf ++ call.message := by
  cases call with
  | sendInternal answers buf =>
    rw [perform_sendInternal_sendBuf]
    exact flushed_append_flush answers (p.connection.sendBuf.append buf)
  | enableReadWrite read write => exact (List.append_nil _).symm
  | onRead n left =>
    obtain ⟨⟨fd, loop, registered, enableRead, enableWrite, recvBuf, sendBuf, closed⟩, epoll⟩ := p
    cases enableRead with
    | false => exact (List.append_nil _).symm
    | true => cases n <;> exact (List.append_nil _).symm
  | onWrite answers =>
    simp only [ConnectionCall.perform, ConnectionCall.accepts, ConnectionCall.message,
      onWrite_sendBuf, List.append_nil]
    split
    · exact flushed_append_flush answers p.connection.sendBuf
    · rfl
  | forceClose => exact (List.append_nil _).symm
  | elsewhere epoll => exact (List.append_nil _).symm

/-! ## The law of the stream -/

namespace OutgoingStream

/-- The messages that have been handed to `sendInternal`, one after another. -/
def executedBytes (s : OutgoingStream T δ) : Bytes :=
  (s.sends.handled.map Prod.snd).flatten

variable (owner) in
/-- What the kernel has accepted and what is buffered are the executed messages, and the sends
are a mailbox in order. -/
structure Whole (s : OutgoingStream T δ) : Prop where
  bytes : s.accepted ++ s.endpoint.connection.sendBuf.internalBuf = s.executedBytes
  inOrder : s.sends.InOrder owner s.calls

omit [DecidableEq T] in
variable (self) in
/-- A call with the message that has just been executed. -/
lemma bytes_perform (call : ConnectionCall δ) {executed : Bytes}
    (h : s.accepted ++ s.endpoint.connection.sendBuf.internalBuf = executed) :
    (s.perform self call).accepted ++
        (s.perform self call).endpoint.connection.sendBuf.internalBuf =
      executed ++ call.message := by
  simp only [perform]
  rw [List.append_assoc, accepts_append_sendBuf, ← List.append_assoc, h]

/-- `send` keeps the law. -/
lemma Whole.send (h : Whole owner s) (thread : T) (answers : List SendResult) (buf : Bytes) :
    Whole owner (s.send self owner thread answers buf) := by
  have hpost := h.inOrder.post (thread, buf)
  by_cases howner : thread = owner
  · have hbytes := bytes_perform self (.sendInternal answers buf) h.bytes
    simp only [OutgoingStream.send, if_pos howner]
    refine ⟨?_, hpost⟩
    simp only [perform, ConnectionCall.message, executedBytes, Mailbox.post, if_pos howner,
      List.map_append, List.map_singleton, List.flatten_append, List.flatten_singleton] at hbytes ⊢
    exact hbytes
  · simp only [OutgoingStream.send, if_neg howner]
    refine ⟨?_, hpost⟩
    simp only [executedBytes, Mailbox.post, if_neg howner]
    exact h.bytes

/-- A step keeps the law. -/
theorem Whole.step (h : Whole owner s) (hstep : (streamSystem self owner).step s l s') :
    Whole owner s' := by
  cases l with
  | send thread answers buf =>
    obtain ⟨-, heq⟩ := Option.ite_none_right_eq_some.mp hstep
    cases heq
    exact h.send thread answers buf
  | swap =>
    obtain ⟨hbatch, heq⟩ := Option.ite_none_right_eq_some.mp hstep
    cases heq
    exact ⟨h.bytes, h.inOrder.take hbatch⟩
  | runTask answers =>
    simp only [streamSystem, next] at hstep
    split at hstep
    · cases hstep
    · next thread buf batch hbatch =>
      cases hstep
      have hbytes := bytes_perform self (.sendInternal answers buf) h.bytes
      refine ⟨?_, h.inOrder.handleNext⟩
      simp only [perform, ConnectionCall.message, executedBytes, Mailbox.handleNext, hbatch,
        List.map_append, List.map_singleton, List.flatten_append,
        List.flatten_singleton] at hbytes ⊢
      exact hbytes
  | other call =>
    have hquiet : call.message = [] ∧ s' = s.perform self call := by
      cases call with
      | sendInternal answers buf => cases hstep
      | _ => exact ⟨rfl, (Option.some.inj hstep).symm⟩
    obtain ⟨hmessage, rfl⟩ := hquiet
    have hbytes := bytes_perform self call h.bytes
    rw [hmessage, List.append_nil] at hbytes
    exact ⟨hbytes, h.inOrder⟩

/-- **The outgoing stream consists of whole messages, in each sender's order.** -/
theorem outgoingStream_wholeMessages (h : (streamSystem self owner).Reachable s) :
    s.accepted ++ s.endpoint.connection.sendBuf.internalBuf =
        (s.sends.handled.map Prod.snd).flatten ∧
      ∀ thread, Mailbox.sentBy thread s.sends.handled ++ Mailbox.sentBy thread s.sends.pending =
        Mailbox.sentBy thread s.calls := by
  have hwhole : Whole owner s := h.invariant
    (by rintro s ⟨fd, loop, epoll, rfl⟩; exact ⟨rfl, Mailbox.inOrder_empty⟩)
    fun _ _ _ hs h => Whole.step hs h
  exact ⟨hwhole.bytes, hwhole.inOrder.order⟩

/-- A connection that has just been opened. -/
def opened : OutgoingStream Bool Unit where
  endpoint := openedEndpoint

/-- The owner `true` sends a message of which the kernel takes one byte of two, while a message of
another thread is queued and executed after it. -/
def twoSenders : List (StreamStep Bool Unit) :=
  [.send false [] [97, 10], .send true [.sent 1, .error .EAGAIN] [98, 10], .swap,
    .runTask [.error .EAGAIN]]

/-- The message of the owner comes first in the stream, although it was sent later. -/
theorem outgoingStream_wholeMessages_twoSenders :
    (TransitionSystem.runAll (next () true) opened twoSenders).accepted ++
        (TransitionSystem.runAll (next () true) opened
          twoSenders).endpoint.connection.sendBuf.internalBuf = [98, 10, 97, 10] := by
  have hreach : (streamSystem () true).Reachable
      (TransitionSystem.runAll (next () true) opened twoSenders) :=
    TransitionSystem.ReachableUnder.runAll (fun _ _ _ h => h)
      (.init ⟨5, .worker 0, Epoll.empty, rfl⟩) (by decide)
  exact (outgoingStream_wholeMessages hreach).1

end OutgoingStream

end Calc24
