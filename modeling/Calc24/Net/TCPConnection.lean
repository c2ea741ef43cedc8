import Calc24.Net.EventLoop

/-!
# `TCPConnection`

One accepted connection (`net/TCPConnection.cpp`).  What the kernel answers to `::send` is an
input of the model: each call of a function that sends comes with the answers to the `::send`
calls it makes, in order.  A list of answers that ends early means that the kernel takes all that
is left at the next call; this covers every call that returns.

The part of the class that touches nothing but the connection and the epoll instance of its loop
is written over an `Endpoint`.  The callbacks belong to the application and are added where the
whole server is put together.
-/

namespace Calc24

/-- The values of `errno` that the code tells apart. -/
inductive Errno
  | EINTR
  | EAGAIN
  | EWOULDBLOCK
  | other (code : ℕ)
  deriving DecidableEq, Repr

/-- The result of one `::send` call: a count, or `-1` with an `errno`. -/
inductive SendResult
  | sent (n : ℕ)
  | error (e : Errno)
  deriving DecidableEq, Repr

/-- The result of one `::recv` call: some bytes, `0` at the end of the stream, or `-1`. -/
inductive RecvResult
  | data (buf : Bytes)
  | eof
  | error (e : Errno)
  deriving DecidableEq, Repr

/-- The data members of `class TCPConnection`, apart from the callbacks.  `closed` is a ghost: it
records that `onClose` has run. -/
structure TCPConnection where
  fd : ℕ
  loop : LoopId
  registerWriteEvent : Bool := false
  enableRead : Bool := false
  enableWrite : Bool := false
  recvBuf : ByteBuffer := {}
  sendBuf : ByteBuffer := {}
  closed : Bool := false
  deriving DecidableEq, Repr

/-! ## Sending -/

/-- How a loop of `::send` calls ends. -/
inductive FlushEnd
  | drained
  | zero
  | again
  | failed
  deriving DecidableEq, Repr

/-- The `::send` loop that `sendInternal` and `onWrite` share: offer the whole buffer, drop what
was taken, and go on until the buffer is empty or an answer ends the loop.  The answers are a finite
list, after which the kernel takes the rest, so a loop that gets `EINTR` for ever is left out. -/
def flush : List SendResult → ByteBuffer → FlushEnd × ByteBuffer
  | [], sendBuf => if sendBuf.remaining = 0 then (.zero, sendBuf) else (.drained, {})
  | .sent n :: answers, sendBuf =>
    if n = 0 then (.zero, sendBuf)
    else if (sendBuf.erase n).isEmpty then (.drained, sendBuf.erase n)
    else flush answers (sendBuf.erase n)
  | .error .EINTR :: answers, sendBuf => flush answers sendBuf
  | .error .EAGAIN :: _, sendBuf => (.again, sendBuf)
  | .error .EWOULDBLOCK :: _, sendBuf => (.again, sendBuf)
  | .error (.other _) :: _, sendBuf => (.failed, sendBuf)

/-- A connection together with the epoll instance of its loop. -/
structure Endpoint (δ : Type*) where
  connection : TCPConnection
  epoll : Epoll δ

namespace Endpoint

variable {δ : Type*} (self : δ)

/-- Replace the send buffer. -/
def setSendBuf (p : Endpoint δ) (sendBuf : ByteBuffer) : Endpoint δ :=
  { p with connection := { p.connection with sendBuf := sendBuf } }

/-- Replace the receive buffer. -/
def setRecvBuf (p : Endpoint δ) (recvBuf : ByteBuffer) : Endpoint δ :=
  { p with connection := { p.connection with recvBuf := recvBuf } }

/-- `TCPConnection::startRead`. -/
def startRead (p : Endpoint δ) : Endpoint δ :=
  { p with epoll := EventLoop.registerReadEvent p.connection.fd self p.epoll }

/-- `TCPConnection::registerWriteEvent`. -/
def registerWriteEvent (p : Endpoint δ) : Endpoint δ :=
  if p.connection.registerWriteEvent then p
  else { p with epoll := EventLoop.registerWriteEvent p.connection.fd self p.epoll }

/-- `TCPConnection::unregisterWriteEvent`. -/
def unregisterWriteEvent (p : Endpoint δ) : Endpoint δ :=
  if !p.connection.registerWriteEvent then p
  else
    { connection := { p.connection with registerWriteEvent := false }
      epoll := EventLoop.unregisterWriteEvent p.connection.fd self p.epoll }

/-- `TCPConnection::unregisterAllEvent`. -/
def unregisterAllEvent (p : Endpoint δ) : Endpoint δ :=
  { connection := { p.connection with registerWriteEvent := false }
    epoll := EventLoop.unregisterAllEvents p.connection.fd self p.epoll }

/-- `TCPConnection::onClose` up to the close callback. -/
def onClose (p : Endpoint δ) : Endpoint δ :=
  let p := p.unregisterAllEvent self
  { p with connection := { p.connection with closed := true } }

/-- `TCPConnection::sendInternal` up to `onClose`: the first component says whether it ends by
calling `onClose`.  The write callback is empty. -/
def sendInternal (answers : List SendResult) (buf : Bytes) (p : Endpoint δ) : Bool × Endpoint δ :=
  match flush answers (p.connection.sendBuf.append buf) with
  | (.drained, sendBuf) => (false, p.setSendBuf sendBuf)
  | (.again, sendBuf) => (false, registerWriteEvent self (p.setSendBuf sendBuf))
  | (.zero, sendBuf) => (true, p.setSendBuf sendBuf)
  | (.failed, sendBuf) => (true, p.setSendBuf sendBuf)

/-- `TCPConnection::onWrite`. -/
def onWrite (answers : List SendResult) (p : Endpoint δ) : Endpoint δ :=
  if !p.connection.enableWrite then p
  else
    match flush answers p.connection.sendBuf with
    | (.again, sendBuf) => unregisterWriteEvent self (p.setSendBuf sendBuf)
    | (_, sendBuf) => p.setSendBuf sendBuf

/-- `TCPConnection::enableReadWrite`. -/
def enableReadWrite (read write : Bool) (p : Endpoint δ) : Endpoint δ :=
  { p with connection := { p.connection with enableRead := read, enableWrite := write } }

end Endpoint

/-! ## What a call can change -/

namespace Endpoint

variable {δ : Type*} {self : δ} {p p' p'' : Endpoint δ}

/-- What the functions of a connection can change: not its descriptor and its loop, a closed
connection stays closed, and what they register with epoll is the connection itself. -/
structure Changes (d : δ) (p p' : Endpoint δ) : Prop where
  fd_eq : p'.connection.fd = p.connection.fd
  loop_eq : p'.connection.loop = p.connection.loop
  closed : p.connection.closed = true → p'.connection.closed = true
  interest : ∀ fd x, p'.epoll.interest fd = some x → x.2 = d ∨ p.epoll.interest fd = some x

lemma Changes.refl (p : Endpoint δ) : Changes self p p where
  fd_eq := rfl
  loop_eq := rfl
  closed := id
  interest _ _ := Or.inr

lemma Changes.trans (h : Changes self p p') (h' : Changes self p' p'') : Changes self p p'' where
  fd_eq := h'.fd_eq.trans h.fd_eq
  loop_eq := h'.loop_eq.trans h.loop_eq
  closed hp := h'.closed (h.closed hp)
  interest fd x hx := (h'.interest fd x hx).elim Or.inl (h.interest fd x)

variable (self p)

/-- Another send buffer. -/
lemma changes_setSendBuf (sendBuf : ByteBuffer) : Changes self p (p.setSendBuf sendBuf) :=
  ⟨rfl, rfl, id, fun _ _ => Or.inr⟩

lemma changes_setRecvBuf (recvBuf : ByteBuffer) : Changes self p (p.setRecvBuf recvBuf) :=
  ⟨rfl, rfl, id, fun _ _ => Or.inr⟩

/-- The two marks that `Epoll::poll` sets. -/
lemma changes_enableReadWrite (read write : Bool) :
    Changes self p (p.enableReadWrite read write) :=
  ⟨rfl, rfl, id, fun _ _ => Or.inr⟩

/-- A registration of the write event. -/
lemma changes_registerWriteEvent : Changes self p (p.registerWriteEvent self) := by
  unfold registerWriteEvent
  split
  · exact Changes.refl p
  · exact ⟨rfl, rfl, id, fun _ _ => Epoll.registerEvent_interest⟩

lemma changes_unregisterWriteEvent : Changes self p (p.unregisterWriteEvent self) := by
  unfold unregisterWriteEvent
  split
  · exact Changes.refl p
  · exact ⟨rfl, rfl, id, fun _ _ => Epoll.unregisterEvent_interest⟩

/-- The close of the connection. -/
lemma changes_onClose : Changes self p (p.onClose self) :=
  ⟨rfl, rfl, fun _ => rfl, fun _ _ => Epoll.unregisterReadWriteEvent_interest⟩

/-- A send, with the close or the registration that its last answer leads to. -/
lemma changes_sendInternal (answers : List SendResult) (buf : Bytes) :
    Changes self p (p.sendInternal self answers buf).2 := by
  unfold sendInternal
  split
  · exact changes_setSendBuf self p _
  · exact (changes_setSendBuf self p _).trans (changes_registerWriteEvent self _)
  · exact changes_setSendBuf self p _
  · exact changes_setSendBuf self p _

/-- A flush of what is left in the send buffer. -/
lemma changes_onWrite (answers : List SendResult) : Changes self p (p.onWrite self answers) := by
  unfold onWrite
  split
  · exact Changes.refl p
  · split
    · exact (changes_setSendBuf self p _).trans (changes_unregisterWriteEvent self _)
    · exact changes_setSendBuf self p _

end Endpoint

/-! ## Receiving -/

/-- `TCPConnection::onRead`, as a function of the receive buffer and of the state `σ` that its
callbacks act on.  At the end of the stream the connection is closed, and the function goes on
with an empty chunk. -/
def TCPConnection.onRead {σ : Type*} (onClose : σ → σ)
    (readCallback : ByteBuffer → σ → ByteBuffer × σ) (enableRead : Bool) (n : RecvResult)
    (recvBuf : ByteBuffer) (s : σ) : ByteBuffer × σ :=
  if !enableRead then (recvBuf, s)
  else
    match n with
    | .eof => readCallback (recvBuf.append []) (onClose s)
    | .error _ => (recvBuf, s)
    | .data buf => readCallback (recvBuf.append buf) s

/-! ## What the kernel's answers decide -/

/-- The answers refuse the bytes: with `remaining` bytes to send, a call is answered with `0` or
with an error other than the retryable ones before everything is taken. -/
def refuses : List SendResult → ℕ → Bool
  | [], remaining => remaining == 0
  | .sent n :: answers, remaining =>
    if n = 0 then true else if remaining ≤ n then false else refuses answers (remaining - n)
  | .error .EINTR :: answers, remaining => refuses answers remaining
  | .error .EAGAIN :: _, _ => false
  | .error .EWOULDBLOCK :: _, _ => false
  | .error (.other _) :: _, _ => true

/-- The answers block the bytes: a call is answered with `EAGAIN` or `EWOULDBLOCK` while some of
the `remaining` bytes are still to be sent. -/
def blocks : List SendResult → ℕ → Bool
  | [], _ => false
  | .sent n :: answers, remaining =>
    if n = 0 then false else if remaining ≤ n then false else blocks answers (remaining - n)
  | .error .EINTR :: answers, remaining => blocks answers remaining
  | .error .EAGAIN :: _, remaining => remaining != 0
  | .error .EWOULDBLOCK :: _, remaining => remaining != 0
  | .error (.other _) :: _, _ => false

/-- A buffer is empty after the bytes that were sent have been erased, exactly if it had no more
than these. -/
lemma isEmpty_erase_iff (sendBuf : ByteBuffer) {n : ℕ} (hn : n ≠ 0) :
    (sendBuf.erase n).isEmpty = true ↔ sendBuf.remaining ≤ n := by
  rw [ByteBuffer.isEmpty_iff_remaining, ByteBuffer.remaining_erase (Nat.pos_of_ne_zero hn)]
  omega

/-- The loop of `::send` calls ends in one of the branches that close the connection exactly
when the answers refuse the bytes. -/
theorem flush_closing_iff_refuses (answers : List SendResult) (sendBuf : ByteBuffer) :
    ((flush answers sendBuf).1 = .zero ∨ (flush answers sendBuf).1 = .failed) ↔
      refuses answers sendBuf.remaining = true := by
  induction answers generalizing sendBuf with
  | nil =>
    by_cases h : sendBuf.remaining = 0 <;> simp [flush, refuses, h]
  | cons answer answers ih =>
    cases answer with
    | sent n =>
      by_cases hn : n = 0
      · simp [flush, refuses, hn]
      · have hempty := isEmpty_erase_iff sendBuf hn
        have hrem := ByteBuffer.remaining_erase (b := sendBuf) (Nat.pos_of_ne_zero hn)
        by_cases hle : sendBuf.remaining ≤ n
        · simp [flush, refuses, hn, hempty.mpr hle, hle]
        · have hrest := ih (sendBuf.erase n)
          rw [hrem] at hrest
          simp only [flush, refuses, hn, if_false, hempty, hle]
          exact hrest
    | error e =>
      cases e with
      | EINTR => exact ih sendBuf
      | EAGAIN => simp [flush, refuses]
      | EWOULDBLOCK => simp [flush, refuses]
      | other code => simp [flush, refuses]

/-- Where the loop does not close the connection, it leaves bytes in the buffer exactly when the
answers block them. -/
theorem flush_remaining_iff_blocks (answers : List SendResult) (sendBuf : ByteBuffer)
    (hclose : refuses answers sendBuf.remaining = false) :
    ((flush answers sendBuf).2.remaining ≠ 0) ↔ blocks answers sendBuf.remaining = true := by
  induction answers generalizing sendBuf with
  | nil =>
    have hpos : sendBuf.remaining ≠ 0 := by simpa [refuses] using hclose
    have hflush : flush [] sendBuf = (.drained, {}) := by rw [flush, if_neg hpos]
    simp [hflush, blocks, ByteBuffer.remaining]
  | cons answer answers ih =>
    cases answer with
    | sent n =>
      by_cases hn : n = 0
      · simp [refuses, hn] at hclose
      · have hempty := isEmpty_erase_iff sendBuf hn
        have hrem := ByteBuffer.remaining_erase (b := sendBuf) (Nat.pos_of_ne_zero hn)
        by_cases hle : sendBuf.remaining ≤ n
        · have hzero : (sendBuf.erase n).remaining = 0 := by omega
          simp [flush, blocks, hn, hempty.mpr hle, hle, hzero]
        · simp only [refuses, hn, if_false, hle] at hclose
          have hrest := ih (sendBuf.erase n) (by rw [hrem]; exact hclose)
          rw [hrem] at hrest
          simp only [flush, blocks, hn, if_false, hempty, hle]
          exact hrest
    | error e =>
      cases e with
      | EINTR => exact ih sendBuf hclose
      | EAGAIN => simp [flush, blocks]
      | EWOULDBLOCK => simp [flush, blocks]
      | other code => simp [refuses] at hclose

/-- Answers that refuse the bytes do not block them. -/
lemma blocks_eq_false_of_refuses (answers : List SendResult) (remaining : ℕ)
    (h : refuses answers remaining = true) : blocks answers remaining = false := by
  induction answers generalizing remaining with
  | nil => rfl
  | cons answer answers ih =>
    cases answer with
    | sent n =>
      by_cases hn : n = 0
      · simp [blocks, hn]
      · by_cases hle : remaining ≤ n
        · simp [blocks, hn, hle]
        · simp only [refuses, hn, if_false, hle] at h
          simp only [blocks, hn, if_false, hle]
          exact ih (remaining - n) h
    | error e =>
      cases e with
      | EINTR => exact ih remaining h
      | EAGAIN => simp [refuses] at h
      | EWOULDBLOCK => simp [refuses] at h
      | other code => rfl

/-- An empty buffer stays empty. -/
lemma flush_remaining_of_empty (answers : List SendResult) (sendBuf : ByteBuffer)
    (h : sendBuf.remaining = 0) : (flush answers sendBuf).2.remaining = 0 := by
  induction answers with
  | nil => simp [flush, h]
  | cons answer answers ih =>
    cases answer with
    | sent n =>
      by_cases hn : n = 0
      · simp [flush, hn, h]
      · have hempty : (sendBuf.erase n).isEmpty = true := by
          rw [isEmpty_erase_iff sendBuf hn]
          omega
        simp only [flush, hn, if_false, hempty, if_true]
        rwa [← ByteBuffer.isEmpty_iff_remaining]
    | error e =>
      cases e with
      | EINTR => exact ih
      | EAGAIN => exact h
      | EWOULDBLOCK => exact h
      | other code => exact h

/-! ## What a message does -/

namespace Endpoint

variable {δ : Type*} (self : δ)

/-- A message ends in a close exactly if the kernel refuses the bytes. -/
theorem sendInternal_closes_iff_refuses (answers : List SendResult) (buf : Bytes)
    (p : Endpoint δ) :
    (p.sendInternal self answers buf).1 = true ↔
      refuses answers (p.connection.sendBuf.remaining + buf.length) = true := by
  rw [← ByteBuffer.remaining_append, ← flush_closing_iff_refuses]
  cases hflush : flush answers (p.connection.sendBuf.append buf) with
  | mk ending sendBuf => cases ending <;> simp [sendInternal, hflush]

/-- Up to the close, a message does not close the connection. -/
lemma sendInternal_closed (answers : List SendResult) (buf : Bytes) (p : Endpoint δ) :
    (p.sendInternal self answers buf).2.connection.closed = p.connection.closed := by
  unfold sendInternal
  split
  · rfl
  · unfold registerWriteEvent
    split <;> rfl
  · rfl
  · rfl

end Endpoint

end Calc24
