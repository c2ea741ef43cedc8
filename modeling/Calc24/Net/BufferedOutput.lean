import Calc24.Lib.TransitionSystem
import Calc24.Net.TCPConnection

/-!
# When buffered output is waited for

A connection that could not send everything keeps the rest in `m_sendBuf` and relies on the epoll
instance of its loop to report that the socket has become writable.  This file follows one open
connection through every run of its loop and compares the two.

The four layers involved do not add up: `sendInternal` asks for the write event, the guard
`m_registerWriteEvent` lets the request pass, and `EventLoop::registerWriteEvent` forwards it to
`Epoll::registerReadEvent`, which finds the descriptor registered and returns.  The interest of an
open connection is therefore `EPOLLIN` throughout (`KeepsReadInterest`), and the law that buffered
output is waited for holds in a run exactly as long as the kernel never blocks a send
(`bufferedOutputAwaited_iff_neverBlocked`).
-/

namespace Calc24

variable {δ : Type*} (self : δ)

/-- What happens to a connection on the thread of its loop.  The sends, and the close, that a read
callback performs are steps of their own. -/
inductive ConnectionCall (δ : Type*)
  /-- A message sent directly or taken from the task queue, with the kernel's answers. -/
  | sendInternal (answers : List SendResult) (buf : Bytes)
  /-- The flags that `Epoll::poll` passes on. -/
  | enableReadWrite (read write : Bool)
  /-- The read event; `left` is what the read callback leaves in the receive buffer. -/
  | onRead (n : RecvResult) (left : ByteBuffer)
  /-- The write event, with the kernel's answers. -/
  | onWrite (answers : List SendResult)
  /-- `Calc24Session::forceClose`. -/
  | forceClose
  /-- Other users of the loop change the epoll instance. -/
  | elsewhere (epoll : Epoll δ)

/-- The effect of a call on the connection and the epoll instance. -/
def ConnectionCall.perform (p : Endpoint δ) : ConnectionCall δ → Endpoint δ
  | .sendInternal answers buf =>
    match p.sendInternal self answers buf with
    | (true, p') => p'.onClose self
    | (false, p') => p'
  | .enableReadWrite read write => p.enableReadWrite read write
  | .onRead n left =>
    let (recvBuf, p') := TCPConnection.onRead (Endpoint.onClose self)
      (fun _ p => (left, p)) p.connection.enableRead n p.connection.recvBuf p
    p'.setRecvBuf recvBuf
  | .onWrite answers => p.onWrite self answers
  | .forceClose => p.onClose self
  | .elsewhere epoll => { p with epoll := epoll }

/-- The runs of one connection while it is open.  It starts with `startRead` on a descriptor
without a mask, or with the mask that an earlier connection left behind, and other users of the
loop do not touch its descriptor. -/
def connectionSystem : TransitionSystem (Endpoint δ) (ConnectionCall δ) where
  init p := ∃ (fd : ℕ) (loop : LoopId) (epoll : Epoll δ),
    (epoll.fdEventFlags fd = none ∨ epoll.fdEventFlags fd = some EPOLLIN) ∧
      p = Endpoint.startRead self { connection := { fd := fd, loop := loop }, epoll := epoll }
  step p call p' := p.connection.closed = false ∧ p' = call.perform self p ∧
    ∀ epoll, call = .elsewhere epoll →
      epoll.fdEventFlags p.connection.fd = p.epoll.fdEventFlags p.connection.fd

/-- If an open connection has buffered output, its recorded interest contains `EPOLLOUT`. -/
def BufferedOutputAwaited (p : Endpoint δ) : Prop :=
  p.connection.closed = false → p.connection.sendBuf.remaining ≠ 0 →
    p.epoll.HasEvent p.connection.fd EPOLLOUT

/-- No message is blocked: the kernel does not answer a send with `EAGAIN` or `EWOULDBLOCK` while
some bytes of the buffer and the message are still to be sent. -/
def NeverBlocked (p : Endpoint δ) : ConnectionCall δ → Prop
  | .sendInternal answers buf =>
    blocks answers (p.connection.sendBuf.remaining + buf.length) = false
  | _ => True

/-- What is recorded for an open connection, in any run: the read event and nothing else. -/
def KeepsReadInterest (p : Endpoint δ) : Prop :=
  p.connection.closed = false →
    p.epoll.fdEventFlags p.connection.fd = some EPOLLIN ∧
      p.connection.registerWriteEvent = false

/-! ## The steps -/

variable {self} {p : Endpoint δ}

/-- Another send buffer is no matter of epoll. -/
lemma KeepsReadInterest.setSendBuf (hp : KeepsReadInterest p) (sendBuf : ByteBuffer) :
    KeepsReadInterest (p.setSendBuf sendBuf) := hp

/-- With `EPOLLIN` alone there is no interest in `EPOLLOUT`. -/
lemma not_hasEvent_EPOLLOUT (h : p.epoll.fdEventFlags p.connection.fd = some EPOLLIN) :
    ¬ p.epoll.HasEvent p.connection.fd EPOLLOUT := by
  rintro ⟨eventFlag, hflag, hbit⟩
  rw [h] at hflag
  cases hflag
  exact hbit (by decide)

/-- With `EPOLLIN` as the only interest, the law says that the send buffer is empty. -/
lemma bufferedOutputAwaited_iff (hopen : p.connection.closed = false) (hp : KeepsReadInterest p) :
    BufferedOutputAwaited p ↔ p.connection.sendBuf.remaining = 0 := by
  constructor
  · intro h
    by_contra hne
    exact not_hasEvent_EPOLLOUT (hp hopen).1 (h hopen hne)
  · intro h _ hne
    exact absurd h hne

/-- A closed connection waits for nothing. -/
lemma bufferedOutputAwaited_of_closed (hclosed : p.connection.closed = true) :
    BufferedOutputAwaited p := fun hopen => by rw [hclosed] at hopen; cases hopen

/-- A close closes the connection. -/
@[simp] lemma onClose_closed (p : Endpoint δ) : (p.onClose self).connection.closed = true := rfl

/-- Asking for the write event has no effect at all. -/
lemma registerWriteEvent_eq (hp : KeepsReadInterest p) (hopen : p.connection.closed = false) :
    p.registerWriteEvent self = p := by
  obtain ⟨hflag, hguard⟩ := hp hopen
  have hread : p.epoll.HasEvent p.connection.fd EPOLLIN := ⟨EPOLLIN, hflag, by decide⟩
  simp only [Endpoint.registerWriteEvent, hguard, Bool.false_eq_true, if_false,
    EventLoop.registerWriteEvent_of_hasEvent hread]

/-- What a message does to an open connection: the answers close the connection, or the send
buffer is what `flush` leaves and nothing else changes. -/
lemma sendInternal_cases (hp : KeepsReadInterest p) (hopen : p.connection.closed = false)
    (answers : List SendResult) (buf : Bytes) :
    (refuses answers (p.connection.sendBuf.remaining + buf.length) = true ∧
        (p.sendInternal self answers buf).1 = true) ∨
      (refuses answers (p.connection.sendBuf.remaining + buf.length) = false ∧
        p.sendInternal self answers buf =
          (false, p.setSendBuf (flush answers (p.connection.sendBuf.append buf)).2)) := by
  have hclosing := flush_closing_iff_refuses answers (p.connection.sendBuf.append buf)
  rw [ByteBuffer.remaining_append] at hclosing
  have hkeep : ∀ sendBuf : ByteBuffer,
      (p.setSendBuf sendBuf).registerWriteEvent self = p.setSendBuf sendBuf :=
    fun sendBuf => registerWriteEvent_eq (hp.setSendBuf sendBuf) hopen
  cases hflush : flush answers (p.connection.sendBuf.append buf) with
  | mk ending sendBuf =>
    rw [hflush] at hclosing
    cases ending with
    | zero => exact Or.inl ⟨hclosing.mp (Or.inl rfl), by simp [Endpoint.sendInternal, hflush]⟩
    | failed => exact Or.inl ⟨hclosing.mp (Or.inr rfl), by simp [Endpoint.sendInternal, hflush]⟩
    | drained =>
      refine Or.inr ⟨?_, by simp [Endpoint.sendInternal, hflush]⟩
      rw [← Bool.not_eq_true, ← hclosing]
      simp
    | again =>
      refine Or.inr ⟨?_, by simp [Endpoint.sendInternal, hflush, hkeep]⟩
      rw [← Bool.not_eq_true, ← hclosing]
      simp

variable (self) in
/-- A write event changes the send buffer only, and not if it is empty. -/
lemma onWrite_eq (hp : KeepsReadInterest p) (hopen : p.connection.closed = false)
    (answers : List SendResult) :
    ∃ sendBuf : ByteBuffer, p.onWrite self answers = p.setSendBuf sendBuf ∧
      (p.connection.sendBuf.remaining = 0 → sendBuf.remaining = 0) := by
  unfold Endpoint.onWrite
  split
  · exact ⟨p.connection.sendBuf, rfl, id⟩
  · have hempty := flush_remaining_of_empty answers p.connection.sendBuf
    have hguard := (hp hopen).2
    split
    · next sendBuf hflush =>
      rw [hflush] at hempty
      exact ⟨sendBuf, by simp [Endpoint.unregisterWriteEvent, Endpoint.setSendBuf, hguard], hempty⟩
    · next ending sendBuf _ hflush =>
      rw [hflush] at hempty
      exact ⟨sendBuf, rfl, hempty⟩

/-- A read event leaves the send buffer and the interest alone, or closes the connection. -/
lemma onRead_perform_cases (n : RecvResult) (left : ByteBuffer) :
    ((ConnectionCall.onRead n left).perform self p).connection.closed = true ∨
      ∃ recvBuf, (ConnectionCall.onRead n left).perform self p = p.setRecvBuf recvBuf := by
  obtain ⟨⟨fd, loop, registered, enableRead, enableWrite, recvBuf, sendBuf, closed⟩, epoll⟩ := p
  cases enableRead with
  | false => exact Or.inr ⟨recvBuf, rfl⟩
  | true =>
    cases n with
    | eof => exact Or.inl rfl
    | error e => exact Or.inr ⟨recvBuf, rfl⟩
    | data buf => exact Or.inr ⟨left, rfl⟩

/-- After `startRead` the read event is recorded. -/
lemma keepsReadInterest_init (h : (connectionSystem self).init p) : KeepsReadInterest p := by
  obtain ⟨fd, loop, epoll, hmask, rfl⟩ := h
  intro _
  refine ⟨?_, rfl⟩
  simp only [Endpoint.startRead, EventLoop.registerReadEvent, Epoll.registerReadEvent,
    Epoll.registerEvent]
  rcases hmask with hmask | hmask
  · simp [hmask]
  · have hbit : EPOLLIN &&& EPOLLIN ≠ 0#32 := by decide
    simp only [hmask, if_pos hbit]

/-- No step adds the write event, whatever the kernel answers. -/
theorem keepsReadInterest_step {p' : Endpoint δ} {call : ConnectionCall δ}
    (hp : KeepsReadInterest p) (h : (connectionSystem self).step p call p') :
    KeepsReadInterest p' := by
  obtain ⟨hopen, rfl, hother⟩ := h
  intro hopen'
  cases call with
  | sendInternal answers buf =>
    simp only [ConnectionCall.perform] at hopen' ⊢
    rcases sendInternal_cases hp hopen answers buf with ⟨-, hclose⟩ | ⟨-, heq⟩
    · cases hsend : p.sendInternal self answers buf with
      | mk close p' =>
        rw [hsend] at hclose hopen'
        cases hclose
        exact absurd hopen' (by simp)
    · rw [heq]
      exact hp hopen
  | enableReadWrite read write => exact hp hopen
  | onRead n left =>
    rcases onRead_perform_cases n left with hclosed | ⟨recvBuf, heq⟩
    · rw [hclosed] at hopen'
      cases hopen'
    · rw [heq]
      exact hp hopen
  | onWrite answers =>
    obtain ⟨sendBuf, heq, -⟩ := onWrite_eq self hp hopen answers
    simp only [ConnectionCall.perform, heq]
    exact hp hopen
  | forceClose => exact absurd hopen' (by simp [ConnectionCall.perform])
  | elsewhere epoll =>
    refine ⟨?_, (hp hopen).2⟩
    simp only [ConnectionCall.perform]
    rw [hother epoll rfl]
    exact (hp hopen).1

/-- A step keeps the law exactly when it is not a blocked send. -/
theorem bufferedOutputAwaited_step_iff {p' : Endpoint δ} {call : ConnectionCall δ}
    (hp : KeepsReadInterest p) (hlaw : BufferedOutputAwaited p)
    (h : (connectionSystem self).step p call p') :
    BufferedOutputAwaited p' ↔ NeverBlocked p call := by
  obtain ⟨hopen, rfl, -⟩ := h
  have hempty := (bufferedOutputAwaited_iff hopen hp).mp hlaw
  cases call with
  | sendInternal answers buf =>
    simp only [ConnectionCall.perform, NeverBlocked]
    rcases sendInternal_cases hp hopen answers buf with ⟨href, hclose⟩ | ⟨href, heq⟩
    · cases hsend : p.sendInternal self answers buf with
      | mk close p' =>
        rw [hsend] at hclose
        cases hclose
        exact iff_of_true (bufferedOutputAwaited_of_closed rfl)
          (blocks_eq_false_of_refuses answers _ href)
    · set left := (flush answers (p.connection.sendBuf.append buf)).2
      have hblocks := flush_remaining_iff_blocks answers (p.connection.sendBuf.append buf)
        (by rwa [ByteBuffer.remaining_append])
      rw [ByteBuffer.remaining_append] at hblocks
      have hleft : BufferedOutputAwaited (p.setSendBuf left) ↔ left.remaining = 0 :=
        bufferedOutputAwaited_iff hopen (hp.setSendBuf left)
      rw [heq, ← Bool.not_eq_true, ← hblocks, not_not]
      exact hleft
  | enableReadWrite read write => exact iff_of_true hlaw trivial
  | onRead n left =>
    refine iff_of_true ?_ trivial
    rcases onRead_perform_cases n left with hclosed | ⟨recvBuf, heq⟩
    · exact bufferedOutputAwaited_of_closed hclosed
    · rw [heq]
      exact hlaw
  | onWrite answers =>
    obtain ⟨sendBuf, heq, hkeep⟩ := onWrite_eq self hp hopen answers
    refine iff_of_true ?_ trivial
    simp only [ConnectionCall.perform, heq]
    have hleft : BufferedOutputAwaited (p.setSendBuf sendBuf) ↔ sendBuf.remaining = 0 :=
      bufferedOutputAwaited_iff hopen (hp.setSendBuf sendBuf)
    exact hleft.mpr (hkeep hempty)
  | forceClose => exact iff_of_true (bufferedOutputAwaited_of_closed rfl) trivial
  | elsewhere epoll =>
    refine iff_of_true ?_ trivial
    exact fun _ hne => absurd hempty hne

/-! ## Whole runs -/

/-- The law holds when the connection has just been opened. -/
lemma bufferedOutputAwaited_init (h : (connectionSystem self).init p) :
    BufferedOutputAwaited p := by
  obtain ⟨fd, loop, epoll, -, rfl⟩ := h
  exact fun _ hne => absurd rfl hne

/-- **Buffered output is waited for throughout a run exactly if the kernel blocks no send.** -/
theorem bufferedOutputAwaited_iff_neverBlocked {tr : List (ConnectionCall δ × Endpoint δ)}
    (hinit : (connectionSystem self).init p) (hrun : (connectionSystem self).Run p tr) :
    (∀ q ∈ tr, BufferedOutputAwaited q.2) ↔ TransitionSystem.Guarded NeverBlocked p tr :=
  hrun.forall_iff_guarded (fun _ _ _ hp h => keepsReadInterest_step hp h)
    (fun _ _ _ hp hlaw h => bufferedOutputAwaited_step_iff hp hlaw h)
    (keepsReadInterest_init hinit) (bufferedOutputAwaited_init hinit)

/-- A connection on descriptor 5 that has just been opened on a fresh epoll instance. -/
def openedEndpoint : Endpoint Unit :=
  Endpoint.startRead () { connection := { fd := 5, loop := .worker 0 }, epoll := Epoll.empty }

lemma openedEndpoint_init : (connectionSystem ()).init openedEndpoint :=
  ⟨5, .worker 0, Epoll.empty, Or.inl rfl, rfl⟩

/-- The first message of a connection, of one byte, with the kernel's answers to it. -/
def firstMessage (answers : List SendResult) : ConnectionCall Unit :=
  .sendInternal answers [97]

lemma firstMessage_step (answers : List SendResult) :
    (connectionSystem ()).step openedEndpoint (firstMessage answers)
      ((firstMessage answers).perform () openedEndpoint) :=
  ⟨rfl, rfl, by simp [firstMessage]⟩

/-- A message that is interrupted once and then taken. -/
theorem bufferedOutputAwaited_iff_neverBlocked_interrupted :
    BufferedOutputAwaited ((firstMessage [.error .EINTR]).perform () openedEndpoint) :=
  (bufferedOutputAwaited_iff_neverBlocked openedEndpoint_init
    (.cons (firstMessage_step [.error .EINTR]) (.nil _))).mpr ⟨rfl, trivial⟩ _
    (List.mem_singleton_self _)

/-- A message that the kernel blocks stays in the buffer without anyone waiting for the socket to
become writable. -/
theorem exists_bufferedOutput_not_awaited :
    ¬ ∀ p, (connectionSystem ()).Reachable p → BufferedOutputAwaited p := by
  intro h
  have hreach : (connectionSystem ()).Reachable
      ((firstMessage [.error .EAGAIN]).perform () openedEndpoint) :=
    (TransitionSystem.Reachable.of_init openedEndpoint_init).tail (firstMessage_step _)
  have hblocked : ¬ NeverBlocked openedEndpoint (firstMessage [.error .EAGAIN]) := by
    simp only [NeverBlocked, firstMessage]
    decide
  exact hblocked ((bufferedOutputAwaited_step_iff (keepsReadInterest_init openedEndpoint_init)
    (bufferedOutputAwaited_init openedEndpoint_init) (firstMessage_step _)).mp (h _ hreach))

end Calc24
