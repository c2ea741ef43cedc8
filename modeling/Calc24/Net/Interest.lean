import Calc24.Net.BufferedOutput

/-!
# The interest map and the life of a connection

A connection enters the interest map of its loop with `startRead` and leaves it with `onClose`.
Messages that other threads have queued may still be sent after the close, as long as the object
is alive, so this file follows a connection beyond its close.

`onClose` itself always removes the entry.  What can bring it back is a message on the closed
connection that the kernel answers with `EAGAIN`: `registerWriteEvent` asks for the write event,
the loop forwards the request to `registerReadEvent`, and since nothing is recorded any more the
descriptor is registered anew.  The entry is there exactly while the connection is open in the
runs without such a message, and in no other run (`recordedWhileOpen_iff_noStallAfterClose`).
-/

namespace Calc24

variable {δ : Type*} (self : δ)

/-- The runs of one connection from `startRead` on, beyond its close.  Other users of the loop do
not touch its descriptor. -/
def lifeSystem : TransitionSystem (Endpoint δ) (ConnectionCall δ) where
  init := (connectionSystem self).init
  step p call p' := p' = call.perform self p ∧
    ∀ epoll, call = .elsewhere epoll →
      epoll.fdEventFlags p.connection.fd = p.epoll.fdEventFlags p.connection.fd

/-- The descriptor has an entry exactly while the connection is open, and the entry of an open
connection contains `EPOLLIN`. -/
structure RecordedWhileOpen (p : Endpoint δ) : Prop where
  recorded : (p.epoll.fdEventFlags p.connection.fd).isSome = true ↔ p.connection.closed = false
  read : p.connection.closed = false → p.epoll.HasEvent p.connection.fd EPOLLIN

/-- The answers stall the bytes: with `remaining` bytes to send, a call is answered with `EAGAIN`
or `EWOULDBLOCK` before the loop of `::send` calls has ended. -/
def stalls : List SendResult → ℕ → Bool
  | [], _ => false
  | .sent n :: answers, remaining =>
    if n = 0 then false else if remaining ≤ n then false else stalls answers (remaining - n)
  | .error .EINTR :: answers, remaining => stalls answers remaining
  | .error .EAGAIN :: _, _ => true
  | .error .EWOULDBLOCK :: _, _ => true
  | .error (.other _) :: _, _ => false

/-- The call is a message that the kernel stalls. -/
def Stalls (p : Endpoint δ) : ConnectionCall δ → Prop
  | .sendInternal answers buf =>
    stalls answers (p.connection.sendBuf.remaining + buf.length) = true
  | _ => False

/-- No message on a closed connection is stalled. -/
def NoStallAfterClose (p : Endpoint δ) (call : ConnectionCall δ) : Prop :=
  p.connection.closed = true → ¬ Stalls p call

/-- What any run keeps: the flag that the write event is registered is never set, and while the
connection is open the read event is recorded. -/
structure NeverAwaitsWrite (p : Endpoint δ) : Prop where
  registerWriteEvent : p.connection.registerWriteEvent = false
  keepsReadInterest : KeepsReadInterest p

/-! ## Stalled messages -/

/-- The loop of `::send` calls ends with a request for the write event exactly if the answers
stall the bytes. -/
lemma flush_again_iff_stalls (answers : List SendResult) (sendBuf : ByteBuffer) :
    (flush answers sendBuf).1 = .again ↔ stalls answers sendBuf.remaining = true := by
  induction answers generalizing sendBuf with
  | nil =>
    by_cases h : sendBuf.remaining = 0 <;> simp [flush, stalls, h]
  | cons answer answers ih =>
    cases answer with
    | sent n =>
      by_cases hn : n = 0
      · simp [flush, stalls, hn]
      · have hempty := isEmpty_erase_iff sendBuf hn
        have hrem := ByteBuffer.remaining_erase (b := sendBuf) (Nat.pos_of_ne_zero hn)
        by_cases hle : sendBuf.remaining ≤ n
        · simp [flush, stalls, hn, hempty.mpr hle, hle]
        · have hrest := ih (sendBuf.erase n)
          rw [hrem] at hrest
          simp only [flush, stalls, hn, if_false, hempty, hle]
          exact hrest
    | error e =>
      cases e with
      | EINTR => exact ih sendBuf
      | EAGAIN => simp [flush, stalls]
      | EWOULDBLOCK => simp [flush, stalls]
      | other code => simp [flush, stalls]

/-! ## One call -/

variable {self} {p p' : Endpoint δ} {call : ConnectionCall δ}

/-- After `onClose` the descriptor has no entry. -/
lemma onClose_not_recorded (p : Endpoint δ) :
    (p.onClose self).epoll.fdEventFlags (p.onClose self).connection.fd = none := by
  simp only [Endpoint.onClose, Endpoint.unregisterAllEvent, EventLoop.unregisterAllEvents,
    Epoll.unregisterReadWriteEvent]
  split
  · next hnone => exact hnone
  · simp

variable (self) in
/-- Whatever was recorded before, a request for the write event leaves the read event recorded. -/
lemma registerWriteEvent_hasEvent (h : p.connection.registerWriteEvent = false) :
    (p.registerWriteEvent self).epoll.HasEvent p.connection.fd EPOLLIN := by
  simp only [Endpoint.registerWriteEvent, h, Bool.false_eq_true, if_false,
    EventLoop.registerWriteEvent, Epoll.registerReadEvent]
  unfold Epoll.registerEvent
  split
  · exact ⟨EPOLLIN, by simp, by decide⟩
  · next eventFlag hflag =>
    split
    · next hbit => exact ⟨eventFlag, hflag, hbit⟩
    · refine ⟨eventFlag ||| EPOLLIN, by simp, ?_⟩
      have hkeep : (eventFlag ||| EPOLLIN) &&& EPOLLIN = EPOLLIN := by
        ext i hi
        simp only [BitVec.getElem_and, BitVec.getElem_or]
        cases EPOLLIN[i] <;> simp
      rw [hkeep]
      decide

/-- What a message does to the entry of the descriptor. -/
lemma sendInternal_entry_cases (h : p.connection.registerWriteEvent = false)
    (answers : List SendResult) (buf : Bytes)
    (hp' : p' = (ConnectionCall.sendInternal answers buf).perform self p) :
    (Stalls p (.sendInternal answers buf : ConnectionCall δ) ∧
        p'.connection.closed = p.connection.closed ∧
        p'.epoll.HasEvent p'.connection.fd EPOLLIN) ∨
      (¬ Stalls p (.sendInternal answers buf : ConnectionCall δ) ∧
        (p'.connection.closed = p.connection.closed ∧
            p'.epoll.fdEventFlags p'.connection.fd = p.epoll.fdEventFlags p.connection.fd ∨
          p'.connection.closed = true ∧ p'.epoll.fdEventFlags p'.connection.fd = none)) := by
  have hstalls := flush_again_iff_stalls answers (p.connection.sendBuf.append buf)
  rw [ByteBuffer.remaining_append] at hstalls
  subst hp'
  cases hflush : flush answers (p.connection.sendBuf.append buf) with
  | mk ending sendBuf =>
    rw [hflush] at hstalls
    cases ending with
    | again =>
      have hreg : (p.setSendBuf sendBuf).connection.registerWriteEvent = false := h
      have hevent := registerWriteEvent_hasEvent self hreg
      refine Or.inl ⟨hstalls.mp rfl, ?_⟩
      simp only [ConnectionCall.perform, Endpoint.sendInternal, hflush]
      simp only [Endpoint.registerWriteEvent, hreg, Bool.false_eq_true, if_false] at hevent ⊢
      exact ⟨rfl, hevent⟩
    | drained =>
      refine Or.inr ⟨fun hst => ?_, Or.inl ?_⟩
      · cases hstalls.mpr hst
      · simp only [ConnectionCall.perform, Endpoint.sendInternal, hflush]
        exact ⟨rfl, rfl⟩
    | zero =>
      refine Or.inr ⟨fun hst => ?_, Or.inr ?_⟩
      · cases hstalls.mpr hst
      · simp only [ConnectionCall.perform, Endpoint.sendInternal, hflush]
        exact ⟨rfl, onClose_not_recorded _⟩
    | failed =>
      refine Or.inr ⟨fun hst => ?_, Or.inr ?_⟩
      · cases hstalls.mpr hst
      · simp only [ConnectionCall.perform, Endpoint.sendInternal, hflush]
        exact ⟨rfl, onClose_not_recorded _⟩

variable (self) in
/-- A write event never touches the interest map. -/
lemma onWrite_entry (h : p.connection.registerWriteEvent = false) (answers : List SendResult) :
    ∃ sendBuf : ByteBuffer, p.onWrite self answers = p.setSendBuf sendBuf := by
  unfold Endpoint.onWrite
  split
  · exact ⟨p.connection.sendBuf, rfl⟩
  · split
    · next sendBuf _ =>
      exact ⟨sendBuf, by simp [Endpoint.unregisterWriteEvent, Endpoint.setSendBuf, h]⟩
    · next ending sendBuf _ _ => exact ⟨sendBuf, rfl⟩

/-- What a step does to the entry of the descriptor: a stalled message records the read event, a
close removes the entry, and everything else leaves it alone. -/
lemma entry_cases (hp : NeverAwaitsWrite p) (h : (lifeSystem self).step p call p') :
    (Stalls p call ∧ p'.connection.closed = p.connection.closed ∧
        p'.epoll.HasEvent p'.connection.fd EPOLLIN) ∨
      (¬ Stalls p call ∧
        (p'.connection.closed = p.connection.closed ∧
            p'.epoll.fdEventFlags p'.connection.fd = p.epoll.fdEventFlags p.connection.fd ∨
          p'.connection.closed = true ∧ p'.epoll.fdEventFlags p'.connection.fd = none)) := by
  obtain ⟨rfl, hother⟩ := h
  cases call with
  | sendInternal answers buf =>
    exact sendInternal_entry_cases hp.registerWriteEvent answers buf rfl
  | enableReadWrite read write => exact Or.inr ⟨not_false, Or.inl ⟨rfl, rfl⟩⟩
  | onRead n left =>
    refine Or.inr ⟨not_false, ?_⟩
    obtain ⟨⟨fd, loop, registered, enableRead, enableWrite, recvBuf, sendBuf, closed⟩, epoll⟩ := p
    cases enableRead with
    | false => exact Or.inl ⟨rfl, rfl⟩
    | true =>
      cases n with
      | eof => exact Or.inr ⟨rfl, onClose_not_recorded _⟩
      | error e => exact Or.inl ⟨rfl, rfl⟩
      | data buf => exact Or.inl ⟨rfl, rfl⟩
  | onWrite answers =>
    obtain ⟨sendBuf, heq⟩ := onWrite_entry self hp.registerWriteEvent answers
    refine Or.inr ⟨not_false, Or.inl ?_⟩
    simp only [ConnectionCall.perform, heq]
    exact ⟨rfl, rfl⟩
  | forceClose => exact Or.inr ⟨not_false, Or.inr ⟨rfl, onClose_not_recorded _⟩⟩
  | elsewhere epoll => exact Or.inr ⟨not_false, Or.inl ⟨rfl, hother epoll rfl⟩⟩

/-- After `startRead` the read event is recorded, and the connection is open. -/
lemma neverAwaitsWrite_init (h : (lifeSystem self).init p) :
    NeverAwaitsWrite p ∧ RecordedWhileOpen p := by
  have hkeeps := keepsReadInterest_init h
  obtain ⟨fd, loop, epoll, -, rfl⟩ := h
  obtain ⟨hflag, hguard⟩ := hkeeps rfl
  refine ⟨⟨hguard, hkeeps⟩, ⟨iff_of_true ?_ rfl, fun _ => ⟨EPOLLIN, hflag, by decide⟩⟩⟩
  rw [hflag]
  rfl

/-- No call sets the flag that the write event is registered. -/
lemma perform_registerWriteEvent (h : p.connection.registerWriteEvent = false) :
    (call.perform self p).connection.registerWriteEvent = false := by
  cases call with
  | sendInternal answers buf =>
    simp only [ConnectionCall.perform]
    cases hflush : flush answers (p.connection.sendBuf.append buf) with
    | mk ending sendBuf =>
      cases ending with
      | again =>
        have hreg : (p.setSendBuf sendBuf).connection.registerWriteEvent = false := h
        simp only [Endpoint.sendInternal, hflush, Endpoint.registerWriteEvent, hreg,
          Bool.false_eq_true, if_false]
      | drained =>
        simp only [Endpoint.sendInternal, hflush]
        exact h
      | zero => simp only [Endpoint.sendInternal, hflush, Endpoint.onClose,
          Endpoint.unregisterAllEvent]
      | failed => simp only [Endpoint.sendInternal, hflush, Endpoint.onClose,
          Endpoint.unregisterAllEvent]
  | enableReadWrite read write => exact h
  | onRead n left =>
    obtain ⟨⟨fd, loop, registered, enableRead, enableWrite, recvBuf, sendBuf, closed⟩, epoll⟩ := p
    cases enableRead with
    | false => exact h
    | true =>
      cases n with
      | eof => rfl
      | error e => exact h
      | data buf => exact h
  | onWrite answers =>
    obtain ⟨sendBuf, heq⟩ := onWrite_entry self h answers
    simp only [ConnectionCall.perform, heq]
    exact h
  | forceClose => rfl
  | elsewhere epoll => exact h

/-- A closed connection stays closed. -/
lemma perform_closed (h : p.connection.closed = true) :
    (call.perform self p).connection.closed = true := by
  cases call with
  | sendInternal answers buf =>
    simp only [ConnectionCall.perform]
    have hsend := Endpoint.sendInternal_closed self answers buf p
    split
    · rfl
    · next q heq =>
      rw [heq] at hsend
      exact hsend.trans h
  | enableReadWrite read write => exact h
  | onRead n left =>
    rcases onRead_perform_cases n left with hclosed | ⟨recvBuf, heq⟩
    · exact hclosed
    · rw [heq]
      exact h
  | onWrite answers => exact (Endpoint.changes_onWrite self p answers).closed h
  | forceClose => rfl
  | elsewhere epoll => exact h

lemma neverAwaitsWrite_step (hp : NeverAwaitsWrite p) (h : (lifeSystem self).step p call p') :
    NeverAwaitsWrite p' := by
  obtain ⟨rfl, hother⟩ := h
  refine ⟨perform_registerWriteEvent hp.registerWriteEvent, ?_⟩
  cases hclosed : p.connection.closed with
  | false => exact keepsReadInterest_step hp.keepsReadInterest ⟨hclosed, rfl, hother⟩
  | true =>
    intro hopen
    rw [perform_closed hclosed] at hopen
    cases hopen

/-- A step keeps the law exactly when it does not stall on a closed connection. -/
theorem recordedWhileOpen_step_iff (hp : NeverAwaitsWrite p) (hlaw : RecordedWhileOpen p)
    (h : (lifeSystem self).step p call p') :
    RecordedWhileOpen p' ↔ NoStallAfterClose p call := by
  have hp' := neverAwaitsWrite_step hp h
  have hread : p'.connection.closed = false → p'.epoll.HasEvent p'.connection.fd EPOLLIN :=
    fun hopen => ⟨EPOLLIN, (hp'.keepsReadInterest hopen).1, by decide⟩
  rcases entry_cases hp h with
    ⟨hstall, hclosed, hevent⟩ | ⟨hstall, ⟨hclosed, hentry⟩ | ⟨hclosed, hentry⟩⟩
  · -- the descriptor is recorded now, which is right for an open connection only
    obtain ⟨eventFlag, hflag, -⟩ := hevent
    have hsome : (p'.epoll.fdEventFlags p'.connection.fd).isSome = true := by rw [hflag]; rfl
    constructor
    · intro hlaw' hclosed'
      rw [← hclosed, hlaw'.recorded.mp hsome] at hclosed'
      cases hclosed'
    · intro hguard
      have hopen : p.connection.closed = false := by
        rw [← Bool.not_eq_true]
        exact fun hclosed' => hguard hclosed' hstall
      exact ⟨iff_of_true hsome (hclosed.trans hopen), hread⟩
  · refine iff_of_true ⟨?_, hread⟩ fun _ => hstall
    rw [hentry, hclosed]
    exact hlaw.recorded
  · refine iff_of_true ⟨?_, hread⟩ fun _ => hstall
    rw [hentry, hclosed]
    exact iff_of_false (by decide) (by decide)

/-! ## Whole runs -/

/-- **The entry of a connection is there exactly while it is open, at the end of every step of a
run, exactly if no message on the closed connection is stalled.** -/
theorem recordedWhileOpen_iff_noStallAfterClose {tr : List (ConnectionCall δ × Endpoint δ)}
    (hinit : (lifeSystem self).init p) (hrun : (lifeSystem self).Run p tr) :
    (∀ q ∈ tr, RecordedWhileOpen q.2) ↔ TransitionSystem.Guarded NoStallAfterClose p tr :=
  hrun.forall_iff_guarded (fun _ _ _ hp h => neverAwaitsWrite_step hp h)
    (fun _ _ _ hp hlaw h => recordedWhileOpen_step_iff hp hlaw h)
    (neverAwaitsWrite_init hinit).1 (neverAwaitsWrite_init hinit).2

/-- The end of the stream, while a message from another thread is still queued. -/
def closedEndpoint : Endpoint Unit :=
  (ConnectionCall.forceClose).perform () openedEndpoint

lemma forceClose_step :
    (lifeSystem ()).step openedEndpoint .forceClose closedEndpoint :=
  ⟨rfl, by simp⟩

lemma queuedMessage_step (answers : List SendResult) :
    (lifeSystem ()).step closedEndpoint (firstMessage answers)
      ((firstMessage answers).perform () closedEndpoint) :=
  ⟨rfl, by simp [firstMessage]⟩

/-- A queued message that the kernel takes after the close leaves no entry behind. -/
theorem recordedWhileOpen_iff_noStallAfterClose_taken :
    RecordedWhileOpen ((firstMessage [.sent 1]).perform () closedEndpoint) := by
  have hrun : (lifeSystem ()).Run openedEndpoint
      [(.forceClose, closedEndpoint),
        (firstMessage [.sent 1], (firstMessage [.sent 1]).perform () closedEndpoint)] :=
    .cons forceClose_step (.cons (queuedMessage_step _) (.nil _))
  have hguarded : TransitionSystem.Guarded NoStallAfterClose openedEndpoint
      [(.forceClose, closedEndpoint),
        (firstMessage [.sent 1], (firstMessage [.sent 1]).perform () closedEndpoint)] :=
    ⟨fun _ => not_false, fun _ => by simp only [Stalls, firstMessage]; decide, trivial⟩
  exact (recordedWhileOpen_iff_noStallAfterClose openedEndpoint_init hrun).mpr hguarded _
    (List.mem_cons_of_mem _ (List.mem_singleton_self _))

/-- A queued message that the kernel stalls after the close puts the descriptor back into the
interest map. -/
theorem exists_recorded_after_close :
    ¬ ∀ p, (lifeSystem ()).Reachable p → RecordedWhileOpen p := by
  intro h
  have hopened : (lifeSystem ()).Reachable openedEndpoint := .of_init openedEndpoint_init
  have hreach : (lifeSystem ()).Reachable
      ((firstMessage [.error .EAGAIN]).perform () closedEndpoint) :=
    (hopened.tail forceClose_step).tail (queuedMessage_step _)
  have hrecorded := (h _ hreach).recorded.mp (by decide)
  exact absurd hrecorded (by decide)

end Calc24
