import Calc24.App.Installing

/-!
# What happens on closed connections

`TCPConnection` keeps no record of having been closed.  `onClose` takes the descriptor out of the
epoll instance, and the close callback takes the session out of the map; but a thread may be in
the middle of `onRead` of the connection at that time, the batch of the last poll may contain it,
and sends may be queued for it.

This file watches the runs of the threads for calls of the close callback, and for packages that
are handed over after `onClose`.  Three things lead to them (`NothingAfterClose`): a connection in
the batch of a poll that has been closed receives more, a message to a closed connection is
refused, and a refused reply closes the connection that is being read with a complete package
still in the receive buffer.  `ConnectionTurn` says all that a step of a worker thread means for
the connections that it is reading and closing.
-/

namespace Calc24

/-- Nothing that `Calc24Session::onRead` acts upon: no complete package, and no rest that is
longer than a message may be. -/
def Exhausted (recvBuf : ByteBuffer) : Prop :=
  LF ∉ recvBuf.internalBuf ∧ recvBuf.remaining ≤ MAX_MSG_LENGTH

instance (recvBuf : ByteBuffer) : Decidable (Exhausted recvBuf) :=
  inferInstanceAs (Decidable (_ ∧ _))

/-- Neither closed nor given other bytes. -/
def TCPConnection.Same (c c' : TCPConnection) : Prop :=
  c'.closed = c.closed ∧ c'.recvBuf = c.recvBuf

namespace WorkerStage

/-- The connection whose `onRead` is in progress and has not come to its end. -/
def reads : WorkerStage → Option Ref
  | .onRead r _ => some r
  | .readCallback r _ => some r
  | .onClose _ _ back => back.reads
  | _ => none

/-- The thread is reading or closing the connection. -/
def Busy (stage : WorkerStage) (r : Ref) : Prop :=
  stage.reads = some r ∨ stage.closing = some r

/-- A thread holds on to the connection that it reads. -/
lemma holds_of_reads {stage : WorkerStage} {r : Ref} (h : stage.reads = some r) :
    stage.Holds r := by
  induction stage with
  | onRead t batch =>
    obtain rfl : t = r := Option.some.inj h
    exact List.mem_cons_self ..
  | readCallback t batch =>
    obtain rfl : t = r := Option.some.inj h
    exact List.mem_cons_self ..
  | onClose t phase back ih => exact Or.inr (ih h)
  | _ => cases h

/-- A thread holds on to the connection that it reads or closes. -/
lemma holds_of_busy {stage : WorkerStage} {r : Ref} (h : stage.Busy r) : stage.Holds r := by
  rcases h with h | h
  · exact holds_of_reads h
  · cases stage with
    | onClose t phase back =>
      obtain rfl : t = r := Option.some.inj h
      exact Or.inl rfl
    | _ => cases h

end WorkerStage

namespace Accepting

open World

variable (env : Environment) (s : Accepting) (n : ℕ)

/-- The connection whose close callback a worker thread calls. -/
def calling : WorkerStage → Move → Option Ref
  | .onClose r .callback _, .goOn _ => if .close ∈ s.callbacks r then some r else none
  | _, _ => none

/-- The connection of which a worker thread hands over a package. -/
def handing : WorkerStage → Move → Option Ref
  | .readCallback r _, .goOn _ => if (s.world.nextPackage r).1 = .success then some r else none
  | _, _ => none

/-- The connection whose close callback a step calls. -/
def callsClose : AcceptingStep → Option Ref
  | .worker n move => s.calling (s.worker n) move
  | _ => none

/-- The connection of which a step hands over a package. -/
def handsOver : AcceptingStep → Option Ref
  | .worker n move => s.handing (s.worker n) move
  | _ => none

/-- The message that a step of a worker thread sends on a connection of its own loop. -/
def sending : WorkerStage → Move → Option (Ref × Bytes)
  | .timers, .remind timer =>
    match timer.timerTask with
    | .reminder r => if (s.world.session r).status = .IDLE then some (r, reminderMsg) else none
  | .readCallback _ _, .send t msg => some (t, msg)
  | .tasks (.send t buf :: _), .goOn _ => some (t, buf)
  | _, _ => none

/-- If the connection that the thread comes to in its batch has been closed, what it receives
leaves nothing to do. -/
def ReceivesNothing : WorkerStage → Move → Prop
  | .dispatch (r :: _), .goOn recv =>
    (s.world.connection r).closed = true → (s.world.connection r).enableRead = true →
      match recv with
      | .eof => False
      | .data buf => Exhausted ((s.world.connection r).recvBuf.append buf)
      | .error _ => True
  | _, _ => True

/-- If the kernel refuses what the thread sends, the connection has not been closed, and if it is
the one that is being read, its receive buffer leaves nothing to do. -/
def RefusalIsLast (stage : WorkerStage) (move : Move) : Prop :=
  match s.sending stage move with
  | some (t, buf) =>
    (s.world.connection t).loop = .worker n → Refused env s.world t buf →
      (s.world.connection t).closed = false ∧
        (stage.reads = some t → Exhausted (s.world.connection t).recvBuf)
  | none => True

/-- The conditions under which a closed connection is left alone. -/
def NothingAfterClose : AcceptingStep → Prop
  | .worker n move =>
    s.ReceivesNothing (s.worker n) move ∧ s.RefusalIsLast env n (s.worker n) move
  | _ => True

instance (stage : WorkerStage) (move : Move) : Decidable (s.ReceivesNothing stage move) := by
  cases stage with
  | dispatch batch =>
    cases batch with
    | nil => exact .isTrue trivial
    | cons r batch =>
      cases move with
      | goOn recv => cases recv <;> exact inferInstanceAs (Decidable (_ → _ → _))
      | _ => exact .isTrue trivial
  | _ => exact .isTrue trivial

instance (stage : WorkerStage) (move : Move) : Decidable (s.RefusalIsLast env n stage move) := by
  unfold RefusalIsLast
  cases s.sending stage move with
  | none => exact .isTrue trivial
  | some message =>
    exact inferInstanceAs (Decidable (_ → Refused env s.world message.1 message.2 → _ ∧ (_ → _)))

instance : ∀ step, Decidable (s.NothingAfterClose env step)
  | .accept _ => .isTrue trivial
  | .connect _ => .isTrue trivial
  | .checkHandup => .isTrue trivial
  | .worker n move => inferInstanceAs
      (Decidable (s.ReceivesNothing (s.worker n) move ∧ s.RefusalIsLast env n (s.worker n) move))

end Accepting

/-- The threads, with the number of calls of each connection's close callback, and the connections
of which a package has been handed over after `onClose`. -/
structure Watched where
  process : Accepting
  closeCalls : Ref → ℕ
  handedAfterClose : List Ref

namespace Watched

open World Accepting

variable (env : Environment) (s : Watched)

/-- The calls of close callbacks after a step. -/
def callsAfter (step : AcceptingStep) : Ref → ℕ :=
  match s.process.callsClose step with
  | some r => Function.update s.closeCalls r (s.closeCalls r + 1)
  | none => s.closeCalls

/-- The late packages after a step. -/
def handedAfter (step : AcceptingStep) : List Ref :=
  match s.process.handsOver step with
  | some r => if (s.process.world.connection r).closed then r :: s.handedAfterClose
    else s.handedAfterClose
  | none => s.handedAfterClose

/-- The process when the worker threads start. -/
def start (threadNum : ℕ) : Watched where
  process := Accepting.start threadNum
  closeCalls := fun _ => 0
  handedAfterClose := []

/-- Where a step leads, if it can be taken. -/
def next (s : Watched) (step : AcceptingStep) : Option Watched :=
  (s.process.next env step).map fun process =>
    { process := process
      closeCalls := s.callsAfter step
      handedAfterClose := s.handedAfter step }

/-- All interleavings of the threads. -/
def system : TransitionSystem Watched AcceptingStep where
  init s := ∃ threadNum > 0, s = start threadNum
  step s step s' := s.next env step = some s'

/-- No package has been handed over after `onClose`, and no close callback has been called
twice. -/
def Terminal (s : Watched) : Prop :=
  s.handedAfterClose = [] ∧ ∀ r, s.closeCalls r ≤ 1

end Watched

/-! ## What keeps a connection the same -/

lemma TCPConnection.Same.refl (c : TCPConnection) : c.Same c :=
  ⟨rfl, rfl⟩

lemma TCPConnection.Same.trans {c c' c'' : TCPConnection} (h : c.Same c') (h' : c'.Same c'') :
    c.Same c'' :=
  ⟨h'.1.trans h.1, h'.2.trans h.2⟩

namespace Endpoint

variable {δ : Type*} (self : δ)

/-- A send closes nothing and leaves the receive buffer alone, until `onClose` is called. -/
lemma sendInternal_same (answers : List SendResult) (buf : Bytes) (p : Endpoint δ) :
    p.connection.Same (p.sendInternal self answers buf).2.connection := by
  refine ⟨sendInternal_closed self answers buf p, ?_⟩
  unfold sendInternal
  split
  · rfl
  · unfold registerWriteEvent
    split <;> rfl
  · rfl
  · rfl

/-- Nor does a flush. -/
lemma onWrite_same (answers : List SendResult) (p : Endpoint δ) :
    p.connection.Same (p.onWrite self answers).connection := by
  unfold onWrite
  split
  · exact .refl _
  · split
    · unfold unregisterWriteEvent
      split <;> exact ⟨rfl, rfl⟩
    · exact ⟨rfl, rfl⟩

end Endpoint

namespace World

variable {env : Environment} {n : ℕ} {r t : Ref} {w : World}

/-- A change of one connection, seen by all of them. -/
lemma setEndpoint_same {p : Endpoint Dispatcher} (hp : (w.connection r).Same p.connection)
    (t : Ref) : (w.connection t).Same ((w.setEndpoint r p).connection t) := by
  by_cases ht : t = r
  · subst ht
    simpa [setEndpoint] using hp
  · simpa [setEndpoint, modifyLoop, ht] using TCPConnection.Same.refl _

/-- A send on one connection, seen by all of them. -/
lemma trySend_same (r t : Ref) (buf : Bytes) (w : World) :
    (w.connection t).Same ((w.trySend env r buf).2.connection t) :=
  setEndpoint_same (Endpoint.sendInternal_same _ _ _ (w.endpoint r)) t

/-- A send calls `onClose` exactly if it is refused. -/
lemma trySend_closes_iff (r : Ref) (buf : Bytes) (w : World) :
    (w.trySend env r buf).1 = true ↔ Refused env w r buf :=
  Endpoint.sendInternal_closes_iff_refuses _ _ _ _

/-- `decodePackage` wants more data exactly if nothing is left to do. -/
lemma nextPackage_wantMoreData_iff (r : Ref) (w : World) :
    (w.nextPackage r).1 = .wantMoreData ↔ Exhausted (w.connection r).recvBuf := by
  rcases Framing.not_mem_or_exists_first LF (w.connection r).recvBuf.internalBuf with
    hno | ⟨body, rest, hbody, hbuf⟩
  · rw [nextPackage, Calc24Session.decodePackage_of_not_mem _ hno, Exhausted, and_iff_right hno]
    by_cases hlen : (w.connection r).recvBuf.remaining > MAX_MSG_LENGTH
    · simp [hlen]
    · simp [hlen, not_lt.mp hlen]
  · have hmem : LF ∈ (w.connection r).recvBuf.internalBuf := by simp [hbuf]
    rw [nextPackage, Calc24Session.decodePackage_frame _ hbuf hbody]
    simp [Exhausted, hmem]

/-- A poll neither closes a connection nor touches a receive buffer. -/
lemma poll_same (events : List (Ref × Bool × Bool)) (w : World) (t : Ref) :
    (w.connection t).Same
      ((events.foldl (fun w event => w.enableReadWrite event) w).connection t) := by
  refine List.foldlRecOn (motive := fun w₁ : World => (w.connection t).Same (w₁.connection t)) _ _
    (.refl _) ?_
  intro w₁ hw₁ event _
  exact hw₁.trans (setEndpoint_same (w := w₁) ⟨rfl, rfl⟩ t)

end World

/-! ## The steps of a worker thread -/

namespace Accepting

open World

/-- What a step of a worker thread means for the connections that it is reading and closing. -/
inductive ConnectionTurn (env : Environment) (s : Accepting) (n : ℕ) :
    WorkerStage → Move → WorkerStage → World → Prop
  /-- The thread goes on reading what it reads. -/
  | ordinary {stage stage' move w} (stage_closing : stage.closing = none)
      (closing : stage'.closing = none) (reads : stage'.reads = stage.reads)
      (handing : s.handing stage move = none)
      (same : ∀ t, (s.world.connection t).Same (w.connection t)) :
      ConnectionTurn env s n stage move stage' w
  /-- The kernel refuses what the thread sends. -/
  | refused {stage back move w t buf} (stage_closing : stage.closing = none)
      (closing : back.closing = none) (reads : back.reads = stage.reads)
      (handing : s.handing stage move = none)
      (same : ∀ t, (s.world.connection t).Same (w.connection t))
      (sending : s.sending stage move = some (t, buf))
      (loop : (s.world.connection t).loop = .worker n) (refused : Refused env s.world t buf) :
      ConnectionTurn env s n stage move (.onClose t .unregister back) w
  /-- `TCPConnection::onRead` comes to the end of the stream. -/
  | eof {r batch} (enabled : (s.world.connection r).enableRead = true) :
      ConnectionTurn env s n (.dispatch (r :: batch)) (.goOn .eof)
        (.onClose r .unregister (.onRead r batch)) s.world
  /-- `TCPConnection::onRead` receives. -/
  | data {r batch buf} (enabled : (s.world.connection r).enableRead = true) :
      ConnectionTurn env s n (.dispatch (r :: batch)) (.goOn (.data buf)) (.onRead r batch)
        (s.world.setRecvBuf r ((s.world.connection r).recvBuf.append buf))
  /-- `decodePackage` wants more data. -/
  | drained {r batch recv} (handing : s.handing (.readCallback r batch) (.goOn recv) = none)
      (exhausted : Exhausted (s.world.connection r).recvBuf) :
      ConnectionTurn env s n (.readCallback r batch) (.goOn recv) (.writing r batch) s.world
  /-- `decodePackage` fails. -/
  | tooLong {r batch recv} (handing : s.handing (.readCallback r batch) (.goOn recv) = none)
      (exhausted : ¬ Exhausted (s.world.connection r).recvBuf) :
      ConnectionTurn env s n (.readCallback r batch) (.goOn recv)
        (.onClose r .unregister (.writing r batch)) s.world
  /-- `decodePackage` takes a package. -/
  | package {r batch recv recvBuf}
      (handing : s.handing (.readCallback r batch) (.goOn recv) = some r)
      (exhausted : ¬ Exhausted (s.world.connection r).recvBuf) :
      ConnectionTurn env s n (.readCallback r batch) (.goOn recv) (.readCallback r batch)
        (s.world.setRecvBuf r recvBuf)
  /-- The next statement of `TCPConnection::onClose`. -/
  | close {r phase back recv stage w} (next : s.close n r back phase = .ok (stage, w)) :
      ConnectionTurn env s n (.onClose r phase back) (.goOn recv) stage w

variable {env : Environment} {s : Accepting} {n : ℕ} {r : Ref} {w w' : World}
  {stage stage' back : WorkerStage} {move : Move} {c : Callback}

/-- A thread that closes nothing calls no close callback. -/
lemma calling_of_closing (h : stage.closing = none) : s.calling stage move = none := by
  unfold calling
  split
  · cases h
  · rfl

/-- A send, after something has been recorded. -/
lemma turn_send {buf : Bytes} {trace : List Event} (hstage : stage.closing = none)
    (hback : back.closing = none) (hreads : back.reads = stage.reads)
    (hhanding : s.handing stage move = none) (hsending : s.sending stage move = some (r, buf))
    (h : s.send env n r buf back { s.world with trace := trace } = .ok (stage', w')) :
    ConnectionTurn env s n stage move stage' w' := by
  set w : World := { s.world with trace := trace } with hw
  have hsame : ∀ t, (s.world.connection t).Same ((w.trySend env r buf).2.connection t) :=
    fun t => trySend_same r t buf w
  unfold send at h
  split at h
  · cases h
    exact .ordinary hstage hback hreads hhanding fun t => .refl _
  · next hloop =>
    split at h
    · cases h
    · split at h
      · next hcloses =>
        cases h
        exact .refused hstage hback hreads hhanding hsame hsending (not_not.mp hloop)
          ((trySend_closes_iff r buf w).mp hcloses)
      · cases h
        exact .ordinary hstage hback hreads hhanding hsame

/-- A timer callback. -/
lemma turn_remind {timer : Timer TimerTask} (hreminds : timer.timerTask = .reminder r)
    (h : s.remind env n r timer.id = .ok (stage', w')) :
    ConnectionTurn env s n .timers (.remind timer) stage' w' := by
  unfold remind at h
  dsimp only at h
  split at h
  · next hidle =>
    have hsending : s.sending .timers (.remind timer) = some (r, reminderMsg) := by
      have hstatus : (s.world.session r).status = .IDLE := hidle
      simp [sending, hreminds, hstatus]
    exact turn_send rfl rfl rfl rfl hsending h
  · cases h
    refine .ordinary rfl rfl rfl rfl fun t => ?_
    rw [removeTimer_connection]
    exact .refl _

/-- `TCPConnection::onRead` up to the read callback. -/
lemma turn_receive (r : Ref) (batch : List Ref) (recv : RecvResult) :
    ConnectionTurn env s n (.dispatch (r :: batch)) (.goOn recv) (s.receive r batch recv).1
      (s.receive r batch recv).2 := by
  unfold receive
  split
  · split
    · exact .ordinary rfl rfl rfl rfl fun t => .refl _
    · next henabled => exact .eof (by simpa using henabled)
  · exact .ordinary rfl rfl rfl rfl fun t => .refl _
  · split
    · exact .ordinary rfl rfl rfl rfl fun t => .refl _
    · next henabled => exact .data (by simpa using henabled)

/-- One round of `Calc24Session::onRead`. -/
lemma turn_decode (r : Ref) (batch : List Ref) (recv : RecvResult) :
    ConnectionTurn env s n (.readCallback r batch) (.goOn recv) (s.decode r batch).1
      (s.decode r batch).2 := by
  have hexhausted := nextPackage_wantMoreData_iff r s.world
  unfold decode
  split
  · next recvBuf package hnext =>
    have hresult : (s.world.nextPackage r).1 = .wantMoreData := congrArg Prod.fst hnext
    exact .drained (by simp [handing, hresult]) (hexhausted.mp hresult)
  · next recvBuf package hnext =>
    have hresult : (s.world.nextPackage r).1 = .failed := congrArg Prod.fst hnext
    exact .tooLong (by simp [handing, hresult]) fun h => by
      rw [hexhausted.mpr h] at hresult
      cases hresult
  · next recvBuf package hnext =>
    have hresult : (s.world.nextPackage r).1 = .success := congrArg Prod.fst hnext
    exact .package (by simp [handing, hresult]) fun h => by
      rw [hexhausted.mpr h] at hresult
      cases hresult

/-- Every step of a worker thread. -/
theorem turn_of_work (h : s.work env n stage move = some (.ok (stage', w'))) :
    ConnectionTurn env s n stage move stage' w' := by
  unfold work at h
  split at h
  · next timer =>
    obtain ⟨-, h⟩ := Option.ite_none_right_eq_some.mp h
    split at h
    next r hreminds =>
    exact turn_remind hreminds (Option.some.inj h)
  · next events =>
    obtain ⟨-, heq⟩ := Option.ite_none_right_eq_some.mp h
    cases heq
    exact .ordinary rfl rfl rfl rfl (poll_same events s.world)
  · cases h
    exact .ordinary rfl rfl rfl rfl fun t => .refl _
  · next r batch recv =>
    have hturn : ConnectionTurn env s n (.dispatch (r :: batch)) (.goOn recv) _ _ :=
      turn_receive r batch recv
    rwa [Except.ok.inj (Option.some.inj h)] at hturn
  · have hcall := Option.some.inj h
    rw [call] at hcall
    split at hcall
    · cases hcall
      exact .ordinary rfl rfl rfl rfl fun t => .refl _
    · cases hcall
  · next r batch recv =>
    have hturn : ConnectionTurn env s n (.readCallback r batch) (.goOn recv) _ _ :=
      turn_decode r batch recv
    rwa [Except.ok.inj (Option.some.inj h)] at hturn
  · obtain ⟨-, heq⟩ := Option.ite_none_right_eq_some.mp h
    exact turn_send rfl rfl rfl rfl rfl (Option.some.inj heq)
  · cases h
    exact .ordinary rfl rfl rfl rfl fun t => .refl _
  · next r batch t =>
    obtain ⟨-, heq⟩ := Option.ite_none_right_eq_some.mp h
    cases heq
    have hresets : Resets {t} s.world (s.world.resetToIdle env (.worker n) t) :=
      resets_resetToIdle rfl
    refine .ordinary rfl rfl rfl rfl fun t => ?_
    rw [hresets.connection]
    exact .refl _
  · next r batch recv =>
    have hwrite : ConnectionTurn env s n (.writing r batch) (.goOn recv) (.dispatch batch)
        (s.world.onWrite env r) := .ordinary rfl rfl rfl rfl
      (setEndpoint_same (Endpoint.onWrite_same _ _ (s.world.endpoint r)))
    split at h
    · have hcall := Option.some.inj h
      rw [call] at hcall
      split at hcall
      · cases hcall
        exact hwrite
      · cases hcall
    · cases h
      exact hwrite
  · cases h
    exact .ordinary rfl rfl rfl rfl fun t => .refl _
  · refine turn_send rfl ?_ ?_ rfl rfl (Option.some.inj h)
    · rfl
    · rfl
  · next task rest recv hsend =>
    cases h
    refine .ordinary rfl rfl rfl rfl fun t => ?_
    rw [runTask_connection hsend]
    exact .refl _
  · exact .close (Option.some.inj h)
  · cases h

/-- A step that throws neither calls a close callback nor hands over a package. -/
lemma calling_of_error (h : s.work env n stage move = some (.error c)) :
    s.calling stage move = none ∧ s.handing stage move = none := by
  constructor
  · unfold calling
    split
    · next r back recv =>
      have hcall : s.call r .close (.onClose r .removeTimer back, s.world) = .error c :=
        Option.some.inj h
      rw [call] at hcall
      split at hcall
      · cases hcall
      · next hmissing => exact if_neg hmissing
    · rfl
  · unfold handing
    split
    · cases h
    · rfl

end Accepting

end Calc24
