import Calc24.App.Accepting

/-!
# What the small steps keep

Every step of a worker thread works for sessions that exist, closes a connection only within
`onClose`, and takes a session out of the map only at the end of it (`Works`).  Every step of the
base thread in `onAccept` and `onConnected` sets at most one callback and stores at most the
session that it has prepared (`Prepares`).  `Sound` is what all interleavings keep.

The small steps are the ones that the functions of the server consist of: taken without steps in
between, they add up to `Calc24Server::onConnected` (`runAll_connect`) and to
`TCPConnection::onClose` (`runAll_close`).
-/

namespace Calc24

lemma BaseStage.accepting_of_awaits {stage : BaseStage} {r : Ref} {c : Callback}
    (h : stage.Awaits r c) : stage.accepting = some r := by
  cases stage with
  | idle => exact h.elim
  | accepted t => exact congrArg some h
  | cleared t => exact congrArg some h
  | installing t callbacks => exact congrArg some h.1
  | welcomed t => exact h.elim
  | reminded t => exact h.elim

namespace World

variable {env : Environment} {cur l : LoopId} {n : ℕ} {r t : Ref} {A : Set Ref} {w w' : World}

/-! ## What a call can close -/

/-- A send flushes its buffer. -/
lemma trySend_flushes (buf : Bytes) : Flushes r w (w.trySend env r buf).2 :=
  ⟨_, Endpoint.changes_sendInternal _ _ _ _, Endpoint.sendInternal_closed _ _ _ _, rfl⟩

lemma setEndpoint_closed {p : Endpoint Dispatcher}
    (hp : p.connection.closed = (w.connection r).closed) (t : Ref) :
    ((w.setEndpoint r p).connection t).closed = (w.connection t).closed := by
  by_cases ht : t = r
  · subst ht
    simpa [setEndpoint] using hp
  · simp [setEndpoint, modifyLoop, ht]

/-- A flush closes nothing. -/
lemma onWrite_closed (r t : Ref) (w : World) :
    ((w.onWrite env r).connection t).closed = (w.connection t).closed := by
  refine setEndpoint_closed ?_ t
  unfold Endpoint.onWrite
  split
  · rfl
  · split
    · unfold Endpoint.unregisterWriteEvent
      split <;> rfl
    · rfl

/-- Tasks other than sends change no connection. -/
lemma runTask_connection {task : CustomTask} (htask : ∀ r buf, task ≠ .send r buf) (w : World) :
    (runTask env (.worker n) w task).connection = w.connection := by
  cases task with
  | send r buf => exact absurd rfl (htask r buf)
  | addTimerInternal spTimer =>
    rw [runTask, addTimerInternal, if_pos rfl]
    rfl
  | removeTimerInternal timerID => rw [runTask, removeTimer_connection]

/-- Polling affects no session and closes nothing. -/
lemma poll_keeps (A : Set Ref) (events : List (Ref × Bool × Bool)) (w : World) :
    Affects A w (events.foldl (fun w event => w.enableReadWrite event) w) ∧
      ∀ t, ((events.foldl (fun w event => w.enableReadWrite event) w).connection t).closed =
        (w.connection t).closed := by
  refine List.foldlRecOn (motive := fun w₁ => Affects A w w₁ ∧
    ∀ t, (w₁.connection t).closed = (w.connection t).closed) _ _
    ⟨Affects.refl A w, fun _ => rfl⟩ ?_
  rintro w₁ ⟨haffects, hclosed⟩ event -
  exact ⟨haffects.trans (affects_setEndpoint (Endpoint.changes_enableReadWrite _ _ _ _)),
    fun t => (setEndpoint_closed (w := w₁) rfl t).trans (hclosed t)⟩

/-- A message to a session of another loop is only queued. -/
lemma sendMsg_connection (hloop : cur ≠ (w.connection r).loop) (msg : Bytes) :
    (w.sendMsg env cur r msg).connection = w.connection := by
  have hqueued : w.sendMsg env cur r msg = (w.log (.sent r msg)).modifyLoop
      (w.connection r).loop (EventLoop.addTask (.send r msg)) := if_neg hloop
  rw [hqueued]
  rfl

/-- The deal closes nothing, because no session belongs to the base loop. -/
lemma checkHandup_connection
    (hloop : ∀ t ∈ w.sessions.map Prod.snd, (w.connection t).loop ≠ .base)
    (h : w.checkHandup env .base = .ok w') : w'.connection = w.connection := by
  unfold checkHandup at h
  split at h
  · obtain rfl : w = w' := Except.ok.inj h
    rfl
  · refine (forEachSession_invariant (w := (w.generateCards env).2.2)
      (I := fun w₁ => w₁.connection = w.connection) rfl ?_ h).1
    intro r hr w₁ hw₁ _ _
    split
    · refine (sendMsg_connection ?_ _).trans hw₁
      rw [hw₁]
      exact (hloop r hr).symm
    · exact hw₁

/-! ## Pointers -/

/-- A session that exists, on the loop `l`. -/
def On (w : World) (l : LoopId) (t : Ref) : Prop :=
  t < w.nextRef ∧ (w.connection t).loop = l

/-- A connection stays with its loop. -/
lemma Affects.on (hw : Affects A w w') (h : On w l t) : On w' l t :=
  ⟨hw.nextRef.symm ▸ h.1, (hw.loop t).trans h.2⟩

/-- The timers and tasks of a loop are about its sessions, and sessions belong to worker loops. -/
structure Pointed (w : World) : Prop where
  entries : ∀ l, ∀ timer ∈ (w.loop l).timers.entries, ∀ t, timer.timerTask = .reminder t → On w l t
  tasks : ∀ l, ∀ task ∈ (w.loop l).customTasks, ∀ t, task.Concerns t → On w l t
  loop : ∀ t < w.nextRef, (w.connection t).loop ≠ .base

lemma pointed_start (threadNum : ℕ) : Pointed (start threadNum) where
  entries _ _ ht := absurd ht List.not_mem_nil
  tasks _ _ htask := absurd htask List.not_mem_nil
  loop _ ht := absurd ht (Nat.not_lt_zero _)

/-- What happens on behalf of sessions that exist keeps that. -/
lemma Pointed.affects (h : Pointed w) (hw : Affects {t | t < w.nextRef} w w') : Pointed w' where
  entries l timer htimer t ht := by
    apply hw.on
    rcases hw.entries l timer htimer with hold | ⟨r, hr, hl, hreminds⟩
    · exact h.entries l timer hold t ht
    · obtain rfl : r = t := by simpa using hreminds.symm.trans ht
      exact ⟨hr, hl.symm⟩
  tasks l task htask t ht := by
    apply hw.on
    rcases hw.tasks l task htask with hold | ⟨r, hr, hl, hconcerns⟩ | ⟨timerID, rfl⟩
    · exact h.tasks l task hold t ht
    · obtain rfl := CustomTask.concerns_unique hconcerns ht
      exact ⟨hr, hl.symm⟩
    · exact ht.elim
  loop t ht := by
    rw [hw.nextRef] at ht
    rw [hw.loop]
    exact h.loop t ht

/-- What adds neither timers nor tasks keeps that. -/
lemma Pointed.of_eq (h : Pointed w) (htimers : ∀ l, (w'.loop l).timers = (w.loop l).timers)
    (htasks : ∀ l, (w'.loop l).customTasks = (w.loop l).customTasks)
    (hon : ∀ l t, On w l t → On w' l t)
    (hloop : ∀ t < w'.nextRef, (w'.connection t).loop ≠ .base) : Pointed w' where
  entries l timer htimer t ht := hon l t (h.entries l timer (htimers l ▸ htimer) t ht)
  tasks l task htask t ht := hon l t (h.tasks l task (htasks l ▸ htask) t ht)
  loop := hloop

end World

namespace Accepting

open World Process

variable {env : Environment} {n : ℕ} {r t : Ref} {s s' : Accepting} {w w' : World}
  {stage stage' back : WorkerStage} {batch : List Ref} {move : Move} {order : List (Int32 × Ref)}
  {step : AcceptingStep}

/-! ## The steps of a worker thread -/

/-- What a step of a worker thread does: it works for sessions that exist, closes only what it is
closing from then on, and ends a close by taking the session out of the map. -/
structure Works (n : ℕ) (stage : WorkerStage) (w : World) (stage' : WorkerStage) (w' : World) : Prop where
  affects : Affects {t | t < w.nextRef} w w'
  closed : ∀ t, (w'.connection t).closed = true →
    (w.connection t).closed = true ∨ stage'.closing = some t
  closing : ∀ t, stage.closing = some t →
    stage'.closing = some t ∨ t ∉ w'.sessions.map Prod.snd
  holds : ∀ t, stage'.Holds t → On w (.worker n) t

/-- A step outside a close. -/
lemma works_ordinary (hstage : stage.closing = none) (haffects : Affects {t | t < w.nextRef} w w')
    (hclosed : ∀ t, (w'.connection t).closed = (w.connection t).closed)
    (hholds : ∀ t, stage'.Holds t → On w (.worker n) t) : Works n stage w stage' w' where
  affects := haffects
  closed t ht := Or.inl ((hclosed t).symm.trans ht)
  closing t ht := by
    rw [hstage] at ht
    cases ht
  holds := hholds

/-- A send, after something has been recorded. -/
lemma works_send {buf : Bytes} {trace : List Event} (hstage : stage.closing = none)
    (hr : r < s.world.nextRef) (hback : ∀ t, back.Holds t → On s.world (.worker n) t)
    (h : s.send env n r buf back { s.world with trace := trace } = .ok (stage', w')) :
    Works n stage s.world stage' w' := by
  set w : World := { s.world with trace := trace } with hw
  have hlog : Touches {t | t < s.world.nextRef} s.world w := { Touches.refl _ _ with }
  have hflushes : Flushes r w (w.trySend env r buf).2 := trySend_flushes buf
  have haffects : Affects {t | t < s.world.nextRef} s.world (w.trySend env r buf).2 :=
    (hlog.trans (hflushes.touches hr)).affects
  unfold send at h
  split at h
  · next hloop =>
    cases h
    refine works_ordinary hstage ?_ (fun _ => rfl) hback
    have hqueued : Touches {t | t < s.world.nextRef} w
        (w.modifyLoop (w.connection r).loop (EventLoop.addTask (.send r buf))) :=
      touches_modifyLoop (List.Subset.refl _) rfl ⟨[.send r buf], rfl, by simpa using hr⟩
        fun _ _ => Or.inl
    exact (hlog.trans hqueued).affects
  · next hloop =>
    split at h
    · cases h
    · split at h
      · cases h
        refine works_ordinary hstage haffects hflushes.closed fun t ht => ?_
        rcases ht with rfl | ht
        · exact ⟨hr, not_not.mp hloop⟩
        · exact hback t ht
      · cases h
        exact works_ordinary hstage haffects hflushes.closed hback

/-- `TCPConnection::onRead` up to the read callback. -/
lemma works_receive (recv : RecvResult)
    (hholds : ∀ t, (WorkerStage.dispatch (r :: batch)).Holds t → On s.world (.worker n) t) :
    Works n (.dispatch (r :: batch)) s.world (s.receive r batch recv).1
      (s.receive r batch recv).2 := by
  have hbuf : ∀ recvBuf, Affects {t | t < s.world.nextRef} s.world
      (s.world.setRecvBuf r recvBuf) :=
    fun recvBuf => affects_setEndpoint (Endpoint.changes_setRecvBuf _ _ recvBuf)
  unfold receive
  split
  · split
    · exact works_ordinary rfl (Affects.refl _ _) (fun _ => rfl) hholds
    · refine works_ordinary rfl (Affects.refl _ _) (fun _ => rfl) fun t ht => ?_
      rcases ht with rfl | ht
      · exact hholds t (List.mem_cons_self ..)
      · exact hholds t ht
  · exact works_ordinary rfl (Affects.refl _ _) (fun _ => rfl) hholds
  · split
    · exact works_ordinary rfl (Affects.refl _ _) (fun _ => rfl) hholds
    · exact works_ordinary rfl (hbuf _) (setEndpoint_closed rfl) hholds

/-- One round of `Calc24Session::onRead`. -/
lemma works_decode
    (hholds : ∀ t, (WorkerStage.readCallback r batch).Holds t → On s.world (.worker n) t) :
    Works n (.readCallback r batch) s.world (s.decode r batch).1 (s.decode r batch).2 := by
  unfold decode
  split
  · exact works_ordinary rfl (Affects.refl _ _) (fun _ => rfl) hholds
  · refine works_ordinary rfl (Affects.refl _ _) (fun _ => rfl) fun t ht => ?_
    rcases ht with rfl | ht
    · exact hholds t (List.mem_cons_self ..)
    · exact hholds t ht
  · exact works_ordinary rfl (affects_setEndpoint (Endpoint.changes_setRecvBuf _ _ _))
      (setEndpoint_closed rfl) hholds

/-- A timer callback. -/
lemma works_remind {timerID : Int64} (hr : r < s.world.nextRef)
    (h : s.remind env n r timerID = .ok (stage', w')) : Works n .timers s.world stage' w' := by
  have hnone : ∀ t, WorkerStage.timers.Holds t → On s.world (.worker n) t :=
    fun _ ht => False.elim ht
  unfold remind at h
  dsimp only at h
  split at h
  · exact works_send rfl hr hnone h
  · cases h
    refine works_ordinary rfl ?_ (fun t => ?_) hnone
    · exact ((touches_log _).trans (touches_removeTimer _)).affects
    · rw [removeTimer_connection]
      rfl

/-- One statement of `TCPConnection::onClose`. -/
lemma works_close {phase : ClosePhase} (hwf : WellFormed s.world)
    (hholds : ∀ t, (WorkerStage.onClose r phase back).Holds t → On s.world (.worker n) t)
    (h : s.close n r back phase = .ok (stage', w')) :
    Works n (.onClose r phase back) s.world stage' w' := by
  have hr : r < s.world.nextRef := (hholds r (Or.inl rfl)).1
  cases phase with
  | unregister =>
    cases h
    have htouches : Touches {t | t < s.world.nextRef} s.world
        (s.world.setEndpoint r ((s.world.endpoint r).onClose (.connection r))) :=
      touches_setEndpoint hr (Endpoint.changes_onClose _ _)
    refine ⟨htouches.affects, fun t ht => ?_, fun t ht => Or.inl ht, hholds⟩
    by_cases htr : t = r
    · exact Or.inr (congrArg some htr.symm)
    · refine Or.inl ?_
      simpa [setEndpoint, modifyLoop, htr] using ht
  | callback =>
    rw [close, call] at h
    split at h
    · cases h
      exact ⟨Affects.refl _ _, fun t => Or.inl, fun t => Or.inl, hholds⟩
    · cases h
  | removeTimer =>
    cases h
    refine ⟨(touches_removeTimer _).affects, fun t ht => Or.inl ?_, fun t => Or.inl, hholds⟩
    rwa [removeTimer_connection] at ht
  | onDisconnected =>
    cases h
    refine ⟨(touches_onDisconnected _).affects, fun t ht => Or.inl ?_, fun t ht => Or.inr ?_,
      fun t ht => hholds t (Or.inr ht)⟩
    · rwa [onDisconnected_connection] at ht
    · obtain rfl : r = t := Option.some.inj ht
      rw [onDisconnected_sessions]
      intro hmem
      obtain ⟨entry, hentry, rfl⟩ := List.mem_map.mp hmem
      exact hwf.not_mem_eraseP hentry (hwf.id_eq entry (List.mem_of_mem_eraseP hentry)).symm

/-- A task. -/
lemma works_task {task : CustomTask} {rest : List CustomTask}
    (htask : ∀ r buf, task ≠ .send r buf)
    (hholds : ∀ t, (WorkerStage.tasks (task :: rest)).Holds t → On s.world (.worker n) t) :
    Works n (.tasks (task :: rest)) s.world (.tasks rest)
      (runTask env (.worker n) s.world task) := by
  have hthis : ∀ t, task.Concerns t → On s.world (.worker n) t :=
    fun t ht => hholds t ⟨task, List.mem_cons_self .., ht⟩
  refine works_ordinary rfl (affects_runTask task fun t ht =>
    ⟨(hthis t ht).1, (hthis t ht).2.symm⟩).1 (fun t => ?_) fun t ht => ?_
  · rw [runTask_connection htask]
  · obtain ⟨other, hother, hconcerns⟩ := ht
    exact hholds t ⟨other, List.mem_cons_of_mem _ hother, hconcerns⟩

/-- Every step of a worker thread. -/
theorem works_work (hwf : WellFormed s.world) (hpointed : Pointed s.world)
    (hholds : ∀ t, stage.Holds t → On s.world (.worker n) t)
    (h : s.work env n stage move = some (.ok (stage', w'))) :
    Works n stage s.world stage' w' := by
  have hmem : ∀ {t}, t ∈ s.world.sessions.map Prod.snd → t < s.world.nextRef :=
    fun ht => hwf.owned_lt _ (List.mem_append_left _ ht)
  unfold work at h
  split at h
  · next timer =>
    obtain ⟨htimer, h⟩ := Option.ite_none_right_eq_some.mp h
    split at h
    next r hreminds =>
    exact works_remind (hpointed.entries _ timer htimer r hreminds).1 (Option.some.inj h)
  · next events =>
    obtain ⟨hreported, heq⟩ := Option.ite_none_right_eq_some.mp h
    cases heq
    have hpoll := poll_keeps {t | t < s.world.nextRef} events s.world
    refine works_ordinary rfl hpoll.1 hpoll.2 fun t ht => ?_
    obtain ⟨event, hevent, rfl⟩ := List.mem_map.mp ht
    exact ⟨(hreported event hevent).1.1, (hreported event hevent).2.1⟩
  · cases h
    refine works_ordinary rfl (affects_modifyLoop rfl (List.nil_subset _)) (fun _ => rfl) ?_
    rintro t ⟨task, htask, hconcerns⟩
    exact hpointed.tasks _ task htask t hconcerns
  · next r batch recv =>
    have hreceive := works_receive recv hholds
    rwa [Except.ok.inj (Option.some.inj h)] at hreceive
  · have hcall := Option.some.inj h
    rw [call] at hcall
    split at hcall
    · cases hcall
      exact works_ordinary rfl (Affects.refl _ _) (fun _ => rfl) hholds
    · cases hcall
  · have hdecode := works_decode hholds
    rwa [Except.ok.inj (Option.some.inj h)] at hdecode
  · next r batch t msg =>
    obtain ⟨hto, heq⟩ := Option.ite_none_right_eq_some.mp h
    refine works_send rfl ?_ hholds (Option.some.inj heq)
    rcases hto with rfl | hto
    · exact (hholds t (List.mem_cons_self ..)).1
    · exact hmem hto
  · next r batch =>
    cases h
    refine works_ordinary rfl (affects_modifySession (fun _ => rfl) ?_) (fun _ => rfl) hholds
    exact (hholds r (List.mem_cons_self ..)).1
  · next r batch t =>
    obtain ⟨hto, heq⟩ := Option.ite_none_right_eq_some.mp h
    cases heq
    have hresets : Resets {t | t < s.world.nextRef} s.world
        (s.world.resetToIdle env (.worker n) t) := resets_resetToIdle (hmem hto)
    exact works_ordinary rfl hresets.affects (fun t => by rw [hresets.connection]) hholds
  · next r batch recv =>
    have hwrite : Works n (.writing r batch) s.world (.dispatch batch) (s.world.onWrite env r) :=
      works_ordinary rfl (affects_onWrite r _) (fun t => onWrite_closed r t _)
        fun t ht => hholds t (List.mem_cons_of_mem _ ht)
    split at h
    · have hcall := Option.some.inj h
      rw [call] at hcall
      split at hcall
      · cases hcall
        exact hwrite
      · cases hcall
    · cases h
      exact hwrite
  · cases h
    exact works_ordinary rfl (Affects.refl _ _) (fun _ => rfl) fun _ ht => False.elim ht
  · next r buf rest recv =>
    refine works_send rfl (hholds r ⟨_, List.mem_cons_self .., rfl⟩).1 (fun t ht => ?_)
      (Option.some.inj h)
    obtain ⟨task, htask, hconcerns⟩ := ht
    exact hholds t ⟨task, List.mem_cons_of_mem _ htask, hconcerns⟩
  · next task rest recv hsend =>
    cases h
    exact works_task hsend hholds
  · exact works_close hwf hholds (Option.some.inj h)
  · cases h

/-! ## The steps of the base thread -/

/-- A message from the base thread to a session of a worker loop. -/
lemma touches_welcome (env : Environment) (hpointed : Pointed w) (hr : r < w.nextRef) :
    Touches {t | t < w.nextRef} w (w.sendWelcomeMsg env .base r) ∧
      (w.sendWelcomeMsg env .base r).connection = w.connection :=
  ⟨touches_sendMsg _ hr, sendMsg_connection (hpointed.loop r hr).symm _⟩

/-- What a step of `onAccept` and `onConnected` does: it changes no connection, and stores a session
at the end of `onConnected` only; a callback that is not awaited any more has been set. -/
structure Prepares (s s' : Accepting) : Prop where
  wellFormed : WellFormed s'.world
  pointed : Pointed s'.world
  threadNum : s'.world.threadNum = s.world.threadNum
  nextRef : s'.world.nextRef = s.world.nextRef
  connection : s'.world.connection = s.world.connection
  sessions : ∀ entry ∈ s'.world.sessions,
    entry ∈ s.world.sessions ∨ s.base = .reminded entry.2 ∧ s'.base = .idle
  worker : s'.worker = s.worker
  thrown : s'.thrown = s.thrown
  accepting : ∀ t, s'.base.accepting = some t → s.base.accepting = some t ∧ t ∉ s'.world.owned
  nodup : ∀ t callbacks, s'.base = .installing t callbacks → callbacks.Nodup
  awaits : ∀ t c, s'.base.Awaits t c → s.base.Awaits t c
  callbacks : ∀ t c, c ∈ s'.callbacks t ↔
    c ∈ s.callbacks t ∨ s.base.Awaits t c ∧ ¬ s'.base.Awaits t c

/-- What all interleavings keep: the map is well formed, pointers are to sessions that exist, and
the session that is being accepted is held by nobody. -/
structure Sound (s : Accepting) : Prop where
  wellFormed : WellFormed s.world
  pointed : Pointed s.world
  holds : ∀ n t, (s.worker n).Holds t → On s.world (.worker n) t
  accepting_lt : ∀ t, s.base.accepting = some t → t < s.world.nextRef
  accepting_not_mem : ∀ t, s.base.accepting = some t → t ∉ s.world.owned
  nodup : ∀ t callbacks, s.base = .installing t callbacks → callbacks.Nodup
  callbacks : ∀ t < s.world.nextRef, ∀ c, c ∈ s.callbacks t ↔ ¬ s.base.Awaits t c
  fresh : ∀ t, s.world.nextRef ≤ t → s.callbacks t = []

/-- A step that changes no connection, and stores no session. -/
lemma prepares_world {base : BaseStage} (hwf : WellFormed w) (hpointed : Pointed w)
    (hthread : w.threadNum = s.world.threadNum) (hnext : w.nextRef = s.world.nextRef)
    (hconnection : w.connection = s.world.connection) (hsessions : w.sessions ⊆ s.world.sessions)
    (howned : r ∉ w.owned) (hold : s.base.accepting = some r) (hnew : base.accepting = some r)
    (hnodup : ∀ t callbacks, base = .installing t callbacks → callbacks.Nodup)
    (hawaits : ∀ t c, base.Awaits t c ↔ s.base.Awaits t c) :
    Prepares s { s with base := base, world := w } where
  wellFormed := hwf
  pointed := hpointed
  threadNum := hthread
  nextRef := hnext
  connection := hconnection
  sessions entry hentry := Or.inl (hsessions hentry)
  worker := rfl
  thrown := rfl
  accepting t ht := by
    obtain rfl : r = t := Option.some.inj (hnew.symm.trans ht)
    exact ⟨hold, howned⟩
  nodup := hnodup
  awaits t c := (hawaits t c).mp
  callbacks t c := by
    have hnone : ¬ (s.base.Awaits t c ∧ ¬ base.Awaits t c) := fun h => h.2 ((hawaits t c).mpr h.1)
    exact (or_iff_left hnone).symm

/-- One of the callbacks is set. -/
lemma prepares_install {c : Callback} {rest : List Callback} (h : Sound s)
    (hbase : s.base = .installing r (c :: rest)) :
    Prepares s { s with base := .installing r rest, callbacks := s.install r c } where
  wellFormed := h.wellFormed
  pointed := h.pointed
  threadNum := rfl
  nextRef := rfl
  connection := rfl
  sessions _ := Or.inl
  worker := rfl
  thrown := rfl
  accepting t ht := by
    have hold : s.base.accepting = some t := by
      rw [hbase]
      exact ht
    exact ⟨hold, h.accepting_not_mem t hold⟩
  nodup t callbacks ht := by
    cases ht
    exact (List.nodup_cons.mp (h.nodup r _ hbase)).2
  awaits t c' hawaits := by
    rw [hbase]
    exact ⟨hawaits.1, List.mem_cons_of_mem _ hawaits.2⟩
  callbacks t c' := by
    obtain ⟨hc, -⟩ := List.nodup_cons.mp (h.nodup r _ hbase)
    rw [hbase]
    by_cases ht : t = r
    · subst ht
      by_cases hc' : c' = c
      · subst hc'
        simp [install, BaseStage.Awaits, hc]
      · simp [install, BaseStage.Awaits, hc']
    · simp [install, BaseStage.Awaits, ht, Ne.symm ht]

/-- The session is stored. -/
lemma prepares_emplace (h : Sound s) (hbase : s.base = .reminded r)
    (hok : s.world.emplace r order = .ok w) :
    Prepares s { s with base := .idle, world := w } := by
  have hold : s.base.accepting = some r := by rw [hbase]; rfl
  have hwf : WellFormed w :=
    h.wellFormed.emplace (h.accepting_not_mem r hold) (h.accepting_lt r hold) hok
  obtain ⟨-, sessions, rfl, hperm⟩ := emplace_cases hok
  refine ⟨hwf, h.pointed.of_eq (fun _ => rfl) (fun _ => rfl) (fun _ _ => id) h.pointed.loop,
    rfl, rfl, rfl, fun entry hentry => ?_, rfl, rfl, fun t ht => ?_,
    fun t callbacks ht => ?_, fun t c ht => ?_, fun t c => ?_⟩
  · rcases List.mem_cons.mp (hperm.mem_iff.mp hentry) with rfl | hmem
    · exact Or.inr ⟨hbase, rfl⟩
    · exact Or.inl hmem
  · cases ht
  · cases ht
  · exact ht.elim
  · rw [hbase]
    exact (or_iff_left fun hawaits => hawaits.1).symm

/-- A step of `onAccept` and `onConnected`. -/
theorem prepares_connect (h : Sound s) (hstep : s.connect env order s.base = some s') :
    Prepares s s' := by
  cases hbase : s.base with
  | idle =>
    rw [hbase] at hstep
    cases hstep
  | accepted r =>
    rw [hbase] at hstep
    cases hstep
    have hclears := clears_clearPending s.world
    have hold : s.base.accepting = some r := by rw [hbase]; rfl
    have hloops : ∀ t < s.world.clearPending.nextRef,
        (s.world.clearPending.connection t).loop ≠ .base := by
      rw [hclears.nextRef, hclears.connection]
      exact h.pointed.loop
    refine prepares_world (h.wellFormed.clears hclears) (h.pointed.of_eq hclears.timers
      hclears.tasks (fun l t ht => ?_) hloops) hclears.threadNum hclears.nextRef
      hclears.connection (hclears.sessions ▸ List.Subset.refl _) ?_ hold rfl (fun _ _ ht => by cases ht)
      (fun t c => ?_)
    · rw [On, hclears.nextRef, hclears.connection]
      exact ht
    · rw [owned, hclears.sessions, hclears.pending, List.append_nil]
      exact fun hmem => h.accepting_not_mem r hold (List.mem_append_left _ hmem)
    · rw [hbase]
      exact Iff.rfl
  | cleared r =>
    rw [hbase] at hstep
    cases hstep
    have hold : s.base.accepting = some r := by rw [hbase]; rfl
    refine prepares_world (h.wellFormed.constructSession (h.accepting_not_mem r hold))
      (h.pointed.of_eq (fun _ => rfl) (fun _ => rfl) (fun _ _ => id) h.pointed.loop) rfl rfl rfl
      (List.Subset.refl _) (h.accepting_not_mem r hold) hold rfl ?_ fun t c => ?_
    · intro t callbacks ht
      cases ht
      decide
    rw [hbase]
    cases c <;> simp [BaseStage.Awaits]
  | installing r callbacks =>
    have hold : s.base.accepting = some r := by rw [hbase]; rfl
    rw [hbase] at hstep
    cases callbacks with
    | nil =>
      cases hstep
      obtain ⟨htouches, hconnection⟩ :=
        touches_welcome env h.pointed (h.accepting_lt r hold)
      refine prepares_world (h.wellFormed.touches htouches) (h.pointed.affects htouches.affects)
        htouches.threadNum htouches.nextRef hconnection htouches.sessions.subset ?_ hold rfl
        (fun _ _ ht => by cases ht) fun t c => ?_
      · rw [htouches.owned.mem_iff]
        exact h.accepting_not_mem r hold
      · rw [hbase]
        simp [BaseStage.Awaits]
    | cons c rest =>
      cases hstep
      exact prepares_install h hbase
  | welcomed r =>
    rw [hbase] at hstep
    cases hstep
    have hold : s.base.accepting = some r := by rw [hbase]; rfl
    have hresets : Resets {t | t < s.world.nextRef} s.world
        (s.world.notifyUserToBeReady env .base r) :=
      resets_notifyUserToBeReady (h.accepting_lt r hold)
    refine prepares_world (h.wellFormed.affects hresets.affects)
      (h.pointed.affects hresets.affects) hresets.threadNum hresets.nextRef hresets.connection
      (hresets.sessions ▸ List.Subset.refl _) ?_ hold rfl
      (fun _ _ ht => by cases ht) fun t c => ?_
    · rw [hresets.affects.owned.mem_iff]
      exact h.accepting_not_mem r hold
    · rw [hbase]
      exact Iff.rfl
  | reminded r =>
    rw [hbase] at hstep
    obtain ⟨w, hok, rfl⟩ := TransitionSystem.exists_ok_of_toOption_map hstep
    exact prepares_emplace h hbase hok

/-! ## All steps -/

/-- Every step is one of the base thread, which accepts, connects or deals, or one of a worker
thread. -/
theorem next_cases (h : s.next env step = some s') : s.thrown = none ∧
    ((∃ fd, step = .accept fd ∧ s.base = .idle ∧
      s' = { s with base := .accepted s.world.nextRef, world := s.world.onAccept fd }) ∨
    (∃ order, step = .connect order ∧ s.connect env order s.base = some s') ∨
    (∃ w, step = .checkHandup ∧ s.base = .idle ∧ s.world.checkHandup env .base = .ok w ∧
      s' = { s with world := w }) ∨
    (∃ n move result, step = .worker n move ∧ n < s.world.threadNum ∧
      s.work env n (s.worker n) move = some result ∧ s' = s.after n result)) := by
  unfold next at h
  split at h
  · cases h
  · next hthrown =>
    refine ⟨not_not.mp hthrown, ?_⟩
    cases step with
    | accept fd =>
      obtain ⟨⟨hbase, -⟩, heq⟩ := Option.ite_none_right_eq_some.mp h
      exact Or.inl ⟨fd, rfl, hbase, (Option.some.inj heq).symm⟩
    | connect order => exact Or.inr (Or.inl ⟨order, rfl, h⟩)
    | checkHandup =>
      obtain ⟨hbase, heq⟩ := Option.ite_none_right_eq_some.mp h
      obtain ⟨w, hok, rfl⟩ := TransitionSystem.exists_ok_of_toOption_map heq
      exact Or.inr (Or.inr (Or.inl ⟨w, rfl, hbase, hok, rfl⟩))
    | worker n move =>
      obtain ⟨hn, heq⟩ := Option.ite_none_right_eq_some.mp h
      obtain ⟨result, hresult, rfl⟩ := Option.map_eq_some_iff.mp heq
      exact Or.inr (Or.inr (Or.inr ⟨n, move, result, rfl, hn, hresult, rfl⟩))

lemma sound_start (threadNum : ℕ) : Sound (start threadNum) where
  wellFormed := wellFormed_start threadNum
  pointed := pointed_start threadNum
  holds _ _ ht := False.elim ht
  accepting_lt _ ht := by cases ht
  accepting_not_mem _ ht := by cases ht
  nodup _ _ ht := by cases ht
  callbacks _ ht := absurd ht (Nat.not_lt_zero _)
  fresh _ _ := rfl

/-- Accepting a connection. -/
lemma sound_accept (h : Sound s) (fd : ℕ) (hbase : s.base = .idle) :
    Sound { s with base := .accepted s.world.nextRef, world := s.world.onAccept fd } := by
  have hold : ∀ {l : LoopId} {t : Ref}, On s.world l t → On (s.world.onAccept fd) l t := by
    rintro l t ⟨hlt, hl⟩
    refine ⟨hlt.trans (Nat.lt_succ_self _), ?_⟩
    rw [onAccept_connection fd hlt.ne]
    exact hl
  have hloops : ∀ t < (s.world.onAccept fd).nextRef,
      ((s.world.onAccept fd).connection t).loop ≠ .base := by
    intro t ht
    by_cases hnew : t = s.world.nextRef
    · subst hnew
      simp [onAccept_connection_self]
    · rw [onAccept_connection fd hnew]
      have hle : t ≤ s.world.nextRef := Nat.lt_succ_iff.mp ht
      exact h.pointed.loop t (lt_of_le_of_ne hle hnew)
  refine ⟨wellFormed_onAccept h.wellFormed fd, h.pointed.of_eq
    (fun l => (onAccept_loop fd s.world l).1) (fun l => (onAccept_loop fd s.world l).2)
    (fun _ _ => hold) hloops, fun n t ht => hold (h.holds n t ht), fun t ht => ?_, fun t ht => ?_,
    fun t callbacks ht => ?_, fun t ht c => ?_, fun t ht => h.fresh t ((Nat.le_succ _).trans ht)⟩
  · obtain rfl : s.world.nextRef = t := Option.some.inj ht
    exact Nat.lt_succ_self _
  · obtain rfl : s.world.nextRef = t := Option.some.inj ht
    exact fun hmem => absurd (h.wellFormed.owned_lt _ hmem) (lt_irrefl _)
  · cases ht
  · by_cases hnew : t = s.world.nextRef
    · subst hnew
      simp [BaseStage.Awaits, h.fresh]
    · have hle : t ≤ s.world.nextRef := Nat.lt_succ_iff.mp ht
      have hcallbacks := h.callbacks t (lt_of_le_of_ne hle hnew) c
      rw [hbase] at hcallbacks
      simpa [BaseStage.Awaits, Ne.symm hnew] using hcallbacks

/-- A step of `onAccept` and `onConnected`. -/
lemma sound_connect (h : Sound s) (hs' : Prepares s s') : Sound s' where
  wellFormed := hs'.wellFormed
  pointed := hs'.pointed
  holds n t ht := by
    rw [hs'.worker] at ht
    rw [On, hs'.nextRef, hs'.connection]
    exact h.holds n t ht
  accepting_lt t ht := by
    rw [hs'.nextRef]
    exact h.accepting_lt t (hs'.accepting t ht).1
  accepting_not_mem t ht := (hs'.accepting t ht).2
  nodup := hs'.nodup
  callbacks t ht c := by
    rw [hs'.nextRef] at ht
    have hawaits := hs'.awaits t c
    rw [hs'.callbacks, h.callbacks t ht]
    tauto
  fresh t ht := by
    rw [hs'.nextRef] at ht
    rw [List.eq_nil_iff_forall_not_mem]
    intro c hc
    rcases (hs'.callbacks t c).mp hc with hold | ⟨hawaits, -⟩
    · rw [h.fresh t ht] at hold
      cases hold
    · exact absurd (h.accepting_lt t (BaseStage.accepting_of_awaits hawaits)) (not_lt.mpr ht)

/-- What happens on behalf of sessions that exist. -/
lemma sound_affects (h : Sound s) (hw : Affects {t | t < s.world.nextRef} s.world w) :
    Sound { s with world := w } where
  wellFormed := h.wellFormed.affects hw
  pointed := h.pointed.affects hw
  holds m t ht := hw.on (h.holds m t ht)
  accepting_lt t ht := by
    rw [hw.nextRef]
    exact h.accepting_lt t ht
  accepting_not_mem t ht := by
    rw [hw.owned.mem_iff]
    exact h.accepting_not_mem t ht
  nodup := h.nodup
  callbacks t ht c := by
    rw [hw.nextRef] at ht
    exact h.callbacks t ht c
  fresh t ht := by
    rw [hw.nextRef] at ht
    exact h.fresh t ht

/-- A step of a worker thread. -/
lemma sound_work (h : Sound s) (hworks : Works n (s.worker n) s.world stage w) :
    Sound { s with world := w, worker := Function.update s.worker n stage } where
  __ := sound_affects h hworks.affects
  holds m t ht := by
    by_cases hm : m = n
    · subst hm
      have hstage : stage.Holds t := by simpa using ht
      exact hworks.affects.on (hworks.holds t hstage)
    · have hstage : (s.worker m).Holds t := by simpa [hm] using ht
      exact hworks.affects.on (h.holds m t hstage)

/-- Every step keeps the process sound. -/
theorem Sound.next (h : Sound s) (hstep : s.next env step = some s') : Sound s' := by
  obtain ⟨-, ⟨fd, -, hbase, rfl⟩ | ⟨order, -, hconnect⟩ | ⟨w, -, -, hok, rfl⟩ |
    ⟨n, move, result, -, -, hwork, rfl⟩⟩ := next_cases hstep
  · exact sound_accept h fd hbase
  · exact sound_connect h (prepares_connect h hconnect)
  · exact sound_affects h ((affects_checkHandup hok).mono fun t ht =>
      h.wellFormed.owned_lt t (List.mem_append_left _ ht))
  · cases result with
    | error c => exact { h with }
    | ok result => exact sound_work h (works_work h.wellFormed h.pointed (h.holds n) hwork)

/-- **Every interleaving keeps the process sound.** -/
theorem sound_reachableUnder {C : Accepting → AcceptingStep → Prop}
    (h : (system env).ReachableUnder C s) : Sound s := by
  refine h.invariant ?_ fun _ _ _ h _ hstep => h.next hstep
  rintro s ⟨threadNum, -, rfl⟩
  exact sound_start threadNum

/-! ## The small steps put together -/

/-- Without other steps in between, the base thread goes through `Calc24Server::onConnected`. -/
theorem runAll_connect (hthrown : s.thrown = none) (hbase : s.base = .accepted r)
    (h : s.world.onConnected env .base r order = .ok w) :
    TransitionSystem.runAll (next env) s (List.replicate 8 (.connect order)) =
      { s with
        world := w
        base := .idle
        callbacks := Function.update s.callbacks r (.close :: .write :: .read :: s.callbacks r) } := by
  have hlast : (((s.world.clearPending.constructSession env r).sendWelcomeMsg env .base
      r).notifyUserToBeReady env .base r).emplace r order = .ok w := h
  simp [TransitionSystem.runAll, next, connect, install, hthrown, hbase, hlast, Except.toOption]

/-- The next statement of `TCPConnection::onClose`. -/
lemma next_onClose {recv : RecvResult} {phase : ClosePhase} (hthrown : s.thrown = none)
    (hn : n < w.threadNum)
    (hclose : close n { s with world := w } r back phase = .ok (stage', w')) :
    (s.after n (.ok (.onClose r phase back, w))).next env (.worker n (.goOn recv)) =
      some (s.after n (.ok (stage', w'))) := by
  have hsame : (s.after n (.ok (.onClose r phase back, w))).close n r back phase =
      .ok (stage', w') := by
    rw [← hclose]
    cases phase <;> rfl
  have hwork : (s.after n (.ok (.onClose r phase back, w))).work env n (.onClose r phase back)
      (.goOn recv) = some (.ok (stage', w')) := congrArg some hsame
  simp only [after, next, Function.update_self] at hwork ⊢
  rw [if_neg (not_not.mpr hthrown), if_pos hn, hwork]
  simp [after]

/-- Without other steps in between, a worker thread goes through `TCPConnection::onClose`. -/
theorem runAll_close {recv : RecvResult} (hthrown : s.thrown = none) (hn : n < s.world.threadNum)
    (hclose : .close ∈ s.callbacks r) :
    TransitionSystem.runAll (next env) (s.after n (.ok (.onClose r .unregister back, s.world)))
      (List.replicate 4 (.worker n (.goOn recv))) =
        s.after n (.ok (back, s.world.onClose (.worker n) r)) := by
  set w₁ := s.world.setEndpoint r ((s.world.endpoint r).onClose (.connection r)) with hw₁
  set w₂ := w₁.removeTimer (.worker n) (w₁.connection r).loop (w₁.session r).timerID with hw₂
  have hn₁ : n < w₁.threadNum := hn
  have hn₂ : n < w₂.threadNum := by
    rw [hw₂, (touches_removeTimer (A := Set.univ) _).threadNum]
    exact hn
  have hunregister : close n { s with world := s.world } r back .unregister =
      .ok (.onClose r .callback back, w₁) := rfl
  have hcall : close n { s with world := w₁ } r back .callback =
      .ok (.onClose r .removeTimer back, w₁) := if_pos hclose
  have hremove : close n { s with world := w₁ } r back .removeTimer =
      .ok (.onClose r .onDisconnected back, w₂) := rfl
  have hdisconnect : close n { s with world := w₂ } r back .onDisconnected =
      .ok (back, s.world.onClose (.worker n) r) := by
    have hsession : w₂.session = w₁.session :=
      (touches_removeTimer (A := Set.univ) (w₁.session r).timerID).session
    rw [close, hsession]
    rfl
  simp only [List.replicate]
  rw [TransitionSystem.runAll_cons (next_onClose hthrown hn hunregister),
    TransitionSystem.runAll_cons (next_onClose hthrown hn₁ hcall),
    TransitionSystem.runAll_cons (next_onClose hthrown hn₁ hremove),
    TransitionSystem.runAll_cons (next_onClose hthrown hn₂ hdisconnect)]
  rfl

end Accepting

end Calc24
