import Calc24.Lib.TransitionSystem
import Calc24.App.Records

/-!
# The server, one operation at a time

The runs of the server in which every connect, package, deal, close, timer pass and round of queued
tasks is one step, and in which timer requests queued for another loop are applied at the end of
the step that makes them.  Every package, every order of the session map and every answer of the
environment is possible.

`Stable` is what all these runs keep: the map is well formed, no timer pass is going on, and only
sends are queued.
-/

namespace Calc24

namespace World

variable {env : Environment} {cur l : LoopId} {r t : Ref} {A B : Set Ref} {w w' w'' : World}

/-- A queued send. -/
def IsSend : CustomTask → Bool
  | .send _ _ => true
  | _ => false

/-- The effect of a queued timer request on the timers of its loop. -/
def applyTimerRequest (timers : LoopTimers TimerTask) : CustomTask → LoopTimers TimerTask
  | .send _ _ => timers
  | .addTimerInternal spTimer => timers.addTimerInternal spTimer
  | .removeTimerInternal timerID => timers.removeTimerInternal timerID

/-- A loop with its queued timer requests applied. -/
def settleLoop (loop : EventLoop Dispatcher TimerTask CustomTask) :
    EventLoop Dispatcher TimerTask CustomTask :=
  { loop with
    customTasks := loop.customTasks.filter IsSend
    timers := loop.customTasks.foldl applyTimerRequest loop.timers }

/-- All queued timer requests applied. -/
def settle (w : World) : World :=
  { w with loop := fun l => settleLoop (w.loop l) }

/-- The operations of the server. -/
inductive Operation
  /-- The base loop accepts the descriptor `fd`; `order` is the iteration order of the map after
  the new session is stored. -/
  | connect (fd : ℕ) (order : List (Int32 × Ref))
  /-- A session's loop hands it a package. -/
  | package (r : Ref) (package : Bytes)
  /-- The base loop calls the callback of the timer that checks for players. -/
  | checkHandup
  /-- A session's loop sees the end of its stream, or rejects it. -/
  | close (r : Ref)
  | checkAndDoTimers (l : LoopId) (nowMs : ℤ)
  | doOtherTask (l : LoopId)
  deriving DecidableEq

/-- The effect of an operation. -/
def Operation.perform (env : Environment) (w : World) : Operation → Except Fault World
  | .connect fd order => (w.onAccept fd).onConnected env .base w.nextRef order
  | .package r p => w.processPackage env (w.connection r).loop r p
  | .checkHandup => w.checkHandup env .base
  | .close r => .ok (w.onClose (w.connection r).loop r)
  | .checkAndDoTimers l nowMs => .ok (w.checkAndDoTimers env l nowMs)
  | .doOtherTask l => .ok (w.doOtherTask env l)

/-- A session that has been constructed and not destroyed. -/
def Alive (w : World) (r : Ref) : Prop :=
  r < w.nextRef ∧ Event.released r ∉ w.trace

instance (w : World) (r : Ref) : Decidable (Alive w r) :=
  inferInstanceAs (Decidable (_ ∧ _))

/-- Packages and closes happen to sessions that exist, and the kernel hands out descriptors that
are not open. -/
def Allowed (w : World) : Operation → Prop
  | .connect fd _ => ∀ r < w.nextRef, Alive w r → (w.connection r).fd ≠ fd
  | .package r _ => Alive w r
  | .close r => Alive w r
  | _ => True

instance (w : World) (op : Operation) : Decidable (Allowed w op) :=
  match op with
  | .connect fd _ =>
    inferInstanceAs (Decidable (∀ r < w.nextRef, Alive w r → (w.connection r).fd ≠ fd))
  | .package r _ => inferInstanceAs (Decidable (Alive w r))
  | .close r => inferInstanceAs (Decidable (Alive w r))
  | .checkHandup => .isTrue trivial
  | .checkAndDoTimers _ _ => .isTrue trivial
  | .doOtherTask _ => .isTrue trivial

/-- The runs of the server in which every operation is one step. -/
def sequential (env : Environment) : TransitionSystem World Operation where
  init w := ∃ threadNum > 0, w = start threadNum
  step w op w' := Allowed w op ∧ ∃ w₁, op.perform env w = .ok w₁ ∧ w' = w₁.settle

/-- The state after an operation, if it is allowed and does not fail. -/
def Operation.next (env : Environment) (w : World) (op : Operation) : Option World :=
  if Allowed w op then (op.perform env w).toOption.map settle else none

/-- An operation that is allowed and does not fail is a step. -/
lemma step_of_next {op : Operation} (h : op.next env w = some w') :
    (sequential env).step w op w' := by
  unfold Operation.next at h
  split at h
  · next hallowed =>
    obtain ⟨w₁, hok, rfl⟩ := TransitionSystem.exists_ok_of_toOption_map h
    exact ⟨hallowed, w₁, hok, rfl⟩
  · cases h

/-- The state after a list of operations. -/
def runOps (env : Environment) : World → List Operation → World :=
  TransitionSystem.runAll fun w op => op.next env w

/-- A list of operations is a run from `w`, with every step meeting the guard `C`. -/
def follows (C : World → Operation → Prop) [∀ w op, Decidable (C w op)] (env : Environment) :
    World → List Operation → Bool :=
  TransitionSystem.follows (fun w op => op.next env w) C

lemma reachableUnder_runOps {C : World → Operation → Prop} [∀ w op, Decidable (C w op)]
    {ops : List Operation} (hw : (sequential env).ReachableUnder C w)
    (h : follows C env w ops = true) :
    (sequential env).ReachableUnder C (runOps env w ops) :=
  hw.runAll (fun _ _ _ => step_of_next) h

/-- An environment in which the kernel takes every message at once, the clock stands still and
`rand` is `0`. -/
def calm : Environment where
  send := fun _ => []
  clock := fun _ => 0
  rand := fun _ => 0
  memory := fun _ => 0

/-- Two players connect, say that they are ready, and are dealt to.  With
two worker threads each of them has a loop of its own. -/
def twoPlayers : List Operation :=
  [.connect 5 [], .connect 6 [], .package 0 (ascii "!ready\n"), .package 1 (ascii "!ready\n"),
    .checkHandup]

/-! ## What all runs keep -/

/-- Between operations the map is well formed, no pass is going on and only sends are queued. -/
structure Stable (w : World) : Prop where
  wellFormed : WellFormed w
  idle : ∀ l, (w.loop l).timers.isCheckTimers = false
  settled : ∀ l, ∀ task ∈ (w.loop l).customTasks, IsSend task = true

lemma stable_start (threadNum : ℕ) : Stable (start threadNum) where
  wellFormed := wellFormed_start threadNum
  idle _ := rfl
  settled _ := by simp [start, EventLoop.empty]

lemma isCheckTimers_applyTimerRequest (timers : LoopTimers TimerTask) (task : CustomTask) :
    (applyTimerRequest timers task).isCheckTimers = timers.isCheckTimers := by
  cases task with
  | send r buf => rfl
  | addTimerInternal spTimer => exact LoopTimers.addTimerInternal_isCheckTimers
  | removeTimerInternal timerID => exact LoopTimers.removeTimerInternal_isCheckTimers

/-- Applying timer requests neither starts nor ends a pass. -/
lemma isCheckTimers_settle (w : World) (l : LoopId) :
    (w.settle.loop l).timers.isCheckTimers = (w.loop l).timers.isCheckTimers :=
  List.foldlRecOn (motive := fun timers : LoopTimers TimerTask =>
      timers.isCheckTimers = (w.loop l).timers.isCheckTimers)
    _ _ rfl fun timers h task _ => (isCheckTimers_applyTimerRequest timers task).trans h

/-- A well-formed state outside any pass becomes stable when its timer requests are applied. -/
lemma stable_settle (hwf : WellFormed w) (hidle : ∀ l, (w.loop l).timers.isCheckTimers = false) :
    Stable w.settle where
  wellFormed := hwf.of_eq (fun _ => rfl) rfl rfl (le_refl _)
  idle l := (isCheckTimers_settle w l).trans (hidle l)
  settled _ _ htask := (List.mem_filter.mp htask).2

/-- Where only sends are queued there is no timer request to apply. -/
lemma settle_of_settled (h : ∀ l, ∀ task ∈ (w.loop l).customTasks, IsSend task = true) :
    w.settle = w := by
  have hloop : ∀ l, settleLoop (w.loop l) = w.loop l := by
    intro l
    have hfilter : (w.loop l).customTasks.filter IsSend = (w.loop l).customTasks :=
      List.filter_eq_self.mpr (h l)
    have hfold : (w.loop l).customTasks.foldl applyTimerRequest (w.loop l).timers =
        (w.loop l).timers := by
      refine List.foldlRecOn (motive := fun timers => timers = (w.loop l).timers) _ _ rfl ?_
      rintro timers rfl task htask
      cases task with
      | send r buf => rfl
      | addTimerInternal spTimer => exact absurd (h l _ htask) (by simp [IsSend])
      | removeTimerInternal timerID => exact absurd (h l _ htask) (by simp [IsSend])
    rw [settleLoop, hfilter, hfold]
  rw [settle, funext hloop]

/-- The queued tasks of a loop are sends: executing them all touches their recipients. -/
lemma touches_doOtherTask (env : Environment)
    (hsettled : ∀ task ∈ (w.loop l).customTasks, IsSend task = true) :
    Touches Set.univ (w.modifyLoop l fun l => { l with customTasks := [] })
      (w.doOtherTask env l) := by
  refine List.foldlRecOn (motive := Touches Set.univ _) _ _ (Touches.refl _ _) ?_
  intro w₁ hw₁ task htask
  cases task with
  | send r buf => exact hw₁.trans ((touches_log _).trans (touches_send buf (Set.mem_univ r)))
  | addTimerInternal spTimer => exact absurd (hsettled _ htask) (by simp [IsSend])
  | removeTimerInternal timerID => exact absurd (hsettled _ htask) (by simp [IsSend])

/-- What a connect does: a new session, idle and without a desk, joins the map, and the pending
sessions are destroyed. -/
structure Connects (r : Ref) (w w' : World) : Prop where
  threadNum : w'.threadNum = w.threadNum
  wellFormed : WellFormed w'
  session : ∀ t ≠ r, w'.session t = w.session t
  isReset : IsReset w' r
  sessions : ∀ entry ∈ w'.sessions, entry.2 = r ∨ entry ∈ w.sessions
  owned : ∀ t ∈ w'.owned, t = r ∨ t ∈ w.sessions.map Prod.snd
  nextRef : w'.nextRef = r + 1
  deskBaseId : w'.deskBaseId = w.deskBaseId
  timersConstructed : w.timersConstructed ≤ w'.timersConstructed
  loop : ∀ t ≠ r, (w'.connection t).loop = (w.connection t).loop
  isCheckTimers : ∀ l, (w'.loop l).timers.isCheckTimers = (w.loop l).timers.isCheckTimers
  entries : ∀ l, ∀ t ∈ (w'.loop l).timers.entries, t ∈ (w.loop l).timers.entries ∨
    (l = (w'.connection r).loop ∧ t.timerTask = .reminder r ∧ t.object < w'.timersConstructed)
  tasks : ∀ l, ∀ task ∈ (w'.loop l).customTasks, task ∈ (w.loop l).customTasks ∨
    (l = (w'.connection r).loop ∧ task.Concerns r ∧
      ∀ t, task = .addTimerInternal t → t.object < w'.timersConstructed) ∨
      ∃ timerID, task = .removeTimerInternal timerID
  trace : w'.trace =
    .sent r welcomeMsg :: ((w.pendingToDeleteSessions.map Event.released).reverse ++ w.trace)

/-- Making room for a session touches no timers and queues no tasks. -/
lemma constructed_loop (fd : ℕ) (r : Ref) (w : World) (l : LoopId) :
    (((w.onAccept fd).clearPending.constructSession env r).loop l).timers = (w.loop l).timers ∧
      (((w.onAccept fd).clearPending.constructSession env r).loop l).customTasks =
        (w.loop l).customTasks := by
  have hclears := clears_clearPending (w.onAccept fd)
  exact ⟨(hclears.timers l).trans (onAccept_loop fd w l).1,
    (hclears.tasks l).trans (onAccept_loop fd w l).2⟩

/-- The new address is held by nobody. -/
lemma WellFormed.nextRef_not_mem_owned (hwf : WellFormed w) {fd : ℕ}
    (hclears : Clears (w.onAccept fd) w') : w.nextRef ∉ w'.owned := by
  intro hmem
  rw [owned, hclears.sessions, hclears.pending, List.append_nil] at hmem
  exact absurd (hwf.owned_lt _ (List.mem_append_left _ hmem)) (lt_irrefl _)

/-- The tasks that messages to a session and its reminder add. -/
lemma Touches.tasks_resets {w₁ : World} {task : CustomTask} (h : Touches {r} w w₁)
    (h' : Resets {r} w₁ w') (htask : task ∈ (w'.loop l).customTasks) :
    task ∈ (w.loop l).customTasks ∨
      (l = (w'.connection r).loop ∧ task.Concerns r ∧
        ∀ t, task = .addTimerInternal t → t.object < w'.timersConstructed) ∨
      ∃ timerID, task = .removeTimerInternal timerID := by
  obtain ⟨new, heq, hnew⟩ := h.tasks l
  obtain ⟨new', heq', hnew'⟩ := h'.tasks l
  rw [heq', heq] at htask
  rcases List.mem_append.mp htask with hmem | hmem
  · rcases List.mem_append.mp hmem with hmem | hmem
    · exact Or.inl hmem
    · rcases hnew task hmem with hremoval | ⟨r', rfl, hl, buf, rfl⟩
      · exact Or.inr (Or.inr hremoval)
      · rw [← h.loop, ← h'.connection] at hl
        exact Or.inr (Or.inl ⟨hl, rfl, fun t heq => by cases heq⟩)
  · obtain ⟨r', rfl, hl, t, ht, hobject, rfl⟩ := hnew' task hmem
    rw [← h'.connection] at hl
    refine Or.inr (Or.inl ⟨hl, ht, fun t' heq => ?_⟩)
    cases heq
    exact hobject

/-- What a connect does, if it does not drop the session. -/
theorem connect_cases (hwf : WellFormed w) {fd : ℕ} {order : List (Int32 × Ref)}
    (h : (w.onAccept fd).onConnected env cur w.nextRef order = .ok w') :
    Connects w.nextRef w w' := by
  set r := w.nextRef with hr
  set accepted := w.onAccept fd with haccepted
  set cleared := accepted.clearPending with hcleared
  set constructed := cleared.constructSession env r with hconstructed
  set welcomed := constructed.sendWelcomeMsg env cur r with hwelcomed
  set notified := welcomed.notifyUserToBeReady env cur r with hnotified
  have hclears : Clears accepted cleared := clears_clearPending accepted
  have hwelcome : Touches {r} constructed welcomed := touches_sendMsg _ rfl
  have hnotify : Resets {r} welcomed notified := resets_notifyUserToBeReady rfl
  -- the new address is held by nobody until the end
  have hfresh : r ∉ cleared.owned := hwf.nextRef_not_mem_owned hclears
  have hfresh' : r ∉ notified.owned := by
    have hsame : notified.owned = welcomed.owned := by
      rw [owned, hnotify.sessions, hnotify.pending]
      rfl
    rw [hsame, hwelcome.owned.mem_iff]
    exact hfresh
  have hnext : notified.nextRef = r + 1 := by
    rw [hnotify.nextRef, hwelcome.nextRef]
    exact hclears.nextRef
  have hlt : r < notified.nextRef := by
    rw [hnext]
    exact Nat.lt_succ_self r
  have hwfConstructed : WellFormed constructed :=
    ((wellFormed_onAccept hwf fd).clears hclears).constructSession hfresh
  have hwfNotified : WellFormed notified :=
    (hwfConstructed.touches hwelcome).of_eq hnotify.id hnotify.sessions hnotify.pending
      hnotify.nextRef.ge
  have htimers : ∀ l, (constructed.loop l).timers = (w.loop l).timers :=
    fun l => (constructed_loop fd r w l).1
  obtain ⟨-, sessions, rfl, hperm⟩ := emplace_cases (w := notified) h
  refine ⟨?_, hwfNotified.emplace hfresh' hlt h, fun t ht => ?_, ?_, fun entry hentry => ?_,
    fun t ht => ?_, hnext, ?_, ?_, fun t ht => ?_,
    fun l => ?_, fun l t ht => ?_, fun l task htask => ?_, ?_⟩
  · exact hnotify.threadNum.trans (hwelcome.threadNum.trans hclears.threadNum)
  · have h₁ : notified.session t = welcomed.session t := hnotify.session t ht
    have h₂ : constructed.session t = cleared.session t := by
      simp [hconstructed, constructSession, ht]
    have h₃ : accepted.session t = w.session t := rfl
    rw [← h₃, ← hclears.session, ← h₂, ← hwelcome.session]
    exact h₁
  · apply hnotify.isReset
    rw [IsReset, hwelcome.session]
    simp [hconstructed, constructSession]
  · rcases List.mem_cons.mp (hperm.mem_iff.mp hentry) with rfl | hentry
    · exact Or.inl rfl
    · refine Or.inr ?_
      rw [hnotify.sessions] at hentry
      have hold := hwelcome.sessions.subset hentry
      rw [show constructed.sessions = cleared.sessions from rfl, hclears.sessions] at hold
      exact hold
  · have hadded : t ∈ r :: notified.owned :=
      ((hperm.map Prod.snd).append_right notified.pendingToDeleteSessions).mem_iff.mp ht
    rcases List.mem_cons.mp hadded with rfl | hold
    · exact Or.inl rfl
    · refine Or.inr ?_
      rw [owned, hnotify.sessions, hnotify.pending] at hold
      have hbefore : t ∈ cleared.owned := hwelcome.owned.mem_iff.mp hold
      rwa [owned, hclears.sessions, hclears.pending, List.append_nil] at hbefore
  · exact hnotify.deskBaseId.trans (hwelcome.deskBaseId.trans hclears.deskBaseId)
  · refine le_of_eq_of_le ?_ hnotify.timersConstructed
    rw [hwelcome.timersConstructed]
    exact hclears.timersConstructed.symm
  · have h₁ : (notified.connection t).loop = (constructed.connection t).loop := by
      rw [hnotify.connection, hwelcome.loop]
    have h₂ : constructed.connection t = w.connection t := by
      rw [show constructed.connection = cleared.connection from rfl, hclears.connection]
      exact onAccept_connection fd ht
    rw [← h₂]
    exact h₁
  · have h₁ := (hnotify.isCheckTimers l).trans (hwelcome.isCheckTimers l)
    rw [htimers] at h₁
    exact h₁
  · rcases hnotify.entries l t ht with hold | ⟨r', rfl, hl, htask, hobject⟩
    · have hbefore := hwelcome.entries l hold
      rw [htimers] at hbefore
      exact Or.inl hbefore
    · rw [← hnotify.connection] at hl
      exact Or.inr ⟨hl, htask, hobject⟩
  · have hadded := hwelcome.tasks_resets hnotify htask
    rw [(constructed_loop fd r w l).2] at hadded
    exact hadded
  · have hsent : welcomed.trace = .sent r welcomeMsg :: constructed.trace := trace_sendMsg _ _ _
    have hreleased : constructed.trace =
        (w.pendingToDeleteSessions.map Event.released).reverse ++ w.trace :=
      clearPending_trace accepted
    rw [← hreleased, ← hsent]
    exact hnotify.trace

/-- Resets of some sessions keep the map well formed. -/
lemma WellFormed.resets (h : WellFormed w) (hw : Resets A w w') : WellFormed w' :=
  h.of_eq hw.id hw.sessions hw.pending hw.nextRef.ge

/-- Every operation of a stable world leaves the map well formed and every loop outside a pass. -/
lemma wellFormed_perform (h : Stable w) {op : Operation} (hok : op.perform env w = .ok w') :
    WellFormed w' ∧ ∀ l, (w'.loop l).timers.isCheckTimers = false := by
  have htouches : ∀ {A w₁}, Touches A w w₁ →
      WellFormed w₁ ∧ ∀ l, (w₁.loop l).timers.isCheckTimers = false :=
    fun hw => ⟨h.wellFormed.touches hw, fun l => (hw.isCheckTimers l).trans (h.idle l)⟩
  cases op with
  | connect fd order =>
    have hconnect := connect_cases h.wellFormed hok
    exact ⟨hconnect.wellFormed, fun l => (hconnect.isCheckTimers l).trans (h.idle l)⟩
  | package r p =>
    rcases processPackage_cases hok with ⟨-, -, hsend⟩ | ⟨-, rfl⟩ | ⟨-, w₁, w₂, -, h₁, -, h₂, h₃⟩
    · exact htouches hsend
    · refine ⟨h.wellFormed.of_eq (fun t => ?_) rfl rfl (le_refl _), h.idle⟩
      by_cases ht : t = r <;> simp [modifySession, ht]
    · have hresets := (resetDesk_cases h₃).1
      obtain ⟨hwf, hidle⟩ := htouches ((h₁.mono (Set.subset_univ _)).trans h₂)
      exact ⟨hwf.resets hresets, fun l => (hresets.isCheckTimers l).trans (hidle l)⟩
  | checkHandup =>
    rcases checkHandup_cases hok with ⟨-, rfl⟩ | ⟨-, -, -, hdeals⟩
    · exact ⟨h.wellFormed, h.idle⟩
    · obtain ⟨hwf, hidle⟩ := htouches hdeals.touches
      refine ⟨hwf.of_eq (fun t => ?_) rfl rfl (le_refl _), hidle⟩
      rcases hdeals.place t with hsame | ⟨-, -, hdealt⟩
      · rw [hsame]
      · rw [hdealt]
  | close r =>
    obtain rfl : w.onClose (w.connection r).loop r = w' := Except.ok.inj hok
    exact htouches (touches_onClose (Set.mem_singleton r))
  | checkAndDoTimers l nowMs =>
    obtain rfl : w.checkAndDoTimers env l nowMs = w' := Except.ok.inj hok
    exact htouches (touches_checkAndDoTimers nowMs (h.idle l))
  | doOtherTask l =>
    obtain rfl : w.doOtherTask env l = w' := Except.ok.inj hok
    have hw := touches_doOtherTask env (h.settled l)
    have hcleared : WellFormed (w.modifyLoop l fun l => { l with customTasks := [] }) :=
      h.wellFormed.of_eq (fun _ => rfl) rfl rfl (le_refl _)
    refine ⟨hcleared.touches hw, fun l' => ?_⟩
    rw [hw.isCheckTimers l']
    by_cases hl : l' = l
    · subst hl
      simpa [modifyLoop] using h.idle l'
    · simpa [modifyLoop, hl] using h.idle l'

/-- Every step of a run keeps the world stable. -/
lemma stable_step {op : Operation} (h : Stable w) (hstep : (sequential env).step w op w') :
    Stable w' := by
  obtain ⟨-, w₁, hok, rfl⟩ := hstep
  obtain ⟨hwf, hidle⟩ := wellFormed_perform h hok
  exact stable_settle hwf hidle

/-- **Between two operations of any run the map of sessions is well formed, no timer pass is going
on, and only sends are queued.** -/
theorem stable_reachable (h : (sequential env).Reachable w) : Stable w := by
  refine h.invariant ?_ fun _ _ _ h hstep => stable_step h hstep
  rintro w ⟨threadNum, -, rfl⟩
  exact stable_start threadNum

end World

end Calc24
