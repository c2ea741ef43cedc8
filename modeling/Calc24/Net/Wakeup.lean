import Calc24.Lib.TransitionSystem

/-!
# Waking the loop

`EventLoop::addTask` puts a task into the queue of a loop and then calls
`WakeupEventDispatcher::wakeup`, so that a poll which the loop has begun returns at once
(`net/EventLoop.cpp`, `net/WakeupEventDispatcher.cpp`).  This file follows the thread of one loop
around `EventLoop::run`, interleaved with any number of threads that are inside `addTask`.  The
eventfd is its counter: `write` adds a value, the descriptor is readable while the counter is
positive, and `read` takes the counter back to `0`.

The value that `wakeup` writes is `0`, so the eventfd is never readable.  The loop is never kept
waiting with tasks in its queue exactly in the runs in which no thread has a reason to wake it:
it arrives at the poll only with an empty queue, or while a thread is between `push_back` and
`wakeup`, and no such thread finishes while the loop is at the poll and tasks are queued
(`noLostWakeup_iff_nothingToWake`).
-/

namespace Calc24

/-- Where the thread of a loop is in `EventLoop::run`: at the timers, about to poll, at the
dispatchers that the poll has returned (among them that of the eventfd or not), before
`doOtherTask` takes the queue, or at the tasks that it has taken. -/
inductive LoopStage
  | checkAndDoTimers
  | poll
  | dispatch (wakeupEvent : Bool)
  | doOtherTask
  | tasks
  deriving DecidableEq, Repr

/-- The value that `WakeupEventDispatcher::wakeup` writes. -/
def dummyDate : ℕ := 0

/-- A loop, its eventfd and the threads that add tasks to it: `T` are the threads and `κ` the
tasks. -/
structure WakeupState (T κ : Type*) where
  stage : LoopStage
  enableRead : Bool
  counter : ℕ
  customTasks : List κ
  tasks : List κ
  waking : T → Bool

/-- The steps of the loop thread, in the order of an iteration, and the two steps of `addTask`. -/
inductive WakeupStep (T κ : Type*)
  | checkAndDoTimers
  | poll (wakeupEvent : Bool)
  | dispatch
  | swap
  | runTask
  | nextIteration
  | pushBack (thread : T) (task : κ)
  | wakeup (thread : T)

namespace WakeupState

variable {T κ : Type*} [DecidableEq T]

/-- A loop that enters `run`. -/
def init : WakeupState T κ where
  stage := .checkAndDoTimers
  enableRead := false
  counter := 0
  customTasks := []
  tasks := []
  waking := fun _ => false

/-- `WakeupEventDispatcher::onRead`: a `read` takes the counter back to `0`, or fails where it is
`0` already. -/
def onRead (s : WakeupState T κ) : WakeupState T κ :=
  if !s.enableRead then s else { s with counter := 0 }

/-- One step, where it is possible. -/
def next (s : WakeupState T κ) : WakeupStep T κ → Option (WakeupState T κ)
  | .checkAndDoTimers =>
    if s.stage = .checkAndDoTimers then some { s with stage := .poll } else none
  | .poll wakeupEvent =>
    -- the poll may time out or report other descriptors only, but not an eventfd at `0`
    if s.stage = .poll ∧ (wakeupEvent = true → 0 < s.counter) then
      some { s with
        stage := .dispatch wakeupEvent
        enableRead := s.enableRead || wakeupEvent }
    else none
  | .dispatch =>
    match s.stage with
    | .dispatch true => some { s.onRead with stage := .doOtherTask }
    | .dispatch false => some { s with stage := .doOtherTask }
    | _ => none
  | .swap =>
    if s.stage = .doOtherTask then
      some { s with stage := .tasks, tasks := s.customTasks, customTasks := [] }
    else none
  | .runTask =>
    match s.stage, s.tasks with
    | .tasks, _ :: tasks => some { s with tasks := tasks }
    | _, _ => none
  | .nextIteration =>
    match s.stage, s.tasks with
    | .tasks, [] => some { s with stage := .checkAndDoTimers }
    | _, _ => none
  | .pushBack thread task =>
    if s.waking thread = false then
      some { s with
        customTasks := s.customTasks ++ [task]
        waking := Function.update s.waking thread true }
    else none
  | .wakeup thread =>
    if s.waking thread = true then
      some { s with
        counter := s.counter + dummyDate
        waking := Function.update s.waking thread false }
    else none

/-- The runs of a loop among threads that add tasks. -/
def system : TransitionSystem (WakeupState T κ) (WakeupStep T κ) where
  init s := s = WakeupState.init
  step s l s' := s.next l = some s'

/-- If the loop is about to poll, tasks are queued and no `addTask` is under way, the eventfd is
readable. -/
def NoLostWakeup (s : WakeupState T κ) : Prop :=
  s.stage = .poll → s.customTasks ≠ [] → (∀ thread, s.waking thread = false) → 0 < s.counter

/-- The step leaves nobody to wake the loop up for: it comes to the poll with an empty queue or
while an `addTask` is under way, and an `addTask` that ends while the loop is about to poll leaves
an empty queue or another one under way. -/
def NothingToWake (s : WakeupState T κ) : WakeupStep T κ → Prop
  | .checkAndDoTimers => s.customTasks = [] ∨ ∃ thread, s.waking thread = true
  | .wakeup thread =>
    s.stage = .poll → s.customTasks = [] ∨ ∃ other, other ≠ thread ∧ s.waking other = true
  | _ => True

/-! ## The eventfd is never readable -/

variable {s s' : WakeupState T κ} {l : WakeupStep T κ}

/-- The steps that matter here are the one to the poll and the two of `addTask`.  The others leave
the poll or stay away from it. -/
lemma step_cases (h : system.step s l s') :
    (l = .checkAndDoTimers ∧ s' = { s with stage := .poll }) ∨
      (∃ thread task, l = .pushBack thread task ∧
        s' = { s with
          customTasks := s.customTasks ++ [task]
          waking := Function.update s.waking thread true }) ∨
      (∃ thread, l = .wakeup thread ∧
        s' = { s with
          counter := s.counter + dummyDate
          waking := Function.update s.waking thread false }) ∨
      (NothingToWake s l ∧ s'.stage ≠ .poll ∧ (s'.counter = s.counter ∨ s'.counter = 0)) := by
  cases l with
  | checkAndDoTimers =>
    obtain ⟨-, heq⟩ := Option.ite_none_right_eq_some.mp h
    exact Or.inl ⟨rfl, (Option.some.inj heq).symm⟩
  | poll wakeupEvent =>
    obtain ⟨-, heq⟩ := Option.ite_none_right_eq_some.mp h
    cases heq
    exact Or.inr (Or.inr (Or.inr ⟨trivial, by simp, Or.inl rfl⟩))
  | dispatch =>
    refine Or.inr (Or.inr (Or.inr ⟨trivial, ?_⟩))
    simp only [system, next] at h
    split at h
    · cases h
      refine ⟨by simp, ?_⟩
      unfold onRead
      split
      · exact Or.inl rfl
      · exact Or.inr rfl
    · cases h
      exact ⟨by simp, Or.inl rfl⟩
    · cases h
  | swap =>
    obtain ⟨-, heq⟩ := Option.ite_none_right_eq_some.mp h
    cases heq
    exact Or.inr (Or.inr (Or.inr ⟨trivial, by simp, Or.inl rfl⟩))
  | runTask =>
    simp only [system, next] at h
    split at h
    · next hstage _ =>
      cases h
      exact Or.inr (Or.inr (Or.inr ⟨trivial, by simp [hstage], Or.inl rfl⟩))
    · cases h
  | nextIteration =>
    simp only [system, next] at h
    split at h
    · cases h
      exact Or.inr (Or.inr (Or.inr ⟨trivial, by simp, Or.inl rfl⟩))
    · cases h
  | pushBack thread task =>
    obtain ⟨-, heq⟩ := Option.ite_none_right_eq_some.mp h
    exact Or.inr (Or.inl ⟨thread, task, rfl, (Option.some.inj heq).symm⟩)
  | wakeup thread =>
    obtain ⟨-, heq⟩ := Option.ite_none_right_eq_some.mp h
    exact Or.inr (Or.inr (Or.inl ⟨thread, rfl, (Option.some.inj heq).symm⟩))

/-- Waking the loop up adds nothing to the counter. -/
lemma counter_step (h : system.step s l s') (hs : s.counter = 0) : s'.counter = 0 := by
  rcases step_cases h with ⟨-, rfl⟩ | ⟨_, _, -, rfl⟩ | ⟨_, -, rfl⟩ | ⟨-, -, hsame | hzero⟩
  · exact hs
  · exact hs
  · -- the value written is `0`
    simp [hs, dummyDate]
  · exact hsame.trans hs
  · exact hzero

/-! ## One step -/

omit [DecidableEq T] in
/-- A loop that is not about to poll needs no wakeup. -/
lemma noLostWakeup_of_stage (h : s.stage ≠ .poll) : NoLostWakeup s :=
  fun hpoll => absurd hpoll h

omit [DecidableEq T] in
/-- As the eventfd cannot be read, the law says that there is nothing to wake the loop up for. -/
lemma noLostWakeup_iff (hcounter : s.counter = 0) :
    NoLostWakeup s ↔
      (s.stage = .poll → s.customTasks = [] ∨ ∃ thread, s.waking thread = true) := by
  constructor
  · intro hlaw hpoll
    by_contra hnone
    obtain ⟨htasks, hwaking⟩ := not_or.mp hnone
    have hidle : ∀ thread, s.waking thread = false := fun thread => by
      rw [← Bool.not_eq_true]
      exact fun hthread => hwaking ⟨thread, hthread⟩
    have hreadable := hlaw hpoll htasks hidle
    omega
  · intro hnone hpoll htasks hidle
    rcases hnone hpoll with hempty | ⟨thread, hthread⟩
    · exact absurd hempty htasks
    · rw [hidle thread] at hthread
      cases hthread

/-- A step keeps the law exactly if it leaves nobody to wake the loop up for. -/
theorem noLostWakeup_step_iff (hcounter : s.counter = 0) (h : system.step s l s') :
    NoLostWakeup s' ↔ NothingToWake s l := by
  have hcounter' := counter_step h hcounter
  rcases step_cases h with ⟨rfl, rfl⟩ | ⟨thread, task, rfl, rfl⟩ | ⟨thread, rfl, rfl⟩ |
    ⟨hguard, hstage, -⟩
  · rw [noLostWakeup_iff hcounter']
    exact ⟨fun hnone => hnone rfl, fun hnone _ => hnone⟩
  · rw [noLostWakeup_iff hcounter']
    exact iff_of_true (fun _ => Or.inr ⟨thread, by simp⟩) trivial
  · rw [noLostWakeup_iff hcounter']
    refine imp_congr_right fun _ => or_congr_right (exists_congr fun other => ?_)
    by_cases hother : other = thread
    · subst hother
      simp
    · simp [hother]
  · exact iff_of_true (noLostWakeup_of_stage hstage) hguard

/-! ## Whole runs -/

/-- **No wakeup is lost in a run exactly if there never is anything to wake the loop up for.** -/
theorem noLostWakeup_iff_nothingToWake {tr : List (WakeupStep T κ × WakeupState T κ)}
    (hrun : system.Run (WakeupState.init : WakeupState T κ) tr) :
    (∀ q ∈ tr, NoLostWakeup q.2) ↔
      TransitionSystem.Guarded NothingToWake (WakeupState.init : WakeupState T κ) tr :=
  hrun.forall_iff_guarded (fun _ _ _ hs h => counter_step h hs)
    (fun _ _ _ hs _ h => noLostWakeup_step_iff hs h) rfl
    (noLostWakeup_of_stage (by simp [WakeupState.init]))

/-- A task is added while the loop is at its dispatchers, and run before the next poll. -/
def servedTask : List (WakeupStep Bool ℕ) :=
  [.checkAndDoTimers, .poll false, .pushBack true 24, .wakeup true, .dispatch, .swap, .runTask,
    .nextIteration, .checkAndDoTimers]

/-- The loop has come to the poll twice, and nobody had to wake it up. -/
theorem noLostWakeup_iff_nothingToWake_served :
    TransitionSystem.follows next (fun _ _ => True) (init : WakeupState Bool ℕ) servedTask = true ∧
      ∀ q ∈ TransitionSystem.states next (init : WakeupState Bool ℕ) servedTask,
        NoLostWakeup q.2 := by
  have hfollows : TransitionSystem.follows next (fun _ _ => True) (init : WakeupState Bool ℕ)
      servedTask = true := by decide
  have hrun : system.Run (init : WakeupState Bool ℕ)
      (TransitionSystem.states next init servedTask) :=
    (TransitionSystem.run_states (fun _ _ _ h => h) hfollows).1
  refine ⟨hfollows, (noLostWakeup_iff_nothingToWake hrun).mpr ?_⟩
  -- the queue is empty at both polls, and the wakeup comes in between
  exact ⟨Or.inl rfl, trivial, trivial, fun hpoll => absurd hpoll (by decide), trivial, trivial,
    trivial, trivial, Or.inl rfl, trivial⟩

/-- A task that is added before the loop comes to the poll is left waiting for the timeout. -/
theorem exists_lost_wakeup :
    ¬ ∀ s : WakeupState Unit Unit, system.Reachable s → NoLostWakeup s := by
  intro h
  have hreach : system.Reachable (TransitionSystem.runAll next (init : WakeupState Unit Unit)
      [.pushBack () (), .wakeup (), .checkAndDoTimers]) :=
    TransitionSystem.ReachableUnder.runAll (fun _ _ _ h => h) (.init rfl) rfl
  have hreadable := h _ hreach rfl (by decide) fun _ => rfl
  exact absurd hreadable (by decide)

end WakeupState

end Calc24
