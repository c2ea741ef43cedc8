import Calc24.Lib.Mutex
import Calc24.Lib.TransitionSystem

/-!
# Posted tasks, under the lock

`EventLoop::addTask` appends a task to `m_customTasks`, and `EventLoop::doOtherTask` swaps the
whole vector for an empty one and runs what it got (`net/EventLoop.cpp`).  Both hold
`m_mutexTasks` while they touch the vector, and neither touches it in one instant: a `push_back`
or a swap reads the vector and stores it afterwards, so that two of them at once would lose tasks.

This file interleaves the loop's thread with any number of threads inside `addTask`.  The loop's
own thread calls `addTask` too, from the tasks that it runs and from the callbacks outside of
`doOtherTask`.  In every state of every run the tasks that have been started, those left of the
batch and those in the queue are, in this order, the tasks in the order of their `push_back`
(`started_append_eq`).
-/

namespace Calc24

/-- Where a thread is in `addTask`: before the lock, under it before, in and after the
`push_back`, or behind it, before `wakeup`.  In a `push_back` it has read the vector. -/
inductive AddTaskStage (κ : Type*)
  | outside
  | entered (task : κ)
  | locked (task : κ)
  | pushing (task : κ) (customTasks : List κ)
  | pushed
  | unlocked

/-- Where the thread of the loop is in `doOtherTask`: before the lock, under it before, in and
after the swap, between two tasks, or in one. -/
inductive OtherTaskStage (κ : Type*)
  | outside
  | entered
  | locked
  | swapping (customTasks : List κ)
  | swapped
  | betweenTasks
  | inTask

/-- The thread touches the vector, or may do so. -/
def AddTaskStage.Critical {κ : Type*} : AddTaskStage κ → Prop
  | .locked _ | .pushing _ _ | .pushed => True
  | _ => False

/-- So does the thread of the loop. -/
def OtherTaskStage.Critical {κ : Type*} : OtherTaskStage κ → Prop
  | .locked | .swapping _ | .swapped => True
  | _ => False

/-- The swap is done, and not all tasks that it has taken are. -/
def OtherTaskStage.Running {κ : Type*} : OtherTaskStage κ → Prop
  | .swapped | .betweenTasks | .inTask => True
  | _ => False

/-- The thread of the loop is not in the code of `doOtherTask` itself, and may call `addTask`. -/
def OtherTaskStage.Calling {κ : Type*} : OtherTaskStage κ → Prop
  | .outside | .inTask => True
  | _ => False

instance {κ : Type*} : DecidablePred (OtherTaskStage.Calling (κ := κ)) := fun stage =>
  match stage with
  | .outside | .inTask => .isTrue trivial
  | .entered | .locked | .swapping _ | .swapped | .betweenTasks => .isFalse not_false

/-- The queue of a loop and the threads at it.  `tasks` is what is left of the batch of
`doOtherTask`.  The tasks that have been started, and all tasks in the order of their `push_back`,
are ghosts. -/
structure PostedTasks (T κ : Type*) where
  mutexTasks : Option T
  addTask : T → AddTaskStage κ
  doOtherTask : OtherTaskStage κ
  customTasks : List κ
  tasks : List κ
  started : List κ
  posted : List κ

/-- The steps of a thread in `addTask`, and those of the loop's thread in `doOtherTask`. -/
inductive PostedTasksStep (T κ : Type*)
  | addTask (thread : T) (task : κ)
  | lock (thread : T)
  | pushBack (thread : T)
  | storePushed (thread : T)
  | unlock (thread : T)
  | wakeup (thread : T)
  | doOtherTask
  | lockTasks
  | swap
  | storeSwapped
  | unlockTasks
  | startTask
  | endTask
  | leave

namespace PostedTasks

variable {T κ : Type*} [DecidableEq T] (owner : T)

/-- A loop before anything is posted. -/
def init : PostedTasks T κ where
  mutexTasks := none
  addTask := fun _ => .outside
  doOtherTask := .outside
  customTasks := []
  tasks := []
  started := []
  posted := []

/-- The thread goes on to another place in `addTask`. -/
def enter (s : PostedTasks T κ) (thread : T) (stage : AddTaskStage κ) : PostedTasks T κ :=
  { s with addTask := Function.update s.addTask thread stage }

/-- One step, where it is possible; `owner` is the thread of the loop. -/
def next (s : PostedTasks T κ) : PostedTasksStep T κ → Option (PostedTasks T κ)
  | .addTask thread task =>
    match s.addTask thread with
    | .outside =>
      if thread = owner → s.doOtherTask.Calling then some (s.enter thread (.entered task)) else none
    | _ => none
  | .lock thread =>
    match s.addTask thread, s.mutexTasks with
    | .entered task, none =>
      some { s.enter thread (.locked task) with mutexTasks := some thread }
    | _, _ => none
  | .pushBack thread =>
    match s.addTask thread with
    | .locked task => some (s.enter thread (.pushing task s.customTasks))
    | _ => none
  | .storePushed thread =>
    match s.addTask thread with
    | .pushing task customTasks =>
      some { s.enter thread .pushed with
        customTasks := customTasks ++ [task]
        posted := s.posted ++ [task] }
    | _ => none
  | .unlock thread =>
    match s.addTask thread with
    | .pushed => some { s.enter thread .unlocked with mutexTasks := none }
    | _ => none
  | .wakeup thread =>
    match s.addTask thread with
    | .unlocked => some (s.enter thread .outside)
    | _ => none
  | .doOtherTask =>
    match s.doOtherTask, s.addTask owner with
    | .outside, .outside => some { s with doOtherTask := .entered }
    | _, _ => none
  | .lockTasks =>
    match s.doOtherTask, s.mutexTasks with
    | .entered, none => some { s with doOtherTask := .locked, mutexTasks := some owner }
    | _, _ => none
  | .swap =>
    match s.doOtherTask with
    | .locked => some { s with doOtherTask := .swapping s.customTasks }
    | _ => none
  | .storeSwapped =>
    match s.doOtherTask with
    | .swapping customTasks =>
      some { s with doOtherTask := .swapped, tasks := customTasks, customTasks := [] }
    | _ => none
  | .unlockTasks =>
    match s.doOtherTask with
    | .swapped => some { s with doOtherTask := .betweenTasks, mutexTasks := none }
    | _ => none
  | .startTask =>
    match s.doOtherTask, s.tasks with
    | .betweenTasks, task :: tasks =>
      some { s with doOtherTask := .inTask, tasks := tasks, started := s.started ++ [task] }
    | _, _ => none
  | .endTask =>
    match s.doOtherTask, s.addTask owner with
    | .inTask, .outside => some { s with doOtherTask := .betweenTasks }
    | _, _ => none
  | .leave =>
    match s.doOtherTask, s.tasks with
    | .betweenTasks, [] => some { s with doOtherTask := .outside }
    | _, _ => none

/-- The runs of a loop's queue. -/
def system : TransitionSystem (PostedTasks T κ) (PostedTasksStep T κ) where
  init s := s = PostedTasks.init
  step s l s' := s.next owner l = some s'

/-! ## The lock -/

variable {owner} {s s' : PostedTasks T κ} {l : PostedTasksStep T κ} {thread : T}

/-- The steps of a thread in `addTask`, as what they do to the state. -/
inductive AddTaskMove (owner thread : T) (s : PostedTasks T κ) : PostedTasks T κ → Prop
  | addTask (task : κ) (hstage : s.addTask thread = .outside)
    (hcalling : thread = owner → s.doOtherTask.Calling) :
    AddTaskMove owner thread s (s.enter thread (.entered task))
  | lock (task : κ) (hstage : s.addTask thread = .entered task) (hfree : s.mutexTasks = none) :
    AddTaskMove owner thread s { s.enter thread (.locked task) with mutexTasks := some thread }
  | pushBack (task : κ) (hstage : s.addTask thread = .locked task) :
    AddTaskMove owner thread s (s.enter thread (.pushing task s.customTasks))
  | storePushed (task : κ) (customTasks : List κ)
    (hstage : s.addTask thread = .pushing task customTasks) :
    AddTaskMove owner thread s { s.enter thread .pushed with
      customTasks := customTasks ++ [task]
      posted := s.posted ++ [task] }
  | unlock (hstage : s.addTask thread = .pushed) :
    AddTaskMove owner thread s { s.enter thread .unlocked with mutexTasks := none }
  | wakeup (hstage : s.addTask thread = .unlocked) :
    AddTaskMove owner thread s (s.enter thread .outside)

/-- The steps of the loop's thread in `doOtherTask`. -/
inductive DoOtherTaskMove (owner : T) (s : PostedTasks T κ) : PostedTasks T κ → Prop
  | doOtherTask (hstage : s.doOtherTask = .outside) (howner : s.addTask owner = .outside) :
    DoOtherTaskMove owner s { s with doOtherTask := .entered }
  | lockTasks (hstage : s.doOtherTask = .entered) (hfree : s.mutexTasks = none) :
    DoOtherTaskMove owner s { s with doOtherTask := .locked, mutexTasks := some owner }
  | swap (hstage : s.doOtherTask = .locked) :
    DoOtherTaskMove owner s { s with doOtherTask := .swapping s.customTasks }
  | storeSwapped (customTasks : List κ) (hstage : s.doOtherTask = .swapping customTasks) :
    DoOtherTaskMove owner s
      { s with doOtherTask := .swapped, tasks := customTasks, customTasks := [] }
  | unlockTasks (hstage : s.doOtherTask = .swapped) :
    DoOtherTaskMove owner s { s with doOtherTask := .betweenTasks, mutexTasks := none }
  | startTask (task : κ) (tasks : List κ) (hstage : s.doOtherTask = .betweenTasks)
    (htasks : s.tasks = task :: tasks) :
    DoOtherTaskMove owner s
      { s with doOtherTask := .inTask, tasks := tasks, started := s.started ++ [task] }
  | endTask (hstage : s.doOtherTask = .inTask) (howner : s.addTask owner = .outside) :
    DoOtherTaskMove owner s { s with doOtherTask := .betweenTasks }
  | leave (hstage : s.doOtherTask = .betweenTasks) (htasks : s.tasks = []) :
    DoOtherTaskMove owner s { s with doOtherTask := .outside }

/-- Every step is one of them. -/
lemma step_cases (h : (system owner).step s l s') :
    (∃ thread, AddTaskMove owner thread s s') ∨ DoOtherTaskMove owner s s' := by
  cases l with
  | addTask thread task =>
    simp only [system, next] at h
    split at h
    · next hstage =>
      obtain ⟨hcalling, heq⟩ := Option.ite_none_right_eq_some.mp h
      cases heq
      exact Or.inl ⟨thread, .addTask task hstage hcalling⟩
    · cases h
  | lock thread =>
    simp only [system, next] at h
    split at h
    · next task hstage hfree =>
      cases h
      exact Or.inl ⟨thread, .lock task hstage hfree⟩
    · cases h
  | pushBack thread =>
    simp only [system, next] at h
    split at h
    · next task hstage =>
      cases h
      exact Or.inl ⟨thread, .pushBack task hstage⟩
    · cases h
  | storePushed thread =>
    simp only [system, next] at h
    split at h
    · next task customTasks hstage =>
      cases h
      exact Or.inl ⟨thread, .storePushed task customTasks hstage⟩
    · cases h
  | unlock thread =>
    simp only [system, next] at h
    split at h
    · next hstage =>
      cases h
      exact Or.inl ⟨thread, .unlock hstage⟩
    · cases h
  | wakeup thread =>
    simp only [system, next] at h
    split at h
    · next hstage =>
      cases h
      exact Or.inl ⟨thread, .wakeup hstage⟩
    · cases h
  | doOtherTask =>
    simp only [system, next] at h
    split at h
    · next hstage howner =>
      cases h
      exact Or.inr (.doOtherTask hstage howner)
    · cases h
  | lockTasks =>
    simp only [system, next] at h
    split at h
    · next hstage hfree =>
      cases h
      exact Or.inr (.lockTasks hstage hfree)
    · cases h
  | swap =>
    simp only [system, next] at h
    split at h
    · next hstage =>
      cases h
      exact Or.inr (.swap hstage)
    · cases h
  | storeSwapped =>
    simp only [system, next] at h
    split at h
    · next customTasks hstage =>
      cases h
      exact Or.inr (.storeSwapped customTasks hstage)
    · cases h
  | unlockTasks =>
    simp only [system, next] at h
    split at h
    · next hstage =>
      cases h
      exact Or.inr (.unlockTasks hstage)
    · cases h
  | startTask =>
    simp only [system, next] at h
    split at h
    · next task tasks hstage htasks =>
      cases h
      exact Or.inr (.startTask task tasks hstage htasks)
    · cases h
  | endTask =>
    simp only [system, next] at h
    split at h
    · next hstage howner =>
      cases h
      exact Or.inr (.endTask hstage howner)
    · cases h
  | leave =>
    simp only [system, next] at h
    split at h
    · next hstage htasks =>
      cases h
      exact Or.inr (.leave hstage htasks)
    · cases h

/-- The threads that are between the lock and the unlock, in `addTask` or in `doOtherTask`. -/
def Critical (owner : T) (s : PostedTasks T κ) (thread : T) : Prop :=
  (s.addTask thread).Critical ∨ thread = owner ∧ s.doOtherTask.Critical

/-- Who is between the lock and the unlock holds the lock, and the loop's thread is in one place
only. -/
structure Excluded (owner : T) (s : PostedTasks T κ) : Prop where
  mutexTasks : Mutex.Excludes (s.Critical owner) s.mutexTasks
  owner_outside : s.addTask owner = .outside ∨ s.doOtherTask.Calling

omit [DecidableEq T] in
/-- Nobody else is between the lock and the unlock while a thread is. -/
lemma Excluded.eq (h : Excluded owner s) {thread' : T} (hthread : (s.addTask thread).Critical)
    (hthread' : (s.addTask thread').Critical) : thread = thread' :=
  h.mutexTasks.eq (Or.inl hthread) (Or.inl hthread')

omit [DecidableEq T] in
/-- In particular the loop's thread is not. -/
lemma Excluded.not_critical (h : Excluded owner s) (hthread : (s.addTask thread).Critical) :
    ¬ s.doOtherTask.Critical := by
  intro hloop
  have hthread_eq : thread = owner := h.mutexTasks.eq (Or.inl hthread) (Or.inr ⟨rfl, hloop⟩)
  subst hthread_eq
  rcases h.owner_outside with houtside | hcalling
  · rw [houtside] at hthread
    exact hthread
  · cases hstage : s.doOtherTask <;> rw [hstage] at hloop hcalling <;> cases hloop <;> cases hcalling

/-- A thread has gone to another place in `addTask`. -/
lemma critical_of_addTask {stage : AddTaskStage κ} {t : T} (ht : s'.Critical owner t)
    (haddTask : s'.addTask = Function.update s.addTask thread stage)
    (hloop : s'.doOtherTask = s.doOtherTask) :
    (t ≠ thread ∧ s.Critical owner t) ∨ (t = owner ∧ s.doOtherTask.Critical) ∨
      (t = thread ∧ stage.Critical) := by
  rcases ht with ht | ⟨rfl, ht⟩
  · rw [haddTask] at ht
    by_cases heq : t = thread
    · subst heq
      rw [Function.update_self] at ht
      exact Or.inr (Or.inr ⟨rfl, ht⟩)
    · rw [Function.update_of_ne heq] at ht
      exact Or.inl ⟨heq, Or.inl ht⟩
  · rw [hloop] at ht
    exact Or.inr (Or.inl ⟨rfl, ht⟩)

omit [DecidableEq T] in
/-- The loop's thread has gone to another place in `doOtherTask`. -/
lemma critical_of_doOtherTask {t : T} (ht : s'.Critical owner t)
    (haddTask : s'.addTask = s.addTask) :
    (s.addTask t).Critical ∨ (t = owner ∧ s'.doOtherTask.Critical) := by
  rcases ht with ht | ht
  · rw [haddTask] at ht
    exact Or.inl ht
  · exact Or.inr ht

/-- Only a call of `addTask` brings the loop's thread into it. -/
lemma Excluded.owner_outside_enter (h : Excluded owner s) {stage : AddTaskStage κ}
    (howner : thread = owner → s.addTask owner ≠ .outside ∨ s.doOtherTask.Calling) :
    (s.enter thread stage).addTask owner = .outside ∨ s.doOtherTask.Calling := by
  by_cases heq : thread = owner
  · subst heq
    exact Or.inr ((howner rfl).elim (h.owner_outside.resolve_left ·) id)
  · simpa only [PostedTasks.enter, Function.update_of_ne (Ne.symm heq)] using h.owner_outside

/-- A thread goes to a place where it needs the lock only if it has it. -/
lemma Excluded.enter (h : Excluded owner s) {stage : AddTaskStage κ}
    (hcritical : stage.Critical → (s.addTask thread).Critical)
    (howner : thread = owner → s.addTask owner ≠ .outside ∨ s.doOtherTask.Calling) :
    Excluded owner (s.enter thread stage) where
  mutexTasks := by
    refine h.mutexTasks.mono fun t ht => ?_
    rcases critical_of_addTask (s := s) ht rfl rfl with ⟨-, hold⟩ | hloop | ⟨rfl, hstage⟩
    · exact hold
    · exact Or.inr hloop
    · exact Or.inl (hcritical hstage)
  owner_outside := h.owner_outside_enter howner

lemma Excluded.addTaskMove (h : Excluded owner s) (hmove : AddTaskMove owner thread s s') :
    Excluded owner s' := by
  have hinside (hne : s.addTask thread ≠ .outside) :
      thread = owner → s.addTask owner ≠ .outside ∨ s.doOtherTask.Calling :=
    fun heq => Or.inl (heq ▸ hne)
  cases hmove with
  | addTask task hstage hcalling =>
    exact h.enter (fun hfalse => hfalse.elim) fun heq => Or.inr (hcalling heq)
  | lock task hstage hfree =>
    have hmutex := h.mutexTasks
    rw [hfree] at hmutex
    refine ⟨hmutex.acquire fun t ht => ?_, h.owner_outside_enter (hinside (by rw [hstage]; simp))⟩
    rcases critical_of_addTask (s := s) ht rfl rfl with ⟨-, hold⟩ | hloop | ⟨hsame, -⟩
    · exact Or.inl hold
    · exact Or.inl (Or.inr hloop)
    · exact Or.inr hsame
  | pushBack task hstage =>
    exact h.enter (fun _ => by rw [hstage]; trivial) (hinside (by rw [hstage]; simp))
  | storePushed task customTasks hstage =>
    have henter : Excluded owner (s.enter thread .pushed) :=
      h.enter (fun _ => by rw [hstage]; trivial) (hinside (by rw [hstage]; simp))
    exact ⟨henter.mutexTasks, henter.owner_outside⟩
  | unlock hstage =>
    have hcritical : (s.addTask thread).Critical := by rw [hstage]; trivial
    refine ⟨h.mutexTasks.release (Or.inl hcritical) fun t ht => ?_,
      h.owner_outside_enter (hinside (by rw [hstage]; simp))⟩
    rcases critical_of_addTask (s := s) ht rfl rfl with ⟨hne, hold⟩ | ⟨-, hloop⟩ | ⟨-, hfalse⟩
    · exact ⟨hold, hne⟩
    · exact absurd hloop (h.not_critical hcritical)
    · exact hfalse.elim
  | wakeup hstage => exact h.enter (fun hfalse => hfalse.elim) (hinside (by rw [hstage]; simp))

omit [DecidableEq T] in
/-- The loop's thread keeps the lock, or is not where it needs it. -/
lemma Excluded.loop_keeps (h : Excluded owner s) (haddTask : s'.addTask = s.addTask)
    (hcritical : s'.doOtherTask.Critical → s.doOtherTask.Critical) :
    Mutex.Excludes (s'.Critical owner) s.mutexTasks := by
  refine h.mutexTasks.mono fun t ht => ?_
  rcases critical_of_doOtherTask (s := s) ht haddTask with hold | ⟨rfl, hloop⟩
  · exact Or.inl hold
  · exact Or.inr ⟨rfl, hcritical hloop⟩

omit [DecidableEq T] in
lemma Excluded.doOtherTaskMove (h : Excluded owner s) (hmove : DoOtherTaskMove owner s s') :
    Excluded owner s' := by
  have howner (hcalling : ¬ s.doOtherTask.Calling) : s.addTask owner = .outside :=
    h.owner_outside.resolve_right hcalling
  cases hmove with
  | doOtherTask hstage howner =>
    exact ⟨h.loop_keeps rfl fun hfalse => hfalse.elim, Or.inl howner⟩
  | lockTasks hstage hfree =>
    have hmutex := h.mutexTasks
    rw [hfree] at hmutex
    refine ⟨hmutex.acquire fun t ht => ?_, Or.inl (howner (by rw [hstage]; exact not_false))⟩
    rcases critical_of_doOtherTask (s := s) ht rfl with hold | ⟨hsame, -⟩
    · exact Or.inl (Or.inl hold)
    · exact Or.inr hsame
  | swap hstage =>
    exact ⟨h.loop_keeps rfl fun _ => by rw [hstage]; trivial,
      Or.inl (howner (by rw [hstage]; exact not_false))⟩
  | storeSwapped customTasks hstage =>
    exact ⟨h.loop_keeps rfl fun _ => by rw [hstage]; trivial,
      Or.inl (howner (by rw [hstage]; exact not_false))⟩
  | unlockTasks hstage =>
    have hcritical : s.doOtherTask.Critical := by rw [hstage]; trivial
    refine ⟨h.mutexTasks.release (Or.inr ⟨rfl, hcritical⟩) fun t ht => ?_,
      Or.inl (howner (by rw [hstage]; exact not_false))⟩
    rcases critical_of_doOtherTask (s := s) ht rfl with hold | ⟨-, hfalse⟩
    · exact absurd hcritical (h.not_critical hold)
    · exact hfalse.elim
  | startTask task tasks hstage htasks =>
    exact ⟨h.loop_keeps rfl fun hfalse => hfalse.elim, Or.inr trivial⟩
  | endTask hstage howner => exact ⟨h.loop_keeps rfl fun hfalse => hfalse.elim, Or.inl howner⟩
  | leave hstage htasks => exact ⟨h.loop_keeps rfl fun hfalse => hfalse.elim, Or.inr trivial⟩

/-! ## The order of the tasks -/

/-- What a thread has read is still what the vector holds, there is no batch before the swap, and no
task is lost or doubled. -/
structure InOrder (owner : T) (s : PostedTasks T κ) : Prop extends Excluded owner s where
  pushing : ∀ thread task customTasks, s.addTask thread = .pushing task customTasks →
    customTasks = s.customTasks
  swapping : ∀ customTasks, s.doOtherTask = .swapping customTasks → customTasks = s.customTasks
  tasks : s.tasks = [] ∨ s.doOtherTask.Running
  started_append : s.started ++ s.tasks ++ s.customTasks = s.posted

omit [DecidableEq T] in
/-- Nobody else is in a `push_back` while a thread is between the lock and the unlock. -/
lemma Excluded.not_pushing (h : Excluded owner s) {thread' : T}
    (hthread : (s.addTask thread).Critical) (hne : thread' ≠ thread) (task : κ)
    (customTasks : List κ) : s.addTask thread' ≠ .pushing task customTasks := by
  intro hpushing
  exact hne (h.eq (by rw [hpushing]; trivial) hthread)

omit [DecidableEq T] in
/-- Nor is anybody while the loop's thread is there. -/
lemma Excluded.not_pushing_of_critical (h : Excluded owner s) (hloop : s.doOtherTask.Critical)
    (thread : T) (task : κ) (customTasks : List κ) :
    s.addTask thread ≠ .pushing task customTasks := by
  intro hpushing
  exact h.not_critical (by rw [hpushing]; trivial) hloop

/-- A thread that goes on reads the vector as it is, if it reads it. -/
lemma InOrder.pushing_enter (h : InOrder owner s) {stage : AddTaskStage κ}
    (hstage : ∀ task customTasks, stage = .pushing task customTasks →
      customTasks = s.customTasks) :
    ∀ thread' task customTasks, (s.enter thread stage).addTask thread' =
      .pushing task customTasks → customTasks = s.customTasks := by
  intro thread' task customTasks hpushing
  by_cases heq : thread' = thread
  · subst heq
    simp only [PostedTasks.enter, Function.update_self] at hpushing
    exact hstage task customTasks hpushing
  · simp only [PostedTasks.enter, Function.update_of_ne heq] at hpushing
    exact h.pushing thread' task customTasks hpushing

/-- A thread adds its task behind its earlier ones. -/
lemma InOrder.addTaskMove (h : InOrder owner s) (hmove : AddTaskMove owner thread s s') :
    InOrder owner s' := by
  have hexcluded := h.toExcluded.addTaskMove hmove
  cases hmove with
  | addTask task hstage hcalling =>
    exact ⟨hexcluded, h.pushing_enter (by simp), h.swapping, h.tasks, h.started_append⟩
  | lock task hstage hfree =>
    exact ⟨hexcluded, h.pushing_enter (by simp), h.swapping, h.tasks, h.started_append⟩
  | pushBack task hstage =>
    refine ⟨hexcluded, h.pushing_enter ?_, h.swapping, h.tasks, h.started_append⟩
    rintro task' customTasks heq
    cases heq
    rfl
  | storePushed task customTasks hstage =>
    have hcritical : (s.addTask thread).Critical := by rw [hstage]; trivial
    refine ⟨hexcluded, fun thread' task' customTasks' hpushing => ?_, fun customTasks' hloop => ?_,
      h.tasks, ?_⟩
    · -- a second `push_back` would store an older vector
      by_cases heq : thread' = thread
      · subst heq
        simp only [PostedTasks.enter, Function.update_self] at hpushing
        cases hpushing
      · simp only [PostedTasks.enter, Function.update_of_ne heq] at hpushing
        exact absurd hpushing (h.not_pushing hcritical heq task' customTasks')
    · refine absurd ?_ (h.not_critical hcritical)
      rw [show s.doOtherTask = .swapping customTasks' from hloop]
      trivial
    · change s.started ++ s.tasks ++ (customTasks ++ [task]) = s.posted ++ [task]
      rw [h.pushing thread task customTasks hstage, ← List.append_assoc, h.started_append]
  | unlock hstage =>
    exact ⟨hexcluded, h.pushing_enter (by simp), h.swapping, h.tasks, h.started_append⟩
  | wakeup hstage =>
    exact ⟨hexcluded, h.pushing_enter (by simp), h.swapping, h.tasks, h.started_append⟩

omit [DecidableEq T] in
/-- The owner takes the tasks as they stand, and starts them in their order. -/
lemma InOrder.doOtherTaskMove (h : InOrder owner s) (hmove : DoOtherTaskMove owner s s') :
    InOrder owner s' := by
  have hexcluded := h.toExcluded.doOtherTaskMove hmove
  have hnoBatch (hrunning : ¬ s.doOtherTask.Running) : s.tasks = [] :=
    h.tasks.resolve_right hrunning
  cases hmove with
  | doOtherTask hstage howner =>
    have htasks := hnoBatch (by rw [hstage]; exact not_false)
    exact ⟨hexcluded, h.pushing, by simp, Or.inl htasks, h.started_append⟩
  | lockTasks hstage hfree =>
    have htasks := hnoBatch (by rw [hstage]; exact not_false)
    exact ⟨hexcluded, h.pushing, by simp, Or.inl htasks, h.started_append⟩
  | swap hstage =>
    have htasks := hnoBatch (by rw [hstage]; exact not_false)
    refine ⟨hexcluded, h.pushing, ?_, Or.inl htasks, h.started_append⟩
    rintro customTasks heq
    cases heq
    rfl
  | storeSwapped customTasks hstage =>
    have hcritical : s.doOtherTask.Critical := by rw [hstage]; trivial
    have htasks := hnoBatch (by rw [hstage]; exact not_false)
    refine ⟨hexcluded, fun thread task customTasks' hpushing => ?_, by simp, Or.inr trivial, ?_⟩
    · exact absurd hpushing (h.not_pushing_of_critical hcritical thread task customTasks')
    · have horder := h.started_append
      rw [htasks, List.append_nil] at horder
      change s.started ++ customTasks ++ [] = s.posted
      rw [h.swapping customTasks hstage, List.append_nil, horder]
  | unlockTasks hstage =>
    exact ⟨hexcluded, h.pushing, by simp, Or.inr trivial, h.started_append⟩
  | startTask task tasks hstage htasks =>
    refine ⟨hexcluded, h.pushing, by simp, Or.inr trivial, ?_⟩
    have horder := h.started_append
    rw [htasks] at horder
    rw [← horder]
    simp
  | endTask hstage howner =>
    exact ⟨hexcluded, h.pushing, by simp, Or.inr trivial, h.started_append⟩
  | leave hstage htasks =>
    exact ⟨hexcluded, h.pushing, by simp, Or.inl htasks, h.started_append⟩

/-- Every step keeps the tasks in order. -/
lemma InOrder.step (h : InOrder owner s) (hstep : (system owner).step s l s') :
    InOrder owner s' := by
  rcases step_cases hstep with ⟨thread, hmove⟩ | hmove
  · exact h.addTaskMove hmove
  · exact h.doOtherTaskMove hmove

omit [DecidableEq T] in
lemma inOrder_init (owner : T) : InOrder owner (init : PostedTasks T κ) where
  mutexTasks _ hcritical := hcritical.elim False.elim fun hloop => hloop.2.elim
  owner_outside := Or.inl rfl
  pushing _ _ _ hpushing := by cases hpushing
  swapping _ hswapping := by cases hswapping
  tasks := Or.inl rfl
  started_append := rfl

/-- **Every posted task is started once, in the order of the `push_back`s**: what has been started,
what is left of the batch and what is queued are together what has been posted. -/
theorem started_append_eq (h : (system owner).Reachable s) :
    s.started ++ s.tasks ++ s.customTasks = s.posted :=
  (h.invariant (P := InOrder owner) (by rintro s rfl; exact inOrder_init owner)
    fun _ _ _ hs hstep => hs.step hstep).started_append

/-- The thread of the loop is in the first of two tasks and posts a third one, and another thread
is about to post a fourth. -/
theorem started_append_eq_reposted :
    let s := TransitionSystem.runAll (next (0 : ℕ)) (init : PostedTasks ℕ ℕ)
      [.addTask 1 10, .lock 1, .pushBack 1, .storePushed 1, .unlock 1, .wakeup 1,
        .addTask 1 20, .lock 1, .pushBack 1, .storePushed 1, .unlock 1, .doOtherTask, .lockTasks,
        .swap, .storeSwapped, .unlockTasks, .startTask, .addTask 0 30, .wakeup 1, .lock 0,
        .addTask 1 40, .pushBack 0, .storePushed 0]
    s.started ++ s.tasks ++ s.customTasks = s.posted ∧ s.started = [10] ∧ s.tasks = [20] ∧
      s.customTasks = [30] := by
  intro s
  have hreach : (system (0 : ℕ)).Reachable s :=
    (TransitionSystem.ReachableUnder.init rfl).runAll (fun _ _ _ h => h) (by decide)
  exact ⟨started_append_eq hreach, by decide⟩

end PostedTasks

end Calc24
