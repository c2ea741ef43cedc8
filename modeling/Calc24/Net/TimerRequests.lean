import Calc24.Lib.TransitionSystem
import Calc24.Net.Timer
import Calc24.Net.Wakeup

/-!
# Adding and removing timers across threads

`addTimer` and `removeTimer` act at once on the thread of the loop, or are deferred to the end of
a timer pass there; on any other thread they are queued as tasks of the loop
(`net/EventLoop.cpp`).  This file follows one loop while any number of threads, the loop's own
among them, add timers and remove timers whose ids have been returned, and asks whether a removed
timer can still be in `m_timers` once everything queued has been carried out.

It can, in two ways.  A removal on the thread of the loop overtakes the insertion of the same
timer that another thread has queued; and what a pass has put into `m_pendingAddTimers` is
inserted again at the end of every later pass, because that list is never cleared.  In the runs
in which neither happens and the ids do not wrap around, a removal always wins
(`removedAreGone_of_inOrder`).
-/

namespace Calc24

/-- The tasks that `addTimerInternal` and `removeTimerInternal` queue for the loop. -/
inductive QueuedTimerCall (τ : Type*)
  | addTimerInternal (spTimer : Timer τ)
  | removeTimerInternal (timerID : Int64)

/-- A loop with its queue, and as ghosts the ids that `addTimer` has returned and those with which
`removeTimer` has been called. -/
structure TimerRequests (τ : Type*) where
  stage : LoopStage
  timers : LoopTimers τ
  customTasks : List (QueuedTimerCall τ)
  tasks : List (QueuedTimerCall τ)
  issued : List Int64
  removed : List Int64

/-- The calls of `addTimer` and `removeTimer`, on the thread of the loop or on another one, and
the steps of the loop: a pass begins, calls a callback or ends, and the loop goes through its
stages. -/
inductive TimerRequestStep (τ : Type*)
  | addTimer (inOwnerThread : Bool) (spTimer : Timer τ)
  | removeTimer (inOwnerThread : Bool) (timerID : Int64)
  | beginPass
  | doTimer (spTimer : Timer τ) (nowMs : ℤ)
  | endPass
  | poll (wakeupEvent : Bool)
  | swap
  | runTask
  | nextIteration

/-- The timer members by themselves host a pass. -/
def LoopTimers.host (τ : Type*) : TimerHost (LoopTimers τ) τ where
  get := id
  set x _ := x
  get_set _ _ := rfl

namespace TimerRequests

variable {τ : Type*}

/-- A loop without timers that enters `run`. -/
def init : TimerRequests τ where
  stage := .checkAndDoTimers
  timers := LoopTimers.empty
  customTasks := []
  tasks := []
  issued := []
  removed := []

/-- The thread of the loop is in one of the callbacks that may call `addTimer` and `removeTimer`:
those of the timers, of the dispatchers and of the tasks. -/
def inCallback (s : TimerRequests τ) : Bool :=
  match s.stage with
  | .checkAndDoTimers => s.timers.isCheckTimers
  | .dispatch _ => true
  | .tasks => true
  | _ => false

/-- `addTimerInternal` and `removeTimerInternal` where the calling thread is that of the loop. -/
def carryOut : QueuedTimerCall τ → LoopTimers τ → LoopTimers τ
  | .addTimerInternal spTimer, x => x.addTimerInternal spTimer
  | .removeTimerInternal timerID, x => x.removeTimerInternal timerID

/-- The same two functions on any thread. -/
def request (inOwnerThread : Bool) (task : QueuedTimerCall τ) (s : TimerRequests τ) :
    TimerRequests τ :=
  if inOwnerThread then { s with timers := carryOut task s.timers }
  else { s with customTasks := s.customTasks ++ [task] }

/-- One step, where it is possible.  `removeTimer` is called with ids that have been returned. -/
def next (s : TimerRequests τ) : TimerRequestStep τ → Option (TimerRequests τ)
  | .addTimer inOwnerThread spTimer =>
    if inOwnerThread = true → s.inCallback = true then
      some { s.request inOwnerThread (.addTimerInternal spTimer) with
        issued := spTimer.id :: s.issued }
    else none
  | .removeTimer inOwnerThread timerID =>
    if (inOwnerThread = true → s.inCallback = true) ∧ timerID ∈ s.issued then
      some { s.request inOwnerThread (.removeTimerInternal timerID) with
        removed := timerID :: s.removed }
    else none
  | .beginPass =>
    if s.stage = .checkAndDoTimers ∧ s.timers.isCheckTimers = false then
      some { s with timers := s.timers.setIsCheckTimers true }
    else none
  | .doTimer spTimer nowMs =>
    if s.timers.isCheckTimers = true then some { s with timers := s.timers.advance spTimer nowMs }
    else none
  | .endPass =>
    if s.timers.isCheckTimers = true then
      some { s with
        stage := .poll
        timers := (LoopTimers.host τ).replayPending (s.timers.setIsCheckTimers false) }
    else none
  | .poll wakeupEvent =>
    if s.stage = .poll then some { s with stage := .dispatch wakeupEvent } else none
  | .swap =>
    match s.stage with
    | .dispatch _ => some { s with stage := .tasks, tasks := s.customTasks, customTasks := [] }
    | _ => none
  | .runTask =>
    match s.stage, s.tasks with
    | .tasks, task :: tasks => some { s with tasks := tasks, timers := carryOut task s.timers }
    | _, _ => none
  | .nextIteration =>
    match s.stage, s.tasks with
    | .tasks, [] => some { s with stage := .checkAndDoTimers }
    | _, _ => none

/-- The runs of a loop. -/
def system : TransitionSystem (TimerRequests τ) (TimerRequestStep τ) where
  init s := s = TimerRequests.init
  step s l s' := s.next l = some s'

/-- With nothing queued and no pass going on, no removed timer is in `m_timers`. -/
def RemovedAreGone (s : TimerRequests τ) : Prop :=
  s.customTasks = [] → s.tasks = [] → s.timers.isCheckTimers = false →
    ∀ timerID ∈ s.removed, timerID ∉ s.timers.ids

/-- What has been queued for the loop, in the order in which it will be carried out. -/
def queued (s : TimerRequests τ) : List (QueuedTimerCall τ) :=
  s.tasks ++ s.customTasks

/-- Whether a timer is in the list after some requests, if it is there before or not. -/
def survives (timerID : Int64) : Bool → List (QueuedTimerCall τ) → Bool
  | present, [] => present
  | present, .addTimerInternal spTimer :: tasks =>
    survives timerID (present || spTimer.id == timerID) tasks
  | present, .removeTimerInternal id :: tasks => survives timerID (present && id != timerID) tasks

/-- The requests come in order.  A new timer has an id that was not returned before; a removed one
is not in `m_pendingAddTimers`, and if the thread of the loop removes it, no insertion of it is
queued without a removal behind it. -/
def InOrder (s : TimerRequests τ) : TimerRequestStep τ → Prop
  | .addTimer _ spTimer => spTimer.id ∉ s.issued
  | .removeTimer inOwnerThread timerID =>
    timerID ∉ s.timers.pendingAddTimers.map Timer.id ∧
      (inOwnerThread = true → survives timerID false s.queued = false)
  | _ => True

/-! ## Requests that are queued -/

variable {s s' : TimerRequests τ} {l : TimerRequestStep τ} {timerID : Int64}
  {before before' : Bool} {tasks tasks' : List (QueuedTimerCall τ)}
  {spTimer : Timer τ}

/-- The ids of the insertions among some requests. -/
def additions : List (QueuedTimerCall τ) → List Int64
  | [] => []
  | .addTimerInternal spTimer :: tasks => spTimer.id :: additions tasks
  | .removeTimerInternal _ :: tasks => additions tasks

lemma additions_append : additions (tasks ++ tasks') = additions tasks ++ additions tasks' := by
  induction tasks with
  | nil => rfl
  | cons task tasks ih =>
    cases task with
    | addTimerInternal spTimer => simp [additions, ih]
    | removeTimerInternal id => simp [additions, ih]

lemma survives_append :
    survives timerID before (tasks ++ tasks') =
      survives timerID (survives timerID before tasks) tasks' := by
  induction tasks generalizing before with
  | nil => rfl
  | cons task tasks ih =>
    cases task with
    | addTimerInternal spTimer => exact ih
    | removeTimerInternal id => exact ih

/-- A timer that is there less often survives less often. -/
lemma survives_mono (hle : before' = true → before = true)
    (h : survives timerID before tasks = false) : survives timerID before' tasks = false := by
  induction tasks generalizing before before' with
  | nil =>
    rw [← Bool.not_eq_true]
    exact fun hbefore' => by simp [survives, hle hbefore'] at h
  | cons task tasks ih =>
    cases task with
    | addTimerInternal spTimer =>
      refine ih (fun hbefore' => ?_) h
      rw [Bool.or_eq_true] at hbefore' ⊢
      exact hbefore'.imp_left hle
    | removeTimerInternal id =>
      refine ih (fun hbefore' => ?_) h
      rw [Bool.and_eq_true] at hbefore' ⊢
      exact hbefore'.imp_left hle

/-! ## The invariant -/

/-- The timer is in the list, and is not about to be taken out of it at the end of the pass. -/
def present (s : TimerRequests τ) (timerID : Int64) : Bool :=
  decide (timerID ∈ s.timers.ids) &&
    !(s.timers.isCheckTimers && decide (timerID ∈ s.timers.pendingRemoveTimers))

/-- What runs keep whose requests come in order. -/
structure Settled (s : TimerRequests τ) : Prop where
  checking : s.timers.isCheckTimers = true → s.stage = .checkAndDoTimers
  tasks : s.stage ≠ .tasks → s.tasks = []
  listed : ∀ id ∈ s.timers.ids ++ additions s.queued, id ∈ s.issued
  pending : ∀ id ∈ s.timers.pendingAddTimers.map Timer.id, id ∈ s.issued
  removed : s.removed ⊆ s.issued
  once : ∀ id ∉ s.timers.pendingAddTimers.map Timer.id,
    (s.timers.ids ++ additions s.queued).count id ≤ 1
  gone : ∀ id ∈ s.removed, id ∉ s.timers.pendingAddTimers.map Timer.id ∧
    survives id (s.present id) s.queued = false

lemma settled_init : Settled (init : TimerRequests τ) where
  checking := by simp [init, LoopTimers.empty]
  tasks := fun _ => rfl
  listed := by simp [init, LoopTimers.empty, LoopTimers.ids, queued, additions]
  pending := by simp [init, LoopTimers.empty]
  removed := List.Subset.refl _
  once := by simp [init, LoopTimers.empty, LoopTimers.ids, queued, additions]
  gone := by simp [init]

/-- A settled loop with nothing queued has no removed timer. -/
lemma Settled.removedAreGone (h : s.Settled) : s.RemovedAreGone := by
  intro hcustomTasks htasks hidle timerID hremoved hlisted
  have hgone := (h.gone timerID hremoved).2
  simp [queued, hcustomTasks, htasks, survives, present, hidle, hlisted] at hgone

/-! ## One step -/

/-- The loop goes on to its next stage. -/
lemma Settled.of_eq (h : s.Settled) (htimers : s'.timers = s.timers)
    (hqueued : s'.queued = s.queued) (hissued : s'.issued = s.issued)
    (hremoved : s'.removed = s.removed)
    (hchecking : s'.timers.isCheckTimers = true → s'.stage = .checkAndDoTimers)
    (htasks : s'.stage ≠ .tasks → s'.tasks = []) : s'.Settled where
  checking := hchecking
  tasks := htasks
  listed := by rw [htimers, hqueued, hissued]; exact h.listed
  pending := by rw [htimers, hissued]; exact h.pending
  removed := by rw [hremoved, hissued]; exact h.removed
  once := by rw [htimers, hqueued]; exact h.once
  gone := by
    have hpresent : s'.present = s.present := by funext id; simp only [present, htimers]
    rw [hremoved, htimers, hqueued, hpresent]
    exact h.gone

/-- A new timer is none of those that have been removed. -/
lemma Settled.ne_of_removed (h : s.Settled) (hfresh : spTimer.id ∉ s.issued)
    (hremoved : timerID ∈ s.removed) : spTimer.id ≠ timerID := by
  rintro rfl
  exact hfresh (h.removed hremoved)

/-- With a new timer put into the list or the queue, the ids are still issued. -/
lemma Settled.listed_of_perm {ids : List Int64} (h : s.Settled)
    (hids : ids.Perm (spTimer.id :: (s.timers.ids ++ additions s.queued))) :
    ∀ id ∈ ids, id ∈ spTimer.id :: s.issued := by
  intro id hid
  rcases List.mem_cons.mp (hids.subset hid) with rfl | hold
  · exact List.mem_cons_self
  · exact List.mem_cons_of_mem _ (h.listed id hold)

/-- With a new timer put into the list or the queue, the ids still occur only once. -/
lemma Settled.once_of_perm {ids : List Int64} {id : Int64} (h : s.Settled)
    (hfresh : spTimer.id ∉ s.issued)
    (hids : ids.Perm (spTimer.id :: (s.timers.ids ++ additions s.queued)))
    (hpending : id ∉ s.timers.pendingAddTimers.map Timer.id) : ids.count id ≤ 1 := by
  have honce := h.once id hpending
  rw [hids.count_eq, List.count_cons]
  by_cases heq : spTimer.id = id
  · subst heq
    have hnew : (s.timers.ids ++ additions s.queued).count spTimer.id = 0 :=
      List.count_eq_zero.mpr fun hlisted => hfresh (h.listed _ hlisted)
    simp [hnew]
  · have hbeq : (spTimer.id == id) = false := beq_eq_false_iff_ne.mpr heq
    simp only [hbeq, Bool.false_eq_true, if_false]
    omega

/-- `addTimer` on the thread of the loop. -/
lemma Settled.addTimer_owner (h : s.Settled) (hfresh : spTimer.id ∉ s.issued) :
    Settled { s with
      timers := s.timers.addTimerInternal spTimer
      issued := spTimer.id :: s.issued } := by
  cases hpass : s.timers.isCheckTimers with
  | false =>
    have hids : ((s.timers.timers ++ [spTimer]).map Timer.id ++ additions s.queued).Perm
        (spTimer.id :: (s.timers.ids ++ additions s.queued)) := by
      rw [List.map_append, List.append_assoc]
      exact List.perm_middle
    rw [LoopTimers.addTimerInternal_of_idle hpass]
    refine ⟨h.checking, h.tasks, h.listed_of_perm hids, fun id hid => ?_, fun id hid => ?_,
      fun id hid => h.once_of_perm hfresh hids hid, fun id hid => ?_⟩
    · exact List.mem_cons_of_mem _ (h.pending id hid)
    · exact List.mem_cons_of_mem _ (h.removed hid)
    · obtain ⟨hpending, hgone⟩ := h.gone id hid
      have hne := h.ne_of_removed hfresh hid
      refine ⟨hpending, survives_mono ?_ hgone⟩
      simp [present, LoopTimers.ids, hne.symm]
  | true =>
    rw [LoopTimers.addTimerInternal_of_checking hpass]
    refine ⟨h.checking, h.tasks, fun id hid => ?_, fun id hid => ?_, fun id hid => ?_,
      fun id hid => ?_, fun id hid => ?_⟩
    · exact List.mem_cons_of_mem _ (h.listed id hid)
    · simp only [List.map_append, List.map_singleton, List.mem_append, List.mem_singleton] at hid
      rcases hid with hid | rfl
      · exact List.mem_cons_of_mem _ (h.pending id hid)
      · exact List.mem_cons_self
    · exact List.mem_cons_of_mem _ (h.removed hid)
    · simp only [List.map_append, List.mem_append, not_or] at hid
      exact h.once id hid.1
    · obtain ⟨hpending, hgone⟩ := h.gone id hid
      have hne := h.ne_of_removed hfresh hid
      refine ⟨?_, hgone⟩
      simp only [List.map_append, List.map_singleton, List.mem_append, List.mem_singleton, not_or]
      exact ⟨hpending, hne.symm⟩

/-- `addTimer` on another thread. -/
lemma Settled.addTimer_foreign (h : s.Settled) (hfresh : spTimer.id ∉ s.issued) :
    Settled { s with
      customTasks := s.customTasks ++ [.addTimerInternal spTimer]
      issued := spTimer.id :: s.issued } := by
  have hids : (s.timers.ids ++ additions
      (s.tasks ++ (s.customTasks ++ [.addTimerInternal spTimer]))).Perm
      (spTimer.id :: (s.timers.ids ++ additions s.queued)) := by
    rw [← List.append_assoc, additions_append, ← List.append_assoc]
    exact List.perm_append_singleton ..
  refine ⟨h.checking, h.tasks, h.listed_of_perm hids, fun id hid => ?_, fun id hid => ?_,
    fun id hid => h.once_of_perm hfresh hids hid, fun id hid => ?_⟩
  · exact List.mem_cons_of_mem _ (h.pending id hid)
  · exact List.mem_cons_of_mem _ (h.removed hid)
  · obtain ⟨hpending, hgone⟩ := h.gone id hid
    refine ⟨hpending, ?_⟩
    have hbeq : (spTimer.id == id) = false := beq_eq_false_iff_ne.mpr (h.ne_of_removed hfresh hid)
    have happend : survives id (s.present id) (s.queued ++ [.addTimerInternal spTimer]) = false := by
      rw [survives_append, hgone]
      simp [survives, hbeq]
    rwa [queued, List.append_assoc] at happend

/-- Fewer entries, and fewer timers that are there to stay: what a removal and a pass do. -/
lemma Settled.shrink (h : s.Settled) (hqueued : s'.queued = s.queued)
    (hissued : s'.issued = s.issued) (hremoved : s'.removed = s.removed)
    (hpending : s'.timers.pendingAddTimers = s.timers.pendingAddTimers)
    (hids : s'.timers.ids.Sublist s.timers.ids)
    (hpresent : ∀ id, s'.present id = true → s.present id = true)
    (hchecking : s'.timers.isCheckTimers = true → s'.stage = .checkAndDoTimers)
    (htasks : s'.stage ≠ .tasks → s'.tasks = []) : s'.Settled where
  checking := hchecking
  tasks := htasks
  listed id hid := by
    rw [hqueued] at hid
    rw [hissued]
    exact h.listed id ((hids.append_right _).subset hid)
  pending := by rw [hpending, hissued]; exact h.pending
  removed := by rw [hremoved, hissued]; exact h.removed
  once id hid := by
    rw [hpending] at hid
    rw [hqueued]
    exact ((hids.append_right _).count_le id).trans (h.once id hid)
  gone id hid := by
    rw [hremoved] at hid
    rw [hpending, hqueued]
    exact ⟨(h.gone id hid).1, survives_mono (hpresent id) (h.gone id hid).2⟩

/-- A removal that is carried out leaves no entry that is there to stay. -/
lemma present_removeTimerInternal (honce : s.timers.ids.count timerID ≤ 1) :
    present { s with timers := s.timers.removeTimerInternal timerID } timerID = false := by
  cases hpass : s.timers.isCheckTimers with
  | false =>
    have hgone : timerID ∉ (s.timers.removeTimerInternal timerID).ids := by
      rw [LoopTimers.ids_removeTimerInternal_of_idle hpass, ← List.count_pos_iff,
        List.count_erase_self]
      omega
    simp [present, hgone]
  | true =>
    rw [LoopTimers.removeTimerInternal_of_checking hpass]
    simp [present, hpass]

/-- A removal makes no other entry one that is there to stay. -/
lemma present_removeTimerInternal_le (id : Int64)
    (h : present { s with timers := s.timers.removeTimerInternal timerID } id = true) :
    s.present id = true := by
  have hshrinks := LoopTimers.shrinks_removeTimerInternal s.timers timerID
  simp only [present, hshrinks.isCheckTimers, Bool.and_eq_true, decide_eq_true_eq,
    Bool.not_eq_true', Bool.and_eq_false_iff, decide_eq_false_iff_not] at h ⊢
  refine ⟨(hshrinks.timers.map Timer.id).subset h.1, h.2.imp_right fun hpending hmem => ?_⟩
  exact hpending (hshrinks.pendingRemoveTimers hmem)

/-- `removeTimer` on the thread of the loop: a removal that overtakes no insertion. -/
lemma Settled.removeTimer_owner (h : s.Settled) (hissued : timerID ∈ s.issued)
    (hpending : timerID ∉ s.timers.pendingAddTimers.map Timer.id)
    (hlast : survives timerID false s.queued = false) :
    Settled { s with
      timers := s.timers.removeTimerInternal timerID
      removed := timerID :: s.removed } := by
  have hshrinks := LoopTimers.shrinks_removeTimerInternal s.timers timerID
  have honce := h.once timerID hpending
  rw [List.count_append] at honce
  have habsent : present { s with timers := s.timers.removeTimerInternal timerID } timerID = false :=
    present_removeTimerInternal (by omega)
  have hshrunk : Settled { s with timers := s.timers.removeTimerInternal timerID } :=
    h.shrink rfl rfl rfl hshrinks.pendingAddTimers (hshrinks.timers.map Timer.id)
      present_removeTimerInternal_le (by simpa using h.checking) h.tasks
  refine ⟨hshrunk.checking, hshrunk.tasks, hshrunk.listed, hshrunk.pending,
    List.cons_subset.mpr ⟨hissued, h.removed⟩, hshrunk.once, fun id hid => ?_⟩
  rcases List.mem_cons.mp hid with rfl | hid
  · refine ⟨by rw [hshrinks.pendingAddTimers]; exact hpending, ?_⟩
    refine survives_mono (fun hpresent => ?_) hlast
    exact absurd (hpresent.symm.trans habsent) (by decide)
  · exact hshrunk.gone id hid

/-- `removeTimer` on another thread. -/
lemma Settled.removeTimer_foreign (h : s.Settled) (hissued : timerID ∈ s.issued)
    (hpending : timerID ∉ s.timers.pendingAddTimers.map Timer.id) :
    Settled { s with
      customTasks := s.customTasks ++ [.removeTimerInternal timerID]
      removed := timerID :: s.removed } := by
  have hqueued : s.tasks ++ (s.customTasks ++ [.removeTimerInternal timerID]) =
      s.queued ++ [.removeTimerInternal timerID] := by
    rw [queued, List.append_assoc]
  have hadditions : additions (s.queued ++ [.removeTimerInternal timerID]) =
      additions s.queued := by
    rw [additions_append]
    simp [additions]
  refine ⟨h.checking, h.tasks, fun id hid => ?_, h.pending,
    List.cons_subset.mpr ⟨hissued, h.removed⟩, fun id hid => ?_, fun id hid => ?_⟩
  · rw [queued, hqueued, hadditions] at hid
    exact h.listed id hid
  · rw [queued, hqueued, hadditions]
    exact h.once id hid
  · rw [queued, hqueued, survives_append]
    rcases List.mem_cons.mp hid with rfl | hid
    · exact ⟨hpending, by simp [survives]⟩
    · refine ⟨(h.gone id hid).1, ?_⟩
      have hgone := (h.gone id hid).2
      simp only [present] at hgone ⊢
      rw [hgone]
      simp [survives]

/-- A pass begins. -/
lemma Settled.beginPass (h : s.Settled) (hstage : s.stage = .checkAndDoTimers) :
    Settled { s with timers := s.timers.setIsCheckTimers true } := by
  refine h.shrink rfl rfl rfl rfl (List.Sublist.refl _) (fun id hpresent => ?_)
    (fun _ => hstage) h.tasks
  simp only [present, LoopTimers.setIsCheckTimers, LoopTimers.ids, Bool.true_and,
    Bool.and_eq_true, Bool.not_eq_true', Bool.and_eq_false_iff] at hpresent ⊢
  exact ⟨hpresent.1, Or.inr hpresent.2⟩

/-- A pass ends: the pending removals take effect, and no removed timer is among the pending
insertions. -/
lemma Settled.endPass (h : s.Settled) (hpass : s.timers.isCheckTimers = true) :
    Settled { s with
      stage := .poll
      timers := (LoopTimers.host τ).replayPending (s.timers.setIsCheckTimers false) } := by
  have hreplay := (LoopTimers.host τ).get_replayPending (s.timers.setIsCheckTimers false) rfl
  have hstage := h.checking hpass
  have htasks : s.tasks = [] := h.tasks (by simp [hstage])
  have hsub : ((LoopTimers.removeAll s.timers.pendingRemoveTimers s.timers.timers).map
      Timer.id).Sublist s.timers.ids := (LoopTimers.removeAll_sublist _ _).map Timer.id
  simp only [LoopTimers.host, id, LoopTimers.setIsCheckTimers] at hreplay
  simp only [LoopTimers.host, LoopTimers.setIsCheckTimers]
  rw [hreplay]
  refine ⟨fun hchecking => ?_, fun _ => htasks, fun id hid => ?_, h.pending, h.removed,
    fun id hid => ?_, fun id hid => ?_⟩
  · cases hchecking
  · simp only [LoopTimers.ids, List.map_append, List.mem_append] at hid
    rcases hid with (hid | hid) | hid
    · exact h.listed id (List.mem_append_left _ (hsub.subset hid))
    · exact h.pending id hid
    · exact h.listed id (List.mem_append_right _ hid)
  · have honce := h.once id hid
    have hle := hsub.count_le id
    have hzero : (s.timers.pendingAddTimers.map Timer.id).count id = 0 :=
      List.count_eq_zero.mpr hid
    simp only [LoopTimers.ids, List.map_append, List.count_append, queued] at honce hle ⊢
    omega
  · obtain ⟨hpending, hgone⟩ := h.gone id hid
    refine ⟨hpending, survives_mono (fun hpresent => ?_) hgone⟩
    simp only [present, LoopTimers.ids, List.map_append, List.mem_append, Bool.false_and,
      Bool.not_false, Bool.and_true, decide_eq_true_eq] at hpresent
    have hleft := hpresent.resolve_right hpending
    have honce := h.once id hpending
    rw [List.count_append] at honce
    have hkept : id ∉ s.timers.pendingRemoveTimers := fun hmem =>
      LoopTimers.not_mem_removeAll (by unfold LoopTimers.ids at honce; omega) hmem hleft
    simp [present, hpass, hkept, hsub.subset hleft]

/-- A queued request is carried out, outside a pass. -/
lemma Settled.runTask {task : QueuedTimerCall τ} (h : s.Settled) (hstage : s.stage = .tasks)
    (htasks : s.tasks = task :: tasks) :
    Settled { s with tasks := tasks, timers := carryOut task s.timers } := by
  have hpass : s.timers.isCheckTimers = false := by
    rw [← Bool.not_eq_true]
    exact fun hchecking => by simp [h.checking hchecking] at hstage
  have hqueued : s.queued = task :: (tasks ++ s.customTasks) := by simp [queued, htasks]
  have hlisted := h.listed
  have honce := h.once
  have hgone := h.gone
  rw [hqueued] at hlisted honce hgone
  cases task with
  | addTimerInternal spTimer =>
    have hids : (s.timers.addTimerInternal spTimer).ids ++ additions (tasks ++ s.customTasks) =
        s.timers.ids ++ additions (.addTimerInternal spTimer :: (tasks ++ s.customTasks)) := by
      rw [LoopTimers.ids_addTimerInternal_of_idle hpass, List.append_assoc]
      rfl
    simp only [carryOut]
    refine ⟨fun hchecking => ?_, fun hstage' => absurd hstage hstage', ?_, ?_, h.removed, ?_, ?_⟩
    · simp [hpass] at hchecking
    · simpa only [queued, hids] using hlisted
    · simpa only [LoopTimers.addTimerInternal_of_idle hpass] using h.pending
    · intro id hid
      rw [LoopTimers.addTimerInternal_of_idle hpass] at hid
      rw [queued, hids]
      exact honce id hid
    · intro id hid
      obtain ⟨hpending, hsurvives⟩ := hgone id hid
      refine ⟨by simpa only [LoopTimers.addTimerInternal_of_idle hpass] using hpending, ?_⟩
      refine survives_mono (fun hpresent => ?_) hsurvives
      simp only [present, LoopTimers.addTimerInternal_isCheckTimers, hpass, Bool.false_and,
        Bool.not_false, Bool.and_true, decide_eq_true_eq,
        LoopTimers.ids_addTimerInternal_of_idle hpass, List.mem_append,
        List.mem_singleton] at hpresent
      simp only [present, hpass, Bool.false_and, Bool.not_false, Bool.and_true, Bool.or_eq_true,
        decide_eq_true_eq, beq_iff_eq]
      exact hpresent.imp_right Eq.symm
  | removeTimerInternal timerID =>
    have hshrinks := LoopTimers.shrinks_removeTimerInternal s.timers timerID
    have hsub := (hshrinks.timers.map Timer.id).append_right (additions (tasks ++ s.customTasks))
    simp only [carryOut]
    refine ⟨fun hchecking => ?_, fun hstage' => absurd hstage hstage', ?_, ?_, h.removed, ?_, ?_⟩
    · simp [hpass] at hchecking
    · exact fun id hid => hlisted id (hsub.subset hid)
    · rw [hshrinks.pendingAddTimers]
      exact h.pending
    · rw [hshrinks.pendingAddTimers]
      exact fun id hid => (hsub.count_le id).trans (honce id hid)
    · intro id hid
      obtain ⟨hpending, hsurvives⟩ := hgone id hid
      refine ⟨by rw [hshrinks.pendingAddTimers]; exact hpending, ?_⟩
      refine survives_mono (fun hpresent => ?_) hsurvives
      have hcount := honce id hpending
      rw [List.count_append] at hcount
      rw [Bool.and_eq_true]
      refine ⟨present_removeTimerInternal_le id hpresent, ?_⟩
      rw [bne_iff_ne]
      rintro rfl
      exact absurd (hpresent.symm.trans (present_removeTimerInternal (by omega))) (by decide)

/-- A step in order keeps the loop settled. -/
theorem Settled.step (h : s.Settled) (hguard : s.InOrder l) (hstep : system.step s l s') :
    s'.Settled := by
  cases l with
  | addTimer inOwnerThread spTimer =>
    obtain ⟨-, heq⟩ := Option.ite_none_right_eq_some.mp hstep
    cases heq
    cases inOwnerThread with
    | true => exact h.addTimer_owner hguard
    | false => exact h.addTimer_foreign hguard
  | removeTimer inOwnerThread timerID =>
    obtain ⟨⟨-, hissued⟩, heq⟩ := Option.ite_none_right_eq_some.mp hstep
    cases heq
    cases inOwnerThread with
    | true => exact h.removeTimer_owner hissued hguard.1 (hguard.2 rfl)
    | false => exact h.removeTimer_foreign hissued hguard.1
  | beginPass =>
    obtain ⟨⟨hstage, -⟩, heq⟩ := Option.ite_none_right_eq_some.mp hstep
    cases heq
    exact h.beginPass hstage
  | doTimer spTimer nowMs =>
    obtain ⟨-, heq⟩ := Option.ite_none_right_eq_some.mp hstep
    cases heq
    exact h.shrink rfl rfl rfl rfl (List.Sublist.refl _) (fun _ => id) h.checking h.tasks
  | endPass =>
    obtain ⟨hpass, heq⟩ := Option.ite_none_right_eq_some.mp hstep
    cases heq
    exact h.endPass hpass
  | poll wakeupEvent =>
    obtain ⟨hstage, heq⟩ := Option.ite_none_right_eq_some.mp hstep
    cases heq
    have htasks : s.tasks = [] := h.tasks (by simp [hstage])
    refine h.of_eq rfl rfl rfl rfl (fun hchecking => ?_) fun _ => htasks
    rw [h.checking hchecking] at hstage
    cases hstage
  | swap =>
    simp only [system, next] at hstep
    split at hstep
    · next wakeupEvent hstage =>
      cases hstep
      have htasks : s.tasks = [] := h.tasks (by simp [hstage])
      refine h.of_eq rfl (by simp [queued, htasks]) rfl rfl (fun hchecking => ?_) fun hne => ?_
      · rw [h.checking hchecking] at hstage
        cases hstage
      · exact absurd rfl hne
    · cases hstep
  | runTask =>
    simp only [system, next] at hstep
    split at hstep
    · next task tasks hstage htasks =>
      cases hstep
      exact h.runTask hstage htasks
    · cases hstep
  | nextIteration =>
    simp only [system, next] at hstep
    split at hstep
    · next hstage htasks =>
      cases hstep
      exact h.of_eq rfl rfl rfl rfl (fun _ => rfl) fun _ => htasks
    · cases hstep

/-! ## Whole runs -/

/-- **If the requests come in order, a removed timer is gone once everything is carried out.** -/
theorem removedAreGone_of_inOrder (h : system.ReachableUnder InOrder s) : s.RemovedAreGone := by
  have hsettled : s.Settled := h.invariant (by rintro s rfl; exact settled_init)
    fun _ _ _ hs hguard h => Settled.step hs hguard h
  exact hsettled.removedAreGone

instance (s : TimerRequests τ) (l : TimerRequestStep τ) : Decidable (s.InOrder l) :=
  match l with
  | .addTimer _ _ => inferInstanceAs (Decidable (¬ _))
  | .removeTimer _ _ => inferInstanceAs (Decidable (_ ∧ _))
  | .beginPass => isTrue trivial
  | .doTimer _ _ => isTrue trivial
  | .endPass => isTrue trivial
  | .poll _ => isTrue trivial
  | .swap => isTrue trivial
  | .runTask => isTrue trivial
  | .nextIteration => isTrue trivial

/-- The reminder of a session that has just connected. -/
def reminder : Timer Unit where
  object := 0
  id := 1
  intervalMs := 5000
  repeated := true
  repeatedCount := 0
  timerTask := ()
  mode := .fixedInterval

/-- The base thread adds the reminder and the loop carries the request out before it removes the
timer. -/
def orderlySteps : List (TimerRequestStep Unit) :=
  [.addTimer false reminder, .beginPass, .endPass, .poll true, .swap, .runTask,
    .removeTimer true 1, .nextIteration]

/-- The loop removes the timer at the dispatchers, before it carries the request out. -/
def overtakingSteps : List (TimerRequestStep Unit) :=
  [.beginPass, .endPass, .poll true, .addTimer false reminder, .removeTimer true 1, .swap,
    .runTask, .nextIteration]

/-- A reminder that is removed after it was inserted. -/
theorem removedAreGone_of_inOrder_reminder :
    (TransitionSystem.runAll next init orderlySteps).RemovedAreGone :=
  removedAreGone_of_inOrder (TransitionSystem.ReachableUnder.runAll (fun _ _ _ h => h) (.init rfl)
    (by decide))

/-- A reminder that is removed while its insertion is queued stays in the list. -/
theorem exists_removed_listed :
    ¬ ∀ s : TimerRequests Unit, system.Reachable s → s.RemovedAreGone := by
  intro h
  have hreach : system.Reachable (TransitionSystem.runAll next init overtakingSteps) :=
    TransitionSystem.ReachableUnder.runAll (fun _ _ _ h => h) (.init rfl) (by decide)
  exact h _ hreach rfl rfl rfl 1 (by decide) (by decide)

end TimerRequests

end Calc24
