import Calc24.App.Sending
import Calc24.App.Sequential
import Calc24.Lib.TransitionSystem

/-!
# The list under the iterator

`EventLoop::checkAndDoTimers` walks over `m_timers` with an iterator while the callbacks that it
calls may add and remove timers, directly or through a send that fails: the send closes the
connection, and `Calc24Session::onClose` removes the session's timer.  The flag `m_isCheckTimers`
defers all of these, and calls of other threads are queued.

This file lets a pass take small steps, with the calls that a callback makes as steps of their own,
among calls of other threads.  The list stays what it is while the iterator is on it, and the
callbacks started are those of the entries that were due at the start of the pass, each once and in
the order of the list (`startsDueOnce`).  The passes of `World.checkAndDoTimers` are made of these
steps (`checkAndDoTimers_eq`).
-/

namespace Calc24

namespace LoopTimers

variable {τ : Type*} {x x' x'' : LoopTimers τ} {n m : ℕ}

/-- What the iterator relies on: the list stays, the pass goes on, and the due times of the first
`n` timers that were constructed stay. -/
structure Holds (n : ℕ) (x x' : LoopTimers τ) : Prop where
  timers : x'.timers = x.timers
  isCheckTimers : x'.isCheckTimers = x.isCheckTimers
  due : ∀ object < n, x'.nextTriggeredTimeMs object = x.nextTriggeredTimeMs object

lemma Holds.refl (n : ℕ) (x : LoopTimers τ) : Holds n x x :=
  ⟨rfl, rfl, fun _ _ => rfl⟩

lemma Holds.trans (h : Holds n x x') (h' : Holds n x' x'') : Holds n x x'' where
  timers := h'.timers.trans h.timers
  isCheckTimers := h'.isCheckTimers.trans h.isCheckTimers
  due object hobject := (h'.due object hobject).trans (h.due object hobject)

lemma Holds.mono (h : Holds m x x') (hnm : n ≤ m) : Holds n x x' :=
  ⟨h.timers, h.isCheckTimers, fun object hobject => h.due object (hobject.trans_le hnm)⟩

/-- A new timer has an address of its own. -/
lemma holds_construct (n : ℕ) (due : ℤ) (x : LoopTimers τ) : Holds n x (x.construct n due) :=
  ⟨rfl, rfl, fun _ hobject => Function.update_of_ne hobject.ne _ _⟩

/-- While a pass is going on, adding a timer is put off. -/
lemma holds_addTimerInternal (hcheck : x.isCheckTimers = true) (spTimer : Timer τ) :
    Holds n x (x.addTimerInternal spTimer) := by
  rw [addTimerInternal_of_checking hcheck]
  exact ⟨rfl, rfl, fun _ _ => rfl⟩

/-- While a pass is going on, removing a timer is put off. -/
lemma holds_removeTimerInternal (hcheck : x.isCheckTimers = true) (timerID : Int64) :
    Holds n x (x.removeTimerInternal timerID) := by
  rw [removeTimerInternal_of_checking hcheck]
  exact ⟨rfl, rfl, fun _ _ => rfl⟩

end LoopTimers

/-- What may be called while a pass is going on: timers are added to a loop and removed from it,
something is sent, which may close the session, a session is changed, or the reminder callback is
called. -/
inductive PassCall
  | addTimer (l : LoopId) (intervalMs : ℤ) (repeated : Bool) (repeatedCount : ℤ)
    (timerTask : TimerTask) (mode : TimerMode)
  | removeTimer (l : LoopId) (timerID : Int64)
  | sendMsg (r : Ref) (msg : Bytes)
  | modifySession (r : Ref) (f : Calc24Session → Calc24Session)
  | reminderCallback (r : Ref) (timerID : Int64)

/-- The call on the thread `cur`. -/
def PassCall.perform (env : Environment) (cur : LoopId) (w : World) : PassCall → World
  | .addTimer l intervalMs repeated repeatedCount timerTask mode =>
    (w.addTimer env cur l intervalMs repeated repeatedCount timerTask mode).2
  | .removeTimer l timerID => w.removeTimer cur l timerID
  | .sendMsg r msg => w.sendMsg env cur r msg
  | .modifySession r f => w.modifySession r f
  | .reminderCallback r timerID => w.reminderCallback env cur r timerID

/-- A pass of a loop that has not come to its end: the position of the iterator, whether a callback
is running, and, as a ghost, the timers whose callbacks have been started. -/
structure LoopPass where
  world : World
  position : ℕ
  inTask : Bool
  started : List (Timer TimerTask)

/-- The next entry, a call made by the running callback or by another thread, and the end of a
callback. -/
inductive LoopPassStep
  | entry
  | call (cur : LoopId) (c : PassCall)
  | taskEnd

namespace LoopPass

variable (env : Environment) (l : LoopId) (nowMs : ℤ)

/-- The pass begins. -/
def start (w : World) : LoopPass where
  world := (World.loopTimers l).modify (LoopTimers.setIsCheckTimers true) w
  position := 0
  inTask := false
  started := []

/-- The timer members of the loop. -/
def timers (s : LoopPass) : LoopTimers TimerTask :=
  (s.world.loop l).timers

/-- One step, where it is possible. -/
def next (s : LoopPass) : LoopPassStep → Option LoopPass
  | .entry =>
    match s.inTask, (s.timers l).timers[s.position]? with
    | false, some t =>
      if (s.timers l).IsDue nowMs t then
        -- `doTimer` sets the next due time and calls the callback
        some
          { world := (World.loopTimers l).modify (LoopTimers.advance t nowMs) s.world
            position := s.position + 1
            inTask := true
            started := s.started ++ [t] }
      else some { s with position := s.position + 1 }
    | _, _ => none
  | .call cur c =>
    -- the thread of the loop is in the callback, or it calls nothing
    if cur = l → s.inTask = true then some { s with world := c.perform env cur s.world } else none
  | .taskEnd => if s.inTask = true then some { s with inTask := false } else none

/-- The steps of one pass over the timers of `w`. -/
def system (w : World) : TransitionSystem LoopPass LoopPassStep where
  init s := s = start l w
  step s step s' := s.next env l nowMs step = some s'

/-- The iterator has come to the end of the list. -/
def Ended (s : LoopPass) : Prop :=
  s.inTask = false ∧ (s.timers l).timers[s.position]? = none

/-! ## Calls -/

variable {env : Environment} {l cur : LoopId} {nowMs : ℤ} {w w' : World} {s s' : LoopPass}
  {e : LoopPassStep} {t : Timer TimerTask}

/-- A change of the timers of one loop. -/
lemma loop_modify (f : LoopTimers TimerTask → LoopTimers TimerTask) (l l' : LoopId) (w : World) :
    ((World.loopTimers l').modify f w).loop l = if l = l' then
      { w.loop l with timers := f (w.loop l).timers } else w.loop l := by
  by_cases hl : l = l'
  · subst hl
    simp [World.loopTimers_modify, World.modifyLoop]
  · simp [World.loopTimers_modify, World.modifyLoop, hl]

/-- A removal leaves the list under the iterator as it is, whichever loop and thread it is for. -/
lemma holds_removeTimer (n : ℕ) (hcheck : (w.loop l).timers.isCheckTimers = true) (l' : LoopId)
    (timerID : Int64) : LoopTimers.Holds n (w.loop l).timers
      ((w.removeTimer cur l' timerID).loop l).timers := by
  rw [World.removeTimer_timers]
  split
  · exact LoopTimers.holds_removeTimerInternal hcheck timerID
  · exact LoopTimers.Holds.refl n _

/-- A send may close the session, and the close removes a timer. -/
lemma holds_send (n : ℕ) (hcheck : (w.loop l).timers.isCheckTimers = true) (r : Ref)
    (buf : Bytes) : LoopTimers.Holds n (w.loop l).timers
      ((w.send env cur r buf).loop l).timers := by
  rcases World.send_cases env cur r buf w with ⟨-, hqueued⟩ | ⟨-, -, hflushes⟩ |
    ⟨-, -, w₁, hflushes, hclose⟩
  · rw [hqueued]
    by_cases hl : l = (w.connection r).loop
    · subst hl
      simp [World.modifyLoop, EventLoop.addTask, LoopTimers.Holds.refl]
    · simp [World.modifyLoop, hl, LoopTimers.Holds.refl]
  · rw [(hflushes.timers l).1]
    exact LoopTimers.Holds.refl n _
  · rw [hclose, World.onClose_timers, (hflushes.timers l).1]
    split
    · exact LoopTimers.holds_removeTimerInternal hcheck _
    · exact LoopTimers.Holds.refl n _

lemma holds_sendMsg (n : ℕ) (hcheck : (w.loop l).timers.isCheckTimers = true) (r : Ref)
    (msg : Bytes) : LoopTimers.Holds n (w.loop l).timers
      ((w.sendMsg env cur r msg).loop l).timers :=
  holds_send (w := w.log (.sent r msg)) n hcheck r msg

/-- So does the callback of a reminder. -/
lemma holds_reminderCallback (n : ℕ) (hcheck : (w.loop l).timers.isCheckTimers = true) (r : Ref)
    (timerID : Int64) : LoopTimers.Holds n (w.loop l).timers
      ((w.reminderCallback env cur r timerID).loop l).timers := by
  have hlog : ((w.log (.reminder r timerID)).loop l).timers.isCheckTimers = true := hcheck
  unfold World.reminderCallback
  by_cases hidle : ((w.log (.reminder r timerID)).session r).status = .IDLE
  · simp only [hidle, if_true]
    exact holds_sendMsg n hlog r _
  · simp only [hidle, if_false]
    exact holds_removeTimer n hlog _ timerID

/-- The due time of a new timer is set first, and then the timer is deferred or queued. -/
lemma holds_addTimer (hcheck : (w.loop l).timers.isCheckTimers = true) (l' : LoopId)
    (intervalMs : ℤ) (repeated : Bool) (repeatedCount : ℤ) (timerTask : TimerTask)
    (mode : TimerMode) : LoopTimers.Holds w.timersConstructed (w.loop l).timers
      ((w.addTimer env cur l' intervalMs repeated repeatedCount timerTask mode).2.loop l).timers := by
  set due := env.clock w.timersConstructed + intervalMs
  have hconstruct := LoopTimers.holds_construct w.timersConstructed due (w.loop l).timers
  by_cases hl : l = l'
  · subst hl
    by_cases hcur : cur = l
    · have hadd := LoopTimers.holds_addTimerInternal (n := w.timersConstructed)
        (x := (w.loop l).timers.construct w.timersConstructed due) hcheck
        { object := w.timersConstructed, id := w.timerBaseId + 1, intervalMs := intervalMs,
          repeated := repeated, repeatedCount := repeatedCount, timerTask := timerTask,
          mode := mode }
      simpa [World.addTimer, World.constructTimer, World.addTimerInternal, hcur,
        World.loopTimers_modify, World.modifyLoop, due] using hconstruct.trans hadd
    · simpa [World.addTimer, World.constructTimer, World.addTimerInternal, hcur,
        World.loopTimers_modify, World.modifyLoop, EventLoop.addTask, due] using hconstruct
  · have hsame : (w.addTimer env cur l' intervalMs repeated repeatedCount timerTask mode).2.loop l =
        w.loop l := by
      by_cases hcur : cur = l' <;>
        simp [World.addTimer, World.constructTimer, World.addTimerInternal, hcur,
          World.loopTimers_modify, World.modifyLoop, hl]
    rw [hsame]
    exact LoopTimers.Holds.refl _ _

/-- Adding a timer constructs one. -/
lemma addTimer_timersConstructed (l' : LoopId) (intervalMs : ℤ) (repeated : Bool)
    (repeatedCount : ℤ) (timerTask : TimerTask) (mode : TimerMode) :
    (w.addTimer env cur l' intervalMs repeated repeatedCount timerTask mode).2.timersConstructed =
      w.timersConstructed + 1 := by
  simp only [World.addTimer, World.addTimerInternal]
  split <;> rfl

/-- **No call moves the list under the iterator.** -/
theorem holds_perform (env : Environment) (cur : LoopId)
    (hcheck : (w.loop l).timers.isCheckTimers = true) (c : PassCall) :
    LoopTimers.Holds w.timersConstructed (w.loop l).timers
        ((c.perform env cur w).loop l).timers ∧
      w.timersConstructed ≤ (c.perform env cur w).timersConstructed := by
  cases c with
  | addTimer l' intervalMs repeated repeatedCount timerTask mode =>
    refine ⟨holds_addTimer hcheck l' intervalMs repeated repeatedCount timerTask mode, ?_⟩
    rw [PassCall.perform, addTimer_timersConstructed]
    exact Nat.le_succ _
  | removeTimer l' timerID =>
    exact ⟨holds_removeTimer _ hcheck l' timerID,
      (World.touches_removeTimer (A := ∅) timerID).timersConstructed.ge⟩
  | sendMsg r msg =>
    exact ⟨holds_sendMsg _ hcheck r msg,
      (World.touches_sendMsg (A := {r}) msg rfl).timersConstructed.ge⟩
  | modifySession r f => exact ⟨LoopTimers.Holds.refl _ _, le_refl _⟩
  | reminderCallback r timerID =>
    exact ⟨holds_reminderCallback _ hcheck r timerID,
      (World.touches_reminderCallback (A := {r}) timerID rfl).timersConstructed.ge⟩

/-! ## Steps -/

/-- The steps as what they do to the state. -/
lemma step_cases (h : (system env l nowMs w).step s e s') :
    (∃ t, s.inTask = false ∧ (s.timers l).timers[s.position]? = some t ∧
      (s.timers l).IsDue nowMs t ∧
      s' =
        { world := (World.loopTimers l).modify (LoopTimers.advance t nowMs) s.world
          position := s.position + 1
          inTask := true
          started := s.started ++ [t] }) ∨
    (∃ t, s.inTask = false ∧ (s.timers l).timers[s.position]? = some t ∧
      ¬ (s.timers l).IsDue nowMs t ∧ s' = { s with position := s.position + 1 }) ∨
    (∃ cur c, s' = { s with world := PassCall.perform env cur s.world c }) ∨
    s' = { s with inTask := false } := by
  cases e with
  | entry =>
    simp only [system, next] at h
    split at h
    · next t htask ht =>
      split at h
      · next hdue => exact Or.inl ⟨t, htask, ht, hdue, (Option.some.inj h).symm⟩
      · next hdue => exact Or.inr (Or.inl ⟨t, htask, ht, hdue, (Option.some.inj h).symm⟩)
    · cases h
  | call cur c =>
    obtain ⟨-, heq⟩ := Option.ite_none_right_eq_some.mp h
    exact Or.inr (Or.inr (Or.inl ⟨cur, c, (Option.some.inj heq).symm⟩))
  | taskEnd =>
    obtain ⟨-, heq⟩ := Option.ite_none_right_eq_some.mp h
    exact Or.inr (Or.inr (Or.inr (Option.some.inj heq).symm))

/-- The pass is going on, over the list that it started with. -/
structure OnList (l : LoopId) (w : World) (s : LoopPass) : Prop where
  timers : (s.timers l).timers = (w.loop l).timers.timers
  isCheckTimers : (s.timers l).isCheckTimers = true
  timersConstructed : w.timersConstructed ≤ s.world.timersConstructed

/-- A pass starts over the list of its loop. -/
lemma onList_start (l : LoopId) (w : World) : OnList l w (start l w) := by
  constructor
  · simp [LoopPass.timers, start, loop_modify, LoopTimers.setIsCheckTimers]
  · simp [LoopPass.timers, start, loop_modify, LoopTimers.setIsCheckTimers]
  · exact le_refl _

/-- Setting a due time leaves the list alone. -/
lemma timers_advance (s : LoopPass) (t : Timer TimerTask) :
    ((((World.loopTimers l).modify (LoopTimers.advance t nowMs) s.world).loop l).timers) =
      (s.timers l).advance t nowMs := by
  simp [loop_modify, LoopPass.timers]

/-- No step changes the list, neither of the pass nor of another thread. -/
lemma OnList.step {w₀ : World} (hs : OnList l w s) (h : (system env l nowMs w₀).step s e s') :
    OnList l w s' := by
  rcases step_cases h with ⟨t, -, -, -, rfl⟩ | ⟨t, -, -, -, rfl⟩ | ⟨cur, c, rfl⟩ | rfl
  · constructor
    · rw [LoopPass.timers, timers_advance]
      exact hs.timers
    · rw [LoopPass.timers, timers_advance]
      exact hs.isCheckTimers
    · exact hs.timersConstructed
  · exact ⟨hs.timers, hs.isCheckTimers, hs.timersConstructed⟩
  · obtain ⟨hholds, hconstructed⟩ := holds_perform env cur hs.isCheckTimers c
    exact ⟨hholds.timers.trans hs.timers, hholds.isCheckTimers.trans hs.isCheckTimers,
      hs.timersConstructed.trans hconstructed⟩
  · exact ⟨hs.timers, hs.isCheckTimers, hs.timersConstructed⟩

/-- The due times of the entries to come are those of the start, and the entries before them have
been started if they were due. -/
structure InStep (l : LoopId) (nowMs : ℤ) (w : World) (s : LoopPass) : Prop extends
    OnList l w s where
  due : ∀ j t, s.position ≤ j → (w.loop l).timers.timers[j]? = some t →
    (s.timers l).nextTriggeredTimeMs t.object = (w.loop l).timers.nextTriggeredTimeMs t.object
  started : s.started =
    ((w.loop l).timers.timers.take s.position).filter fun t => (w.loop l).timers.IsDue nowMs t

/-- The entries are distinct timers, which have been constructed. -/
structure DistinctTimers (l : LoopId) (w : World) : Prop where
  nodup : ((w.loop l).timers.timers.map Timer.object).Nodup
  constructed : ∀ t ∈ (w.loop l).timers.timers, t.object < w.timersConstructed

/-- Two entries at different places are different timers. -/
lemma DistinctTimers.object_ne (h : DistinctTimers l w) {i j : ℕ} {t' : Timer TimerTask}
    (hij : i < j) (ht : (w.loop l).timers.timers[i]? = some t)
    (ht' : (w.loop l).timers.timers[j]? = some t') : t'.object ≠ t.object := by
  intro heq
  have hlt : j < (w.loop l).timers.timers.length := (List.getElem?_eq_some_iff.mp ht').1
  have hobjects : ((w.loop l).timers.timers.map Timer.object)[j]? =
      ((w.loop l).timers.timers.map Timer.object)[i]? := by
    rw [List.getElem?_map, List.getElem?_map, ht, ht', Option.map_some, Option.map_some, heq]
  exact hij.ne' ((List.getElem?_inj (by simpa using hlt) h.nodup).mp hobjects)

/-- At the start nothing has been visited. -/
lemma inStep_start (l : LoopId) (nowMs : ℤ) (w : World) : InStep l nowMs w (start l w) where
  toOnList := onList_start l w
  due j t _ _ := by simp [LoopPass.timers, start, loop_modify, LoopTimers.setIsCheckTimers]
  started := rfl

/-- One more entry, which is among those that are started exactly if it was due at the start. -/
lemma InStep.filter_succ (hs : InStep l nowMs w s)
    (ht : (s.timers l).timers[s.position]? = some t) :
    (((w.loop l).timers.timers.take (s.position + 1)).filter fun t =>
        (w.loop l).timers.IsDue nowMs t) =
      s.started ++ if (s.timers l).IsDue nowMs t then [t] else [] := by
  rw [hs.timers] at ht
  have hdue : (s.timers l).IsDue nowMs t ↔ (w.loop l).timers.IsDue nowMs t := by
    rw [LoopTimers.IsDue, LoopTimers.IsDue, hs.due _ t (le_refl _) ht]
  rw [List.take_add_one, ht, List.filter_append, ← hs.started, Option.toList_some]
  by_cases htdue : (w.loop l).timers.IsDue nowMs t <;> simp [hdue, htdue]

/-- The pass stays in step with the list that it started with. -/
lemma InStep.step {w₀ : World} (hdistinct : DistinctTimers l w) (hs : InStep l nowMs w s)
    (h : (system env l nowMs w₀).step s e s') : InStep l nowMs w s' := by
  have honList := hs.toOnList.step h
  rcases step_cases h with ⟨t, -, ht, hdue, rfl⟩ | ⟨t, -, ht, hdue, rfl⟩ | ⟨cur, c, rfl⟩ | rfl
  · have hfilter := hs.filter_succ ht
    rw [if_pos hdue] at hfilter
    refine ⟨honList, fun j t' hj ht' => ?_, hfilter.symm⟩
    rw [hs.timers] at ht
    rw [LoopPass.timers, timers_advance]
    -- a timer further on is another one
    have hne := hdistinct.object_ne (by exact hj) ht ht'
    exact (Function.update_of_ne hne _ _).trans (hs.due j t' (Nat.le_of_succ_le hj) ht')
  · have hfilter := hs.filter_succ ht
    rw [if_neg hdue, List.append_nil] at hfilter
    exact ⟨honList, fun j t' hj ht' => hs.due j t' (Nat.le_of_succ_le hj) ht', hfilter.symm⟩
  · refine ⟨honList, fun j t' hj ht' => ?_, hs.started⟩
    obtain ⟨hholds, -⟩ := holds_perform env cur hs.isCheckTimers c
    have hlt := (hdistinct.constructed t' (List.mem_of_getElem? ht')).trans_le
      hs.timersConstructed
    exact (hholds.due t'.object hlt).trans (hs.due j t' hj ht')
  · exact ⟨honList, hs.due, hs.started⟩

/-! ## The passes of `checkAndDoTimers` -/

/-- The list stays the same until the pass ends. -/
lemma onList_of_reachable (h : (system env l nowMs w).Reachable s) : OnList l w s :=
  h.invariant (by rintro s rfl; exact onList_start l w) fun _ _ _ hs hstep => hs.step hstep

/-- The callbacks of a loop's timers. -/
def callback (env : Environment) (l : LoopId) (t : Timer TimerTask) (w : World) : World :=
  match t.timerTask with
  | .reminder r => w.reminderCallback env l r t.id

/-- The loop over the entries. -/
lemma exists_visit (rounds i : ℕ) (s : LoopPass) (h : (system env l nowMs w).Reachable s)
    (hposition : s.position = i) (htask : s.inTask = false)
    (hrounds : (w.loop l).timers.timers.length = i + rounds) :
    ∃ s', (system env l nowMs w).Reachable s' ∧ s'.Ended l ∧
      s'.world = (World.loopTimers l).visit (fun _ => callback env l) nowMs rounds i s.world := by
  have htimers := (onList_of_reachable h).timers
  induction rounds generalizing i s with
  | zero =>
    refine ⟨s, h, ⟨htask, List.getElem?_eq_none ?_⟩, rfl⟩
    rw [htimers, hposition]
    omega
  | succ rounds ih =>
    have hlt : i < (s.timers l).timers.length := by
      rw [htimers]
      omega
    have hget : (s.timers l).timers[i]? = some (s.timers l).timers[i] :=
      List.getElem?_eq_getElem hlt
    set t := (s.timers l).timers[i] with ht
    have hrest : (w.loop l).timers.timers.length = i + 1 + rounds := by omega
    by_cases hdue : (s.timers l).IsDue nowMs t
    · -- the callback is started, runs and ends
      set s₁ : LoopPass :=
        { world := (World.loopTimers l).modify (LoopTimers.advance t nowMs) s.world
          position := i + 1
          inTask := true
          started := s.started ++ [t] } with hs₁
      have hstart : (system env l nowMs w).step s .entry s₁ := by
        simp only [system, next, hposition, htask, hget, if_pos hdue, hs₁]
      set s₂ : LoopPass := { s₁ with world := callback env l t s₁.world } with hs₂
      obtain ⟨r, hr⟩ : ∃ r, t.timerTask = .reminder r := by
        cases htask : t.timerTask
        exact ⟨_, rfl⟩
      have hcall : (system env l nowMs w).step s₁ (.call l (.reminderCallback r t.id)) s₂ := by
        simp only [system, next, hs₁, hs₂, callback, hr, PassCall.perform, implies_true, if_true]
      have hend : (system env l nowMs w).step s₂ .taskEnd { s₂ with inTask := false } := rfl
      have hreach := ((h.tail hstart).tail hcall).tail hend
      obtain ⟨s', hreach', hended, hworld⟩ := ih (i + 1) { s₂ with inTask := false } hreach rfl rfl
        hrest (onList_of_reachable hreach).timers
      refine ⟨s', hreach', hended, ?_⟩
      rw [hworld, TimerHost.visit]
      simp only [show ((World.loopTimers l).get s.world).timers[i]? = some t from hget,
        if_pos (show ((World.loopTimers l).get s.world).IsDue nowMs t from hdue), hs₂, hs₁]
    · have hskip : (system env l nowMs w).step s .entry { s with position := i + 1 } := by
        simp only [system, next, hposition, htask, hget, if_neg hdue]
      have hreach := h.tail hskip
      obtain ⟨s', hreach', hended, hworld⟩ := ih (i + 1) { s with position := i + 1 } hreach rfl
        htask hrest (onList_of_reachable hreach).timers
      refine ⟨s', hreach', hended, ?_⟩
      rw [hworld, TimerHost.visit]
      simp only [show ((World.loopTimers l).get s.world).timers[i]? = some t from hget,
        if_neg (show ¬ ((World.loopTimers l).get s.world).IsDue nowMs t from hdue)]

/-- The passes of the world are made of these steps. -/
theorem checkAndDoTimers_eq (env : Environment) (l : LoopId) (nowMs : ℤ) (w : World) :
    ∃ s, (system env l nowMs w).Reachable s ∧ s.Ended l ∧
      w.checkAndDoTimers env l nowMs = (World.loopTimers l).replayPending
        ((World.loopTimers l).modify (LoopTimers.setIsCheckTimers false) s.world) := by
  obtain ⟨s, hreach, hended, hworld⟩ := exists_visit (w.loop l).timers.timers.length 0 (start l w)
    (.of_init rfl) rfl rfl (Nat.zero_add _).symm
  refine ⟨s, hreach, hended, ?_⟩
  have hlength : ((World.loopTimers l).get (start l w).world).timers.length =
      (w.loop l).timers.timers.length :=
    congrArg List.length (onList_start l w).timers
  rw [hworld, ← hlength]
  rfl

/-! ## What a pass starts -/

/-- **The list stays what it is until the iterator has come to its end, and the callbacks started
are those of the entries that were due at the start, each once and in the order of the list.** -/
theorem startsDueOnce (hdistinct : DistinctTimers l w)
    (h : (system env l nowMs w).Reachable s) :
    (s.timers l).timers = (w.loop l).timers.timers ∧
      s.started = ((w.loop l).timers.timers.take s.position).filter
        (fun t => (w.loop l).timers.IsDue nowMs t) ∧
      (s.Ended l → s.started =
        (w.loop l).timers.timers.filter fun t => (w.loop l).timers.IsDue nowMs t) := by
  have hs : InStep l nowMs w s := h.invariant
    (by rintro s rfl; exact inStep_start l nowMs w) fun _ _ _ hs hstep => hs.step hdistinct hstep
  refine ⟨hs.timers, hs.started, ?_⟩
  rintro ⟨-, hend⟩
  rw [hs.timers] at hend
  rw [hs.started, List.take_of_length_le (List.getElem?_eq_none_iff.mp hend)]

/-- Two players of one loop, with a reminder each. -/
def twoReminders : World :=
  World.runOps World.calm (World.start 1) [.connect 5 [], .connect 6 []]

/-- The kernel takes nothing any more. -/
def refusing : Environment :=
  { World.calm with send := fun _ => [.error (.other 104)] }

/-- The first reminder closes its session and so removes its own timer, and another callback adds
one.  The second reminder is started all the same, and nothing else. -/
theorem startsDueOnce_twoReminders :
    let s := TransitionSystem.runAll (next refusing (.worker 0) 5000)
      (start (.worker 0) twoReminders)
      [.entry, .call (.worker 0) (.reminderCallback 0 2), .taskEnd, .entry,
        .call (.worker 0) (.addTimer (.worker 0) 0 true 0 (.reminder 1) .fixedInterval), .taskEnd]
    s.started = (twoReminders.loop (.worker 0)).timers.timers ∧
      s.started.map Timer.id = [2, 3] := by
  have hreach : (system refusing (.worker 0) 5000 twoReminders).Reachable
      (TransitionSystem.runAll (next refusing (.worker 0) 5000)
        (start (.worker 0) twoReminders)
        [.entry, .call (.worker 0) (.reminderCallback 0 2), .taskEnd, .entry,
          .call (.worker 0) (.addTimer (.worker 0) 0 true 0 (.reminder 1) .fixedInterval),
          .taskEnd]) :=
    (TransitionSystem.ReachableUnder.init rfl).runAll (fun _ _ _ h => h) (by decide)
  have hstarted := (startsDueOnce ⟨by decide, by decide⟩ hreach).2.2 ⟨by decide, by decide⟩
  exact ⟨hstarted.trans (by decide), by decide⟩

end LoopPass

end Calc24
