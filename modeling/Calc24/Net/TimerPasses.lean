import Calc24.Net.TimerSet

/-!
# Timer passes, one entry at a time

`EventLoop::checkAndDoTimers` with all that its callbacks may do in between: a pass is a sequence
of small steps, the requests of a callback being steps of their own, and any number of passes and
of requests outside a pass follow each other.  A log records which timers were started and which
were removed while they were in `m_timers`.

The passes of `TimerThread.Call` are sequences of these steps (`reaches_checkAndDoTimers`), and in
every run an address belongs to one timer (`Valid.step`).
-/

namespace Calc24

/-- What is recorded: the callback of a timer is started, or a timer in the list is removed. -/
inductive TimerEvent (τ : Type*)
  | started (t : Timer τ)
  | removed (t : Timer τ)

/-- The timers of a loop and the pass that is going on: its clock reading and the position of the
iterator, and whether a callback is running.  The log is a ghost, the latest event first. -/
structure TimerPasses (τ : Type*) where
  thread : TimerThread τ
  pass : Option (ℤ × ℕ)
  inTask : Bool
  log : List (TimerEvent τ)

/-- A request, the start of a pass, its next entry, the end of a callback and the end of a pass. -/
inductive PassStep (τ : Type*)
  | request (r : TimerRequest τ)
  | checkAndDoTimers (nowMs : ℤ)
  | entry
  | taskEnd
  | passEnd

namespace TimerPasses

variable {τ : Type*}

/-- What a request adds to the log: the entries that a removal is about. -/
def removals (timers : List (Timer τ)) : TimerRequest τ → List (TimerEvent τ)
  | .removeTimer timerID => (timers.filter fun t => t.id == timerID).map .removed
  | _ => []

/-- The state after a request. -/
def afterRequest (s : TimerPasses τ) (r : TimerRequest τ) : TimerPasses τ :=
  { s with
    thread := s.thread.perform r
    log := removals s.thread.timers.timers r ++ s.log }

/-- One step, where it is possible. -/
def next (s : TimerPasses τ) : PassStep τ → Option (TimerPasses τ)
  | .request r =>
    if s.pass = none ∨ s.inTask = true then some (s.afterRequest r) else none
  | .checkAndDoTimers nowMs =>
    if s.pass = none then
      some { s with
        thread := TimerThread.host.modify (LoopTimers.setIsCheckTimers true) s.thread
        pass := some (nowMs, 0) }
    else none
  | .entry =>
    match s.pass, s.inTask with
    | some (nowMs, i), false =>
      match s.thread.timers.timers[i]? with
      | none => none
      | some t =>
        if s.thread.timers.IsDue nowMs t then
          -- `doTimer` sets the next due time and calls the callback
          some
            { thread := TimerThread.host.modify (LoopTimers.advance t nowMs) s.thread
              pass := some (nowMs, i + 1)
              inTask := true
              log := .started t :: s.log }
        else some { s with pass := some (nowMs, i + 1) }
    | _, _ => none
  | .taskEnd => if s.inTask = true then some { s with inTask := false } else none
  | .passEnd =>
    match s.pass, s.inTask with
    | some (_, i), false =>
      match s.thread.timers.timers[i]? with
      | some _ => none
      | none =>
        some { s with
          thread := TimerThread.host.replayPending
            (TimerThread.host.modify (LoopTimers.setIsCheckTimers false) s.thread)
          pass := none }
    | _, _ => none

/-- The timers that are in one of the lists or in the log. -/
def Known (s : TimerPasses τ) (t : Timer τ) : Prop :=
  t ∈ s.thread.timers.entries ∨ TimerEvent.started t ∈ s.log ∨ TimerEvent.removed t ∈ s.log

/-- An address belongs to one timer, and the addresses still to be given out to none. -/
structure Owned (s : TimerPasses τ) : Prop where
  object_lt : ∀ t, s.Known t → t.object < s.thread.objects
  eq : ∀ t t', s.Known t → s.Known t' → t.object = t'.object → t = t'

/-- The runs of a loop with any timers, and any requests already pending, that is between two
passes. -/
def system : TransitionSystem (TimerPasses τ) (PassStep τ) where
  init s := s.pass = none ∧ s.inTask = false ∧ s.log = [] ∧
    s.thread.timers.isCheckTimers = false ∧ s.Owned
  step s l s' := s.next l = some s'

/-! ## Steps -/

variable {s s' : TimerPasses τ} {l : PassStep τ} {t : Timer τ}

/-- The steps as what they do to the state. -/
lemma step_cases (h : system.step s l s') :
    (∃ r, l = .request r ∧ (s.pass = none ∨ s.inTask = true) ∧
      s' = s.afterRequest r) ∨
    (∃ nowMs, l = .checkAndDoTimers nowMs ∧ s.pass = none ∧
      s' = { s with
        thread := TimerThread.host.modify (LoopTimers.setIsCheckTimers true) s.thread
        pass := some (nowMs, 0) }) ∨
    (∃ nowMs i t, l = .entry ∧ s.pass = some (nowMs, i) ∧ s.inTask = false ∧
      s.thread.timers.timers[i]? = some t ∧ s.thread.timers.IsDue nowMs t ∧
      s' =
        { thread := TimerThread.host.modify (LoopTimers.advance t nowMs) s.thread
          pass := some (nowMs, i + 1)
          inTask := true
          log := .started t :: s.log }) ∨
    (∃ nowMs i t, l = .entry ∧ s.pass = some (nowMs, i) ∧ s.inTask = false ∧
      s.thread.timers.timers[i]? = some t ∧ ¬ s.thread.timers.IsDue nowMs t ∧
      s' = { s with pass := some (nowMs, i + 1) }) ∨
    (l = .taskEnd ∧ s.inTask = true ∧ s' = { s with inTask := false }) ∨
    (∃ nowMs i, l = .passEnd ∧ s.pass = some (nowMs, i) ∧ s.inTask = false ∧
      s.thread.timers.timers[i]? = none ∧
      s' = { s with
        thread := TimerThread.host.replayPending
          (TimerThread.host.modify (LoopTimers.setIsCheckTimers false) s.thread)
        pass := none }) := by
  cases l with
  | request r =>
    obtain ⟨hallowed, heq⟩ := Option.ite_none_right_eq_some.mp h
    exact Or.inl ⟨r, rfl, hallowed, (Option.some.inj heq).symm⟩
  | checkAndDoTimers nowMs =>
    obtain ⟨hidle, heq⟩ := Option.ite_none_right_eq_some.mp h
    exact Or.inr (Or.inl ⟨nowMs, rfl, hidle, (Option.some.inj heq).symm⟩)
  | entry =>
    simp only [system, next] at h
    split at h
    · next nowMs i hpass htask =>
      split at h
      · cases h
      · next t ht =>
        split at h
        · next hdue =>
          exact Or.inr (Or.inr (Or.inl ⟨nowMs, i, t, rfl, hpass, htask, ht, hdue,
            (Option.some.inj h).symm⟩))
        · next hdue =>
          exact Or.inr (Or.inr (Or.inr (Or.inl ⟨nowMs, i, t, rfl, hpass, htask, ht, hdue,
            (Option.some.inj h).symm⟩)))
    · cases h
  | taskEnd =>
    obtain ⟨htask, heq⟩ := Option.ite_none_right_eq_some.mp h
    exact Or.inr (Or.inr (Or.inr (Or.inr (Or.inl ⟨rfl, htask, (Option.some.inj heq).symm⟩))))
  | passEnd =>
    simp only [system, next] at h
    split at h
    · next nowMs i hpass htask =>
      split at h
      · cases h
      · next hend =>
        exact Or.inr (Or.inr (Or.inr (Or.inr (Or.inr ⟨nowMs, i, rfl, hpass, htask, hend,
          (Option.some.inj h).symm⟩))))
    · cases h

/-- What `m_timers` is when a pass has ended. -/
lemma timers_replayPending (x : TimerThread τ) (hidle : x.timers.isCheckTimers = false) :
    (TimerThread.host.replayPending x).timers = { x.timers with
      timers := LoopTimers.removeAll x.timers.pendingRemoveTimers x.timers.timers ++
        x.timers.pendingAddTimers } :=
  TimerThread.host.get_replayPending x hidle

/-- The end of a pass moves no due time. -/
lemma due_passEnd (x : TimerThread τ) (object : ℕ) :
    (TimerThread.host.replayPending (TimerThread.host.modify
      (LoopTimers.setIsCheckTimers false) x)).timers.nextTriggeredTimeMs object =
        x.timers.nextTriggeredTimeMs object := by
  rw [timers_replayPending _ rfl]
  rfl

/-- What was put off constructs no timer. -/
lemma objects_replayPending (x : TimerThread τ) (hidle : x.timers.isCheckTimers = false) :
    (TimerThread.host.replayPending x).objects = x.objects := by
  refine (TimerThread.host.replayPending_invariant
    (I := fun y => y.objects = x.objects ∧ y.timers.isCheckTimers = false)
    (fun y hy => hy.2) ?_ ?_ x ⟨rfl, hidle⟩).1
  · rintro timerID y ⟨hobjects, hy⟩
    exact ⟨hobjects, LoopTimers.removeTimerInternal_isCheckTimers.trans hy⟩
  · rintro spTimer y ⟨hobjects, hy⟩ -
    exact ⟨hobjects, LoopTimers.addTimerInternal_isCheckTimers.trans hy⟩

/-- What is known when a pass ends: the entries that are left and those that were waiting. -/
lemma entries_replayPending_subset (x : TimerThread τ) (hidle : x.timers.isCheckTimers = false) :
    (TimerThread.host.replayPending x).timers.entries ⊆ x.timers.entries := by
  rw [timers_replayPending x hidle]
  intro t ht
  simp only [LoopTimers.entries, List.mem_append] at ht ⊢
  rcases ht with (ht | ht) | ht
  · exact Or.inl ((LoopTimers.removeAll_sublist _ _).subset ht)
  · exact Or.inr ht
  · exact Or.inr ht

lemma started_mem_removals_append {r : TimerRequest τ} {timers : List (Timer τ)}
    {log : List (TimerEvent τ)} : .started t ∈ removals timers r ++ log ↔ .started t ∈ log := by
  cases r <;> simp [removals]

/-- What is recorded as removed was in the list under the id. -/
lemma removed_mem_removals_append {r : TimerRequest τ} {timers : List (Timer τ)}
    {log : List (TimerEvent τ)} : .removed t ∈ removals timers r ++ log ↔
      (r = .removeTimer t.id ∧ t ∈ timers) ∨ .removed t ∈ log := by
  cases r with
  | removeTimer timerID =>
    simp only [removals, List.mem_append, List.mem_map, List.mem_filter, beq_iff_eq,
      TimerEvent.removed.injEq, exists_eq_right, TimerRequest.removeTimer.injEq, eq_comm (a := t.id)]
    tauto
  | _ => simp [removals]

/-- A request makes known the timer that it constructs, if it does, and no other. -/
lemma known_of_request (s : TimerPasses τ) (r : TimerRequest τ) :
    (∀ t, (s.afterRequest r).Known t → s.Known t) ∧
        s.thread.objects ≤ (s.afterRequest r).thread.objects ∨
      ∃ spTimer : Timer τ, spTimer.object = s.thread.objects ∧
        (s.afterRequest r).thread.objects = s.thread.objects + 1 ∧
        ∀ t, (s.afterRequest r).Known t → s.Known t ∨ t = spTimer := by
  cases r with
  | addTimer intervalMs repeated repeatedCount timerTask mode nowMs =>
    refine Or.inr ⟨⟨s.thread.objects, s.thread.baseID + 1, intervalMs, repeated, repeatedCount,
      timerTask, mode⟩, rfl, rfl, ?_⟩
    rintro t (ht | ht)
    · rcases LoopTimers.mem_entries_addTimerInternal.mp ht with hold | rfl
      · exact Or.inl (Or.inl hold)
      · exact Or.inr rfl
    · exact Or.inl (Or.inr ht)
  | removeTimer timerID =>
    refine Or.inl ⟨?_, le_refl _⟩
    rintro t (ht | ht | ht)
    · exact Or.inl (LoopTimers.entries_removeTimerInternal_subset ht)
    · exact Or.inr (Or.inl (started_mem_removals_append.mp ht))
    · rcases removed_mem_removals_append.mp ht with ⟨-, hmem⟩ | hlog
      · exact Or.inl (List.mem_append_left _ hmem)
      · exact Or.inr (Or.inr hlog)
  | constructedElsewhere n => exact Or.inl ⟨fun t ht => ht, Nat.le_add_right _ _⟩

/-- So does a step of any kind. -/
lemma known_of_step (h : system.step s l s') :
    (∀ t, s'.Known t → s.Known t) ∧ s.thread.objects ≤ s'.thread.objects ∨
      ∃ spTimer : Timer τ, spTimer.object = s.thread.objects ∧
        s'.thread.objects = s.thread.objects + 1 ∧ ∀ t, s'.Known t → s.Known t ∨ t = spTimer := by
  rcases step_cases h with ⟨r, -, -, rfl⟩ | ⟨nowMs, -, -, rfl⟩ | ⟨nowMs, i, t, -, -, -, ht, -, rfl⟩ |
    ⟨nowMs, i, t, -, -, -, -, -, rfl⟩ | ⟨-, -, rfl⟩ | ⟨nowMs, i, -, -, -, -, rfl⟩
  · exact known_of_request s r
  · exact Or.inl ⟨fun t ht => ht, le_refl _⟩
  · refine Or.inl ⟨?_, le_refl _⟩
    rintro t' (ht' | ht' | ht')
    · exact Or.inl ht'
    · rcases List.mem_cons.mp ht' with heq | ht'
      · cases heq
        exact Or.inl (List.mem_append_left _ (List.mem_of_getElem? ht))
      · exact Or.inr (Or.inl ht')
    · right; right
      simpa using ht'
  · exact Or.inl ⟨fun t ht => ht, le_refl _⟩
  · exact Or.inl ⟨fun t ht => ht, le_refl _⟩
  · have hidle : ((TimerThread.host.modify (LoopTimers.setIsCheckTimers false)
        s.thread).timers).isCheckTimers = false := rfl
    refine Or.inl ⟨?_, (objects_replayPending _ hidle).ge⟩
    rintro t (ht | ht)
    · exact Or.inl (entries_replayPending_subset _ hidle ht)
    · exact Or.inr ht

/-- Every step leaves a timer its address. -/
lemma Owned.step (h : s.Owned) (hstep : system.step s l s') : s'.Owned := by
  rcases known_of_step hstep with ⟨hknown, hobjects⟩ | ⟨spTimer, hobject, hobjects, hknown⟩
  · exact ⟨fun t ht => (h.object_lt t (hknown t ht)).trans_le hobjects,
      fun t t' ht ht' => h.eq t t' (hknown t ht) (hknown t' ht')⟩
  · constructor
    · intro t ht
      rw [hobjects]
      rcases hknown t ht with hold | rfl
      · exact (h.object_lt t hold).trans (Nat.lt_succ_self _)
      · exact hobject ▸ Nat.lt_succ_self _
    · intro t t' ht ht' heq
      rcases hknown t ht with hold | rfl <;> rcases hknown t' ht' with hold' | rfl
      · exact h.eq t t' hold hold' heq
      · have hlt := h.object_lt t hold
        omega
      · have hlt := h.object_lt t' hold'
        omega
      · rfl

/-- What holds between two steps: a pass is going on exactly if the flag says so, and callbacks
run in a pass. -/
structure Valid (s : TimerPasses τ) : Prop where
  owned : s.Owned
  checking : s.thread.timers.isCheckTimers = s.pass.isSome
  inTask : s.inTask = true → s.pass.isSome = true

/-- Every step keeps it. -/
lemma Valid.step (hs : s.Valid) (h : system.step s l s') : s'.Valid := by
  have howned := hs.owned.step h
  have hchecking := hs.checking
  rcases step_cases h with ⟨r, -, hallowed, rfl⟩ | ⟨nowMs, -, hidle, rfl⟩ |
    ⟨nowMs, i, t, -, hpass, htask, ht, hdue, rfl⟩ | ⟨nowMs, i, t, -, hpass, htask, ht, hdue, rfl⟩ |
    ⟨-, htask, rfl⟩ | ⟨nowMs, i, -, hpass, htask, hend, rfl⟩
  · exact ⟨howned, (TimerThread.perform_isCheckTimers r).trans hchecking, hs.inTask⟩
  · exact ⟨howned, rfl, fun _ => rfl⟩
  · rw [hpass] at hchecking
    exact ⟨howned, hchecking, fun _ => rfl⟩
  · rw [hpass] at hchecking
    exact ⟨howned, hchecking, fun _ => rfl⟩
  · exact ⟨howned, hchecking, fun hfalse => by cases hfalse⟩
  · refine ⟨howned, ?_, fun htrue => ?_⟩
    · exact congrArg LoopTimers.isCheckTimers (timers_replayPending _ rfl)
    · rw [htask] at htrue
      cases htrue

/-- A run starts between two passes. -/
lemma valid_of_init (h : system.init s) : s.Valid := by
  obtain ⟨hpass, htask, -, hidle, howned⟩ := h
  refine ⟨howned, ?_, ?_⟩
  · rw [hidle, hpass]
    rfl
  · rw [htask]
    exact fun hfalse => by cases hfalse

/-! ## The passes of `checkAndDoTimers` -/

/-- A sequence of steps leads from one state to the other. -/
def Reaches (s s' : TimerPasses τ) : Prop :=
  Relation.ReflTransGen (fun s s' => ∃ l, system.step s l s') s s'

/-- Inside a pass a request leaves `m_timers` alone. -/
lemma perform_timers_of_checking {x : TimerThread τ} (h : x.timers.isCheckTimers = true)
    (r : TimerRequest τ) : (x.perform r).timers.timers = x.timers.timers := by
  cases r with
  | addTimer intervalMs repeated repeatedCount timerTask mode nowMs =>
    simp only [TimerThread.perform]
    rw [LoopTimers.addTimerInternal_of_checking (by exact h)]
    rfl
  | removeTimer timerID =>
    simp only [TimerThread.perform]
    rw [LoopTimers.removeTimerInternal_of_checking h]
  | constructedElsewhere n => rfl

/-- The requests of a callback. -/
lemma reaches_requests (rs : List (TimerRequest τ)) (s : TimerPasses τ) (htask : s.inTask = true)
    (hcheck : s.thread.timers.isCheckTimers = true) :
    ∃ s', Reaches s s' ∧ s'.pass = s.pass ∧ s'.inTask = true ∧
      s'.thread = rs.foldl TimerThread.perform s.thread ∧
      s'.thread.timers.timers = s.thread.timers.timers ∧
      s'.thread.timers.isCheckTimers = true := by
  induction rs generalizing s with
  | nil => exact ⟨s, .refl, rfl, htask, rfl, rfl, hcheck⟩
  | cons r rs ih =>
    have hstep : system.step s (.request r) (s.afterRequest r) := if_pos (Or.inr htask)
    obtain ⟨s', hreach, hpass, htask', hthread, htimers, hcheck'⟩ := ih (s.afterRequest r) htask
      ((TimerThread.perform_isCheckTimers r).trans hcheck)
    exact ⟨s', .head ⟨_, hstep⟩ hreach, hpass, htask', hthread,
      htimers.trans (perform_timers_of_checking hcheck r), hcheck'⟩

/-- The loop over the entries. -/
lemma reaches_visit (nowMs : ℤ) (callback : ℕ → List (TimerRequest τ)) (rounds i : ℕ)
    (s : TimerPasses τ) (hpass : s.pass = some (nowMs, i)) (htask : s.inTask = false)
    (hcheck : s.thread.timers.isCheckTimers = true)
    (hrounds : s.thread.timers.timers.length = i + rounds) :
    ∃ s' j, Reaches s s' ∧ s'.pass = some (nowMs, j) ∧ s'.inTask = false ∧
      s'.thread = TimerThread.visit nowMs callback rounds i s.thread ∧
      s'.thread.timers.timers[j]? = none := by
  induction rounds generalizing i s with
  | zero =>
    exact ⟨s, i, .refl, hpass, htask, rfl, List.getElem?_eq_none (by omega)⟩
  | succ rounds ih =>
    have hlt : i < s.thread.timers.timers.length := by omega
    have hget : s.thread.timers.timers[i]? = some s.thread.timers.timers[i] :=
      List.getElem?_eq_getElem hlt
    set t := s.thread.timers.timers[i] with ht
    by_cases hdue : s.thread.timers.IsDue nowMs t
    · -- the callback is started, issues its requests and ends
      set s₁ : TimerPasses τ :=
        { thread := TimerThread.host.modify (LoopTimers.advance t nowMs) s.thread
          pass := some (nowMs, i + 1)
          inTask := true
          log := .started t :: s.log } with hs₁
      have hstart : system.step s .entry s₁ := by
        simp only [system, next, hpass, htask, hget, if_pos hdue, hs₁]
      obtain ⟨s₂, hreach, hpass₂, htask₂, hthread₂, htimers₂, hcheck₂⟩ :=
        reaches_requests (callback i) s₁ rfl hcheck
      have hend : system.step s₂ .taskEnd { s₂ with inTask := false } := if_pos htask₂
      have hlength : s₂.thread.timers.timers.length = i + 1 + rounds := by
        rw [htimers₂]
        change s.thread.timers.timers.length = i + 1 + rounds
        omega
      obtain ⟨s', j, hreach', hpass', htask', hthread', hnone⟩ :=
        ih (i + 1) { s₂ with inTask := false } hpass₂ rfl hcheck₂ hlength
      refine ⟨s', j, ?_, hpass', htask', ?_, hnone⟩
      · exact .head ⟨_, hstart⟩ (hreach.trans (.head ⟨_, hend⟩ hreach'))
      · have hget' : (TimerThread.host.get s.thread).timers[i]? = some t := hget
        have hdue' : (TimerThread.host.get s.thread).IsDue nowMs t := hdue
        rw [hthread', hthread₂, TimerThread.visit, TimerHost.visit, hget']
        simp only [if_pos hdue']
        rfl
    · have hskip : system.step s .entry { s with pass := some (nowMs, i + 1) } := by
        simp only [system, next, hpass, htask, hget, if_neg hdue]
      have hlength : s.thread.timers.timers.length = i + 1 + rounds := by omega
      obtain ⟨s', j, hreach', hpass', htask', hthread', hnone⟩ :=
        ih (i + 1) { s with pass := some (nowMs, i + 1) } rfl htask hcheck hlength
      refine ⟨s', j, .head ⟨_, hskip⟩ hreach', hpass', htask', ?_, hnone⟩
      have hget' : (TimerThread.host.get s.thread).timers[i]? = some t := hget
      have hdue' : ¬ (TimerThread.host.get s.thread).IsDue nowMs t := hdue
      rw [hthread', TimerThread.visit, TimerHost.visit, hget']
      simp only [if_neg hdue']

/-- **A pass is a sequence of these steps**, whatever its callbacks request. -/
theorem reaches_checkAndDoTimers (nowMs : ℤ) (callback : ℕ → List (TimerRequest τ))
    (s : TimerPasses τ) (hpass : s.pass = none) (htask : s.inTask = false) :
    ∃ s', Reaches s s' ∧ s'.pass = none ∧ s'.inTask = false ∧
      s'.thread = (TimerThread.Call.checkAndDoTimers nowMs callback).perform s.thread := by
  set s₁ : TimerPasses τ :=
    { s with
      thread := TimerThread.host.modify (LoopTimers.setIsCheckTimers true) s.thread
      pass := some (nowMs, 0) } with hs₁
  have hstart : system.step s (.checkAndDoTimers nowMs) s₁ := if_pos hpass
  obtain ⟨s₂, j, hreach, hpass₂, htask₂, hthread₂, hnone⟩ :=
    reaches_visit nowMs callback s₁.thread.timers.timers.length 0 s₁ rfl htask rfl
      (Nat.zero_add _).symm
  set s₃ : TimerPasses τ :=
    { s₂ with
      thread := TimerThread.host.replayPending
        (TimerThread.host.modify (LoopTimers.setIsCheckTimers false) s₂.thread)
      pass := none } with hs₃
  have hend : system.step s₂ .passEnd s₃ := by
    simp only [system, next, hpass₂, htask₂, hnone, hs₃]
  refine ⟨s₃, .head ⟨_, hstart⟩ (hreach.trans (.single ⟨_, hend⟩)), rfl, htask₂, ?_⟩
  simp only [hs₃, hthread₂]
  rfl

/-- A loop before its first timer. -/
def fresh : TimerPasses Unit where
  thread := TimerThread.fresh
  pass := none
  inTask := false
  log := []

lemma init_fresh : system.init fresh := by
  have hnone : ∀ t, ¬ fresh.Known t := by
    rintro t (ht | ht | ht) <;> cases ht
  exact ⟨rfl, rfl, rfl, rfl, fun t ht => absurd ht (hnone t), fun t _ ht => absurd ht (hnone t)⟩

end TimerPasses

end Calc24
