import Calc24.Net.TimerPasses

/-!
# Removed timers

A timer that is removed may be started again.  While a pass is going on `removeTimer` only puts the
id on a list, so an entry further on in the pass is started if it is due; and the pending lists are
never cleared, so a timer that was added in a pass comes back at the end of every later one.

A removed timer is not started again if, whenever a timer is removed, it has one entry, is not
waiting to be inserted, and is not due further on in the pass (`removed_silent`).
-/

namespace Calc24

namespace TimerPasses

variable {τ : Type*} {s s' : TimerPasses τ} {l : PassStep τ} {t : Timer τ}

/-- No timer is started that has been removed before. -/
def Silent : List (TimerEvent τ) → Prop
  | [] => True
  | .started t :: log => (∀ t', .removed t' ∈ log → t'.object ≠ t.object) ∧ Silent log
  | .removed _ :: log => Silent log

/-- A timer that is removed has one entry, does not wait to be inserted, and is not due further on
in the pass. -/
def RemovedForGood (s : TimerPasses τ) : PassStep τ → Prop
  | .request (.removeTimer timerID) =>
    timerID ∈ s.thread.timers.ids →
      s.thread.timers.ids.count timerID = 1 ∧
        (∀ t ∈ s.thread.timers.timers, t.id = timerID → t ∉ s.thread.timers.pendingAddTimers) ∧
        ∀ nowMs i, s.pass = some (nowMs, i) → ∀ j t, i ≤ j →
          s.thread.timers.timers[j]? = some t → t.id = timerID →
            ¬ s.thread.timers.IsDue nowMs t
  | _ => True

/-- A removed timer is in `m_timers` at most until the end of the pass, and is not due before. -/
structure Leaving (s : TimerPasses τ) (t : Timer τ) : Prop where
  pendingRemove : t.id ∈ s.thread.timers.pendingRemoveTimers
  once : s.thread.timers.ids.count t.id = 1
  inPass : s.pass.isSome = true
  notDue : ∀ nowMs i, s.pass = some (nowMs, i) → ∀ j, i ≤ j →
    s.thread.timers.timers[j]? = some t → ¬ s.thread.timers.IsDue nowMs t

/-- What holds in runs in which timers are removed for good. -/
structure Quiescent (s : TimerPasses τ) : Prop extends Valid s where
  silent : Silent s.log
  notPending : ∀ t, .removed t ∈ s.log → t ∉ s.thread.timers.pendingAddTimers
  leaving : ∀ t, .removed t ∈ s.log → t ∈ s.thread.timers.timers → s.Leaving t

/-- A removed timer keeps leaving while the pass goes on over the same list and the due time of the
timer stays. -/
lemma Leaving.keep (h : s.Leaving t)
    (htimers : s'.thread.timers.timers = s.thread.timers.timers)
    (hpending : s.thread.timers.pendingRemoveTimers ⊆ s'.thread.timers.pendingRemoveTimers)
    (hdue : s'.thread.timers.nextTriggeredTimeMs t.object =
      s.thread.timers.nextTriggeredTimeMs t.object)
    (hinPass : s'.pass.isSome = true)
    (hpass : ∀ nowMs i', s'.pass = some (nowMs, i') → ∃ i ≤ i', s.pass = some (nowMs, i)) :
    s'.Leaving t := by
  refine ⟨hpending h.pendingRemove, ?_, hinPass, fun nowMs i' hpass' j hj hget => ?_⟩
  · rw [LoopTimers.ids, htimers]
    exact h.once
  · obtain ⟨i, hi, hold⟩ := hpass nowMs i' hpass'
    rw [htimers] at hget
    rw [LoopTimers.IsDue, hdue]
    exact h.notDue nowMs i hold j (hi.trans hj) hget

lemma silent_removals (timers : List (Timer τ)) (r : TimerRequest τ) {log : List (TimerEvent τ)}
    (h : Silent log) : Silent (removals timers r ++ log) := by
  cases r with
  | removeTimer timerID =>
    simp only [removals]
    induction timers.filter fun t => t.id == timerID with
    | nil => exact h
    | cons t timers ih => exact ih
  | _ => exact h

/-! ## The steps of a pass -/

/-- Between two passes no removed timer is in the list. -/
lemma Quiescent.not_mem_of_idle (hs : s.Quiescent) (hidle : s.pass = none)
    (ht : .removed t ∈ s.log) : t ∉ s.thread.timers.timers := by
  intro hmem
  have hpass := (hs.leaving t ht hmem).inPass
  rw [hidle] at hpass
  cases hpass

/-- A pass starts. -/
lemma Quiescent.checkAndDoTimers (hs : s.Quiescent) (hidle : s.pass = none) (nowMs : ℤ)
    (hvalid : Valid { s with
      thread := TimerThread.host.modify (LoopTimers.setIsCheckTimers true) s.thread
      pass := some (nowMs, 0) }) :
    Quiescent { s with
      thread := TimerThread.host.modify (LoopTimers.setIsCheckTimers true) s.thread
      pass := some (nowMs, 0) } where
  toValid := hvalid
  silent := hs.silent
  notPending := hs.notPending
  leaving _ ht hmem := absurd hmem (hs.not_mem_of_idle hidle ht)

/-- The callback of a timer that is due is started: it is not a removed one. -/
lemma Quiescent.start (hs : s.Quiescent) {nowMs : ℤ} {i : ℕ} (hpass : s.pass = some (nowMs, i))
    (ht : s.thread.timers.timers[i]? = some t) (hdue : s.thread.timers.IsDue nowMs t)
    (hvalid : Valid
      { thread := TimerThread.host.modify (LoopTimers.advance t nowMs) s.thread
        pass := some (nowMs, i + 1)
        inTask := true
        log := .started t :: s.log }) :
    Quiescent
      { thread := TimerThread.host.modify (LoopTimers.advance t nowMs) s.thread
        pass := some (nowMs, i + 1)
        inTask := true
        log := .started t :: s.log } := by
  have hmem : t ∈ s.thread.timers.timers := List.mem_of_getElem? ht
  have hne : ∀ t', .removed t' ∈ s.log → t'.object ≠ t.object := by
    intro t' ht' heq
    obtain rfl := hs.owned.eq t' t (Or.inr (Or.inr ht')) (Or.inl (List.mem_append_left _ hmem)) heq
    exact (hs.leaving t' ht' hmem).notDue nowMs i hpass i (le_refl i) ht hdue
  have hlog : ∀ t', .removed t' ∈ TimerEvent.started t :: s.log → .removed t' ∈ s.log := by
    intro t' ht'
    simpa using ht'
  refine ⟨hvalid, ⟨hne, hs.silent⟩, fun t' ht' => hs.notPending t' (hlog t' ht'), ?_⟩
  intro t' ht' hmem'
  -- the callback of another timer does not move the due time of this one
  have hobject := hne t' (hlog t' ht')
  have hsame : ((TimerThread.host.modify (LoopTimers.advance t nowMs)
      s.thread).timers).nextTriggeredTimeMs t'.object =
        s.thread.timers.nextTriggeredTimeMs t'.object :=
    Function.update_of_ne hobject _ _
  apply (hs.leaving t' (hlog t' ht') hmem').keep
  · rfl
  · exact List.Subset.refl _
  · exact hsame
  · rfl
  · intro nowMs' i' hpass'
    cases hpass'
    exact ⟨i, Nat.le_succ i, hpass⟩

/-- An entry that is not due is passed over. -/
lemma Quiescent.skip (hs : s.Quiescent) {nowMs : ℤ} {i : ℕ} (hpass : s.pass = some (nowMs, i))
    (hvalid : Valid { s with pass := some (nowMs, i + 1) }) :
    Quiescent { s with pass := some (nowMs, i + 1) } where
  toValid := hvalid
  silent := hs.silent
  notPending := hs.notPending
  leaving t ht hmem := by
    apply (hs.leaving t ht hmem).keep
    · rfl
    · exact List.Subset.refl _
    · rfl
    · rfl
    · intro nowMs' i' hpass'
      cases hpass'
      exact ⟨i, Nat.le_succ i, hpass⟩

/-- At the end of a pass the removed timers leave the list, and none of them comes back. -/
lemma Quiescent.passEnd (hs : s.Quiescent) (hvalid : Valid { s with
      thread := TimerThread.host.replayPending
        (TimerThread.host.modify (LoopTimers.setIsCheckTimers false) s.thread)
      pass := none }) :
    Quiescent { s with
      thread := TimerThread.host.replayPending
        (TimerThread.host.modify (LoopTimers.setIsCheckTimers false) s.thread)
      pass := none } := by
  have htimers := timers_replayPending
    (TimerThread.host.modify (LoopTimers.setIsCheckTimers false) s.thread) rfl
  refine ⟨hvalid, hs.silent, ?_, ?_⟩
  · intro t ht
    rw [htimers]
    exact hs.notPending t ht
  · intro t ht hmem
    rw [htimers] at hmem
    rcases List.mem_append.mp hmem with hmem | hmem
    · have hold := (LoopTimers.removeAll_sublist _ _).subset hmem
      have hleaving := hs.leaving t ht hold
      have hgone := LoopTimers.not_mem_removeAll hleaving.once.le hleaving.pendingRemove
      exact absurd (List.mem_map_of_mem hmem) hgone
    · exact absurd hmem (hs.notPending t ht)

/-! ## Requests -/

/-- A new timer is none of the removed ones. -/
lemma Quiescent.addTimer (hs : s.Quiescent) (intervalMs : ℤ) (repeated : Bool)
    (repeatedCount : ℤ) (timerTask : τ) (mode : TimerMode) (nowMs : ℤ)
    (hvalid : (s.afterRequest
      (.addTimer intervalMs repeated repeatedCount timerTask mode nowMs)).Valid) :
    (s.afterRequest
      (.addTimer intervalMs repeated repeatedCount timerTask mode nowMs)).Quiescent := by
  set spTimer : Timer τ :=
    ⟨s.thread.objects, s.thread.baseID + 1, intervalMs, repeated, repeatedCount, timerTask, mode⟩
    with hspTimer
  have hold : ∀ t, .removed t ∈ s.log → t.object < s.thread.objects :=
    fun t ht => hs.owned.object_lt t (Or.inr (Or.inr ht))
  have hnew : ∀ t, .removed t ∈ s.log → t ≠ spTimer := by
    rintro t ht rfl
    exact absurd (hold _ ht) (lt_irrefl _)
  have hthread : (s.afterRequest
      (.addTimer intervalMs repeated repeatedCount timerTask mode nowMs)).thread.timers =
        (s.thread.timers.construct s.thread.objects (nowMs + intervalMs)).addTimerInternal spTimer :=
    rfl
  have hchecking : (s.thread.timers.construct s.thread.objects
      (nowMs + intervalMs)).isCheckTimers = s.pass.isSome := hs.checking
  cases hpass : s.pass with
  | none =>
    rw [hpass] at hchecking
    rw [LoopTimers.addTimerInternal_of_idle hchecking] at hthread
    refine ⟨hvalid, hs.silent, ?_, ?_⟩
    · intro t ht
      rw [hthread]
      exact hs.notPending t ht
    · intro t ht hmem
      rw [hthread] at hmem
      rcases List.mem_append.mp hmem with hmem | hmem
      · exact absurd hmem (hs.not_mem_of_idle hpass ht)
      · exact absurd (List.mem_singleton.mp hmem) (hnew t ht)
  | some position =>
    rw [hpass] at hchecking
    rw [LoopTimers.addTimerInternal_of_checking hchecking] at hthread
    refine ⟨hvalid, hs.silent, ?_, ?_⟩
    · intro t ht hmem
      rw [hthread] at hmem
      rcases List.mem_append.mp hmem with hmem | hmem
      · exact hs.notPending t ht hmem
      · exact hnew t ht (List.mem_singleton.mp hmem)
    · intro t ht hmem
      rw [hthread] at hmem
      have hleaving := hs.leaving t ht hmem
      apply hleaving.keep
      · rw [hthread]
        rfl
      · rw [hthread]
        exact List.Subset.refl _
      · rw [hthread]
        exact Function.update_of_ne (hold t ht).ne _ _
      · exact hleaving.inPass
      · exact fun nowMs' i hpass' => ⟨i, le_refl i, hpass'⟩

/-- A timer is removed for good. -/
lemma Quiescent.removeTimer (hs : s.Quiescent) (timerID : Int64)
    (hguard : s.RemovedForGood (.request (.removeTimer timerID)))
    (hvalid : (s.afterRequest (.removeTimer timerID)).Valid) :
    (s.afterRequest (.removeTimer timerID)).Quiescent := by
  have hthread : (s.afterRequest (.removeTimer timerID)).thread.timers =
      s.thread.timers.removeTimerInternal timerID := rfl
  have hlog : ∀ t, .removed t ∈ (s.afterRequest (.removeTimer timerID)).log →
      t.id = timerID ∧ t ∈ s.thread.timers.timers ∧ timerID ∈ s.thread.timers.ids ∨
        .removed t ∈ s.log := by
    intro t ht
    rcases removed_mem_removals_append.mp ht with ⟨heq, hmem⟩ | hold
    · cases heq
      exact Or.inl ⟨rfl, hmem, List.mem_map_of_mem hmem⟩
    · exact Or.inr hold
  have hshrinks := LoopTimers.shrinks_removeTimerInternal s.thread.timers timerID
  refine ⟨hvalid, silent_removals _ _ hs.silent, ?_, ?_⟩
  · intro t ht
    rw [hthread, hshrinks.pendingAddTimers]
    rcases hlog t ht with ⟨hid, hmem, hids⟩ | hold
    · exact (hguard hids).2.1 t hmem hid
    · exact hs.notPending t hold
  · intro t ht hmem
    rw [hthread] at hmem
    rcases hlog t ht with ⟨hid, -, hids⟩ | hold
    · -- the only entry with the id is left only to go at the end of the pass
      obtain ⟨honce, -, hnotDue⟩ := hguard hids
      obtain ⟨hchecking, hpending⟩ :=
        LoopTimers.pending_of_mem_removeTimerInternal honce.le hmem hid
      refine ⟨?_, ?_, ?_, ?_⟩
      · rw [hthread, hid]
        exact hpending
      · rw [hthread, hid, LoopTimers.removeTimerInternal_of_checking hchecking]
        exact honce
      · exact hs.checking ▸ hchecking
      · intro nowMs i hpass j hj hget
        rw [hthread, LoopTimers.removeTimerInternal_of_checking hchecking] at hget ⊢
        exact hnotDue nowMs i hpass j t hj hget hid
    · -- what was leaving before is in a pass that goes on over the same list
      have hleaving := hs.leaving t hold (hshrinks.timers.subset hmem)
      have hchecking := hs.checking.trans hleaving.inPass
      rw [LoopTimers.removeTimerInternal_of_checking hchecking] at hthread
      apply hleaving.keep
      · rw [hthread]
      · rw [hthread]
        exact List.subset_append_left _ _
      · rw [hthread]
      · exact hleaving.inPass
      · exact fun nowMs i hpass => ⟨i, le_refl i, hpass⟩

/-! ## Whole runs -/

/-- Every step that removes timers for good keeps it. -/
lemma Quiescent.step (hs : s.Quiescent) (hguard : s.RemovedForGood l) (h : system.step s l s') :
    s'.Quiescent := by
  have hvalid := hs.toValid.step h
  rcases step_cases h with ⟨r, rfl, hallowed, rfl⟩ | ⟨nowMs, -, hidle, rfl⟩ |
    ⟨nowMs, i, t, -, hpass, htask, ht, hdue, rfl⟩ | ⟨nowMs, i, t, -, hpass, htask, ht, hdue, rfl⟩ |
    ⟨-, htask, rfl⟩ | ⟨nowMs, i, -, hpass, htask, hend, rfl⟩
  · cases r with
    | addTimer intervalMs repeated repeatedCount timerTask mode nowMs =>
      exact hs.addTimer intervalMs repeated repeatedCount timerTask mode nowMs hvalid
    | removeTimer timerID => exact hs.removeTimer timerID hguard hvalid
    | constructedElsewhere n =>
      refine ⟨hvalid, hs.silent, hs.notPending, fun t ht hmem => ?_⟩
      have hleaving := hs.leaving t ht hmem
      exact hleaving.keep rfl (List.Subset.refl _) rfl hleaving.inPass
        fun nowMs i hpass => ⟨i, le_refl i, hpass⟩
  · exact hs.checkAndDoTimers hidle nowMs hvalid
  · exact hs.start hpass ht hdue hvalid
  · exact hs.skip hpass hvalid
  · refine ⟨hvalid, hs.silent, hs.notPending, fun t ht hmem => ?_⟩
    have hleaving := hs.leaving t ht hmem
    exact hleaving.keep rfl (List.Subset.refl _) rfl hleaving.inPass
      fun nowMs i hpass => ⟨i, le_refl i, hpass⟩
  · exact hs.passEnd hvalid

/-- Nothing is in the log at the start. -/
lemma quiescent_of_init (h : system.init s) : s.Quiescent := by
  have hvalid := valid_of_init h
  have hlog : s.log = [] := h.2.2.1
  have hnone : ∀ t, ¬ .removed t ∈ s.log := by
    rw [hlog]
    exact fun t => List.not_mem_nil
  refine ⟨hvalid, ?_, fun t ht => absurd ht (hnone t), fun t ht => absurd ht (hnone t)⟩
  rw [hlog]
  trivial

/-- **A removed timer is not started again** in a run in which each timer that is removed has one
entry, does not wait to be inserted, and is not due further on in the pass. -/
theorem removed_silent (hreach : system.ReachableUnder RemovedForGood s) : Silent s.log :=
  (hreach.invariant (P := Quiescent) (fun _ h => quiescent_of_init h)
    fun _ _ _ hs hguard h => hs.step hguard h).silent

/-- A timer runs once and is removed between two passes. -/
theorem removed_silent_between_passes :
    Silent (TransitionSystem.runAll next fresh [.request TimerThread.everyFiveSeconds,
      .checkAndDoTimers 5000, .entry, .taskEnd, .passEnd, .request (.removeTimer 1),
      .checkAndDoTimers 10000, .passEnd]).log := by
  have hguard : RemovedForGood (TransitionSystem.runAll next fresh
      [.request TimerThread.everyFiveSeconds, .checkAndDoTimers 5000, .entry, .taskEnd, .passEnd])
      (.request (.removeTimer 1)) := by
    intro _
    have hnone : ∀ t, t ∉ ([] : List (Timer Unit)) := fun t => List.not_mem_nil
    exact ⟨by decide, fun t _ _ => hnone t, fun _ _ hpass => absurd hpass.symm (Option.some_ne_none _)⟩
  exact removed_silent (.step (.step (.step (.step (.step (.step (.step (.step (.init init_fresh)
    (l := .request TimerThread.everyFiveSeconds) trivial rfl) (l := .checkAndDoTimers 5000) trivial
    rfl) (l := .entry) trivial rfl) (l := .taskEnd) trivial rfl) (l := .passEnd) trivial rfl)
    (l := .request (.removeTimer 1)) hguard rfl) (l := .checkAndDoTimers 10000) trivial rfl)
    (l := .passEnd) trivial rfl)

/-- Two timers are due, and the callback of the first one removes the second one. -/
theorem exists_removed_started :
    ¬ ∀ s : TimerPasses Unit, system.Reachable s → Silent s.log := by
  intro h
  have hreach : system.Reachable (TransitionSystem.runAll next fresh
      [.request TimerThread.everyFiveSeconds, .request TimerThread.everyFiveSeconds,
        .checkAndDoTimers 5000, .entry, .request (.removeTimer 2), .taskEnd, .entry]) :=
    TransitionSystem.ReachableUnder.runAll (fun _ _ _ h => h) (.init init_fresh) rfl
  have hsilent := (h _ hreach).1
  exact hsilent _ List.mem_cons_self rfl

end TimerPasses

end Calc24
