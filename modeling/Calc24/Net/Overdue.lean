import Calc24.Net.FiringTimes

/-!
# Overdue timers

A pass comes to each entry of `m_timers` once and calls the callback at most once there, although
the comments of `Timer::doTimer` and `EventLoop::checkAndDoTimers` say that a timer in
fixed-interval mode that has fallen behind is to be called until it has caught up.

In fixed-delay mode one call is enough.  In fixed-interval mode a timer has caught up after a pass
exactly if it was behind by less than an interval for each of its entries (`caughtUp_iff`).
-/

namespace Calc24

namespace Timer

variable {τ : Type*} {t : Timer τ}

/-- How often a pass has to start a repeated timer: in fixed-interval mode once for each interval
that it is behind. -/
def owed (t : Timer τ) (nowMs due : ℤ) : ℕ :=
  if due ≤ nowMs then
    match t.mode with
    | .fixedInterval => ((nowMs - due) / t.intervalMs).toNat + 1
    | .fixedDelay => 1
  else 0

/-- A pass whose clock reading is before the due time does nothing. -/
lemma dueAfter_replicate_of_lt {nowMs due : ℤ} (h : nowMs < due) (n : ℕ) :
    t.dueAfter due (List.replicate n nowMs) = due ∧
      t.timesDue due (List.replicate n nowMs) = 0 := by
  induction n with
  | zero => exact ⟨rfl, rfl⟩
  | succ n ih =>
    rw [List.replicate_succ, dueAfter, timesDue, if_neg h.not_ge, if_neg h.not_ge]
    exact ih

/-- In fixed-delay mode one visit is enough. -/
lemma dueAfter_replicate_fixedDelay (hrepeated : t.repeated = true) (hmode : t.mode = .fixedDelay)
    (hinterval : 0 < t.intervalMs) (nowMs due : ℤ) {n : ℕ} (hn : 0 < n) :
    nowMs < t.dueAfter due (List.replicate n nowMs) ∧
      t.timesDue due (List.replicate n nowMs) = t.owed nowMs due := by
  obtain ⟨n, rfl⟩ := Nat.exists_eq_succ_of_ne_zero hn.ne'
  by_cases hdue : due ≤ nowMs
  · have hlater : nowMs < t.nextDue nowMs due := by
      rw [nextDue_fixedDelay hrepeated hmode]
      omega
    obtain ⟨hsame, hnone⟩ := dueAfter_replicate_of_lt (t := t) hlater n
    rw [List.replicate_succ, dueAfter, timesDue, if_pos hdue, if_pos hdue, hsame, hnone]
    exact ⟨hlater, by simp [owed, hdue, hmode]⟩
  · obtain ⟨hsame, hnone⟩ := dueAfter_replicate_of_lt (t := t) (not_le.mp hdue) (n + 1)
    rw [hsame, hnone]
    exact ⟨not_le.mp hdue, by simp [owed, hdue]⟩

/-- A start makes up for one interval. -/
lemma owed_fixedInterval (hmode : t.mode = .fixedInterval) (hinterval : 0 < t.intervalMs)
    {nowMs due : ℤ} (hdue : due ≤ nowMs) :
    t.owed nowMs due = t.owed nowMs (due + t.intervalMs) + 1 := by
  by_cases hnext : due + t.intervalMs ≤ nowMs
  · have hquotient : (nowMs - due) / t.intervalMs =
        (nowMs - (due + t.intervalMs)) / t.intervalMs + 1 := by
      rw [← Int.add_mul_ediv_right _ _ hinterval.ne']
      congr 1
      ring
    have hnonneg : 0 ≤ (nowMs - (due + t.intervalMs)) / t.intervalMs :=
      Int.ediv_nonneg (by omega) hinterval.le
    simp only [owed, hdue, hnext, if_true, hmode, hquotient]
    omega
  · have hzero : (nowMs - due) / t.intervalMs = 0 :=
      Int.ediv_eq_zero_of_lt (by omega) (by omega)
    simp [owed, hdue, hnext, hmode, hzero]

/-- In fixed-interval mode some visits are enough if the timer is less than so many intervals
behind. -/
lemma dueAfter_replicate_fixedInterval (hrepeated : t.repeated = true)
    (hmode : t.mode = .fixedInterval) (hinterval : 0 < t.intervalMs) (nowMs due : ℤ) (n : ℕ) :
    nowMs < t.dueAfter due (List.replicate n nowMs) ∧
        t.timesDue due (List.replicate n nowMs) = t.owed nowMs due ↔
      nowMs < due + n * t.intervalMs := by
  induction n generalizing due with
  | zero =>
    simp only [List.replicate_zero, dueAfter, timesDue, Nat.cast_zero, zero_mul, add_zero]
    refine ⟨fun h => h.1, fun h => ⟨h, ?_⟩⟩
    rw [owed, if_neg h.not_ge]
  | succ n ih =>
    by_cases hdue : due ≤ nowMs
    · have hnext := nextDue_fixedInterval hrepeated hmode nowMs due
      have hsum : due + ((n + 1 : ℕ) : ℤ) * t.intervalMs =
          due + t.intervalMs + n * t.intervalMs := by
        push_cast
        ring
      rw [List.replicate_succ, dueAfter, timesDue, if_pos hdue, if_pos hdue, hnext,
        owed_fixedInterval hmode hinterval hdue, hsum, ← ih (due + t.intervalMs),
        Nat.add_right_cancel_iff]
    · obtain ⟨hsame, hnone⟩ := dueAfter_replicate_of_lt (t := t) (not_le.mp hdue) (n + 1)
      have hpos : 0 ≤ ((n + 1 : ℕ) : ℤ) * t.intervalMs := by positivity
      rw [hsame, hnone]
      refine iff_of_true ⟨not_le.mp hdue, ?_⟩ (by omega)
      rw [owed, if_neg hdue]

end Timer

namespace TimerPasses

variable {τ : Type*} {s s' : TimerPasses τ} {l : PassStep τ} {t : Timer τ}
  {tr : List (PassStep τ × TimerPasses τ)} {nowMs : ℤ} {i : ℕ}

/-- A pass with the given clock reading leads from one state to the other. -/
def Pass (nowMs : ℤ) (s s' : TimerPasses τ) : Prop :=
  ∃ s₁ tr, system.step s (.checkAndDoTimers nowMs) s₁ ∧ system.Run s₁ tr ∧
    (∀ q ∈ tr, q.1 ≠ .passEnd) ∧ system.step (TransitionSystem.last s₁ tr) .passEnd s'

/-- The number of entries of a timer in `m_timers`. -/
def entriesOf (t : Timer τ) (s : TimerPasses τ) : ℕ :=
  s.thread.timers.timers.countP fun t' => t'.object = t.object

/-- After the pass the timer is not overdue, and it has been started as often as it had to be. -/
structure CaughtUp (t : Timer τ) (nowMs : ℤ) (s s' : TimerPasses τ) : Prop where
  notOverdue : nowMs < s'.thread.timers.nextTriggeredTimeMs t.object
  starts : starts s'.log t.object =
    starts s.log t.object + t.owed nowMs (s.thread.timers.nextTriggeredTimeMs t.object)

/-- In fixed-interval mode the timer is less than an interval behind for each of its entries. -/
def WithinReach (t : Timer τ) (nowMs : ℤ) (s : TimerPasses τ) : Prop :=
  t.mode = .fixedInterval →
    nowMs < s.thread.timers.nextTriggeredTimeMs t.object + entriesOf t s * t.intervalMs

/-! ## What a pass visits -/

/-- The reading of a step at an entry. -/
lemma reading_entry {t' : Timer τ} (hpass : s.pass = some (nowMs, i))
    (ht' : s.thread.timers.timers[i]? = some t') :
    reading t s .entry = if t'.object = t.object then some nowMs else none := by
  simp [reading, hpass, ht']

/-- One more entry, before those that are still to come. -/
lemma readings_cons_entry {t' : Timer τ} {rest : List ℤ} {i' : ℕ}
    (hpass : s.pass = some (nowMs, i)) (ht' : s.thread.timers.timers[i]? = some t')
    (hrest : ∀ r ∈ rest, r = nowMs)
    (hcount : ((s.thread.timers.timers.drop (i + 1)).countP fun t' => t'.object = t.object) =
      rest.length + (s.thread.timers.timers.drop i').countP fun t' => t'.object = t.object) :
    (∀ r ∈ (reading t s .entry).toList ++ rest, r = nowMs) ∧
      ((s.thread.timers.timers.drop i).countP fun t' => t'.object = t.object) =
        ((reading t s .entry).toList ++ rest).length +
          (s.thread.timers.timers.drop i').countP fun t' => t'.object = t.object := by
  obtain ⟨hlt, hget⟩ := List.getElem?_eq_some_iff.mp ht'
  rw [reading_entry hpass ht', List.drop_eq_getElem_cons hlt, hget, List.countP_cons, hcount]
  by_cases hobject : t'.object = t.object
  · simp only [hobject, if_true, decide_true, Option.toList_some, List.singleton_append,
      List.forall_mem_cons, List.length_cons, true_and]
    exact ⟨hrest, by omega⟩
  · simp only [hobject, if_false, decide_false, Option.toList_none, List.nil_append]
    exact ⟨hrest, by simp⟩

/-- Until it ends a pass goes over one and the same list, and reads the clock once. -/
lemma readings_of_pass (hrun : system.Run s tr) (hs : s.Valid) (hpass : s.pass = some (nowMs, i))
    (hend : ∀ q ∈ tr, q.1 ≠ .passEnd) :
    ∃ i', (TransitionSystem.last s tr).pass = some (nowMs, i') ∧
      (TransitionSystem.last s tr).thread.timers.timers = s.thread.timers.timers ∧
      (∀ r ∈ readings t s tr, r = nowMs) ∧
      ((s.thread.timers.timers.drop i).countP fun t' => t'.object = t.object) =
        (readings t s tr).length +
          (s.thread.timers.timers.drop i').countP fun t' => t'.object = t.object := by
  induction hrun generalizing i with
  | nil s => exact ⟨i, hpass, rfl, by simp [readings], by simp [readings]⟩
  | @cons s s' l tr hstep hrun ih =>
    obtain ⟨hfirst, hrest⟩ := List.forall_mem_cons.mp hend
    have hs' := hs.step hstep
    have hchecking := hs.checking
    rw [hpass] at hchecking
    rw [readings, TransitionSystem.last]
    rcases step_cases hstep with ⟨r, rfl, -, rfl⟩ | ⟨now, -, hidle, -⟩ |
      ⟨now, j, t', rfl, hj, -, ht', -, rfl⟩ | ⟨now, j, t', rfl, hj, -, ht', -, rfl⟩ |
      ⟨rfl, -, rfl⟩ | ⟨now, j, rfl, -⟩
    · have htimers : (s.afterRequest r).thread.timers.timers = s.thread.timers.timers :=
        perform_timers_of_checking hchecking r
      have hih := ih hs' hpass hrest
      rw [htimers] at hih
      exact hih
    · rw [hpass] at hidle
      cases hidle
    · obtain ⟨rfl, rfl⟩ := Prod.mk.inj (Option.some.inj (hpass.symm.trans hj))
      obtain ⟨i', hlast, htimers, hreadings, hcount⟩ := ih hs' rfl hrest
      exact ⟨i', hlast, htimers, readings_cons_entry hpass ht' hreadings hcount⟩
    · obtain ⟨rfl, rfl⟩ := Prod.mk.inj (Option.some.inj (hpass.symm.trans hj))
      obtain ⟨i', hlast, htimers, hreadings, hcount⟩ := ih hs' rfl hrest
      exact ⟨i', hlast, htimers, readings_cons_entry hpass ht' hreadings hcount⟩
    · exact ih hs' hpass hrest
    · exact absurd rfl hfirst

/-- A pass comes to a timer as often as it has entries. -/
lemma dueAfter_of_pass (hs : s.Valid) (ht : Registered t s) (h : Pass nowMs s s') :
    s'.thread.timers.nextTriggeredTimeMs t.object =
        t.dueAfter (s.thread.timers.nextTriggeredTimeMs t.object)
          (List.replicate (entriesOf t s) nowMs) ∧
      starts s'.log t.object = starts s.log t.object +
        t.timesDue (s.thread.timers.nextTriggeredTimeMs t.object)
          (List.replicate (entriesOf t s) nowMs) := by
  obtain ⟨s₁, tr, hstart, hrun, hend, hstop⟩ := h
  have hs₁ := hs.step hstart
  have ht₁ := ht.step hstart
  obtain ⟨-, heq⟩ := Option.ite_none_right_eq_some.mp hstart
  obtain rfl := Option.some.inj heq
  obtain ⟨i', hpass, htimers, hall, hcount⟩ := readings_of_pass (t := t) hrun hs₁ rfl hend
  obtain ⟨hfirings, hdue⟩ := firings_eq hrun ht₁
  have hstarts := starts_last hrun ht₁
  rcases step_cases hstop with ⟨r, hl, -⟩ | ⟨now, hl, -⟩ | ⟨now, j, t', hl, -⟩ |
    ⟨now, j, t', hl, -⟩ | ⟨hl, -⟩ | ⟨now, j, -, hj, -, hnone, rfl⟩
  · cases hl
  · cases hl
  · cases hl
  · cases hl
  · cases hl
  · obtain ⟨rfl, rfl⟩ := Prod.mk.inj (Option.some.inj (hpass.symm.trans hj))
    have hlength := List.getElem?_eq_none_iff.mp hnone
    rw [htimers] at hlength
    rw [List.drop_eq_nil_of_le hlength, List.countP_nil, Nat.add_zero, List.drop_zero] at hcount
    have hreadings := List.eq_replicate_iff.mpr ⟨hcount.symm, hall⟩
    rw [hreadings] at hdue hstarts
    exact ⟨(due_passEnd _ _).trans hdue, hstarts⟩

/-- **After a pass a repeated timer has caught up exactly if, in fixed-interval mode, it was less
than an interval behind for each of its entries.** -/
theorem caughtUp_iff (hreach : system.Reachable s) (h : Pass nowMs s s')
    (ht : t ∈ s.thread.timers.timers) (hrepeated : t.repeated = true)
    (hinterval : 0 < t.intervalMs) : CaughtUp t nowMs s s' ↔ WithinReach t nowMs s := by
  have hs : s.Valid := hreach.invariant (fun _ h => valid_of_init h) fun _ _ _ hs h => hs.step h
  have hknown : s.Known t := Or.inl (List.mem_append_left _ ht)
  have hregistered : Registered t s :=
    ⟨hs.owned.object_lt t hknown, fun t' ht' hobject => hs.owned.eq t' t ht' hknown hobject⟩
  obtain ⟨hdue, hstarts⟩ := dueAfter_of_pass hs hregistered h
  have hcaught : CaughtUp t nowMs s s' ↔
      nowMs < t.dueAfter (s.thread.timers.nextTriggeredTimeMs t.object)
          (List.replicate (entriesOf t s) nowMs) ∧
        t.timesDue (s.thread.timers.nextTriggeredTimeMs t.object)
            (List.replicate (entriesOf t s) nowMs) =
          t.owed nowMs (s.thread.timers.nextTriggeredTimeMs t.object) := by
    constructor
    · rintro ⟨hnot, hcount⟩
      exact ⟨hdue ▸ hnot, Nat.add_left_cancel (hstarts.symm.trans hcount)⟩
    · rintro ⟨hnot, hcount⟩
      exact ⟨hdue.symm ▸ hnot, hstarts.trans (congrArg _ hcount)⟩
  rw [hcaught, WithinReach]
  cases hmode : t.mode with
  | fixedInterval =>
    rw [Timer.dueAfter_replicate_fixedInterval hrepeated hmode hinterval]
    exact ⟨fun h _ => h, fun h => h rfl⟩
  | fixedDelay =>
    have hentries : 0 < entriesOf t s := List.countP_pos_iff.mpr ⟨t, ht, by simp⟩
    exact iff_of_true
      (Timer.dueAfter_replicate_fixedDelay hrepeated hmode hinterval nowMs _ hentries)
      fun hinterval' => by cases hinterval'

/-- A loop with a timer that repeats every second, added at time `0`. -/
def everySecond : TimerPasses Unit :=
  fresh.afterRequest (.addTimer 1000 true 0 () .fixedInterval 0)

lemma reachable_everySecond : system.Reachable everySecond :=
  TransitionSystem.Reachable.tail (.of_init init_fresh)
    (l := .request (.addTimer 1000 true 0 () .fixedInterval 0)) rfl

/-- The pass comes half a second late. -/
theorem caughtUp_iff_half_late :
    CaughtUp (fresh.newTimer 1000 true 0 () .fixedInterval) 1500 everySecond
      (TransitionSystem.runAll next everySecond
        [.checkAndDoTimers 1500, .entry, .taskEnd, .passEnd]) := by
  have hpass : Pass 1500 everySecond (TransitionSystem.runAll next everySecond
      [.checkAndDoTimers 1500, .entry, .taskEnd, .passEnd]) :=
    ⟨_, TransitionSystem.states next
      (TransitionSystem.runAll next everySecond [.checkAndDoTimers 1500]) [.entry, .taskEnd],
      rfl, .cons rfl (.cons rfl (.nil _)), by simp [TransitionSystem.states], rfl⟩
  refine (caughtUp_iff reachable_everySecond hpass ?_ rfl (by decide)).mpr ?_
  · exact List.mem_singleton_self _
  · exact fun _ => by decide

/-- It comes two seconds late, and the timer is still overdue afterwards. -/
theorem exists_overdue :
    ¬ ∀ (s s' : TimerPasses Unit) (t : Timer Unit) (nowMs : ℤ), system.Reachable s →
      Pass nowMs s s' → t ∈ s.thread.timers.timers → t.repeated = true → 0 < t.intervalMs →
        t ∈ s'.thread.timers.timers → CaughtUp t nowMs s s' := by
  intro h
  have hpass : Pass 3000 everySecond (TransitionSystem.runAll next everySecond
      [.checkAndDoTimers 3000, .entry, .taskEnd, .passEnd]) :=
    ⟨_, TransitionSystem.states next
      (TransitionSystem.runAll next everySecond [.checkAndDoTimers 3000]) [.entry, .taskEnd],
      rfl, .cons rfl (.cons rfl (.nil _)), by simp [TransitionSystem.states], rfl⟩
  have hcaught := h everySecond _ (fresh.newTimer 1000 true 0 () .fixedInterval) 3000
    reachable_everySecond hpass (List.mem_singleton_self _) rfl (by decide)
    (List.mem_singleton_self _)
  exact absurd hcaught.notOverdue (by decide)

end TimerPasses

end Calc24
