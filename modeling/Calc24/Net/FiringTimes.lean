import Calc24.Net.RepetitionLimits

/-!
# Firing times

When the callback of a timer is started, and when the timer is due next, follows from the clock
readings of the passes that come to it (`due_last` and `firings_eq`): those that reach its due time
start it, and each of them moves the due time on.

A repeated timer is therefore never early.  In fixed-interval mode the due times are those of a
clock that was set going when the timer was created, however late the passes are; in fixed-delay
mode there is at least an interval between any two starts (`onTime_of_added`).
-/

namespace Calc24

namespace Timer

variable {τ : Type*} {t : Timer τ}

/-- The clock readings that find the timer due, if it is due at `due` first. -/
def dueReadings (t : Timer τ) : ℤ → List ℤ → List ℤ
  | _, [] => []
  | due, nowMs :: readings =>
    if due ≤ nowMs then nowMs :: t.dueReadings (t.nextDue nowMs due) readings
    else t.dueReadings due readings

/-- When the timer is due after the clock readings. -/
def dueAfter (t : Timer τ) : ℤ → List ℤ → ℤ
  | due, [] => due
  | due, nowMs :: readings =>
    if due ≤ nowMs then t.dueAfter (t.nextDue nowMs due) readings else t.dueAfter due readings

/-- The law of a repeated timer that was created at `createdMs`, for the times at which it has been
started and the time at which it is due next. -/
def OnTime (t : Timer τ) (createdMs : ℤ) (times : List ℤ) (dueMs : ℤ) : Prop :=
  match t.mode with
  | .fixedInterval =>
    (∀ (k : ℕ) time, times[k]? = some time → createdMs + (k + 1) * t.intervalMs ≤ time) ∧
      dueMs = createdMs + (times.length + 1) * t.intervalMs
  | .fixedDelay =>
    (∀ time ∈ times.head?, createdMs + t.intervalMs ≤ time) ∧
      times.IsChain fun time time' => time + t.intervalMs ≤ time'

lemma length_dueReadings (t : Timer τ) (due : ℤ) (readings : List ℤ) :
    (t.dueReadings due readings).length = t.timesDue due readings := by
  induction readings generalizing due with
  | nil => rfl
  | cons nowMs readings ih =>
    rw [dueReadings, timesDue]
    split
    · rw [List.length_cons, ih]
    · exact ih due

/-- A timer with a fixed interval is due one interval after it was due. -/
lemma nextDue_fixedInterval (hrepeated : t.repeated = true) (hmode : t.mode = .fixedInterval)
    (nowMs due : ℤ) : t.nextDue nowMs due = due + t.intervalMs := by
  simp [nextDue, hrepeated, hmode]

/-- A timer with a fixed delay is due one interval after it was started. -/
lemma nextDue_fixedDelay (hrepeated : t.repeated = true) (hmode : t.mode = .fixedDelay)
    (nowMs due : ℤ) : t.nextDue nowMs due = nowMs + t.intervalMs := by
  simp [nextDue, hrepeated, hmode]

/-! ## The two modes -/

/-- In fixed-interval mode each start moves the due time on by the interval, and nothing else
does. -/
lemma dueAfter_fixedInterval (hrepeated : t.repeated = true) (hmode : t.mode = .fixedInterval)
    (due : ℤ) (readings : List ℤ) :
    t.dueAfter due readings = due + t.timesDue due readings * t.intervalMs := by
  induction readings generalizing due with
  | nil => simp [dueAfter, timesDue]
  | cons nowMs readings ih =>
    rw [dueAfter, timesDue]
    split
    · rw [nextDue_fixedInterval hrepeated hmode, ih]
      push_cast
      ring
    · exact ih due

/-- The start number `k` does not come before the due time that it belongs to. -/
lemma dueReadings_fixedInterval (hrepeated : t.repeated = true) (hmode : t.mode = .fixedInterval)
    {due time : ℤ} {readings : List ℤ} {k : ℕ}
    (h : (t.dueReadings due readings)[k]? = some time) : due + k * t.intervalMs ≤ time := by
  induction readings generalizing due k with
  | nil => cases h
  | cons nowMs readings ih =>
    rw [dueReadings] at h
    split at h
    · next hdue =>
      cases k with
      | zero =>
        obtain rfl : nowMs = time := by simpa using h
        simpa using hdue
      | succ k =>
        rw [List.getElem?_cons_succ, nextDue_fixedInterval hrepeated hmode] at h
        have hrest := ih h
        push_cast
        linarith
    · exact ih h

/-- In fixed-delay mode no start comes before the due time, or earlier than an interval after the
one before it. -/
lemma dueReadings_fixedDelay (hrepeated : t.repeated = true) (hmode : t.mode = .fixedDelay)
    (due : ℤ) (readings : List ℤ) :
    (∀ time ∈ (t.dueReadings due readings).head?, due ≤ time) ∧
      (t.dueReadings due readings).IsChain fun time time' => time + t.intervalMs ≤ time' := by
  induction readings generalizing due with
  | nil => exact ⟨fun time htime => absurd htime (by simp [dueReadings]), .nil⟩
  | cons nowMs readings ih =>
    rw [dueReadings]
    split
    · next hdue =>
      rw [nextDue_fixedDelay hrepeated hmode]
      obtain ⟨hhead, hchain⟩ := ih (nowMs + t.intervalMs)
      refine ⟨fun time htime => ?_, List.isChain_cons.mpr ⟨hhead, hchain⟩⟩
      obtain rfl : nowMs = time := by simpa using htime
      exact hdue
    · exact ih due

/-- The clock readings of any sequence of passes keep a repeated timer on time. -/
lemma onTime_dueReadings (hrepeated : t.repeated = true) (createdMs : ℤ) (readings : List ℤ) :
    t.OnTime createdMs (t.dueReadings (createdMs + t.intervalMs) readings)
      (t.dueAfter (createdMs + t.intervalMs) readings) := by
  unfold OnTime
  split
  · next hmode =>
    refine ⟨fun k time htime => ?_, ?_⟩
    · have htime' := dueReadings_fixedInterval hrepeated hmode htime
      linarith
    · rw [dueAfter_fixedInterval hrepeated hmode, length_dueReadings]
      ring
  · next hmode => exact dueReadings_fixedDelay hrepeated hmode _ readings

end Timer

namespace TimerPasses

variable {τ : Type*} {s s' : TimerPasses τ} {l : PassStep τ} {t : Timer τ}
  {tr : List (PassStep τ × TimerPasses τ)}

/-- The clock reading of the pass, if the step starts the callback of the timer. -/
def firing (t : Timer τ) (s s' : TimerPasses τ) : Option ℤ :=
  if starts s'.log t.object = starts s.log t.object then none else s.pass.map Prod.fst

/-- The clock readings of the passes that start the callback of the timer in a run. -/
def firings (t : Timer τ) : TimerPasses τ → List (PassStep τ × TimerPasses τ) → List ℤ
  | _, [] => []
  | s, (_, s') :: tr => (firing t s s').toList ++ firings t s' tr

/-- A reading is that of the pass that is going on. -/
lemma pass_of_reading {nowMs : ℤ} (h : reading t s l = some nowMs) :
    s.pass.map Prod.fst = some nowMs := by
  cases l with
  | entry =>
    simp only [reading] at h
    split at h
    · cases h
    · next hpass =>
      rw [hpass]
      exact (Option.ite_none_right_eq_some.mp h).2
  | _ => cases h

/-- The starts of a timer in a run, and its due time at the end. -/
lemma firings_eq (hrun : system.Run s tr) (h : Registered t s) :
    firings t s tr =
        t.dueReadings (s.thread.timers.nextTriggeredTimeMs t.object) (readings t s tr) ∧
      (TransitionSystem.last s tr).thread.timers.nextTriggeredTimeMs t.object =
        t.dueAfter (s.thread.timers.nextTriggeredTimeMs t.object) (readings t s tr) := by
  induction hrun with
  | nil s => exact ⟨rfl, rfl⟩
  | @cons s s' l tr hstep hrun ih =>
    obtain ⟨hfirings, hlast⟩ := ih (h.step hstep)
    rw [firings, readings, TransitionSystem.last, hlast, hfirings, firing]
    rcases reading_cases h hstep with ⟨nowMs, hreading, hdue, hstarts, hnext⟩ |
      ⟨hnot, hstarts, hsame⟩
    · have hstarted : starts s'.log t.object ≠ starts s.log t.object := by omega
      rw [if_neg hstarted, pass_of_reading hreading, hreading, hnext, Option.toList_some,
        List.singleton_append, List.singleton_append, Timer.dueReadings, Timer.dueAfter,
        if_pos hdue, if_pos hdue]
      exact ⟨rfl, rfl⟩
    · rw [if_pos hstarts, hsame, Option.toList_none, List.nil_append]
      cases hreading : reading t s l with
      | none => exact ⟨rfl, rfl⟩
      | some nowMs =>
        rw [Option.toList_some, List.singleton_append, Timer.dueReadings, Timer.dueAfter,
          if_neg (hnot nowMs hreading), if_neg (hnot nowMs hreading)]
        exact ⟨rfl, rfl⟩

/-- **A repeated timer is never started early, and in fixed-interval mode its due times do not
drift**, in any run that follows its creation. -/
theorem onTime_of_added {intervalMs repeatedCount nowMs : ℤ} {timerTask : τ} {mode : TimerMode}
    (hreach : system.Reachable s)
    (hadd : system.step s
      (.request (.addTimer intervalMs true repeatedCount timerTask mode nowMs)) s')
    (hrun : system.Run s' tr) :
    (s.newTimer intervalMs true repeatedCount timerTask mode).OnTime nowMs
      (firings (s.newTimer intervalMs true repeatedCount timerTask mode) s' tr)
      ((TransitionSystem.last s' tr).thread.timers.nextTriggeredTimeMs
        (s.newTimer intervalMs true repeatedCount timerTask mode).object) := by
  obtain ⟨hregistered, -, hdue⟩ := registered_of_added hreach hadd
  obtain ⟨hfirings, hlast⟩ := firings_eq hrun hregistered
  rw [hfirings, hlast, hdue]
  exact Timer.onTime_dueReadings rfl nowMs _

/-- A timer of one second, added at time `0`: the passes come at `1500`, `1800`, `3500` and `3600`,
so the third start makes up for a late second one. -/
theorem onTime_of_added_late_passes :
    (fresh.newTimer 1000 true 0 () .fixedInterval).OnTime 0 [1500, 3500, 3600] 4000 := by
  have hrun : system.Run (fresh.afterRequest (.addTimer 1000 true 0 () .fixedInterval 0))
      (TransitionSystem.states next
        (fresh.afterRequest (.addTimer 1000 true 0 () .fixedInterval 0))
        [.checkAndDoTimers 1500, .entry, .taskEnd, .passEnd, .checkAndDoTimers 1800, .entry,
          .passEnd, .checkAndDoTimers 3500, .entry, .taskEnd, .passEnd, .checkAndDoTimers 3600,
          .entry, .taskEnd, .passEnd]) :=
    .cons rfl (.cons rfl (.cons rfl (.cons rfl (.cons rfl (.cons rfl (.cons rfl (.cons rfl
      (.cons rfl (.cons rfl (.cons rfl (.cons rfl (.cons rfl (.cons rfl (.cons rfl
        (.nil _)))))))))))))))
  exact onTime_of_added (.of_init init_fresh) rfl hrun

end TimerPasses

end Calc24
