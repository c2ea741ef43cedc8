import Calc24.Net.TimerPasses

/-!
# Repetition limits

A timer is constructed with a flag that says whether it is repeated, and with the number of its
repetitions.  `Timer::doTimer` moves the due time of a repeated timer only, and nothing looks at
the number.

How often a timer is started is therefore decided by the clock readings of the passes that come to
it for as long as it is in the list: `Timer.timesDue` counts those that reach its due time, which
moves on with each of them if the timer is repeated.  The limit is kept exactly if no more than one
of the readings is at or after the due time of a timer that is not repeated, and no more than the
limit says reach that of one that is (`repetitionsRespected_iff`).
-/

namespace Calc24

namespace Timer

variable {τ : Type*} {t : Timer τ} {due : ℤ}

/-- How many of the clock readings find the timer due, if it is due at `due` first. -/
def timesDue (t : Timer τ) : ℤ → List ℤ → ℕ
  | _, [] => 0
  | due, nowMs :: readings =>
    if due ≤ nowMs then t.timesDue (t.nextDue nowMs due) readings + 1
    else t.timesDue due readings

/-- A timer that is not to be repeated may be started once, and one with a limit as often as the
limit says. -/
def AllowsStarts (t : Timer τ) (count : ℕ) : Prop :=
  (t.repeated = false → count ≤ 1) ∧
    (t.repeated = true → 0 < t.repeatedCount → (count : ℤ) ≤ t.repeatedCount)

/-- At most one of the clock readings is at or after the due time of a timer that is not repeated,
and at most as many as its limit says reach the due time, which moves on, of one that is. -/
def ReadingsWithinLimit (t : Timer τ) (due : ℤ) (readings : List ℤ) : Prop :=
  (t.repeated = false → (readings.countP fun nowMs => due ≤ nowMs) ≤ 1) ∧
    (t.repeated = true → 0 < t.repeatedCount → (t.timesDue due readings : ℤ) ≤ t.repeatedCount)

instance (t : Timer τ) (due : ℤ) (readings : List ℤ) :
    Decidable (t.ReadingsWithinLimit due readings) :=
  inferInstanceAs (Decidable (_ ∧ _))

/-- The due time of a timer that is not repeated does not move: all readings from then on find it
due. -/
lemma timesDue_of_not_repeated (h : t.repeated = false) (due : ℤ) (readings : List ℤ) :
    t.timesDue due readings = readings.countP fun nowMs => due ≤ nowMs := by
  induction readings with
  | nil => rfl
  | cons nowMs readings ih =>
    have hdue : t.nextDue nowMs due = due := by
      simp [nextDue, h]
    rw [timesDue, hdue, ih, List.countP_cons]
    by_cases hle : due ≤ nowMs <;> simp [hle]

/-- A timer is due as often as it may be started exactly if the readings of the clock say so. -/
lemma allowsStarts_timesDue_iff (readings : List ℤ) :
    t.AllowsStarts (t.timesDue due readings) ↔ t.ReadingsWithinLimit due readings := by
  refine and_congr (forall_congr' fun h => ?_) Iff.rfl
  rw [timesDue_of_not_repeated h]

lemma AllowsStarts.mono {m n : ℕ} (h : t.AllowsStarts n) (hle : m ≤ n) : t.AllowsStarts m := by
  obtain ⟨hone, hmany⟩ := h
  refine ⟨fun hrepeated => hle.trans (hone hrepeated), fun hrepeated hpos => ?_⟩
  have hlimit := hmany hrepeated hpos
  omega

/-- No timer has to be started. -/
lemma allowsStarts_zero (t : Timer τ) : t.AllowsStarts 0 :=
  ⟨fun _ => Nat.zero_le 1, fun _ hpos => hpos.le⟩

end Timer

namespace TimerPasses

variable {τ : Type*} {s s' : TimerPasses τ} {l : PassStep τ} {t : Timer τ}
  {tr : List (PassStep τ × TimerPasses τ)}

/-- The event is the start of the timer with the address. -/
def IsStart (object : ℕ) : TimerEvent τ → Bool
  | .started t => t.object == object
  | .removed _ => false

/-- How often a timer has been started. -/
def starts (log : List (TimerEvent τ)) (object : ℕ) : ℕ :=
  log.countP (IsStart object)

/-- The timer has been started as often as it is allowed to, or less often. -/
def RepetitionsRespected (t : Timer τ) (s : TimerPasses τ) : Prop :=
  t.AllowsStarts (starts s.log t.object)

/-- The clock reading of the pass, if the step comes to an entry of the timer. -/
def reading (t : Timer τ) (s : TimerPasses τ) : PassStep τ → Option ℤ
  | .entry =>
    match s.pass with
    | none => none
    | some (nowMs, i) =>
      if s.thread.timers.timers[i]?.map Timer.object = some t.object then some nowMs else none
  | _ => none

/-- The clock readings of the passes that come to the timer in a run. -/
def readings (t : Timer τ) : TimerPasses τ → List (PassStep τ × TimerPasses τ) → List ℤ
  | _, [] => []
  | s, (l, s') :: tr => (reading t s l).toList ++ readings t s' tr

/-- The clock readings of the passes of a run. -/
def clockReadings (tr : List (PassStep τ × TimerPasses τ)) : List ℤ :=
  tr.filterMap fun q =>
    match q.1 with
    | .checkAndDoTimers nowMs => some nowMs
    | _ => none

/-- The timer that `addTimer` constructs. -/
def newTimer (s : TimerPasses τ) (intervalMs : ℤ) (repeated : Bool) (repeatedCount : ℤ)
    (timerTask : τ) (mode : TimerMode) : Timer τ where
  object := s.thread.objects
  id := s.thread.baseID + 1
  intervalMs := intervalMs
  repeated := repeated
  repeatedCount := repeatedCount
  timerTask := timerTask
  mode := mode

/-! ## Starts and due times -/

/-- One more start counts for the timer that was started. -/
lemma starts_cons_started (t : Timer τ) (log : List (TimerEvent τ)) (object : ℕ) :
    starts (.started t :: log) object =
      starts log object + if t.object = object then 1 else 0 := by
  rw [starts, List.countP_cons, ← starts]
  by_cases h : t.object = object <;> simp [IsStart, h]

lemma starts_removals_append (timers : List (Timer τ)) (r : TimerRequest τ)
    (log : List (TimerEvent τ)) (object : ℕ) :
    starts (removals timers r ++ log) object = starts log object := by
  have hnone : (removals timers r).countP (IsStart object) = 0 := by
    rw [List.countP_eq_zero]
    cases r with
    | removeTimer timerID =>
      intro event hevent
      obtain ⟨t, -, rfl⟩ := List.mem_map.mp hevent
      simp [IsStart]
    | _ => simp [removals]
  simp only [starts, List.countP_append, hnone, Nat.zero_add]

/-- The address is given out, and belongs to no other timer. -/
structure Registered (t : Timer τ) (s : TimerPasses τ) : Prop where
  object_lt : t.object < s.thread.objects
  eq : ∀ t', s.Known t' → t'.object = t.object → t' = t

/-- The address of a timer stays its own. -/
lemma Registered.step (h : Registered t s) (hstep : system.step s l s') : Registered t s' := by
  have hlt := h.object_lt
  rcases known_of_step hstep with ⟨hknown, hobjects⟩ | ⟨spTimer, hobject, hobjects, hknown⟩
  · exact ⟨hlt.trans_le hobjects, fun t' ht' => h.eq t' (hknown t' ht')⟩
  · refine ⟨?_, fun t' ht' heq => ?_⟩
    · omega
    · rcases hknown t' ht' with hold | rfl
      · exact h.eq t' hold heq
      · omega

/-- A request does not move the due time of a timer that exists. -/
lemma due_afterRequest (r : TimerRequest τ) (h : t.object < s.thread.objects) :
    (s.afterRequest r).thread.timers.nextTriggeredTimeMs t.object =
      s.thread.timers.nextTriggeredTimeMs t.object := by
  cases r with
  | addTimer intervalMs repeated repeatedCount timerTask mode nowMs =>
    have hconstruct : (s.thread.timers.construct s.thread.objects
        (nowMs + intervalMs)).nextTriggeredTimeMs t.object =
          s.thread.timers.nextTriggeredTimeMs t.object := Function.update_of_ne h.ne _ _
    rw [← hconstruct]
    simp only [afterRequest, TimerThread.perform, LoopTimers.addTimerInternal]
    split <;> rfl
  | removeTimer timerID =>
    simp only [afterRequest, TimerThread.perform, LoopTimers.removeTimerInternal]
    split <;> rfl
  | constructedElsewhere n => rfl

/-- A step that comes to the timer starts it if it is due, and then its due time moves; every other
step leaves the starts and the due time as they are. -/
lemma reading_cases (h : Registered t s) (hstep : system.step s l s') :
    (∃ nowMs, reading t s l = some nowMs ∧
      s.thread.timers.nextTriggeredTimeMs t.object ≤ nowMs ∧
      starts s'.log t.object = starts s.log t.object + 1 ∧
      s'.thread.timers.nextTriggeredTimeMs t.object =
        t.nextDue nowMs (s.thread.timers.nextTriggeredTimeMs t.object)) ∨
    ((∀ nowMs, reading t s l = some nowMs →
        ¬ s.thread.timers.nextTriggeredTimeMs t.object ≤ nowMs) ∧
      starts s'.log t.object = starts s.log t.object ∧
      s'.thread.timers.nextTriggeredTimeMs t.object =
        s.thread.timers.nextTriggeredTimeMs t.object) := by
  rcases step_cases hstep with ⟨r, rfl, -, rfl⟩ | ⟨nowMs, rfl, -, rfl⟩ |
    ⟨nowMs, i, t', rfl, hpass, -, ht', hdue, rfl⟩ | ⟨nowMs, i, t', rfl, hpass, -, ht', hdue, rfl⟩ |
    ⟨rfl, -, rfl⟩ | ⟨nowMs, i, rfl, -, -, -, rfl⟩
  · refine Or.inr ⟨by simp [reading], ?_, due_afterRequest r h.object_lt⟩
    exact starts_removals_append _ r _ _
  · exact Or.inr ⟨by simp [reading], rfl, rfl⟩
  · have hknown : s.Known t' := Or.inl (List.mem_append_left _ (List.mem_of_getElem? ht'))
    by_cases hobject : t'.object = t.object
    · obtain rfl := h.eq t' hknown hobject
      refine Or.inl ⟨nowMs, by simp [reading, hpass, ht'], hdue, ?_, ?_⟩
      · simp [starts_cons_started]
      · exact Function.update_self ..
    · refine Or.inr ⟨by simp [reading, hpass, ht', hobject], ?_, ?_⟩
      · simp [starts_cons_started, hobject]
      · exact Function.update_of_ne (Ne.symm hobject) _ _
  · refine Or.inr ⟨fun nowMs' hnowMs' => ?_, rfl, rfl⟩
    have hknown : s.Known t' := Or.inl (List.mem_append_left _ (List.mem_of_getElem? ht'))
    simp only [reading, hpass, ht', Option.map_some, Option.some.injEq,
      Option.ite_none_right_eq_some] at hnowMs'
    obtain ⟨hobject, rfl⟩ := hnowMs'
    rw [← hobject]
    exact hdue
  · exact Or.inr ⟨by simp [reading], rfl, rfl⟩
  · exact Or.inr ⟨by simp [reading], rfl, due_passEnd s.thread t.object⟩

/-! ## Whole runs -/

/-- A step takes nothing away from the starts so far and those that the readings to come make. -/
lemma starts_add_timesDue (h : Registered t s) (hstep : system.step s l s') :
    starts s.log t.object +
        t.timesDue (s.thread.timers.nextTriggeredTimeMs t.object) (readings t s ((l, s') :: tr)) =
      starts s'.log t.object +
        t.timesDue (s'.thread.timers.nextTriggeredTimeMs t.object) (readings t s' tr) := by
  rw [readings]
  rcases reading_cases h hstep with ⟨nowMs, hreading, hdue, hstarts, hnext⟩ |
    ⟨hnot, hstarts, hsame⟩
  · rw [hreading, Option.toList_some, List.singleton_append, Timer.timesDue, if_pos hdue,
      hstarts, hnext]
    omega
  · cases hreading : reading t s l with
    | none => rw [hstarts, hsame, Option.toList_none, List.nil_append]
    | some nowMs =>
      rw [Option.toList_some, List.singleton_append, Timer.timesDue,
        if_neg (hnot nowMs hreading), hstarts, hsame]

/-- The number of starts at the end of a run. -/
lemma starts_last (hrun : system.Run s tr) (h : Registered t s) :
    starts (TransitionSystem.last s tr).log t.object = starts s.log t.object +
      t.timesDue (s.thread.timers.nextTriggeredTimeMs t.object) (readings t s tr) := by
  induction hrun with
  | nil s => rfl
  | @cons s s' l tr hstep hrun ih =>
    rw [TransitionSystem.last, ih (h.step hstep), starts_add_timesDue h hstep]

/-- What holds of few starts holds throughout a run exactly if it holds of as many more starts as
there are readings that find the timer due. -/
lemma forall_starts_iff (hrun : system.Run s tr) (h : Registered t s) {P : ℕ → Prop}
    (hmono : ∀ {m n}, P n → m ≤ n → P m) (hstart : P (starts s.log t.object)) :
    (∀ q ∈ tr, P (starts q.2.log t.object)) ↔
      P (starts s.log t.object +
        t.timesDue (s.thread.timers.nextTriggeredTimeMs t.object) (readings t s tr)) := by
  induction hrun with
  | nil s => simpa [readings, Timer.timesDue] using hstart
  | @cons s s' l tr hstep hrun ih =>
    rw [List.forall_mem_cons, starts_add_timesDue h hstep]
    constructor
    · rintro ⟨hfirst, hrest⟩
      exact (ih (h.step hstep) hfirst).mp hrest
    · intro hall
      have hfirst : P (starts s'.log t.object) := hmono hall (Nat.le_add_right _ _)
      exact ⟨hfirst, (ih (h.step hstep) hfirst).mpr hall⟩

/-- A timer that has just been added belongs to its address, has not been started, and is due after
its interval. -/
lemma registered_of_added {intervalMs repeatedCount nowMs : ℤ} {repeated : Bool} {timerTask : τ}
    {mode : TimerMode} (hreach : system.Reachable s)
    (hadd : system.step s
      (.request (.addTimer intervalMs repeated repeatedCount timerTask mode nowMs)) s') :
    Registered (s.newTimer intervalMs repeated repeatedCount timerTask mode) s' ∧
      starts s'.log (s.newTimer intervalMs repeated repeatedCount timerTask mode).object = 0 ∧
      s'.thread.timers.nextTriggeredTimeMs
          (s.newTimer intervalMs repeated repeatedCount timerTask mode).object =
        nowMs + intervalMs := by
  set t := s.newTimer intervalMs repeated repeatedCount timerTask mode with ht
  have hvalid : s.Valid := hreach.invariant (fun _ h => valid_of_init h) fun _ _ _ hs h => hs.step h
  obtain ⟨-, heq⟩ := Option.ite_none_right_eq_some.mp hadd
  obtain rfl := Option.some.inj heq
  have hmem : t ∈ (s.afterRequest (.addTimer intervalMs repeated repeatedCount timerTask mode
      nowMs)).thread.timers.entries := LoopTimers.mem_entries_addTimerInternal.mpr (Or.inr rfl)
  have howned := hvalid.owned.step hadd
  refine ⟨⟨howned.object_lt t (Or.inl hmem),
    fun t' ht' hobject => howned.eq t' t ht' (Or.inl hmem) hobject⟩, ?_, ?_⟩
  · -- the address is new, so nothing with it has been started
    refine List.countP_eq_zero.mpr fun event hevent hstart => ?_
    cases event with
    | started t' =>
      have hlt := hvalid.owned.object_lt t' (Or.inr (Or.inl hevent))
      have hobject : t'.object = s.thread.objects := beq_iff_eq.mp hstart
      omega
    | removed t' => exact absurd hstart (by simp [IsStart])
  · have hconstruct : (s.thread.timers.construct s.thread.objects
        (nowMs + intervalMs)).nextTriggeredTimeMs t.object = nowMs + intervalMs :=
      Function.update_self ..
    rw [← hconstruct]
    simp only [afterRequest, TimerThread.perform, LoopTimers.addTimerInternal]
    split <;> rfl

/-- **A timer that is added is started no more often than it is allowed to, at any point of the run
that follows, exactly if the clock readings of the passes that come to it are within its limit.** -/
theorem repetitionsRespected_iff {intervalMs repeatedCount nowMs : ℤ} {repeated : Bool}
    {timerTask : τ} {mode : TimerMode} (hreach : system.Reachable s)
    (hadd : system.step s
      (.request (.addTimer intervalMs repeated repeatedCount timerTask mode nowMs)) s')
    (hrun : system.Run s' tr) :
    (∀ q ∈ tr, RepetitionsRespected
        (s.newTimer intervalMs repeated repeatedCount timerTask mode) q.2) ↔
      (s.newTimer intervalMs repeated repeatedCount timerTask mode).ReadingsWithinLimit
        (nowMs + intervalMs)
        (readings (s.newTimer intervalMs repeated repeatedCount timerTask mode) s' tr) := by
  obtain ⟨hregistered, hnone, hdue⟩ := registered_of_added hreach hadd
  set t := s.newTimer intervalMs repeated repeatedCount timerTask mode with ht
  have hiff := forall_starts_iff (P := t.AllowsStarts) hrun hregistered
    (fun h hle => h.mono hle) (by rw [hnone]; exact t.allowsStarts_zero)
  rwa [hnone, Nat.zero_add, hdue, Timer.allowsStarts_timesDue_iff] at hiff

/-- A timer that is not to be repeated, added at time `0` and due at `1000`. -/
def onceAfterOneSecond : TimerRequest Unit :=
  .addTimer 1000 false 0 () .fixedInterval 0

/-- It runs in one pass, and is removed by its own callback. -/
theorem repetitionsRespected_iff_once :
    RepetitionsRespected (fresh.newTimer 1000 false 0 () .fixedInterval)
      (TransitionSystem.runAll next (fresh.afterRequest onceAfterOneSecond)
        [.checkAndDoTimers 1000, .entry, .request (.removeTimer 1), .taskEnd, .passEnd,
          .checkAndDoTimers 2000, .passEnd]) := by
  have hrun : system.Run (fresh.afterRequest onceAfterOneSecond)
      (TransitionSystem.states next (fresh.afterRequest onceAfterOneSecond)
        [.checkAndDoTimers 1000, .entry, .request (.removeTimer 1), .taskEnd, .passEnd,
          .checkAndDoTimers 2000, .passEnd]) :=
    .cons rfl (.cons rfl (.cons rfl (.cons rfl (.cons rfl (.cons rfl (.cons rfl (.nil _)))))))
  have hall := (repetitionsRespected_iff (.of_init init_fresh) rfl hrun).mpr (by decide)
  exact hall _ (List.getLast_mem (by simp [TransitionSystem.states]))

/-- Left in the list, it runs again in the next pass. -/
theorem exists_started_twice :
    ¬ ∀ (s s' : TimerPasses Unit) (intervalMs repeatedCount nowMs : ℤ) (repeated : Bool)
      (mode : TimerMode) (tr : List (PassStep Unit × TimerPasses Unit)), system.Reachable s →
        system.step s (.request (.addTimer intervalMs repeated repeatedCount () mode nowMs)) s' →
          system.Run s' tr → (nowMs :: clockReadings tr).Pairwise (· ≤ ·) → ∀ q ∈ tr,
            RepetitionsRespected (s.newTimer intervalMs repeated repeatedCount () mode) q.2 := by
  intro h
  have hrun : system.Run (fresh.afterRequest onceAfterOneSecond)
      (TransitionSystem.states next (fresh.afterRequest onceAfterOneSecond)
        [.checkAndDoTimers 1000, .entry, .taskEnd, .passEnd, .checkAndDoTimers 1001, .entry]) :=
    .cons rfl (.cons rfl (.cons rfl (.cons rfl (.cons rfl (.cons rfl (.nil _))))))
  have hall := h fresh _ 1000 0 0 false .fixedInterval _ (.of_init init_fresh) rfl hrun (by decide)
  have hallowed := hall _ (.tail _ (.tail _ (.tail _ (.tail _ (.tail _ (.head _))))))
  exact absurd (hallowed.1 rfl) (by decide)

end TimerPasses

end Calc24
