import Calc24.App.Turns

/-!
# Released sessions

`onConnected` destroys the sessions that have disconnected, on the thread of the base loop, while
tasks, timers and the calls of the session's own thread hold raw pointers to them.  Nothing runs
on a session after that if its own loop is done with it at that moment: no reminder of it is
registered there, no task for it is queued, and the thread does not hold on to it (`Quiescent`).
From then on it is inert: no step of any thread brings it back (`nothingRuns`).
-/

namespace Calc24

/-- The execution of a queued send, or a reminder, of a session. -/
def Event.RunsOn (r : Ref) : Event → Prop
  | .sendTask t => t = r
  | .reminder t _ => t = r
  | _ => False

namespace Process

open World

variable {env : Environment} {s s' : Process} {step : Step} {r t : Ref}

/-- After a session has been released none of its queued sends is executed and none of its
reminders is called, and none of its calls is in progress. -/
def NothingRuns (s : Process) : Prop :=
  (∀ r, Event.released r ∈ s.world.trace → ∀ n, (s.stage n).inProgress ≠ some r) ∧
  s.world.trace.Pairwise fun newer older => ∀ r, older = .released r → ¬ newer.RunsOn r

/-- The stage of the thread of a loop; the base loop holds no connections. -/
def threadStage (s : Process) : LoopId → Stage
  | .base => .poll
  | .worker n => s.stage n

/-- The loop of a session is done with it. -/
def Quiescent (s : Process) (r : Ref) : Prop :=
  (∀ t ∈ (s.world.loop (s.world.connection r).loop).timers.entries, t.timerTask ≠ .reminder r) ∧
  (∀ task ∈ (s.world.loop (s.world.connection r).loop).customTasks, ¬ task.Concerns r) ∧
  (∀ task ∈ (s.threadStage (s.world.connection r).loop).remainingTasks, ¬ task.Concerns r) ∧
  r ∉ (s.threadStage (s.world.connection r).loop).held

instance (s : Process) (r : Ref) : Decidable (Quiescent s r) :=
  inferInstanceAs (Decidable (_ ∧ _ ∧ _ ∧ _))

/-- A connection is only accepted when the loops of all pending sessions are done with them. -/
def ReleasesQuiescent (s : Process) : Step → Prop
  | .connect _ _ => ∀ r ∈ s.world.pendingToDeleteSessions, Quiescent s r
  | _ => True

instance (s : Process) (step : Step) : Decidable (ReleasesQuiescent s step) :=
  match step with
  | .connect _ _ =>
    inferInstanceAs (Decidable (∀ r ∈ s.world.pendingToDeleteSessions, Quiescent s r))
  | .checkHandup => .isTrue trivial
  | .worker _ _ => .isTrue trivial

/-! ## Inert sessions -/

/-- No loop and no thread has anything left of a session. -/
structure Unused (s : Process) (r : Ref) : Prop where
  lt : r < s.world.nextRef
  entries : ∀ l, ∀ t ∈ (s.world.loop l).timers.entries, t.timerTask ≠ .reminder r
  tasks : ∀ l, ∀ task ∈ (s.world.loop l).customTasks, ¬ task.Concerns r
  remaining : ∀ n, ∀ task ∈ (s.stage n).remainingTasks, ¬ task.Concerns r
  held : ∀ n, r ∉ (s.stage n).held

/-- A session of which nothing is left, the server's ownership included. -/
structure Inert (s : Process) (r : Ref) : Prop extends Unused s r where
  not_owned : r ∉ s.world.owned

/-- Only its own loop can have anything of a session, so a quiescent one is unused. -/
lemma Quiescent.unused (h : Quiescent s r) (hsound : Sound s) (hlt : r < s.world.nextRef) :
    Unused s r := by
  obtain ⟨hentries, htasks, hremaining, hheld⟩ := h
  refine ⟨hlt, fun l t ht hreminds => ?_, fun l task htask hconcerns => ?_,
    fun n task htask hconcerns => ?_, fun n hmem => ?_⟩
  · obtain ⟨-, rfl⟩ := hsound.entries l t ht r hreminds
    exact hentries t ht hreminds
  · obtain ⟨-, rfl⟩ := hsound.tasks l task htask r hconcerns
    exact htasks task htask hconcerns
  · have hl := (hsound.remaining n task htask r hconcerns).2
    rw [hl] at hremaining
    exact hremaining task htask hconcerns
  · have hl := (hsound.held n r hmem).2
    rw [hl] at hheld
    exact hheld hmem

/-- Nobody works on behalf of an inert session. -/
lemma Inert.not_mem_involved (h : Inert s r) (n : ℕ) :
    r ∉ Involved n (s.stage n) s.world := by
  rintro (hmem | hheld | ⟨task, htask, hconcerns⟩ | ⟨timer, htimer, hreminds⟩)
  · exact h.not_owned (List.mem_append_left _ hmem)
  · exact h.held n hheld
  · exact h.remaining n task htask hconcerns
  · exact h.entries _ timer htimer hreminds

/-- What happens on behalf of other sessions leaves an inert session inert. -/
lemma Inert.affects (h : Inert s r) {A : Set Ref} {w : World} (hA : r ∉ A)
    (hw : Affects A s.world w) : Inert { s with world := w } r where
  lt := by
    rw [hw.nextRef]
    exact h.lt
  entries l t ht hreminds := by
    rcases hw.entries l t ht with hold | ⟨r', hr', -, htask⟩
    · exact h.entries l t hold hreminds
    · obtain rfl : r' = r := by simpa using htask.symm.trans hreminds
      exact hA hr'
  tasks l task htask hconcerns := by
    rcases hw.tasks l task htask with hold | ⟨r', hr', -, hother⟩ | ⟨timerID, rfl⟩
    · exact h.tasks l task hold hconcerns
    · obtain rfl := CustomTask.concerns_unique hother hconcerns
      exact hA hr'
    · exact hconcerns
  remaining := h.remaining
  held := h.held
  not_owned hmem := h.not_owned (hw.owned.mem_iff.mp hmem)

/-- A connect leaves sessions unused, those that it releases included. -/
lemma Unused.connects (h : Unused s r) {w : World}
    (hw : Connects s.world.nextRef s.world w) : Unused { s with world := w } r where
  lt := by
    rw [hw.nextRef]
    exact h.lt.trans (Nat.lt_succ_self _)
  entries l t ht hreminds := by
    rcases hw.entries l t ht with hold | ⟨-, htask, -⟩
    · exact h.entries l t hold hreminds
    · exact h.lt.ne' (by simpa using htask.symm.trans hreminds)
  tasks l task htask hconcerns := by
    rcases hw.tasks l task htask with hold | ⟨-, hother, -⟩ | ⟨timerID, rfl⟩
    · exact h.tasks l task hold hconcerns
    · exact h.lt.ne' (CustomTask.concerns_unique hother hconcerns)
    · exact hconcerns
  remaining := h.remaining
  held := h.held

/-- A session that the server does not hold, or holds as pending only, is not held after a
connect. -/
lemma not_mem_owned_connects {w w' : World} (hwf : WellFormed w) (hlt : r < w.nextRef)
    (hr : r ∉ w.owned ∨ r ∈ w.pendingToDeleteSessions) (hw : Connects w.nextRef w w') :
    r ∉ w'.owned := by
  intro hmem
  rcases hw.owned r hmem with rfl | hsession
  · exact lt_irrefl _ hlt
  · rcases hr with hnot | hpending
    · exact hnot (List.mem_append_left _ hsession)
    · have hnodup := hwf.owned_nodup
      rw [World.owned, List.nodup_append] at hnodup
      exact hnodup.2.2 r hsession r hpending rfl

/-! ## Runs -/

/-- Every released session is inert, and nothing has run on it. -/
structure Released (s : Process) : Prop where
  sound : Sound s
  inert : ∀ r, Event.released r ∈ s.world.trace → Inert s r
  ordered : s.world.trace.Pairwise fun newer older => ∀ r, older = .released r → ¬ newer.RunsOn r

lemma Released.nothing_runs (h : Released s) : NothingRuns s := by
  refine ⟨fun r hr n hprogress => ?_, h.ordered⟩
  exact (h.inert r hr).held n (Stage.mem_held_of_inProgress hprogress)

lemma released_start (threadNum : ℕ) : Released (start threadNum) where
  sound := sound_start threadNum
  inert _ hr := absurd hr List.not_mem_nil
  ordered := List.Pairwise.nil

/-- Events that run on no session and release none can be recorded at any time. -/
lemma Released.ordered_append (h : Released s) {new : List Event}
    (hreleased : ∀ e ∈ new, ∀ r, e = .released r → ∀ e' ∈ new, ¬ e'.RunsOn r)
    (hruns : ∀ e ∈ new, ∀ r, Event.released r ∈ s.world.trace → ¬ e.RunsOn r) :
    (new ++ s.world.trace).Pairwise
      fun newer older => ∀ r, older = .released r → ¬ newer.RunsOn r := by
  rw [List.pairwise_append]
  refine ⟨?_, h.ordered, ?_⟩
  · refine List.pairwise_of_forall_mem_list fun e he e' he' r hr => ?_
    exact hreleased e' he' r hr e he
  · rintro e he e' he' r rfl
    exact hruns e he r he'

/-- A connect that finds all pending sessions quiescent keeps the released ones inert. -/
lemma Released.connect (h : Released s) {fd : ℕ} {order : List (Int32 × Ref)} {w : World}
    (hguard : ∀ r ∈ s.world.pendingToDeleteSessions, Quiescent s r)
    (hok : (s.world.onAccept fd).onConnected env .base s.world.nextRef order = .ok w)
    (hsound : Sound { s with world := w }) : Released { s with world := w } := by
  have hconnects := connect_cases h.sound.wellFormed hok
  have htrace : w.trace = (.sent s.world.nextRef welcomeMsg ::
      (s.world.pendingToDeleteSessions.map Event.released).reverse) ++ s.world.trace :=
    hconnects.trace
  refine ⟨hsound, fun r hr => ?_, ?_⟩
  · have hunused : Unused s r ∧ (r ∉ s.world.owned ∨ r ∈ s.world.pendingToDeleteSessions) := by
      simp only [htrace, List.mem_append, List.mem_cons, List.mem_reverse, List.mem_map,
        Event.released.injEq, exists_eq_right, reduceCtorEq, false_or] at hr
      rcases hr with hpending | hbefore
      · have hlt : r < s.world.nextRef :=
          h.sound.wellFormed.owned_lt r (List.mem_append_right _ hpending)
        exact ⟨(hguard r hpending).unused h.sound hlt, Or.inr hpending⟩
      · exact ⟨(h.inert r hbefore).toUnused, Or.inl (h.inert r hbefore).not_owned⟩
    exact { hunused.1.connects hconnects with
      not_owned := not_mem_owned_connects h.sound.wellFormed hunused.1.lt hunused.2 hconnects }
  · -- neither the welcome nor a release runs on a session
    have hquiet : ∀ e ∈ Event.sent s.world.nextRef welcomeMsg ::
        (s.world.pendingToDeleteSessions.map Event.released).reverse, ∀ r, ¬ e.RunsOn r := by
      intro e he r hruns
      rcases List.mem_cons.mp he with rfl | he
      · exact hruns
      · obtain ⟨r', -, rfl⟩ := List.mem_map.mp (List.mem_reverse.mp he)
        exact hruns
    simp only [htrace]
    exact h.ordered_append (fun _ _ r _ e' he' => hquiet e' he' r) fun e he r _ => hquiet e he r

/-- Every step that meets the guard keeps the released sessions inert. -/
theorem Released.next (h : Released s) (hguard : ReleasesQuiescent s step)
    (hstep : s.next env step = some s') : Released s' := by
  have hsound := h.sound.next hstep
  rcases next_cases hstep with ⟨fd, order, w, rfl, hok, rfl⟩ | ⟨w, rfl, hok, rfl⟩ |
    ⟨n, input, stage, w, rfl, -, hwork, rfl⟩
  · exact h.connect hguard hok hsound
  · obtain ⟨new, heq, hnew⟩ := records_checkHandup hok
    have hquiet : ∀ e ∈ new, (∀ r, ¬ e.RunsOn r) ∧ ∀ r, e ≠ .released r := by
      intro e he
      have hdealing := hnew e he
      cases e with
      | sent r buf => exact ⟨fun _ hruns => hruns, fun _ h => by cases h⟩
      | dealt r deskID => exact ⟨fun _ hruns => hruns, fun _ h => by cases h⟩
      | _ => exact hdealing.elim
    refine ⟨hsound, fun r hr => ?_, ?_⟩
    · simp only [heq] at hr
      rcases List.mem_append.mp hr with hmem | hbefore
      · exact absurd rfl ((hquiet _ hmem).2 r)
      · have hinert := h.inert r hbefore
        exact hinert.affects (fun hmem => hinert.not_owned (List.mem_append_left _ hmem))
          (affects_checkHandup hok)
    · simp only [heq]
      exact h.ordered_append (fun e he r hr => absurd hr ((hquiet e he).2 r))
        fun e he r _ => (hquiet e he).1 r
  · have hturn := turn_work h.sound.idle
      (fun task htask t ht => (h.sound.remaining n task htask t ht).2) hwork
    -- what is recorded is of sessions that are involved, and inert ones are not
    obtain ⟨new, heq, hnew⟩ : ∃ new, w.trace = new ++ s.world.trace ∧ ∀ e ∈ new,
        (∀ r, e.RunsOn r → r ∈ Involved n (s.stage n) s.world) ∧ ∀ r, e ≠ .released r := by
      rcases hturn.records with ⟨new, heq, hnew⟩ | ⟨r, batch, -, -, hsent⟩
      · refine ⟨new, heq, fun e he => ?_⟩
        have hordinary := hnew e he
        cases e with
        | sent t buf => exact ⟨fun _ hruns => hruns.elim, fun _ h => by cases h⟩
        | sendTask t => exact ⟨fun r hruns => hruns ▸ hordinary, fun _ h => by cases h⟩
        | reminder t timerID => exact ⟨fun r hruns => hruns ▸ hordinary, fun _ h => by cases h⟩
        | _ => exact hordinary.elim
      · refine ⟨[.sent r rightAnswer], hsent, ?_⟩
        simp only [List.mem_singleton, forall_eq]
        exact ⟨fun _ hruns => hruns.elim, fun _ h => by cases h⟩
    have hbefore : ∀ r, Event.released r ∈ w.trace → Event.released r ∈ s.world.trace := by
      intro r hr
      rw [heq] at hr
      rcases List.mem_append.mp hr with hmem | hold
      · exact absurd rfl ((hnew _ hmem).2 r)
      · exact hold
    refine ⟨hsound, fun r hr => ?_, ?_⟩
    · have hinert := h.inert r (hbefore r hr)
      have hafter := hinert.affects (hinert.not_mem_involved n) hturn.affects
      refine { hafter with remaining := fun m task htask => ?_, held := fun m hmem => ?_ }
      · by_cases hm : m = n
        · subst hm
          simp only [Function.update_self] at htask
          rcases hturn.tasks task htask with hold | hqueued
          · exact hinert.remaining m task hold
          · exact hinert.tasks _ task hqueued
        · simp only [Function.update_of_ne hm] at htask
          exact hafter.remaining m task htask
      · by_cases hm : m = n
        · subst hm
          simp only [Function.update_self] at hmem
          rcases hturn.held r hmem with hold | hreported
          · exact hinert.held m hold
          · exact hreported.1.2 (hbefore r hr)
        · simp only [Function.update_of_ne hm] at hmem
          exact hafter.held m hmem
    · simp only [heq]
      exact h.ordered_append (fun e he r hr => absurd hr ((hnew e he).2 r)) fun e he r hr hruns =>
        (h.inert r hr).not_mem_involved n ((hnew e he).1 r hruns)

/-- **In every interleaving in which connections are only accepted when the loops of the pending
sessions are done with them, nothing runs on a released session.** -/
theorem nothingRuns (h : (interleaved env).ReachableUnder ReleasesQuiescent s) :
    NothingRuns s := by
  have hreleased : Released s := by
    refine h.invariant ?_ fun _ _ _ h hguard hstep => h.next hguard hstep
    rintro s ⟨threadNum, -, rfl⟩
    exact released_start threadNum
  exact hreleased.nothing_runs

/-- A client connects, the worker thread executes the queued tasks, and then it sees the end of the
client's stream. -/
def connectAndLeave : List Step :=
  [.connect 5 [], goOn 0, goOn 0, goOn 0, goOn 0, goOn 0, goOn 0, goOn 0, pollRead 0 0,
    .worker 0 { recv := .eof }]

/-- The worker thread finishes its turn before the next client connects: the session is released,
and nothing runs on it. -/
theorem nothingRuns_of_late_connect :
    NothingRuns (runSteps calm (start 1)
      (connectAndLeave ++ [goOn 0, goOn 0, goOn 0, goOn 0, goOn 0, .connect 6 [], goOn 0])) := by
  have hreach : (interleaved calm).ReachableUnder ReleasesQuiescent (runSteps calm (start 1)
      (connectAndLeave ++ [goOn 0, goOn 0, goOn 0, goOn 0, goOn 0, .connect 6 [], goOn 0])) :=
    reachableUnder_runSteps (.init ⟨1, by decide, rfl⟩) (by decide)
  exact nothingRuns hreach

/-- If the next client connects while the worker thread is still in `onRead`, the session that it
is called on is destroyed. -/
theorem exists_released_in_progress :
    ¬ ∀ env s, (interleaved env).Reachable s → NothingRuns s := by
  intro h
  have hreach : (interleaved calm).Reachable
      (runSteps calm (start 1) (connectAndLeave ++ [.connect 6 []])) :=
    reachableUnder_runSteps (.init ⟨1, by decide, rfl⟩) (by decide)
  exact (h calm _ hreach).1 0 (by decide) 0 (by decide)

end Process

end Calc24
