import Calc24.Lib.Progress
import Calc24.App.Closing
import Calc24.App.Confinement
import Calc24.App.Intake

/-!
# The threads come round again

A worker thread that is in the middle of a turn through `EventLoop::run` does not get stuck there,
whatever the other threads do and whatever packages its clients have sent: as long as it is
scheduled it polls again and again (`polls_infinitelyOften`).  The reason is a rank.  A batch gets
shorter with each connection, and while a connection is read each round of
`Calc24Session::onRead` takes at least one byte off its receive buffer; no other thread adds to
either of them (`Confined.spares_next`).

A run may also end, with a fault; the theorem is about the runs that do not.  The loops inside a
step are total functions: the rounds of `::send` in a flush end because the kernel's answers to it
are a finite list, so an `EINTR` that is repeated for ever is left out.
-/

namespace Calc24

namespace World

variable {env : Environment} {cur : LoopId} {n : ℕ} {r t : Ref} {batch : List Ref}
  {w w₁ w' w'' : World} {stage stage' : Stage} {input : Input} {msg buf : Bytes}

/-! ## The rank of a thread -/

/-- What a thread still has to do before it polls: the phase of its turn, the connections or tasks
that remain, and what remains of the connection that is being read. -/
def rank (w : World) : Stage → ℕ ×ₗ ℕ ×ₗ ℕ
  | .poll => toLex (0, toLex (0, 0))
  | .timers => toLex (0, toLex (1, 0))
  | .tasks remaining => toLex (0, toLex (remaining.length + 2, 0))
  | .dispatch batch => toLex (1, toLex (2 * batch.length, 0))
  | .reading r batch =>
    toLex (1, toLex (2 * batch.length + 1, 3 * (w.connection r).recvBuf.remaining + 2))
  | .answered r batch =>
    toLex (1, toLex (2 * batch.length + 1, 3 * (w.connection r).recvBuf.remaining + 4))
  | .notified r batch =>
    toLex (1, toLex (2 * batch.length + 1, 3 * (w.connection r).recvBuf.remaining + 3))
  | .closing r true batch =>
    toLex (1, toLex (2 * batch.length + 1, 3 * (w.connection r).recvBuf.remaining + 3))
  | .closing _ false batch => toLex (1, toLex (2 * batch.length + 1, 1))
  | .writing _ batch => toLex (1, toLex (2 * batch.length + 1, 0))

/-- Within one phase, what counts is the rest. -/
lemma toLex_lt_of_rest {a b c b' c' : ℕ} (h : b < b' ∨ b = b' ∧ c < c') :
    (toLex (a, toLex (b, c)) : ℕ ×ₗ ℕ ×ₗ ℕ) < toLex (a, toLex (b', c')) := by
  rw [Prod.Lex.toLex_lt_toLex]
  refine Or.inr ⟨rfl, ?_⟩
  rw [Prod.Lex.toLex_lt_toLex]
  exact h

/-- Each round of `Calc24Session::onRead` takes something off the receive buffer, or is the last
one. -/
lemma rank_decode (h : w.decode env n r batch = some (stage', w')) :
    w'.rank stage' < w.rank (.reading r batch) := by
  unfold decode at h
  split at h
  · obtain ⟨rfl, rfl⟩ := Prod.mk.inj (Option.some.inj h)
    exact toLex_lt_of_rest (Or.inr ⟨rfl, by omega⟩)
  · obtain ⟨rfl, rfl⟩ := Prod.mk.inj (Option.some.inj h)
    exact toLex_lt_of_rest (Or.inr ⟨rfl, by omega⟩)
  · next recvBuf package hnext =>
    have hshorter : recvBuf.remaining < (w.connection r).recvBuf.remaining :=
      Calc24Session.remaining_lt_of_success hnext
    have hreceived : ∀ {w₁ : World}, KeepsInput (w.setRecvBuf r recvBuf) w₁ →
        (w₁.connection r).recvBuf.remaining < (w.connection r).recvBuf.remaining := by
      intro w₁ hw₁
      rw [hw₁ r, setRecvBuf_recvBuf]
      exact hshorter
    dsimp only at h
    split at h
    · obtain ⟨rfl, rfl⟩ := Prod.mk.inj (Option.some.inj h)
      have hanswered : KeepsInput (w.setRecvBuf r recvBuf)
          ((w.setRecvBuf r recvBuf).answer env (.worker n) r) := keepsInput_sendMsg
      have hless := hreceived hanswered
      exact toLex_lt_of_rest (Or.inr ⟨rfl, by omega⟩)
    · next hanswer =>
      obtain ⟨w₁, hok, heq⟩ := TransitionSystem.exists_ok_of_toOption_map h
      obtain ⟨rfl, rfl⟩ := Prod.mk.inj heq
      have hless := hreceived (keepsInput_processPackage hanswer hok)
      exact toLex_lt_of_rest (Or.inr ⟨rfl, by omega⟩)

/-- Every step of a worker thread but the poll brings the next poll nearer. -/
lemma rank_work (hstage : stage ≠ .poll) (h : w.work env n input stage = some (stage', w')) :
    w'.rank stage' < w.rank stage := by
  cases stage with
  | timers =>
    obtain ⟨rfl, rfl⟩ := Prod.mk.inj (Option.some.inj h)
    exact toLex_lt_of_rest (Or.inl (by decide))
  | poll => exact absurd rfl hstage
  | dispatch batch =>
    cases batch with
    | nil =>
      obtain ⟨rfl, rfl⟩ := Prod.mk.inj (Option.some.inj h)
      exact Prod.Lex.toLex_lt_toLex.mpr (Or.inl Nat.zero_lt_one)
    | cons r batch =>
      have hreceive : w.receive n r batch input.recv = (stage', w') := Option.some.inj h
      have hlength : 2 * batch.length + 1 < 2 * (r :: batch).length := by
        rw [List.length_cons]
        omega
      unfold receive at hreceive
      split at hreceive
      · obtain ⟨rfl, rfl⟩ := Prod.mk.inj hreceive
        exact toLex_lt_of_rest (Or.inl hlength)
      · split at hreceive <;> obtain ⟨rfl, rfl⟩ := Prod.mk.inj hreceive <;>
          exact toLex_lt_of_rest (Or.inl hlength)
  | reading r batch => exact rank_decode h
  | answered r batch =>
    obtain ⟨w₁, hok, heq⟩ := TransitionSystem.exists_ok_of_toOption_map h
    obtain ⟨rfl, rfl⟩ := Prod.mk.inj heq
    have hinput : (w₁.connection r).recvBuf = (w.connection r).recvBuf := keepsInput_sendAll hok r
    refine toLex_lt_of_rest (Or.inr ⟨rfl, ?_⟩)
    rw [hinput]
    omega
  | notified r batch =>
    obtain ⟨w₁, hok, heq⟩ := TransitionSystem.exists_ok_of_toOption_map h
    obtain ⟨rfl, rfl⟩ := Prod.mk.inj heq
    refine toLex_lt_of_rest (Or.inr ⟨rfl, ?_⟩)
    rw [(resetDesk_cases hok).1.connection]
    omega
  | closing r eof batch =>
    cases eof with
    | true =>
      obtain ⟨rfl, rfl⟩ := Prod.mk.inj (Option.some.inj h)
      exact toLex_lt_of_rest (Or.inr ⟨rfl, Nat.lt_succ_self _⟩)
    | false =>
      obtain ⟨rfl, rfl⟩ := Prod.mk.inj (Option.some.inj h)
      exact toLex_lt_of_rest (Or.inr ⟨rfl, Nat.zero_lt_one⟩)
  | writing r batch =>
    obtain ⟨rfl, rfl⟩ := Prod.mk.inj (Option.some.inj h)
    exact toLex_lt_of_rest (Or.inl (Nat.lt_succ_self _))
  | tasks remaining =>
    cases remaining with
    | nil =>
      obtain ⟨rfl, rfl⟩ := Prod.mk.inj (Option.some.inj h)
      exact toLex_lt_of_rest (Or.inl (by decide))
    | cons task rest =>
      obtain ⟨rfl, rfl⟩ := Prod.mk.inj (Option.some.inj h)
      exact toLex_lt_of_rest (Or.inl (by rw [List.length_cons]; omega))

/-! ## The queue of a thread -/

lemma Touches.customTasks_grow {A : Set Ref} (h : Touches A w w') (l : LoopId) :
    (w.loop l).customTasks <+: (w'.loop l).customTasks := by
  obtain ⟨new, heq, -⟩ := h.tasks l
  rw [heq]
  exact List.prefix_append _ _

lemma setEndpoint_customTasks (r : Ref) (p : Endpoint Dispatcher) (w : World) (l : LoopId) :
    (w.loop l).customTasks <+: ((w.setEndpoint r p).loop l).customTasks := by
  rw [(setEndpoint_loop r p w l).2]

/-- A round of `Calc24Session::onRead` takes nothing off the queue. -/
lemma customTasks_decode (h : w.decode env n r batch = some (stage', w')) (l : LoopId) :
    (w.loop l).customTasks <+: (w'.loop l).customTasks := by
  have hreceived : ∀ (recvBuf : ByteBuffer) {A : Set Ref} {w₁ : World},
      Touches A (w.setRecvBuf r recvBuf) w₁ → (w.loop l).customTasks <+: (w₁.loop l).customTasks :=
    fun recvBuf {A w₁} hw₁ =>
      List.IsPrefix.trans (setEndpoint_customTasks r _ w l) (hw₁.customTasks_grow l)
  rcases decode_cases h with ⟨-, rfl⟩ | ⟨-, rfl⟩ | ⟨recvBuf, -, -, rfl⟩ |
    ⟨recvBuf, package, hanswer, -, hok⟩
  · exact List.prefix_refl _
  · exact (touches_onClose (A := {r}) rfl).customTasks_grow l
  · exact hreceived recvBuf (touches_sendMsg (A := {r}) _ rfl)
  · rcases processPackage_cases hok with ⟨-, -, htouches⟩ | ⟨-, rfl⟩ | ⟨heq, -⟩
    · exact hreceived recvBuf htouches
    · exact setEndpoint_customTasks r _ w l
    · exact absurd heq hanswer

/-- Only at the end of a batch a thread takes tasks off its queue. -/
lemma customTasks_work (hidle : ∀ l, (w.loop l).timers.isCheckTimers = false)
    (hstage : stage ≠ .dispatch []) (h : w.work env n input stage = some (stage', w'))
    (l : LoopId) : (w.loop l).customTasks <+: (w'.loop l).customTasks := by
  cases stage with
  | timers =>
    obtain ⟨-, rfl⟩ := Prod.mk.inj (Option.some.inj h)
    exact (touches_checkAndDoTimers _ (hidle _)).customTasks_grow l
  | poll =>
    rw [work] at h
    split at h
    · obtain ⟨-, rfl⟩ := Prod.mk.inj (Option.some.inj h)
      refine List.foldlRecOn (motive := fun w₁ : World =>
        (w.loop l).customTasks <+: (w₁.loop l).customTasks) _ _ (List.prefix_refl _) ?_
      exact fun w₁ hw₁ event _ => List.IsPrefix.trans hw₁ (setEndpoint_customTasks _ _ w₁ l)
    · cases h
  | dispatch batch =>
    cases batch with
    | nil => exact absurd rfl hstage
    | cons r batch =>
      have hreceive : w.receive n r batch input.recv = (stage', w') := Option.some.inj h
      unfold receive at hreceive
      split at hreceive
      · obtain ⟨-, rfl⟩ := Prod.mk.inj hreceive
        exact List.prefix_refl _
      · split at hreceive
        · obtain ⟨-, rfl⟩ := Prod.mk.inj hreceive
          exact (touches_onClose (A := {r}) rfl).customTasks_grow l
        · obtain ⟨-, rfl⟩ := Prod.mk.inj hreceive
          exact List.prefix_refl _
        · obtain ⟨-, rfl⟩ := Prod.mk.inj hreceive
          exact setEndpoint_customTasks r _ w l
  | reading r batch => exact customTasks_decode h l
  | answered r batch =>
    obtain ⟨w₁, hok, heq⟩ := TransitionSystem.exists_ok_of_toOption_map h
    obtain ⟨-, rfl⟩ := Prod.mk.inj heq
    exact (touches_sendAll hok).1.customTasks_grow l
  | notified r batch =>
    obtain ⟨w₁, hok, heq⟩ := TransitionSystem.exists_ok_of_toOption_map h
    obtain ⟨-, rfl⟩ := Prod.mk.inj heq
    obtain ⟨new, hnew, -⟩ := (resetDesk_cases hok).1.tasks l
    rw [hnew]
    exact List.prefix_append _ _
  | closing r eof batch =>
    cases eof with
    | true =>
      obtain ⟨-, rfl⟩ := Prod.mk.inj (Option.some.inj h)
      exact List.prefix_refl _
    | false =>
      obtain ⟨-, rfl⟩ := Prod.mk.inj (Option.some.inj h)
      exact List.prefix_refl _
  | writing r batch =>
    obtain ⟨-, rfl⟩ := Prod.mk.inj (Option.some.inj h)
    exact setEndpoint_customTasks r _ w l
  | tasks remaining =>
    cases remaining with
    | nil =>
      obtain ⟨-, rfl⟩ := Prod.mk.inj (Option.some.inj h)
      exact List.prefix_refl _
    | cons task rest =>
      obtain ⟨-, rfl⟩ := Prod.mk.inj (Option.some.inj h)
      cases task with
      | send r buf =>
        have htouches : Touches {r} w (runTask env (.worker n) w (.send r buf)) :=
          (touches_log _).trans (touches_send buf rfl)
        exact htouches.customTasks_grow l
      | addTimerInternal spTimer =>
        rw [runTask, addTimerInternal, if_pos rfl, loopTimers_modify]
        by_cases hl : l = .worker n <;> simp [modifyLoop, hl]
      | removeTimerInternal timerID =>
        have htouches : Touches ∅ w (runTask env (.worker n) w (.removeTimerInternal timerID)) :=
          touches_removeTimer timerID
        exact htouches.customTasks_grow l

/-- The rank depends on the connections that the thread holds on to. -/
lemma rank_congr (h : ∀ t ∈ stage.held, w'.connection t = w.connection t) :
    w'.rank stage = w.rank stage := by
  cases stage with
  | reading r batch => rw [rank, rank, h r (List.mem_cons_self ..)]
  | answered r batch => rw [rank, rank, h r (List.mem_cons_self ..)]
  | notified r batch => rw [rank, rank, h r (List.mem_cons_self ..)]
  | closing r eof batch =>
    cases eof with
    | true => rw [rank, rank, h r (List.mem_cons_self ..)]
    | false => rfl
  | _ => rfl

end World

/-- A thread that has no connection to read. -/
def Stage.Idles : Stage → Prop
  | .timers => True
  | .poll => True
  | .dispatch [] => True
  | .tasks _ => True
  | _ => False

namespace Process

open World

variable {env : Environment} {s s' : Process} {step : Step} {n : ℕ}

/-- The step is one of a worker thread. -/
def IsOf (n : ℕ) (_ : Process) (step : Step) : Prop :=
  step.thread = .worker n

/-- The step is a poll of a worker thread. -/
def Polls (n : ℕ) (s : Process) (step : Step) : Prop :=
  step.thread = .worker n ∧ s.stage n = .poll

/-- The steps of other threads do not concern a thread in its turn. -/
lemma other_step (hreach : (interleaved env).Reachable s) (hstep : s.next env step = some s')
    (hother : ¬ IsOf n s step) : s'.stage n = s.stage n ∧
      s'.world.rank (s'.stage n) = s.world.rank (s.stage n) ∧
      (s.world.loop (.worker n)).customTasks <+: (s'.world.loop (.worker n)).customTasks := by
  have hconfined := confined_reachable hreach
  obtain ⟨hspares, -, hstage⟩ := hconfined.spares_next hstep hother
  refine ⟨hstage n rfl, ?_, hspares.tasks⟩
  rw [hstage n rfl]
  refine rank_congr fun t ht => ?_
  obtain ⟨hlt, hloop⟩ := hconfined.sound.held n t ht
  exact hspares.connection t hlt hloop

/-- A step of a worker thread. -/
lemma own_step (hstep : s.next env step = some s') (hown : IsOf n s step) :
    ∃ input, s.world.work env n input (s.stage n) = some (s'.stage n, s'.world) := by
  rcases next_cases hstep with ⟨fd, order, w, rfl, hok, rfl⟩ | ⟨w, rfl, hok, rfl⟩ |
    ⟨m, input, stage, w, rfl, -, hwork, rfl⟩
  · cases hown
  · cases hown
  · obtain rfl : m = n := LoopId.worker.inj hown
    refine ⟨input, ?_⟩
    simpa using hwork

/-- A step is a poll, or brings the thread nearer to one if it is its own. -/
lemma polls_or_rank (hreach : (interleaved env).Reachable s) (hstep : s.next env step = some s') :
    Polls n s step ∨ s'.world.rank (s'.stage n) ≤ s.world.rank (s.stage n) ∧
      (IsOf n s step → s'.world.rank (s'.stage n) < s.world.rank (s.stage n)) := by
  by_cases hown : IsOf n s step
  · by_cases hpoll : s.stage n = .poll
    · exact Or.inl ⟨hown, hpoll⟩
    · obtain ⟨input, hwork⟩ := own_step hstep hown
      have hless := rank_work hpoll hwork
      exact Or.inr ⟨hless.le, fun _ => hless⟩
  · exact Or.inr ⟨(other_step hreach hstep hown).2.1.le, fun h => absurd h hown⟩

/-- **No thread is stuck in a turn.**  In every infinite run in which a worker thread does not
cease to be scheduled and every flush comes to an end, it polls infinitely often. -/
theorem polls_infinitelyOften (e : (interleaved env).Execution)
    (hfair : e.InfinitelyOften (IsOf n)) : e.InfinitelyOften (Polls n) := by
  refine TransitionSystem.Execution.infinitelyOften_of_rank
    (fun s : Process => s.world.rank (s.stage n)) (fun s step s' hreach hstep => ?_) hfair
  exact polls_or_rank hreach hstep

/-! ## What is queued is run -/

/-- A thread that starts a turn swaps its queue later than one that has polled. -/
def turnsToSwap : Stage → ℕ
  | .timers => 2
  | .tasks _ => 2
  | .poll => 1
  | _ => 0

/-- The step swaps the queue of a worker thread for an empty one, and with it the tasks `queue`. -/
def Swaps (n : ℕ) (queue : List CustomTask) (s : Process) (step : Step) : Prop :=
  step.thread = .worker n ∧ s.stage n = .dispatch [] ∧
    queue <+: (s.world.loop (.worker n)).customTasks

/-- The step runs the first of the tasks that remain. -/
def RunsFirst (n : ℕ) (remaining : List CustomTask) (s : Process) (step : Step) : Prop :=
  step.thread = .worker n ∧ s.stage n = .tasks remaining

/-- From one poll to the next a thread has one batch. -/
lemma turnsToSwap_work {w w' : World} {stage stage' : Stage} {input : Input}
    (h : w.work env n input stage = some (stage', w')) (hstage : stage ≠ .dispatch []) :
    turnsToSwap stage' < turnsToSwap stage ∨
      turnsToSwap stage' = turnsToSwap stage ∧ w'.rank stage' < w.rank stage := by
  cases stage with
  | poll =>
    rw [work] at h
    split at h
    · obtain ⟨rfl, -⟩ := Prod.mk.inj (Option.some.inj h)
      exact Or.inl Nat.zero_lt_one
    · cases h
  | timers =>
    obtain ⟨rfl, -⟩ := Prod.mk.inj (Option.some.inj h)
    exact Or.inl Nat.one_lt_two
  | tasks remaining =>
    refine Or.inr ⟨?_, rank_work (by simp) h⟩
    cases remaining <;> obtain ⟨rfl, -⟩ := Prod.mk.inj (Option.some.inj h) <;> rfl
  | dispatch batch =>
    refine Or.inr ⟨?_, rank_work (by simp) h⟩
    cases batch with
    | nil => exact absurd rfl hstage
    | cons r batch =>
      have hreceive : w.receive n r batch input.recv = (stage', w') := Option.some.inj h
      unfold receive at hreceive
      split at hreceive
      · obtain ⟨rfl, -⟩ := Prod.mk.inj hreceive
        rfl
      · split at hreceive <;> obtain ⟨rfl, -⟩ := Prod.mk.inj hreceive <;> rfl
  | reading r batch =>
    refine Or.inr ⟨?_, rank_work (by simp) h⟩
    rcases decode_cases h with ⟨rfl, -⟩ | ⟨rfl, -⟩ | ⟨-, -, rfl, -⟩ | ⟨-, -, -, rfl, -⟩ <;> rfl
  | answered r batch =>
    refine Or.inr ⟨?_, rank_work (by simp) h⟩
    obtain ⟨_, _, heq⟩ := TransitionSystem.exists_ok_of_toOption_map h
    obtain ⟨rfl, -⟩ := Prod.mk.inj heq
    rfl
  | notified r batch =>
    refine Or.inr ⟨?_, rank_work (by simp) h⟩
    obtain ⟨_, _, heq⟩ := TransitionSystem.exists_ok_of_toOption_map h
    obtain ⟨rfl, -⟩ := Prod.mk.inj heq
    rfl
  | closing r eof batch =>
    refine Or.inr ⟨?_, rank_work (by simp) h⟩
    cases eof <;> obtain ⟨rfl, -⟩ := Prod.mk.inj (Option.some.inj h) <;> rfl
  | writing r batch =>
    refine Or.inr ⟨?_, rank_work (by simp) h⟩
    obtain ⟨rfl, -⟩ := Prod.mk.inj (Option.some.inj h)
    rfl

/-- The thread comes to the end of a batch, and then takes all of its queue. -/
lemma leadsTo_swaps (e : (interleaved env).Execution) (hfair : e.InfinitelyOften (IsOf n))
    (queue : List CustomTask) (i : ℕ)
    (hqueue : queue <+: ((e.state i).world.loop (.worker n)).customTasks) :
    ∃ j ≥ i, Swaps n queue (e.state j) (e.label j) := by
  refine TransitionSystem.Execution.leadsTo_of_rank
    (P := fun s : Process => queue <+: (s.world.loop (.worker n)).customTasks)
    (fun s : Process => toLex (turnsToSwap (s.stage n), s.world.rank (s.stage n)))
    (fun s step s' hreach hqueue hstep => ?_) hfair i hqueue
  by_cases hown : IsOf n s step
  · by_cases hswap : s.stage n = .dispatch []
    · exact Or.inl ⟨hown, hswap, hqueue⟩
    · obtain ⟨input, hwork⟩ := own_step hstep hown
      have hless : toLex (turnsToSwap (s'.stage n), s'.world.rank (s'.stage n)) <
          toLex (turnsToSwap (s.stage n), s.world.rank (s.stage n)) := by
        rw [Prod.Lex.toLex_lt_toLex]
        exact turnsToSwap_work hwork hswap
      have hkeeps := customTasks_work (sound_reachable hreach).idle hswap hwork (.worker n)
      exact Or.inr ⟨hqueue.trans hkeeps, hless.le, fun _ => hless⟩
  · obtain ⟨hstage, hrank, hkeeps⟩ := other_step hreach hstep hown
    refine Or.inr ⟨hqueue.trans hkeeps, ?_, fun h => absurd h hown⟩
    rw [hstage, ← hrank, hstage]

/-- What a thread has taken it runs, one task after the other. -/
lemma leadsTo_runsFirst (e : (interleaved env).Execution) (hfair : e.InfinitelyOften (IsOf n))
    (batch : List CustomTask) (k i : ℕ) (hk : k < batch.length)
    (hstage : (e.state i).stage n = .tasks batch) :
    ∃ j ≥ i, RunsFirst n (batch.drop k) (e.state j) (e.label j) := by
  refine TransitionSystem.Execution.leadsTo_of_rank
    (P := fun s : Process => ∃ m ≤ k, s.stage n = .tasks (batch.drop m))
    (fun s : Process => s.world.rank (s.stage n))
    (fun s step s' hreach hat hstep => ?_) hfair i ⟨0, Nat.zero_le k, hstage⟩
  obtain ⟨m, hm, hat⟩ := hat
  by_cases hown : IsOf n s step
  · rcases hm.eq_or_lt with rfl | hm
    · exact Or.inl ⟨hown, hat⟩
    · obtain ⟨input, hwork⟩ := own_step hstep hown
      have hless : s'.world.rank (s'.stage n) < s.world.rank (s.stage n) :=
        rank_work (by simp [hat]) hwork
      refine Or.inr ⟨⟨m + 1, hm, ?_⟩, hless.le, fun _ => hless⟩
      rw [hat, List.drop_eq_getElem_cons (hm.trans hk)] at hwork
      exact (Prod.mk.inj (Option.some.inj hwork)).1.symm
  · obtain ⟨hsame, hrank, -⟩ := other_step hreach hstep hown
    exact Or.inr ⟨⟨m, hm, hsame.trans hat⟩, by rw [hrank], fun h => absurd h hown⟩

/-- **Every queued task is run.**  In every infinite run in which a worker thread does not cease to
be scheduled, it sooner or later takes all that its queue holds at some moment, with what has been
queued by then behind it, and runs every one of these tasks, in their order. -/
theorem queued_runs (e : (interleaved env).Execution) (hfair : e.InfinitelyOften (IsOf n)) (i : ℕ) :
    ∃ j ≥ i, ∃ batch, ((e.state i).world.loop (.worker n)).customTasks <+: batch ∧
      (e.state j).stage n = .tasks batch ∧
      ∀ k < batch.length, ∃ j' ≥ j, RunsFirst n (batch.drop k) (e.state j') (e.label j') := by
  obtain ⟨j, hj, hthread, hend, hqueue⟩ := leadsTo_swaps e hfair _ i (List.prefix_refl _)
  obtain ⟨input, hwork⟩ := own_step (e.step j) hthread
  rw [hend] at hwork
  have hstage := (Prod.mk.inj (Option.some.inj hwork)).1.symm
  refine ⟨j + 1, by omega, _, hqueue, hstage, fun k hk => ?_⟩
  exact leadsTo_runsFirst e hfair _ k (j + 1) hk hstage

/-- The states of a thread whose polls report nothing. -/
structure GoesRound (env : Environment) (n : ℕ) (s : Process) : Prop where
  reachable : (interleaved env).Reachable s
  lt : n < s.world.threadNum
  idles : (s.stage n).Idles

/-- A thread whose poll reports nothing goes on. -/
lemma GoesRound.exists_next (h : GoesRound env n s) :
    ∃ s', s.next env (goOn n) = some s' ∧ GoesRound env n s' := by
  have hwork : ∃ stage w, s.world.work env n {} (s.stage n) = some (stage, w) ∧ stage.Idles := by
    have hidles := h.idles
    cases hstage : s.stage n with
    | timers => exact ⟨_, _, rfl, trivial⟩
    | poll =>
      have hpoll : s.world.work env n {} .poll = some (.dispatch [], s.world) := by
        simp [work]
      exact ⟨_, _, hpoll, trivial⟩
    | dispatch batch =>
      cases batch with
      | nil => exact ⟨_, _, rfl, trivial⟩
      | cons r batch =>
        rw [hstage] at hidles
        exact hidles.elim
    | tasks remaining =>
      cases remaining with
      | nil => exact ⟨_, _, rfl, trivial⟩
      | cons task rest => exact ⟨_, _, rfl, trivial⟩
    | _ =>
      rw [hstage] at hidles
      exact hidles.elim
  obtain ⟨stage, w, hwork, hidles⟩ := hwork
  have hnext : s.next env (goOn n) =
      some { world := w, stage := Function.update s.stage n stage } := by
    simp only [goOn, next]
    rw [if_pos h.lt, hwork]
    rfl
  have hsound := sound_reachable h.reachable
  have hturn := turn_work hsound.idle
    (fun task htask t ht => (hsound.remaining n task htask t ht).2) hwork
  refine ⟨_, hnext, h.reachable.tail hnext, ?_, ?_⟩
  · rw [hturn.affects.threadNum]
    exact h.lt
  · simpa using hidles

/-- A process whose worker thread `n` goes round, and nobody else does anything. -/
def goingRound (n : ℕ) (s : Process) : ℕ → Process
  | 0 => s
  | i + 1 => ((goingRound n s i).next calm (goOn n)).getD (goingRound n s i)

lemma goesRound_goingRound (h : GoesRound calm n s) (i : ℕ) :
    GoesRound calm n (goingRound n s i) := by
  induction i with
  | zero => exact h
  | succ i ih =>
    obtain ⟨s', hnext, hs'⟩ := ih.exists_next
    rw [goingRound, hnext]
    exact hs'

/-- An infinite run. -/
def goingRoundRun (h : GoesRound calm n s) : (interleaved calm).Execution where
  state := goingRound n s
  label _ := goOn n
  reachable := h.reachable
  step i := by
    obtain ⟨s', hnext, -⟩ := (goesRound_goingRound h i).exists_next
    have hstate : goingRound n s (i + 1) = s' := by rw [goingRound, hnext, Option.getD_some]
    rw [hstate]
    exact hnext

/-- Somebody has connected, and the base loop has queued the timer for the worker thread. -/
lemma goesRound_connected : GoesRound calm 0 (runSteps calm (start 1) [.connect 5 []]) where
  reachable := reachableUnder_runSteps (.init ⟨1, by decide, rfl⟩) (by decide)
  lt := by decide
  idles := trivial

/-- In the run that follows the thread polls infinitely often. -/
theorem polls_infinitelyOften_connected :
    (goingRoundRun goesRound_connected).InfinitelyOften (Polls 0) :=
  polls_infinitelyOften (goingRoundRun goesRound_connected) fun i => ⟨i, le_refl i, rfl⟩

/-- And it runs the task that starts the timer. -/
theorem queued_runs_connected :
    ∃ j ≥ 0, ∃ batch,
      (((goingRoundRun goesRound_connected).state 0).world.loop (.worker 0)).customTasks <+: batch ∧
      ((goingRoundRun goesRound_connected).state j).stage 0 = .tasks batch ∧
      ∀ k < batch.length, ∃ j' ≥ j, RunsFirst 0 (batch.drop k)
        ((goingRoundRun goesRound_connected).state j')
        ((goingRoundRun goesRound_connected).label j') :=
  queued_runs (goingRoundRun goesRound_connected) (fun i => ⟨i, le_refl i, rfl⟩) 0

end Process

end Calc24
