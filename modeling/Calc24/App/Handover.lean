import Calc24.App.Delivery
import Calc24.App.Progress

/-!
# What is sent is handed over

`Delivery` says where the messages to a session are; here it is shown that none of them stays in a
queue.  In every infinite run in which the thread of the session's loop does not cease to be
scheduled, everything that has been sent at some moment is later handed to `sendInternal`
(`handed_over`), whatever the kernel answers, as long as it does not answer `EINTR` to one and the
same flush for ever: the answers to a flush are a finite list, and the flush is part of one step.
The thread comes to the end of its batch, takes its queue, and has executed all of
it when it polls again.  What the owner has seen of a mailbox (`Mailbox.seen`) does not get less in
any step (`follows_next`), so nothing is forgotten on the way.
-/

namespace Calc24

open World

/-! ## What has been seen -/

namespace Outlets

variable {env : Environment} {cur : LoopId} {owner : Ref → LoopId} {x : Outlets}

/-- Sends take nothing of what has been seen back. -/
lemma seen_replay (h : ∀ t, (x.outlet t).Whole (owner t)) (events : List Event) (t : Ref)
    (thread : LoopId) :
    (x.outlet t).mail.seen thread <+:
      ((x.replay env cur owner events).outlet t).mail.seen thread := by
  refine (replay_rule (I := fun y _ => (∀ t, (y.outlet t).Whole (owner t)) ∧
    (x.outlet t).mail.seen thread <+: (y.outlet t).mail.seen thread)
    ⟨h, List.prefix_refl _⟩ ?_ (fun _ _ _ hy _ => hy) events).2
  rintro y _ r msg ⟨hwhole, hseen⟩
  refine ⟨fun t => ?_, hseen.trans ?_⟩
  · exact whole_replay hwhole [.sent r msg] t
  · have hposted : ((y.outlet t).mail.seen thread) <+:
        (((y.outlet t).post (owner t) cur msg).mail.seen thread) :=
      (hwhole t).inOrder.seen_post (cur, msg) thread
    rw [send_outlet]
    split
    · next heq =>
      subst heq
      split <;> exact hposted
    · exact List.prefix_refl _

/-- Serving takes nothing of what has been seen back. -/
lemma seen_serve {w : World} {n : ℕ} {stage : Stage} (t : Ref)
    (hbatch : stage = .dispatch [] → w.owner t = .worker n → (x.outlet t).mail.batch = [])
    (thread : LoopId) :
    (x.outlet t).mail.seen thread <+: ((x.serve env w n stage).outlet t).mail.seen thread := by
  unfold serve
  split
  · dsimp only
    split
    · next howner => exact Mailbox.seen_take (hbatch rfl howner) thread
    · exact List.prefix_refl _
  · next r _ =>
    split
    · by_cases ht : t = r
      · subst ht
        simp [flush, Outlet.flush]
      · simp [flush, ht]
    · exact List.prefix_refl _
  · next r buf _ =>
    by_cases ht : t = r
    · subst ht
      simp [flush, Outlet.flush, Mailbox.seen, Mailbox.handleNext_handled_append]
    · simp [flush, ht]
  · exact List.prefix_refl _

end Outlets

namespace Process

variable {env : Environment} {s s' : Process} {step : Step} {outlet : Ref → Outlet}

/-- A step that can be taken records something on top of the trace. -/
lemma exists_trace (hsound : s.Sound) (h : s.next env step = some s') :
    ∃ new, s'.world.trace = new ++ s.world.trace := by
  obtain ⟨new, htrace, -⟩ := fits_next hsound h
  exact ⟨new, htrace⟩

/-- The outlets are whole for the loops that the sessions have after a step. -/
lemma Agrees.whole_next (h : s.Agrees outlet) (hsound : s.Sound)
    (hsent : ∀ t msg, .sent t msg ∈ s.world.trace → t < s.world.nextRef)
    (hstep : s.next env step = some s') (t : Ref) : (outlet t).Whole (s'.world.owner t) := by
  rcases next_cases hstep with ⟨fd, order, w, rfl, hok, rfl⟩ | ⟨w, rfl, hok, rfl⟩ |
    ⟨n, input, stage, w, rfl, -, hwork, rfl⟩
  · obtain ⟨new, hw⟩ := transmits_onConnected hok
    have howner : w.owner t = (s.world.onAccept fd).owner t := hw.owner t
    exact howner ▸ (h.onAccept hsound hsent fd).whole t
  · have howner : w.owner t = s.world.owner t := (affects_checkHandup hok).loop t
    exact howner ▸ h.whole t
  · have hturn := turn_work hsound.idle
      (fun task htask t ht => (hsound.remaining n task htask t ht).2) hwork
    have howner : w.owner t = s.world.owner t := hturn.affects.loop t
    exact howner ▸ h.whole t

/-- No step takes anything of what has been seen back. -/
lemma Agrees.seen_deliver (h : s.Agrees outlet) (hsound : s.Sound)
    (hsent : ∀ t msg, .sent t msg ∈ s.world.trace → t < s.world.nextRef)
    (hstep : s.next env step = some s') (t : Ref) (thread : LoopId) :
    (outlet t).mail.seen thread <+: (s.deliver env step s' outlet t).mail.seen thread := by
  obtain ⟨new, htrace⟩ := exists_trace hsound hstep
  set x : Outlets := { flushes := s.world.flushes, outlet := outlet }
  have hwhole : ∀ t, (x.outlet t).Whole (s'.world.owner t) := h.whole_next hsound hsent hstep
  have hposted : (outlet t).mail.seen thread <+:
      ((x.replay env step.thread s'.world.owner new.reverse).outlet t).mail.seen thread :=
    Outlets.seen_replay hwhole new.reverse t thread
  rw [deliver_eq htrace]
  refine hposted.trans ?_
  cases step with
  | connect fd order => exact List.prefix_refl _
  | checkHandup => exact List.prefix_refl _
  | worker n input =>
    refine Outlets.seen_serve t (fun hstage howner => ?_) thread
    have hbatch := h.batch t
    rw [howner, taken, hstage] at hbatch
    rw [(Outlets.mail_replay env _ s'.world.owner x new.reverse t).1]
    exact List.map_eq_nil_iff.mp hbatch

end Process

/-! ## Infinite runs -/

namespace Delivery

variable {env : Environment} {s s' : Delivery} {step : Step} {r : Ref} {n : ℕ}

/-- What is kept of the messages to a session: its loop, once it has been constructed, the calls of
`send`, and what its thread has seen. -/
structure Keeps (r : Ref) (s s' : Delivery) : Prop where
  lt : r < s.process.world.nextRef → r < s'.process.world.nextRef
  owner : r < s.process.world.nextRef → s'.process.world.owner r = s.process.world.owner r
  calls : (s.outlet r).calls <+: (s'.outlet r).calls
  seen : ∀ thread, (s.outlet r).mail.seen thread <+: (s'.outlet r).mail.seen thread

lemma Keeps.trans {s'' : Delivery} (h : Keeps r s s') (h' : Keeps r s' s'') : Keeps r s s'' where
  lt hr := h'.lt (h.lt hr)
  owner hr := (h'.owner (h.lt hr)).trans (h.owner hr)
  calls := h.calls.trans h'.calls
  seen thread := (h.seen thread).trans (h'.seen thread)

/-- Every step keeps it. -/
lemma keeps_next (hreach : (system env).Reachable s) (hstep : s.next env step = some s')
    (r : Ref) : Keeps r s s' := by
  obtain ⟨hprocess, hagrees⟩ := agrees_reachable hreach
  have hsound := Process.sound_reachable hprocess
  obtain ⟨process, hnext, rfl⟩ := Option.map_eq_some_iff.mp hstep
  obtain ⟨new, htrace⟩ := Process.exists_trace hsound hnext
  constructor
  · exact fun hr => hr.trans_le (Process.ages_next hsound hnext).1.nextRef
  · exact fun hr => (Process.keeps_author hsound hnext hr).2
  · rw [Process.calls_deliver htrace]
    exact List.prefix_append _ _
  · exact hagrees.seen_deliver hsound
      (fun t msg hsent => (Process.sent_reachable hprocess t msg hsent).1) hnext r

/-- So does every stretch of an infinite run. -/
lemma keeps_of_le (e : (system env).Execution) {i j : ℕ} (hij : i ≤ j) (r : Ref) :
    Keeps r (e.state i) (e.state j) := by
  induction j, hij using Nat.le_induction with
  | base => exact ⟨id, fun _ => rfl, List.prefix_refl _, fun _ => List.prefix_refl _⟩
  | succ j _ ih => exact ih.trans (keeps_next (e.reachable_state j) (e.step j) r)

/-- The run of the process alone. -/
def processes (e : (system env).Execution) : (Process.interleaved env).Execution where
  state i := (e.state i).process
  label := e.label
  reachable := (agrees_reachable e.reachable).1
  step i := by
    obtain ⟨process, hnext, heq⟩ := Option.map_eq_some_iff.mp (e.step i)
    rw [← heq]
    exact hnext

/-- When a thread has just taken its queue, it has seen all that has been sent to its sessions. -/
lemma seen_of_swap (hreach : (system env).Reachable s) (hstep : s.next env step = some s')
    (hthread : step.thread = .worker n) (hstage : s.process.stage n = .dispatch [])
    (howner : s'.process.world.owner r = .worker n) (thread : LoopId) :
    (s'.outlet r).mail.seen thread = Mailbox.sentBy thread (s'.outlet r).calls := by
  have hagrees := (agrees_reachable (hreach.tail hstep)).2
  obtain ⟨process, hnext, rfl⟩ := Option.map_eq_some_iff.mp hstep
  obtain ⟨input, hwork⟩ := Process.own_step hnext hthread
  rw [hstage] at hwork
  have hworld : process.world =
      s.process.world.modifyLoop (.worker n) fun l => { l with customTasks := [] } :=
    (Prod.mk.inj (Option.some.inj hwork)).2.symm
  have hnone : (process.world.loop (.worker n)).customTasks = [] := by
    rw [hworld]
    simp [modifyLoop]
  have hqueue := hagrees.queue r
  rw [howner, hnone] at hqueue
  exact (hagrees.whole r).inOrder.seen_eq (List.map_eq_nil_iff.mp hqueue) thread

/-- When a thread polls, it has handled all that it has seen. -/
lemma seen_of_poll (hreach : (system env).Reachable s) (hstage : s.process.stage n = .poll)
    (howner : s.process.world.owner r = .worker n) (thread : LoopId) :
    (s.outlet r).mail.seen thread = Mailbox.sentBy thread (s.outlet r).mail.handled := by
  have hbatch := (agrees_reachable hreach).2.batch r
  rw [howner, Process.taken, hstage] at hbatch
  rw [Mailbox.seen, List.map_eq_nil_iff.mp hbatch, List.append_nil]

/-- **What is sent is handed over.**  In every infinite run in which the thread of the session's
loop does not cease to be scheduled and every flush comes to an end, everything that has been sent
to the session at some moment is handed to `sendInternal` sooner or later, in the order in which
each thread has sent it. -/
theorem handed_over (e : (system env).Execution)
    (hfair : e.InfinitelyOften fun _ step => step.thread = .worker n) (i : ℕ)
    (howner : (e.state i).process.world.owner r = .worker n) :
    ∃ j ≥ i, ∀ thread, Mailbox.sentBy thread ((e.state i).outlet r).calls <+:
      Mailbox.sentBy thread ((e.state j).outlet r).mail.handled := by
  by_cases hr : r < (e.state i).process.world.nextRef
  · -- the thread takes its queue, and polls when it has executed it
    obtain ⟨j, hj, hthread, hswap, -⟩ :=
      Process.leadsTo_swaps (processes e) hfair [] i List.nil_prefix
    have hpolls : (processes e).InfinitelyOften (Process.Polls n) :=
      TransitionSystem.Execution.infinitelyOften_of_rank
        (fun s : Process => s.world.rank (s.stage n))
        (fun s step s' hreach hstep => Process.polls_or_rank hreach hstep) hfair
    obtain ⟨k, hk, -, hpoll⟩ := hpolls (j + 1)
    have htaken := keeps_of_le e (Nat.le_succ_of_le hj) r
    have hdone := keeps_of_le e hk r
    have hj' := (htaken.owner hr).trans howner
    have hk' := (hdone.owner (htaken.lt hr)).trans hj'
    refine ⟨k, by omega, fun thread => ?_⟩
    have hcalls := (htaken.calls.filter fun x => decide (x.1 = thread)).map Prod.snd
    have hseen := hdone.seen thread
    rw [seen_of_swap (e.reachable_state j) (e.step j) hthread hswap hj',
      seen_of_poll (e.reachable_state k) hpoll hk'] at hseen
    exact hcalls.trans hseen
  · -- nothing has been sent to it yet
    obtain ⟨hreach, hagrees⟩ := agrees_reachable (e.reachable_state i)
    have hmessages : messages r (e.state i).process.world.trace = [] :=
      List.eq_nil_iff_forall_not_mem.mpr fun msg hmsg =>
        hr (Process.sent_reachable hreach r msg (mem_messages.mp hmsg)).1
    have hnone := List.map_eq_nil_iff.mp ((hagrees.calls r).trans hmessages)
    refine ⟨i, le_refl i, fun thread => ?_⟩
    rw [hnone]
    exact List.nil_prefix

/-! ## A run -/

/-- The outlets along an infinite run of the process. -/
def outlets (e : (Process.interleaved env).Execution) (outlet : Ref → Outlet) : ℕ → Ref → Outlet
  | 0 => outlet
  | i + 1 => (e.state i).deliver env (e.label i) (e.state (i + 1)) (outlets e outlet i)

/-- An infinite run of the process with its outlets. -/
def withOutlets (e : (Process.interleaved env).Execution) (outlet : Ref → Outlet)
    (h : (system env).Reachable ⟨e.state 0, outlet⟩) : (system env).Execution where
  state i := ⟨e.state i, outlets e outlet i⟩
  label := e.label
  reachable := h
  step i := Option.map_eq_some_iff.mpr ⟨e.state (i + 1), e.step i, rfl⟩

lemma reachable_connected :
    (system calm).Reachable (runSteps calm ⟨Process.start 1, fun _ => {}⟩ [.connect 5 []]) :=
  TransitionSystem.ReachableUnder.runAll (C := fun _ _ => True) (fun _ _ _ => id)
    (.init ⟨⟨1, by decide, rfl⟩, rfl⟩) (by decide)

/-- Somebody has connected, and the thread of the connection's loop goes round. -/
def connectedRun : (system calm).Execution :=
  withOutlets (Process.goingRoundRun Process.goesRound_connected)
    (runSteps calm ⟨Process.start 1, fun _ => {}⟩ [.connect 5 []]).outlet reachable_connected

/-- The welcome, which the base thread has sent, is handed over. -/
theorem handed_over_welcome :
    ∃ j ≥ 0, [welcomeMsg] <+:
      Mailbox.sentBy .base ((connectedRun.state j).outlet 0).mail.handled := by
  have hcalls : Mailbox.sentBy .base ((connectedRun.state 0).outlet 0).calls = [welcomeMsg] := by
    decide
  obtain ⟨j, hj, hhanded⟩ := handed_over (r := 0) connectedRun (fun i => ⟨i, le_refl i, rfl⟩) 0
    (by decide)
  refine ⟨j, hj, ?_⟩
  rw [← hcalls]
  exact hhanded .base

end Delivery

end Calc24
