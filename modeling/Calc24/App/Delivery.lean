import Calc24.App.Confinement
import Calc24.App.Dialogue
import Calc24.App.Lifecycle
import Calc24.App.Reminded
import Calc24.App.Outlets

/-!
# What is sent and what gets out

Beside the threads of the server this file keeps the outlets of all sessions.  A step first puts
its sends there, and the steps of a worker thread that take its queue, execute a send or call
`onWrite` do the same to the outlets of the thread's sessions (`Process.deliver`).

In every interleaving of the steps of `Process`, where a flush of a send buffer is part of one step
and gets finitely many answers from the kernel, whatever these are, no message is lost, repeated or
torn apart on its way out (`delivered`): the messages of each thread to a session are handed to
`sendInternal` in the order in which they were sent, what has not been handed over yet waits in the
queue of the session's loop or in the hands of its thread, and the bytes that the kernel has
accepted, followed by the send buffer, are the messages that have been handed over, so that the
lines which the client can read are whole messages.
-/

namespace Calc24

open World

/-! ## Messages of reachable states -/

namespace Process

variable {env : Environment} {s s' : Process} {step : Step} {t : Ref} {msg : Bytes}

/-- What a step sends is a line, and goes to a session that has been constructed. -/
lemma sent_next (hsound : s.Sound) (h : s.next env step = some s')
    (hold : ∀ t msg, .sent t msg ∈ s.world.trace → t < s.world.nextRef ∧ IsLine msg)
    (hsent : .sent t msg ∈ s'.world.trace) : t < s'.world.nextRef ∧ IsLine msg := by
  have hages := (ages_next hsound h).1.nextRef
  constructor
  · obtain ⟨new, htrace, hfits⟩ := fits_next hsound h
    by_contra hge
    rw [htrace, List.mem_append] at hsent
    rcases hsent with hnew | hbefore
    · -- a conversation that does not begin is empty
      have hfresh : Fits t .before s := by
        unfold Fits
        exact (if_neg fun hlt => hge (hlt.trans_le hages)).mpr rfl
      obtain ⟨c, hrun, hc⟩ := hfits t .before hfresh
      unfold Fits at hc
      rw [if_neg hge] at hc
      subst hc
      have htold : Exchange.told msg ∈ saidTo t new :=
        List.mem_filterMap.mpr ⟨_, List.mem_reverse.mpr hnew, if_pos rfl⟩
      have hnil := Conversation.eq_nil_of_run_before hrun
      rw [(List.append_eq_nil_iff.mp hnil).2] at htold
      exact List.not_mem_nil htold
    · exact hge ((hold t msg hbefore).1.trans_le hages)
  · rcases says_next hsound h with ⟨-, new, htrace, hnew⟩ | ⟨u, -, hspoken, htrace⟩
    all_goals
      rw [htrace, List.mem_append] at hsent
      rcases hsent with hsent | hbefore
    · exact ServerText.isLine (hnew _ hsent)
    · exact (hold t msg hbefore).2
    · obtain ⟨t', -, heq⟩ := List.mem_map.mp (List.mem_reverse.mp hsent)
      obtain ⟨-, rfl⟩ := Event.sent.inj heq
      exact isLine_msgWithPrefix u.id hspoken.isLine
    · exact (hold t msg hbefore).2

/-- All messages are lines, and go to sessions that have been constructed. -/
lemma sent_reachable (h : (interleaved env).Reachable s) :
    ∀ t msg, .sent t msg ∈ s.world.trace → t < s.world.nextRef ∧ IsLine msg := by
  induction h with
  | init hinit =>
    obtain ⟨threadNum, -, rfl⟩ := hinit
    exact fun t msg hsent => absurd hsent List.not_mem_nil
  | step hs _ hstep ih => exact fun t msg => sent_next (sound_reachable hs) hstep ih

/-- A session that has been constructed keeps its id and its loop. -/
lemma keeps_author (hsound : s.Sound) (h : s.next env step = some s')
    (ht : t < s.world.nextRef) :
    (s'.world.session t).id = (s.world.session t).id ∧ s'.world.owner t = s.world.owner t := by
  rcases next_cases h with ⟨fd, order, w, rfl, hok, rfl⟩ | ⟨w, rfl, hok, rfl⟩ |
    ⟨n, input, stage, w, rfl, -, hwork, rfl⟩
  · have hconnects := connect_cases hsound.wellFormed hok
    exact ⟨by rw [hconnects.session t ht.ne], hconnects.loop t ht.ne⟩
  · have haffects := affects_checkHandup hok
    exact ⟨haffects.id t, haffects.loop t⟩
  · have hturn := turn_work hsound.idle
      (fun task htask t ht => (hsound.remaining n task htask t ht).2) hwork
    exact ⟨hturn.affects.id t, hturn.affects.loop t⟩

end Process

/-! ## The outlets after a step -/

/-- What a step does to outlets apart from its sends. -/
def Process.serve (env : Environment) (s : Process) : Step → Outlets → Outlets
  | .worker n _, x => x.serve env s.world n (s.stage n)
  | _, x => x

/-- The outlets after a step: what it sends is put there, and the thread serves them. -/
def Process.deliver (env : Environment) (s : Process) (step : Step) (s' : Process)
    (outlet : Ref → Outlet) : Ref → Outlet :=
  let new := s'.world.trace.take (s'.world.trace.length - s.world.trace.length)
  let x : Outlets := { flushes := s.world.flushes, outlet := outlet }
  (s.serve env step (x.replay env step.thread s'.world.owner new.reverse)).outlet

/-- The process with the outlets of its sessions. -/
structure Delivery where
  process : Process
  outlet : Ref → Outlet

namespace Delivery

variable {env : Environment} {s : Delivery}

/-- Where a step leads. -/
def next (env : Environment) (s : Delivery) (step : Step) : Option Delivery :=
  (s.process.next env step).map fun process =>
    { process := process, outlet := s.process.deliver env step process s.outlet }

/-- All interleavings of the threads. -/
def system (env : Environment) : TransitionSystem Delivery Step where
  init s := (Process.interleaved env).init s.process ∧ s.outlet = fun _ => {}
  step s step s' := s.next env step = some s'

end Delivery

/-- The outlets agree with the server. -/
structure Process.Agrees (s : Process) (outlet : Ref → Outlet) : Prop where
  sendBuf : ∀ r, (outlet r).sendBuf = (s.world.connection r).sendBuf
  whole : ∀ r, (outlet r).Whole (s.world.owner r)
  calls : ∀ r, (outlet r).calls.map Prod.snd = messages r s.world.trace
  queue : ∀ r, (outlet r).mail.queue.map Prod.snd =
    sends r (s.world.loop (s.world.owner r)).customTasks
  batch : ∀ r, (outlet r).mail.batch.map Prod.snd = sends r (s.taken (s.world.owner r))

namespace Process

variable {env : Environment} {s s' : Process} {outlet : Ref → Outlet} {cur : LoopId}
  {new : List Event}

/-- A thread sends what is recorded. -/
lemma Agrees.transmits (h : s.Agrees outlet) (hw : TransmitsAll env cur s.world s'.world new)
    (htaken : ∀ r, sends r (s'.taken (s.world.owner r)) = sends r (s.taken (s.world.owner r))) :
    s'.Agrees (Outlets.replay env cur s.world.owner new.reverse
      { flushes := s.world.flushes, outlet := outlet }).outlet := by
  set x : Outlets := { flushes := s.world.flushes, outlet := outlet } with hx
  have hmatches : Matches x s.world := ⟨rfl, h.sendBuf⟩
  have hmail := Outlets.mail_replay env cur s.world.owner x new.reverse
  have howner : s'.world.owner = s.world.owner := funext hw.owner
  simp only [List.reverse_reverse] at hmail
  refine ⟨(hw.follows x hmatches).sendBuf, fun r => ?_, fun r => ?_, fun r => ?_, fun r => ?_⟩
  · rw [howner]
    exact Outlets.whole_replay h.whole _ r
  · have hcalls : ((messages r new).map (Prod.mk cur)).map Prod.snd = messages r new := by
      rw [List.map_map]
      exact List.map_id _
    rw [(hmail r).2.1, hw.trace, messages_append, List.map_append, hcalls]
    exact congrArg (· ++ messages r new) (h.calls r)
  · rw [(hmail r).2.2, howner, hw.tasks r]
    exact congrArg (· ++ _) (h.queue r)
  · rw [(hmail r).1, howner, htaken]
    exact h.batch r

/-- A session that has not been constructed has an empty outlet, and nothing waits for it. -/
lemma Agrees.unborn (h : s.Agrees outlet) (hsound : s.Sound)
    (hsent : ∀ t msg, .sent t msg ∈ s.world.trace → t < s.world.nextRef) :
    outlet s.world.nextRef = {} ∧
      (∀ l, sends s.world.nextRef (s.world.loop l).customTasks = []) ∧
      ∀ l, sends s.world.nextRef (s.taken l) = [] := by
  refine ⟨?_, fun l => ?_, fun l => ?_⟩
  · have hmessages : messages s.world.nextRef s.world.trace = [] :=
      List.eq_nil_iff_forall_not_mem.mpr fun msg hmsg =>
        absurd (hsent _ msg (mem_messages.mp hmsg)) (lt_irrefl _)
    exact (h.whole _).eq_empty (List.map_eq_nil_iff.mp ((h.calls _).trans hmessages))
  · exact sends_eq_nil fun task htask hconcerns =>
      absurd (hsound.tasks l task htask _ hconcerns).1 (lt_irrefl _)
  · cases l with
    | base => rfl
    | worker n =>
      exact sends_eq_nil fun task htask hconcerns =>
        absurd (hsound.remaining n task htask _ hconcerns).1 (lt_irrefl _)

/-- A connection is accepted. -/
lemma Agrees.onAccept (h : s.Agrees outlet) (hsound : s.Sound)
    (hsent : ∀ t msg, .sent t msg ∈ s.world.trace → t < s.world.nextRef) (fd : ℕ) :
    Agrees { s with world := s.world.onAccept fd } outlet := by
  obtain ⟨hempty, hqueued, htaken⟩ := h.unborn hsound hsent
  have hself := onAccept_connection_self fd s.world
  have howner : ∀ r ≠ s.world.nextRef, (s.world.onAccept fd).owner r = s.world.owner r :=
    fun r hr => congrArg TCPConnection.loop (onAccept_connection fd hr)
  refine ⟨fun r => ?_, fun r => ?_, h.calls, fun r => ?_, fun r => ?_⟩
  all_goals by_cases hr : r = s.world.nextRef
  · rw [hr, hempty, hself]
  · rw [onAccept_connection fd hr]
    exact h.sendBuf r
  · rw [hr, hempty]
    exact Outlet.whole_empty _
  · rw [howner r hr]
    exact h.whole r
  · rw [hr, hempty, (onAccept_loop fd s.world _).2, hqueued]
    rfl
  · rw [howner r hr, (onAccept_loop fd s.world _).2]
    exact h.queue r
  · rw [hr, hempty]
    exact (htaken _).symm
  · rw [howner r hr]
    exact h.batch r

variable {n : ℕ} {r : Ref} {batch : List Ref} {rest : List CustomTask} {buf : Bytes} {k : ℕ}

/-- A thread takes its queue. -/
lemma Agrees.swap (h : s.Agrees outlet) (hstage : s.stage n = .dispatch []) :
    Agrees
      { world := s.world.modifyLoop (.worker n) fun l => { l with customTasks := [] }
        stage := Function.update s.stage n (.tasks (s.world.loop (.worker n)).customTasks) }
      (Outlets.serve env s.world n (.dispatch []) { flushes := k, outlet := outlet }).outlet := by
  set w := s.world.modifyLoop (.worker n) fun l => { l with customTasks := [] } with hw
  have howner : w.owner = s.world.owner := rfl
  have hqueue : ∀ l, (w.loop l).customTasks =
      if l = .worker n then [] else (s.world.loop l).customTasks := by
    intro l
    by_cases hl : l = .worker n <;> simp [hw, modifyLoop, hl]
  have hbatch : ∀ r, s.world.owner r = .worker n → (outlet r).mail.batch = [] := by
    intro r hr
    have hnone := h.batch r
    rw [hr, taken, hstage] at hnone
    exact List.map_eq_nil_iff.mp hnone
  refine ⟨fun r => ?_, fun r => ?_, fun r => ?_, fun r => ?_, fun r => ?_⟩
  all_goals
    simp only [Outlets.serve]
    by_cases hr : s.world.owner r = .worker n
  · rw [if_pos hr]
    exact h.sendBuf r
  · rw [if_neg hr]
    exact h.sendBuf r
  · rw [if_pos hr]
    exact (h.whole r).take (hbatch r hr)
  · rw [if_neg hr]
    exact h.whole r
  · rw [if_pos hr]
    exact h.calls r
  · rw [if_neg hr]
    exact h.calls r
  · rw [if_pos hr, hqueue, howner, if_pos hr]
    rfl
  · rw [if_neg hr, hqueue, howner, if_neg hr]
    exact h.queue r
  · rw [if_pos hr, taken_update, howner, hr, Function.update_self]
    exact (hr ▸ h.queue r :)
  · rw [if_neg hr, taken_update, howner, Function.update_of_ne hr]
    exact h.batch r

/-- A thread calls `onWrite`. -/
lemma Agrees.write (h : s.Agrees outlet) (hstage : s.stage n = .writing r batch) :
    Agrees
      { world := s.world.onWrite env r
        stage := Function.update s.stage n (.dispatch batch) }
      (Outlets.serve env s.world n (.writing r batch)
        { flushes := s.world.flushes, outlet := outlet }).outlet := by
  set p := (s.world.endpoint r).onWrite (.connection r) (env.send s.world.flushes) with hp
  set w := s.world.onWrite env r with hw
  set x : Outlets := { flushes := s.world.flushes, outlet := outlet } with hx
  set y := Outlets.serve env s.world n (.writing r batch) x with hy
  have hconnection : w.connection = Function.update s.world.connection r p.connection := rfl
  have howner : w.owner = s.world.owner := by
    funext t
    have hloop : p.connection.loop = (s.world.connection r).loop :=
      (Endpoint.changes_onWrite _ _ _).loop_eq
    by_cases ht : t = r
    · subst ht
      simpa [World.owner, hconnection] using hloop
    · simp [World.owner, hconnection, ht]
  have htasks : ∀ l, (w.loop l).customTasks = (s.world.loop l).customTasks := fun l =>
    (setEndpoint_loop r p s.world l).2
  have htaken : ∀ l, taken { world := w, stage := Function.update s.stage n (.dispatch batch) } l =
      s.taken l := by
    intro l
    rw [taken_update]
    by_cases hl : l = .worker n
    · subst hl
      rw [Function.update_self, taken, hstage]
      rfl
    · rw [Function.update_of_ne hl]
  have hserve : ∀ t, y.outlet t =
      if t = r ∧ (s.world.connection r).enableWrite = true
      then (outlet t).flush (env.send s.world.flushes) [] else outlet t := by
    intro t
    rw [hy, Outlets.serve]
    by_cases hwrite : (s.world.connection r).enableWrite = true
    · by_cases ht : t = r
      · subst ht
        simp [hwrite, Outlets.flush, hx]
      · simp [hwrite, ht, Outlets.flush, hx]
    · simp [hwrite, hx]
  -- only the buffer and the accepted bytes change
  have hmail : ∀ t, (y.outlet t).mail = (outlet t).mail ∧
      (y.outlet t).calls = (outlet t).calls := by
    intro t
    rw [hserve]
    split <;> exact ⟨rfl, rfl⟩
  refine ⟨fun t => ?_, fun t => ?_, fun t => ?_, fun t => ?_, fun t => ?_⟩
  · have hbuf : p.connection.sendBuf = if (s.world.connection r).enableWrite
        then (flush (env.send s.world.flushes) (s.world.connection r).sendBuf).2
        else (s.world.connection r).sendBuf := onWrite_sendBuf _
    have happend : (s.world.connection r).sendBuf.append [] = (s.world.connection r).sendBuf :=
      congrArg ByteBuffer.mk (List.append_nil _)
    rw [hserve, hconnection]
    by_cases ht : t = r
    · subst ht
      rw [Function.update_self, hbuf]
      by_cases hwrite : (s.world.connection t).enableWrite = true
      · rw [if_pos ⟨rfl, hwrite⟩, if_pos hwrite, Outlet.flush, h.sendBuf, happend]
      · rw [if_neg fun hboth => hwrite hboth.2, if_neg hwrite]
        exact h.sendBuf t
    · rw [if_neg fun hboth => ht hboth.1, Function.update_of_ne ht]
      exact h.sendBuf t
  · rw [hserve, howner]
    split
    · exact (h.whole t).flush_nil
    · exact h.whole t
  · rw [(hmail t).2]
    exact h.calls t
  · rw [(hmail t).1, howner, htasks]
    exact h.queue t
  · rw [(hmail t).1, howner, htaken]
    exact h.batch t

/-- A thread executes a send. -/
lemma Agrees.task (h : s.Agrees outlet) (hstage : s.stage n = .tasks (.send r buf :: rest))
    (howner : s.world.owner r = .worker n) :
    Agrees
      { world := (s.world.log (.sendTask r)).send env (.worker n) r buf
        stage := Function.update s.stage n (.tasks rest) }
      (Outlets.serve env s.world n (.tasks (.send r buf :: rest))
        { flushes := s.world.flushes, outlet := outlet }).outlet := by
  set logged := s.world.log (.sendTask r) with hlogged
  have hsend : logged.send env (.worker n) r buf = logged.sendInternal env (.worker n) r buf :=
    if_pos howner.symm
  obtain ⟨htrace, howners, hmatches, htasks⟩ :=
    sendInternal_effect env (.worker n) r buf logged
  set w := logged.sendInternal env (.worker n) r buf with hw
  rw [hsend]
  set handled : Outlets :=
    { flushes := s.world.flushes
      outlet := Function.update outlet r
        { outlet r with mail := (outlet r).mail.handleNext } } with hhandled
  have hsame : Matches handled logged := by
    refine ⟨rfl, fun t => ?_⟩
    have hbuf : (outlet t).sendBuf = (logged.connection t).sendBuf := h.sendBuf t
    by_cases ht : t = r
    · subst ht
      simpa [hhandled] using hbuf
    · simpa [hhandled, ht] using hbuf
  have hserve : ∀ t, (Outlets.serve env s.world n (.tasks (.send r buf :: rest))
      { flushes := s.world.flushes, outlet := outlet }).outlet t =
      if t = r then Outlet.flush (env.send s.world.flushes) buf
        { outlet r with mail := (outlet r).mail.handleNext } else outlet t := by
    intro t
    by_cases ht : t = r
    · subst ht
      simp [Outlets.serve, Outlets.flush]
    · simp [Outlets.serve, Outlets.flush, ht]
  have howner' : w.owner = s.world.owner := funext howners
  have hmessages : ∀ t, messages t w.trace = messages t s.world.trace := by
    intro t
    have hcons : w.trace = [.sendTask r] ++ s.world.trace := htrace
    have hnone : messages t [.sendTask r] = [] := rfl
    rw [hcons, messages_append, hnone, List.append_nil]
  -- the first message of the batch is the one of the task
  obtain ⟨x, b, hbatch, hx, hb⟩ : ∃ x b, (outlet r).mail.batch = x :: b ∧ x.2 = buf ∧
      b.map Prod.snd = sends r rest := by
    have hfirst := h.batch r
    have hcons : sends r (.send r buf :: rest) = buf :: sends r rest := by
      simp [sends, CustomTask.sendTo]
    rw [howner, taken, hstage, Stage.remainingTasks, hcons] at hfirst
    exact List.map_eq_cons_iff.mp hfirst
  have hnext : (outlet r).mail.handleNext =
      { (outlet r).mail with handled := (outlet r).mail.handled ++ [x], batch := b } := by
    rw [Mailbox.handleNext, hbatch]
  refine ⟨(hmatches handled hsame).sendBuf, fun t => ?_, fun t => ?_, fun t => ?_, fun t => ?_⟩
  all_goals
    rw [hserve]
    by_cases ht : t = r
  · subst ht
    rw [if_pos rfl, howner', ← hx]
    exact (h.whole t).handleNext hbatch
  · rw [if_neg ht, howner']
    exact h.whole t
  · subst ht
    rw [if_pos rfl, hmessages]
    exact h.calls t
  · rw [if_neg ht, hmessages]
    exact h.calls t
  · subst ht
    rw [if_pos rfl, howner', Outlet.flush, hnext]
    exact (h.queue t).trans (htasks t).symm
  · rw [if_neg ht, howner']
    exact (h.queue t).trans (htasks t).symm
  · subst ht
    rw [if_pos rfl, howner', Outlet.flush, hnext, taken_update, howner, Function.update_self]
    exact hb
  · rw [if_neg ht, howner', taken_update]
    by_cases hsame : s.world.owner t = .worker n
    · have hold := h.batch t
      have hcons : sends t (.send r buf :: rest) = sends t rest := by
        simp [sends, CustomTask.sendTo, Ne.symm ht]
      rw [hsame, taken, hstage, Stage.remainingTasks, hcons] at hold
      rw [hsame, Function.update_self]
      exact hold
    · rw [Function.update_of_ne hsame]
      exact h.batch t

/-- The outlets after a step that records `new`. -/
lemma deliver_eq {step : Step} (htrace : s'.world.trace = new ++ s.world.trace) :
    s.deliver env step s' outlet =
      (s.serve env step (Outlets.replay env step.thread s'.world.owner new.reverse
        { flushes := s.world.flushes, outlet := outlet })).outlet := by
  have hnew : s'.world.trace.take (s'.world.trace.length - s.world.trace.length) = new := by
    rw [htrace, List.length_append, Nat.add_sub_cancel, List.take_left]
  rw [deliver, hnew]

/-- The steps of a worker thread keep the agreement. -/
lemma agrees_work {input : Input} {stage : Stage} {w : World} (hsound : s.Sound)
    (h : s.Agrees outlet) (hwork : s.world.work env n input (s.stage n) = some (stage, w))
    (hs' : s' = { world := w, stage := Function.update s.stage n stage }) :
    s'.Agrees (s.deliver env (.worker n input) s' outlet) := by
  have hconveys := conveys_work hsound.idle hwork
  generalize hbefore : s.stage n = before at hconveys
  cases hconveys with
  | swap =>
    have htrace : s'.world.trace = [] ++ s.world.trace := by
      rw [hs']
      rfl
    rw [deliver_eq htrace, serve, hbefore, hs']
    exact h.swap hbefore
  | write r batch =>
    have htrace : s'.world.trace = [] ++ s.world.trace := by
      rw [hs']
      rfl
    rw [deliver_eq htrace, serve, hbefore, hs']
    exact h.write hbefore
  | task r buf rest =>
    have howner : s.world.owner r = .worker n :=
      (hsound.remaining n (.send r buf) (by rw [hbefore]; exact List.mem_cons_self ..) r rfl).2
    have htrace : s'.world.trace = [.sendTask r] ++ s.world.trace := by
      rw [hs']
      exact trace_send r buf (s.world.log (.sendTask r))
    rw [deliver_eq htrace, Outlets.replay_of_quiet (by simp [Event.sentTo]), serve, hbefore, hs']
    exact h.task hbefore howner
  | other hstage hserve hw =>
    obtain ⟨new, hw⟩ := hw
    subst hs'
    have howner : w.owner = s.world.owner := funext hw.owner
    rw [deliver_eq hw.trace, serve, hbefore, hserve, howner]
    refine h.transmits hw fun r => ?_
    rw [taken_update]
    by_cases hr : s.world.owner r = .worker n
    · rw [hr, Function.update_self, hstage, taken, hbefore]
    · rw [Function.update_of_ne hr]

/-- Every step keeps the agreement. -/
lemma agrees_next {step : Step} (hsound : s.Sound)
    (hsent : ∀ t msg, .sent t msg ∈ s.world.trace → t < s.world.nextRef)
    (h : s.Agrees outlet) (hnext : s.next env step = some s') :
    s'.Agrees (s.deliver env step s' outlet) := by
  rcases next_cases hnext with ⟨fd, order, w, rfl, hok, rfl⟩ | ⟨w, rfl, hok, rfl⟩ |
    ⟨n, input, stage, w, rfl, -, hwork, rfl⟩
  · obtain ⟨new, hw⟩ := transmits_onConnected hok
    have howner : w.owner = (s.world.onAccept fd).owner := funext hw.owner
    have htrace : w.trace = new ++ s.world.trace := hw.trace
    rw [deliver_eq htrace, howner]
    exact (h.onAccept hsound hsent fd).transmits hw fun _ => rfl
  · obtain ⟨new, hw⟩ := transmits_checkHandup hok
    have howner : w.owner = s.world.owner := funext hw.owner
    rw [deliver_eq hw.trace, howner]
    exact h.transmits hw fun _ => rfl
  · exact agrees_work hsound h hwork rfl

lemma agrees_start (threadNum : ℕ) : Agrees (start threadNum) fun _ => {} where
  sendBuf _ := rfl
  whole _ := Outlet.whole_empty _
  calls _ := rfl
  queue r := by cases (start threadNum).world.owner r <;> rfl
  batch r := by cases (start threadNum).world.owner r <;> rfl

/-- The calls of `send` in a step. -/
lemma calls_deliver {step : Step} (htrace : s'.world.trace = new ++ s.world.trace) (r : Ref) :
    (s.deliver env step s' outlet r).calls =
      (outlet r).calls ++ (messages r new).map (Prod.mk step.thread) := by
  have hserve : ∀ x : Outlets, ((s.serve env step x).outlet r).calls = (x.outlet r).calls := by
    intro x
    cases step with
    | connect fd order => rfl
    | checkHandup => rfl
    | worker n input => exact x.calls_serve s.world n (s.stage n) r
  have hmail := Outlets.mail_replay env step.thread s'.world.owner
    { flushes := s.world.flushes, outlet := outlet } new.reverse r
  rw [List.reverse_reverse] at hmail
  rw [deliver_eq htrace, hserve]
  exact hmail.2.1

end Process

namespace Delivery

/-- In all interleavings the outlets agree with the server. -/
lemma agrees_reachable (h : (system env).Reachable s) :
    (Process.interleaved env).Reachable s.process ∧ s.process.Agrees s.outlet := by
  refine h.invariant (P := fun s => (Process.interleaved env).Reachable s.process ∧
    s.process.Agrees s.outlet) ?_ ?_
  · rintro ⟨process, outlet⟩ ⟨hinit, rfl⟩
    refine ⟨.of_init hinit, ?_⟩
    obtain ⟨threadNum, -, rfl⟩ := hinit
    exact Process.agrees_start threadNum
  · rintro ⟨process, outlet⟩ step s' ⟨hreach, hagrees⟩ hstep
    obtain ⟨process', hnext, rfl⟩ := Option.map_eq_some_iff.mp hstep
    exact ⟨hreach.tail hnext, Process.agrees_next (Process.sound_reachable hreach)
      (fun t msg hsent => (Process.sent_reachable hreach t msg hsent).1) hagrees hnext⟩

/-- All lines on their way to a client, and those that it can read. -/
lemma frames_handled (h : (system env).Reachable s) (r : Ref) :
    Framing.frames LF ((s.outlet r).accepted ++
        (s.process.world.connection r).sendBuf.internalBuf) =
      (s.outlet r).mail.handled.map Prod.snd ∧
    Framing.frames LF (s.outlet r).accepted <+: (s.outlet r).mail.handled.map Prod.snd := by
  obtain ⟨hreach, hagrees⟩ := agrees_reachable h
  have hwhole := hagrees.whole r
  have hbytes := hwhole.bytes
  rw [hagrees.sendBuf] at hbytes
  have hlines : ∀ msg ∈ (s.outlet r).mail.handled.map Prod.snd, IsLine msg := by
    intro msg hmsg
    obtain ⟨x, hx, rfl⟩ := List.mem_map.mp hmsg
    have hcall := List.mem_map_of_mem (f := Prod.snd)
      (hwhole.inOrder.mem_posted (List.mem_append_left _ hx))
    rw [hagrees.calls, mem_messages] at hcall
    exact (Process.sent_reachable hreach r x.2 hcall).2
  have hframes : Framing.frames LF ((s.outlet r).accepted ++
      (s.process.world.connection r).sendBuf.internalBuf) =
      (s.outlet r).mail.handled.map Prod.snd := by
    have hcut := (Framing.frames_flatten_append hlines []).1
    rw [List.append_nil, Framing.frames_nil, List.append_nil] at hcut
    rw [hbytes, hcut]
  refine ⟨hframes, ?_⟩
  rw [← hframes, Framing.frames_append]
  exact List.prefix_append _ _

/-- **No message is lost, repeated or torn apart on its way out.**  In every interleaving of the
steps, and whatever the kernel answers: of each thread, what has been handed to `sendInternal` or
still waits is what the thread has sent to the session, in order; what waits is in the hands of the
thread of the session's loop or in its queue; what the kernel has accepted, followed by the send
buffer, is what has been handed over; and the client can read whole messages, all of them once the
buffer is empty. -/
theorem delivered (h : (system env).Reachable s) (r : Ref) :
    (s.outlet r).calls.map Prod.snd = messages r s.process.world.trace ∧
    (∀ thread, Mailbox.sentBy thread (s.outlet r).mail.handled ++
        Mailbox.sentBy thread (s.outlet r).mail.pending =
      Mailbox.sentBy thread (s.outlet r).calls) ∧
    (s.outlet r).mail.pending.map Prod.snd =
      sends r (s.process.taken (s.process.world.owner r)) ++
        sends r (s.process.world.loop (s.process.world.owner r)).customTasks ∧
    (s.outlet r).accepted ++ (s.process.world.connection r).sendBuf.internalBuf =
      ((s.outlet r).mail.handled.map Prod.snd).flatten ∧
    Framing.frames LF (s.outlet r).accepted <+: (s.outlet r).mail.handled.map Prod.snd ∧
    ((s.process.world.connection r).sendBuf.internalBuf = [] →
      Framing.frames LF (s.outlet r).accepted = (s.outlet r).mail.handled.map Prod.snd) := by
  have hagrees := (agrees_reachable h).2
  have hwhole := hagrees.whole r
  obtain ⟨hframes, hread⟩ := frames_handled h r
  refine ⟨hagrees.calls r, hwhole.inOrder.order, ?_, ?_, hread, fun hempty => ?_⟩
  · rw [Mailbox.pending, List.map_append, hagrees.batch, hagrees.queue]
  · rw [← hagrees.sendBuf]
    exact hwhole.bytes
  · rwa [hempty, List.append_nil] at hframes

/-- Two clients are on two loops.  The first one says "hi", and the message for the second one waits
in the queue of the second loop, whose thread then executes its tasks. -/
def hiTaken : List Step :=
  [.connect 5 [], .connect 6 [], Process.goOn 0, Process.pollRead 0 0, Process.recvText 0 "hi\n",
    Process.goOn 0] ++ List.replicate 6 (Process.goOn 1)

/-- The outlets after a list of steps. -/
def runSteps (env : Environment) : Delivery → List Step → Delivery :=
  TransitionSystem.runAll fun s step => s.next env step

/-- The second client can read its messages, in the order in which they were handed over. -/
theorem delivered_hiTaken :
    Framing.frames LF ((runSteps calm ⟨Process.start 2, fun _ => {}⟩ hiTaken).outlet 1).accepted =
      [welcomeMsg, msgWithPrefix 1 (ascii "hi\n")] := by
  have hreach : (system calm).Reachable (runSteps calm ⟨Process.start 2, fun _ => {}⟩ hiTaken) :=
    TransitionSystem.ReachableUnder.runAll (C := fun _ _ => True) (fun _ _ _ => id)
      (.init ⟨⟨2, by decide, rfl⟩, rfl⟩) (by decide)
  obtain ⟨-, -, -, -, -, hread⟩ := delivered hreach 1
  rw [hread (by decide)]
  decide

end Delivery

end Calc24
