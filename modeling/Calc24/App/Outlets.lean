import Calc24.App.Texts
import Calc24.App.Turns
import Calc24.Net.OutgoingStream

/-!
# The way out

A message to a session goes to `sendInternal` at once, if the calling thread is the one of the
session's loop, and otherwise waits in the queue of this loop.  What `sendInternal` and `onWrite`
cannot give to the kernel waits in the send buffer of the connection.

An `Outlet` keeps account of this for one session: it has the mailbox of the session at its loop,
the calls of `send`, and the bytes that the kernel has accepted.  `Outlets.replay` works out what
becomes of a list of sends, and `Transmits` says that a function of the server does this and no
more: its sends are the recorded ones, each of them takes one answer of the kernel, and the buffers
and queues are afterwards as the account has it.
-/

namespace Calc24

open World

/-- The account of what is sent to a session. -/
structure Outlet where
  mail : Mailbox LoopId Bytes := {}
  sendBuf : ByteBuffer := {}
  accepted : Bytes := []
  calls : List (LoopId × Bytes) := []
  deriving DecidableEq

namespace Outlet

/-- Bytes are added to the send buffer, and as much of it as the kernel takes is sent. -/
def flush (answers : List SendResult) (buf : Bytes) (o : Outlet) : Outlet :=
  { o with
    sendBuf := (Calc24.flush answers (o.sendBuf.append buf)).2
    accepted := o.accepted ++ flushed answers (o.sendBuf.append buf) }

/-- A call of `send` on the thread `cur`, up to `sendInternal`. -/
def post (owner cur : LoopId) (msg : Bytes) (o : Outlet) : Outlet :=
  { o with
    mail := o.mail.post owner (cur, msg)
    calls := o.calls ++ [(cur, msg)] }

/-- What has been handed to `sendInternal` has been accepted by the kernel or is buffered, and the
messages of each thread are handed over in the order in which they were sent. -/
structure Whole (owner : LoopId) (o : Outlet) : Prop where
  bytes : o.accepted ++ o.sendBuf.internalBuf = (o.mail.handled.map Prod.snd).flatten
  inOrder : o.mail.InOrder owner o.calls

end Outlet

/-- The loop of each session. -/
def World.owner (w : World) (r : Ref) : LoopId :=
  (w.connection r).loop

/-- The outlets of all sessions, and the number of times that something has been flushed. -/
structure Outlets where
  flushes : ℕ
  outlet : Ref → Outlet

namespace Outlets

variable (env : Environment) (cur : LoopId) (owner : Ref → LoopId)

/-- `TCPConnection::sendInternal`, and the part of `onWrite` that sends. -/
def flush (r : Ref) (buf : Bytes) (x : Outlets) : Outlets where
  flushes := x.flushes + 1
  outlet := Function.update x.outlet r ((x.outlet r).flush (env.send x.flushes) buf)

/-- `TCPConnection::send`. -/
def send (r : Ref) (msg : Bytes) (x : Outlets) : Outlets :=
  let x := { x with
    outlet := Function.update x.outlet r ((x.outlet r).post (owner r) cur msg) }
  if cur = owner r then x.flush env r msg else x

/-- What is recorded of the calls of `send`. -/
def record (x : Outlets) : Event → Outlets
  | .sent r msg => x.send env cur owner r msg
  | _ => x

/-- Some events, the earliest of which is the first. -/
def replay (events : List Event) (x : Outlets) : Outlets :=
  events.foldl (record env cur owner) x

/-- What a step of a worker thread does to outlets apart from its sends. -/
def serve (w : World) (n : ℕ) : Stage → Outlets → Outlets
  | .dispatch [], x =>
    { x with
      outlet := fun r =>
        if w.owner r = .worker n then { x.outlet r with mail := (x.outlet r).mail.take }
        else x.outlet r }
  | .writing r _, x => if (w.connection r).enableWrite then x.flush env r [] else x
  | .tasks (.send r buf :: _), x =>
    let x := { x with
      outlet := Function.update x.outlet r
        { x.outlet r with mail := (x.outlet r).mail.handleNext } }
    x.flush env r buf
  | _, x => x

end Outlets

/-- The message, if the event is a send to the session. -/
def Event.sentTo (t : Ref) : Event → Option Bytes
  | .sent r msg => if r = t then some msg else none
  | _ => none

/-- The messages to a session among events, the latest of which is the first. -/
def messages (t : Ref) (events : List Event) : List Bytes :=
  events.reverse.filterMap (Event.sentTo t)

/-- The message, if the task is a send to the session. -/
def CustomTask.sendTo (t : Ref) : CustomTask → Option Bytes
  | .send r buf => if r = t then some buf else none
  | _ => none

/-- The sends to a session among some tasks. -/
def sends (t : Ref) (tasks : List CustomTask) : List Bytes :=
  tasks.filterMap (CustomTask.sendTo t)

/-- The later events bring the later messages. -/
lemma messages_append (t : Ref) (new old : List Event) :
    messages t (new ++ old) = messages t old ++ messages t new := by
  rw [messages, List.reverse_append, List.filterMap_append]
  rfl

/-- Events that send nothing to a session bring it no message. -/
lemma messages_eq_nil {t : Ref} {events : List Event} (h : ∀ e ∈ events, e.sentTo t = none) :
    messages t events = [] :=
  List.filterMap_eq_nil_iff.mpr fun e he => h e (List.mem_reverse.mp he)

/-- A message is one of those to a session if its send is among the events. -/
lemma mem_messages {t : Ref} {events : List Event} {msg : Bytes} :
    msg ∈ messages t events ↔ .sent t msg ∈ events := by
  rw [messages, List.mem_filterMap]
  constructor
  · rintro ⟨e, he, heq⟩
    cases e with
    | sent r msg' =>
      obtain ⟨rfl, rfl⟩ : r = t ∧ msg' = msg := by
        simpa [Event.sentTo] using heq
      exact List.mem_reverse.mp he
    | sendTask r => cases heq
    | reminder r timerID => cases heq
    | dealt r deskID => cases heq
    | released r => cases heq
  · exact fun hsent => ⟨_, List.mem_reverse.mpr hsent, if_pos rfl⟩

/-- The sends among two rows of tasks. -/
lemma sends_append (t : Ref) (tasks tasks' : List CustomTask) :
    sends t (tasks ++ tasks') = sends t tasks ++ sends t tasks' :=
  List.filterMap_append

/-- Tasks that have nothing to do with a session do not send to it. -/
lemma sends_eq_nil {t : Ref} {tasks : List CustomTask} (h : ∀ task ∈ tasks, ¬ task.Concerns t) :
    sends t tasks = [] := by
  refine List.filterMap_eq_nil_iff.mpr fun task htask => ?_
  cases task with
  | send r buf =>
    refine if_neg ?_
    rintro rfl
    exact h _ htask rfl
  | addTimerInternal spTimer => rfl
  | removeTimerInternal timerID => rfl

/-! ## One outlet -/

namespace Outlet

variable {owner cur : LoopId} {answers : List SendResult} {msg : Bytes} {o : Outlet}

lemma whole_empty (owner : LoopId) : Whole owner {} :=
  ⟨rfl, Mailbox.inOrder_empty⟩

/-- An outlet to which nothing has been sent is empty. -/
lemma Whole.eq_empty (h : Whole owner o) (hcalls : o.calls = []) : o = {} := by
  obtain ⟨mail, sendBuf, accepted, calls⟩ := o
  obtain rfl : calls = [] := hcalls
  obtain rfl : mail = {} := h.inOrder.eq_empty
  have hbytes : accepted ++ sendBuf.internalBuf = [] := h.bytes
  obtain ⟨rfl, hbuf⟩ := List.append_eq_nil_iff.mp hbytes
  obtain ⟨internalBuf⟩ := sendBuf
  obtain rfl : internalBuf = [] := hbuf
  rfl

/-- A flush gives to the kernel what it takes from the buffer. -/
lemma flush_bytes (answers : List SendResult) (buf : Bytes) (o : Outlet) :
    (o.flush answers buf).accepted ++ (o.flush answers buf).sendBuf.internalBuf =
      o.accepted ++ o.sendBuf.internalBuf ++ buf := by
  rw [flush, List.append_assoc, flushed_append_flush]
  exact (List.append_assoc _ _ _).symm

/-- A flush of the buffer alone. -/
lemma Whole.flush_nil (h : Whole owner o) : Whole owner (o.flush answers []) where
  bytes := by
    rw [flush_bytes, List.append_nil]
    exact h.bytes
  inOrder := h.inOrder

/-- A message from another thread. -/
lemma Whole.post (h : Whole owner o) (hcur : cur ≠ owner) : Whole owner (o.post owner cur msg) where
  bytes := by
    simp only [Outlet.post, Mailbox.post, if_neg hcur]
    exact h.bytes
  inOrder := h.inOrder.post (cur, msg)

/-- A message from the thread of the loop. -/
lemma Whole.post_flush (h : Whole owner o) :
    Whole owner ((o.post owner owner msg).flush answers msg) where
  bytes := by
    have hmail : ((o.post owner owner msg).flush answers msg).mail.handled =
        o.mail.handled ++ [(owner, msg)] := by
      simp [Outlet.post, Mailbox.post, Outlet.flush]
    have hbytes : (o.post owner owner msg).accepted ++
        (o.post owner owner msg).sendBuf.internalBuf = (o.mail.handled.map Prod.snd).flatten :=
      h.bytes
    rw [flush_bytes, hbytes, hmail]
    simp
  inOrder := h.inOrder.post (owner, msg)

/-- The loop takes its queue. -/
lemma Whole.take (h : Whole owner o) (hbatch : o.mail.batch = []) :
    Whole owner { o with mail := o.mail.take } where
  bytes := h.bytes
  inOrder := h.inOrder.take hbatch

/-- The loop executes a send that it has taken. -/
lemma Whole.handleNext {x : LoopId × Bytes} {batch : List (LoopId × Bytes)} (h : Whole owner o)
    (hbatch : o.mail.batch = x :: batch) :
    Whole owner (flush answers x.2 { o with mail := o.mail.handleNext }) where
  bytes := by
    rw [flush_bytes]
    have hhandled : o.mail.handleNext.handled = o.mail.handled ++ [x] := by
      simp [Mailbox.handleNext, hbatch]
    simp only [flush, hhandled, h.bytes]
    simp
  inOrder := h.inOrder.handleNext

end Outlet

/-! ## All outlets -/

namespace Outlets

variable {env : Environment} {cur : LoopId} {owner : Ref → LoopId} {x : Outlets} {r t : Ref}
  {msg : Bytes} {events : List Event}

/-- Events can be replayed in two parts. -/
lemma replay_append (events' : List Event) :
    x.replay env cur owner (events ++ events') =
      (x.replay env cur owner events).replay env cur owner events' :=
  List.foldl_append

/-- Only sends change the outlets. -/
lemma replay_of_quiet (h : ∀ e ∈ events, ∀ t, e.sentTo t = none) :
    x.replay env cur owner events = x := by
  induction events generalizing x with
  | nil => rfl
  | cons e events ih =>
    obtain ⟨he, hevents⟩ := List.forall_mem_cons.mp h
    have hrecord : record env cur owner x e = x := by
      cases e with
      | sent r msg =>
        have hsent := he r
        rw [Event.sentTo, if_pos rfl] at hsent
        cases hsent
      | sendTask r => rfl
      | reminder r timerID => rfl
      | dealt r deskID => rfl
      | released r => rfl
    rw [replay, List.foldl_cons, hrecord]
    exact ih hevents

/-- What a send does to the outlets. -/
lemma send_outlet (x : Outlets) (r t : Ref) (msg : Bytes) :
    (x.send env cur owner r msg).outlet t =
      if t = r then
        if cur = owner r then
          ((x.outlet r).post (owner r) cur msg).flush (env.send x.flushes) msg
        else (x.outlet r).post (owner r) cur msg
      else x.outlet t := by
  unfold send
  by_cases ht : t = r <;> by_cases hcur : cur = owner r <;> simp [ht, hcur, flush]

/-- Serving calls for nothing. -/
lemma calls_serve (x : Outlets) (w : World) (n : ℕ) (stage : Stage) (t : Ref) :
    ((x.serve env w n stage).outlet t).calls = (x.outlet t).calls := by
  unfold serve
  split
  · dsimp only
    split <;> rfl
  · next r _ =>
    split
    · by_cases ht : t = r
      · subst ht
        simp [flush, Outlet.flush]
      · simp [flush, ht]
    · rfl
  · next r _ _ =>
    by_cases ht : t = r
    · subst ht
      simp [flush, Outlet.flush]
    · simp [flush, ht]
  · rfl

/-- The rule for recorded sends: what each of them keeps is kept by all of them. -/
lemma replay_rule {I : Outlets → List Event → Prop} (hI : I x [])
    (hsend : ∀ y before r msg, I y before →
      I (y.send env cur owner r msg) (.sent r msg :: before))
    (hother : ∀ y before e, I y before → (∀ t, e.sentTo t = none) → I y (e :: before))
    (events : List Event) : I (x.replay env cur owner events) events.reverse := by
  induction events using List.reverseRecOn with
  | nil => exact hI
  | append_singleton events e ih =>
    rw [replay_append, List.reverse_append]
    cases e with
    | sent r msg => exact hsend _ _ r msg ih
    | sendTask r => exact hother _ _ _ ih fun _ => rfl
    | reminder r timerID => exact hother _ _ _ ih fun _ => rfl
    | dealt r deskID => exact hother _ _ _ ih fun _ => rfl
    | released r => exact hother _ _ _ ih fun _ => rfl

/-- Sends keep the outlets whole. -/
lemma whole_replay (h : ∀ t, (x.outlet t).Whole (owner t)) (events : List Event) (t : Ref) :
    ((x.replay env cur owner events).outlet t).Whole (owner t) := by
  refine replay_rule (I := fun y _ => ∀ t, (y.outlet t).Whole (owner t)) h ?_
    (fun _ _ _ hy _ => hy) events t
  intro y _ r msg hy t
  rw [send_outlet]
  split
  · next heq =>
    subst heq
    split
    · next hcur =>
      subst hcur
      exact (hy t).post_flush
    · next hcur => exact (hy t).post hcur
  · exact hy t

/-- Sends are called for, and go to the queue where the thread is another one. -/
lemma mail_replay (env : Environment) (cur : LoopId) (owner : Ref → LoopId) (x : Outlets)
    (events : List Event) (t : Ref) :
    ((x.replay env cur owner events).outlet t).mail.batch = (x.outlet t).mail.batch ∧
      ((x.replay env cur owner events).outlet t).calls =
        (x.outlet t).calls ++ (messages t events.reverse).map (Prod.mk cur) ∧
      ((x.replay env cur owner events).outlet t).mail.queue.map Prod.snd =
        (x.outlet t).mail.queue.map Prod.snd ++
          if cur = owner t then [] else messages t events.reverse := by
  refine replay_rule (I := fun y before =>
    (y.outlet t).mail.batch = (x.outlet t).mail.batch ∧
      (y.outlet t).calls = (x.outlet t).calls ++ (messages t before).map (Prod.mk cur) ∧
      (y.outlet t).mail.queue.map Prod.snd = (x.outlet t).mail.queue.map Prod.snd ++
        if cur = owner t then [] else messages t before) ?_ ?_ ?_ events
  · simp [messages]
  · rintro y before r msg ⟨hbatch, hcalls, hqueue⟩
    have hcons : messages t (.sent r msg :: before) =
        messages t before ++ if r = t then [msg] else [] := by
      rw [messages, List.reverse_cons, List.filterMap_append]
      by_cases hr : r = t <;> simp [messages, Event.sentTo, hr]
    rw [hcons, send_outlet]
    by_cases ht : t = r
    · subst ht
      by_cases hcur : cur = owner t <;>
        simp [hcur, Outlet.post, Outlet.flush, Mailbox.post, hbatch, hcalls] at hqueue ⊢
      · exact hqueue
      · rw [hqueue, List.append_assoc]
    · rw [if_neg ht, if_neg (Ne.symm ht), List.append_nil]
      exact ⟨hbatch, hcalls, hqueue⟩
  · rintro y before e ⟨hbatch, hcalls, hqueue⟩ he
    have hcons : messages t (e :: before) = messages t before := by
      rw [messages, List.reverse_cons, List.filterMap_append, List.filterMap_cons, he t]
      simp [messages]
    rw [hcons]
    exact ⟨hbatch, hcalls, hqueue⟩

end Outlets

/-! ## What the functions of the server send -/

namespace World

variable {env : Environment} {cur l : LoopId} {n : ℕ} {r t : Ref} {batch : List Ref}
  {w w₁ w' w'' : World} {stage stage' : Stage} {input : Input} {msg buf package : Bytes}
  {new : List Event} {x : Outlets}

/-- The outlets have the send buffers of the connections. -/
structure Matches (x : Outlets) (w : World) : Prop where
  flushes : x.flushes = w.flushes
  sendBuf : ∀ r, (x.outlet r).sendBuf = (w.connection r).sendBuf

/-- The sends between two states are the recorded ones, and their outlets follow them. -/
structure TransmitsAll (env : Environment) (cur : LoopId) (w w' : World) (new : List Event) :
    Prop where
  trace : w'.trace = new ++ w.trace
  owner : ∀ r, w'.owner r = w.owner r
  follows : ∀ x, Matches x w → Matches (x.replay env cur w.owner new.reverse) w'
  tasks : ∀ t, sends t (w'.loop (w.owner t)).customTasks =
    sends t (w.loop (w.owner t)).customTasks ++ if cur = w.owner t then [] else messages t new

/-- A function of the server sends what is recorded, and nothing else. -/
def Transmits (env : Environment) (cur : LoopId) (w w' : World) : Prop :=
  ∃ new, TransmitsAll env cur w w' new

lemma Transmits.trans (h : Transmits env cur w w') (h' : Transmits env cur w' w'') :
    Transmits env cur w w'' := by
  obtain ⟨new, h⟩ := h
  obtain ⟨new', h'⟩ := h'
  have howner : w'.owner = w.owner := funext h.owner
  refine ⟨new' ++ new, ?_, fun r => (h'.owner r).trans (h.owner r), fun x hx => ?_, fun t => ?_⟩
  · rw [h'.trace, h.trace, List.append_assoc]
  · have hnext := h'.follows _ (h.follows x hx)
    rwa [howner, ← Outlets.replay_append, ← List.reverse_append] at hnext
  · have hnext := h'.tasks t
    rw [howner, h.tasks t, List.append_assoc] at hnext
    rw [hnext, messages_append]
    split <;> simp

/-- What sends nothing. -/
lemma Transmits.of_quiet (new : List Event) (htrace : w'.trace = new ++ w.trace)
    (hnew : ∀ e ∈ new, ∀ t, e.sentTo t = none) (hflushes : w'.flushes = w.flushes)
    (hconnection : ∀ r, (w'.connection r).loop = (w.connection r).loop ∧
      (w'.connection r).sendBuf = (w.connection r).sendBuf)
    (htasks : ∀ l t, sends t (w'.loop l).customTasks = sends t (w.loop l).customTasks) :
    Transmits env cur w w' := by
  refine ⟨new, htrace, fun r => (hconnection r).1, fun x hx => ?_, fun t => ?_⟩
  · rw [Outlets.replay_of_quiet fun e he => hnew e (List.mem_reverse.mp he)]
    exact ⟨hx.flushes.trans hflushes.symm, fun r => (hx.sendBuf r).trans (hconnection r).2.symm⟩
  · rw [htasks, messages_eq_nil fun e he => hnew e he t, ite_self, List.append_nil]

/-- What does not touch the connections and the queues. -/
lemma Transmits.of_eq (htrace : w'.trace = w.trace) (hflushes : w'.flushes = w.flushes)
    (hconnection : w'.connection = w.connection)
    (htasks : ∀ l, (w'.loop l).customTasks = (w.loop l).customTasks) : Transmits env cur w w' :=
  .of_quiet [] htrace (by simp) hflushes (fun r => by rw [hconnection]; exact ⟨rfl, rfl⟩)
    fun l t => by rw [htasks]

/-- Something is recorded that is no send. -/
lemma transmits_log {e : Event} (he : ∀ t, e.sentTo t = none) : Transmits env cur w (w.log e) :=
  .of_quiet [e] rfl (by simpa using he) rfl (fun _ => ⟨rfl, rfl⟩) fun _ _ => rfl

/-- A task that is queued. -/
lemma sends_addTask (task : CustomTask) (l l' : LoopId) (t : Ref) (w : World) :
    sends t ((w.modifyLoop l (EventLoop.addTask task)).loop l').customTasks =
      sends t (w.loop l').customTasks ++ if l' = l then sends t [task] else [] := by
  by_cases hl : l' = l
  · subst hl
    simp [modifyLoop, EventLoop.addTask, sends_append]
  · simp [modifyLoop, hl]

/-- The timers of a loop are changed. -/
lemma transmits_modifyTimers (f : LoopTimers TimerTask → LoopTimers TimerTask) :
    Transmits env cur w ((loopTimers l).modify f w) := by
  refine .of_eq rfl rfl rfl fun l' => ?_
  by_cases hl : l' = l
  · subst hl
    simp [loopTimers_modify, modifyLoop]
  · simp [loopTimers_modify, modifyLoop, hl]

/-- A task that does not send is queued. -/
lemma transmits_addTask {task : CustomTask} (htask : ∀ t, sends t [task] = []) :
    Transmits env cur w (w.modifyLoop l (EventLoop.addTask task)) := by
  refine .of_quiet [] rfl (by simp) rfl (fun _ => ⟨rfl, rfl⟩) fun l' t => ?_
  rw [sends_addTask, htask, ite_self, List.append_nil]

/-- Removing a timer transmits nothing. -/
lemma transmits_removeTimer (timerID : Int64) :
    Transmits env cur w (w.removeTimer cur l timerID) := by
  unfold removeTimer
  split
  · exact transmits_modifyTimers _
  · exact transmits_addTask fun _ => rfl

/-- Adding a timer transmits nothing. -/
lemma transmits_addTimerInternal (spTimer : Timer TimerTask) :
    Transmits env cur w (w.addTimerInternal cur l spTimer) := by
  unfold addTimerInternal
  split
  · exact transmits_modifyTimers _
  · exact transmits_addTask fun _ => rfl

/-- Other data of a connection are changed, or its interest in events. -/
lemma transmits_setEndpoint {p : Endpoint Dispatcher}
    (hp : p.connection.loop = (w.connection r).loop ∧
      p.connection.sendBuf = (w.connection r).sendBuf) :
    Transmits env cur w (w.setEndpoint r p) := by
  refine .of_quiet [] rfl (by simp) rfl (fun t => ?_) fun l t => ?_
  · by_cases ht : t = r
    · subst ht
      simpa [setEndpoint] using hp
    · simp [setEndpoint, ht]
  · rw [(setEndpoint_loop r p w l).2]

/-- A close transmits nothing. -/
lemma transmits_onClose : Transmits env cur w (w.onClose cur r) := by
  have hclosed : Transmits env cur w
      (w.setEndpoint r ((w.endpoint r).onClose (.connection r))) :=
    transmits_setEndpoint ⟨rfl, rfl⟩
  have hdisconnected : ∀ (id : Int32) (w₁ : World),
      Transmits env cur w₁ (w₁.onDisconnected id) := by
    intro id w₁
    refine .of_eq (trace_onDisconnected _ _) ?_ (onDisconnected_connection _ _) fun l => ?_
    · unfold onDisconnected
      split <;> rfl
    · rw [onDisconnected_loop]
  rw [onClose, sessionOnClose]
  exact (hclosed.trans (transmits_removeTimer _)).trans (hdisconnected _ _)

/-! ## Sends -/

/-- After a send the buffer is what a flush leaves of it with the new bytes behind it. -/
lemma sendInternal_sendBuf {δ : Type*} {self : δ} (answers : List SendResult) (buf : Bytes)
    (p : Endpoint δ) : (p.sendInternal self answers buf).2.connection.sendBuf =
      (flush answers (p.connection.sendBuf.append buf)).2 := by
  unfold Endpoint.sendInternal
  cases hflush : flush answers (p.connection.sendBuf.append buf) with
  | mk ending sendBuf => cases ending <;> simp [Endpoint.setSendBuf]

/-- What is flushed in an outlet is flushed in its connection. -/
lemma Matches.flush (h : Matches x w) {p : Endpoint Dispatcher} (hw' : w'.connection =
      Function.update w.connection r p.connection) (hflushes : w'.flushes = w.flushes + 1)
    (hp : p.connection.sendBuf =
      (Calc24.flush (env.send w.flushes) ((w.connection r).sendBuf.append buf)).2) :
    Matches (x.flush env r buf) w' where
  flushes := by rw [Outlets.flush, hflushes, h.flushes]
  sendBuf t := by
    rw [hw']
    by_cases ht : t = r
    · subst ht
      simp [Outlets.flush, Outlet.flush, hp, h.flushes, h.sendBuf]
    · simp [Outlets.flush, ht, h.sendBuf]

/-- What records nothing sends nothing. -/
lemma Transmits.quiet (h : Transmits env cur w w') (htrace : w'.trace = w.trace) :
    (∀ r, w'.owner r = w.owner r) ∧ (∀ x, Matches x w → Matches x w') ∧
      ∀ t, sends t (w'.loop (w.owner t)).customTasks =
        sends t (w.loop (w.owner t)).customTasks := by
  obtain ⟨new, h⟩ := h
  obtain rfl : new = [] := List.append_left_eq_self.mp (h.trace.symm.trans htrace)
  exact ⟨h.owner, h.follows, fun t => by simpa [messages] using h.tasks t⟩

/-- `TCPConnection::sendInternal`: one answer of the kernel is taken, and nothing is queued. -/
lemma sendInternal_effect (env : Environment) (cur : LoopId) (r : Ref) (buf : Bytes) (w : World) :
    (w.sendInternal env cur r buf).trace = w.trace ∧
      (∀ t, (w.sendInternal env cur r buf).owner t = w.owner t) ∧
      (∀ x, Matches x w → Matches (x.flush env r buf) (w.sendInternal env cur r buf)) ∧
      ∀ t, sends t ((w.sendInternal env cur r buf).loop (w.owner t)).customTasks =
        sends t (w.loop (w.owner t)).customTasks := by
  set p := ((w.endpoint r).sendInternal (.connection r) (env.send w.flushes) buf).2 with hp
  have hsame := Endpoint.changes_sendInternal (.connection r) (w.endpoint r)
    (env.send w.flushes) buf
  set w₁ : World := { w.setEndpoint r p with flushes := w.flushes + 1 } with hw₁
  have howner : ∀ t, w₁.owner t = w.owner t := by
    intro t
    by_cases ht : t = r
    · subst ht
      have hloop : p.connection.loop = (w.connection t).loop := hsame.loop_eq
      simpa [hw₁, owner, setEndpoint] using hloop
    · simp [hw₁, owner, setEndpoint, ht]
  have hmatches : ∀ x, Matches x w → Matches (x.flush env r buf) w₁ := fun x hx =>
    hx.flush rfl rfl (sendInternal_sendBuf _ _ _)
  have htasks : ∀ l, (w₁.loop l).customTasks = (w.loop l).customTasks := fun l =>
    (setEndpoint_loop r p w l).2
  have hclose : Transmits env cur w₁ (w₁.onClose cur r) := transmits_onClose
  have hclosed := hclose.quiet (trace_onClose r w₁)
  have heq : w.sendInternal env cur r buf = if ((w.endpoint r).sendInternal (.connection r)
      (env.send w.flushes) buf).1 then w₁.onClose cur r else w₁ := rfl
  rw [heq]
  split
  · refine ⟨trace_onClose r w₁, fun t => (hclosed.1 t).trans (howner t),
      fun x hx => hclosed.2.1 _ (hmatches x hx), fun t => ?_⟩
    have hrest := hclosed.2.2 t
    rw [howner] at hrest
    rw [hrest, htasks]
  · exact ⟨rfl, howner, hmatches, fun t => by rw [htasks]⟩

/-- A message to a session. -/
lemma transmits_sendMsg (r : Ref) (msg : Bytes) (w : World) :
    Transmits env cur w (w.sendMsg env cur r msg) := by
  have hreplay : ∀ x : Outlets, x.replay env cur w.owner [Event.sent r msg].reverse =
      x.send env cur w.owner r msg := fun _ => rfl
  have hposted : ∀ x, Matches x w → Matches { x with
      outlet := Function.update x.outlet r ((x.outlet r).post (w.owner r) cur msg) } w := by
    refine fun x hx => ⟨hx.flushes, fun t => ?_⟩
    by_cases ht : t = r
    · subst ht
      simpa [Outlet.post] using hx.sendBuf t
    · simpa [ht] using hx.sendBuf t
  have hmessages : ∀ t, messages t [Event.sent r msg] = if r = t then [msg] else [] := by
    intro t
    by_cases ht : r = t <;> simp [messages, Event.sentTo, ht]
  by_cases hcur : cur = w.owner r
  · -- on the thread of the loop
    have hsend : w.sendMsg env cur r msg = (w.log (.sent r msg)).sendInternal env cur r msg :=
      if_pos hcur
    rw [hsend]
    obtain ⟨htrace, howner, hmatches, htasks⟩ :=
      sendInternal_effect env cur r msg (w.log (.sent r msg))
    refine ⟨[.sent r msg], htrace, howner, fun x hx => ?_, fun t => ?_⟩
    · rw [hreplay, Outlets.send, if_pos hcur]
      exact hmatches _ ⟨(hposted x hx).flushes, (hposted x hx).sendBuf⟩
    · refine (htasks t).trans ?_
      rw [hmessages]
      split
      · exact (List.append_nil _).symm
      · next hne =>
        have ht : r ≠ t := by
          rintro rfl
          exact hne hcur
        rw [if_neg ht, List.append_nil]
        rfl
  · -- on another thread
    have hsend : w.sendMsg env cur r msg =
        (w.log (.sent r msg)).modifyLoop (w.owner r) (EventLoop.addTask (.send r msg)) :=
      if_neg hcur
    rw [hsend]
    refine ⟨[.sent r msg], rfl, fun _ => rfl, fun x hx => ?_, fun t => ?_⟩
    · rw [hreplay, Outlets.send, if_neg hcur]
      exact ⟨(hposted x hx).flushes, (hposted x hx).sendBuf⟩
    · rw [sends_addTask, hmessages]
      have hsends : sends t [CustomTask.send r msg] = if r = t then [msg] else [] := by
        by_cases ht : r = t <;> simp [sends, CustomTask.sendTo, ht]
      rw [hsends]
      by_cases ht : r = t
      · subst ht
        simp [hcur, log]
      · simp [ht, log]

lemma transmits_sendAll {includeSelf : Bool} {id : Int32} {status : SessionStatus} {deskID : Int64}
    (h : w.sendAll env cur msg includeSelf id status deskID = .ok w') : Transmits env cur w w' :=
  (sendAll_invariant (I := Transmits env cur w) (.of_eq rfl rfl rfl fun _ => rfl)
    (fun _ _ _ hw₁ _ _ => hw₁.trans (transmits_sendMsg _ _ _)) h).1

lemma transmits_modifySession (f : Calc24Session → Calc24Session) :
    Transmits env cur w (w.modifySession r f) :=
  .of_eq rfl rfl rfl fun _ => rfl

/-- A new reminder transmits nothing. -/
lemma transmits_notifyUserToBeReady (r : Ref) (w : World) :
    Transmits env cur w (w.notifyUserToBeReady env cur r) := by
  have hconstructed : Transmits env cur w
      (w.constructTimer env (w.connection r).loop 5000 true 0 (.reminder r) .fixedInterval).2 := by
    have htimers : Transmits env cur w ((loopTimers (w.connection r).loop).modify
        (LoopTimers.construct w.timersConstructed (env.clock w.timersConstructed + 5000)) w) :=
      transmits_modifyTimers _
    exact htimers.trans (.of_eq rfl rfl rfl fun _ => rfl)
  have hadded : Transmits env cur w
      (w.addTimer env cur (w.connection r).loop 5000 true 0 (.reminder r) .fixedInterval).2 :=
    hconstructed.trans (transmits_addTimerInternal _)
  exact hadded.trans (.of_eq rfl rfl rfl fun _ => rfl)

/-- The reset of a desk transmits nothing. -/
lemma transmits_resetDesk (h : w.resetDesk env cur r = .ok w') : Transmits env cur w w' := by
  refine (forEachSession_invariant (I := Transmits env cur w) (.of_eq rfl rfl rfl fun _ => rfl)
    (fun t _ w₁ hw₁ _ _ => ?_) h).1
  split
  · exact hw₁
  · exact (hw₁.trans (transmits_modifySession _)).trans (transmits_notifyUserToBeReady _ _)

/-- A reminder transmits its message, if it sends one. -/
lemma transmits_reminderCallback (timerID : Int64) :
    Transmits env cur w (w.reminderCallback env cur r timerID) := by
  have hlog : Transmits env cur w (w.log (.reminder r timerID)) := transmits_log fun _ => rfl
  unfold reminderCallback
  dsimp only
  split
  · exact hlog.trans (transmits_sendMsg _ _ _)
  · exact hlog.trans (transmits_removeTimer _)

/-- The deal. -/
lemma transmits_checkHandup (h : w.checkHandup env cur = .ok w') : Transmits env cur w w' := by
  unfold checkHandup at h
  split at h
  · obtain rfl : w = w' := Except.ok.inj h
    exact .of_eq rfl rfl rfl fun _ => rfl
  · refine (forEachSession_invariant (w := (w.generateCards env).2.2)
      (I := Transmits env cur w) (.of_eq rfl rfl rfl fun _ => rfl) ?_ h).1
    intro t _ w₁ hw₁ _ _
    split
    · have hsent : Transmits env cur w (w₁.sendMsg env cur t (w.generateCards env).1) :=
        hw₁.trans (transmits_sendMsg _ _ _)
      have hdealt : Transmits env cur w ((w₁.sendMsg env cur t (w.generateCards env).1).log
          (.dealt t (w.generateCards env).2.1)) := hsent.trans (transmits_log fun _ => rfl)
      exact hdealt.trans (.of_eq rfl rfl rfl fun _ => rfl)
    · exact hw₁

/-- The handling of a package transmits what it sends. -/
lemma transmits_processPackage (hanswer : package ≠ answerCmd)
    (h : w.processPackage env cur r package = .ok w') : Transmits env cur w w' := by
  unfold processPackage at h
  split at h
  · obtain rfl : w = w' := Except.ok.inj h
    exact .of_eq rfl rfl rfl fun _ => rfl
  · split at h
    · exact transmits_sendAll h
    · rw [processCmd, if_neg hanswer] at h
      split at h
      · obtain rfl := Except.ok.inj h
        exact transmits_modifySession _
      · obtain rfl := Except.ok.inj h
        exact transmits_sendMsg _ _ _

/-- What `onConnected` sends, once the connection is there. -/
lemma transmits_onConnected {order : List (Int32 × Ref)}
    (h : w.onConnected env cur r order = .ok w') : Transmits env cur w w' := by
  have hcleared : Transmits env cur w w.clearPending := by
    have hclears := clears_clearPending w
    refine .of_quiet _ (clearPending_trace w) (fun e he t => ?_) ?_ (fun _ => ?_) fun l t => ?_
    · obtain ⟨r', -, rfl⟩ := List.mem_map.mp (List.mem_reverse.mp he)
      rfl
    · exact List.foldlRecOn (motive := fun w₁ : World => w₁.flushes = w.flushes) _ _ rfl
        fun w₁ hw₁ _ _ => hw₁
    · rw [hclears.connection]
      exact ⟨rfl, rfl⟩
    · rw [hclears.tasks]
  have hconstructed : Transmits env cur w.clearPending (w.clearPending.constructSession env r) :=
    .of_eq rfl rfl rfl fun _ => rfl
  obtain ⟨-, sessions, rfl, -⟩ := emplace_cases h
  exact (((hcleared.trans hconstructed).trans (transmits_sendMsg _ _ _)).trans
    (transmits_notifyUserToBeReady _ _)).trans (.of_eq rfl rfl rfl fun _ => rfl)

/-! ## The steps of a thread -/

/-- A round of `Calc24Session::onRead`. -/
lemma transmits_decode (h : w.decode env n r batch = some (stage', w')) :
    stage'.remainingTasks = [] ∧ Transmits env (.worker n) w w' := by
  unfold decode at h
  split at h
  · obtain ⟨rfl, rfl⟩ := Prod.mk.inj (Option.some.inj h)
    exact ⟨rfl, .of_eq rfl rfl rfl fun _ => rfl⟩
  · obtain ⟨rfl, rfl⟩ := Prod.mk.inj (Option.some.inj h)
    exact ⟨rfl, transmits_onClose⟩
  · next recvBuf package hnext =>
    have hreceived : Transmits env (.worker n) w (w.setRecvBuf r recvBuf) :=
      transmits_setEndpoint ⟨rfl, rfl⟩
    dsimp only at h
    split at h
    · obtain ⟨rfl, rfl⟩ := Prod.mk.inj (Option.some.inj h)
      exact ⟨rfl, hreceived.trans (transmits_sendMsg _ _ _)⟩
    · next hanswer =>
      obtain ⟨w₁, hok, heq⟩ := TransitionSystem.exists_ok_of_toOption_map h
      obtain ⟨rfl, rfl⟩ := Prod.mk.inj heq
      exact ⟨rfl, hreceived.trans (transmits_processPackage hanswer hok)⟩

/-- What a step of a worker thread does for the messages on their way out. -/
inductive Conveys (env : Environment) (n : ℕ) (w : World) : Stage → Stage → World → Prop
  /-- The thread takes its queue. -/
  | swap : Conveys env n w (.dispatch []) (.tasks (w.loop (.worker n)).customTasks)
      (w.modifyLoop (.worker n) fun l => { l with customTasks := [] })
  /-- The thread calls `onWrite`. -/
  | write (r : Ref) (batch : List Ref) :
      Conveys env n w (.writing r batch) (.dispatch batch) (w.onWrite env r)
  /-- The thread executes a send. -/
  | task (r : Ref) (buf : Bytes) (rest : List CustomTask) :
      Conveys env n w (.tasks (.send r buf :: rest)) (.tasks rest)
        ((w.log (.sendTask r)).send env (.worker n) r buf)
  /-- The thread sends what is recorded. -/
  | other {stage stage' : Stage} {w' : World}
      (hstage : ∀ t, sends t stage'.remainingTasks = sends t stage.remainingTasks)
      (hserve : ∀ x : Outlets, x.serve env w n stage = x)
      (hw : Transmits env (.worker n) w w') : Conveys env n w stage stage' w'

/-- What a step of a worker thread conveys. -/
lemma conveys_work (hidle : ∀ l, (w.loop l).timers.isCheckTimers = false)
    (h : w.work env n input stage = some (stage', w')) : Conveys env n w stage stage' w' := by
  cases stage with
  | timers =>
    obtain ⟨rfl, rfl⟩ := Prod.mk.inj (Option.some.inj h)
    refine .other (fun _ => rfl) (fun _ => rfl) ?_
    exact (checkAndDoTimers_rule (I := Transmits env (.worker n) w) _ (hidle _)
      (.of_eq rfl rfl rfl fun _ => rfl)
      (fun _ _ hw₁ => hw₁.trans (transmits_modifyTimers _))
      fun _ _ timerID _ hw₁ => hw₁.trans (transmits_reminderCallback timerID)).2
  | poll =>
    rw [work] at h
    split at h
    · obtain ⟨rfl, rfl⟩ := Prod.mk.inj (Option.some.inj h)
      refine .other (fun _ => rfl) (fun _ => rfl) ?_
      exact List.foldlRecOn (motive := Transmits env (.worker n) w) _ _
        (.of_eq rfl rfl rfl fun _ => rfl)
        fun w₁ hw₁ event _ => hw₁.trans (transmits_setEndpoint ⟨rfl, rfl⟩)
    · cases h
  | dispatch batch =>
    cases batch with
    | nil =>
      obtain ⟨rfl, rfl⟩ := Prod.mk.inj (Option.some.inj h)
      exact .swap
    | cons r batch =>
      have hreceive : w.receive n r batch input.recv = (stage', w') := Option.some.inj h
      unfold receive at hreceive
      split at hreceive
      · obtain ⟨rfl, rfl⟩ := Prod.mk.inj hreceive
        exact .other (fun _ => rfl) (fun _ => rfl) (.of_eq rfl rfl rfl fun _ => rfl)
      · split at hreceive
        · obtain ⟨rfl, rfl⟩ := Prod.mk.inj hreceive
          exact .other (fun _ => rfl) (fun _ => rfl) transmits_onClose
        · obtain ⟨rfl, rfl⟩ := Prod.mk.inj hreceive
          exact .other (fun _ => rfl) (fun _ => rfl)
            (.of_eq rfl rfl rfl fun _ => rfl)
        · obtain ⟨rfl, rfl⟩ := Prod.mk.inj hreceive
          exact .other (fun _ => rfl) (fun _ => rfl)
            (transmits_setEndpoint ⟨rfl, rfl⟩)
  | reading r batch =>
    obtain ⟨hremaining, hdecoded⟩ := transmits_decode h
    exact .other (fun _ => by rw [hremaining]; rfl) (fun _ => rfl) hdecoded
  | answered r batch =>
    obtain ⟨w₁, hok, heq⟩ := TransitionSystem.exists_ok_of_toOption_map h
    obtain ⟨rfl, rfl⟩ := Prod.mk.inj heq
    exact .other (fun _ => rfl) (fun _ => rfl) (transmits_sendAll hok)
  | notified r batch =>
    obtain ⟨w₁, hok, heq⟩ := TransitionSystem.exists_ok_of_toOption_map h
    obtain ⟨rfl, rfl⟩ := Prod.mk.inj heq
    exact .other (fun _ => rfl) (fun _ => rfl) (transmits_resetDesk hok)
  | closing r eof batch =>
    cases eof with
    | true =>
      obtain ⟨rfl, rfl⟩ := Prod.mk.inj (Option.some.inj h)
      exact .other (fun _ => rfl) (fun _ => rfl) (.of_eq rfl rfl rfl fun _ => rfl)
    | false =>
      obtain ⟨rfl, rfl⟩ := Prod.mk.inj (Option.some.inj h)
      exact .other (fun _ => rfl) (fun _ => rfl) (.of_eq rfl rfl rfl fun _ => rfl)
  | writing r batch =>
    obtain ⟨rfl, rfl⟩ := Prod.mk.inj (Option.some.inj h)
    exact .write r batch
  | tasks remaining =>
    cases remaining with
    | nil =>
      obtain ⟨rfl, rfl⟩ := Prod.mk.inj (Option.some.inj h)
      exact .other (fun _ => rfl) (fun _ => rfl) (.of_eq rfl rfl rfl fun _ => rfl)
    | cons task rest =>
      obtain ⟨rfl, rfl⟩ := Prod.mk.inj (Option.some.inj h)
      cases task with
      | send r buf => exact .task r buf rest
      | addTimerInternal spTimer =>
        exact .other (fun _ => rfl) (fun _ => rfl) (transmits_addTimerInternal _)
      | removeTimerInternal timerID =>
        exact .other (fun _ => rfl) (fun _ => rfl) (transmits_removeTimer _)

end World

end Calc24
