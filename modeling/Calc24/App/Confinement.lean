import Calc24.App.Turns

/-!
# One loop per thread

The design of the server gives every connection and every timer to one loop, and every loop to one
thread: what another thread wants from a loop it queues there.  This file proves that the threads
keep to it.  Between two steps of its own thread a loop finds its timers, the requests that are
pending in them, and its connections as it has left them, and its queue only grows
(`spares_of_run`); its epoll instance may have changed, but only because the base loop registers
the connections that it accepts.

There is one way in which a thread takes connections from another one: `onConnected` destroys the
sessions that have disconnected, with their connections, and does so on the thread of the base loop,
even while their own thread is still on them.  The record of a connection is what it was in the
model then, but it stands for freed memory, so what is found again (`FoundAgain`) is said of
connections only that have not been released.  The steps are those of `Process`.

`Spares l w w'` says that between `w` and `w'` the loop `l` has been treated like this.
-/

namespace Calc24

/-- The connection whose `onWrite` comes next. -/
def Stage.writer : Stage → Option Ref
  | .writing r _ => some r
  | _ => none

namespace World

variable {env : Environment} {cur l l' : LoopId} {n : ℕ} {r t : Ref} {batch : List Ref}
  {w w₁ w' w'' : World} {stage stage' : Stage} {input : Input} {msg buf : Bytes}

/-- What other threads may do to a loop: they put tasks at the end of its queue, and construct
timers that they queue for it. -/
structure Spares (l : LoopId) (w w' : World) : Prop where
  tasks : (w.loop l).customTasks <+: (w'.loop l).customTasks
  isCheckTimers : (w'.loop l).timers.isCheckTimers = (w.loop l).timers.isCheckTimers
  timers : (w'.loop l).timers.timers = (w.loop l).timers.timers
  pendingAddTimers : (w'.loop l).timers.pendingAddTimers = (w.loop l).timers.pendingAddTimers
  pendingRemoveTimers :
    (w'.loop l).timers.pendingRemoveTimers = (w.loop l).timers.pendingRemoveTimers
  due : ∀ object < w.timersConstructed,
    (w'.loop l).timers.nextTriggeredTimeMs object = (w.loop l).timers.nextTriggeredTimeMs object
  connection : ∀ r < w.nextRef, (w.connection r).loop = l → w'.connection r = w.connection r
  loop : ∀ r < w.nextRef, (w'.connection r).loop = (w.connection r).loop
  timersConstructed : w.timersConstructed ≤ w'.timersConstructed
  nextRef : w.nextRef ≤ w'.nextRef

/-- What the thread of a loop finds of it when it goes on: all is as it has left it, only that tasks
may have been queued and connections may have been destroyed. -/
structure FoundAgain (l : LoopId) (w w' : World) : Prop where
  tasks : (w.loop l).customTasks <+: (w'.loop l).customTasks
  isCheckTimers : (w'.loop l).timers.isCheckTimers = (w.loop l).timers.isCheckTimers
  timers : (w'.loop l).timers.timers = (w.loop l).timers.timers
  pendingAddTimers : (w'.loop l).timers.pendingAddTimers = (w.loop l).timers.pendingAddTimers
  pendingRemoveTimers :
    (w'.loop l).timers.pendingRemoveTimers = (w.loop l).timers.pendingRemoveTimers
  due : ∀ object < w.timersConstructed,
    (w'.loop l).timers.nextTriggeredTimeMs object = (w.loop l).timers.nextTriggeredTimeMs object
  connection : ∀ r < w.nextRef, .released r ∉ w'.trace → (w.connection r).loop = l →
    w'.connection r = w.connection r

namespace Spares

/-- A loop that is spared twice in a row is spared. -/
lemma trans (h : Spares l w w') (h' : Spares l w' w'') : Spares l w w'' where
  tasks := h.tasks.trans h'.tasks
  isCheckTimers := h'.isCheckTimers.trans h.isCheckTimers
  timers := h'.timers.trans h.timers
  pendingAddTimers := h'.pendingAddTimers.trans h.pendingAddTimers
  pendingRemoveTimers := h'.pendingRemoveTimers.trans h.pendingRemoveTimers
  due object hobject :=
    (h'.due object (hobject.trans_le h.timersConstructed)).trans (h.due object hobject)
  connection r hr hl := by
    rw [h'.connection r (hr.trans_le h.nextRef) ((h.loop r hr).trans hl), h.connection r hr hl]
  loop r hr := (h'.loop r (hr.trans_le h.nextRef)).trans (h.loop r hr)
  timersConstructed := h.timersConstructed.trans h'.timersConstructed
  nextRef := h.nextRef.trans h'.nextRef

/-- The thread of a loop that is spared finds it again. -/
lemma foundAgain (h : Spares l w w') : FoundAgain l w w' where
  tasks := h.tasks
  isCheckTimers := h.isCheckTimers
  timers := h.timers
  pendingAddTimers := h.pendingAddTimers
  pendingRemoveTimers := h.pendingRemoveTimers
  due := h.due
  connection r hr _ := h.connection r hr

end Spares

/-- The same, and the epoll instance of the loop is as before. -/
structure Leaves (l : LoopId) (w w' : World) : Prop extends Spares l w w' where
  epoll : (w'.loop l).epoll = (w.loop l).epoll

namespace Leaves

lemma trans (h : Leaves l w w') (h' : Leaves l w' w'') : Leaves l w w'' where
  toSpares := h.toSpares.trans h'.toSpares
  epoll := h'.epoll.trans h.epoll

/-- What changes no loop, no connection and none of the two counters. -/
lemma of_eq (hloop : w'.loop = w.loop) (hconnection : w'.connection = w.connection)
    (htimersConstructed : w'.timersConstructed = w.timersConstructed)
    (hnextRef : w'.nextRef = w.nextRef) : Leaves l w w' where
  tasks := by rw [hloop]
  isCheckTimers := by rw [hloop]
  timers := by rw [hloop]
  pendingAddTimers := by rw [hloop]
  pendingRemoveTimers := by rw [hloop]
  due _ _ := by rw [hloop]
  connection _ _ _ := by rw [hconnection]
  loop _ _ := by rw [hconnection]
  timersConstructed := htimersConstructed.ge
  nextRef := hnextRef.ge
  epoll := by rw [hloop]

lemma refl (l : LoopId) (w : World) : Leaves l w w :=
  of_eq rfl rfl rfl rfl

end Leaves

/-! ## The single functions -/

/-- A change of another loop. -/
lemma leaves_modifyLoop {f : EventLoop Dispatcher TimerTask CustomTask →
      EventLoop Dispatcher TimerTask CustomTask} (hl : l ≠ l') :
    Leaves l w (w.modifyLoop l' f) := by
  have hloop : (w.modifyLoop l' f).loop l = w.loop l := by simp [modifyLoop, hl]
  refine { Leaves.refl l w with
    tasks := ?_, isCheckTimers := ?_, timers := ?_, pendingAddTimers := ?_,
    pendingRemoveTimers := ?_, due := fun object _ => ?_, epoll := ?_ } <;> rw [hloop]

/-- Queueing a task, for whatever loop. -/
lemma leaves_addTask (task : CustomTask) : Leaves l w (w.modifyLoop l' (EventLoop.addTask task)) := by
  by_cases hl : l = l'
  · subst hl
    have hloop : (w.modifyLoop l (EventLoop.addTask task)).loop l =
        EventLoop.addTask task (w.loop l) := by simp [modifyLoop]
    refine { Leaves.refl l w with
      tasks := ?_, isCheckTimers := ?_, timers := ?_, pendingAddTimers := ?_,
      pendingRemoveTimers := ?_, due := fun object _ => ?_, epoll := ?_ } <;> rw [hloop]
    · exact List.prefix_append _ _
    all_goals rfl
  · exact leaves_modifyLoop hl

/-- A call on a connection of another loop. -/
lemma leaves_setEndpoint {p : Endpoint Dispatcher} (hr : (w.connection r).loop ≠ l)
    (hp : Endpoint.Changes (.connection r) (w.endpoint r) p) : Leaves l w (w.setEndpoint r p) := by
  have hmodify : Leaves l w (w.modifyLoop (w.connection r).loop fun l => { l with epoll := p.epoll }) :=
    leaves_modifyLoop hr.symm
  refine { hmodify with connection := fun t _ ht => ?_, loop := fun t _ => ?_ }
  · have hne : t ≠ r := by
      rintro rfl
      exact hr ht
    simp [setEndpoint, modifyLoop, hne]
  · exact (touches_setEndpoint (A := {r}) rfl hp).loop t

/-- A call for the timers of any loop, made by another thread than `l`. -/
lemma leaves_removeTimer (hcur : cur ≠ l) (timerID : Int64) :
    Leaves l w (w.removeTimer cur l' timerID) := by
  unfold removeTimer
  split
  · next hown =>
    rw [loopTimers_modify]
    exact leaves_modifyLoop (hown ▸ hcur.symm)
  · exact leaves_addTask _

lemma leaves_onDisconnected (id : Int32) : Leaves l w (w.onDisconnected id) := by
  unfold onDisconnected
  split
  · exact Leaves.refl l w
  · exact Leaves.of_eq rfl rfl rfl rfl

/-- A thread that closes a connection of its own. -/
lemma leaves_onClose (hr : (w.connection r).loop = cur) (hcur : cur ≠ l) :
    Leaves l w (w.onClose cur r) :=
  ((leaves_setEndpoint (hr ▸ hcur) (Endpoint.changes_onClose _ _)).trans
    (leaves_removeTimer hcur _)).trans (leaves_onDisconnected _)

/-- A send is queued for another loop, or is for a connection of the own one. -/
lemma leaves_send (hcur : cur ≠ l) : Leaves l w (w.send env cur r buf) := by
  have hflush : ∀ {w₁}, cur = (w.connection r).loop → Flushes r w w₁ → Leaves l w w₁ := by
    rintro w₁ hown ⟨p, hp, -, rfl⟩
    exact (leaves_setEndpoint (hown ▸ hcur) hp).trans (Leaves.of_eq rfl rfl rfl rfl)
  rcases send_cases env cur r buf w with
    ⟨-, hqueued⟩ | ⟨hown, -, hflushed⟩ | ⟨hown, -, w₁, hflushed, hclosed⟩
  · rw [hqueued]
    exact leaves_addTask _
  · exact hflush hown hflushed
  · rw [hclosed]
    have hloop : (w₁.connection r).loop = cur :=
      ((hflushed.touches (A := {r}) rfl).loop r).trans hown.symm
    exact (hflush hown hflushed).trans (leaves_onClose hloop hcur)

lemma leaves_sendMsg (hcur : cur ≠ l) : Leaves l w (w.sendMsg env cur r msg) :=
  (Leaves.of_eq rfl rfl rfl rfl : Leaves l w (w.log (.sent r msg))).trans (leaves_send hcur)

/-- A reminder sends, or has its own timer removed. -/
lemma leaves_reminderCallback (hcur : cur ≠ l) (timerID : Int64) :
    Leaves l w (w.reminderCallback env cur r timerID) := by
  have hlog : Leaves l w (w.log (.reminder r timerID)) := Leaves.of_eq rfl rfl rfl rfl
  unfold reminderCallback
  dsimp only
  split
  · exact hlog.trans (leaves_sendMsg hcur)
  · exact hlog.trans (leaves_removeTimer hcur _)

/-- A reminder for a session of another thread is constructed here and queued there. -/
lemma leaves_notifyUserToBeReady (hcur : cur ≠ l) : Leaves l w (w.notifyUserToBeReady env cur r) := by
  rw [notifyUserToBeReady_eq]
  by_cases hl : l = (w.connection r).loop
  · subst hl
    refine { Leaves.refl _ w with
      tasks := ?_, isCheckTimers := ?_, timers := ?_, pendingAddTimers := ?_,
      pendingRemoveTimers := ?_, due := fun object hobject => ?_, epoll := ?_,
      timersConstructed := Nat.le_succ _ } <;>
      simp only [modifyLoop, Function.update_self, addReminder, if_neg hcur, EventLoop.addTask]
    · exact List.prefix_append _ _
    · rfl
    · rfl
    · rfl
    · rfl
    · exact Function.update_of_ne hobject.ne _ _
  · exact { leaves_modifyLoop (w := w) hl with timersConstructed := Nat.le_succ _ }

/-- A session that is reset is sent a reminder through the queue of its loop. -/
lemma leaves_resetToIdle (hcur : cur ≠ l) : Leaves l w (w.resetToIdle env cur r) := by
  have hidle : Leaves l w (w.modifySession r fun s => { s with deskID := 0, status := .IDLE }) :=
    Leaves.of_eq rfl rfl rfl rfl
  exact hidle.trans (leaves_notifyUserToBeReady hcur)

/-- A broadcast is a row of messages. -/
lemma leaves_sendAll {includeSelf : Bool} {id : Int32} {status : SessionStatus} {deskID : Int64}
    (hcur : cur ≠ l) (h : w.sendAll env cur msg includeSelf id status deskID = .ok w') :
    Leaves l w w' :=
  (sendAll_invariant (I := Leaves l w) (Leaves.refl l w)
    (fun _ _ _ hw₁ _ _ => hw₁.trans (leaves_sendMsg hcur)) h).1

/-- The reset of a desk is a row of resets. -/
lemma leaves_resetDesk (hcur : cur ≠ l) (h : w.resetDesk env cur r = .ok w') : Leaves l w w' := by
  refine (forEachSession_invariant (I := Leaves l w) (Leaves.refl l w) ?_ h).1
  intro t _ w₁ hw₁ _ _
  split
  · exact hw₁
  · exact hw₁.trans (leaves_resetToIdle hcur)

/-- A deal is a row of messages, too. -/
lemma leaves_checkHandup (hcur : cur ≠ l) (h : w.checkHandup env cur = .ok w') : Leaves l w w' := by
  unfold checkHandup at h
  split at h
  · obtain rfl : w = w' := Except.ok.inj h
    exact Leaves.refl l w
  · refine (forEachSession_invariant (w := (w.generateCards env).2.2) (I := Leaves l w)
      (Leaves.of_eq rfl rfl rfl rfl) ?_ h).1
    intro r _ w₁ hw₁ _ _
    split
    · have hcards : Leaves l w₁ (w₁.sendMsg env cur r (w.generateCards env).1) :=
        leaves_sendMsg hcur
      exact (hw₁.trans hcards).trans (Leaves.of_eq rfl rfl rfl rfl)
    · exact hw₁

/-- The handling of a package, but for a right answer. -/
lemma leaves_processPackage {package : Bytes} (hcur : cur ≠ l) (hanswer : package ≠ answerCmd)
    (h : w.processPackage env cur r package = .ok w') : Leaves l w w' := by
  unfold processPackage at h
  split at h
  · obtain rfl : w = w' := Except.ok.inj h
    exact Leaves.refl l w
  · split at h
    · exact leaves_sendAll hcur h
    · rw [processCmd, if_neg hanswer] at h
      split at h
      · obtain rfl := Except.ok.inj h
        exact Leaves.of_eq rfl rfl rfl rfl
      · obtain rfl := Except.ok.inj h
        exact leaves_sendMsg hcur

/-- A pass over the timers of another loop. -/
lemma leaves_checkAndDoTimers (nowMs : ℤ) (hcur : cur ≠ l)
    (hidle : (w.loop cur).timers.isCheckTimers = false) :
    Leaves l w (w.checkAndDoTimers env cur nowMs) := by
  refine (checkAndDoTimers_rule (I := Leaves l w) nowMs hidle (Leaves.refl l w)
    (fun f w₁ hw₁ => ?_) fun r _ timerID w₁ hw₁ => ?_).2
  · rw [loopTimers_modify]
    exact hw₁.trans (leaves_modifyLoop hcur.symm)
  · exact hw₁.trans (leaves_reminderCallback hcur timerID)

/-- A task that a thread executes is for its own loop. -/
lemma leaves_runTask (hcur : cur ≠ l) (task : CustomTask) : Leaves l w (runTask env cur w task) := by
  cases task with
  | send r buf =>
    exact (Leaves.of_eq rfl rfl rfl rfl : Leaves l w (w.log (.sendTask r))).trans (leaves_send hcur)
  | addTimerInternal spTimer =>
    rw [runTask, addTimerInternal, if_pos rfl, loopTimers_modify]
    exact leaves_modifyLoop hcur.symm
  | removeTimerInternal timerID => exact leaves_removeTimer hcur timerID

/-! ## A step of a thread -/

/-- A worker thread leaves the other loops alone, as long as the sessions that it holds on to are
those of its own loop. -/
lemma leaves_work (hl : l ≠ .worker n) (hidle : (w.loop (.worker n)).timers.isCheckTimers = false)
    (hheld : ∀ t ∈ stage.held, (w.connection t).loop = .worker n)
    (hwriter : ∀ t ∈ stage.writer, (w.connection t).loop = .worker n)
    (h : w.work env n input stage = some (stage', w')) : Leaves l w w' := by
  have hsetEndpoint : ∀ {r : Ref} {p : Endpoint Dispatcher}, (w.connection r).loop = .worker n →
      Endpoint.Changes (.connection r) (w.endpoint r) p → Leaves l w (w.setEndpoint r p) :=
    fun hr => leaves_setEndpoint (hr ▸ hl.symm)
  cases stage with
  | timers =>
    obtain ⟨-, rfl⟩ := Prod.mk.inj (Option.some.inj h)
    exact leaves_checkAndDoTimers _ hl.symm hidle
  | poll =>
    rw [work] at h
    split at h
    · next hreported =>
      obtain ⟨-, rfl⟩ := Prod.mk.inj (Option.some.inj h)
      -- the reported connections belong to the loop, before and after others have been marked
      refine (List.foldlRecOn (motive := fun w₁ : World => Leaves l w w₁ ∧
        ∀ t, (w₁.connection t).loop = (w.connection t).loop) _ _ ⟨Leaves.refl l w, fun _ => rfl⟩
        ?_).1
      rintro w₁ ⟨hleaves, hloops⟩ event hevent
      have hchanges : Endpoint.Changes (.connection event.1) (w₁.endpoint event.1)
          ((w₁.endpoint event.1).enableReadWrite event.2.1 event.2.2) :=
        Endpoint.changes_enableReadWrite _ _ _ _
      have hown : (w₁.connection event.1).loop = .worker n :=
        (hloops event.1).trans (hreported event hevent).2.1
      exact ⟨hleaves.trans (leaves_setEndpoint (hown ▸ hl.symm) hchanges),
        fun t => ((touches_setEndpoint (A := {event.1}) rfl hchanges).loop t).trans (hloops t)⟩
    · cases h
  | dispatch batch =>
    cases batch with
    | nil =>
      obtain ⟨-, rfl⟩ := Prod.mk.inj (Option.some.inj h)
      exact leaves_modifyLoop hl
    | cons r batch =>
      have hr : (w.connection r).loop = .worker n := hheld r (List.mem_cons_self ..)
      have hreceive : w.receive n r batch input.recv = (stage', w') := Option.some.inj h
      unfold receive at hreceive
      split at hreceive
      · obtain ⟨-, rfl⟩ := Prod.mk.inj hreceive
        exact Leaves.refl l w
      · split at hreceive
        · obtain ⟨-, rfl⟩ := Prod.mk.inj hreceive
          exact leaves_onClose hr hl.symm
        · obtain ⟨-, rfl⟩ := Prod.mk.inj hreceive
          exact Leaves.refl l w
        · obtain ⟨-, rfl⟩ := Prod.mk.inj hreceive
          exact hsetEndpoint hr (Endpoint.changes_setRecvBuf _ _ _)
  | reading r batch =>
    have hr : (w.connection r).loop = .worker n := hheld r (List.mem_cons_self ..)
    have htaken : ∀ recvBuf, Leaves l w (w.setRecvBuf r recvBuf) := fun recvBuf =>
      hsetEndpoint hr (Endpoint.changes_setRecvBuf _ _ _)
    rcases decode_cases h with ⟨-, rfl⟩ | ⟨-, rfl⟩ | ⟨recvBuf, -, -, rfl⟩ |
      ⟨recvBuf, package, hanswer, -, hok⟩
    · exact Leaves.refl l _
    · exact leaves_onClose hr hl.symm
    · exact (htaken recvBuf).trans (leaves_sendMsg hl.symm)
    · exact (htaken recvBuf).trans (leaves_processPackage hl.symm hanswer hok)
  | answered r batch =>
    obtain ⟨w₁, hok, heq⟩ := TransitionSystem.exists_ok_of_toOption_map h
    obtain ⟨-, rfl⟩ := Prod.mk.inj heq
    exact leaves_sendAll hl.symm hok
  | notified r batch =>
    obtain ⟨w₁, hok, heq⟩ := TransitionSystem.exists_ok_of_toOption_map h
    obtain ⟨-, rfl⟩ := Prod.mk.inj heq
    exact leaves_resetDesk hl.symm hok
  | closing r eof batch =>
    cases eof with
    | true =>
      obtain ⟨-, rfl⟩ := Prod.mk.inj (Option.some.inj h)
      exact Leaves.refl l w
    | false =>
      obtain ⟨-, rfl⟩ := Prod.mk.inj (Option.some.inj h)
      exact Leaves.refl l w
  | writing r batch =>
    obtain ⟨-, rfl⟩ := Prod.mk.inj (Option.some.inj h)
    have hflush := hsetEndpoint (hwriter r rfl) (Endpoint.changes_onWrite (.connection r)
      (w.endpoint r) (env.send w.flushes))
    exact hflush.trans (Leaves.of_eq rfl rfl rfl rfl)
  | tasks remaining =>
    cases remaining with
    | nil =>
      obtain ⟨-, rfl⟩ := Prod.mk.inj (Option.some.inj h)
      exact Leaves.refl l w
    | cons task rest =>
      obtain ⟨-, rfl⟩ := Prod.mk.inj (Option.some.inj h)
      exact leaves_runTask hl.symm task

/-- A thread only calls `onWrite` on connections that it held before. -/
lemma mem_held_of_writer (h : w.work env n input stage = some (stage', w')) :
    ∀ t ∈ stage'.writer, t ∈ stage.held := by
  have hnothing : ∀ {s : Stage}, s.writer = none → ∀ t ∈ s.writer, t ∈ stage.held := by
    intro s hs t ht
    rw [hs] at ht
    cases ht
  cases stage with
  | timers =>
    obtain ⟨rfl, -⟩ := Prod.mk.inj (Option.some.inj h)
    exact hnothing rfl
  | poll =>
    rw [work] at h
    split at h
    · obtain ⟨rfl, -⟩ := Prod.mk.inj (Option.some.inj h)
      exact hnothing rfl
    · cases h
  | dispatch batch =>
    cases batch with
    | nil =>
      obtain ⟨rfl, -⟩ := Prod.mk.inj (Option.some.inj h)
      exact hnothing rfl
    | cons r batch =>
      have hreceive : w.receive n r batch input.recv = (stage', w') := Option.some.inj h
      unfold receive at hreceive
      split at hreceive
      · obtain ⟨rfl, -⟩ := Prod.mk.inj hreceive
        rintro t ⟨⟩
        exact List.mem_cons_self ..
      · split at hreceive
        · obtain ⟨rfl, -⟩ := Prod.mk.inj hreceive
          exact hnothing rfl
        · obtain ⟨rfl, -⟩ := Prod.mk.inj hreceive
          rintro t ⟨⟩
          exact List.mem_cons_self ..
        · obtain ⟨rfl, -⟩ := Prod.mk.inj hreceive
          exact hnothing rfl
  | reading r batch =>
    rcases decode_cases h with ⟨rfl, -⟩ | ⟨rfl, -⟩ | ⟨-, -, rfl, -⟩ | ⟨-, -, -, rfl, -⟩
    · rintro t ⟨⟩
      exact List.mem_cons_self ..
    · exact hnothing rfl
    · exact hnothing rfl
    · exact hnothing rfl
  | answered r batch =>
    obtain ⟨w₁, -, heq⟩ := TransitionSystem.exists_ok_of_toOption_map h
    obtain ⟨rfl, -⟩ := Prod.mk.inj heq
    exact hnothing rfl
  | notified r batch =>
    obtain ⟨w₁, -, heq⟩ := TransitionSystem.exists_ok_of_toOption_map h
    obtain ⟨rfl, -⟩ := Prod.mk.inj heq
    exact hnothing rfl
  | closing r eof batch =>
    cases eof with
    | true =>
      obtain ⟨rfl, -⟩ := Prod.mk.inj (Option.some.inj h)
      exact hnothing rfl
    | false =>
      obtain ⟨rfl, -⟩ := Prod.mk.inj (Option.some.inj h)
      rintro t ⟨⟩
      exact List.mem_cons_self ..
  | writing r batch =>
    obtain ⟨rfl, -⟩ := Prod.mk.inj (Option.some.inj h)
    exact hnothing rfl
  | tasks remaining =>
    cases remaining with
    | nil =>
      obtain ⟨rfl, -⟩ := Prod.mk.inj (Option.some.inj h)
      exact hnothing rfl
    | cons task rest =>
      obtain ⟨rfl, -⟩ := Prod.mk.inj (Option.some.inj h)
      exact hnothing rfl

/-! ## Connecting -/

/-- Accepting a connection registers it with its loop, and touches nothing that was there. -/
lemma spares_onAccept (fd : ℕ) : Spares l w (w.onAccept fd) where
  tasks := by rw [(onAccept_loop fd w l).2]
  isCheckTimers := by rw [(onAccept_loop fd w l).1]
  timers := by rw [(onAccept_loop fd w l).1]
  pendingAddTimers := by rw [(onAccept_loop fd w l).1]
  pendingRemoveTimers := by rw [(onAccept_loop fd w l).1]
  due _ _ := by rw [(onAccept_loop fd w l).1]
  connection t ht _ := onAccept_connection fd ht.ne
  loop t ht := by rw [onAccept_connection fd ht.ne]
  timersConstructed := le_refl _
  nextRef := Nat.le_succ _

/-- Destroying the pending sessions takes their descriptors out of epoll instances. -/
lemma Clears.spares (h : Clears w w') : Spares l w w' where
  tasks := by rw [h.tasks]
  isCheckTimers := by rw [h.timers]
  timers := by rw [h.timers]
  pendingAddTimers := by rw [h.timers]
  pendingRemoveTimers := by rw [h.timers]
  due _ _ := by rw [h.timers]
  connection _ _ _ := by rw [h.connection]
  loop _ _ := by rw [h.connection]
  timersConstructed := h.timersConstructed.ge
  nextRef := h.nextRef.ge

/-- The base loop accepts a connection for another loop. -/
lemma spares_connect {fd : ℕ} {order : List (Int32 × Ref)} (hcur : cur ≠ l)
    (h : (w.onAccept fd).onConnected env cur r order = .ok w') : Spares l w w' := by
  obtain ⟨-, sessions, rfl, -⟩ := emplace_cases h
  have hcleared : Spares l w (w.onAccept fd).clearPending :=
    (spares_onAccept fd).trans (clears_clearPending _).spares
  have hconstructed : Leaves l (w.onAccept fd).clearPending
      ((w.onAccept fd).clearPending.constructSession env r) := Leaves.of_eq rfl rfl rfl rfl
  have hwelcomed : Leaves l (w.onAccept fd).clearPending
      (((w.onAccept fd).clearPending.constructSession env r).sendWelcomeMsg env cur r) :=
    hconstructed.trans (leaves_sendMsg hcur)
  have hnotified : Leaves l (w.onAccept fd).clearPending
      ((((w.onAccept fd).clearPending.constructSession env r).sendWelcomeMsg env cur
        r).notifyUserToBeReady env cur r) :=
    hwelcomed.trans (leaves_notifyUserToBeReady hcur)
  have hstored : ∀ w₁ : World, Leaves l w₁ { w₁ with sessions := sessions } :=
    fun _ => Leaves.of_eq rfl rfl rfl rfl
  exact hcleared.trans (hnotified.trans (hstored _)).toSpares

end World

/-! ## Runs -/

/-- The loop of the thread that takes a step. -/
def Step.thread : Step → LoopId
  | .connect _ _ => .base
  | .checkHandup => .base
  | .worker n _ => .worker n

namespace Process

open World

variable {env : Environment} {s s' : Process} {step : Step}

/-- What is true of the threads between two steps: in addition to `Sound`, a thread that is about
to call `onWrite` calls it on a connection of its own. -/
structure Confined (s : Process) : Prop where
  sound : s.Sound
  writer : ∀ n, ∀ t ∈ (s.stage n).writer,
    t < s.world.nextRef ∧ (s.world.connection t).loop = .worker n

/-- The threads are confined when they start. -/
lemma confined_start (threadNum : ℕ) : Confined (start threadNum) where
  sound := sound_start threadNum
  writer _ _ ht := by cases ht

/-- **A step of a thread leaves the loops of the other threads alone**: it queues tasks for them at
most, and only accepting a connection reaches their epoll instances. -/
theorem Confined.spares_next (h : Confined s) (hstep : s.next env step = some s') {l : LoopId}
    (hl : step.thread ≠ l) : Spares l s.world s'.world ∧
      ((∀ fd order, step ≠ .connect fd order) → Leaves l s.world s'.world) ∧
      ∀ n, l = .worker n → s'.stage n = s.stage n := by
  rcases next_cases hstep with ⟨fd, order, w, rfl, hok, rfl⟩ | ⟨w, rfl, hok, rfl⟩ |
    ⟨n, input, stage, w, rfl, -, hwork, rfl⟩
  · exact ⟨spares_connect hl hok, fun hno => absurd rfl (hno fd order), fun _ _ => rfl⟩
  · have hleaves := leaves_checkHandup hl hok
    exact ⟨hleaves.toSpares, fun _ => hleaves, fun _ _ => rfl⟩
  · have hleaves := leaves_work hl.symm (h.sound.idle _) (fun t ht => (h.sound.held n t ht).2)
      (fun t ht => (h.writer n t ht).2) hwork
    refine ⟨hleaves.toSpares, fun _ => hleaves, ?_⟩
    rintro m rfl
    have hne : m ≠ n := by
      rintro rfl
      exact hl rfl
    exact Function.update_of_ne hne _ _

/-- Connections stay with the loop that they have been given. -/
lemma Sound.loop_next (h : s.Sound) (hstep : s.next env step = some s') {t : Ref} {l : LoopId}
    (ht : t < s.world.nextRef ∧ (s.world.connection t).loop = l) :
    t < s'.world.nextRef ∧ (s'.world.connection t).loop = l := by
  obtain ⟨hlt, hloop⟩ := ht
  have haffects : ∀ {A : Set Ref} {w : World}, Affects A s.world w →
      t < w.nextRef ∧ (w.connection t).loop = l := fun hw =>
    ⟨hw.nextRef.symm ▸ hlt, (hw.loop t).trans hloop⟩
  rcases next_cases hstep with ⟨fd, order, w, rfl, hok, rfl⟩ | ⟨w, rfl, hok, rfl⟩ |
    ⟨n, input, stage, w, rfl, -, hwork, rfl⟩
  · have hconnects := connect_cases h.wellFormed hok
    refine ⟨?_, (hconnects.loop t hlt.ne).trans hloop⟩
    rw [hconnects.nextRef]
    exact hlt.trans (Nat.lt_succ_self _)
  · exact haffects (affects_checkHandup hok)
  · exact haffects (turn_work h.idle
      (fun task htask t ht => (h.remaining n task htask t ht).2) hwork).affects

/-- Every step keeps the threads to their own loops. -/
lemma Confined.next (h : Confined s) (hstep : s.next env step = some s') : Confined s' := by
  refine ⟨h.sound.next hstep, fun m t ht => h.sound.loop_next hstep ?_⟩
  rcases next_cases hstep with ⟨fd, order, w, rfl, hok, rfl⟩ | ⟨w, rfl, hok, rfl⟩ |
    ⟨n, input, stage, w, rfl, -, hwork, rfl⟩
  · exact h.writer m t ht
  · exact h.writer m t ht
  · by_cases hm : m = n
    · subst hm
      simp only [Function.update_self] at ht
      exact h.sound.held m t (mem_held_of_writer hwork t ht)
    · simp only [Function.update_of_ne hm] at ht
      exact h.writer m t ht

/-- The threads are confined in every reachable state. -/
lemma confined_reachable (h : (interleaved env).Reachable s) : Confined s := by
  refine h.invariant ?_ fun _ _ _ h hstep => h.next hstep
  rintro s ⟨threadNum, -, rfl⟩
  exact confined_start threadNum

/-- The run takes no step of the thread of a loop. -/
def Pauses (l : LoopId) (tr : List (Step × Process)) : Prop :=
  ∀ entry ∈ tr, entry.1.thread ≠ l

instance (l : LoopId) (tr : List (Step × Process)) : Decidable (Pauses l tr) :=
  inferInstanceAs (Decidable (∀ entry ∈ tr, entry.1.thread ≠ l))

/-- What every step of a run does to the loops of the other threads, the whole run does. -/
lemma Confined.spares_run (hconfined : Confined s) {tr : List (Step × Process)}
    (hrun : (interleaved env).Run s tr) {l : LoopId} (hpauses : Pauses l tr) :
    Spares l s.world (TransitionSystem.last s tr).world ∧
      ((∀ entry ∈ tr, ∀ fd order, entry.1 ≠ .connect fd order) →
        Leaves l s.world (TransitionSystem.last s tr).world) ∧
      ∀ n, l = .worker n → (TransitionSystem.last s tr).stage n = s.stage n := by
  induction hrun with
  | nil s => exact ⟨(Leaves.refl l s.world).toSpares, fun _ => Leaves.refl l s.world, fun _ _ => rfl⟩
  | @cons s s₁ step tr hstep hrun ih =>
    obtain ⟨hthread, hrest⟩ := List.forall_mem_cons.mp hpauses
    obtain ⟨hspares, hleaves, hstage⟩ := hconfined.spares_next hstep hthread
    obtain ⟨hspares', hleaves', hstage'⟩ := ih (hconfined.next hstep) hrest
    refine ⟨hspares.trans hspares', fun hno => ?_, fun n hn => (hstage' n hn).trans (hstage n hn)⟩
    obtain ⟨hnow, hlater⟩ := List.forall_mem_cons.mp hno
    exact (hleaves hnow).trans (hleaves' hlater)

/-- **One loop per thread.**  However the other threads interleave between two steps of a thread,
the thread finds the timers of its loop, with their due times and the requests that are pending in
them, as it has left them, and so those connections of its loop that have not been destroyed, and
its own progress in `EventLoop::run`; its queue has only grown at the end.  If nobody has connected
meanwhile, its epoll instance is the same, too. -/
theorem spares_of_run (h : (interleaved env).Reachable s) {tr : List (Step × Process)}
    (hrun : (interleaved env).Run s tr) {l : LoopId} (hpauses : Pauses l tr) :
    FoundAgain l s.world (TransitionSystem.last s tr).world ∧
      ((∀ entry ∈ tr, ∀ fd order, entry.1 ≠ .connect fd order) →
        ((TransitionSystem.last s tr).world.loop l).epoll = (s.world.loop l).epoll) ∧
      ∀ n, l = .worker n → (TransitionSystem.last s tr).stage n = s.stage n := by
  obtain ⟨hspares, hleaves, hstage⟩ := (confined_reachable h).spares_run hrun hpauses
  exact ⟨hspares.foundAgain, fun hno => (hleaves hno).epoll, hstage⟩

/-- Two clients connect to a server with two worker threads. -/
def twoLoops : List Step :=
  [.connect 5 [], .connect 6 []]

/-- The first client says "hi", which the first worker thread handles. -/
def hiAcross : List Step :=
  [goOn 0, pollRead 0 0, recvText 0 "hi\n", goOn 0]

/-- While the first worker thread handles a chat message, the second one is not disturbed. -/
theorem spares_of_run_hiAcross :
    let connected := runSteps calm (start 2) twoLoops
    let tr := TransitionSystem.states (fun s step => s.next calm step) connected hiAcross
    FoundAgain (.worker 1) connected.world (TransitionSystem.last connected tr).world ∧
      ((TransitionSystem.last connected tr).world.loop (.worker 1)).epoll =
        (connected.world.loop (.worker 1)).epoll := by
  intro connected tr
  have hreach : (interleaved calm).Reachable connected :=
    reachableUnder_runSteps (.init ⟨2, by decide, rfl⟩) (by decide)
  have hfollows : follows (fun _ _ => True) calm connected hiAcross = true := by decide
  have hrun : (interleaved calm).Run connected tr :=
    (TransitionSystem.run_states (T := interleaved calm) (fun _ _ _ => id) hfollows).1
  have hnone : ∀ entry ∈ tr, entry.1.thread = .worker 0 := by decide
  obtain ⟨hfound, hepoll, -⟩ := spares_of_run hreach hrun (l := .worker 1) (by decide)
  refine ⟨hfound, hepoll fun entry hentry fd order heq => ?_⟩
  have hthread := hnone entry hentry
  rw [heq] at hthread
  cases hthread

end Process

end Calc24
