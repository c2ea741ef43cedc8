import Calc24.Net.TimerIds
import Calc24.App.Reminders

/-!
# Reminders over whole runs

The functions that start reminders are `onConnected` and `resetSessionToIdle`.  Most of the
reminders they start are queued for other loops; once the queues are settled it is as if each of
them had been started on the thread of its own loop (`settle_foldl_resetIfAt`), and there a
reminder keeps a world tidy if the session has none yet (`Tidy.notifyUserToBeReady`).
-/

namespace Calc24

namespace World

variable {env : Environment} {cur l : LoopId} {r t : Ref} {A : Set Ref} {w w' : World}

/-! ## Settling -/

lemma shrinks_foldl_applyTimerRequest {tasks : List CustomTask} {timers : LoopTimers TimerTask}
    (h : ∀ task ∈ tasks, ∀ t, task ≠ .addTimerInternal t) :
    LoopTimers.Shrinks timers (tasks.foldl applyTimerRequest timers) := by
  induction tasks generalizing timers with
  | nil => exact LoopTimers.Shrinks.refl _
  | cons task tasks ih =>
    obtain ⟨htask, hrest⟩ := List.forall_mem_cons.mp h
    rw [List.foldl_cons]
    have hnext : LoopTimers.Shrinks (applyTimerRequest timers task)
        (tasks.foldl applyTimerRequest (applyTimerRequest timers task)) := ih hrest
    cases task with
    | send r buf => exact hnext
    | addTimerInternal t => exact absurd rfl (htask t)
    | removeTimerInternal timerID =>
      have hfirst := LoopTimers.shrinks_removeTimerInternal timers timerID
      exact ⟨hnext.timers.trans hfirst.timers, hnext.isCheckTimers.trans hfirst.isCheckTimers,
        hnext.pendingAddTimers.trans hfirst.pendingAddTimers,
        List.Subset.trans hfirst.pendingRemoveTimers hnext.pendingRemoveTimers⟩

/-- Settling keeps a world tidy where no insertion is queued. -/
lemma Tidy.settle (h : Tidy w)
    (htasks : ∀ l, ∀ task ∈ (w.loop l).customTasks, ∀ t, task ≠ .addTimerInternal t) :
    Tidy w.settle :=
  h.of_shrinks (h.wellFormed.of_eq (fun _ => rfl) rfl rfl (le_refl _)) rfl (List.Sublist.refl _)
    rfl rfl rfl (fun _ => rfl) (fun l => shrinks_foldl_applyTimerRequest (htasks l))
    fun _ => Or.inl

/-- From a settled world, sends queue no insertion. -/
lemma Touches.no_additions (hw : Touches A w w')
    (hsettled : ∀ l, ∀ task ∈ (w.loop l).customTasks, IsSend task = true) :
    ∀ l, ∀ task ∈ (w'.loop l).customTasks, ∀ t, task ≠ .addTimerInternal t := by
  intro l task htask t heq
  obtain ⟨new, htasks, hnew⟩ := hw.tasks l
  rw [htasks] at htask
  rcases List.mem_append.mp htask with hold | hnewTask
  · have hsend := hsettled l task hold
    rw [heq] at hsend
    cases hsend
  · rcases hnew task hnewTask with ⟨timerID, rfl⟩ | ⟨r, -, -, buf, rfl⟩ <;> cases heq

/-- Applying timer requests does not depend on due times. -/
lemma applyTimerRequest_construct (timers : LoopTimers TimerTask) (object : ℕ) (due : ℤ)
    (task : CustomTask) :
    applyTimerRequest (timers.construct object due) task =
      (applyTimerRequest timers task).construct object due := by
  cases hcheck : timers.isCheckTimers <;> cases task <;>
    simp [applyTimerRequest, LoopTimers.addTimerInternal, LoopTimers.removeTimerInternal,
      LoopTimers.construct, hcheck]

lemma foldl_applyTimerRequest_construct (tasks : List CustomTask) (timers : LoopTimers TimerTask)
    (object : ℕ) (due : ℤ) :
    tasks.foldl applyTimerRequest (timers.construct object due) =
      (tasks.foldl applyTimerRequest timers).construct object due := by
  induction tasks generalizing timers with
  | nil => rfl
  | cons task tasks ih =>
    rw [List.foldl_cons, applyTimerRequest_construct, ih, List.foldl_cons]

lemma foldl_applyTimerRequest_of_sends {tasks : List CustomTask}
    (h : ∀ task ∈ tasks, IsSend task = true) (timers : LoopTimers TimerTask) :
    tasks.foldl applyTimerRequest timers = timers := by
  refine List.foldlRecOn (motive := fun timers' => timers' = timers) _ _ rfl ?_
  rintro timers' rfl task htask
  cases task with
  | send r buf => rfl
  | _ => exact absurd (h _ htask) (by simp [IsSend])

/-- Once the queues are settled, a reminder that was queued is one that was started on the
session's own loop. -/
lemma settle_notifyUserToBeReady
    (h : ∀ task ∈ (w.loop cur).customTasks, IsSend task = true) :
    (w.notifyUserToBeReady env cur r).settle =
      w.settle.notifyUserToBeReady env (w.connection r).loop r := by
  rw [notifyUserToBeReady_eq, notifyUserToBeReady_eq]
  have hloop : ∀ l, settleLoop (Function.update w.loop (w.connection r).loop
      (w.addReminder env cur r (w.loop (w.connection r).loop)) l) =
      Function.update (fun l => settleLoop (w.loop l)) (w.connection r).loop
        (w.settle.addReminder env (w.connection r).loop r
          (settleLoop (w.loop (w.connection r).loop))) l := by
    intro l
    by_cases hl : l = (w.connection r).loop
    · subst hl
      rw [Function.update_self, Function.update_self]
      by_cases hcur : cur = (w.connection r).loop
      · -- the queue of the calling thread's loop holds sends only
        subst hcur
        simp only [addReminder, settleLoop, if_true, settle]
        rw [foldl_applyTimerRequest_of_sends h, foldl_applyTimerRequest_of_sends h]
        rfl
      · simp only [addReminder, settleLoop, if_neg hcur, if_true, settle, EventLoop.addTask,
          List.filter_append, List.foldl_append, List.foldl_cons, List.foldl_nil,
          foldl_applyTimerRequest_construct]
        simp [applyTimerRequest, IsSend, newReminder]
    · rw [Function.update_of_ne hl, Function.update_of_ne hl]
  simp only [settle, modifyLoop]
  congr 1
  funext l
  exact hloop l

/-! ## Starting a reminder -/

/-- A session without a reminder. -/
def Unreminded (w : World) (r : Ref) : Prop :=
  ∀ l, ∀ t ∈ (w.loop l).timers.timers, t.timerTask ≠ .reminder r

/-- What a reminder started on the session's own loop does to the timers. -/
lemma notifyUserToBeReady_own_timers (env : Environment) (w : World) (r : Ref) (l : LoopId)
    (hidle : (w.loop (w.connection r).loop).timers.isCheckTimers = false) :
    ((w.notifyUserToBeReady env (w.connection r).loop r).loop l).timers =
      if l = (w.connection r).loop then
        { (w.loop l).timers.construct w.timersConstructed
            (env.clock w.timersConstructed + 5000) with
          timers := (w.loop l).timers.timers ++ [w.newReminder r] }
      else (w.loop l).timers := by
  rw [notifyUserToBeReady_eq]
  by_cases hl : l = (w.connection r).loop
  · subst hl
    simp only [modifyLoop, Function.update_self, addReminder, if_true]
    rw [LoopTimers.addTimerInternal_of_idle (by exact hidle)]
    rfl
  · simp [modifyLoop, hl]

/-- A reminder started on the session's own loop keeps a world tidy, if the session is open and
has no reminder yet. -/
theorem Tidy.notifyUserToBeReady (h : Tidy w)
    (hidle : (w.loop (w.connection r).loop).timers.isCheckTimers = false)
    (hlt : r < w.nextRef) (hopen : (w.connection r).closed = false) (hnone : Unreminded w r)
    (hbound : w.timersConstructed + 1 < 2 ^ 64) :
    Tidy (w.notifyUserToBeReady env (w.connection r).loop r) := by
  set w' := w.notifyUserToBeReady env (w.connection r).loop r with hw'
  have heq : w.notifyUserToBeReady env (w.connection r).loop r = _ := notifyUserToBeReady_eq w r
  have hsession : w'.session = Function.update w.session r
      { w.session r with timerID := w.timerBaseId + 1 } := by rw [hw', heq]
  have htimers := fun l => notifyUserToBeReady_own_timers env w r l hidle
  rw [← hw'] at htimers
  have hconstructed : w'.timersConstructed = w.timersConstructed + 1 := by rw [hw', heq]
  have hresets : Resets {r} w w' := resets_notifyUserToBeReady rfl
  have hnewId : w.timerBaseId + 1 = Int64.ofNat (w.timersConstructed + 1) := by
    rw [h.counter, Int64.ofNat_add]
    rfl
  refine ⟨h.wellFormed.resets hresets, fun l t ht r' hr' => ?_, fun l => ?_, fun l id hid => ?_,
    ?_, fun l => ?_, fun entry hentry => ?_⟩
  · rw [hresets.connection, hresets.nextRef, hsession, htimers]
    rw [htimers] at ht
    have hold : t ∈ (w.loop l).timers.timers →
        l = (w.connection r').loop ∧ t.id = (Function.update w.session r
          { w.session r with timerID := w.timerBaseId + 1 } r').timerID ∧ r' < w.nextRef ∧
          ((w.connection r').closed = false ∨ Doomed (w.loop l).timers t.id) := by
      intro hmem
      have hne : r' ≠ r := by
        rintro rfl
        exact hnone l t hmem hr'
      rw [Function.update_of_ne hne]
      exact h.owner l t hmem r' hr'
    split at ht
    · next hl =>
      rw [if_pos hl]
      rcases List.mem_append.mp ht with hmem | hnew
      · exact hold hmem
      · obtain rfl := List.mem_singleton.mp hnew
        obtain rfl : r = r' := by simpa [newReminder] using hr'
        exact ⟨hl, by simp [newReminder], hlt, Or.inl hopen⟩
    · next hl =>
      rw [if_neg hl]
      exact hold ht
  · rw [htimers]
    split
    · next hl =>
      have hids : LoopTimers.ids { (w.loop l).timers.construct w.timersConstructed
          (env.clock w.timersConstructed + 5000) with
          timers := (w.loop l).timers.timers ++ [w.newReminder r] } =
          (w.loop l).timers.ids ++ [w.timerBaseId + 1] := by
        simp [LoopTimers.ids, newReminder]
      rw [hids, List.nodup_append]
      refine ⟨h.nodup l, List.nodup_singleton _, fun a ha b hb => ?_⟩
      obtain ⟨n, hn, rfl⟩ := h.issued l a ha
      rw [List.mem_singleton.mp hb, hnewId]
      rw [Ne, Int64.ofNat_inj_of_lt (by omega) hbound]
      omega
    · exact h.nodup l
  · rw [hconstructed]
    rw [htimers] at hid
    have hold : id ∈ (w.loop l).timers.ids → ∃ n ≤ w.timersConstructed + 1, id = Int64.ofNat n := by
      intro hmem
      obtain ⟨n, hn, rfl⟩ := h.issued l id hmem
      exact ⟨n, hn.trans (Nat.le_succ _), rfl⟩
    split at hid
    · obtain ⟨t, ht, rfl⟩ := List.mem_map.mp hid
      rcases List.mem_append.mp ht with hmem | hnew
      · exact hold (List.mem_map_of_mem hmem)
      · obtain rfl := List.mem_singleton.mp hnew
        exact ⟨_, le_refl _, hnewId⟩
    · exact hold hid
  · rw [hconstructed, ← hnewId, hw', heq]
  · rw [htimers]
    split
    · exact h.pendingAdd l
    · exact h.pendingAdd l
  · rw [hresets.connection]
    exact h.registered entry (hresets.sessions ▸ hentry)

/-- The other sessions are not reminded by it. -/
lemma Unreminded.notifyUserToBeReady (h : Unreminded w t) (hne : t ≠ r)
    (hidle : (w.loop (w.connection r).loop).timers.isCheckTimers = false) :
    Unreminded (w.notifyUserToBeReady env (w.connection r).loop r) t := by
  intro l timer htimer
  rw [notifyUserToBeReady_own_timers env w r l hidle] at htimer
  split at htimer
  · rcases List.mem_append.mp htimer with hmem | hnew
    · exact h l timer hmem
    · obtain rfl := List.mem_singleton.mp hnew
      simpa [newReminder] using Ne.symm hne
  · exact h l timer htimer

/-! ## Resetting a desk -/

variable (env) in
/-- The body of the loop of `resetSessionToIdle`, on the thread of the session's own loop. -/
def resetOwnIfAt (deskID : Int64) (r : Ref) (w : World) : World :=
  resetIfAt env (w.connection r).loop deskID r w

/-- Once the queues are settled, the resets of a desk are resets on the sessions' own loops. -/
lemma settle_foldl_resetIfAt {deskID : Int64} (refs : List Ref)
    (h : ∀ task ∈ (w.loop cur).customTasks, IsSend task = true) :
    (refs.foldl (fun w r => resetIfAt env cur deskID r w) w).settle =
      refs.foldl (fun w r => resetOwnIfAt env deskID r w) w.settle := by
  induction refs generalizing w with
  | nil => rfl
  | cons r refs ih =>
    rw [List.foldl_cons, List.foldl_cons]
    have hqueue : ∀ task ∈ ((resetIfAt env cur deskID r w).loop cur).customTasks,
        IsSend task = true := by
      unfold resetIfAt
      split
      · exact h
      · rw [resetToIdle, notifyUserToBeReady_eq]
        by_cases hcur : cur = (w.connection r).loop
        · subst hcur
          simpa [modifySession, modifyLoop, addReminder] using h
        · simpa [modifySession, modifyLoop, hcur] using h
    have hstep : (resetIfAt env cur deskID r w).settle = resetOwnIfAt env deskID r w.settle := by
      unfold resetOwnIfAt resetIfAt
      by_cases hdesk : (w.session r).deskID ≠ deskID
      · rw [if_pos hdesk, if_pos (by exact hdesk)]
      · rw [if_neg hdesk, if_neg (by exact hdesk), resetToIdle, resetToIdle]
        exact settle_notifyUserToBeReady h
    rw [ih hqueue, hstep]

/-- The same for the third part of an answer. -/
lemma settle_resetDesk (h : ∀ l, ∀ task ∈ (w.loop l).customTasks, IsSend task = true)
    (hok : w.resetDesk env cur r = .ok w') :
    w'.settle = (w.sessions.map Prod.snd).foldl
      (fun w₁ t => resetOwnIfAt env (w.session r).deskID t w₁) w := by
  obtain rfl := Except.ok.inj ((resetSessionToIdle_eq_foldl env cur _ w).symm.trans hok)
  rw [settle_foldl_resetIfAt _ (h cur), settle_of_settled h]

/-- Resets on the sessions' own loops keep a world tidy, where no session to be reset has a
reminder. -/
lemma Tidy.foldl_resetOwnIfAt {deskID : Int64} {refs : List Ref} (h : Tidy w)
    (hidle : ∀ l, (w.loop l).timers.isCheckTimers = false) (hrefs : refs.Nodup)
    (hall : ∀ r ∈ refs, r < w.nextRef ∧ (w.connection r).closed = false)
    (hnone : ∀ r ∈ refs, (w.session r).deskID = deskID → Unreminded w r)
    (hbound : w.timersConstructed + refs.length < 2 ^ 64) :
    Tidy (refs.foldl (fun w r => resetOwnIfAt env deskID r w) w) := by
  induction refs generalizing w with
  | nil => exact h
  | cons r refs ih =>
    obtain ⟨hr, hrefs⟩ := List.nodup_cons.mp hrefs
    obtain ⟨⟨hlt, hopen⟩, hall⟩ := List.forall_mem_cons.mp hall
    obtain ⟨hnoneR, hnone⟩ := List.forall_mem_cons.mp hnone
    rw [List.length_cons] at hbound
    rw [List.foldl_cons]
    by_cases hdesk : (w.session r).deskID = deskID
    · -- the session is put back to idle, and then reminded
      set idled := w.modifySession r fun s => { s with deskID := 0, status := .IDLE } with hidled
      have hreset : resetOwnIfAt env deskID r w =
          idled.notifyUserToBeReady env (idled.connection r).loop r := by
        rw [resetOwnIfAt, resetIfAt, if_neg (not_not.mpr hdesk)]
        rfl
      have hresets : Resets {r} w (resetOwnIfAt env deskID r w) := by
        rw [resetOwnIfAt, resetIfAt, if_neg (not_not.mpr hdesk)]
        exact resets_resetToIdle rfl
      have hidledTidy : Tidy idled := h.modifySession (fun _ => rfl) fun _ => rfl
      have hconstructed : (resetOwnIfAt env deskID r w).timersConstructed =
          w.timersConstructed + 1 := by
        rw [hreset, notifyUserToBeReady_eq]
        rfl
      refine ih ?_ (fun l => (hresets.isCheckTimers l).trans (hidle l)) hrefs ?_ ?_ ?_
      · rw [hreset]
        exact hidledTidy.notifyUserToBeReady (hidle _) hlt hopen (hnoneR hdesk) (by
          have hsame : idled.timersConstructed = w.timersConstructed := rfl
          omega)
      · rw [hresets.nextRef, hresets.connection]
        exact hall
      · intro t ht htdesk
        have hne : t ≠ r := by
          rintro rfl
          exact hr ht
        rw [hresets.session t hne] at htdesk
        rw [hreset]
        exact Unreminded.notifyUserToBeReady (w := idled) (hnone t ht htdesk) hne (hidle _)
      · rw [hconstructed]
        omega
    · have hsame : resetOwnIfAt env deskID r w = w := by
        rw [resetOwnIfAt, resetIfAt, if_pos hdesk]
      rw [hsame]
      exact ih h hidle hrefs hall hnone (by omega)

/-! ## The queues -/

/-- Only sends are queued. -/
def OnlySends (w : World) : Prop :=
  ∀ l, ∀ task ∈ (w.loop l).customTasks, IsSend task = true

/-- A close on the session's own loop queues nothing. -/
lemma onClose_customTasks (hcur : cur = (w.connection r).loop) (l : LoopId) :
    ((w.onClose cur r).loop l).customTasks = (w.loop l).customTasks := by
  set closed := w.setEndpoint r ((w.endpoint r).onClose (.connection r)) with hclosed
  have hloop : (closed.connection r).loop = (w.connection r).loop :=
    (touches_setEndpoint (A := {r}) rfl (Endpoint.changes_onClose _ _)).loop r
  rw [onClose, sessionOnClose, onDisconnected_loop, removeTimer, ← hclosed, hloop, if_pos hcur,
    loopTimers_modify, ← (setEndpoint_loop r ((w.endpoint r).onClose (.connection r)) w l).2]
  by_cases hl : l = (w.connection r).loop
  · subst hl
    simp [modifyLoop, hclosed]
  · simp [modifyLoop, hl, hclosed]

/-- A send queues a send at most. -/
lemma OnlySends.send (h : OnlySends w) (buf : Bytes) : OnlySends (w.send env cur r buf) := by
  intro l task htask
  rcases send_cases env cur r buf w with ⟨-, hqueued⟩ | ⟨-, -, hflushes⟩ | ⟨hcur, -, w₁, hflushes, hclose⟩
  · rw [hqueued] at htask
    by_cases hl : l = (w.connection r).loop
    · subst hl
      simp only [modifyLoop, Function.update_self, EventLoop.addTask] at htask
      rcases List.mem_append.mp htask with hold | hnew
      · exact h _ task hold
      · rw [List.mem_singleton.mp hnew]
        rfl
    · exact h l task (by simpa [modifyLoop, hl] using htask)
  · rw [(hflushes.timers l).2] at htask
    exact h l task htask
  · have hloop : cur = (w₁.connection r).loop := by
      rw [(hflushes.touches (A := {r}) rfl).loop]
      exact hcur
    rw [hclose, onClose_customTasks hloop, (hflushes.timers l).2] at htask
    exact h l task htask

lemma OnlySends.sendMsg (h : OnlySends w) (msg : Bytes) : OnlySends (w.sendMsg env cur r msg) :=
  OnlySends.send (w := w.log (.sent r msg)) h msg

lemma OnlySends.sendAll (h : OnlySends w) {msg : Bytes} {includeSelf : Bool} {id : Int32}
    {status : SessionStatus} {deskID : Int64}
    (hok : w.sendAll env cur msg includeSelf id status deskID = .ok w') : OnlySends w' :=
  (sendAll_invariant h (fun _ _ _ hw₁ _ _ => hw₁.sendMsg msg) hok).1

/-! ## The operations that start reminders -/

/-- A session without reminders on its loop has none at all. -/
lemma Tidy.unreminded (h : Tidy w) (hnone : w.reminders r = []) : Unreminded w r := by
  intro l t ht htask
  obtain ⟨rfl, -⟩ := h.owner l t ht r htask
  have hmem : t ∈ w.reminders r := List.mem_filter.mpr ⟨ht, by simpa using htask⟩
  rw [hnone] at hmem
  cases hmem

/-- Sends make no reminders. -/
lemma Unreminded.touches (h : Unreminded w r) (hadd : ∀ l, (w.loop l).timers.pendingAddTimers = [])
    (hw : Touches A w w') : Unreminded w' r := by
  intro l t ht
  have hmem := hw.entries l (List.mem_append_left _ ht)
  rw [LoopTimers.entries, hadd, List.append_nil] at hmem
  exact h l t hmem

/-- A session whose reply is refused is not registered any more when its desk is reset. -/
lemma not_mem_answer_of_refused (h : WellFormed w) (hcur : cur = (w.connection r).loop)
    (hrefused : Refused env w r rightAnswer) :
    r ∉ (w.answer env cur r).sessions.map Prod.snd := by
  rcases send_cases env cur r rightAnswer (w.log (.sent r rightAnswer)) with
    ⟨hne, -⟩ | ⟨-, hnot, -⟩ | ⟨-, -, w₁, hflushes, hclose⟩
  · exact absurd hcur hne
  · exact absurd hrefused hnot
  · rw [answer, World.sendMsg, hclose]
    exact ((h.touches (touches_log (A := {r}) _)).touches (hflushes.touches rfl)).not_mem_onClose

/-- A right answer keeps a world tidy if the sessions that it resets have no reminders. -/
theorem Tidy.answer (h : Tidy w) (hstable : Stable w) {w₁ w₂ : World}
    (hguard : ∀ entry ∈ w.sessions, (w.session entry.2).deskID = (w.session r).deskID →
      w.reminders entry.2 = [] ∨ (entry.2 = r ∧ Refused env w r rightAnswer))
    (hbound : w.timersConstructed + w.sessions.length < 2 ^ 64)
    (hanswer : w₁ = w.answer env (w.connection r).loop r)
    (hnotify : w₁.notifyOthers env (w.connection r).loop r = .ok w₂)
    (hreset : w₂.resetDesk env (w.connection r).loop r = .ok w') : Tidy w'.settle := by
  have htouches₁ : Touches {r} w w₁ := hanswer ▸ touches_sendMsg _ rfl
  have htouches₂ := (touches_sendAll hnotify).1
  have htouches : Touches Set.univ w w₂ :=
    (htouches₁.mono (Set.subset_univ _)).trans (htouches₂.mono (Set.subset_univ _))
  have htidy₁ : Tidy w₁ := hanswer ▸ h.sendMsg _
  have htidy₂ : Tidy w₂ := htidy₁.sendAll hnotify
  have hsends₁ : OnlySends w₁ := hanswer ▸ OnlySends.sendMsg hstable.settled _
  have hsends₂ : OnlySends w₂ := hsends₁.sendAll hnotify
  have hidle : ∀ l, (w₂.loop l).timers.isCheckTimers = false :=
    fun l => (htouches.isCheckTimers l).trans (hstable.idle l)
  rw [settle_resetDesk hsends₂ hreset]
  refine htidy₂.foldl_resetOwnIfAt hidle htidy₂.wellFormed.refs_nodup ?_ ?_ ?_
  · intro t ht
    obtain ⟨entry, hentry, rfl⟩ := List.mem_map.mp ht
    exact ⟨htidy₂.wellFormed.owned_lt _ (mem_owned_of_mem_sessions hentry),
      htidy₂.registered entry hentry⟩
  · intro t ht hdesk
    obtain ⟨entry, hentry, rfl⟩ := List.mem_map.mp ht
    rw [htouches.session] at hdesk
    rcases hguard entry (htouches.sessions.subset hentry) hdesk with hnone | ⟨rfl, hrefused⟩
    · exact (h.unreminded hnone).touches h.pendingAdd htouches
    · have hgone := not_mem_answer_of_refused h.wellFormed rfl hrefused
      rw [← hanswer] at hgone
      exact absurd (List.mem_map_of_mem (htouches₂.sessions.subset hentry)) hgone
  · rw [htouches.timersConstructed, List.length_map]
    have hlen := htouches.sessions.length_le
    omega

/-- Accepting a connection keeps a world tidy: nothing refers to the new address yet. -/
lemma Tidy.onAccept (h : Tidy w) (fd : ℕ) : Tidy (w.onAccept fd) := by
  have htimers := fun l => (onAccept_loop fd w l).1
  refine ⟨wellFormed_onAccept h.wellFormed fd, fun l t ht r hr => ?_, fun l => ?_,
    fun l id hid => ?_, h.counter, fun l => ?_, fun entry hentry => ?_⟩
  · rw [htimers] at ht ⊢
    obtain ⟨hl, hid, hlt, hopen⟩ := h.owner l t ht r hr
    rw [onAccept_connection fd hlt.ne]
    exact ⟨hl, hid, hlt.trans (Nat.lt_succ_self _), hopen⟩
  · rw [htimers]
    exact h.nodup l
  · rw [htimers] at hid
    exact h.issued l id hid
  · rw [htimers]
    exact h.pendingAdd l
  · have hlt := h.wellFormed.owned_lt _ (mem_owned_of_mem_sessions hentry)
    rw [onAccept_connection fd hlt.ne]
    exact h.registered entry hentry

/-- So does destroying the pending sessions. -/
lemma Tidy.clears (h : Tidy w) (hw : Clears w w') : Tidy w' := by
  refine h.of_shrinks (h.wellFormed.clears hw) hw.session ?_ hw.nextRef hw.timerBaseId
    hw.timersConstructed (fun _ => by rw [hw.connection]) (fun l => ?_) fun r hr => ?_
  · rw [hw.sessions]
  · rw [hw.timers]
    exact LoopTimers.Shrinks.refl _
  · rw [hw.connection] at hr
    exact Or.inl hr

/-- And giving a session that nothing reminds its fields. -/
lemma Tidy.constructSession (h : Tidy w) (hr : r ∉ w.owned) (hnone : Unreminded w r) :
    Tidy (w.constructSession env r) := by
  refine { h with wellFormed := h.wellFormed.constructSession hr, owner := fun l t ht r' hr' => ?_ }
  have hne : r' ≠ r := by
    rintro rfl
    exact hnone l t ht hr'
  have hsame : (w.constructSession env r).session r' = w.session r' := by
    simp [World.constructSession, hne]
  rw [hsame]
  exact h.owner l t ht r' hr'

/-- Storing an open session keeps a world tidy. -/
lemma Tidy.emplace {order : List (Int32 × Ref)} (h : Tidy w) (hr : r ∉ w.owned)
    (hlt : r < w.nextRef) (hopen : (w.connection r).closed = false)
    (hok : w.emplace r order = .ok w') : Tidy w' := by
  have hwf := h.wellFormed.emplace hr hlt hok
  obtain ⟨-, sessions, rfl, hperm⟩ := emplace_cases hok
  refine { h with wellFormed := hwf, registered := fun entry hentry => ?_ }
  rcases List.mem_cons.mp (hperm.mem_iff.mp hentry) with rfl | hentry
  · exact hopen
  · exact h.registered entry hentry

/-- A new session that gets its first reminder keeps a world tidy. -/
theorem Tidy.connect (h : Tidy w) (hstable : Stable w) {fd : ℕ} {order : List (Int32 × Ref)}
    (hbound : w.timersConstructed + 1 < 2 ^ 64)
    (hok : (w.onAccept fd).onConnected env .base w.nextRef order = .ok w') : Tidy w'.settle := by
  set r := w.nextRef with hr
  set accepted := w.onAccept fd with haccepted
  set cleared := accepted.clearPending with hcleared
  set constructed := cleared.constructSession env r with hconstructed
  set welcomed := constructed.sendWelcomeMsg env .base r with hwelcomed
  set notified := welcomed.notifyUserToBeReady env .base r with hnotified
  have hclears : Clears accepted cleared := clears_clearPending accepted
  have hwelcome : Touches {r} constructed welcomed := touches_sendMsg _ rfl
  have htidyCleared : Tidy cleared := (h.onAccept fd).clears hclears
  have hnotOwned : r ∉ cleared.owned := by
    intro hmem
    rw [owned, hclears.sessions, hclears.pending, List.append_nil] at hmem
    exact absurd (h.wellFormed.owned_lt r (List.mem_append_left _ hmem)) (lt_irrefl _)
  have hnone : Unreminded cleared r := by
    intro l t ht htask
    rw [hclears.timers, haccepted, (onAccept_loop fd w l).1] at ht
    exact absurd (h.owner l t ht r htask).2.2.1 (lt_irrefl _)
  have htidyConstructed : Tidy constructed := htidyCleared.constructSession hnotOwned hnone
  have htidyWelcomed : Tidy welcomed := htidyConstructed.sendMsg _
  have hsends : OnlySends welcomed := by
    refine OnlySends.sendMsg (fun l task htask => ?_) _
    rw [show (constructed.loop l).customTasks = (cleared.loop l).customTasks from rfl,
      hclears.tasks, haccepted, (onAccept_loop fd w l).2] at htask
    exact hstable.settled l task htask
  have hidle : ∀ l, (welcomed.loop l).timers.isCheckTimers = false := by
    intro l
    rw [hwelcome.isCheckTimers, show (constructed.loop l).timers = (cleared.loop l).timers from rfl,
      hclears.timers, haccepted, (onAccept_loop fd w l).1]
    exact hstable.idle l
  -- the welcome is queued: the new connection belongs to a worker loop
  have hconnection : constructed.connection r = { fd := fd, loop := .worker w.lastEventLoopNo } := by
    rw [show constructed.connection = cleared.connection from rfl, hclears.connection]
    exact onAccept_connection_self fd w
  have hopen : (welcomed.connection r).closed = false := by
    have hqueued : welcomed.connection = constructed.connection := by
      rw [hwelcomed, sendWelcomeMsg, World.sendMsg, World.send, if_neg]
      · rfl
      · rw [show ((constructed.log (.sent r welcomeMsg)).connection r) = constructed.connection r
          from rfl, hconnection]
        exact LoopId.noConfusion
    rw [hqueued, hconnection]
  have hlt : r < welcomed.nextRef := by
    rw [hwelcome.nextRef, show constructed.nextRef = cleared.nextRef from rfl, hclears.nextRef]
    exact Nat.lt_succ_self r
  have hnoneWelcomed : Unreminded welcomed r :=
    Unreminded.touches (w := constructed) hnone htidyConstructed.pendingAdd hwelcome
  have hcounted : welcomed.timersConstructed = w.timersConstructed := by
    rw [hwelcome.timersConstructed]
    exact hclears.timersConstructed
  -- once the queues are settled, the reminder has been added
  have hsettled : notified.settle = welcomed.notifyUserToBeReady env (welcomed.connection r).loop r := by
    rw [hnotified, settle_notifyUserToBeReady (hsends _), settle_of_settled hsends]
  have htidyNotified : Tidy notified.settle := by
    rw [hsettled]
    exact htidyWelcomed.notifyUserToBeReady (hidle _) hlt hopen hnoneWelcomed (by omega)
  have hresets : Resets {r} welcomed notified := resets_notifyUserToBeReady rfl
  have hstore : notified.settle.emplace r order = .ok w'.settle := by
    have hemplace : notified.emplace r order = .ok w' := hok
    unfold World.emplace at hemplace ⊢
    split at hemplace
    · cases hemplace
    · next hfresh =>
      rw [if_neg (by exact hfresh)]
      split at hemplace
      · next hperm =>
        rw [if_pos (by exact hperm), ← Except.ok.inj hemplace]
        rfl
      · next hperm =>
        rw [if_neg (by exact hperm), ← Except.ok.inj hemplace]
        rfl
  refine htidyNotified.emplace ?_ ?_ ?_ hstore
  · have howned : notified.settle.owned = welcomed.owned := by
      rw [owned, owned, ← hresets.sessions, ← hresets.pending]
      rfl
    rw [howned, hwelcome.owned.mem_iff]
    exact hnotOwned
  · exact hlt.trans_le hresets.nextRef.ge
  · rw [show notified.settle.connection = notified.connection from rfl, hresets.connection]
    exact hopen

/-! ## Runs -/

lemma tidy_start (threadNum : ℕ) : Tidy (start threadNum) where
  wellFormed := wellFormed_start threadNum
  owner _ _ ht := by cases ht
  nodup _ := List.nodup_nil
  issued _ _ hid := by cases hid
  counter := rfl
  pendingAdd _ := rfl
  registered _ hentry := by cases hentry

/-- The queued sends of a loop keep a world tidy. -/
lemma Tidy.doOtherTask (h : Tidy w)
    (hsettled : ∀ task ∈ (w.loop l).customTasks, IsSend task = true) :
    Tidy (w.doOtherTask env l) := by
  refine List.foldlRecOn (motive := Tidy) _ _ ?_ ?_
  · refine h.of_shrinks (h.wellFormed.of_eq (fun _ => rfl) rfl rfl (le_refl _)) rfl
      (List.Sublist.refl _) rfl rfl rfl (fun _ => rfl) (fun l' => ?_) fun _ => Or.inl
    by_cases hl : l' = l
    · subst hl
      simpa [modifyLoop] using LoopTimers.Shrinks.refl _
    · simpa [modifyLoop, hl] using LoopTimers.Shrinks.refl _
  · intro w₁ hw₁ task htask
    cases task with
    | send r buf => exact (hw₁.log _).send buf
    | _ => exact absurd (hsettled _ htask) (by simp [IsSend])

/-- A package that is no right answer starts no reminder. -/
lemma Tidy.processPackage_of_ne (h : Tidy w) {package : Bytes} (hanswer : package ≠ answerCmd)
    (hok : w.processPackage env cur r package = .ok w') : Tidy w' := by
  unfold processPackage at hok
  split at hok
  · obtain rfl : w = w' := Except.ok.inj hok
    exact h
  · split at hok
    · exact h.sendAll hok
    · rw [processCmd, if_neg hanswer] at hok
      split at hok
      · obtain rfl := Except.ok.inj hok
        exact h.modifySession (fun _ => rfl) fun _ => rfl
      · obtain rfl := Except.ok.inj hok
        exact h.sendMsg _

/-- Every operation that meets the guard keeps a world tidy. -/
theorem tidy_step {op : Operation} (hstable : Stable w) (h : Tidy w)
    (hguard : KeepsReminders env w op) (hok : op.perform env w = .ok w') : Tidy w'.settle := by
  cases op with
  | connect fd order => exact h.connect hstable hguard hok
  | package r p =>
    rcases processPackage_cases hok with
      ⟨hanswer, -, hsend⟩ | ⟨-, rfl⟩ | ⟨hanswer, w₁, w₂, h₁, -, h₂, -, h₃⟩
    · exact (h.processPackage_of_ne hanswer hok).settle (hsend.no_additions hstable.settled)
    · refine Tidy.settle (h.modifySession (fun _ => rfl) fun _ => rfl) fun l task htask t heq => ?_
      have hsend := hstable.settled l task htask
      rw [heq] at hsend
      cases hsend
    · obtain ⟨hnone, hbound⟩ := hguard hanswer
      exact h.answer hstable hnone hbound h₁ h₂ h₃
  | checkHandup =>
    refine Tidy.settle (h.checkHandup hok) ?_
    rcases checkHandup_cases hok with ⟨-, rfl⟩ | ⟨-, -, -, hdeals⟩
    · exact (Touches.refl ∅ _).no_additions hstable.settled
    · exact hdeals.touches.no_additions hstable.settled
  | close r =>
    obtain rfl : w.onClose (w.connection r).loop r = w' := Except.ok.inj hok
    exact (h.onClose rfl).settle
      ((touches_onClose (Set.mem_singleton r)).no_additions hstable.settled)
  | checkAndDoTimers l nowMs =>
    obtain rfl : w.checkAndDoTimers env l nowMs = w' := Except.ok.inj hok
    exact (h.checkAndDoTimers (hstable.idle l) nowMs).settle
      ((touches_checkAndDoTimers nowMs (hstable.idle l)).no_additions hstable.settled)
  | doOtherTask l =>
    obtain rfl : w.doOtherTask env l = w' := Except.ok.inj hok
    refine (h.doOtherTask (hstable.settled l)).settle
      ((touches_doOtherTask env (hstable.settled l)).no_additions fun l' task htask => ?_)
    by_cases hl : l' = l
    · subst hl
      simp [modifyLoop] at htask
    · exact hstable.settled l' task (by simpa [modifyLoop, hl] using htask)

/-- **In every run in which right answers reset only sessions whose reminder is gone, and fewer
than 2⁶⁴ timers are constructed, a session has at most one reminder, the one that it remembers,
and none once it is closed.** -/
theorem remindersOwned (h : (sequential env).ReachableUnder (KeepsReminders env) w) :
    RemindersOwned w := by
  have hboth : Stable w ∧ Tidy w := by
    refine h.invariant (P := fun w => Stable w ∧ Tidy w) ?_ ?_
    · rintro w ⟨threadNum, -, rfl⟩
      exact ⟨stable_start threadNum, tidy_start threadNum⟩
    · rintro w op w' ⟨hstable, htidy⟩ hguard hstep
      refine ⟨stable_step hstable hstep, ?_⟩
      obtain ⟨-, w₁, hok, rfl⟩ := hstep
      exact tidy_step hstable htidy hguard hok
  exact hboth.2.reminders_owned hboth.1.idle

/-- A player wins after both reminders have seen that their sessions are playing: both players have
one new reminder. -/
theorem remindersOwned_of_late_win :
    RemindersOwned (runOps calm (start 2) (twoPlayers ++
      [.checkAndDoTimers (.worker 0) 5000, .checkAndDoTimers (.worker 1) 5000,
        .package 0 answerCmd])) := by
  have hreach : (sequential calm).ReachableUnder (KeepsReminders calm)
      (runOps calm (start 2) (twoPlayers ++
        [.checkAndDoTimers (.worker 0) 5000, .checkAndDoTimers (.worker 1) 5000,
          .package 0 answerCmd])) :=
    reachableUnder_runOps (.init ⟨2, by decide, rfl⟩) (by decide)
  exact remindersOwned hreach

/-- A win before that leaves the old reminders in place, next to the new ones. -/
theorem exists_second_reminder :
    ¬ ∀ env w, (sequential env).Reachable w → RemindersOwned w := by
  intro h
  have hreach : (sequential calm).Reachable
      (runOps calm (start 2) (twoPlayers ++ [.package 0 answerCmd])) :=
    reachableUnder_runOps (.init ⟨2, by decide, rfl⟩) (by decide)
  have howned := ((h calm _ hreach).1 (1, 0) (by decide)).1
  exact absurd howned (by decide)

end World

end Calc24
