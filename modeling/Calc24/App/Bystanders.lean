import Calc24.App.Broadcast
import Calc24.App.ReminderRuns

/-!
# What a package does to the other sessions

A package is processed on behalf of one session.  It can reach the others in three ways: a
broadcast may close a session under the iterator; the reply to the sender may close the sender, and
a close removes a timer by its id; and a right answer resets every session that has the sender's
desk id.  Sessions without a desk all have the desk id `0`, so an answer from any of them resets
all the others.

`Harmless` says when none of this happens, and then the package leaves the status, the desk and the
reminders of all other sessions alone; in every other case it does not (`undisturbed_iff_harmless`).
-/

namespace Calc24

namespace World

variable {env : Environment} {cur l : LoopId} {r t : Ref} {A : Set Ref} {w w' : World}
  {package : Bytes}

/-- The other sessions that the server holds have the status, the desk and the reminders that they
had before. -/
def Kept (r : Ref) (w w' : World) : Prop :=
  ∀ t ∈ w.owned, t ≠ r → (w'.session t).status = (w.session t).status ∧
    (w'.session t).deskID = (w.session t).deskID ∧ w'.reminders t = w.reminders t

/-- A package is processed without a fault, and the other sessions are kept. -/
def Undisturbed (env : Environment) (w : World) (r : Ref) (package : Bytes) : Prop :=
  ∃ w', w.processPackage env (w.connection r).loop r package = .ok w' ∧ Kept r w w'.settle

/-- The timer that a close of the session removes is no reminder of another session. -/
def ClosesOwnTimer (w : World) (r : Ref) : Prop :=
  ∀ t ∈ w.owned, t ≠ r → (w.connection t).loop = (w.connection r).loop →
    ∀ timer, (w.loop (w.connection r).loop).timers.timers.find?
      (fun timer => timer.id == (w.session r).timerID) = some timer →
      timer.timerTask ≠ .reminder t

/-- No other registered session has the sender's desk id, unless the reply to the right answer is
refused and the close of the sender takes that session's entry out of the map. -/
def DeskToItself (env : Environment) (w : World) (r : Ref) : Prop :=
  ∀ entry ∈ w.sessions, entry.2 ≠ r → (w.session entry.2).deskID = (w.session r).deskID →
    Refused env w r rightAnswer ∧ entry.1 = (w.session r).id

/-- The packages that do not disturb anybody: a chat message that the kernel accepts for every
matching session of the sender's loop; `!ready`; a right answer from a session that has its desk to
itself; and any other command.  A reply that is refused must not remove another session's
reminder. -/
def Harmless (env : Environment) (w : World) (r : Ref) (package : Bytes) : Prop :=
  match package with
  | [] => True
  | c :: _ =>
    if c ≠ 33 then
      OwnAccepted env (w.connection r).loop (msgWithPrefix (w.session r).id package) false
        (w.session r).id (w.session r).status (w.session r).deskID w
    else if IsReadyCmd package then True
    else if package = answerCmd then
      DeskToItself env w r ∧ (Refused env w r rightAnswer → ClosesOwnTimer w r)
    else Refused env w r wrongAnswer → ClosesOwnTimer w r

/-! ## Timers that have been constructed -/

/-- Every timer of a loop, or on its way to one, is an object that has been constructed. -/
structure Constructed (w : World) : Prop where
  entries : ∀ l, ∀ t ∈ (w.loop l).timers.entries, t.object < w.timersConstructed
  tasks : ∀ l t, .addTimerInternal t ∈ (w.loop l).customTasks → t.object < w.timersConstructed

lemma Constructed.touches (h : Constructed w) (hw : Touches A w w') : Constructed w' where
  entries l t ht := by
    rw [hw.timersConstructed]
    exact h.entries l t (hw.entries l ht)
  tasks l t ht := by
    obtain ⟨new, heq, hnew⟩ := hw.tasks l
    rw [hw.timersConstructed]
    rw [heq] at ht
    rcases List.mem_append.mp ht with ht | ht
    · exact h.tasks l t ht
    · rcases hnew _ ht with ⟨timerID, hremoval⟩ | ⟨r, -, -, buf, hsend⟩
      · cases hremoval
      · cases hsend

lemma Constructed.resets (h : Constructed w) (hw : Resets A w w') : Constructed w' where
  entries l t ht := by
    rcases hw.entries l t ht with ht | ⟨r, -, -, -, hobject⟩
    · exact (h.entries l t ht).trans_le hw.timersConstructed
    · exact hobject
  tasks l t ht := by
    obtain ⟨new, heq, hnew⟩ := hw.tasks l
    rw [heq] at ht
    rcases List.mem_append.mp ht with ht | ht
    · exact (h.tasks l t ht).trans_le hw.timersConstructed
    · obtain ⟨r, -, -, t', -, hobject, hadd⟩ := hnew _ ht
      cases hadd
      exact hobject

lemma Constructed.connects (h : Constructed w) (hw : Connects r w w') : Constructed w' where
  entries l t ht := by
    rcases hw.entries l t ht with ht | ⟨-, -, hobject⟩
    · exact (h.entries l t ht).trans_le hw.timersConstructed
    · exact hobject
  tasks l t ht := by
    rcases hw.tasks l _ ht with ht | ⟨-, -, hobject⟩ | ⟨timerID, hremoval⟩
    · exact (h.tasks l t ht).trans_le hw.timersConstructed
    · exact hobject t rfl
    · cases hremoval

/-- The requests of a queue add the timers that they carry. -/
lemma mem_entries_foldl_applyTimerRequest {tasks : List CustomTask} {timers : LoopTimers TimerTask}
    {timer : Timer TimerTask} (h : timer ∈ (tasks.foldl applyTimerRequest timers).entries) :
    timer ∈ timers.entries ∨ .addTimerInternal timer ∈ tasks := by
  induction tasks generalizing timers with
  | nil => exact Or.inl h
  | cons task tasks ih =>
    rw [List.foldl_cons] at h
    rcases ih h with h | h
    · cases task with
      | send r buf => exact Or.inl h
      | addTimerInternal t =>
        rcases LoopTimers.mem_entries_addTimerInternal.mp h with h | rfl
        · exact Or.inl h
        · exact Or.inr (List.mem_cons_self ..)
      | removeTimerInternal timerID =>
        exact Or.inl (LoopTimers.entries_removeTimerInternal_subset h)
    · exact Or.inr (List.mem_cons_of_mem _ h)

lemma Constructed.settle (h : Constructed w) : Constructed w.settle where
  entries l t ht := (mem_entries_foldl_applyTimerRequest ht).elim (h.entries l t) (h.tasks l t)
  tasks l t ht := h.tasks l t (List.mem_filter.mp ht).1

/-- Every operation keeps it. -/
lemma Constructed.perform (h : Constructed w) (hstable : Stable w) {op : Operation}
    (hok : op.perform env w = .ok w') : Constructed w' := by
  cases op with
  | connect fd order => exact h.connects (connect_cases hstable.wellFormed hok)
  | package r p =>
    rcases processPackage_cases hok with ⟨-, -, hsend⟩ | ⟨-, rfl⟩ | ⟨-, w₁, w₂, -, h₁, -, h₂, h₃⟩
    · exact h.touches hsend
    · exact ⟨h.entries, h.tasks⟩
    · exact ((h.touches h₁).touches h₂).resets (resetDesk_cases h₃).1
  | checkHandup =>
    rcases checkHandup_cases hok with ⟨-, rfl⟩ | ⟨-, -, -, hdeals⟩
    · exact h
    · have hsent := h.touches hdeals.touches
      exact ⟨hsent.entries, hsent.tasks⟩
  | close r =>
    obtain rfl : w.onClose (w.connection r).loop r = w' := Except.ok.inj hok
    exact h.touches (touches_onClose (Set.mem_singleton r))
  | checkAndDoTimers l nowMs =>
    obtain rfl : w.checkAndDoTimers env l nowMs = w' := Except.ok.inj hok
    exact h.touches (touches_checkAndDoTimers nowMs (hstable.idle l))
  | doOtherTask l =>
    obtain rfl : w.doOtherTask env l = w' := Except.ok.inj hok
    refine Constructed.touches ⟨fun l' t ht => ?_, fun l' t ht => ?_⟩
      (touches_doOtherTask env (hstable.settled l))
    · by_cases hl : l' = l
      · subst hl
        exact h.entries l' t (by simpa [modifyLoop] using ht)
      · exact h.entries l' t (by simpa [modifyLoop, hl] using ht)
    · by_cases hl : l' = l
      · subst hl
        simp [modifyLoop] at ht
      · exact h.tasks l' t (by simpa [modifyLoop, hl] using ht)

/-- In every reachable state all timers have been constructed. -/
theorem constructed_reachable (h : (sequential env).Reachable w) : Constructed w := by
  have hboth : Stable w ∧ Constructed w := by
    refine h.invariant (P := fun w => Stable w ∧ Constructed w) ?_ ?_
    · rintro w ⟨threadNum, -, rfl⟩
      refine ⟨stable_start threadNum, fun l t ht => ?_, fun l t ht => ?_⟩
      · simp [start, EventLoop.empty, LoopTimers.entries, LoopTimers.empty] at ht
      · simp [start, EventLoop.empty] at ht
    · rintro w op w' ⟨hstable, hconstructed⟩ hstep
      refine ⟨stable_step hstable hstep, ?_⟩
      obtain ⟨-, w₁, hok, rfl⟩ := hstep
      exact (hconstructed.perform hstable hok).settle
  exact hboth.2

/-! ## Replies -/

/-- Taking the first match of `q` out of a list does not change what `p` selects, if that match is
not selected. -/
lemma filter_eraseP_eq_iff {α : Type*} {p q : α → Bool} {xs : List α} :
    (xs.eraseP q).filter p = xs.filter p ↔ ∀ a, xs.find? q = some a → p a = false := by
  induction xs with
  | nil => simp
  | cons x xs ih =>
    by_cases hq : q x = true
    · rw [List.eraseP_cons_of_pos hq, List.find?_cons_of_pos hq]
      cases hp : p x with
      | false => simp [List.filter_cons_of_neg, hp]
      | true =>
        constructor
        · intro h
          have hlen := congrArg List.length h
          simp [hp] at hlen
        · intro h
          exact absurd (h x rfl) (by simp [hp])
    · rw [List.eraseP_cons_of_neg hq, List.find?_cons_of_neg hq, ← ih, List.filter_cons,
        List.filter_cons]
      split <;> simp

/-- A message to the sender leaves the map and the timers alone, or it is refused, and then the
sender's entry and timer go. -/
lemma reply_cases (env : Environment) (w : World) (r : Ref) (msg : Bytes) :
    (¬ Refused env w r msg ∧
      (w.sendMsg env (w.connection r).loop r msg).sessions = w.sessions ∧
      ∀ l, ((w.sendMsg env (w.connection r).loop r msg).loop l).timers = (w.loop l).timers) ∨
    (Refused env w r msg ∧
      (w.sendMsg env (w.connection r).loop r msg).sessions =
        w.sessions.eraseP (fun entry => entry.1 == (w.session r).id) ∧
      ∀ l, ((w.sendMsg env (w.connection r).loop r msg).loop l).timers =
        if l = (w.connection r).loop then
          (w.loop l).timers.removeTimerInternal (w.session r).timerID
        else (w.loop l).timers) := by
  rcases send_cases env (w.connection r).loop r msg (w.log (.sent r msg)) with
    ⟨hne, -⟩ | ⟨-, haccepted, hflushes⟩ | ⟨-, hrefused, w₁, hflushes, hclose⟩
  · exact absurd rfl hne
  · refine Or.inl ⟨haccepted, ?_, fun l => (hflushes.timers l).1⟩
    obtain ⟨p, -, -, heq⟩ := hflushes
    rw [sendMsg, heq]
    rfl
  · have htouches : Touches {r} w w₁ := (touches_log _).trans (hflushes.touches rfl)
    have hsessions : w₁.sessions = w.sessions := by
      obtain ⟨p, -, -, rfl⟩ := hflushes
      rfl
    refine Or.inr ⟨hrefused, ?_, fun l => ?_⟩
    · rw [sendMsg, hclose, onClose_sessions, hsessions, htouches.session]
    · rw [sendMsg, hclose, onClose_timers, htouches.loop, htouches.session,
        (hflushes.timers l).1]
      by_cases hl : l = (w.connection r).loop
      · rw [if_pos ⟨hl, rfl⟩, if_pos hl]
        rfl
      · rw [if_neg fun h => hl h.1, if_neg hl]
        rfl

/-- A message to the sender keeps the other sessions exactly if its refusal removes no reminder of
theirs. -/
lemma kept_reply_iff (env : Environment) (msg : Bytes)
    (hidle : ∀ l, (w.loop l).timers.isCheckTimers = false) :
    Kept r w (w.sendMsg env (w.connection r).loop r msg) ↔
      (Refused env w r msg → ClosesOwnTimer w r) := by
  have htouches : Touches {r} w (w.sendMsg env (w.connection r).loop r msg) :=
    touches_sendMsg msg rfl
  have hkept : Kept r w (w.sendMsg env (w.connection r).loop r msg) ↔
      ∀ t ∈ w.owned, t ≠ r →
        (w.sendMsg env (w.connection r).loop r msg).reminders t = w.reminders t := by
    constructor
    · intro h t ht hne
      exact (h t ht hne).2.2
    · intro h t ht hne
      rw [htouches.session]
      exact ⟨rfl, rfl, h t ht hne⟩
  rw [hkept]
  rcases reply_cases env w r msg with ⟨haccepted, -, htimers⟩ | ⟨hrefused, -, htimers⟩
  · constructor
    · intro _ hrefused
      exact absurd hrefused haccepted
    · intro _ t _ _
      rw [reminders, reminders, htouches.loop, htimers]
  · -- the first timer with the sender's id is taken out of the list of the sender's loop
    have hreminders : ∀ t, (w.sendMsg env (w.connection r).loop r msg).reminders t =
        w.reminders t ↔ ((w.connection t).loop = (w.connection r).loop →
          ∀ timer, (w.loop (w.connection r).loop).timers.timers.find?
            (fun timer => timer.id == (w.session r).timerID) = some timer →
            timer.timerTask ≠ .reminder t) := by
      intro t
      rw [reminders, reminders, htouches.loop, htimers]
      by_cases hl : (w.connection t).loop = (w.connection r).loop
      · rw [if_pos hl, hl, LoopTimers.removeTimerInternal_of_idle (hidle _),
          filter_eraseP_eq_iff]
        simp
      · rw [if_neg hl]
        simp [hl]
    constructor
    · intro h _ t ht hne
      exact (hreminders t).mp (h t ht hne)
    · intro h t ht hne
      exact (hreminders t).mpr (h hrefused t ht hne)

/-! ## Broadcasts -/

/-- A message that leaves its recipient registered leaves the timers alone. -/
lemma sendMsg_timers (hwf : WellFormed w) {msg : Bytes}
    (hr : r ∈ (w.sendMsg env cur r msg).sessions.map Prod.snd) (l : LoopId) :
    ((w.sendMsg env cur r msg).loop l).timers = (w.loop l).timers := by
  rcases send_cases env cur r msg (w.log (.sent r msg)) with
    ⟨-, hqueued⟩ | ⟨-, -, hflushes⟩ | ⟨-, -, w₁, hflushes, hclose⟩
  · rw [sendMsg, hqueued]
    by_cases hl : l = (w.connection r).loop
    · subst hl
      simp [modifyLoop, log, EventLoop.addTask]
    · simp [modifyLoop, log, hl]
  · exact (hflushes.timers l).1
  · have hwf₁ : WellFormed w₁ :=
      (hwf.touches (touches_log (A := {r}) _)).touches (hflushes.touches rfl)
    rw [sendMsg, hclose] at hr
    exact absurd hr hwf₁.not_mem_onClose

/-- A broadcast that ends without a fault keeps all sessions. -/
lemma kept_sendAll (hwf : WellFormed w) {msg : Bytes} {includeSelf : Bool} {id : Int32}
    {status : SessionStatus} {deskID : Int64}
    (hok : w.sendAll env cur msg includeSelf id status deskID = .ok w') : Kept r w w' := by
  have hkeeps : Touches Set.univ w w' ∧ ∀ l, (w'.loop l).timers = (w.loop l).timers := by
    refine (sendAll_invariant
      (I := fun w₁ => Touches Set.univ w w₁ ∧ ∀ l, (w₁.loop l).timers = (w.loop l).timers)
      ⟨Touches.refl _ w, fun _ => rfl⟩ ?_ hok).1
    rintro r hr w₁ ⟨htouches, htimers⟩ - hafter
    refine ⟨htouches.trans (touches_sendMsg msg (Set.mem_univ r)), fun l => ?_⟩
    rw [← hafter] at hr
    rw [sendMsg_timers (hwf.touches htouches) hr l, htimers]
  obtain ⟨htouches, htimers⟩ := hkeeps
  intro t _ _
  rw [htouches.session, reminders, reminders, htouches.loop, htimers]
  exact ⟨rfl, rfl, rfl⟩

/-- Without a recipient nothing happens. -/
lemma sendAll_of_no_recipient {msg : Bytes} {includeSelf : Bool} {id : Int32}
    {status : SessionStatus} {deskID : Int64}
    (h : ∀ t ∈ w.sessions.map Prod.snd, ¬ Recipient includeSelf id status deskID w t) :
    w.sendAll env cur msg includeSelf id status deskID = .ok w := by
  have hfold : ∀ refs ⊆ w.sessions.map Prod.snd,
      refs.foldl (fun w r => sendIfRecipient env cur msg includeSelf id status deskID r w) w = w := by
    intro refs hrefs
    refine List.foldlRecOn (motive := fun w₁ => w₁ = w) _ _ rfl ?_
    rintro w₁ rfl t ht
    exact sendIfRecipient_of_not_recipient (h t (hrefs ht))
  refine forEachSession_eq_ok_iff.mpr ⟨fun visited rest hsplit => ?_, ?_⟩
  · have hprefix : visited.map Prod.snd ⊆ w.sessions.map Prod.snd := by
      rw [hsplit, List.map_append]
      exact List.subset_append_left _ _
    exact congrArg World.sessions (hfold _ hprefix)
  · exact (hfold _ (List.Subset.refl _)).symm

/-! ## Resets -/

/-- A reset adds one reminder to the session, and none to the others. -/
lemma reminders_resetToIdle (t : Ref) (hidle : ∀ l, (w.loop l).timers.isCheckTimers = false) :
    (w.resetToIdle env (w.connection r).loop r).reminders t =
      if t = r then w.reminders t ++ [w.newReminder r] else w.reminders t := by
  set idled := w.modifySession r fun s => { s with deskID := 0, status := .IDLE } with hidled
  have hreset : w.resetToIdle env (w.connection r).loop r =
      idled.notifyUserToBeReady env (idled.connection r).loop r := rfl
  have hconnection : (w.resetToIdle env (w.connection r).loop r).connection = w.connection :=
    (resets_resetToIdle (A := {r}) rfl).connection
  have htimers := fun l => notifyUserToBeReady_own_timers env idled r l (hidle _)
  rw [reminders, hconnection, hreset, htimers]
  by_cases ht : t = r
  · subst ht
    have hself : [idled.newReminder t].filter
        (fun timer => timer.timerTask = .reminder t) = [w.newReminder t] := by
      rw [List.filter_cons_of_pos (by simp [newReminder])]
      rfl
    rw [if_pos rfl, if_pos (by exact rfl)]
    simp only [List.filter_append, hself]
    rfl
  · rw [if_neg ht]
    split
    · have hother : [idled.newReminder r].filter
          (fun timer => timer.timerTask = .reminder t) = [] := by
        simp [newReminder, Ne.symm ht]
      simp only [List.filter_append, hother, List.append_nil]
      rfl
    · rfl

/-- One round of the loop over a desk. -/
lemma reminders_resetOwnIfAt {deskID : Int64} (t : Ref)
    (hidle : ∀ l, (w.loop l).timers.isCheckTimers = false) :
    (resetOwnIfAt env deskID r w).reminders t =
      if t = r ∧ (w.session r).deskID = deskID then w.reminders t ++ [w.newReminder r]
      else w.reminders t := by
  unfold resetOwnIfAt resetIfAt
  by_cases hdesk : (w.session r).deskID = deskID
  · rw [if_neg (not_not.mpr hdesk), reminders_resetToIdle t hidle]
    simp [hdesk]
  · rw [if_pos hdesk, if_neg fun h => hdesk h.2]

/-- The rest of what one round does. -/
lemma resets_resetOwnIfAt (env : Environment) (deskID : Int64) (r : Ref) (w : World) :
    Resets {r} w (resetOwnIfAt env deskID r w) :=
  (resets_resetIfAt (A := {r}) env (w.connection r).loop deskID r (fun _ => Set.mem_singleton r)
    (Resets.refl _ w)).1

/-- The loop leaves the reminders of a session alone that it does not meet at the desk. -/
lemma reminders_foldl_of_away {deskID : Int64} {refs : List Ref}
    (hidle : ∀ l, (w.loop l).timers.isCheckTimers = false)
    (haway : t ∈ refs → (w.session t).deskID ≠ deskID) :
    (refs.foldl (fun w r => resetOwnIfAt env deskID r w) w).reminders t = w.reminders t := by
  induction refs generalizing w with
  | nil => rfl
  | cons r refs ih =>
    have hresets := resets_resetOwnIfAt env deskID r w
    have hround : (resetOwnIfAt env deskID r w).reminders t = w.reminders t := by
      rw [reminders_resetOwnIfAt t hidle, if_neg]
      rintro ⟨rfl, hdesk⟩
      exact haway (List.mem_cons_self ..) hdesk
    rw [List.foldl_cons, ih (fun l => (hresets.isCheckTimers l).trans (hidle l)) ?_, hround]
    intro ht
    have hdesk := haway (List.mem_cons_of_mem _ ht)
    by_cases hr : t = r
    · subst hr
      rwa [resetOwnIfAt, resetIfAt, if_pos hdesk]
    · rwa [hresets.session t hr]

/-- The loop gives a session that it meets at the desk a timer that has not been constructed
before. -/
lemma exists_new_reminder_foldl (env : Environment) {deskID : Int64} {refs : List Ref}
    (hidle : ∀ l, (w.loop l).timers.isCheckTimers = false)
    (ht : t ∈ refs) (hdesk : (w.session t).deskID = deskID) :
    ∃ timer ∈ (refs.foldl (fun w r => resetOwnIfAt env deskID r w) w).reminders t,
      w.timersConstructed ≤ timer.object := by
  -- a reminder that is there at some point of the loop is there at its end
  have hstays : ∀ (refs : List Ref) (w : World),
      (∀ l, (w.loop l).timers.isCheckTimers = false) →
      w.reminders t ⊆ (refs.foldl (fun w r => resetOwnIfAt env deskID r w) w).reminders t := by
    intro refs
    induction refs with
    | nil => exact fun _ _ => List.Subset.refl _
    | cons r refs ih =>
      intro w hidle timer htimer
      have hresets := resets_resetOwnIfAt env deskID r w
      refine ih _ (fun l => (hresets.isCheckTimers l).trans (hidle l)) ?_
      rw [reminders_resetOwnIfAt t hidle]
      split
      · exact List.mem_append_left _ htimer
      · exact htimer
  induction refs generalizing w with
  | nil => exact absurd ht List.not_mem_nil
  | cons r refs ih =>
    have hresets := resets_resetOwnIfAt env deskID r w
    have hidle' : ∀ l, ((resetOwnIfAt env deskID r w).loop l).timers.isCheckTimers = false :=
      fun l => (hresets.isCheckTimers l).trans (hidle l)
    rw [List.foldl_cons]
    by_cases hr : t = r
    · subst hr
      refine ⟨w.newReminder t, hstays refs _ hidle' ?_, le_refl _⟩
      rw [reminders_resetOwnIfAt t hidle, if_pos ⟨rfl, hdesk⟩]
      exact List.mem_append_right _ (List.mem_singleton_self _)
    · have hmem : t ∈ refs := (List.mem_cons.mp ht).resolve_left hr
      have hdesk' : ((resetOwnIfAt env deskID r w).session t).deskID = deskID := by
        rw [hresets.session t hr, hdesk]
      obtain ⟨timer, htimer, hobject⟩ := ih hidle' hmem hdesk'
      exact ⟨timer, htimer, hresets.timersConstructed.trans hobject⟩

/-! ## Right answers -/

/-- The sender has its desk to itself exactly if no other session at the desk is registered after
the reply. -/
lemma deskToItself_iff (hwf : WellFormed w) :
    DeskToItself env w r ↔ ∀ entry ∈ (w.answer env (w.connection r).loop r).sessions,
      (w.session entry.2).deskID = (w.session r).deskID → entry.2 = r := by
  rcases reply_cases env w r rightAnswer with ⟨haccepted, hsessions, -⟩ | ⟨hrefused, hsessions, -⟩
  · rw [answer, hsessions]
    constructor
    · intro h entry hentry hdesk
      by_contra hne
      exact haccepted (h entry hentry hne hdesk).1
    · intro h entry hentry hne hdesk
      exact absurd (h entry hentry hdesk) hne
  · rw [answer, hsessions]
    constructor
    · intro h entry hentry hdesk
      by_contra hne
      exact hwf.not_mem_eraseP hentry (h entry (List.mem_of_mem_eraseP hentry) hne hdesk).2
    · intro h entry hentry hne hdesk
      refine ⟨hrefused, ?_⟩
      by_contra hid
      have hstays : entry ∈ w.sessions.eraseP fun entry => entry.1 == (w.session r).id :=
        (List.mem_eraseP_of_neg (by simpa using hid)).mpr hentry
      exact hne (h entry hstays hdesk)

/-- A right answer from a session that has its desk to itself goes no further than the reply. -/
lemma answer_of_deskToItself (hstable : Stable w) (hdesk : DeskToItself env w r) :
    ∃ w', ((w.answer env (w.connection r).loop r).notifyOthers env (w.connection r).loop r >>=
        fun w₂ => w₂.resetDesk env (w.connection r).loop r) = .ok w' ∧
      (Kept r w w'.settle ↔ Kept r w (w.answer env (w.connection r).loop r)) := by
  set w₁ := w.answer env (w.connection r).loop r with hw₁
  have htouches : Touches {r} w w₁ := touches_sendMsg _ rfl
  have hwf : WellFormed w₁ := hstable.wellFormed.touches htouches
  have hidle : ∀ l, (w₁.loop l).timers.isCheckTimers = false :=
    fun l => (htouches.isCheckTimers l).trans (hstable.idle l)
  have hsends : OnlySends w₁ := OnlySends.sendMsg hstable.settled _
  have halone : ∀ t ∈ w₁.sessions.map Prod.snd,
      (w₁.session t).deskID = (w₁.session r).deskID → t = r := by
    rw [htouches.session]
    intro t ht
    obtain ⟨entry, hentry, rfl⟩ := List.mem_map.mp ht
    exact (deskToItself_iff hstable.wellFormed).mp hdesk entry hentry
  -- the sender is left out of the broadcast, and nobody else is at its desk
  have hnotify : w₁.notifyOthers env (w.connection r).loop r = .ok w₁ := by
    refine sendAll_of_no_recipient fun t ht hrecipient => ?_
    obtain rfl := halone t ht hrecipient.2.2
    exact hrecipient.1 ⟨rfl, rfl⟩
  have hreset : w₁.resetDesk env (w.connection r).loop r = _ :=
    resetSessionToIdle_eq_foldl env (w.connection r).loop _ w₁
  refine ⟨_, by rw [hnotify]; exact hreset, ?_⟩
  rw [settle_resetDesk hsends hreset]
  have hresets := (resetDesk_cases hreset).1
  have hothers : ∀ t ≠ r,
      ((w₁.sessions.map Prod.snd).foldl
        (fun w₂ t => resetOwnIfAt env (w₁.session r).deskID t w₂) w₁).session t = w₁.session t ∧
      ((w₁.sessions.map Prod.snd).foldl
        (fun w₂ t => resetOwnIfAt env (w₁.session r).deskID t w₂) w₁).reminders t =
        w₁.reminders t := by
    intro t ht
    rw [← settle_resetDesk hsends hreset]
    refine ⟨hresets.session t fun hmem => ht (halone t hmem.1 hmem.2), ?_⟩
    rw [settle_resetDesk hsends hreset]
    exact reminders_foldl_of_away hidle fun hmem hat => ht (halone t hmem hat)
  constructor
  · intro h t ht hne
    rw [← (hothers t hne).1, ← (hothers t hne).2]
    exact h t ht hne
  · intro h t ht hne
    rw [(hothers t hne).1, (hothers t hne).2]
    exact h t ht hne

/-- A right answer that keeps the other sessions comes from a session that has its desk to
itself: every other session at the desk would get a new reminder. -/
lemma deskToItself_of_kept (hstable : Stable w) (hconstructed : Constructed w) {w₂ : World}
    (hnotify : (w.answer env (w.connection r).loop r).notifyOthers env (w.connection r).loop r =
      .ok w₂)
    (hreset : w₂.resetDesk env (w.connection r).loop r = .ok w') (hkept : Kept r w w'.settle) :
    DeskToItself env w r := by
  have htouches₁ : Touches {r} w (w.answer env (w.connection r).loop r) := touches_sendMsg _ rfl
  obtain ⟨htouches₂, hsessions⟩ := touches_sendAll hnotify
  have htouches : Touches Set.univ w w₂ :=
    (htouches₁.mono (Set.subset_univ _)).trans (htouches₂.mono (Set.subset_univ _))
  have hsends : OnlySends w₂ := (OnlySends.sendMsg hstable.settled rightAnswer).sendAll hnotify
  have hidle : ∀ l, (w₂.loop l).timers.isCheckTimers = false :=
    fun l => (htouches.isCheckTimers l).trans (hstable.idle l)
  refine (deskToItself_iff hstable.wellFormed).mpr fun entry hentry hdesk => ?_
  by_contra hne
  have hmem : entry.2 ∈ w₂.sessions.map Prod.snd := by
    rw [hsessions]
    exact List.mem_map_of_mem hentry
  have hdesk₂ : (w₂.session entry.2).deskID = (w₂.session r).deskID := by
    rw [htouches.session]
    exact hdesk
  obtain ⟨timer, htimer, hobject⟩ := exists_new_reminder_foldl env hidle hmem hdesk₂
  rw [← settle_resetDesk hsends hreset] at htimer
  have howned : entry.2 ∈ w.owned :=
    mem_owned_of_mem_sessions (htouches₁.sessions.subset hentry)
  rw [(hkept entry.2 howned hne).2.2] at htimer
  -- the reminders from before the package had been constructed before
  have hold : timer.object < w.timersConstructed := hconstructed.entries _ timer
    (List.mem_append_left _ (List.mem_of_mem_filter htimer))
  rw [htouches.timersConstructed] at hobject
  omega

/-! ## Packages -/

/-- **In every reachable state, and whatever the status of the sender, a package leaves the status,
the desk and the reminders of all other sessions as they were exactly if it is harmless.** -/
theorem undisturbed_iff_harmless (h : (sequential env).Reachable w) (r : Ref) (package : Bytes) :
    Undisturbed env w r package ↔ Harmless env w r package := by
  have hstable := stable_reachable h
  have hconstructed := constructed_reachable h
  have hsettled : ∀ msg, (w.sendMsg env (w.connection r).loop r msg).settle =
      w.sendMsg env (w.connection r).loop r msg :=
    fun msg => settle_of_settled (OnlySends.sendMsg hstable.settled msg)
  cases package with
  | nil =>
    refine iff_of_true ⟨w, rfl, ?_⟩ trivial
    rw [settle_of_settled hstable.settled]
    exact fun _ _ _ => ⟨rfl, rfl, rfl⟩
  | cons c rest =>
    simp only [Undisturbed, Harmless, processPackage]
    by_cases hchat : c ≠ 33
    · -- a chat message
      rw [if_pos hchat]
      simp only [if_pos hchat]
      rw [← hstable.wellFormed.broadcasts_iff_ownAccepted]
      constructor
      · rintro ⟨w', hok, -⟩
        obtain ⟨hwalk, rfl⟩ := forEachSession_eq_ok_iff.mp hok
        exact ⟨hwalk, _, hok, trace_foldl_sendIfRecipient _ rfl⟩
      · rintro ⟨-, w', hok, -⟩
        refine ⟨w', hok, ?_⟩
        rw [settle_of_settled (OnlySends.sendAll hstable.settled hok)]
        exact kept_sendAll hstable.wellFormed hok
    · rw [if_neg hchat]
      simp only [if_neg hchat, processCmd]
      by_cases hready : IsReadyCmd (c :: rest)
      · -- a session that says it is ready
        simp only [if_pos hready]
        refine iff_of_true ⟨_, rfl, fun t _ hne => ?_⟩ trivial
        have hother : ((w.modifySession r fun s => { s with status := .READY }).session t) =
            w.session t := by
          simp [modifySession, hne]
        have hreminders : (w.modifySession r fun s => { s with status := .READY }).settle.reminders
            t = w.reminders t := by
          rw [settle_of_settled (by exact hstable.settled)]
          rfl
        exact ⟨congrArg _ hother, congrArg _ hother, hreminders⟩
      · simp only [if_neg hready]
        by_cases hanswer : c :: rest = answerCmd
        · -- a right answer
          simp only [if_pos hanswer]
          constructor
          · rintro ⟨w', hok, hkept⟩
            cases hnotify : (w.answer env (w.connection r).loop r).notifyOthers env
                (w.connection r).loop r with
            | error f => rw [hnotify] at hok; cases hok
            | ok w₂ =>
              have hreset : w₂.resetDesk env (w.connection r).loop r = .ok w' := by
                rw [hnotify] at hok
                exact hok
              have hdesk := deskToItself_of_kept hstable hconstructed hnotify hreset hkept
              refine ⟨hdesk, (kept_reply_iff env rightAnswer hstable.idle).mp ?_⟩
              obtain ⟨w₃, hok', hiff⟩ := answer_of_deskToItself hstable hdesk
              obtain rfl : w₃ = w' := Except.ok.inj (hok'.symm.trans hok)
              exact hiff.mp hkept
          · rintro ⟨hdesk, hown⟩
            obtain ⟨w', hok, hiff⟩ := answer_of_deskToItself hstable hdesk
            exact ⟨w', hok, hiff.mpr ((kept_reply_iff env rightAnswer hstable.idle).mpr hown)⟩
        · -- any other command
          simp only [if_neg hanswer]
          rw [← kept_reply_iff env wrongAnswer hstable.idle]
          constructor
          · rintro ⟨w', hok, hkept⟩
            obtain rfl := Except.ok.inj hok
            rwa [hsettled] at hkept
          · intro hkept
            refine ⟨_, rfl, ?_⟩
            rwa [hsettled]

/-- While two players are at a desk, a third client who says the right answer does not disturb
them: they sit at another desk. -/
theorem undisturbed_twoPlayers :
    Undisturbed calm (runOps calm (start 2) (twoPlayers ++ [.connect 7 []])) 2 answerCmd := by
  have hreach : (sequential calm).Reachable
      (runOps calm (start 2) (twoPlayers ++ [.connect 7 []])) :=
    reachableUnder_runOps (.init ⟨2, by decide, rfl⟩) (by decide)
  refine (undisturbed_iff_harmless hreach 2 answerCmd).mpr ?_
  have haccepted : ¬ Refused calm (runOps calm (start 2) (twoPlayers ++ [.connect 7 []])) 2
      rightAnswer := by decide
  refine ⟨?_, fun hrefused => absurd hrefused haccepted⟩
  have hdesks : ∀ entry ∈ (runOps calm (start 2) (twoPlayers ++ [.connect 7 []])).sessions,
      entry.2 ≠ 2 →
      ((runOps calm (start 2) (twoPlayers ++ [.connect 7 []])).session entry.2).deskID ≠
        ((runOps calm (start 2) (twoPlayers ++ [.connect 7 []])).session 2).deskID := by decide
  exact fun entry hentry hne hdesk => absurd hdesk (hdesks entry hentry hne)

/-- A client who is idle says the right answer, and another client, who is ready and waits for a
game, is put back to idle: neither of them has a desk. -/
theorem exists_ready_disturbed :
    ¬ ∀ env w, (sequential env).Reachable w → ∀ r package, Alive w r →
      (w.session r).status ≠ .IN_GAME → Undisturbed env w r package := by
  intro h
  have hreach : (sequential calm).Reachable (runOps calm (start 2)
      [.connect 5 [], .connect 6 [], .package 1 (ascii "!ready\n")]) :=
    reachableUnder_runOps (.init ⟨2, by decide, rfl⟩) (by decide)
  obtain ⟨w', hok, hkept⟩ := h calm _ hreach 0 answerCmd (by decide) (by decide)
  have hstatus : (processPackage calm (.worker 0) 0 answerCmd (runOps calm (start 2)
      [.connect 5 [], .connect 6 [], .package 1 (ascii "!ready\n")])).toOption.map
        (fun w => (w.session 1).status) = some .IDLE := by decide
  have hloop : ((runOps calm (start 2) [.connect 5 [], .connect 6 [],
      .package 1 (ascii "!ready\n")]).connection 0).loop = .worker 0 := by decide
  rw [hloop] at hok
  rw [hok] at hstatus
  have hidle : (w'.session 1).status = .IDLE := Option.some.inj hstatus
  have hready := (hkept 1 (by decide) (by decide)).1
  exact absurd (hidle.symm.trans hready) (by decide)

end World

end Calc24
