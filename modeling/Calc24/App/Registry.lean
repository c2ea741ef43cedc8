import Calc24.App.Sending

/-!
# The map of sessions

`m_sessions` maps the ids of sessions to sessions, each session at most once, and no session is in
the map and in `m_pendingToDeleteSessions` at the same time.  `WellFormed` says so, and every
function of the server keeps it.

The second half of what the functions can change is here as well: `Resets A w w'` is the
counterpart of `Touches` for functions that put sessions in `A` back to idle and start their
reminders.
-/

namespace Calc24

namespace World

variable {env : Environment} {cur l : LoopId} {r t : Ref} {A B : Set Ref} {w w' w'' : World}

/-- The keys are the ids of the sessions, and no session is held twice. -/
structure WellFormed (w : World) : Prop where
  id_eq : ∀ entry ∈ w.sessions, (w.session entry.2).id = entry.1
  keys_nodup : (w.sessions.map Prod.fst).Nodup
  owned_nodup : w.owned.Nodup
  owned_lt : ∀ r ∈ w.owned, r < w.nextRef

lemma mem_owned_of_mem_sessions {entry : Int32 × Ref} (h : entry ∈ w.sessions) :
    entry.2 ∈ w.owned :=
  List.mem_append_left _ (List.mem_map_of_mem h)

lemma wellFormed_start (threadNum : ℕ) : WellFormed (start threadNum) where
  id_eq := by simp [start]
  keys_nodup := List.nodup_nil
  owned_nodup := List.nodup_nil
  owned_lt := by simp [start, owned]

/-- A session is registered under one key. -/
lemma WellFormed.refs_nodup (h : WellFormed w) : (w.sessions.map Prod.snd).Nodup :=
  h.owned_nodup.sublist (List.sublist_append_left _ _)

/-- What leaves the ids alone and only moves sessions out of the map keeps it well formed. -/
lemma WellFormed.of_sublist (h : WellFormed w)
    (hid : ∀ r, (w'.session r).id = (w.session r).id) (hsessions : w'.sessions.Sublist w.sessions)
    (howned : w'.owned.Perm w.owned) (hnext : w.nextRef ≤ w'.nextRef) : WellFormed w' where
  id_eq entry hentry := by
    rw [hid]
    exact h.id_eq entry (hsessions.subset hentry)
  keys_nodup := h.keys_nodup.sublist (hsessions.map Prod.fst)
  owned_nodup := howned.nodup_iff.mpr h.owned_nodup
  owned_lt r hr := (h.owned_lt r (howned.mem_iff.mp hr)).trans_le hnext

/-- Sends and closes keep the map well formed. -/
lemma WellFormed.touches (h : WellFormed w) (hw : Touches A w w') : WellFormed w' := by
  apply h.of_sublist
  · exact fun r => by rw [hw.session]
  · exact hw.sessions
  · exact hw.owned
  · exact hw.nextRef.ge

/-- So does everything that leaves the map and the ids alone. -/
lemma WellFormed.of_eq (h : WellFormed w) (hid : ∀ r, (w'.session r).id = (w.session r).id)
    (hsessions : w'.sessions = w.sessions)
    (hpending : w'.pendingToDeleteSessions = w.pendingToDeleteSessions)
    (hnext : w.nextRef ≤ w'.nextRef) : WellFormed w' := by
  apply h.of_sublist hid
  · rw [hsessions]
  · rw [owned, owned, hsessions, hpending]
  · exact hnext

/-! ## Closing a session -/

/-- Taking the first entry with a key out of a map takes all entries with the key out. -/
lemma WellFormed.not_mem_eraseP (h : WellFormed w) {entry : Int32 × Ref} {id : Int32}
    (hentry : entry ∈ w.sessions.eraseP fun entry => entry.1 == id) : entry.1 ≠ id := by
  have hkeys : (w.sessions.eraseP fun entry => entry.1 == id).map Prod.fst =
      (w.sessions.map Prod.fst).erase id := by
    have hpred : (fun entry : Int32 × Ref => entry.1 == id) = (fun i => id == i) ∘ Prod.fst := by
      funext entry
      exact Bool.beq_comm
    rw [List.erase_eq_eraseP, List.eraseP_map, hpred]
  have hmem := List.mem_map_of_mem (f := Prod.fst) hentry
  rw [hkeys, h.keys_nodup.mem_erase_iff] at hmem
  exact hmem.1

/-- A session that closes is not registered afterwards. -/
lemma WellFormed.not_mem_onClose (h : WellFormed w) :
    r ∉ (w.onClose cur r).sessions.map Prod.snd := by
  rw [onClose_sessions]
  intro hmem
  obtain ⟨entry, hentry, rfl⟩ := List.mem_map.mp hmem
  exact h.not_mem_eraseP hentry (h.id_eq entry (List.mem_of_mem_eraseP hentry)).symm

/-! ## Resetting sessions -/

/-- What resets of the sessions in `A` can change: their desk, status and reminder, and the timers
and timer requests of loops. -/
structure Resets (A : Set Ref) (w w' : World) : Prop where
  threadNum : w'.threadNum = w.threadNum
  id : ∀ r, (w'.session r).id = (w.session r).id
  place : ∀ r, ((w'.session r).status = (w.session r).status ∧
      (w'.session r).deskID = (w.session r).deskID) ∨
    (r ∈ A ∧ (w'.session r).status = .IDLE ∧ (w'.session r).deskID = 0)
  session : ∀ r ∉ A, w'.session r = w.session r
  sessions : w'.sessions = w.sessions
  pending : w'.pendingToDeleteSessions = w.pendingToDeleteSessions
  connection : w'.connection = w.connection
  nextRef : w'.nextRef = w.nextRef
  deskBaseId : w'.deskBaseId = w.deskBaseId
  timersConstructed : w.timersConstructed ≤ w'.timersConstructed
  trace : w'.trace = w.trace
  epoll : ∀ l, (w'.loop l).epoll = (w.loop l).epoll
  isCheckTimers : ∀ l, (w'.loop l).timers.isCheckTimers = (w.loop l).timers.isCheckTimers
  entries : ∀ l, ∀ t ∈ (w'.loop l).timers.entries, t ∈ (w.loop l).timers.entries ∨
    ∃ r ∈ A, l = (w.connection r).loop ∧ t.timerTask = .reminder r ∧
      t.object < w'.timersConstructed
  tasks : ∀ l, ∃ new, (w'.loop l).customTasks = (w.loop l).customTasks ++ new ∧
    ∀ task ∈ new, ∃ r ∈ A, l = (w.connection r).loop ∧
      ∃ t, t.timerTask = .reminder r ∧ t.object < w'.timersConstructed ∧ task = .addTimerInternal t

namespace Resets

lemma refl (A : Set Ref) (w : World) : Resets A w w where
  threadNum := rfl
  id _ := rfl
  place _ := Or.inl ⟨rfl, rfl⟩
  session _ _ := rfl
  sessions := rfl
  pending := rfl
  connection := rfl
  nextRef := rfl
  deskBaseId := rfl
  timersConstructed := le_refl _
  trace := rfl
  epoll _ := rfl
  isCheckTimers _ := rfl
  entries _ _ := Or.inl
  tasks _ := ⟨[], (List.append_nil _).symm, by simp⟩

lemma trans (h : Resets A w w') (h' : Resets A w' w'') : Resets A w w'' where
  threadNum := h'.threadNum.trans h.threadNum
  id r := (h'.id r).trans (h.id r)
  place r := by
    rcases h'.place r with ⟨hstatus, hdesk⟩ | hreset
    · rw [hstatus, hdesk]
      exact h.place r
    · exact Or.inr hreset
  session r hr := (h'.session r hr).trans (h.session r hr)
  sessions := h'.sessions.trans h.sessions
  pending := h'.pending.trans h.pending
  connection := h'.connection.trans h.connection
  nextRef := h'.nextRef.trans h.nextRef
  deskBaseId := h'.deskBaseId.trans h.deskBaseId
  timersConstructed := h.timersConstructed.trans h'.timersConstructed
  trace := h'.trace.trans h.trace
  epoll l := (h'.epoll l).trans (h.epoll l)
  isCheckTimers l := (h'.isCheckTimers l).trans (h.isCheckTimers l)
  entries l t ht := by
    rcases h'.entries l t ht with ht | ht
    · refine (h.entries l t ht).imp_right ?_
      rintro ⟨r, hr, hl, htask, hobject⟩
      exact ⟨r, hr, hl, htask, hobject.trans_le h'.timersConstructed⟩
    · rw [h.connection] at ht
      exact Or.inr ht
  tasks l := by
    obtain ⟨new, heq, hnew⟩ := h.tasks l
    obtain ⟨new', heq', hnew'⟩ := h'.tasks l
    refine ⟨new ++ new', by rw [heq', heq, List.append_assoc], fun task htask => ?_⟩
    rcases List.mem_append.mp htask with htask | htask
    · obtain ⟨r, hr, hl, t, ht, hobject, hadd⟩ := hnew task htask
      exact ⟨r, hr, hl, t, ht, hobject.trans_le h'.timersConstructed, hadd⟩
    · have hmem := hnew' task htask
      rw [h.connection] at hmem
      exact hmem

end Resets

/-- The timer that `notifyUserToBeReady` constructs. -/
def newReminder (w : World) (r : Ref) : Timer TimerTask where
  object := w.timersConstructed
  id := w.timerBaseId + 1
  intervalMs := 5000
  repeated := true
  repeatedCount := 0
  timerTask := .reminder r
  mode := .fixedInterval

variable (env cur) in
/-- What `notifyUserToBeReady` does to the loop of the session: the due time of the new timer is
set, and the timer is added, or queued if another thread calls. -/
def addReminder (w : World) (r : Ref) (loop : EventLoop Dispatcher TimerTask CustomTask) :
    EventLoop Dispatcher TimerTask CustomTask :=
  let timers := loop.timers.construct w.timersConstructed (env.clock w.timersConstructed + 5000)
  if cur = (w.connection r).loop then
    { loop with timers := timers.addTimerInternal (w.newReminder r) }
  else EventLoop.addTask (.addTimerInternal (w.newReminder r)) { loop with timers := timers }

/-- Starting a reminder draws an id and changes the loop of the session. -/
lemma notifyUserToBeReady_eq (w : World) (r : Ref) :
    w.notifyUserToBeReady env cur r =
      { w.modifyLoop (w.connection r).loop (w.addReminder env cur r) with
        session := Function.update w.session r
          { w.session r with timerID := w.timerBaseId + 1 }
        timerBaseId := w.timerBaseId + 1
        timersConstructed := w.timersConstructed + 1 } := by
  by_cases h : cur = (w.connection r).loop <;>
    simp [notifyUserToBeReady, addTimer, constructTimer, addTimerInternal, addReminder, h,
      loopTimers_modify, modifyLoop, modifySession, newReminder]

/-- A new reminder is no matter of epoll. -/
lemma addReminder_epoll (loop : EventLoop Dispatcher TimerTask CustomTask) :
    (w.addReminder env cur r loop).epoll = loop.epoll := by
  unfold addReminder
  split <;> rfl

lemma addReminder_isCheckTimers (loop : EventLoop Dispatcher TimerTask CustomTask) :
    (w.addReminder env cur r loop).timers.isCheckTimers = loop.timers.isCheckTimers := by
  unfold addReminder
  split
  · exact LoopTimers.addTimerInternal_isCheckTimers
  · rfl

/-- Starting a reminder. -/
lemma resets_notifyUserToBeReady (hr : r ∈ A) :
    Resets A w (w.notifyUserToBeReady env cur r) := by
  rw [notifyUserToBeReady_eq]
  refine { Resets.refl A w with
    id := fun r' => ?_, place := fun r' => ?_, session := fun r' hr' => ?_,
    timersConstructed := Nat.le_succ _, epoll := fun l => ?_, isCheckTimers := fun l => ?_, entries := fun l t ht => ?_, tasks := fun l => ?_ }
  · by_cases hr' : r' = r <;> simp [hr']
  · by_cases hr' : r' = r <;> simp [hr']
  · have hne : r' ≠ r := by
      rintro rfl
      exact hr' hr
    simp [hne]
  · by_cases hl : l = (w.connection r).loop
    · simp [modifyLoop, hl, addReminder_epoll]
    · simp [modifyLoop, hl]
  · by_cases hl : l = (w.connection r).loop
    · simp [modifyLoop, hl, addReminder_isCheckTimers]
    · simp [modifyLoop, hl]
  · by_cases hl : l = (w.connection r).loop
    · subst hl
      simp only [modifyLoop, Function.update_self, addReminder] at ht
      split at ht
      · rcases LoopTimers.mem_entries_addTimerInternal.mp ht with ht | rfl
        · exact Or.inl ht
        · exact Or.inr ⟨r, hr, rfl, rfl, Nat.lt_succ_self _⟩
      · exact Or.inl ht
    · exact Or.inl (by simpa [modifyLoop, hl] using ht)
  · by_cases hl : l = (w.connection r).loop
    · subst hl
      simp only [modifyLoop, Function.update_self, addReminder]
      split
      · exact ⟨[], by simp⟩
      · refine ⟨[.addTimerInternal (w.newReminder r)], rfl, fun task htask => ?_⟩
        exact ⟨r, hr, rfl, w.newReminder r, rfl, Nat.lt_succ_self _, List.mem_singleton.mp htask⟩
    · exact ⟨[], by simp [modifyLoop, hl]⟩

/-- A reset. -/
lemma resets_resetToIdle (hr : r ∈ A) : Resets A w (w.resetToIdle env cur r) := by
  have hidle : Resets A w (w.modifySession r fun s => { s with deskID := 0, status := .IDLE }) := by
    refine { Resets.refl A w with
      id := fun r' => ?_, place := fun r' => ?_, session := fun r' hr' => ?_ }
    · by_cases hr' : r' = r <;> simp [modifySession, hr']
    · by_cases hr' : r' = r
      · exact Or.inr (by simp [modifySession, hr', hr])
      · exact Or.inl (by simp [modifySession, hr'])
    · have hne : r' ≠ r := by
        rintro rfl
        exact hr' hr
      simp [modifySession, hne]
  exact hidle.trans (resets_notifyUserToBeReady hr)

/-- What the reset of one session leaves in it. -/
lemma resetToIdle_session_self (w : World) (r : Ref) :
    (w.resetToIdle env cur r).session r =
      { w.session r with deskID := 0, status := .IDLE, timerID := w.timerBaseId + 1 } := by
  rw [resetToIdle, notifyUserToBeReady_eq]
  simp [modifySession]

/-- A session that has been put back to idle. -/
def IsReset (w : World) (r : Ref) : Prop :=
  (w.session r).deskID = 0 ∧ (w.session r).status = .IDLE

/-- A session that is reset stays so. -/
lemma Resets.isReset (h : Resets A w w') (hr : IsReset w r) : IsReset w' r := by
  rcases h.place r with ⟨hstatus, hdesk⟩ | ⟨-, hstatus, hdesk⟩
  · exact ⟨hdesk.trans hr.1, hstatus.trans hr.2⟩
  · exact ⟨hdesk, hstatus⟩

variable (env cur) in
/-- The body of the loop of `resetSessionToIdle`. -/
def resetIfAt (deskID : Int64) (r : Ref) (w : World) : World :=
  if (w.session r).deskID ≠ deskID then w else w.resetToIdle env cur r

/-- One round of the loop, after some others: the session is at the desk still, or has been reset
before. -/
lemma resets_resetIfAt (env : Environment) (cur : LoopId) (deskID : Int64) (r : Ref) {w₁ : World}
    (hA : (w.session r).deskID = deskID → r ∈ A)
    (h : Resets A w w₁) :
    Resets A w₁ (resetIfAt env cur deskID r w₁) ∧
      ((w.session r).deskID = deskID → IsReset (resetIfAt env cur deskID r w₁) r) := by
  have hplace : (w₁.session r).deskID = (w.session r).deskID ∨ r ∈ A ∧ IsReset w₁ r := by
    rcases h.place r with ⟨-, hdesk⟩ | ⟨hr, hstatus, hdesk⟩
    · exact Or.inl hdesk
    · exact Or.inr ⟨hr, hdesk, hstatus⟩
  unfold resetIfAt
  split
  · next hne =>
    refine ⟨Resets.refl A w₁, fun hdesk => ?_⟩
    rcases hplace with hsame | ⟨-, hreset⟩
    · exact absurd (hsame.trans hdesk) hne
    · exact hreset
  · next hdesk =>
    constructor
    · apply resets_resetToIdle
      rcases hplace with hsame | ⟨hr, -⟩
      · exact hA (hsame ▸ not_not.mp hdesk)
      · exact hr
    · intro _
      rw [IsReset, resetToIdle_session_self]
      exact ⟨rfl, rfl⟩

/-- The loop over some sessions resets only those of them that sit at the desk. -/
lemma resets_foldl_resetIfAt {deskID : Int64} {refs : List Ref} {w₁ : World}
    (hA : ∀ r ∈ refs, (w.session r).deskID = deskID → r ∈ A) (h : Resets A w w₁) :
    Resets A w (refs.foldl (fun w r => resetIfAt env cur deskID r w) w₁) := by
  induction refs generalizing w₁ with
  | nil => exact h
  | cons r refs ih =>
    obtain ⟨hAr, hArest⟩ := List.forall_mem_cons.mp hA
    exact ih hArest (h.trans (resets_resetIfAt env cur deskID r hAr h).1)

/-- And it does reset them. -/
lemma isReset_foldl_resetIfAt {deskID : Int64} {refs : List Ref} {w₁ : World}
    (h : Resets Set.univ w w₁) (ht : t ∈ refs) (hdesk : (w.session t).deskID = deskID) :
    IsReset (refs.foldl (fun w r => resetIfAt env cur deskID r w) w₁) t := by
  induction refs generalizing w₁ with
  | nil => cases ht
  | cons r refs ih =>
    obtain ⟨hnext, hself⟩ := resets_resetIfAt env cur deskID r (fun _ => Set.mem_univ r) h
    rw [List.foldl_cons]
    rcases List.mem_cons.mp ht with rfl | ht
    · exact (resets_foldl_resetIfAt (fun _ _ _ => Set.mem_univ _) (Resets.refl _ _)).isReset
        (hself hdesk)
    · exact ih (h.trans hnext) ht

/-- `resetSessionToIdle` does not fail, and visits the registered sessions one after another. -/
lemma resetSessionToIdle_eq_foldl (env : Environment) (cur : LoopId) (deskID : Int64) (w : World) :
    w.resetSessionToIdle env cur deskID =
      .ok ((w.sessions.map Prod.snd).foldl (fun w r => resetIfAt env cur deskID r w) w) := by
  refine forEachSession_eq_foldl (resetIfAt env cur deskID) fun r w₁ => ?_
  unfold resetIfAt
  split
  · rfl
  · exact (resets_resetToIdle (A := {r}) rfl).sessions

/-- `resetSessionToIdle` resets the sessions that are registered and sit at the desk. -/
theorem resetDesk_cases (h : w.resetDesk env cur r = .ok w') :
    Resets {t | t ∈ w.sessions.map Prod.snd ∧ (w.session t).deskID = (w.session r).deskID} w w' ∧
      ∀ t ∈ w.sessions.map Prod.snd, (w.session t).deskID = (w.session r).deskID →
        IsReset w' t := by
  obtain rfl := Except.ok.inj ((resetSessionToIdle_eq_foldl env cur _ w).symm.trans h)
  exact ⟨resets_foldl_resetIfAt (fun t ht hdesk => ⟨ht, hdesk⟩) (Resets.refl _ _),
    fun t ht hdesk => isReset_foldl_resetIfAt (Resets.refl _ _) ht hdesk⟩

end World

end Calc24
