import Calc24.App.Retaining
import Calc24.App.ReminderRuns
import Calc24.App.Winner

/-!
# No idle player is forgotten

Sessions that are put back to idle may end up with two reminders, but under no interleaving of the
threads does one end up without: whoever is registered and idle has the reminder that it remembers
the id of, and this timer is registered with the loop of the session, or on its way there
(`idle_reminded`).  A reminder that a thread starts for a session of another thread waits in the
queue of the other loop, or among the tasks that the other thread has taken from there.

The guard `FewTimers` says that the counter of the timer ids does not wrap around.  The steps are
those of `Process`, each of which draws an id at once; two threads that draw at the same time may
get the same id (`TimerIds`), and then the removal of one reminder may take the other one out.
-/

namespace Calc24

namespace World

variable {env : Environment} {cur l : LoopId} {n : ℕ} {r r' : Ref} {w w' : World}
  {stage stage' : Stage} {input : Input} {taken taken' : LoopId → List CustomTask} {id : Int64}
  {t : Timer TimerTask} {deskID : Int64}

/-- The timer is the reminder that a session remembers the id of. -/
def IsReminder (w : World) (r : Ref) (t : Timer TimerTask) : Prop :=
  t.timerTask = .reminder r ∧ t.id = (w.session r).timerID ∧ t.repeated = true ∧
    t.intervalMs = 5000

/-- The timer is registered with the loop `l`, or on its way there; `taken l` are the tasks that the
thread of the loop has taken from the queue and not executed yet. -/
def Placed (taken : LoopId → List CustomTask) (w : World) (l : LoopId) (t : Timer TimerTask) :
    Prop :=
  t ∈ (w.loop l).timers.timers ∨ .addTimerInternal t ∈ taken l ++ (w.loop l).customTasks

/-- A session has its reminder. -/
def HasReminder (taken : LoopId → List CustomTask) (w : World) (r : Ref) : Prop :=
  ∃ t, w.IsReminder r t ∧ Placed taken w (w.connection r).loop t

/-- Ids identify timers, nobody relies on the timers that are to be taken out, and idle sessions
have their reminders. -/
structure Attended (taken : LoopId → List CustomTask) (w : World) : Prop where
  identified : Identified w
  counter : w.timerBaseId = Int64.ofNat w.timersConstructed
  owned : ∀ l t, (t ∈ (w.loop l).timers.entries ∨
    .addTimerInternal t ∈ taken l ++ (w.loop l).customTasks) → w.Owned t
  retired : ∀ l, ∀ id ∈ (w.loop l).timers.pendingRemoveTimers, w.Spare id
  removals : ∀ l id, .removeTimerInternal id ∉ taken l ++ (w.loop l).customTasks
  reminded : ∀ r ∈ w.sessions.map Prod.snd, (w.session r).status = .IDLE → HasReminder taken w r

/-! ## Steps that start no reminder -/

/-- The requests on the way to a loop are those that were on the way. -/
lemma Retains.mem_requests (hw : Retains w w') {task : CustomTask} (htask : IsSend task = false) :
    task ∈ taken l ++ (w'.loop l).customTasks ↔ task ∈ taken l ++ (w.loop l).customTasks := by
  obtain ⟨new, heq, hnew⟩ := hw.tasks l
  rw [heq, ← List.append_assoc, List.mem_append (t := new)]
  refine ⟨fun h => h.resolve_right fun hmem => ?_, Or.inl⟩
  rw [hnew task hmem] at htask
  cases htask

/-- A step that retains the timers that idle sessions rely on. -/
lemma Attended.retains (h : Attended taken w) (hw : Retains w w') (hwf : WellFormed w') :
    Attended taken w' where
  identified := h.identified.retains hw hwf
  counter := by rw [hw.counter, hw.constructed, h.counter]
  owned l t ht :=
    (h.owned l t (ht.imp (fun hmem => hw.entries l hmem) (hw.mem_requests rfl).mp)).retains hw
  retired l id hid := by
    rcases hw.pending l id hid with hold | hspare
    · exact (h.retired l id hold).retains hw
    · exact hspare
  removals l id hid := h.removals l id ((hw.mem_requests rfl).mp hid)
  reminded r hr hidle := by
    obtain ⟨entry, hentry, rfl⟩ := List.mem_map.mp hr
    have hbefore := List.mem_map_of_mem (f := Prod.snd) (hw.sessions hentry)
    obtain ⟨t, ⟨htask, hid, hrepeated⟩, hplace⟩ := h.reminded _ hbefore (hw.idle _ hidle)
    rw [← hw.timerID] at hid
    refine ⟨t, ⟨htask, hid, hrepeated⟩, ?_⟩
    rw [hw.loop, Placed, hw.mem_requests rfl]
    refine hplace.imp_left fun hmem => (hw.kept _ t hmem).resolve_right fun hspare => ?_
    exact hspare.2 _ hr hidle hid.symm

/-- Timers that are on their way come closer, and nothing else changes. -/
lemma Attended.rearrange (h : Attended taken w)
    {loop : LoopId → EventLoop Dispatcher TimerTask CustomTask}
    (hpending : ∀ l, (loop l).timers.pendingRemoveTimers = (w.loop l).timers.pendingRemoveTimers)
    (howned : ∀ l t, (t ∈ (loop l).timers.entries ∨
      .addTimerInternal t ∈ taken' l ++ (loop l).customTasks) → t ∈ (w.loop l).timers.entries ∨
      .addTimerInternal t ∈ taken l ++ (w.loop l).customTasks)
    (hremovals : ∀ l id, .removeTimerInternal id ∈ taken' l ++ (loop l).customTasks →
      .removeTimerInternal id ∈ taken l ++ (w.loop l).customTasks)
    (hplaced : ∀ l t, Placed taken w l t → Placed taken' { w with loop := loop } l t) :
    Attended taken' { w with loop := loop } where
  identified :=
    ⟨h.identified.wellFormed.of_eq (fun _ => rfl) rfl rfl (le_refl _), h.identified.drawn,
      h.identified.distinct⟩
  counter := h.counter
  owned l t ht := h.owned l t (howned l t ht)
  retired l id hid := h.retired l id (hpending l ▸ hid)
  removals l id hid := h.removals l id (hremovals l id hid)
  reminded r hr hidle := by
    obtain ⟨t, hreminder, hplace⟩ := h.reminded r hr hidle
    exact ⟨t, hreminder, hplaced _ t hplace⟩

/-- The thread of a loop takes the tasks from the queue. -/
lemma Attended.takeTasks (h : Attended taken w) (hnone : taken l = []) :
    Attended (Function.update taken l (w.loop l).customTasks)
      (w.modifyLoop l fun loop => { loop with customTasks := [] }) := by
  have hsame : ∀ l', Function.update taken l (w.loop l).customTasks l' ++
      ((w.modifyLoop l fun loop => { loop with customTasks := [] }).loop l').customTasks =
      taken l' ++ (w.loop l').customTasks := by
    intro l'
    by_cases hl : l' = l
    · subst hl
      simp [modifyLoop, hnone]
    · simp [modifyLoop, hl]
  have htimers : ∀ l', ((w.modifyLoop l fun loop => { loop with customTasks := [] }).loop l').timers =
      (w.loop l').timers := by
    intro l'
    by_cases hl : l' = l
    · subst hl
      simp [modifyLoop]
    · simp [modifyLoop, hl]
  refine h.rearrange (fun l' => congrArg _ (htimers l')) (fun l' t ht => ?_) (fun l' id hid => ?_)
    fun l' t ht => ?_
  · exact ht.imp (fun hmem => htimers l' ▸ hmem) fun hmem => hsame l' ▸ hmem
  · exact hsame l' ▸ hid
  · exact ht.imp (fun hmem => (htimers l').symm ▸ hmem) fun hmem => (hsame l').symm ▸ hmem

/-- A send is done with. -/
lemma Attended.dropSend {task : CustomTask} {rest : List CustomTask} (h : Attended taken w)
    (hfirst : taken l = task :: rest) (hsend : IsSend task = true) :
    Attended (Function.update taken l rest) w := by
  have hmem : ∀ l' task', IsSend task' = false →
      (task' ∈ Function.update taken l rest l' ++ (w.loop l').customTasks ↔
        task' ∈ taken l' ++ (w.loop l').customTasks) := by
    intro l' task' htask'
    by_cases hl : l' = l
    · subst hl
      have hne : task' ≠ task := by
        rintro rfl
        rw [hsend] at htask'
        cases htask'
      simp [hfirst, hne]
    · simp [hl]
  have hsame : Attended (Function.update taken l rest) { w with loop := w.loop } := by
    refine h.rearrange (fun _ => rfl) (fun l' t ht => ?_) (fun l' id hid => ?_) fun l' t ht => ?_
    · exact ht.imp_right (hmem l' _ rfl).mp
    · exact (hmem l' _ rfl).mp hid
    · exact ht.imp_right (hmem l' _ rfl).mpr
  exact hsame

/-- A timer that was on its way arrives. -/
lemma Attended.addTimerInternal {rest : List CustomTask} (h : Attended taken w)
    (hidle : (w.loop l).timers.isCheckTimers = false)
    (hfirst : taken l = .addTimerInternal t :: rest) :
    Attended (Function.update taken l rest) (w.addTimerInternal l l t) := by
  rw [World.addTimerInternal, if_pos rfl, loopTimers_modify]
  have hadd : (w.loop l).timers.addTimerInternal t =
      { (w.loop l).timers with timers := (w.loop l).timers.timers ++ [t] } :=
    LoopTimers.addTimerInternal_of_idle hidle
  refine h.rearrange (fun l' => ?_) (fun l' t' ht' => ?_) (fun l' id hid => ?_) fun l' t' ht' => ?_
  · by_cases hl : l' = l
    · subst hl
      simp [hadd]
    · simp [hl]
  · by_cases hl : l' = l
    · subst hl
      simp only [Function.update_self, hfirst] at ht' ⊢
      rcases ht' with hmem | hmem
      · rcases LoopTimers.mem_entries_addTimerInternal.mp hmem with hold | rfl
        · exact Or.inl hold
        · exact Or.inr (List.mem_cons_self ..)
      · exact Or.inr (List.mem_cons_of_mem _ hmem)
    · simpa [hl] using ht'
  · by_cases hl : l' = l
    · subst hl
      simp only [Function.update_self, hfirst] at hid ⊢
      exact List.mem_cons_of_mem _ hid
    · simpa [hl] using hid
  · unfold Placed at ht' ⊢
    by_cases hl : l' = l
    · subst hl
      simp only [Function.update_self, hfirst, hadd] at ht' ⊢
      rcases ht' with hmem | hmem
      · exact Or.inl (List.mem_append_left _ hmem)
      · rcases List.mem_cons.mp hmem with heq | hold
        · obtain rfl : t' = t := CustomTask.addTimerInternal.inj heq
          exact Or.inl (List.mem_append_right _ (List.mem_singleton_self _))
        · exact Or.inr hold
    · simpa [hl] using ht'

/-! ## Starting a reminder -/

/-- A reminder is started for the session `r`, which may be new. -/
structure Starts (r : Ref) (w w' : World) : Prop where
  wellFormed : WellFormed w'
  nextRef : w.nextRef ≤ w'.nextRef
  born : ∀ t < w'.nextRef, t ≠ r → t < w.nextRef
  session : ∀ t ≠ r, w'.session t = w.session t
  timerID : (w'.session r).timerID = w.timerBaseId + 1
  counter : w'.timerBaseId = w.timerBaseId + 1
  constructed : w'.timersConstructed = w.timersConstructed + 1
  sessions : ∀ t ∈ w'.sessions.map Prod.snd, t ≠ r → t ∈ w.sessions.map Prod.snd
  loop : ∀ t ≠ r, (w'.connection t).loop = (w.connection t).loop
  entries : ∀ l, ∀ t ∈ (w'.loop l).timers.entries,
    t ∈ (w.loop l).timers.entries ∨ t = w.newReminder r
  kept : ∀ l, (w.loop l).timers.timers ⊆ (w'.loop l).timers.timers
  pending : ∀ l, (w'.loop l).timers.pendingRemoveTimers = (w.loop l).timers.pendingRemoveTimers
  tasks : ∀ l, ∃ new, (w'.loop l).customTasks = (w.loop l).customTasks ++ new ∧
    ∀ task ∈ new, IsSend task = true ∨ task = .addTimerInternal (w.newReminder r)
  started : w.newReminder r ∈ (w'.loop (w'.connection r).loop).timers.timers ∨
    .addTimerInternal (w.newReminder r) ∈ (w'.loop (w'.connection r).loop).customTasks

/-- The next id has not been drawn before. -/
lemma Drawn.ne_next (h : w.Drawn id) (hcounter : w.timerBaseId = Int64.ofNat w.timersConstructed)
    (hbound : w.timersConstructed + 1 < 2 ^ 64) : id ≠ w.timerBaseId + 1 := by
  obtain ⟨n, hn, rfl⟩ := h
  have hnext : w.timerBaseId + 1 = Int64.ofNat (w.timersConstructed + 1) := by
    rw [hcounter, Int64.ofNat_add]
    rfl
  rw [hnext, Ne, Int64.ofNat_inj_of_lt (by omega) hbound]
  omega

lemma Drawn.mono (h : w.Drawn id) (hle : w.timersConstructed ≤ w'.timersConstructed) :
    w'.Drawn id := by
  obtain ⟨n, hn, rfl⟩ := h
  exact ⟨n, hn.trans hle, rfl⟩

/-- A start leaves every idle session with its reminder. -/
theorem Attended.starts (h : Attended taken w) (hw : Starts r w w')
    (hbound : w.timersConstructed + 1 < 2 ^ 64) : Attended taken w' := by
  have hle : w.timersConstructed ≤ w'.timersConstructed := by
    rw [hw.constructed]
    exact Nat.le_succ _
  have hdrawn : w'.Drawn (w.timerBaseId + 1) := by
    refine ⟨w.timersConstructed + 1, hw.constructed.ge, ?_⟩
    rw [h.counter, Int64.ofNat_add]
    rfl
  have hfresh : ∀ id, w.Drawn id → id ≠ w.timerBaseId + 1 :=
    fun id hid => hid.ne_next h.counter hbound
  have hid : ∀ t < w'.nextRef, t ≠ r → w.Drawn (w'.session t).timerID := by
    intro t ht hne
    rw [hw.session t hne]
    exact h.identified.drawn t (hw.born t ht hne)
  have hrequests : ∀ l task, task ∈ taken l ++ (w'.loop l).customTasks →
      task ∈ taken l ++ (w.loop l).customTasks ∨ IsSend task = true ∨
        task = .addTimerInternal (w.newReminder r) := by
    intro l task htask
    obtain ⟨new, heq, hnew⟩ := hw.tasks l
    rw [heq, ← List.append_assoc] at htask
    exact (List.mem_append.mp htask).imp_right (hnew task)
  have hnewOwned : w'.Owned (w.newReminder r) := by
    refine ⟨hdrawn, fun t ht heq => ?_⟩
    by_cases hne : t = r
    · rw [hne]
      rfl
    · exact absurd heq.symm (hfresh _ (hid t ht hne))
  have holdOwned : ∀ t, w.Owned t → w'.Owned t := by
    rintro t ⟨hdrawn, howner⟩
    refine ⟨hdrawn.mono hle, fun r' hr' heq => ?_⟩
    by_cases hne : r' = r
    · rw [hne, hw.timerID] at heq
      exact absurd heq (hfresh _ hdrawn)
    · rw [hw.session r' hne] at heq
      exact howner r' (hw.born r' hr' hne) heq
  refine ⟨⟨hw.wellFormed, fun t ht => ?_, fun t ht t' ht' heq => ?_⟩, ?_, fun l t ht => ?_,
    fun l id hmem => ?_, fun l id hmem => ?_, fun t ht hidle => ?_⟩
  · by_cases hne : t = r
    · rw [hne, hw.timerID]
      exact hdrawn
    · exact (hid t ht hne).mono hle
  · by_cases hne : t = r
    · by_cases hne' : t' = r
      · rw [hne, hne']
      · rw [hne, hw.timerID] at heq
        exact absurd heq.symm (hfresh _ (hid t' ht' hne'))
    · by_cases hne' : t' = r
      · rw [hne', hw.timerID] at heq
        exact absurd heq (hfresh _ (hid t ht hne))
      · rw [hw.session t hne, hw.session t' hne'] at heq
        exact h.identified.distinct t (hw.born t ht hne) t' (hw.born t' ht' hne') heq
  · rw [hw.counter, hw.constructed, h.counter, Int64.ofNat_add]
    rfl
  · rcases ht with hmem | hmem
    · rcases hw.entries l t hmem with hold | rfl
      · exact holdOwned t (h.owned l t (Or.inl hold))
      · exact hnewOwned
    · rcases hrequests l _ hmem with hold | hsend | heq
      · exact holdOwned t (h.owned l t (Or.inr hold))
      · cases hsend
      · obtain rfl := CustomTask.addTimerInternal.inj heq
        exact hnewOwned
  · rw [hw.pending] at hmem
    obtain ⟨hdrawn', hrelies⟩ := h.retired l id hmem
    refine ⟨hdrawn'.mono hle, fun t ht hidle heq => ?_⟩
    by_cases hne : t = r
    · rw [hne, hw.timerID] at heq
      exact hfresh _ hdrawn' heq.symm
    · rw [hw.session t hne] at hidle heq
      exact hrelies t (hw.sessions t ht hne) hidle heq
  · rcases hrequests l _ hmem with hold | hsend | heq
    · exact h.removals l id hold
    · cases hsend
    · cases heq
  · by_cases hne : t = r
    · subst hne
      refine ⟨w.newReminder t, ⟨rfl, hw.timerID.symm, rfl, rfl⟩, ?_⟩
      exact hw.started.imp_right (List.mem_append_right _)
    · rw [hw.session t hne] at hidle
      obtain ⟨timer, ⟨htask, htimer, hrepeated⟩, hplace⟩ := h.reminded t (hw.sessions t ht hne) hidle
      refine ⟨timer, ⟨htask, by rw [hw.session t hne, htimer], hrepeated⟩, ?_⟩
      rw [hw.loop t hne]
      refine hplace.imp (fun hmem => hw.kept _ hmem) fun hmem => ?_
      obtain ⟨new, heq, -⟩ := hw.tasks (w.connection t).loop
      rw [heq, ← List.append_assoc]
      exact List.mem_append_left _ hmem

/-- What the start of a reminder leaves of the timers and tasks of a loop. -/
lemma addReminder_cases (env : Environment) (cur : LoopId) (r : Ref)
    (hidle : ∀ l, (w.loop l).timers.isCheckTimers = false) (l : LoopId) :
    let loop := (w.modifyLoop (w.connection r).loop (w.addReminder env cur r)).loop l
    (∀ t ∈ loop.timers.entries, t ∈ (w.loop l).timers.entries ∨ t = w.newReminder r) ∧
      (w.loop l).timers.timers ⊆ loop.timers.timers ∧
      loop.timers.pendingRemoveTimers = (w.loop l).timers.pendingRemoveTimers ∧
      (∃ new, loop.customTasks = (w.loop l).customTasks ++ new ∧
        ∀ task ∈ new, IsSend task = true ∨ task = .addTimerInternal (w.newReminder r)) ∧
      (l = (w.connection r).loop → w.newReminder r ∈ loop.timers.timers ∨
        .addTimerInternal (w.newReminder r) ∈ loop.customTasks) := by
  intro loop
  by_cases hl : l = (w.connection r).loop
  · subst hl
    have hloop : loop = w.addReminder env cur r (w.loop (w.connection r).loop) := by
      simp [loop, modifyLoop]
    rw [hloop]
    unfold addReminder
    dsimp only
    split
    · rw [LoopTimers.addTimerInternal_of_idle (by exact hidle _)]
      refine ⟨fun t ht => ?_, fun t ht => List.mem_append_left _ ht, rfl,
        ⟨[], (List.append_nil _).symm, by simp⟩,
        fun _ => Or.inl (List.mem_append_right _ (List.mem_singleton_self _))⟩
      simp only [LoopTimers.entries, LoopTimers.construct, List.mem_append, List.mem_singleton] at ht ⊢
      tauto
    · refine ⟨fun t ht => Or.inl ht, fun t ht => ht, rfl,
        ⟨[.addTimerInternal (w.newReminder r)], rfl, by simp⟩,
        fun _ => Or.inr (List.mem_append_right _ (List.mem_singleton_self _))⟩
  · have hloop : loop = w.loop l := by simp [loop, modifyLoop, hl]
    rw [hloop]
    exact ⟨fun _ => Or.inl, List.Subset.refl _, rfl, ⟨[], (List.append_nil _).symm, by simp⟩,
      fun heq => absurd heq hl⟩

/-- A reset starts a reminder. -/
lemma starts_resetToIdle (hwf : WellFormed w) (hidle : ∀ l, (w.loop l).timers.isCheckTimers = false) :
    Starts r w (w.resetToIdle env cur r) := by
  have hresets : Resets {r} w (w.resetToIdle env cur r) := resets_resetToIdle rfl
  have hloop : ∀ l, (w.resetToIdle env cur r).loop l =
      (w.modifyLoop (w.connection r).loop (w.addReminder env cur r)).loop l := by
    intro l
    rw [resetToIdle, notifyUserToBeReady_eq]
    rfl
  have hcases := addReminder_cases env cur r hidle
  refine ⟨hwf.resets hresets, hresets.nextRef.ge, fun t ht _ => hresets.nextRef ▸ ht,
    fun t ht => hresets.session t ht, ?_, ?_, ?_, fun t ht _ => hresets.sessions ▸ ht,
    fun t _ => by rw [hresets.connection], fun l => ?_, fun l => ?_, fun l => ?_, fun l => ?_, ?_⟩
  · rw [resetToIdle_session_self]
  · rw [resetToIdle, notifyUserToBeReady_eq]
    rfl
  · rw [resetToIdle, notifyUserToBeReady_eq]
    rfl
  · rw [hloop]
    exact (hcases l).1
  · rw [hloop]
    exact (hcases l).2.1
  · rw [hloop]
    exact (hcases l).2.2.1
  · rw [hloop]
    exact (hcases l).2.2.2.1
  · rw [hresets.connection, hloop]
    exact (hcases _).2.2.2.2 rfl

/-- The resets of some sessions. -/
lemma Attended.resetSessions {refs : List Ref} (h : Attended taken w)
    (hidle : ∀ l, (w.loop l).timers.isCheckTimers = false)
    (hbound : w.timersConstructed + refs.length < 2 ^ 64) :
    Attended taken (refs.foldl (fun w r => resetIfAt env cur deskID r w) w) := by
  induction refs generalizing w with
  | nil => exact h
  | cons r refs ih =>
    rw [List.length_cons] at hbound
    rw [List.foldl_cons]
    by_cases hdesk : (w.session r).deskID = deskID
    · have hreset : resetIfAt env cur deskID r w = w.resetToIdle env cur r :=
        if_neg (not_not.mpr hdesk)
      have hresets : Resets {r} w (w.resetToIdle env cur r) := resets_resetToIdle rfl
      have hstarts : Starts r w (w.resetToIdle env cur r) :=
        starts_resetToIdle h.identified.wellFormed hidle
      rw [hreset]
      refine ih (h.starts hstarts (by omega)) (fun l => (hresets.isCheckTimers l).trans (hidle l)) ?_
      rw [hstarts.constructed]
      omega
    · have hsame : resetIfAt env cur deskID r w = w := if_pos hdesk
      rw [hsame]
      exact ih h hidle (by omega)

/-- A reset of a desk. -/
lemma Attended.resetDesk (h : Attended taken w)
    (hidle : ∀ l, (w.loop l).timers.isCheckTimers = false)
    (hbound : w.timersConstructed + w.sessions.length < 2 ^ 64)
    (hok : w.resetDesk env cur r = .ok w') : Attended taken w' := by
  obtain rfl := Except.ok.inj ((resetSessionToIdle_eq_foldl env cur _ w).symm.trans hok)
  refine h.resetSessions hidle ?_
  rwa [List.length_map]

/-- A connect starts the reminder of the new session. -/
lemma starts_connect (hwf : WellFormed w) (hidle : ∀ l, (w.loop l).timers.isCheckTimers = false)
    {fd : ℕ} {order : List (Int32 × Ref)}
    (hok : (w.onAccept fd).onConnected env .base w.nextRef order = .ok w') :
    Starts w.nextRef w w' := by
  have hconnects := connect_cases hwf hok
  set r := w.nextRef
  set constructed := (w.onAccept fd).clearPending.constructSession env r with hconstructed
  set welcomed := constructed.sendWelcomeMsg env .base r with hwelcomed
  set notified := welcomed.notifyUserToBeReady env .base r with hnotified
  have hclears : Clears (w.onAccept fd) (w.onAccept fd).clearPending := clears_clearPending _
  have hloop : ∀ l, (constructed.loop l).timers = (w.loop l).timers ∧
      (constructed.loop l).customTasks = (w.loop l).customTasks := constructed_loop fd r w
  -- the welcome is queued: the new connection belongs to a worker loop
  have hconnection : (constructed.connection r).loop = .worker w.lastEventLoopNo := by
    rw [show constructed.connection = (w.onAccept fd).clearPending.connection from rfl,
      hclears.connection, onAccept_connection_self]
  have hqueued : welcomed = (constructed.log (.sent r welcomeMsg)).modifyLoop
      (.worker w.lastEventLoopNo) (EventLoop.addTask (.send r welcomeMsg)) := by
    rcases send_cases env .base r welcomeMsg (constructed.log (.sent r welcomeMsg)) with
      ⟨-, heq⟩ | ⟨hcur, -⟩ | ⟨hcur, -⟩
    · rw [← hconnection]
      exact heq
    · exact absurd (hcur.trans hconnection) LoopId.noConfusion
    · exact absurd (hcur.trans hconnection) LoopId.noConfusion
  have htimers : ∀ l, (welcomed.loop l).timers = (w.loop l).timers := by
    intro l
    rw [hqueued, ← (hloop l).1]
    by_cases hl : l = .worker w.lastEventLoopNo
    · subst hl
      simp [modifyLoop, EventLoop.addTask, log]
    · simp [modifyLoop, hl, log]
  have htasks : ∀ l, ∃ new, (welcomed.loop l).customTasks = (w.loop l).customTasks ++ new ∧
      ∀ task ∈ new, IsSend task = true := by
    intro l
    rw [hqueued, ← (hloop l).2]
    by_cases hl : l = .worker w.lastEventLoopNo
    · subst hl
      exact ⟨[.send r welcomeMsg], by simp [modifyLoop, EventLoop.addTask, log], by simp [IsSend]⟩
    · exact ⟨[], by simp [modifyLoop, hl, log], by simp⟩
  have hcounter : welcomed.timerBaseId = w.timerBaseId := by
    rw [hqueued]
    exact hclears.timerBaseId
  have hcount : welcomed.timersConstructed = w.timersConstructed := by
    rw [hqueued]
    exact hclears.timersConstructed
  have hnew : welcomed.newReminder r = w.newReminder r := by
    rw [newReminder, newReminder, hcounter, hcount]
  have hcases := addReminder_cases env .base (w := welcomed) r
    fun l => htimers l ▸ hidle l
  obtain ⟨-, sessions, rfl, hperm⟩ := emplace_cases (w := notified) hok
  have heq : notified = _ := notifyUserToBeReady_eq welcomed r
  have hfinal : ∀ l, notified.loop l =
      (welcomed.modifyLoop (welcomed.connection r).loop (welcomed.addReminder env .base r)).loop l := by
    intro l
    rw [heq]
  rw [hnew] at hcases
  refine ⟨hconnects.wellFormed, hconnects.nextRef ▸ Nat.le_succ _, fun t ht hne => ?_,
    hconnects.session, ?_, ?_, ?_, fun t ht hne => ?_, hconnects.loop, fun l => ?_, fun l => ?_,
    fun l => ?_, fun l => ?_, ?_⟩
  · rw [hconnects.nextRef] at ht
    exact (Nat.lt_succ_iff_lt_or_eq.mp ht).resolve_right hne
  · rw [heq, ← hcounter]
    simp
  · rw [heq, ← hcounter]
  · rw [heq, ← hcount]
  · obtain ⟨entry, hentry, rfl⟩ := List.mem_map.mp ht
    exact List.mem_map_of_mem ((hconnects.sessions entry hentry).resolve_left hne)
  · rw [hfinal, ← htimers]
    exact (hcases l).1
  · rw [hfinal, ← htimers]
    exact (hcases l).2.1
  · rw [hfinal, ← htimers]
    exact (hcases l).2.2.1
  · obtain ⟨new, hnewTasks, hsends⟩ := htasks l
    obtain ⟨new', hnewTasks', hadds⟩ := (hcases l).2.2.2.1
    refine ⟨new ++ new', by rw [hfinal, hnewTasks', hnewTasks, List.append_assoc], fun task htask => ?_⟩
    exact (List.mem_append.mp htask).elim (fun hmem => Or.inl (hsends task hmem)) (hadds task)
  · rw [show (notified.connection r).loop = (welcomed.connection r).loop by rw [heq]; rfl, hfinal]
    exact (hcases _).2.2.2.2 rfl

end World

/-! ## Runs -/

namespace Process

open World

variable {env : Environment} {s s' : Process} {step : Step} {n : ℕ} {input : Input} {stage : Stage}
  {w : World} {r : Ref}

/-- The tasks that the thread of a loop has taken from the queue of the loop. -/
def taken (s : Process) : LoopId → List CustomTask
  | .base => []
  | .worker n => (s.stage n).remainingTasks

/-- The counter of the timer ids does not wrap around in the next step. -/
def FewTimers (s : Process) (_ : Step) : Prop :=
  s.world.timersConstructed + s.world.sessions.length + 1 < 2 ^ 64

instance (s : Process) (step : Step) : Decidable (s.FewTimers step) :=
  inferInstanceAs (Decidable (_ < _))

lemma taken_update (s : Process) (w : World) (n : ℕ) (stage : Stage) :
    taken { world := w, stage := Function.update s.stage n stage } =
      Function.update s.taken (.worker n) stage.remainingTasks := by
  funext l
  cases l with
  | base => rfl
  | worker m =>
    by_cases hm : m = n
    · subst hm
      simp [taken]
    · simp [taken, hm]

/-- A step of a worker thread. -/
theorem attended_work (hsound : Sound s) (h : Attended s.taken s.world)
    (hbound : s.world.timersConstructed + s.world.sessions.length < 2 ^ 64) (hwf : WellFormed w)
    (hwork : s.world.work env n input (s.stage n) = some (stage, w)) :
    Attended (Function.update s.taken (.worker n) stage.remainingTasks) w := by
  -- most steps neither take tasks from the queue nor execute them
  have hstay : ∀ {stage' : Stage}, stage'.remainingTasks = (s.stage n).remainingTasks →
      Attended s.taken w → Attended (Function.update s.taken (.worker n) stage'.remainingTasks) w := by
    intro stage' hsame hattended
    rwa [hsame, show (s.stage n).remainingTasks = s.taken (.worker n) from rfl,
      Function.update_eq_self]
  have hretains : Retains s.world w → Attended s.taken w := fun hw => h.retains hw hwf
  cases hstage : s.stage n with
  | timers =>
    rw [hstage] at hwork
    obtain ⟨rfl, rfl⟩ := Prod.mk.inj (Option.some.inj hwork)
    refine hstay (by rw [hstage]; rfl) (hretains (retains_checkAndDoTimers h.identified ?_ ?_ _))
    · exact fun t ht => ⟨h.owned _ t (Or.inl ht), hsound.entries _ t ht⟩
    · exact h.retired _
  | poll =>
    rw [hstage, work] at hwork
    split at hwork
    · obtain ⟨rfl, rfl⟩ := Prod.mk.inj (Option.some.inj hwork)
      refine hstay (by rw [hstage]; rfl) (hretains ?_)
      refine List.foldlRecOn (motive := Retains s.world) _ _ (.refl _) fun w₁ hw₁ event _ => ?_
      exact hw₁.trans (retains_setEndpoint (Endpoint.changes_enableReadWrite _ _ _ _))
    · cases hwork
  | dispatch batch =>
    rw [hstage] at hwork
    cases batch with
    | nil =>
      obtain ⟨rfl, rfl⟩ := Prod.mk.inj (Option.some.inj hwork)
      exact h.takeTasks (by rw [taken, hstage]; rfl)
    | cons r batch =>
      have hr := hsound.held n r (by rw [hstage]; exact List.mem_cons_self ..)
      have hreceive : s.world.receive n r batch input.recv = (stage, w) := Option.some.inj hwork
      unfold receive at hreceive
      split at hreceive
      · obtain ⟨rfl, rfl⟩ := Prod.mk.inj hreceive
        exact hstay (by rw [hstage]; rfl) h
      · split at hreceive
        · obtain ⟨rfl, rfl⟩ := Prod.mk.inj hreceive
          exact hstay (by rw [hstage]; rfl)
            (hretains (retains_onClose h.identified hr.1 hr.2.symm))
        · obtain ⟨rfl, rfl⟩ := Prod.mk.inj hreceive
          exact hstay (by rw [hstage]; rfl) h
        · obtain ⟨rfl, rfl⟩ := Prod.mk.inj hreceive
          exact hstay (by rw [hstage]; rfl)
            (hretains (retains_setEndpoint (Endpoint.changes_setRecvBuf _ _ _)))
  | reading r batch =>
    rw [hstage] at hwork
    have hr := hsound.held n r (by rw [hstage]; exact List.mem_cons_self ..)
    have hnone : stage.remainingTasks = [] := by
      rcases decode_cases hwork with ⟨rfl, -⟩ | ⟨rfl, -⟩ | ⟨_, _, rfl, -⟩ | ⟨_, _, _, rfl, -⟩ <;> rfl
    exact hstay (by rw [hstage, hnone]; rfl)
      (hretains (retains_decode h.identified hr.1 hr.2 hwork))
  | answered r batch =>
    rw [hstage] at hwork
    obtain ⟨w₁, hok, heq⟩ := TransitionSystem.exists_ok_of_toOption_map hwork
    obtain ⟨rfl, rfl⟩ := Prod.mk.inj heq
    exact hstay (by rw [hstage]; rfl) (hretains (retains_sendAll h.identified hok))
  | notified r batch =>
    rw [hstage] at hwork
    obtain ⟨w₁, hok, heq⟩ := TransitionSystem.exists_ok_of_toOption_map hwork
    obtain ⟨rfl, rfl⟩ := Prod.mk.inj heq
    exact hstay (by rw [hstage]; rfl) (h.resetDesk hsound.idle hbound hok)
  | closing r eof batch =>
    rw [hstage] at hwork
    cases eof with
    | true | false =>
      obtain ⟨rfl, rfl⟩ := Prod.mk.inj (Option.some.inj hwork)
      exact hstay (by rw [hstage]; rfl) h
  | writing r batch =>
    rw [hstage] at hwork
    obtain ⟨rfl, rfl⟩ := Prod.mk.inj (Option.some.inj hwork)
    exact hstay (by rw [hstage]; rfl) (hretains (retains_onWrite r))
  | tasks remaining =>
    rw [hstage] at hwork
    cases remaining with
    | nil =>
      obtain ⟨rfl, rfl⟩ := Prod.mk.inj (Option.some.inj hwork)
      exact hstay (by rw [hstage]; rfl) h
    | cons task rest =>
      obtain ⟨rfl, rfl⟩ := Prod.mk.inj (Option.some.inj hwork)
      have hfirst : s.taken (.worker n) = task :: rest := by rw [taken, hstage]; rfl
      have hmem : task ∈ (s.stage n).remainingTasks := by
        rw [hstage]
        exact List.mem_cons_self ..
      cases task with
      | send r buf =>
        have hlt := (hsound.remaining n _ hmem r rfl).1
        have hdropped := h.dropSend hfirst rfl
        exact hdropped.retains ((retains_log _).trans
          (retains_send (h.identified.log _) hlt buf)) hwf
      | addTimerInternal t => exact h.addTimerInternal (hsound.idle _) hfirst
      | removeTimerInternal id =>
        refine absurd (List.mem_append_left _ ?_) (h.removals (.worker n) id)
        rw [hfirst]
        exact List.mem_cons_self ..

/-- Every step of a thread leaves the idle sessions with their reminders. -/
theorem attended_next (hsound : Sound s) (h : Attended s.taken s.world) (hfew : FewTimers s step)
    (hstep : s.next env step = some s') : Attended s'.taken s'.world := by
  have hsound' := hsound.next hstep
  unfold FewTimers at hfew
  rcases next_cases hstep with ⟨fd, order, w, -, hok, rfl⟩ | ⟨w, -, hok, rfl⟩ |
    ⟨n, input, stage, w, -, -, hwork, rfl⟩
  · exact h.starts (starts_connect hsound.wellFormed hsound.idle hok) (by omega)
  · exact h.retains (retains_checkHandup h.identified hok) hsound'.wellFormed
  · rw [taken_update]
    exact attended_work hsound h (by omega) hsound'.wellFormed hwork

lemma attended_start (threadNum : ℕ) : Attended (taken (start threadNum)) (World.start threadNum) where
  identified := ⟨wellFormed_start threadNum, fun _ hr => absurd hr (Nat.not_lt_zero _),
    fun _ hr => absurd hr (Nat.not_lt_zero _)⟩
  counter := rfl
  owned l t ht := by
    rcases ht with hmem | hmem
    · cases hmem
    · cases l <;> cases hmem
  retired _ _ hid := by cases hid
  removals l id hid := by cases l <;> cases hid
  reminded _ hr := by cases hr

/-- **No idle player is forgotten.**  In every interleaving of the steps of the threads, where an id
is drawn in one step and the counter of the ids does not wrap around, each session that is
registered and idle has the reminder that it remembers the id of, registered with its loop or on the
way there. -/
theorem idle_reminded (h : (interleaved env).ReachableUnder FewTimers s)
    (hr : r ∈ s.world.sessions.map Prod.snd) (hidle : (s.world.session r).status = .IDLE) :
    HasReminder s.taken s.world r := by
  have hboth : Sound s ∧ Attended s.taken s.world := by
    refine h.invariant (P := fun s => Sound s ∧ Attended s.taken s.world) ?_ ?_
    · rintro s ⟨threadNum, -, rfl⟩
      exact ⟨sound_start threadNum, attended_start threadNum⟩
    · rintro s step s' ⟨hsound, hattended⟩ hfew hstep
      exact ⟨hsound.next hstep, attended_next hsound hattended hfew hstep⟩
  exact hboth.2.reminded r hr hidle

/-- The first of two players has won on its own thread; the reminder of the other one is in the
queue of the other loop. -/
theorem idle_reminded_of_loser :
    HasReminder (taken (runSteps calm (start 2) (hand ++ [goOn 0, goOn 0, goOn 0])))
      (runSteps calm (start 2) (hand ++ [goOn 0, goOn 0, goOn 0])).world 1 := by
  have hreach : (interleaved calm).ReachableUnder FewTimers
      (runSteps calm (start 2) (hand ++ [goOn 0, goOn 0, goOn 0])) :=
    reachableUnder_runSteps (.init ⟨2, by decide, rfl⟩) (by decide)
  exact idle_reminded hreach (by decide) (by decide)

end Process

end Calc24
