import Calc24.App.ReminderRuns
import Calc24.App.Turns

/-!
# The timers that idle sessions rely on

`Retains w w'` says that no timer has been added between `w` and `w'`, and that none has been taken
out that an idle session relies on.  The timers that are taken out are those of sessions that have
closed, and those whose callback has found its session playing; and each id belongs to one session
(`Identified`, `Owned`).  All steps of the threads but those that start reminders are like this.
-/

namespace Calc24

namespace World

variable {env : Environment} {cur l : LoopId} {n : ℕ} {r t : Ref} {A : Set Ref} {batch : List Ref}
  {w w₁ w' w'' : World} {stage stage' : Stage} {input : Input} {msg buf : Bytes} {id : Int64}

/-- The id has been drawn. -/
def Drawn (w : World) (id : Int64) : Prop :=
  ∃ n ≤ w.timersConstructed, id = Int64.ofNat n

/-- The timer with the id can be taken out: no registered session that is idle relies on it. -/
def Spare (w : World) (id : Int64) : Prop :=
  w.Drawn id ∧ ∀ r ∈ w.sessions.map Prod.snd, (w.session r).status = .IDLE →
    (w.session r).timerID ≠ id

/-- No timers are added, and none is taken out that an idle session relies on. -/
structure Retains (w w' : World) : Prop where
  nextRef : w'.nextRef = w.nextRef
  counter : w'.timerBaseId = w.timerBaseId
  constructed : w'.timersConstructed = w.timersConstructed
  loop : ∀ r, (w'.connection r).loop = (w.connection r).loop
  timerID : ∀ r, (w'.session r).timerID = (w.session r).timerID
  idle : ∀ r, (w'.session r).status = .IDLE → (w.session r).status = .IDLE
  sessions : w'.sessions ⊆ w.sessions
  entries : ∀ l, (w'.loop l).timers.entries ⊆ (w.loop l).timers.entries
  kept : ∀ l, ∀ t ∈ (w.loop l).timers.timers,
    t ∈ (w'.loop l).timers.timers ∨ w'.Spare t.id
  pending : ∀ l, ∀ id ∈ (w'.loop l).timers.pendingRemoveTimers,
    id ∈ (w.loop l).timers.pendingRemoveTimers ∨ w'.Spare id
  tasks : ∀ l, ∃ new, (w'.loop l).customTasks = (w.loop l).customTasks ++ new ∧
    ∀ task ∈ new, IsSend task = true

/-- What can be spared once can be spared for good. -/
lemma Spare.retains (h : w.Spare id) (hw : Retains w w') : w'.Spare id := by
  obtain ⟨⟨n, hn, rfl⟩, hrelies⟩ := h
  refine ⟨⟨n, hn.trans hw.constructed.ge, rfl⟩, fun r hr hidle => ?_⟩
  obtain ⟨entry, hentry, rfl⟩ := List.mem_map.mp hr
  rw [hw.timerID]
  exact hrelies _ (List.mem_map_of_mem (hw.sessions hentry)) (hw.idle _ hidle)

/-- A timer that can be taken out can still be taken out when no session has become idle. -/
lemma Spare.touches (h : w.Spare id) (hw : Touches A w w') : w'.Spare id := by
  obtain ⟨⟨n, hn, rfl⟩, hrelies⟩ := h
  refine ⟨⟨n, hn.trans hw.timersConstructed.ge, rfl⟩, fun r hr hidle => ?_⟩
  rw [hw.session] at hidle ⊢
  exact hrelies r ((hw.sessions.map Prod.snd).subset hr) hidle

namespace Retains

lemma refl (w : World) : Retains w w where
  nextRef := rfl
  counter := rfl
  constructed := rfl
  loop _ := rfl
  timerID _ := rfl
  idle _ := id
  sessions := List.Subset.refl _
  entries _ := List.Subset.refl _
  kept _ _ := Or.inl
  pending _ _ := Or.inl
  tasks _ := ⟨[], (List.append_nil _).symm, by simp⟩

lemma trans (h : Retains w w') (h' : Retains w' w'') : Retains w w'' where
  nextRef := h'.nextRef.trans h.nextRef
  counter := h'.counter.trans h.counter
  constructed := h'.constructed.trans h.constructed
  loop r := (h'.loop r).trans (h.loop r)
  timerID r := (h'.timerID r).trans (h.timerID r)
  idle r hr := h.idle r (h'.idle r hr)
  sessions := List.Subset.trans h'.sessions h.sessions
  entries l := List.Subset.trans (h'.entries l) (h.entries l)
  kept l t ht := by
    rcases h.kept l t ht with hkept | hspare
    · exact h'.kept l t hkept
    · exact Or.inr (hspare.retains h')
  pending l id hid := by
    rcases h'.pending l id hid with hold | hspare
    · exact (h.pending l id hold).imp_right fun hspare => hspare.retains h'
    · exact Or.inr hspare
  tasks l := by
    obtain ⟨new, heq, hnew⟩ := h.tasks l
    obtain ⟨new', heq', hnew'⟩ := h'.tasks l
    refine ⟨new ++ new', by rw [heq', heq, List.append_assoc], fun task htask => ?_⟩
    exact (List.mem_append.mp htask).elim (hnew task) (hnew' task)

/-- Calls that touch sessions and take out spare timers, at most. -/
lemma of_touches (h : Touches A w w')
    (htimers : ∀ l, (w'.loop l).timers = (w.loop l).timers ∨
      ∃ id, w'.Spare id ∧ (w'.loop l).timers = (w.loop l).timers.removeTimerInternal id)
    (htasks : ∀ l, ∃ new, (w'.loop l).customTasks = (w.loop l).customTasks ++ new ∧
      ∀ task ∈ new, IsSend task = true) : Retains w w' where
  nextRef := h.nextRef
  counter := h.timerBaseId
  constructed := h.timersConstructed
  loop := h.loop
  timerID r := by rw [h.session]
  idle r hr := by rwa [h.session] at hr
  sessions := h.sessions.subset
  entries := h.entries
  kept l t ht := by
    rcases htimers l with heq | ⟨id, hspare, heq⟩
    · exact Or.inl (by rwa [heq])
    · by_cases hid : t.id = id
      · exact Or.inr (hid ▸ hspare)
      · refine Or.inl ?_
        rw [heq]
        unfold LoopTimers.removeTimerInternal
        split
        · exact ht
        · exact (List.mem_eraseP_of_neg (by simpa using hid)).mpr ht
  pending l id hid := by
    rcases htimers l with heq | ⟨id', hspare, heq⟩
    · exact Or.inl (by rwa [heq] at hid)
    · rw [heq] at hid
      unfold LoopTimers.removeTimerInternal at hid
      split at hid
      · rcases List.mem_append.mp hid with hold | hnew
        · exact Or.inl hold
        · exact Or.inr (List.mem_singleton.mp hnew ▸ hspare)
      · exact Or.inl hid
  tasks := htasks

/-- Nothing happens to the timers and tasks. -/
lemma of_loop (h : Touches A w w') (htimers : ∀ l, (w'.loop l).timers = (w.loop l).timers)
    (htasks : ∀ l, (w'.loop l).customTasks = (w.loop l).customTasks) : Retains w w' :=
  of_touches h (fun l => Or.inl (htimers l))
    fun l => ⟨[], by rw [htasks, List.append_nil], by simp⟩

end Retains

/-! ## Whose timer is whose -/

/-- The sessions that have been constructed have timers of their own. -/
structure Identified (w : World) : Prop where
  wellFormed : WellFormed w
  drawn : ∀ r < w.nextRef, w.Drawn (w.session r).timerID
  distinct : ∀ r < w.nextRef, ∀ t < w.nextRef,
    (w.session r).timerID = (w.session t).timerID → r = t

/-- The timers of the sessions stay their own. -/
lemma Identified.retains (h : Identified w) (hw : Retains w w') (hwf : WellFormed w') :
    Identified w' where
  wellFormed := hwf
  drawn r hr := by
    rw [hw.nextRef] at hr
    obtain ⟨n, hn, heq⟩ := h.drawn r hr
    exact ⟨n, hn.trans hw.constructed.ge, (hw.timerID r).trans heq⟩
  distinct r hr t ht heq := by
    rw [hw.nextRef] at hr ht
    rw [hw.timerID, hw.timerID] at heq
    exact h.distinct r hr t ht heq

/-- The sessions in the map have been constructed. -/
lemma Identified.lt (h : Identified w) (hr : r ∈ w.sessions.map Prod.snd) : r < w.nextRef :=
  h.wellFormed.owned_lt r (List.mem_append_left _ hr)

/-- The timer of a session can be spared once the session has left the map. -/
lemma Identified.spare (h : Identified w) (hr : r < w.nextRef)
    (hgone : r ∉ w.sessions.map Prod.snd) : w.Spare (w.session r).timerID := by
  refine ⟨h.drawn r hr, fun t ht _ heq => hgone ?_⟩
  rwa [h.distinct r hr t (h.lt ht) heq.symm]

/-! ## Sends and closes -/

/-- A flush retains all timers. -/
lemma retains_flushes (h : Flushes r w w') : Retains w w' :=
  .of_loop (h.touches (A := {r}) rfl) (fun l => (h.timers l).1) fun l => (h.timers l).2

/-- A change of one connection retains all timers. -/
lemma retains_setEndpoint {p : Endpoint Dispatcher}
    (h : Endpoint.Changes (.connection r) (w.endpoint r) p) : Retains w (w.setEndpoint r p) :=
  .of_loop (touches_setEndpoint (A := {r}) rfl h) (fun l => (setEndpoint_loop r p w l).1)
    fun l => (setEndpoint_loop r p w l).2

/-- `onWrite` retains all timers. -/
lemma retains_onWrite (r : Ref) : Retains w (w.onWrite env r) := by
  have hset : Retains w (w.setEndpoint r
      ((w.endpoint r).onWrite (.connection r) (env.send w.flushes))) :=
    retains_setEndpoint (Endpoint.changes_onWrite _ _ _)
  exact { hset with }

/-- A close on the session's own loop takes out the session's timer. -/
lemma retains_onClose (h : Identified w) (hr : r < w.nextRef) (hcur : cur = (w.connection r).loop) :
    Retains w (w.onClose cur r) := by
  have htouches : Touches {r} w (w.onClose cur r) := touches_onClose rfl
  have hafter : Identified (w.onClose cur r) := by
    refine ⟨h.wellFormed.touches htouches, fun t ht => ?_, fun t ht t' ht' heq => ?_⟩
    · rw [htouches.nextRef] at ht
      rw [htouches.session, Drawn, htouches.timersConstructed]
      exact h.drawn t ht
    · rw [htouches.nextRef] at ht ht'
      rw [htouches.session] at heq
      exact h.distinct t ht t' ht' heq
  refine .of_touches htouches (fun l => ?_) fun l => ⟨[], ?_, by simp⟩
  · rw [onClose_timers]
    split
    · refine Or.inr ⟨_, ?_, rfl⟩
      have hspare := hafter.spare (htouches.nextRef ▸ hr) h.wellFormed.not_mem_onClose
      rwa [htouches.session] at hspare
    · exact Or.inl rfl
  · rw [onClose_customTasks hcur, List.append_nil]

/-- A send takes out the timer of its session at most, and then the session is not in the map. -/
lemma retains_send (h : Identified w) (hr : r < w.nextRef) (buf : Bytes) :
    Retains w (w.send env cur r buf) := by
  rcases send_cases env cur r buf w with ⟨-, hqueued⟩ | ⟨-, -, hflushes⟩ | ⟨hcur, -, w₁, hflushes, hclose⟩
  · rw [hqueued]
    have htouches : Touches {r} w
        (w.modifyLoop (w.connection r).loop (EventLoop.addTask (.send r buf))) :=
      touches_modifyLoop (List.Subset.refl _) rfl ⟨[.send r buf], rfl, by simp⟩ fun _ _ => Or.inl
    refine .of_touches htouches (fun l => Or.inl ?_) fun l => ?_
    · by_cases hl : l = (w.connection r).loop
      · subst hl
        simp [modifyLoop, EventLoop.addTask]
      · simp [modifyLoop, hl]
    · by_cases hl : l = (w.connection r).loop
      · subst hl
        exact ⟨[.send r buf], by simp [modifyLoop, EventLoop.addTask], by simp [IsSend]⟩
      · exact ⟨[], by simp [modifyLoop, hl], by simp⟩
  · exact retains_flushes hflushes
  · rw [hclose]
    have hflushed := retains_flushes hflushes
    have hwf := h.wellFormed.touches (hflushes.touches (A := {r}) rfl)
    refine hflushed.trans (retains_onClose (h.retains hflushed hwf) ?_ ?_)
    · rwa [hflushed.nextRef]
    · rwa [hflushed.loop]

lemma retains_log (e : Event) : Retains w (w.log e) :=
  .of_loop (touches_log (A := ∅) e) (fun _ => rfl) fun _ => rfl

lemma Identified.log (h : Identified w) (e : Event) : Identified (w.log e) :=
  h.retains (retains_log e) (h.wellFormed.touches (touches_log (A := ∅) e))

/-- A message takes out no timer that an idle session relies on. -/
lemma retains_sendMsg (h : Identified w) (hr : r < w.nextRef) (msg : Bytes) :
    Retains w (w.sendMsg env cur r msg) :=
  (retains_log _).trans (retains_send (h.log _) hr msg)

/-- A message leaves the timers of the sessions their own. -/
lemma Identified.sendMsg (h : Identified w) (hr : r < w.nextRef) (msg : Bytes) :
    Identified (w.sendMsg env cur r msg) :=
  h.retains (retains_sendMsg h hr msg)
    (h.wellFormed.touches (touches_sendMsg (A := {r}) msg rfl))

/-- A broadcast takes out no timer that an idle session relies on. -/
lemma retains_sendAll (h : Identified w) {includeSelf : Bool} {id : Int32} {status : SessionStatus}
    {deskID : Int64} (hok : w.sendAll env cur msg includeSelf id status deskID = .ok w') :
    Retains w w' := by
  refine (sendAll_invariant (I := fun w₁ => Retains w w₁ ∧ Identified w₁) ⟨.refl w, h⟩ ?_ hok).1.1
  rintro r hr w₁ ⟨hretains, hidentified⟩ - -
  have hlt : r < w₁.nextRef := by
    rw [hretains.nextRef]
    exact h.lt hr
  exact ⟨hretains.trans (retains_sendMsg hidentified hlt msg), hidentified.sendMsg hlt msg⟩

/-- A session that does not become idle. -/
lemma retains_modifySession {f : Calc24Session → Calc24Session}
    (htimer : ∀ s, (f s).timerID = s.timerID) (hidle : ∀ s, (f s).status ≠ .IDLE) :
    Retains w (w.modifySession r f) where
  __ := Retains.refl w
  timerID t := by
    by_cases ht : t = r
    · subst ht
      simpa [modifySession] using htimer _
    · simp [modifySession, ht]
  idle t ht := by
    by_cases htr : t = r
    · subst htr
      exact absurd (by simpa [modifySession] using ht) (hidle (w.session t))
    · simpa [modifySession, htr] using ht
  kept _ _ := Or.inl
  pending _ _ := Or.inl

/-- A session that gets ready or starts to play keeps its timer. -/
lemma Identified.modifySession (h : Identified w) {f : Calc24Session → Calc24Session}
    (hid : ∀ s, (f s).id = s.id) (htimer : ∀ s, (f s).timerID = s.timerID)
    (hidle : ∀ s, (f s).status ≠ .IDLE) : Identified (w.modifySession r f) := by
  refine h.retains (retains_modifySession htimer hidle)
    (h.wellFormed.of_eq (fun t => ?_) rfl rfl (le_refl _))
  by_cases ht : t = r
  · subst ht
    simpa [World.modifySession] using hid _
  · simp [World.modifySession, ht]

/-- The cards take out no timer that an idle session relies on, and leave the timers of the sessions
their own. -/
lemma retains_sendCards (h : Identified w) (hr : r < w.nextRef) (cards : Bytes) (deskID : Int64) :
    Retains w (w.sendCards env cur r cards deskID) ∧
      Identified (w.sendCards env cur r cards deskID) := by
  have hsent : Retains w ((w.sendMsg env cur r cards).log (.dealt r deskID)) :=
    (retains_sendMsg h hr cards).trans (retains_log _)
  have hidentified : Identified ((w.sendMsg env cur r cards).log (.dealt r deskID)) :=
    (h.sendMsg hr cards).log _
  exact ⟨hsent.trans (retains_modifySession (r := r)
      (f := fun s => { s with deskID := deskID, status := .IN_GAME }) (fun _ => rfl) (by simp)),
    hidentified.modifySession (r := r)
      (f := fun s => { s with deskID := deskID, status := .IN_GAME }) (fun _ => rfl) (fun _ => rfl)
      (by simp)⟩

/-- The deal. -/
lemma retains_checkHandup (h : Identified w) (hok : w.checkHandup env cur = .ok w') :
    Retains w w' := by
  unfold checkHandup at hok
  split at hok
  · obtain rfl : w = w' := Except.ok.inj hok
    exact .refl w
  · have hgenerated : Retains w (w.generateCards env).2.2 :=
      { Retains.refl w with kept := fun _ _ => Or.inl, pending := fun _ _ => Or.inl }
    refine (forEachSession_invariant (w := (w.generateCards env).2.2)
      (I := fun w₁ => Retains w w₁ ∧ Identified w₁) ⟨hgenerated, h.retains hgenerated
        (h.wellFormed.of_eq (fun _ => rfl) rfl rfl (le_refl _))⟩ ?_ hok).1.1
    rintro r hr w₁ ⟨hretains, hidentified⟩ - -
    split
    · have hlt : r < w₁.nextRef := by
        rw [hretains.nextRef]
        exact h.lt hr
      obtain ⟨hcards, hidentified'⟩ := retains_sendCards hidentified hlt _ _
      exact ⟨hretains.trans hcards, hidentified'⟩
    · exact ⟨hretains, hidentified⟩

/-- A package other than an answer. -/
lemma retains_processPackage (h : Identified w) (hr : r < w.nextRef) {package : Bytes}
    (hanswer : package ≠ answerCmd) (hok : w.processPackage env cur r package = .ok w') :
    Retains w w' := by
  unfold processPackage at hok
  split at hok
  · obtain rfl : w = w' := Except.ok.inj hok
    exact .refl w
  · split at hok
    · exact retains_sendAll h hok
    · rw [processCmd, if_neg hanswer] at hok
      split at hok
      · obtain rfl := Except.ok.inj hok
        exact retains_modifySession (fun _ => rfl) (by simp)
      · obtain rfl := Except.ok.inj hok
        exact retains_sendMsg h hr _

/-! ## A pass over the timers -/

/-- The timers that a loop has, or will have, are those of the sessions that they remind. -/
def Owned (w : World) (t : Timer TimerTask) : Prop :=
  w.Drawn t.id ∧ ∀ r < w.nextRef, t.id = (w.session r).timerID → t.timerTask = .reminder r

/-- A timer stays that of its session. -/
lemma Owned.retains {t : Timer TimerTask} (h : w.Owned t) (hw : Retains w w') : w'.Owned t := by
  obtain ⟨⟨n, hn, heq⟩, howner⟩ := h
  refine ⟨⟨n, hn.trans hw.constructed.ge, heq⟩, fun r hr hid => ?_⟩
  rw [hw.nextRef] at hr
  rw [hw.timerID] at hid
  exact howner r hr hid

/-- The callback of a reminder. -/
lemma retains_reminderCallback (h : Identified w) (hr : r < w.nextRef)
    (hcur : cur = (w.connection r).loop) {t : Timer TimerTask} (ht : t.timerTask = .reminder r)
    (howned : w.Owned t) : Retains w (w.reminderCallback env cur r t.id) ∧
      Identified (w.reminderCallback env cur r t.id) := by
  unfold reminderCallback
  dsimp only
  split
  · exact ⟨(retains_log _).trans (retains_sendMsg (h.log _) hr _), (h.log _).sendMsg hr _⟩
  · next hplaying =>
    have htouches : Touches ∅ (w.log (.reminder r t.id))
        ((w.log (.reminder r t.id)).removeTimer cur (w.connection r).loop t.id) :=
      touches_removeTimer t.id
    -- the session that the timer reminds is not idle, and no other session relies on it
    have hspare : ((w.log (.reminder r t.id)).removeTimer cur (w.connection r).loop t.id).Spare
        t.id := by
      obtain ⟨⟨n, hn, heq⟩, howner⟩ := howned
      refine ⟨⟨n, hn.trans htouches.timersConstructed.ge, heq⟩, fun t' ht' hidle hid => ?_⟩
      obtain ⟨entry, hentry, rfl⟩ := List.mem_map.mp ht'
      have hmem := htouches.sessions.subset hentry
      rw [htouches.session] at hidle hid
      have hreminds := howner entry.2 (h.lt (List.mem_map_of_mem hmem)) hid.symm
      obtain rfl : entry.2 = r := by simpa using hreminds.symm.trans ht
      exact hplaying hidle
    have hremoval : Retains (w.log (.reminder r t.id))
        ((w.log (.reminder r t.id)).removeTimer cur (w.connection r).loop t.id) := by
      refine .of_touches htouches (fun l => ?_) fun l => ⟨[], ?_, by simp⟩
      · rw [removeTimer_timers]
        split
        · exact Or.inr ⟨_, hspare, rfl⟩
        · exact Or.inl rfl
      · rw [removeTimer, if_pos hcur, loopTimers_modify]
        by_cases hl : l = (w.connection r).loop <;> simp [modifyLoop, hl]
    exact ⟨(retains_log _).trans hremoval,
      (h.log _).retains hremoval ((h.log _).wellFormed.touches htouches)⟩

/-- A change of the timer members of a loop that leaves the timers alone. -/
lemma retains_modify_timers {f : LoopTimers TimerTask → LoopTimers TimerTask}
    (htimers : (f (w.loop l).timers).timers = (w.loop l).timers.timers)
    (hadd : (f (w.loop l).timers).pendingAddTimers = (w.loop l).timers.pendingAddTimers)
    (hremove : (f (w.loop l).timers).pendingRemoveTimers = (w.loop l).timers.pendingRemoveTimers) :
    Retains w ((loopTimers l).modify f w) := by
  have hloop : ∀ l', (((loopTimers l).modify f w).loop l').timers.timers =
        (w.loop l').timers.timers ∧
      (((loopTimers l).modify f w).loop l').timers.pendingAddTimers =
        (w.loop l').timers.pendingAddTimers ∧
      (((loopTimers l).modify f w).loop l').timers.pendingRemoveTimers =
        (w.loop l').timers.pendingRemoveTimers ∧
      (((loopTimers l).modify f w).loop l').customTasks = (w.loop l').customTasks := by
    intro l'
    by_cases hl : l' = l
    · subst hl
      simp [loopTimers_modify, modifyLoop, htimers, hadd, hremove]
    · simp [loopTimers_modify, modifyLoop, hl]
  refine { Retains.refl w with
    entries := fun l' => ?_, kept := fun l' t ht => Or.inl ?_, pending := fun l' id hid => Or.inl ?_,
    tasks := fun l' => ⟨[], ?_, by simp⟩ }
  · rw [LoopTimers.entries, (hloop l').1, (hloop l').2.1]
    exact List.Subset.refl _
  · rwa [(hloop l').1]
  · rwa [(hloop l').2.2.1] at hid
  · rw [(hloop l').2.2.2, List.append_nil]

/-- A change of the timers of a loop leaves the timers of the sessions their own. -/
lemma Identified.modify_timers (h : Identified w) {f : LoopTimers TimerTask → LoopTimers TimerTask}
    (hw : Retains w ((loopTimers l).modify f w)) : Identified ((loopTimers l).modify f w) :=
  h.retains hw (h.wellFormed.of_eq (fun _ => rfl) rfl rfl (le_refl _))

/-- A timer whose id is not among those to be removed stays. -/
lemma mem_removeAll {removals : List Int64} {timers : List (Timer TimerTask)} {t : Timer TimerTask}
    (ht : t ∈ timers) (hid : t.id ∉ removals) : t ∈ LoopTimers.removeAll removals timers := by
  induction removals generalizing timers with
  | nil => exact ht
  | cons timerID removals ih =>
    obtain ⟨hne, hrest⟩ : t.id ≠ timerID ∧ t.id ∉ removals := by simpa using hid
    exact ih ((List.mem_eraseP_of_neg (by simpa using hne)).mpr ht) hrest

/-- Applying the pending lists queues nothing. -/
lemma replayPending_customTasks (hidle : (w.loop l).timers.isCheckTimers = false) (l' : LoopId) :
    (((loopTimers l).replayPending w).loop l').customTasks = (w.loop l').customTasks := by
  have hmodify : ∀ (f : LoopTimers TimerTask → LoopTimers TimerTask) (w₁ : World),
      (((loopTimers l).modify f w₁).loop l').customTasks = (w₁.loop l').customTasks := by
    intro f w₁
    rw [loopTimers_modify]
    by_cases hl : l' = l <;> simp [modifyLoop, hl]
  refine ((loopTimers l).replayPending_invariant
    (I := fun w₁ => (w₁.loop l).timers.isCheckTimers = false ∧
      (w₁.loop l').customTasks = (w.loop l').customTasks)
    (fun w₁ hw₁ => hw₁.1) (fun timerID w₁ hw₁ => ?_) (fun spTimer w₁ hw₁ _ => ?_) w ⟨hidle, rfl⟩).2
  · refine ⟨?_, (hmodify _ _).trans hw₁.2⟩
    simpa [loopTimers_modify, modifyLoop] using hw₁.1
  · refine ⟨?_, (hmodify _ _).trans hw₁.2⟩
    simpa [loopTimers_modify, modifyLoop] using hw₁.1

/-- At the end of a pass the timers that nobody relies on go. -/
lemma retains_replayPending (hidle : (w.loop l).timers.isCheckTimers = false)
    (hspare : ∀ id ∈ (w.loop l).timers.pendingRemoveTimers, w.Spare id) :
    Retains w ((loopTimers l).replayPending w) := by
  obtain ⟨htouches, hother⟩ := touches_replayPending hidle
  have hself := (loopTimers l).get_replayPending w hidle
  simp only [loopTimers_get] at hself
  refine ⟨htouches.nextRef, htouches.timerBaseId, htouches.timersConstructed, htouches.loop,
    fun r => by rw [htouches.session], fun r hr => by rwa [htouches.session] at hr,
    htouches.sessions.subset, htouches.entries, fun l' t ht => ?_, fun l' id hid => Or.inl ?_,
    fun l' => ⟨[], ?_, by simp⟩⟩
  · by_cases hl : l' = l
    · subst hl
      rw [hself]
      by_cases hid : t.id ∈ (w.loop l').timers.pendingRemoveTimers
      · exact Or.inr ((hspare t.id hid).touches htouches)
      · exact Or.inl (List.mem_append_left _ (mem_removeAll ht hid))
    · rw [hother l' hl]
      exact Or.inl ht
  · by_cases hl : l' = l
    · subst hl
      rwa [hself] at hid
    · rwa [hother l' hl] at hid
  · rw [replayPending_customTasks hidle, List.append_nil]

/-- The end of a pass carries out the removals that were put off, none of which an idle session
relies on. -/
lemma retains_endPass (hretains : Retains w w₁)
    (hspare : ∀ id ∈ (w.loop l).timers.pendingRemoveTimers, w.Spare id) :
    Retains w ((loopTimers l).replayPending
      ((loopTimers l).modify (LoopTimers.setIsCheckTimers false) w₁)) := by
  have hstop : Retains w ((loopTimers l).modify (LoopTimers.setIsCheckTimers false) w₁) :=
    hretains.trans (retains_modify_timers rfl rfl rfl)
  refine hstop.trans (retains_replayPending ?_ fun id hid => ?_)
  · simp [loopTimers_modify, modifyLoop, LoopTimers.setIsCheckTimers]
  · rcases hstop.pending l id hid with hold | hnew
    · exact (hspare id hold).retains hstop
    · exact hnew

/-- A pass over the timers. -/
theorem retains_checkAndDoTimers (h : Identified w)
    (howned : ∀ t ∈ (w.loop l).timers.entries, w.Owned t ∧ ∀ r, t.timerTask = .reminder r →
      r < w.nextRef ∧ (w.connection r).loop = l)
    (hspare : ∀ id ∈ (w.loop l).timers.pendingRemoveTimers, w.Spare id) (nowMs : ℤ) :
    Retains w (w.checkAndDoTimers env l nowMs) := by
  have hstart : Retains w ((loopTimers l).modify (LoopTimers.setIsCheckTimers true) w) :=
    retains_modify_timers rfl rfl rfl
  refine retains_endPass ((loopTimers l).visit_invariant
    (I := fun w₁ => Retains w w₁ ∧ Identified w₁) ?_ _ _ _ ⟨hstart, h.modify_timers hstart⟩).1 hspare
  rintro i t w₁ ⟨hretains, hidentified⟩ ht -
  have hadvance : Retains w₁ ((loopTimers l).modify (LoopTimers.advance t nowMs) w₁) :=
    retains_modify_timers rfl rfl rfl
  have hmem : t ∈ (w.loop l).timers.entries :=
    hretains.entries l (List.mem_append_left _ (List.mem_of_getElem? ht))
  obtain ⟨howner, hplace⟩ := howned t hmem
  split
  next r hreminds =>
  obtain ⟨hlt, hloop⟩ := hplace r hreminds
  have hboth := hretains.trans hadvance
  have hlt' : r < ((loopTimers l).modify (LoopTimers.advance t nowMs) w₁).nextRef := by
    rwa [hboth.nextRef]
  have hloop' : l = (((loopTimers l).modify (LoopTimers.advance t nowMs) w₁).connection r).loop := by
    rw [hboth.loop, hloop]
  obtain ⟨hcall, hidentified'⟩ := retains_reminderCallback (hidentified.modify_timers hadvance)
    hlt' hloop' hreminds (howner.retains hboth)
  exact ⟨hboth.trans hcall, hidentified'⟩

/-! ## The steps of a thread that start no reminder -/

/-- A round of `Calc24Session::onRead`. -/
lemma retains_decode (h : Identified w) (hr : r < w.nextRef)
    (hloop : (w.connection r).loop = .worker n)
    (hdecode : w.decode env n r batch = some (stage', w')) : Retains w w' := by
  have hreceived : ∀ recvBuf : ByteBuffer, Retains w (w.setRecvBuf r recvBuf) ∧
      Identified (w.setRecvBuf r recvBuf) := by
    intro recvBuf
    have hset := retains_setEndpoint (Endpoint.changes_setRecvBuf (.connection r) (w.endpoint r) recvBuf)
    exact ⟨hset, h.retains hset (h.wellFormed.of_eq (fun _ => rfl) rfl rfl (le_refl _))⟩
  rcases decode_cases hdecode with ⟨-, heq⟩ | ⟨-, rfl⟩ | ⟨recvBuf, -, -, rfl⟩ |
    ⟨recvBuf, package, hanswer, -, hok⟩
  · exact heq ▸ .refl w
  · exact retains_onClose h hr hloop.symm
  · obtain ⟨hset, hidentified⟩ := hreceived recvBuf
    exact hset.trans (retains_sendMsg hidentified (hset.nextRef ▸ hr) rightAnswer)
  · obtain ⟨hset, hidentified⟩ := hreceived recvBuf
    exact hset.trans (retains_processPackage hidentified (hset.nextRef ▸ hr) hanswer hok)

end World

end Calc24
