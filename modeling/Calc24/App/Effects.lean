import Calc24.App.Registry

/-!
# What the operations do

One lemma for each operation of the server, in terms of sends (`Touches`), resets (`Resets`) and
the few changes that an operation makes itself.  The invariants of the server are read off these
lemmas; no proof about a run unfolds the operations.

* `processPackage_cases`: a package leads to sends, or makes its sender ready, or, taken for a
  right answer, leads to sends and then to resets.
* `checkHandup_cases`: the deal does nothing, or puts ready sessions at a new desk.
* `touches_checkAndDoTimers`: a pass over the timers sends to sessions that have reminders.
* `wellFormed_emplace` and the lemmas before it: a new session is idle and enters the map once.
-/

namespace Calc24

namespace World

variable {env : Environment} {cur l : LoopId} {r t : Ref} {A B : Set Ref} {w w' w'' : World}

/-! ## Packages -/

/-- What a package leads to. -/
theorem processPackage_cases {package : Bytes} (h : w.processPackage env cur r package = .ok w') :
    (package ≠ answerCmd ∧ ¬ IsReadyCmd package ∧
      Touches ({t | t ∈ w.sessions.map Prod.snd} ∪ {r}) w w') ∨
    (IsReadyCmd package ∧ w' = w.modifySession r fun s => { s with status := .READY }) ∨
    (package = answerCmd ∧ ∃ w₁ w₂, w₁ = w.answer env cur r ∧ Touches {r} w w₁ ∧
      w₁.notifyOthers env cur r = .ok w₂ ∧ Touches Set.univ w₁ w₂ ∧
      w₂.resetDesk env cur r = .ok w') := by
  unfold processPackage at h
  split at h
  · obtain rfl : w = w' := by simpa using h
    exact Or.inl ⟨by decide, by decide, Touches.refl _ _⟩
  · next c rest =>
    split at h
    · next hc =>
      -- a chat message does not start with '!', so it is no command
      refine Or.inl ⟨?_, ?_, (touches_sendAll h).1.mono Set.subset_union_left⟩
      · rintro heq
        have hhead := congrArg List.head? heq
        exact hc (by simpa [answerCmd, ascii] using hhead)
      · intro hready
        have hhead := congrArg List.head? hready
        exact hc (by simpa [ascii] using hhead)
    · rw [processCmd] at h
      split at h
      · next hready =>
        exact Or.inr (Or.inl ⟨hready, by simpa using h.symm⟩)
      · next hready =>
        split at h
        · next hanswer =>
          refine Or.inr (Or.inr ⟨hanswer, w.answer env cur r, ?_⟩)
          cases hnotify : (w.answer env cur r).notifyOthers env cur r with
          | error f => rw [hnotify] at h; cases h
          | ok w₂ =>
            rw [hnotify] at h
            exact ⟨w₂, rfl, touches_sendMsg _ rfl, rfl,
              (touches_sendAll hnotify).1.mono (Set.subset_univ _), h⟩
        · next hanswer =>
          obtain rfl : w.sendMsg env cur r wrongAnswer = w' := by simpa using h
          exact Or.inl ⟨hanswer, hready, (touches_sendMsg (A := {r}) _ rfl).mono
            Set.subset_union_right⟩

/-! ## The deal -/

/-- The relation does not look at the fields of sessions, as long as they are the same. -/
lemma Touches.withSession (h : Touches A w w') (s : Ref → Calc24Session) :
    Touches A { w with session := s } { w' with session := s } where
  __ := h
  session := rfl

/-- What dealing at a desk can change: besides what sends can, the sessions that were ready. -/
structure Deals (deskID : Int64) (w w' : World) : Prop where
  touches : Touches {r | r ∈ w.sessions.map Prod.snd} w
    { w' with session := w.session, deskBaseId := w.deskBaseId }
  place : ∀ r, w'.session r = w.session r ∨
    (r ∈ w.sessions.map Prod.snd ∧ (w.session r).status = .READY ∧
      w'.session r = { w.session r with deskID := deskID, status := .IN_GAME })

/-- The cards of one more session. -/
lemma Deals.sendCards {deskID : Int64} {cards : Bytes} (h : Deals deskID w w')
    (hr : r ∈ w.sessions.map Prod.snd) (hready : (w'.session r).status = .READY) :
    Deals deskID w (w'.sendCards env cur r cards deskID) := by
  -- a session that has been dealt to is not ready any more
  have hself : w'.session r = w.session r := by
    rcases h.place r with hsame | ⟨-, -, hdealt⟩
    · exact hsame
    · rw [hdealt] at hready
      cases hready
  have hsend : Touches {r | r ∈ w.sessions.map Prod.snd} w'
      ((w'.sendMsg env cur r cards).log (.dealt r deskID)) :=
    (touches_sendMsg _ hr).trans (touches_log _)
  constructor
  · exact h.touches.trans { hsend.withSession w.session with deskBaseId := rfl }
  · intro t
    by_cases ht : t = r
    · subst ht
      refine Or.inr ⟨hr, hself ▸ hready, ?_⟩
      simp only [World.sendCards, modifySession, Function.update_self]
      rw [congrFun hsend.session t, hself]
    · have hother : (w'.sendCards env cur r cards deskID).session t = w'.session t := by
        simp only [World.sendCards, modifySession, Function.update_of_ne ht]
        exact congrFun hsend.session t
      rw [hother]
      exact h.place t

/-- What the deal does. -/
theorem checkHandup_cases (h : w.checkHandup env cur = .ok w') :
    (w.readySessionCount < REQUIRED_MIN_READY_COUNT ∧ w' = w) ∨
    (REQUIRED_MIN_READY_COUNT ≤ w.readySessionCount ∧ w'.sessions = w.sessions ∧
      w'.deskBaseId = w.deskBaseId + 1 ∧ Deals (w.deskBaseId + 1) w w') := by
  unfold checkHandup at h
  split at h
  · next hfew => exact Or.inl ⟨hfew, by simpa using h.symm⟩
  · next hmany =>
    refine Or.inr ⟨not_lt.mp hmany, ?_⟩
    have hrun := forEachSession_invariant (w := (w.generateCards env).2.2)
      (I := fun w₁ => w₁.deskBaseId = w.deskBaseId + 1 ∧ Deals (w.deskBaseId + 1) w w₁)
      ⟨rfl, { Touches.refl _ w with }, fun r => Or.inl rfl⟩ (fun r hr w₁ h₁ _ _ => by
        split
        · next hready =>
          have hsend : Touches {r} w₁ (w₁.sendMsg env cur r (w.generateCards env).1) :=
            touches_sendMsg _ rfl
          exact ⟨hsend.deskBaseId.trans h₁.1, h₁.2.sendCards hr hready⟩
        · exact h₁) h
    exact ⟨hrun.2, hrun.1.1, hrun.1.2⟩

/-! ## Timers -/

/-- The sessions whose reminder is among the timers of a loop. -/
def Reminded (w : World) (l : LoopId) : Set Ref :=
  {r | ∃ t ∈ (w.loop l).timers.entries, t.timerTask = .reminder r}

lemma Touches.setIsCheckTimers (h : Touches A w w') (l : LoopId) (value : Bool) :
    Touches A ((loopTimers l).modify (LoopTimers.setIsCheckTimers value) w)
      ((loopTimers l).modify (LoopTimers.setIsCheckTimers value) w') where
  __ := h
  entries l' := by
    by_cases hl : l' = l
    · subst hl
      simpa [loopTimers_modify, modifyLoop, LoopTimers.entries, LoopTimers.setIsCheckTimers]
        using h.entries l'
    · simpa [loopTimers_modify, modifyLoop, hl] using h.entries l'
  isCheckTimers l' := by
    by_cases hl : l' = l
    · subst hl
      simp [loopTimers_modify, modifyLoop, LoopTimers.setIsCheckTimers]
    · simpa [loopTimers_modify, modifyLoop, hl] using h.isCheckTimers l'
  tasks l' := by
    by_cases hl : l' = l
    · subst hl
      simpa [loopTimers_modify, modifyLoop] using h.tasks l'
    · simpa [loopTimers_modify, modifyLoop, hl] using h.tasks l'
  interest l' fd x := by
    by_cases hl : l' = l
    · subst hl
      simpa [loopTimers_modify, modifyLoop] using h.interest l' fd x
    · simpa [loopTimers_modify, modifyLoop, hl] using h.interest l' fd x

/-- A change of the timer members of a loop that makes no new entry. -/
lemma touches_modify_timers {f : LoopTimers TimerTask → LoopTimers TimerTask}
    (hentries : (f (w.loop l).timers).entries ⊆ (w.loop l).timers.entries)
    (hcheck : (f (w.loop l).timers).isCheckTimers = (w.loop l).timers.isCheckTimers) :
    Touches A w ((loopTimers l).modify f w) := by
  rw [loopTimers_modify]
  exact touches_modifyLoop hentries hcheck ⟨[], by simp⟩ fun _ _ => Or.inl

/-- Outside a pass the flag is off, so switching it on and off again changes nothing. -/
lemma setIsCheckTimers_setIsCheckTimers (hidle : (w.loop l).timers.isCheckTimers = false) :
    (loopTimers l).modify (LoopTimers.setIsCheckTimers false)
      ((loopTimers l).modify (LoopTimers.setIsCheckTimers true) w) = w := by
  have hloop : (w.loop l).timers.setIsCheckTimers false = (w.loop l).timers := by
    rw [LoopTimers.setIsCheckTimers, ← hidle]
  simp only [loopTimers_modify, modifyLoop, Function.update_self, Function.update_idem]
  have hsame : { w.loop l with
      timers := ((w.loop l).timers.setIsCheckTimers true).setIsCheckTimers false } = w.loop l :=
    congrArg (fun timers => { w.loop l with timers := timers }) hloop
  rw [hsame, Function.update_eq_self]

/-- The rule for a pass over the timers of a loop: it sends to the sessions whose reminders are
among them, and keeps what their callbacks keep and what does not depend on timers. -/
theorem checkAndDoTimers_rule {I : World → Prop} (nowMs : ℤ)
    (hidle : (w.loop l).timers.isCheckTimers = false) (hw : I w)
    (hmodify : ∀ f w₁, I w₁ → I ((loopTimers l).modify f w₁))
    (hcall : ∀ r ∈ w.Reminded l, ∀ timerID w₁, I w₁ → I (w₁.reminderCallback env l r timerID)) :
    Touches (w.Reminded l) w (w.checkAndDoTimers env l nowMs) ∧
      I (w.checkAndDoTimers env l nowMs) := by
  set started := (loopTimers l).modify (LoopTimers.setIsCheckTimers true) w with hstarted
  have hstop : ∀ w₁, Touches (w.Reminded l) started w₁ →
      Touches (w.Reminded l) w ((loopTimers l).modify (LoopTimers.setIsCheckTimers false) w₁) := by
    intro w₁ hw₁
    have h := hw₁.setIsCheckTimers l false
    rwa [hstarted, setIsCheckTimers_setIsCheckTimers hidle] at h
  have hstartedEntries : (started.loop l).timers.entries = (w.loop l).timers.entries := by
    simp [hstarted, loopTimers_modify, modifyLoop, LoopTimers.entries,
      LoopTimers.setIsCheckTimers]
  refine (loopTimers l).checkAndDoTimers_invariant
    (I := fun w₁ => Touches (w.Reminded l) w w₁ ∧ I w₁)
    (J := fun w₁ => Touches (w.Reminded l) started w₁ ∧ I w₁)
    ?_ ?_ ?_ ?_ ?_ ?_ w ⟨Touches.refl _ w, hw⟩
  · exact fun w₁ hw₁ => ⟨hw₁.1.setIsCheckTimers l true, hmodify _ _ hw₁.2⟩
  · intro i t w₁ hw₁ ht _
    have hmem : t ∈ (w.loop l).timers.entries := hstartedEntries ▸
      hw₁.1.entries l (List.mem_append_left _ (List.mem_of_getElem? ht))
    have hadvance := hw₁.1.trans (touches_modify_timers (l := l)
      (f := LoopTimers.advance t nowMs) (List.Subset.refl _) rfl)
    split
    next r hr =>
    exact ⟨hadvance.trans (touches_reminderCallback t.id ⟨t, hmem, hr⟩),
      hcall r ⟨t, hmem, hr⟩ t.id _ (hmodify _ _ hw₁.2)⟩
  · exact fun w₁ hw₁ => ⟨hstop w₁ hw₁.1, hmodify _ _ hw₁.2⟩
  · exact fun w₁ hw₁ => (hw₁.1.isCheckTimers l).trans hidle
  · exact fun timerID w₁ hw₁ => ⟨hw₁.1.trans (touches_modify_timers
      LoopTimers.entries_removeTimerInternal_subset LoopTimers.removeTimerInternal_isCheckTimers),
      hmodify _ _ hw₁.2⟩
  · intro spTimer w₁ hw₁ hmem
    refine ⟨hw₁.1.trans (touches_modify_timers (fun t ht => ?_)
      LoopTimers.addTimerInternal_isCheckTimers), hmodify _ _ hw₁.2⟩
    rcases LoopTimers.mem_entries_addTimerInternal.mp ht with ht | rfl
    · exact ht
    · exact List.mem_append_right _ hmem

/-- A pass over the timers of a loop sends to the sessions whose reminders are among them. -/
theorem touches_checkAndDoTimers (nowMs : ℤ) (hidle : (w.loop l).timers.isCheckTimers = false) :
    Touches (w.Reminded l) w (w.checkAndDoTimers env l nowMs) :=
  (checkAndDoTimers_rule (I := fun _ => True) nowMs hidle trivial (fun _ _ _ => trivial)
    fun _ _ _ _ _ => trivial).1

/-! ## Connecting -/

/-- Accepting a connection makes room for a session and changes no other. -/
lemma wellFormed_onAccept (h : WellFormed w) (fd : ℕ) : WellFormed (w.onAccept fd) :=
  h.of_eq (fun _ => rfl) rfl rfl (Nat.le_succ _)

/-- Accepting a connection touches no timers and queues no tasks. -/
lemma onAccept_loop (fd : ℕ) (w : World) (l : LoopId) :
    ((w.onAccept fd).loop l).timers = (w.loop l).timers ∧
      ((w.onAccept fd).loop l).customTasks = (w.loop l).customTasks := by
  simp only [onAccept, setEndpoint, modifyLoop, getNextEventLoop]
  by_cases hl : l = .worker w.lastEventLoopNo <;> simp [hl]

/-- Connections that exist already stay as they are. -/
lemma onAccept_connection (fd : ℕ) (h : t ≠ w.nextRef) :
    (w.onAccept fd).connection t = w.connection t := by
  simp [onAccept, setEndpoint, modifyLoop, getNextEventLoop, h]

/-- The new connection is open, and belongs to a worker loop. -/
lemma onAccept_connection_self (fd : ℕ) (w : World) :
    (w.onAccept fd).connection w.nextRef = { fd := fd, loop := .worker w.lastEventLoopNo } := by
  simp [onAccept, setEndpoint, modifyLoop, getNextEventLoop, endpoint, Endpoint.startRead]

/-- What `clearPending` changes. -/
structure Clears (w w' : World) : Prop where
  threadNum : w'.threadNum = w.threadNum
  session : w'.session = w.session
  sessions : w'.sessions = w.sessions
  connection : w'.connection = w.connection
  nextRef : w'.nextRef = w.nextRef
  deskBaseId : w'.deskBaseId = w.deskBaseId
  timerBaseId : w'.timerBaseId = w.timerBaseId
  timersConstructed : w'.timersConstructed = w.timersConstructed
  sessionBaseId : w'.sessionBaseId = w.sessionBaseId
  pending : w'.pendingToDeleteSessions = []
  timers : ∀ l, (w'.loop l).timers = (w.loop l).timers
  tasks : ∀ l, (w'.loop l).customTasks = (w.loop l).customTasks
  interest : ∀ l fd x, (w'.loop l).epoll.interest fd = some x →
    (w.loop l).epoll.interest fd = some x

/-- The pending sessions are released, the first one first, and nothing else is recorded. -/
lemma clearPending_trace (w : World) :
    w.clearPending.trace = (w.pendingToDeleteSessions.map Event.released).reverse ++ w.trace := by
  have hfold : ∀ (refs : List Ref) (w₁ : World),
      (refs.foldl (fun w r => (w.log (.released r)).modifyLoop (w.connection r).loop fun l =>
        { l with epoll := { l.epoll with
          interest := Function.update l.epoll.interest (w.connection r).fd none } }) w₁).trace =
        (refs.map Event.released).reverse ++ w₁.trace := by
    intro refs
    induction refs with
    | nil => exact fun _ => rfl
    | cons r refs ih =>
      intro w₁
      rw [List.foldl_cons, ih]
      simp [modifyLoop, log]
  exact hfold _ _

lemma clears_clearPending (w : World) : Clears w w.clearPending := by
  unfold clearPending
  refine List.foldlRecOn (motive := Clears w) _ _ ?_ ?_
  · exact ⟨rfl, rfl, rfl, rfl, rfl, rfl, rfl, rfl, rfl, rfl, fun _ => rfl, fun _ => rfl,
      fun _ _ _ => id⟩
  · intro w₁ hw₁ r _
    have hloop : ∀ l, ((w₁.log (.released r)).modifyLoop (w₁.connection r).loop fun l =>
        { l with epoll := { l.epoll with
          interest := Function.update l.epoll.interest (w₁.connection r).fd none } }).loop l =
        if l = (w₁.connection r).loop then { w₁.loop l with epoll := { (w₁.loop l).epoll with
          interest := Function.update (w₁.loop l).epoll.interest (w₁.connection r).fd none } }
        else w₁.loop l := by
      intro l
      by_cases hl : l = (w₁.connection r).loop
      · subst hl
        simp [modifyLoop, log]
      · simp [modifyLoop, log, hl]
    refine { hw₁ with timers := fun l => ?_, tasks := fun l => ?_, interest := fun l fd x hx => ?_ }
    · rw [hloop, ← hw₁.timers l]
      split <;> rfl
    · rw [hloop, ← hw₁.tasks l]
      split <;> rfl
    · refine hw₁.interest l fd x ?_
      rw [hloop] at hx
      split at hx
      · by_cases hfd : fd = (w₁.connection r).fd
        · simp [hfd] at hx
        · simpa [hfd] using hx
      · exact hx

lemma WellFormed.clears (h : WellFormed w) (hw : Clears w w') : WellFormed w' where
  id_eq entry hentry := by
    rw [hw.session]
    exact h.id_eq entry (hw.sessions ▸ hentry)
  keys_nodup := hw.sessions ▸ h.keys_nodup
  owned_nodup := by
    rw [owned, hw.sessions, hw.pending, List.append_nil]
    exact h.refs_nodup
  owned_lt r hr := by
    rw [owned, hw.sessions, hw.pending, List.append_nil] at hr
    rw [hw.nextRef]
    exact h.owned_lt r (List.mem_append_left _ hr)

/-- A session that is not held yet can be given its fields. -/
lemma WellFormed.constructSession (h : WellFormed w) (hr : r ∉ w.owned) :
    WellFormed (w.constructSession env r) where
  id_eq entry hentry := by
    have hne : entry.2 ≠ r := by
      rintro rfl
      exact hr (mem_owned_of_mem_sessions hentry)
    simpa [World.constructSession, hne] using h.id_eq entry hentry
  keys_nodup := h.keys_nodup
  owned_nodup := h.owned_nodup
  owned_lt := h.owned_lt

/-- What `emplace` does, if it does not drop the session. -/
lemma emplace_cases {order : List (Int32 × Ref)} (h : w.emplace r order = .ok w') :
    (w.session r).id ∉ w.sessions.map Prod.fst ∧ ∃ sessions, w' = { w with sessions := sessions } ∧
      sessions.Perm (((w.session r).id, r) :: w.sessions) := by
  unfold emplace at h
  split at h
  · cases h
  · next hfresh =>
    refine ⟨hfresh, ?_⟩
    split at h
    · next hperm => exact ⟨order, by simpa using h.symm, hperm⟩
    · exact ⟨_, by simpa using h.symm, List.Perm.refl _⟩

/-- A session that is not held yet can be stored. -/
lemma WellFormed.emplace {order : List (Int32 × Ref)} (h : WellFormed w) (hr : r ∉ w.owned)
    (hlt : r < w.nextRef) (hok : w.emplace r order = .ok w') : WellFormed w' := by
  obtain ⟨hfresh, sessions, rfl, hperm⟩ := emplace_cases hok
  have howned : (owned { w with sessions := sessions }).Perm (r :: w.owned) :=
    (hperm.map Prod.snd).append_right w.pendingToDeleteSessions
  constructor
  · intro entry hentry
    rcases List.mem_cons.mp (hperm.mem_iff.mp hentry) with rfl | hentry
    · rfl
    · exact h.id_eq entry hentry
  · rw [(hperm.map Prod.fst).nodup_iff]
    exact List.nodup_cons.mpr ⟨hfresh, h.keys_nodup⟩
  · rw [howned.nodup_iff]
    exact List.nodup_cons.mpr ⟨hr, h.owned_nodup⟩
  · intro t ht
    rcases List.mem_cons.mp (howned.mem_iff.mp ht) with rfl | ht
    · exact hlt
    · exact h.owned_lt t ht

end World

end Calc24
