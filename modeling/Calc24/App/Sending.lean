import Calc24.App.Server

/-!
# What sending can do

A send is queued, or it goes to the kernel at once; and then the kernel may refuse it, which closes
the connection, removes the reminder timer of the session and takes the session out of the map.
`Touches A w w'` says all that sends to the sessions in `A`, and closes of them, can change
between `w` and `w'`: no field of a session, no counter, no connection outside `A`; entries only
leave `m_sessions`, towards the pending list; timers only disappear; tasks only join the queues.

Nearly every function of the server is a sequence of such sends with few changes of its own, and
the invariants of the server are proved from this relation.
-/

namespace Calc24

namespace World

variable {env : Environment} {cur l : LoopId} {r t : Ref} {A B : Set Ref} {w w' w'' : World}

/-- The sessions that the server holds, those that wait to be destroyed included. -/
def owned (w : World) : List Ref :=
  w.sessions.map Prod.snd ++ w.pendingToDeleteSessions

/-- What sends to the sessions in `A`, and closes of them, can change. -/
structure Touches (A : Set Ref) (w w' : World) : Prop where
  threadNum : w'.threadNum = w.threadNum
  session : w'.session = w.session
  sessions : w'.sessions.Sublist w.sessions
  owned : w'.owned.Perm w.owned
  nextRef : w'.nextRef = w.nextRef
  deskBaseId : w'.deskBaseId = w.deskBaseId
  timerBaseId : w'.timerBaseId = w.timerBaseId
  timersConstructed : w'.timersConstructed = w.timersConstructed
  fd : ∀ r, (w'.connection r).fd = (w.connection r).fd
  loop : ∀ r, (w'.connection r).loop = (w.connection r).loop
  closed : ∀ r, (w.connection r).closed = true → (w'.connection r).closed = true
  connection : ∀ r ∉ A, w'.connection r = w.connection r
  entries : ∀ l, (w'.loop l).timers.entries ⊆ (w.loop l).timers.entries
  isCheckTimers : ∀ l, (w'.loop l).timers.isCheckTimers = (w.loop l).timers.isCheckTimers
  tasks : ∀ l, ∃ new, (w'.loop l).customTasks = (w.loop l).customTasks ++ new ∧
    ∀ task ∈ new, (∃ timerID, task = .removeTimerInternal timerID) ∨
      ∃ r ∈ A, l = (w.connection r).loop ∧ ∃ buf, task = .send r buf
  interest : ∀ l fd x, (w'.loop l).epoll.interest fd = some x →
    (w.loop l).epoll.interest fd = some x ∨ ∃ r ∈ A, x.2 = .connection r

namespace Touches

lemma refl (A : Set Ref) (w : World) : Touches A w w where
  threadNum := rfl
  session := rfl
  sessions := List.Sublist.refl _
  owned := List.Perm.refl _
  nextRef := rfl
  deskBaseId := rfl
  timerBaseId := rfl
  timersConstructed := rfl
  fd _ := rfl
  loop _ := rfl
  closed _ := id
  connection _ _ := rfl
  entries _ := List.Subset.refl _
  isCheckTimers _ := rfl
  tasks _ := ⟨[], (List.append_nil _).symm, by simp⟩
  interest _ _ _ := Or.inl

lemma trans (h : Touches A w w') (h' : Touches A w' w'') : Touches A w w'' where
  threadNum := h'.threadNum.trans h.threadNum
  session := h'.session.trans h.session
  sessions := h'.sessions.trans h.sessions
  owned := h'.owned.trans h.owned
  nextRef := h'.nextRef.trans h.nextRef
  deskBaseId := h'.deskBaseId.trans h.deskBaseId
  timerBaseId := h'.timerBaseId.trans h.timerBaseId
  timersConstructed := h'.timersConstructed.trans h.timersConstructed
  fd r := (h'.fd r).trans (h.fd r)
  loop r := (h'.loop r).trans (h.loop r)
  closed r hr := h'.closed r (h.closed r hr)
  connection r hr := (h'.connection r hr).trans (h.connection r hr)
  entries l := List.Subset.trans (h'.entries l) (h.entries l)
  isCheckTimers l := (h'.isCheckTimers l).trans (h.isCheckTimers l)
  tasks l := by
    obtain ⟨new, heq, hnew⟩ := h.tasks l
    obtain ⟨new', heq', hnew'⟩ := h'.tasks l
    refine ⟨new ++ new', by rw [heq', heq, List.append_assoc], fun task htask => ?_⟩
    rcases List.mem_append.mp htask with htask | htask
    · exact hnew task htask
    · refine (hnew' task htask).imp_right ?_
      rintro ⟨r, hr, hl, hsend⟩
      exact ⟨r, hr, hl.trans (h.loop r), hsend⟩
  interest l fd x hx := by
    rcases h'.interest l fd x hx with hx | hx
    · exact h.interest l fd x hx
    · exact Or.inr hx

lemma mono (hAB : A ⊆ B) (h : Touches A w w') : Touches B w w' where
  __ := h
  connection r hr := h.connection r fun hA => hr (hAB hA)
  tasks l := by
    obtain ⟨new, heq, hnew⟩ := h.tasks l
    refine ⟨new, heq, fun task htask => (hnew task htask).imp_right ?_⟩
    rintro ⟨r, hr, hl, hsend⟩
    exact ⟨r, hAB hr, hl, hsend⟩
  interest l fd x hx := (h.interest l fd x hx).imp_right fun ⟨r, hr, hx⟩ => ⟨r, hAB hr, hx⟩

end Touches

/-! ## The single functions -/

/-- Recording an event is not seen by the program. -/
lemma touches_log (e : Event) : Touches A w (w.log e) where
  __ := Touches.refl A w

/-- A change of one loop that takes timers out and puts permitted tasks in. -/
lemma touches_modifyLoop {f : EventLoop Dispatcher TimerTask CustomTask →
      EventLoop Dispatcher TimerTask CustomTask}
    (hentries : (f (w.loop l)).timers.entries ⊆ (w.loop l).timers.entries)
    (hcheck : (f (w.loop l)).timers.isCheckTimers = (w.loop l).timers.isCheckTimers)
    (htasks : ∃ new, (f (w.loop l)).customTasks = (w.loop l).customTasks ++ new ∧
      ∀ task ∈ new, (∃ timerID, task = .removeTimerInternal timerID) ∨
        ∃ r ∈ A, l = (w.connection r).loop ∧ ∃ buf, task = .send r buf)
    (hinterest : ∀ fd x, (f (w.loop l)).epoll.interest fd = some x →
      (w.loop l).epoll.interest fd = some x ∨ ∃ r ∈ A, x.2 = .connection r) :
    Touches A w (w.modifyLoop l f) where
  __ := Touches.refl A w
  entries l' := by
    by_cases hl : l' = l
    · subst hl
      simpa [modifyLoop] using hentries
    · simp [modifyLoop, hl]
  isCheckTimers l' := by
    by_cases hl : l' = l
    · subst hl
      simpa [modifyLoop] using hcheck
    · simp [modifyLoop, hl]
  tasks l' := by
    by_cases hl : l' = l
    · subst hl
      simpa [modifyLoop] using htasks
    · exact ⟨[], by simp [modifyLoop, hl]⟩
  interest l' fd x hx := by
    by_cases hl : l' = l
    · subst hl
      exact hinterest fd x (by simpa [modifyLoop] using hx)
    · exact Or.inl (by simpa [modifyLoop, hl] using hx)

/-- Removing a timer, now or by a task. -/
lemma touches_removeTimer (timerID : Int64) :
    Touches A w (w.removeTimer cur l timerID) := by
  unfold removeTimer
  split
  · rw [loopTimers_modify]
    exact touches_modifyLoop LoopTimers.entries_removeTimerInternal_subset
      LoopTimers.removeTimerInternal_isCheckTimers ⟨[], by simp⟩ fun _ _ => Or.inl
  · exact touches_modifyLoop (List.Subset.refl _) rfl
      ⟨[.removeTimerInternal timerID], rfl, by simp⟩ fun _ _ => Or.inl

/-- The entry found is moved from the map to the pending list. -/
lemma owned_onDisconnected (id : Int32) : (w.onDisconnected id).owned.Perm w.owned := by
  unfold onDisconnected
  split
  · exact List.Perm.refl _
  · next entry hentry =>
    obtain ⟨hid, before, after, hsessions, hbefore⟩ := List.find?_eq_some_iff_append.mp hentry
    have herase : (w.sessions.eraseP fun entry => entry.1 == id) = before ++ after := by
      rw [hsessions, List.eraseP_append_right _ (by simpa using hbefore),
        List.eraseP_cons_of_pos (p := fun entry : Int32 × Ref => entry.1 == id) hid]
    simp only [owned, herase]
    simp only [hsessions, List.map_append, List.map_cons, List.append_assoc]
    apply List.Perm.append_left
    rw [List.cons_append, ← List.append_assoc]
    exact List.perm_append_singleton _ _

/-- A session that leaves the map is pending from then on. -/
lemma touches_onDisconnected (id : Int32) : Touches A w (w.onDisconnected id) where
  __ := Touches.refl A w
  threadNum := by unfold onDisconnected; split <;> rfl
  session := by unfold onDisconnected; split <;> rfl
  sessions := by
    unfold onDisconnected
    split
    · exact List.Sublist.refl _
    · exact List.eraseP_sublist
  owned := owned_onDisconnected id
  nextRef := by unfold onDisconnected; split <;> rfl
  deskBaseId := by unfold onDisconnected; split <;> rfl
  timerBaseId := by unfold onDisconnected; split <;> rfl
  timersConstructed := by unfold onDisconnected; split <;> rfl
  fd r := by unfold onDisconnected; split <;> rfl
  loop r := by unfold onDisconnected; split <;> rfl
  closed r hr := by unfold onDisconnected; split <;> exact hr
  connection r _ := by unfold onDisconnected; split <;> rfl
  entries l := by unfold onDisconnected; split <;> exact List.Subset.refl _
  isCheckTimers l := by unfold onDisconnected; split <;> rfl
  tasks l := ⟨[], by unfold onDisconnected; split <;> simp, by simp⟩
  interest l fd x hx := by
    refine Or.inl ?_
    unfold onDisconnected at hx
    split at hx <;> exact hx

/-- A call on the connection of a session in `A`. -/
lemma touches_setEndpoint {p : Endpoint Dispatcher} (hr : r ∈ A)
    (hp : Endpoint.Changes (.connection r) (w.endpoint r) p) :
    Touches A w (w.setEndpoint r p) where
  __ := touches_modifyLoop (A := A) (w := w) (l := (w.connection r).loop)
    (f := fun l => { l with epoll := p.epoll }) (List.Subset.refl _) rfl ⟨[], by simp⟩
    fun fd x hx => (hp.interest fd x hx).elim (fun h => Or.inr ⟨r, hr, h⟩) Or.inl
  fd r' := by
    by_cases hr' : r' = r
    · subst hr'
      simpa [setEndpoint, endpoint] using hp.fd_eq
    · simp [setEndpoint, modifyLoop, hr']
  loop r' := by
    by_cases hr' : r' = r
    · subst hr'
      simpa [setEndpoint, endpoint] using hp.loop_eq
    · simp [setEndpoint, modifyLoop, hr']
  closed r' hclosed := by
    by_cases hr' : r' = r
    · subst hr'
      simpa [setEndpoint] using hp.closed hclosed
    · simpa [setEndpoint, modifyLoop, hr'] using hclosed
  connection r' hr' := by
    have hne : r' ≠ r := by
      rintro rfl
      exact hr' hr
    simp [setEndpoint, modifyLoop, hne]

/-! ## The sends -/

lemma touches_sessionOnClose : Touches A w (w.sessionOnClose cur r) :=
  (touches_removeTimer _).trans (touches_onDisconnected _)

/-- A close touches its own connection. -/
lemma touches_onClose (hr : r ∈ A) : Touches A w (w.onClose cur r) :=
  (touches_setEndpoint hr (Endpoint.changes_onClose _ _)).trans touches_sessionOnClose

/-- Counting a flush is not seen by the program. -/
lemma touches_flushes (n : ℕ) : Touches A w { w with flushes := n } where
  __ := Touches.refl A w

/-- A flush touches its own connection, also where it ends with a close. -/
lemma touches_sendInternal (buf : Bytes) (hr : r ∈ A) :
    Touches A w (w.sendInternal env cur r buf) := by
  have hsend : Touches A w { w.setEndpoint r ((w.endpoint r).sendInternal (.connection r)
      (env.send w.flushes) buf).2 with flushes := w.flushes + 1 } :=
    (touches_setEndpoint hr (Endpoint.changes_sendInternal _ _ _ _)).trans (touches_flushes _)
  unfold sendInternal
  dsimp only
  split
  · exact hsend.trans (touches_onClose hr)
  · exact hsend

/-- A send touches its own connection, now or by a task. -/
lemma touches_send (buf : Bytes) (hr : r ∈ A) : Touches A w (w.send env cur r buf) := by
  unfold send
  split
  · exact touches_sendInternal buf hr
  · exact touches_modifyLoop (List.Subset.refl _) rfl
      ⟨[.send r buf], rfl, by simpa using hr⟩ fun _ _ => Or.inl

lemma touches_sendMsg (msg : Bytes) (hr : r ∈ A) : Touches A w (w.sendMsg env cur r msg) :=
  (touches_log _).trans (touches_send msg hr)

/-- A reminder sends to its session, or removes a timer. -/
lemma touches_reminderCallback (timerID : Int64) (hr : r ∈ A) :
    Touches A w (w.reminderCallback env cur r timerID) := by
  unfold reminderCallback
  dsimp only
  split
  · exact (touches_log _).trans (touches_sendMsg _ hr)
  · exact (touches_log _).trans (touches_removeTimer _)

/-! ## The three ways a send can go -/

/-- The kernel refuses a message to the session: a `::send` call is answered with `0` or a fatal
error before the buffer and the message are taken. -/
def Refused (env : Environment) (w : World) (r : Ref) (msg : Bytes) : Prop :=
  refuses (env.send w.flushes) ((w.connection r).sendBuf.remaining + msg.length) = true

instance (env : Environment) (w : World) (r : Ref) (msg : Bytes) :
    Decidable (Refused env w r msg) :=
  inferInstanceAs (Decidable (_ = _))

/-- A flush of a session's send buffer, before the connection is closed if it has to be. -/
def Flushes (r : Ref) (w w' : World) : Prop :=
  ∃ p, Endpoint.Changes (.connection r) (w.endpoint r) p ∧
    p.connection.closed = (w.connection r).closed ∧
    w' = { w.setEndpoint r p with flushes := w.flushes + 1 }

/-- A send is queued, or the kernel takes or keeps waiting for the bytes, or it refuses them. -/
theorem send_cases (env : Environment) (cur : LoopId) (r : Ref) (buf : Bytes) (w : World) :
    (cur ≠ (w.connection r).loop ∧ w.send env cur r buf =
      w.modifyLoop (w.connection r).loop (EventLoop.addTask (.send r buf))) ∨
    (cur = (w.connection r).loop ∧ ¬ Refused env w r buf ∧ Flushes r w (w.send env cur r buf)) ∨
    (cur = (w.connection r).loop ∧ Refused env w r buf ∧
      ∃ w₁, Flushes r w w₁ ∧ w.send env cur r buf = w₁.onClose cur r) := by
  by_cases hcur : cur = (w.connection r).loop
  · have hcloses := Endpoint.sendInternal_closes_iff_refuses (Dispatcher.connection r)
      (env.send w.flushes) buf (w.endpoint r)
    have hflushes : Flushes r w { w.setEndpoint r ((w.endpoint r).sendInternal (.connection r)
        (env.send w.flushes) buf).2 with flushes := w.flushes + 1 } :=
      ⟨_, Endpoint.changes_sendInternal _ _ _ _, Endpoint.sendInternal_closed _ _ _ _, rfl⟩
    refine Or.inr ?_
    by_cases hrefused : Refused env w r buf
    · refine Or.inr ⟨hcur, hrefused, _, hflushes, ?_⟩
      simp only [send, if_pos hcur, sendInternal, if_pos (hcloses.mpr hrefused)]
    · refine Or.inl ⟨hcur, hrefused, ?_⟩
      have hopen : ¬ ((w.endpoint r).sendInternal (.connection r) (env.send w.flushes) buf).1 =
          true := fun h => hrefused (hcloses.mp h)
      simp only [send, if_pos hcur, sendInternal, if_neg hopen]
      exact hflushes
  · exact Or.inl ⟨hcur, by rw [send, if_neg hcur]⟩

/-! ## What happens to the timers -/

/-- Putting a connection back does not touch timers and tasks. -/
lemma setEndpoint_loop (r : Ref) (p : Endpoint Dispatcher) (w : World) (l : LoopId) :
    ((w.setEndpoint r p).loop l).timers = (w.loop l).timers ∧
      ((w.setEndpoint r p).loop l).customTasks = (w.loop l).customTasks := by
  by_cases hl : l = (w.connection r).loop
  · subst hl
    simp [setEndpoint, modifyLoop]
  · simp [setEndpoint, modifyLoop, hl]

/-- A flush changes neither timers nor queues. -/
lemma Flushes.timers (h : Flushes r w w') (l : LoopId) :
    (w'.loop l).timers = (w.loop l).timers ∧ (w'.loop l).customTasks = (w.loop l).customTasks := by
  obtain ⟨p, -, -, rfl⟩ := h
  exact setEndpoint_loop r p w l

/-- A flush does not close a connection. -/
lemma Flushes.closed (h : Flushes r w w') (t : Ref) :
    (w'.connection t).closed = (w.connection t).closed := by
  obtain ⟨p, -, hclosed, rfl⟩ := h
  by_cases ht : t = r
  · subst ht
    simpa [setEndpoint] using hclosed
  · simp [setEndpoint, modifyLoop, ht]

/-- A flush is a call on the connection. -/
lemma Flushes.touches (h : Flushes r w w') (hr : r ∈ A) : Touches A w w' := by
  obtain ⟨p, hchanges, -, rfl⟩ := h
  exact (touches_setEndpoint hr hchanges).trans (touches_flushes _)

/-- A timer is removed at once on the thread of its loop, and nowhere else. -/
lemma removeTimer_timers (timerID : Int64) (l l' : LoopId) (w : World) :
    ((w.removeTimer cur l timerID).loop l').timers =
      if l' = l ∧ cur = l then (w.loop l').timers.removeTimerInternal timerID
      else (w.loop l').timers := by
  unfold removeTimer
  by_cases hcur : cur = l <;> by_cases hl : l' = l <;>
    simp [hcur, hl, loopTimers_modify, modifyLoop, EventLoop.addTask]

/-- A session that leaves the map changes no loop. -/
lemma onDisconnected_loop (id : Int32) (w : World) : (w.onDisconnected id).loop = w.loop := by
  unfold onDisconnected
  split <;> rfl

lemma onDisconnected_connection (id : Int32) (w : World) :
    (w.onDisconnected id).connection = w.connection := by
  unfold onDisconnected
  split <;> rfl

/-- Removing a timer changes no connection. -/
lemma removeTimer_connection (l : LoopId) (timerID : Int64) (w : World) :
    (w.removeTimer cur l timerID).connection = w.connection := by
  unfold removeTimer
  split <;> rfl

/-- A close on the session's own loop removes the session's timer. -/
lemma onClose_timers (r : Ref) (l : LoopId) (w : World) :
    ((w.onClose cur r).loop l).timers =
      if l = (w.connection r).loop ∧ cur = (w.connection r).loop
      then (w.loop l).timers.removeTimerInternal (w.session r).timerID
      else (w.loop l).timers := by
  have hloop : ((w.setEndpoint r ((w.endpoint r).onClose (.connection r))).connection r).loop =
      (w.connection r).loop :=
    (touches_setEndpoint (A := {r}) rfl (Endpoint.changes_onClose _ _)).loop r
  rw [onClose, sessionOnClose, onDisconnected_loop, removeTimer_timers, hloop,
    (setEndpoint_loop r _ w l).1]
  rfl

/-- A close marks the connection and no other. -/
lemma onClose_connection (r : Ref) (w : World) :
    (w.onClose cur r).connection =
      Function.update w.connection r ((w.endpoint r).onClose (.connection r)).connection := by
  rw [onClose, sessionOnClose, onDisconnected_connection, removeTimer_connection]
  rfl

/-- A session that disconnects leaves the map. -/
lemma onDisconnected_sessions (id : Int32) (w : World) :
    (w.onDisconnected id).sessions = w.sessions.eraseP fun entry => entry.1 == id := by
  unfold onDisconnected
  split
  · next hnone => exact (List.eraseP_of_forall_not (List.find?_eq_none.mp hnone)).symm
  · rfl

/-- A close takes the first entry with the session's id out of the map. -/
lemma onClose_sessions (r : Ref) (w : World) :
    (w.onClose cur r).sessions = w.sessions.eraseP fun entry => entry.1 == (w.session r).id := by
  rw [onClose, sessionOnClose, onDisconnected_sessions]
  unfold removeTimer
  split <;> rfl

/-! ## Iterating over the sessions -/

variable {body : Ref → World → World}

/-- The rule for `for (auto& iter : m_sessions)`: what the body keeps for the sessions in the map,
where it leaves the map as it was, is kept by the whole loop, if it ends without a fault. -/
lemma forEachSession_invariant {I : World → Prop} (hw : I w)
    (hbody : ∀ r ∈ w.sessions.map Prod.snd, ∀ w₁, I w₁ → w₁.sessions = w.sessions →
      (body r w₁).sessions = w.sessions → I (body r w₁))
    (h : w.forEachSession body = .ok w') : I w' ∧ w'.sessions = w.sessions := by
  have hgo : ∀ (rest : List (Int32 × Ref)) (w₁ : World),
      (∀ entry ∈ rest, entry.2 ∈ w.sessions.map Prod.snd) → I w₁ → w₁.sessions = w.sessions →
      forEachSession.go body rest w₁ = .ok w' → I w' ∧ w'.sessions = w.sessions := by
    intro rest
    induction rest with
    | nil =>
      rintro w₁ - hI hsessions hend
      obtain rfl : w₁ = w' := by simpa [forEachSession.go] using hend
      exact ⟨hI, hsessions⟩
    | cons entry rest ih =>
      intro w₁ hrest hI hsessions hend
      obtain ⟨hentry, hrest⟩ := List.forall_mem_cons.mp hrest
      rw [forEachSession.go] at hend
      split at hend
      · next hsame =>
        have hnext := hsame.trans hsessions
        exact ih _ hrest (hbody entry.2 hentry w₁ hI hsessions hnext) hnext hend
      · cases hend
  exact hgo w.sessions w (fun entry hentry => List.mem_map_of_mem hentry) hw rfl h

/-- A loop whose body never changes the map does not fail, and is a fold over the sessions. -/
lemma forEachSession_eq_foldl (body : Ref → World → World)
    (hbody : ∀ r w₁, (body r w₁).sessions = w₁.sessions) :
    w.forEachSession body = .ok ((w.sessions.map Prod.snd).foldl (fun w r => body r w) w) := by
  have hgo : ∀ (rest : List (Int32 × Ref)) (w₁ : World),
      forEachSession.go body rest w₁ = .ok ((rest.map Prod.snd).foldl (fun w r => body r w) w₁) := by
    intro rest
    induction rest with
    | nil => exact fun _ => rfl
    | cons entry rest ih =>
      intro w₁
      rw [forEachSession.go, if_pos (hbody _ _), ih, List.map_cons, List.foldl_cons]
  exact hgo w.sessions w

/-- The sessions that `sendAll` sends to. -/
def Recipient (includeSelf : Bool) (id : Int32) (status : SessionStatus) (deskID : Int64)
    (w : World) (r : Ref) : Prop :=
  ¬ (includeSelf = false ∧ (w.session r).id = id) ∧ (w.session r).status = status ∧
    (w.session r).deskID = deskID

instance (includeSelf : Bool) (id : Int32) (status : SessionStatus) (deskID : Int64) (w : World)
    (r : Ref) : Decidable (Recipient includeSelf id status deskID w r) :=
  inferInstanceAs (Decidable (_ ∧ _ ∧ _))

/-- The rule for a broadcast: what a send to a registered session keeps, if it does not close the
session, is kept by a broadcast that ends without a fault. -/
lemma sendAll_invariant {msg : Bytes} {includeSelf : Bool} {id : Int32} {status : SessionStatus}
    {deskID : Int64} {I : World → Prop} (hw : I w)
    (hsend : ∀ r ∈ w.sessions.map Prod.snd, ∀ w₁, I w₁ → w₁.sessions = w.sessions →
      (w₁.sendMsg env cur r msg).sessions = w.sessions → I (w₁.sendMsg env cur r msg))
    (h : w.sendAll env cur msg includeSelf id status deskID = .ok w') :
    I w' ∧ w'.sessions = w.sessions := by
  refine forEachSession_invariant hw (fun r hr w₁ hw₁ hbefore hafter => ?_) h
  split
  · exact hw₁
  · next hself =>
    rw [if_neg hself] at hafter
    split
    · exact hw₁
    · next hmatch =>
      rw [if_neg hmatch] at hafter
      exact hsend r hr w₁ hw₁ hbefore hafter

/-- A broadcast sends to registered sessions. -/
lemma touches_sendAll {msg : Bytes} {includeSelf : Bool} {id : Int32} {status : SessionStatus}
    {deskID : Int64} (h : w.sendAll env cur msg includeSelf id status deskID = .ok w') :
    Touches {r | r ∈ w.sessions.map Prod.snd} w w' ∧ w'.sessions = w.sessions :=
  sendAll_invariant (I := Touches {r | r ∈ w.sessions.map Prod.snd} w) (Touches.refl _ _)
    (fun _ hr _ hw₁ _ _ => hw₁.trans (touches_sendMsg msg hr)) h

end World

end Calc24
