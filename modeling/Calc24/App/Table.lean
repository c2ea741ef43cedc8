import Calc24.App.Broadcast
import Calc24.App.Winner

/-!
# The players of a table

The sessions that are dealt the same desk id sit at one table until they are dealt to again or
reset to idle.  This file records the table of every session beside the runs of the server in
which each operation is one step, and asks who is sent the chat message of a player.

The desk of a session is its table at all times (`Seated`), so nobody else is sent the message.
`sendAll` looks at the status as well, which a player loses with `!ready` without leaving the
table: everyone at the table is sent the message exactly if everyone is still playing
(`reachesTable_iff`).
-/

namespace Calc24

open World

/-- The server, with the desk id at which each session was dealt, for as long as it has not been
reset. -/
structure Tables where
  world : World
  table : Ref → Option Int64

/-- The sessions that `resetSessionToIdle` resets at the end of an operation: those that it finds
at the desk of the session with the right answer. -/
def World.Operation.resets (env : Environment) (w : World) : Operation → List Ref
  | .package r p =>
    if p = answerCmd then
      match (w.answer env (w.connection r).loop r).notifyOthers env (w.connection r).loop r with
      | .ok w =>
        (w.sessions.map Prod.snd).filter fun t => (w.session t).deskID = (w.session r).deskID
      | .error _ => []
    else []
  | _ => []

namespace Tables

variable {env : Environment} {s s' : Tables} {w w' w₁ : World} {r t : Ref} {op : Operation}
  {cur l : LoopId}

/-- The tables after an operation: what is recorded of it shows who was dealt to. -/
def tableAfter (env : Environment) (s : Tables) (op : Operation) (w' : World) (t : Ref) :
    Option Int64 :=
  match lastDesk t (w'.trace.take (w'.trace.length - s.world.trace.length)) with
  | some deskID => some deskID
  | none => if t ∈ op.resets env s.world then none else s.table t

/-- The runs of the server, with the tables. -/
def system (env : Environment) : TransitionSystem Tables Operation where
  init s := (sequential env).init s.world ∧ s.table = fun _ => none
  step s op s' := (sequential env).step s.world op s'.world ∧
    s'.table = s.tableAfter env op s'.world

/-- The chat message of a session is sent once to every other registered session at its table, and
to nobody else. -/
def ReachesTable (env : Environment) (s : Tables) (r : Ref) (package : Bytes) : Prop :=
  ∃ w', s.world.processChatMsg env (s.world.connection r).loop r package = .ok w' ∧
    ∃ receivers : List Ref,
      w'.trace = (receivers.map
        (.sent · (msgWithPrefix (s.world.session r).id package))).reverse ++ s.world.trace ∧
      receivers.Nodup ∧
      ∀ t, t ∈ receivers ↔ t ∈ s.world.sessions.map Prod.snd ∧ t ≠ r ∧
        s.table t = some (s.world.session r).deskID

/-- The other registered sessions at the table are playing, and do not share the id of the
session. -/
def OthersPlay (s : Tables) (r : Ref) : Prop :=
  ∀ t ∈ s.world.sessions.map Prod.snd, t ≠ r →
    s.table t = some (s.world.session r).deskID →
      (s.world.session t).status = .IN_GAME ∧ (s.world.session t).id ≠ (s.world.session r).id

/-- The kernel refuses no bytes. -/
def SendsSucceed (env : Environment) : Prop :=
  ∀ flush remaining, 0 < remaining → refuses (env.send flush) remaining = false

/-! ## What an operation does to desks and tables -/

/-- What happens to the desk and to the table of a session in an operation that records the events
`new`: both stay, or the session is dealt to, or it is reset. -/
def Moves (new : List Event) (resets : List Ref) (w w' : World) (t : Ref) : Prop :=
  lastDesk t new = none ∧ t ∉ resets ∧ (w'.session t).deskID = (w.session t).deskID ∨
    t ∈ w.sessions.map Prod.snd ∧ lastDesk t new = some (w'.session t).deskID ∨
    lastDesk t new = none ∧ t ∈ resets ∧ (w'.session t).deskID = 0

/-- An event that is no deal. -/
lemma desk_of_ordinary {A : Set Ref} {e : Event} (h : Ordinary A e) : e.desk = none := by
  cases e with
  | dealt t deskID => exact absurd h not_false
  | _ => rfl

/-- Events without a desk leave everybody at their tables. -/
lemma lastDesk_eq_none {new : List Event} (h : ∀ e ∈ new, e.desk = none) :
    lastDesk t new = none := by
  have happend : lastDesk t (new ++ []) = lastDesk t [] := lastDesk_append h
  rwa [List.append_nil] at happend

/-- An operation without deals and resets. -/
lemma moves_of_records (hrecords : Records (fun e => e.desk = none) w w')
    (hdesk : ∀ t, (w'.session t).deskID = (w.session t).deskID) :
    ∃ new, w'.trace = new ++ w.trace ∧ ∀ t, Moves new [] w w' t := by
  obtain ⟨new, htrace, hnew⟩ := hrecords
  exact ⟨new, htrace, fun t => Or.inl ⟨lastDesk_eq_none hnew, List.not_mem_nil, hdesk t⟩⟩

/-- The cards of one more session. -/
lemma moves_sendCards {cards : Bytes} {deskID : Int64} (hr : r ∈ w.sessions.map Prod.snd)
    (h : ∃ new, w₁.trace = new ++ w.trace ∧ ∀ t, Moves new [] w w₁ t) :
    ∃ new, (w₁.sendCards env cur r cards deskID).trace = new ++ w.trace ∧
      ∀ t, Moves new [] w (w₁.sendCards env cur r cards deskID) t := by
  obtain ⟨new, htrace, hmoves⟩ := h
  have hsession : (w₁.sendMsg env cur r cards).session = w₁.session :=
    (touches_sendMsg (A := {r}) _ rfl).session
  refine ⟨.dealt r deskID :: .sent r cards :: new, ?_, fun t => ?_⟩
  · simp only [sendCards, modifySession, log, List.cons_append]
    rw [trace_sendMsg, htrace]
  · by_cases ht : t = r
    · subst ht
      refine Or.inr (Or.inl ⟨hr, ?_⟩)
      simp only [lastDesk, if_true, sendCards, modifySession, Function.update_self]
    · have hother : (w₁.sendCards env cur r cards deskID).session t = w₁.session t := by
        simp only [sendCards, modifySession, Function.update_of_ne ht]
        exact congrFun hsession t
      have hkeep : lastDesk t (.dealt r deskID :: .sent r cards :: new) = lastDesk t new := by
        simp only [lastDesk, if_neg (Ne.symm ht)]
      unfold Moves
      rw [hother, hkeep]
      exact hmoves t

/-- The deal. -/
lemma moves_checkHandup (h : w.checkHandup env cur = .ok w') :
    ∃ new, w'.trace = new ++ w.trace ∧ ∀ t, Moves new [] w w' t := by
  unfold checkHandup at h
  split at h
  · obtain rfl : w = w' := Except.ok.inj h
    exact ⟨[], rfl, fun t => Or.inl ⟨rfl, List.not_mem_nil, rfl⟩⟩
  · refine (forEachSession_invariant (w := (w.generateCards env).2.2)
      (I := fun w₁ => ∃ new, w₁.trace = new ++ w.trace ∧ ∀ t, Moves new [] w w₁ t)
      ⟨[], rfl, fun t => Or.inl ⟨rfl, List.not_mem_nil, rfl⟩⟩ ?_ h).1
    intro r hr w₁ hw₁ _ _
    split
    · exact moves_sendCards hr hw₁
    · exact hw₁

/-- A right answer: the resets. -/
lemma moves_answer {w₂ : World} (h₁ : Touches {r} w (w.answer env cur r))
    (hnotify : (w.answer env cur r).notifyOthers env cur r = .ok w₂)
    (hreset : w₂.resetDesk env cur r = .ok w') :
    ∃ new, w'.trace = new ++ w.trace ∧ ∀ t, Moves new
      ((w₂.sessions.map Prod.snd).filter fun t => (w₂.session t).deskID = (w₂.session r).deskID)
      w w' t := by
  obtain ⟨hresets, hreset'⟩ := resetDesk_cases hreset
  have hsession : w₂.session = w.session := by
    rw [(touches_sendAll hnotify).1.session, h₁.session]
  have hreply : Records (fun e => e.desk = none) w (w.answer env cur r) :=
    Records.of_cons (trace_sendMsg r rightAnswer w) rfl
  obtain ⟨new, htrace, hnew⟩ := hreply.trans
    ((records_sendAll notifyOthersGameOverMsg_ne hnotify).mono fun _ => desk_of_ordinary)
  refine ⟨new, hresets.trace.trans htrace, fun t => ?_⟩
  by_cases ht : t ∈ w₂.sessions.map Prod.snd ∧ (w₂.session t).deskID = (w₂.session r).deskID
  · refine Or.inr (Or.inr ⟨lastDesk_eq_none hnew, ?_, (hreset' t ht.1 ht.2).1⟩)
    simpa using ht
  · refine Or.inl ⟨lastDesk_eq_none hnew, by simpa using ht, ?_⟩
    rw [hresets.session t ht, hsession]

/-- A package. -/
lemma moves_package {p : Bytes} (h : w.processPackage env (w.connection r).loop r p = .ok w') :
    ∃ new, w'.trace = new ++ w.trace ∧
      ∀ t, Moves new ((Operation.package r p).resets env w) w w' t := by
  rcases processPackage_cases h with ⟨hanswer, -, htouches⟩ | ⟨hready, rfl⟩ |
    ⟨rfl, w₁, w₂, rfl, h₁, hnotify, -, hreset⟩
  · simp only [Operation.resets, if_neg hanswer]
    exact moves_of_records ((records_processPackage hanswer h).mono fun _ => desk_of_ordinary)
      fun t => by rw [htouches.session]
  · have hanswer : p ≠ answerCmd := by
      rintro rfl
      exact absurd hready (by decide)
    simp only [Operation.resets, if_neg hanswer]
    refine moves_of_records (Records.of_trace_eq rfl) fun t => ?_
    by_cases ht : t = r
    · subst ht
      simp [modifySession]
    · simp [modifySession, ht]
  · simp only [Operation.resets, if_true, hnotify]
    exact moves_answer h₁ hnotify hreset

/-- What executing queued sends records. -/
lemma records_doOtherTask (hsettled : ∀ task ∈ (w.loop l).customTasks, IsSend task = true) :
    Records (fun e => e.desk = none) w (w.doOtherTask env l) := by
  refine List.foldlRecOn (motive := Records (fun e => e.desk = none) w) _ _
    (Records.of_trace_eq rfl) ?_
  intro w₁ hw₁ task htask
  cases task with
  | send r buf => exact hw₁.trans (Records.of_cons (trace_send r buf _) rfl)
  | addTimerInternal spTimer => exact absurd (hsettled _ htask) (by simp [IsSend])
  | removeTimerInternal timerID => exact absurd (hsettled _ htask) (by simp [IsSend])

/-- Every operation moves desks and tables together.  A new session has neither. -/
lemma moves_perform (hstable : Stable w) (hok : op.perform env w = .ok w') :
    w.nextRef ≤ w'.nextRef ∧ ∃ new, w'.trace = new ++ w.trace ∧
      ∀ t, Moves new (op.resets env w) w w' t ∨
        t = w.nextRef ∧ lastDesk t new = none ∧ (w'.session t).deskID = 0 := by
  have hall : ∀ {resets : List Ref},
      (∃ new, w'.trace = new ++ w.trace ∧ ∀ t, Moves new resets w w' t) →
      ∃ new, w'.trace = new ++ w.trace ∧ ∀ t, Moves new resets w w' t ∨
        t = w.nextRef ∧ lastDesk t new = none ∧ (w'.session t).deskID = 0 :=
    fun ⟨new, htrace, hmoves⟩ => ⟨new, htrace, fun t => Or.inl (hmoves t)⟩
  cases op with
  | connect fd order =>
    have hconnect := connect_cases hstable.wellFormed hok
    refine ⟨hconnect.nextRef.symm ▸ Nat.le_succ _, .sent w.nextRef welcomeMsg ::
      (w.pendingToDeleteSessions.map Event.released).reverse, hconnect.trace, fun t => ?_⟩
    have hnone : lastDesk t (.sent w.nextRef welcomeMsg ::
        (w.pendingToDeleteSessions.map Event.released).reverse) = none := by
      refine lastDesk_eq_none fun e he => ?_
      rcases List.mem_cons.mp he with rfl | he
      · rfl
      · obtain ⟨r, -, rfl⟩ := List.mem_map.mp (List.mem_reverse.mp he)
        rfl
    by_cases ht : t = w.nextRef
    · exact Or.inr ⟨ht, hnone, ht ▸ hconnect.isReset.1⟩
    · exact Or.inl (Or.inl ⟨hnone, List.not_mem_nil, by rw [hconnect.session t ht]⟩)
  | package r p =>
    have hmoves := moves_package hok
    rcases processPackage_cases hok with ⟨-, -, htouches⟩ | ⟨-, rfl⟩ | ⟨-, w₁, w₂, -, h₁, -, h₂, h₃⟩
    · exact ⟨htouches.nextRef.ge, hall hmoves⟩
    · exact ⟨le_refl _, hall hmoves⟩
    · have hnext := (resetDesk_cases h₃).1.nextRef.trans (h₂.nextRef.trans h₁.nextRef)
      exact ⟨hnext.ge, hall hmoves⟩
  | checkHandup =>
    have hmoves := hall (moves_checkHandup hok)
    rcases checkHandup_cases hok with ⟨-, rfl⟩ | ⟨-, -, -, hdeals⟩
    · exact ⟨le_refl _, hmoves⟩
    · exact ⟨hdeals.touches.nextRef.ge, hmoves⟩
  | close r =>
    obtain rfl : w.onClose (w.connection r).loop r = w' := Except.ok.inj hok
    have htouches : Touches {r} w (w.onClose (w.connection r).loop r) := touches_onClose rfl
    exact ⟨htouches.nextRef.ge, hall (moves_of_records (Records.of_trace_eq (trace_onClose r w))
      fun t => by rw [htouches.session])⟩
  | checkAndDoTimers l nowMs =>
    obtain rfl : w.checkAndDoTimers env l nowMs = w' := Except.ok.inj hok
    have htouches : Touches (w.Reminded l) w (w.checkAndDoTimers env l nowMs) :=
      touches_checkAndDoTimers nowMs (hstable.idle l)
    have hrecords : Records (Ordinary (w.Reminded l)) w (w.checkAndDoTimers env l nowMs) :=
      records_checkAndDoTimers nowMs (hstable.idle l)
    exact ⟨htouches.nextRef.ge, hall (moves_of_records (hrecords.mono fun _ => desk_of_ordinary)
      fun t => by rw [htouches.session])⟩
  | doOtherTask l =>
    obtain rfl : w.doOtherTask env l = w' := Except.ok.inj hok
    have htouches := touches_doOtherTask env (hstable.settled l)
    have hsession : (w.doOtherTask env l).session = w.session := htouches.session
    exact ⟨htouches.nextRef.ge, hall (moves_of_records (records_doOtherTask (hstable.settled l))
      fun t => by rw [hsession])⟩

/-! ## Desks are tables -/

/-- What all runs keep: the desk of a session is its table, and `0` if it has none. -/
structure Seated (s : Tables) : Prop where
  stable : Stable s.world
  desk : ∀ t, (s.world.session t).deskID = (s.table t).getD 0
  unborn : ∀ t, s.world.nextRef ≤ t → s.table t = none

lemma seated_init (h : (system env).init s) : Seated s := by
  obtain ⟨⟨threadNum, -, hworld⟩, htable⟩ := h
  refine ⟨hworld ▸ stable_start threadNum, fun t => ?_, fun t _ => by rw [htable]⟩
  rw [hworld, htable]
  rfl

/-- Every operation keeps the desks of the sessions at their tables. -/
lemma Seated.step (h : Seated s) (hstep : (system env).step s op s') : Seated s' := by
  obtain ⟨⟨hallowed, w₁, hok, hworld⟩, htable⟩ := hstep
  obtain ⟨hnext, new, htrace, hmoves⟩ := moves_perform h.stable hok
  have hsession : s'.world.session = w₁.session := by rw [hworld]; rfl
  have hnextRef : s'.world.nextRef = w₁.nextRef := by rw [hworld]; rfl
  have hrecorded : s'.world.trace = new ++ s.world.trace := by
    rw [hworld]
    exact htrace
  -- the new events are what the table is read off
  have hafter : ∀ t, s'.table t =
      match lastDesk t new with
      | some deskID => some deskID
      | none => if t ∈ op.resets env s.world then none else s.table t := by
    intro t
    rw [htable, tableAfter, hrecorded, List.length_append, Nat.add_sub_cancel, List.take_left]
  refine ⟨stable_step h.stable ⟨hallowed, w₁, hok, hworld⟩, fun t => ?_, fun t ht => ?_⟩
  · rw [hafter, hsession]
    rcases hmoves t with (⟨hnone, hkept, hdesk⟩ | ⟨-, hdealt⟩ | ⟨hnone, hreset, hdesk⟩) |
      ⟨rfl, hnone, hdesk⟩
    · rw [hnone, if_neg hkept, hdesk]
      exact h.desk t
    · rw [hdealt]
      rfl
    · rw [hnone, if_pos hreset, hdesk]
      rfl
    · rw [hnone, hdesk, h.unborn _ (le_refl _)]
      simp
  · rw [hnextRef] at ht
    have hold := h.unborn t (hnext.trans ht)
    rw [hafter]
    rcases hmoves t with (⟨hnone, -, -⟩ | ⟨hmem, -⟩ | ⟨hnone, -, -⟩) | ⟨-, hnone, -⟩
    · rw [hnone, hold]
      simp
    · have hlt := h.stable.wellFormed.owned_lt t (List.mem_append_left _ hmem)
      exact absurd (hnext.trans ht) (not_le.mpr hlt)
    · rw [hnone, hold]
      simp
    · rw [hnone, hold]
      simp

/-- The desks of the sessions are their tables in every reachable state. -/
lemma seated_reachable (h : (system env).Reachable s) : Seated s :=
  h.invariant (fun _ h => seated_init h) fun _ _ _ h hstep => h.step hstep

/-- At a desk that is not `0` sit exactly the sessions of that table. -/
lemma Seated.desk_eq_iff (h : Seated s) {d : Int64} (hd : d ≠ 0) :
    (s.world.session t).deskID = d ↔ s.table t = some d := by
  rw [h.desk]
  cases htable : s.table t with
  | none => simpa using hd.symm
  | some d' => simp

/-! ## Chat messages -/

/-- With an obliging kernel a chat message is sent to those whom the filter of `sendAll` lets
through. -/
lemma processChatMsg_trace (hsends : SendsSucceed env) (h : Seated s) (package : Bytes) :
    ∃ w', s.world.processChatMsg env (s.world.connection r).loop r package = .ok w' ∧
      w'.trace = ((s.world.recipients false (s.world.session r).id (s.world.session r).status
        (s.world.session r).deskID).map
          (.sent · (msgWithPrefix (s.world.session r).id package))).reverse ++ s.world.trace := by
  refine (h.stable.wellFormed.broadcasts_iff_ownAccepted.mpr fun i t _ => hsends _ _ ?_).2
  simp [msgWithPrefix, ascii]

lemma mem_recipients_iff {id : Int32} {status : SessionStatus} {deskID : Int64} :
    t ∈ w.recipients false id status deskID ↔
      t ∈ w.sessions.map Prod.snd ∧ (w.session t).id ≠ id ∧ (w.session t).status = status ∧
        (w.session t).deskID = deskID := by
  simp [recipients, Recipient]

/-- **The chat message of a session that is playing at a desk reaches exactly its table if and only
if the other registered sessions at the table are playing too.** -/
theorem reachesTable_iff (hsends : SendsSucceed env) (h : (system env).Reachable s)
    (hstatus : (s.world.session r).status = .IN_GAME) (hdesk : (s.world.session r).deskID ≠ 0)
    (package : Bytes) : ReachesTable env s r package ↔ OthersPlay s r := by
  have hseated := seated_reachable h
  obtain ⟨w', hok, htrace⟩ := processChatMsg_trace (r := r) hsends hseated package
  constructor
  · rintro ⟨w'', hok', receivers, htrace', -, hreceivers⟩ t hmem hne htable
    obtain rfl : w' = w'' := Except.ok.inj (hok.symm.trans hok')
    -- the events determine the receivers
    have hsame : s.world.recipients false (s.world.session r).id (s.world.session r).status
        (s.world.session r).deskID = receivers := by
      have hevents := List.append_cancel_right (htrace.symm.trans htrace')
      refine List.map_injective_iff.mpr (fun t t' hevent => ?_) (List.reverse_injective hevents)
      exact (Event.sent.inj hevent).1
    have hreceived := (hreceivers t).mpr ⟨hmem, hne, htable⟩
    rw [← hsame, mem_recipients_iff, hstatus] at hreceived
    exact ⟨hreceived.2.2.1, hreceived.2.1⟩
  · intro hothers
    refine ⟨w', hok, _, htrace, ?_, fun t => ?_⟩
    · exact hseated.stable.wellFormed.refs_nodup.filter _
    · rw [mem_recipients_iff, hstatus, hseated.desk_eq_iff hdesk]
      constructor
      · rintro ⟨hmem, hid, -, htable⟩
        exact ⟨hmem, fun heq => hid (by rw [heq]), htable⟩
      · rintro ⟨hmem, hne, htable⟩
        exact ⟨hmem, (hothers t hmem hne htable).2, (hothers t hmem hne htable).1, htable⟩

/-- The state after an operation, if it is allowed and does not fail. -/
def next (env : Environment) (s : Tables) (op : Operation) : Option Tables :=
  (op.next env s.world).map fun w' => { world := w', table := s.tableAfter env op w' }

lemma step_of_next (h : s.next env op = some s') : (system env).step s op s' := by
  obtain ⟨w', hw', rfl⟩ := Option.map_eq_some_iff.mp h
  exact ⟨World.step_of_next hw', rfl⟩

/-- The state after a list of operations on a server with two worker threads. -/
def run (ops : List Operation) : Tables :=
  TransitionSystem.runAll (next calm) { world := start 2, table := fun _ => none } ops

lemma reachable_run {ops : List Operation}
    (h : TransitionSystem.follows (next calm) (fun _ _ => True)
      { world := start 2, table := fun _ => none } ops = true) :
    (system calm).Reachable (run ops) :=
  TransitionSystem.ReachableUnder.runAll (fun _ _ _ => step_of_next)
    (.init ⟨⟨2, by decide, rfl⟩, rfl⟩) h

lemma calm_sendsSucceed : SendsSucceed calm := by
  intro flush remaining hpos
  have hne : remaining ≠ 0 := by omega
  simp [calm, refuses, hne]

/-- After the deal, the message of the first player reaches the second. -/
theorem reachesTable_iff_twoPlayers : ReachesTable calm (run twoPlayers) 0 (ascii "hi\n") :=
  (reachesTable_iff calm_sendsSucceed (reachable_run (by decide)) (by decide) (by decide) _).mpr
    (by unfold OthersPlay; decide)

/-- A player who has said `!ready` during the game is not sent what the other one says. -/
theorem exists_message_missed :
    ¬ ∀ env s, SendsSucceed env → (system env).Reachable s → ∀ r package,
      (s.world.session r).status = .IN_GAME → (s.world.session r).deskID ≠ 0 →
        ReachesTable env s r package := by
  intro h
  have hreach : (system calm).Reachable (run (twoPlayers ++ [.package 1 (ascii "!ready\n")])) :=
    reachable_run (by decide)
  have hreaches := h calm _ calm_sendsSucceed hreach 0 (ascii "hi\n") (by decide) (by decide)
  have hothers := (reachesTable_iff calm_sendsSucceed hreach (by decide) (by decide) _).mp hreaches
  have hplays := (hothers 1 (by decide) (by decide) (by decide)).1
  exact absurd hplays (by decide)

end Tables

end Calc24
