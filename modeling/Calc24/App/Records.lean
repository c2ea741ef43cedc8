import Calc24.App.Effects

/-!
# What is recorded of a run

The trace of a world only grows, and nearly everything that is recorded is of one kind: sends of
other messages than the reply to a right answer, executed send tasks and reminders, all of them
of sessions that the function at hand is concerned with.  `Ordinary A` are these events, and
`Records P w w'` says that between `w` and `w'` only events with `P` have been recorded.
-/

namespace Calc24

namespace World

variable {env : Environment} {cur l : LoopId} {r t : Ref} {A B : Set Ref} {w w' w'' : World}
  {P : Event → Prop}

/-- Only events with `P` are recorded between two states. -/
def Records (P : Event → Prop) (w w' : World) : Prop :=
  ∃ new, w'.trace = new ++ w.trace ∧ ∀ e ∈ new, P e

/-- A send of a message other than the reply to a right answer, an executed send task or a
reminder, of a session in `A`. -/
def Ordinary (A : Set Ref) : Event → Prop
  | .sent r buf => r ∈ A ∧ buf ≠ rightAnswer
  | .sendTask r => r ∈ A
  | .reminder r _ => r ∈ A
  | .dealt _ _ => False
  | .released _ => False

lemma Ordinary.mono (hAB : A ⊆ B) {e : Event} (h : Ordinary A e) : Ordinary B e := by
  cases e with
  | sent r buf => exact ⟨hAB h.1, h.2⟩
  | sendTask r => exact hAB h
  | reminder r timerID => exact hAB h
  | dealt r deskID => exact h
  | released r => exact h

namespace Records

/-- Where the trace has not changed, nothing has been recorded. -/
lemma of_trace_eq (h : w'.trace = w.trace) : Records P w w' :=
  ⟨[], h, by simp⟩

lemma trans (h : Records P w w') (h' : Records P w' w'') : Records P w w'' := by
  obtain ⟨new, heq, hnew⟩ := h
  obtain ⟨new', heq', hnew'⟩ := h'
  refine ⟨new' ++ new, by rw [heq', heq, List.append_assoc], fun e he => ?_⟩
  rcases List.mem_append.mp he with he | he
  · exact hnew' e he
  · exact hnew e he

/-- One event has been recorded. -/
lemma of_cons {e : Event} (h : w'.trace = e :: w.trace) (he : P e) : Records P w w' :=
  ⟨[e], h, by simpa using he⟩

lemma mono {Q : Event → Prop} (hPQ : ∀ e, P e → Q e) (h : Records P w w') : Records Q w w' := by
  obtain ⟨new, heq, hnew⟩ := h
  exact ⟨new, heq, fun e he => hPQ e (hnew e he)⟩

end Records

/-! ## Functions that record nothing -/

/-- Removing a timer is not recorded. -/
lemma trace_removeTimer (l : LoopId) (timerID : Int64) (w : World) :
    (w.removeTimer cur l timerID).trace = w.trace := by
  unfold removeTimer
  split <;> rfl

/-- A session that leaves the map is not recorded. -/
lemma trace_onDisconnected (id : Int32) (w : World) : (w.onDisconnected id).trace = w.trace := by
  unfold onDisconnected
  split <;> rfl

/-- A close is not recorded. -/
lemma trace_onClose (r : Ref) (w : World) : (w.onClose cur r).trace = w.trace := by
  rw [onClose, sessionOnClose, trace_onDisconnected, trace_removeTimer]
  rfl

/-- The send of bytes is not recorded, only that of a message (`World.sendMsg`). -/
lemma trace_send (r : Ref) (buf : Bytes) (w : World) : (w.send env cur r buf).trace = w.trace := by
  rcases send_cases env cur r buf w with
    ⟨-, hqueued⟩ | ⟨-, -, p, -, -, hflushed⟩ | ⟨-, -, w₁, ⟨p, -, -, rfl⟩, hclose⟩
  · rw [hqueued]
    rfl
  · rw [hflushed]
    rfl
  · rw [hclose, trace_onClose]
    rfl

/-! ## Functions that send -/

/-- A message is recorded when a session sends it. -/
lemma trace_sendMsg (r : Ref) (msg : Bytes) (w : World) :
    (w.sendMsg env cur r msg).trace = .sent r msg :: w.trace :=
  trace_send r msg _

/-- A reminder is no reply to a right answer. -/
lemma reminderMsg_ne : reminderMsg ≠ rightAnswer := by decide

lemma welcomeMsg_ne : welcomeMsg ≠ rightAnswer := by decide

lemma wrongAnswer_ne : wrongAnswer ≠ rightAnswer := by decide

lemma notifyOthersGameOverMsg_ne : notifyOthersGameOverMsg ≠ rightAnswer := by decide

/-- A chat message starts with a small letter, and the reply with a capital. -/
lemma msgWithPrefix_ne (id : Int32) (package : Bytes) : msgWithPrefix id package ≠ rightAnswer := by
  intro h
  have hhead := congrArg List.head? h
  simp [msgWithPrefix, rightAnswer, ascii] at hhead

/-- The send of a message is recorded, and nothing else. -/
lemma records_sendMsg {msg : Bytes} (hr : r ∈ A) (hmsg : msg ≠ rightAnswer) :
    Records (Ordinary A) w (w.sendMsg env cur r msg) :=
  Records.of_cons (trace_sendMsg r msg w) ⟨hr, hmsg⟩

/-- A reminder records itself and, for an idle session, the message that it sends. -/
lemma records_reminderCallback (timerID : Int64) (hr : r ∈ A) :
    Records (Ordinary A) w (w.reminderCallback env cur r timerID) := by
  have hlog : Records (Ordinary A) w (w.log (.reminder r timerID)) := Records.of_cons rfl hr
  unfold reminderCallback
  dsimp only
  split
  · exact hlog.trans (records_sendMsg hr reminderMsg_ne)
  · exact hlog.trans (Records.of_trace_eq (trace_removeTimer _ _ _))

/-- A broadcast sends to registered sessions. -/
lemma records_sendAll {msg : Bytes} {includeSelf : Bool} {id : Int32} {status : SessionStatus}
    {deskID : Int64} (hmsg : msg ≠ rightAnswer)
    (h : w.sendAll env cur msg includeSelf id status deskID = .ok w') :
    Records (Ordinary {r | r ∈ w.sessions.map Prod.snd}) w w' :=
  (sendAll_invariant (I := Records (Ordinary {r | r ∈ w.sessions.map Prod.snd}) w)
    (Records.of_trace_eq rfl) (fun _ hr _ hw₁ _ _ => hw₁.trans (records_sendMsg hr hmsg)) h).1

/-- A package that is no right answer. -/
lemma records_processPackage {package : Bytes} (hanswer : package ≠ answerCmd)
    (h : w.processPackage env cur r package = .ok w') :
    Records (Ordinary ({r | r ∈ w.sessions.map Prod.snd} ∪ {r})) w w' := by
  unfold processPackage at h
  split at h
  · obtain rfl : w = w' := Except.ok.inj h
    exact Records.of_trace_eq rfl
  · split at h
    · exact (records_sendAll (msgWithPrefix_ne _ _) h).mono fun _ =>
        Ordinary.mono Set.subset_union_left
    · rw [processCmd, if_neg hanswer] at h
      split at h
      · obtain rfl := Except.ok.inj h
        exact Records.of_trace_eq rfl
      · obtain rfl := Except.ok.inj h
        exact records_sendMsg (Set.mem_union_right _ rfl) wrongAnswer_ne

/-- A pass over the timers of a loop. -/
lemma records_checkAndDoTimers (nowMs : ℤ) (hidle : (w.loop l).timers.isCheckTimers = false) :
    Records (Ordinary (w.Reminded l)) w (w.checkAndDoTimers env l nowMs) := by
  refine (checkAndDoTimers_rule (I := Records (Ordinary (w.Reminded l)) w) nowMs hidle
    (Records.of_trace_eq rfl) (fun f w₁ hw₁ => ?_) fun r hr timerID w₁ hw₁ => ?_).2
  · exact hw₁.trans (Records.of_trace_eq rfl)
  · exact hw₁.trans (records_reminderCallback timerID hr)

/-- What a deal at a desk records. -/
def Dealing (deskID : Int64) : Event → Prop
  | .sent _ buf => buf ≠ rightAnswer
  | .dealt _ d => d = deskID
  | _ => False

/-- Cards are no reply to a right answer. -/
lemma cards_ne (w : World) : (w.generateCards env).1 ≠ rightAnswer := by
  intro h
  have hhead := congrArg List.head? h
  simp [generateCards, rightAnswer, ascii] at hhead

/-- The deal records the cards and the desk. -/
lemma records_checkHandup (h : w.checkHandup env cur = .ok w') :
    Records (Dealing (w.deskBaseId + 1)) w w' := by
  unfold checkHandup at h
  split at h
  · obtain rfl : w = w' := Except.ok.inj h
    exact Records.of_trace_eq rfl
  · refine (forEachSession_invariant (w := (w.generateCards env).2.2)
      (I := Records (Dealing (w.deskBaseId + 1)) w) (Records.of_trace_eq rfl) ?_ h).1
    intro r _ w₁ hw₁ _ _
    split
    · refine hw₁.trans ⟨[.dealt r (w.deskBaseId + 1), .sent r (w.generateCards env).1], ?_, ?_⟩
      · simp only [sendCards, modifySession, log, List.cons_append, List.nil_append]
        rw [trace_sendMsg]
        rfl
      · simp only [List.forall_mem_cons]
        exact ⟨rfl, cards_ne w, by simp⟩
    · exact hw₁

end World

end Calc24
