import Calc24.App.Turns

/-!
# The winners of a hand

The players that are dealt the same desk id play one hand, and the first one to give a right
answer wins it.  `processCmd` replies to every right answer, and ends the hand by resetting the
desk in a later step.  A hand has one winner at most if everyone who answers is still at the desk
that was dealt last, no other player of the desk is between the reply and the reset, and nobody
who is there is dealt to again (`oneWinner`).
-/

namespace Calc24

open World

/-! ## Hands in the trace -/

/-- The desk that a session was dealt last. -/
def lastDesk (r : Ref) : List Event → Option Int64
  | [] => none
  | .dealt t deskID :: older => if t = r then some deskID else lastDesk r older
  | _ :: older => lastDesk r older

/-- The sessions that were sent the reply to a right answer between the deal at a desk and their
next deal. -/
def winners (deskID : Int64) : List Event → List Ref
  | [] => []
  | .sent r buf :: older =>
    if buf = rightAnswer ∧ lastDesk r older = some deskID then r :: winners deskID older
    else winners deskID older
  | _ :: older => winners deskID older

/-- The desk of a deal. -/
def Event.desk : Event → Option Int64
  | .dealt _ deskID => some deskID
  | _ => none

variable {r t : Ref} {d : Int64} {trace new : List Event}

/-- Only deals put sessions at other desks. -/
lemma lastDesk_append (h : ∀ e ∈ new, e.desk = none) :
    lastDesk r (new ++ trace) = lastDesk r trace := by
  induction new with
  | nil => rfl
  | cons e new ih =>
    obtain ⟨he, hnew⟩ := List.forall_mem_cons.mp h
    rw [List.cons_append]
    cases e with
    | dealt t deskID => cases he
    | _ => exact ih hnew

/-- Only replies to right answers make winners. -/
lemma winners_append (h : ∀ e ∈ new, ∀ t, e ≠ .sent t rightAnswer) :
    winners d (new ++ trace) = winners d trace := by
  induction new with
  | nil => rfl
  | cons e new ih =>
    obtain ⟨he, hnew⟩ := List.forall_mem_cons.mp h
    rw [List.cons_append]
    cases e with
    | sent t buf =>
      rw [winners, if_neg]
      · exact ih hnew
      · rintro ⟨rfl, -⟩
        exact he t rfl
    | _ => exact ih hnew

/-- A desk that was dealt is the desk of a deal. -/
lemma exists_deal_of_lastDesk (h : lastDesk r trace = some d) : ∃ e ∈ trace, e.desk = some d := by
  induction trace with
  | nil => cases h
  | cons e trace ih =>
    have hrest : lastDesk r trace = some d → ∃ e' ∈ e :: trace, e'.desk = some d := by
      intro h
      obtain ⟨e', he', hdesk⟩ := ih h
      exact ⟨e', List.mem_cons_of_mem _ he', hdesk⟩
    cases e with
    | dealt t deskID =>
      rw [lastDesk] at h
      split at h
      · exact ⟨_, List.mem_cons_self .., h⟩
      · exact hrest h
    | _ => exact hrest h

/-- Only hands that were dealt have winners. -/
lemma exists_deal_of_mem_winners (h : r ∈ winners d trace) : ∃ e ∈ trace, e.desk = some d := by
  induction trace with
  | nil => cases h
  | cons e trace ih =>
    have hrest : (∃ e' ∈ trace, e'.desk = some d) → ∃ e' ∈ e :: trace, e'.desk = some d := by
      rintro ⟨e', he', hdesk⟩
      exact ⟨e', List.mem_cons_of_mem _ he', hdesk⟩
    cases e with
    | sent t buf =>
      rw [winners] at h
      split at h
      · next hand => exact hrest (exists_deal_of_lastDesk hand.2)
      · exact hrest (ih h)
    | _ => exact hrest (ih h)

/-! ## Desks during a step of a worker thread -/

namespace World

variable {env : Environment} {n : ℕ} {batch : List Ref} {A : Set Ref} {w w' : World}
  {stage stage' : Stage} {input : Input}

/-- An ordinary event is neither a deal nor a congratulation. -/
lemma Ordinary.neutral {e : Event} (h : Ordinary A e) :
    e.desk = none ∧ ∀ t, e ≠ .sent t rightAnswer := by
  cases e with
  | sent t buf =>
    refine ⟨rfl, fun t' heq => ?_⟩
    exact h.2 (Event.sent.inj heq).2
  | dealt t deskID => exact h.elim
  | _ => exact ⟨rfl, fun _ heq => by cases heq⟩

/-- A deal puts sessions at its own desk, and congratulates nobody. -/
lemma Dealing.neutral {e : Event} {deskID : Int64} (h : Dealing deskID e) :
    (∀ d, e.desk = some d → d = deskID) ∧ ∀ t, e ≠ .sent t rightAnswer := by
  cases e with
  | sent t buf =>
    refine ⟨fun _ heq => (by cases heq), fun t' heq => ?_⟩
    exact h (Event.sent.inj heq).2
  | dealt t d =>
    refine ⟨fun d' heq => ?_, fun _ heq => by cases heq⟩
    exact (Option.some.inj heq).symm.trans h
  | _ => exact h.elim

/-- A task changes no session. -/
lemma runTask_session (task : CustomTask) :
    (runTask env (.worker n) w task).session = w.session := by
  cases task with
  | send r buf => exact ((touches_log (A := {r}) _).trans (touches_send buf rfl)).session
  | addTimerInternal spTimer =>
    rw [runTask, addTimerInternal, if_pos rfl]
    rfl
  | removeTimerInternal timerID => exact (touches_removeTimer (A := ∅) timerID).session

lemma processPackage_deskID {package : Bytes} {cur : LoopId} (hanswer : package ≠ answerCmd)
    (h : w.processPackage env cur r package = .ok w') (t : Ref) :
    (w'.session t).deskID = (w.session t).deskID := by
  rcases processPackage_cases h with ⟨-, -, hsend⟩ | ⟨-, rfl⟩ | ⟨heq, -⟩
  · rw [hsend.session]
  · by_cases ht : t = r
    · subst ht
      simp [modifySession]
    · simp [modifySession, ht]
  · exact absurd heq hanswer

/-- A round of `onRead` changes no desk; that is left to the end of a game. -/
lemma decode_deskID (h : w.decode env n r batch = some (stage', w')) (t : Ref) :
    (w'.session t).deskID = (w.session t).deskID := by
  rcases decode_cases h with ⟨-, rfl⟩ | ⟨-, rfl⟩ | ⟨recvBuf, -, -, rfl⟩ |
    ⟨recvBuf, package, hanswer, -, hok⟩
  · rfl
  · rw [(touches_onClose (A := {r}) rfl).session]
  · rw [answer, (touches_sendMsg (A := {r}) rightAnswer rfl).session]
    rfl
  · exact processPackage_deskID hanswer hok t

/-- Only the reset at the end of an answer changes desks; any other step of a worker thread leaves
the answer that it is in the middle of where it is. -/
lemma work_desks (hidle : ∀ l, (w.loop l).timers.isCheckTimers = false)
    (h : w.work env n input stage = some (stage', w')) :
    (∃ r batch, stage = .notified r batch ∧ w.resetDesk env (.worker n) r = .ok w') ∨
      ((∀ t, (w'.session t).deskID = (w.session t).deskID) ∧
        ∀ t, stage.answering = some t → stage'.answering = some t) := by
  cases stage with
  | timers =>
    obtain ⟨rfl, rfl⟩ := Prod.mk.inj (Option.some.inj h)
    exact Or.inr ⟨fun t => by rw [(touches_checkAndDoTimers input.nowMs (hidle _)).session],
      fun _ ht => by cases ht⟩
  | poll =>
    rw [work] at h
    split at h
    · obtain ⟨rfl, rfl⟩ := Prod.mk.inj (Option.some.inj h)
      have hsession : (input.events.foldl (fun w event => w.enableReadWrite event) w).session =
          w.session :=
        List.foldlRecOn (motive := fun w₁ : World => w₁.session = w.session) _ _ rfl
          fun _ hw₁ _ _ => hw₁
      exact Or.inr ⟨fun t => by rw [hsession], fun _ ht => by cases ht⟩
    · cases h
  | dispatch batch =>
    refine Or.inr ⟨fun t => ?_, fun _ ht => by cases ht⟩
    cases batch with
    | nil =>
      obtain ⟨rfl, rfl⟩ := Prod.mk.inj (Option.some.inj h)
      rfl
    | cons r batch =>
      have hreceive : w.receive n r batch input.recv = (stage', w') := Option.some.inj h
      unfold receive at hreceive
      split at hreceive
      · obtain ⟨rfl, rfl⟩ := Prod.mk.inj hreceive
        rfl
      · split at hreceive
        · obtain ⟨rfl, rfl⟩ := Prod.mk.inj hreceive
          rw [(touches_onClose (A := {r}) rfl).session]
        · obtain ⟨rfl, rfl⟩ := Prod.mk.inj hreceive
          rfl
        · obtain ⟨rfl, rfl⟩ := Prod.mk.inj hreceive
          rfl
  | reading r batch => exact Or.inr ⟨decode_deskID h, fun _ ht => by cases ht⟩
  | answered r batch =>
    obtain ⟨w₁, hok, heq⟩ := TransitionSystem.exists_ok_of_toOption_map h
    obtain ⟨rfl, rfl⟩ := Prod.mk.inj heq
    exact Or.inr ⟨fun t => by rw [(touches_sendAll hok).1.session], fun _ ht => ht⟩
  | notified r batch =>
    obtain ⟨w₁, hok, heq⟩ := TransitionSystem.exists_ok_of_toOption_map h
    obtain ⟨-, rfl⟩ := Prod.mk.inj heq
    exact Or.inl ⟨r, batch, rfl, hok⟩
  | closing r eof batch =>
    refine Or.inr ⟨fun t => ?_, fun _ ht => by cases ht⟩
    cases eof with
    | true =>
      obtain ⟨-, rfl⟩ := Prod.mk.inj (Option.some.inj h)
      rfl
    | false =>
      obtain ⟨-, rfl⟩ := Prod.mk.inj (Option.some.inj h)
      rfl
  | writing r batch =>
    obtain ⟨-, rfl⟩ := Prod.mk.inj (Option.some.inj h)
    exact Or.inr ⟨fun _ => rfl, fun _ ht => by cases ht⟩
  | tasks remaining =>
    refine Or.inr ⟨fun t => ?_, fun _ ht => by cases ht⟩
    cases remaining with
    | nil =>
      obtain ⟨-, rfl⟩ := Prod.mk.inj (Option.some.inj h)
      rfl
    | cons task rest =>
      obtain ⟨-, rfl⟩ := Prod.mk.inj (Option.some.inj h)
      rw [runTask_session]

/-- What a deal does to the desks and to the hands. -/
lemma checkHandup_hands (h : w.checkHandup env .base = .ok w') (t : Ref) :
    (w'.session t = w.session t ∧ lastDesk t w'.trace = lastDesk t w.trace) ∨
      (REQUIRED_MIN_READY_COUNT ≤ w.readySessionCount ∧ t ∈ w.sessions.map Prod.snd ∧
        (w.session t).status = .READY ∧ (w'.session t).deskID = w.deskBaseId + 1 ∧
        lastDesk t w'.trace = some (w.deskBaseId + 1)) := by
  unfold checkHandup at h
  split at h
  · obtain rfl : w = w' := Except.ok.inj h
    exact Or.inl ⟨rfl, rfl⟩
  · next hmany =>
    refine (forEachSession_invariant (w := (w.generateCards env).2.2)
      (I := fun w₁ => (w₁.session t = w.session t ∧ lastDesk t w₁.trace = lastDesk t w.trace) ∨
        (REQUIRED_MIN_READY_COUNT ≤ w.readySessionCount ∧ t ∈ w.sessions.map Prod.snd ∧
          (w.session t).status = .READY ∧ (w₁.session t).deskID = w.deskBaseId + 1 ∧
          lastDesk t w₁.trace = some (w.deskBaseId + 1))) (Or.inl ⟨rfl, rfl⟩) ?_ h).1
    intro r hr w₁ hw₁ _ _
    split
    · next hready =>
      have hsession : (w₁.sendMsg env .base r (w.generateCards env).1).session = w₁.session :=
        (touches_sendMsg (A := {r}) _ rfl).session
      by_cases ht : t = r
      · subst ht
        have hwasReady : (w.session t).status = .READY := by
          rcases hw₁ with ⟨hsame, -⟩ | ⟨-, -, hwas, -⟩
          · rwa [hsame] at hready
          · exact hwas
        refine Or.inr ⟨not_lt.mp hmany, hr, hwasReady, ?_, ?_⟩
        · simp only [sendCards, modifySession, Function.update_self]
        · simp only [sendCards, modifySession, log, lastDesk, if_true]
      · have hother : (w₁.sendCards env .base r (w.generateCards env).1
            (w.generateCards env).2.1).session t = w₁.session t := by
          simp only [sendCards, modifySession, Function.update_of_ne ht]
          exact congrFun hsession t
        have htrace : lastDesk t (w₁.sendCards env .base r (w.generateCards env).1
            (w.generateCards env).2.1).trace = lastDesk t w₁.trace := by
          simp only [sendCards, modifySession, log, lastDesk, if_neg (Ne.symm ht)]
          rw [trace_sendMsg]
          rfl
        rcases hw₁ with ⟨hsame, hlast⟩ | ⟨henough, hmem, hwas, hdesk, hlast⟩
        · exact Or.inl ⟨hother.trans hsame, htrace.trans hlast⟩
        · exact Or.inr ⟨henough, hmem, hwas, (congrArg Calc24Session.deskID hother).trans hdesk,
            htrace.trans hlast⟩
    · exact hw₁

end World

/-! ## Runs -/

namespace Process

variable {env : Environment} {s s' : Process} {step : Step} {n : ℕ} {w : World}

/-- Among the sessions that were dealt the same desk one wins at most. -/
def OneWinner (s : Process) : Prop :=
  ∀ d, ∀ r ∈ winners d s.world.trace, ∀ t ∈ winners d s.world.trace, r = t

/-- The session `r`, served by the worker thread `n`, can answer: it has never been dealt to, or it
has won its last hand, or it is registered and at its desk, and nobody else of the desk is between
the reply to an answer and the reset. -/
def MayAnswer (s : Process) (n : ℕ) (r : Ref) : Prop :=
  ∀ d ∈ lastDesk r s.world.trace, r ∈ winners d s.world.trace ∨
    (r ∈ s.world.sessions.map Prod.snd ∧ (s.world.session r).deskID ≠ 0 ∧
      ∀ m < s.world.threadNum, m ≠ n → ∀ t ∈ (s.stage m).answering,
        (s.world.session t).deskID ≠ (s.world.session r).deskID)

instance (s : Process) (n : ℕ) (r : Ref) : Decidable (MayAnswer s n r) :=
  -- not by going through all desk ids
  Option.decidableForallMem (lastDesk r s.world.trace)

/-- Nobody is dealt to between the reply to its answer and the reset, and the new desk id is not
`0` and has not been dealt before. -/
def MayDeal (s : Process) : Prop :=
  s.world.deskBaseId + 1 ≠ 0 ∧
  (∀ e ∈ s.world.trace, e.desk ≠ some (s.world.deskBaseId + 1)) ∧
  ∀ m < s.world.threadNum, ∀ t ∈ (s.stage m).answering,
    t ∈ s.world.sessions.map Prod.snd → (s.world.session t).status ≠ .READY

instance (s : Process) : Decidable (MayDeal s) :=
  inferInstanceAs (Decidable (_ ∧ _ ∧ _))

/-- The next package of a session is a right answer. -/
def Answers (s : Process) (r : Ref) : Prop :=
  (s.world.nextPackage r).1 = .success ∧ (s.world.nextPackage r).2.2 = answerCmd

instance (s : Process) (r : Ref) : Decidable (Answers s r) :=
  inferInstanceAs (Decidable (_ ∧ _))

/-- Whoever answers can answer, and whoever is dealt to can be dealt to. -/
def KeepsHands (s : Process) : Step → Prop
  | .connect _ _ => True
  | .checkHandup => REQUIRED_MIN_READY_COUNT ≤ s.world.readySessionCount → MayDeal s
  | .worker n _ => ∀ r ∈ (s.stage n).reader, Answers s r → MayAnswer s n r

instance (s : Process) (step : Step) : Decidable (KeepsHands s step) :=
  match step with
  | .connect _ _ => .isTrue trivial
  | .checkHandup => inferInstanceAs
      (Decidable (REQUIRED_MIN_READY_COUNT ≤ s.world.readySessionCount → MayDeal s))
  | .worker n _ => inferInstanceAs
      (Decidable (∀ r ∈ (s.stage n).reader, Answers s r → MayAnswer s n r))

/-! ## What the steps keep -/

/-- Every winner is between its reply and its reset, or its desk has been left. -/
def HandsEnd (s : Process) : Prop :=
  ∀ d, ∀ r ∈ winners d s.world.trace,
    (∃ n, (s.stage n).answering = some r ∧ (s.world.session r).deskID = d) ∨
      ∀ t ∈ s.world.sessions.map Prod.snd, (s.world.session t).deskID ≠ d

/-- What is kept by all runs that meet the guard. -/
structure Hands (s : Process) : Prop where
  sound : Sound s
  busy : ∀ n, ∀ r ∈ (s.stage n).answering, n < s.world.threadNum
  desk : ∀ r, (s.world.session r).deskID ≠ 0 →
    lastDesk r s.world.trace = some (s.world.session r).deskID
  nonzero : ∀ e ∈ s.world.trace, e.desk ≠ some 0
  ends : HandsEnd s
  oneWinner : OneWinner s

lemma hands_start (threadNum : ℕ) : Hands (start threadNum) where
  sound := sound_start threadNum
  busy _ _ h := by cases h
  desk _ h := absurd rfl h
  nonzero _ he := by cases he
  ends _ _ h := by cases h
  oneWinner _ _ h := by cases h

/-- A winner's desk is not `0`. -/
lemma Hands.winner_ne_zero (h : Hands s) {d : Int64} {r : Ref}
    (hr : r ∈ winners d s.world.trace) : d ≠ 0 := by
  rintro rfl
  obtain ⟨e, he, hdesk⟩ := exists_deal_of_mem_winners hr
  exact h.nonzero e he hdesk

/-- A step that records nothing about hands keeps them, if the winners stay where they are or
their desks are left. -/
lemma Hands.of_neutral (h : Hands s) (hsound : Sound s')
    (hbusy : ∀ n, ∀ r ∈ (s'.stage n).answering, n < s'.world.threadNum)
    (hrecords : Records (fun e => e.desk = none ∧ ∀ t, e ≠ .sent t rightAnswer) s.world s'.world)
    (hdesk : ∀ r, (s'.world.session r).deskID = (s.world.session r).deskID ∨
      (s'.world.session r).deskID = 0)
    (hends : ∀ d, ∀ r ∈ winners d s.world.trace,
      (∃ n, (s'.stage n).answering = some r ∧ (s'.world.session r).deskID = d) ∨
        ∀ t ∈ s'.world.sessions.map Prod.snd, (s'.world.session t).deskID ≠ d) : Hands s' := by
  obtain ⟨new, htrace, hnew⟩ := hrecords
  have hlast : ∀ r, lastDesk r s'.world.trace = lastDesk r s.world.trace := by
    intro r
    rw [htrace, lastDesk_append fun e he => (hnew e he).1]
  have hwinners : ∀ d, winners d s'.world.trace = winners d s.world.trace := by
    intro d
    rw [htrace, winners_append fun e he => (hnew e he).2]
  refine ⟨hsound, hbusy, fun r hr => ?_, fun e he => ?_, fun d r hr => ?_,
    fun d r hr t ht => ?_⟩
  · rcases hdesk r with hsame | hzero
    · rw [hlast, hsame]
      exact h.desk r (hsame ▸ hr)
    · exact absurd hzero hr
  · rw [htrace] at he
    rcases List.mem_append.mp he with hmem | hmem
    · rw [(hnew e hmem).1]
      exact Option.some_ne_none 0 ∘ Eq.symm
    · exact h.nonzero e hmem
  · rw [hwinners] at hr
    exact hends d r hr
  · rw [hwinners] at hr ht
    exact h.oneWinner d r hr t ht

/-- A connect makes no difference to any hand. -/
lemma Hands.connect (h : Hands s) {fd : ℕ} {order : List (Int32 × Ref)}
    (hok : (s.world.onAccept fd).onConnected env .base s.world.nextRef order = .ok w)
    (hsound : Sound { s with world := w }) : Hands { s with world := w } := by
  have hconnects := connect_cases h.sound.wellFormed hok
  have hnew : (w.session s.world.nextRef).deskID = 0 := hconnects.isReset.1
  refine h.of_neutral hsound (fun n r hr => ?_) ?_ (fun r => ?_) fun d r hr => ?_
  · rw [hconnects.threadNum]
    exact h.busy n r hr
  · refine ⟨.sent s.world.nextRef welcomeMsg ::
      (s.world.pendingToDeleteSessions.map Event.released).reverse, hconnects.trace, fun e he => ?_⟩
    rcases List.mem_cons.mp he with rfl | he
    · exact ⟨rfl, fun t heq => welcomeMsg_ne (Event.sent.inj heq).2⟩
    · obtain ⟨r, -, rfl⟩ := List.mem_map.mp (List.mem_reverse.mp he)
      exact ⟨rfl, fun t heq => by cases heq⟩
  · by_cases hr : r = s.world.nextRef
    · subst hr
      exact Or.inr hnew
    · exact Or.inl (by rw [hconnects.session r hr])
  · rcases h.ends d r hr with ⟨n, hanswering, hdesk⟩ | hleft
    · have hheld : r ∈ (s.stage n).held := Stage.mem_held_of_answering hanswering
      refine Or.inl ⟨n, hanswering, ?_⟩
      rw [hconnects.session r (h.sound.held n r hheld).1.ne]
      exact hdesk
    · refine Or.inr fun t ht => ?_
      obtain ⟨entry, hentry, rfl⟩ := List.mem_map.mp ht
      by_cases heq : entry.2 = s.world.nextRef
      · simp only [heq, hnew]
        exact (h.winner_ne_zero hr).symm
      · rw [hconnects.session _ heq]
        exact hleft _ (List.mem_map_of_mem ((hconnects.sessions entry hentry).resolve_left heq))

/-- A deal that deals to nobody in the middle of an answer starts a hand without winners. -/
lemma Hands.checkHandup (h : Hands s)
    (hguard : REQUIRED_MIN_READY_COUNT ≤ s.world.readySessionCount → MayDeal s)
    (hok : s.world.checkHandup env .base = .ok w) (hsound : Sound { s with world := w }) :
    Hands { s with world := w } := by
  rcases checkHandup_cases hok with ⟨-, rfl⟩ | ⟨hmany, -⟩
  · exact h
  obtain ⟨hnonzero, hfresh, hready⟩ := hguard hmany
  have haffects := affects_checkHandup hok
  have hhands := checkHandup_hands hok
  obtain ⟨new, htrace, hnew⟩ := records_checkHandup hok
  have hwinners : ∀ d, winners d w.trace = winners d s.world.trace := by
    intro d
    rw [htrace, winners_append fun e he => (hnew e he).neutral.2]
  refine ⟨hsound, fun n r hr => ?_, fun r hr => ?_, fun e he => ?_, fun d r hr => ?_,
    fun d r hr t ht => ?_⟩
  · rw [haffects.threadNum]
    exact h.busy n r hr
  · rcases hhands r with ⟨hsame, hlast⟩ | ⟨-, -, -, hdesk, hlast⟩
    · simp only [hsame, hlast] at hr ⊢
      exact h.desk r hr
    · simp only [hdesk, hlast]
  · simp only [htrace] at he
    rcases List.mem_append.mp he with hmem | hmem
    · exact fun hzero => hnonzero ((hnew e hmem).neutral.1 0 hzero).symm
    · exact h.nonzero e hmem
  · simp only [hwinners] at hr
    rcases h.ends d r hr with ⟨n, hanswering, hdesk⟩ | hleft
    · refine Or.inl ⟨n, hanswering, ?_⟩
      rcases hhands r with ⟨hsame, -⟩ | ⟨-, hmem, hwasReady, -⟩
      · simp only [hsame]
        exact hdesk
      · exact absurd hwasReady (hready n (h.busy n r hanswering) r hanswering hmem)
    · refine Or.inr fun t ht => ?_
      have hmem : t ∈ s.world.sessions.map Prod.snd := (haffects.sessions.map Prod.snd).subset ht
      rcases hhands t with ⟨hsame, -⟩ | ⟨-, -, -, hdealt, -⟩
      · simp only [hsame]
        exact hleft t hmem
      · simp only [hdealt]
        rintro rfl
        obtain ⟨e, he, hdesk⟩ := exists_deal_of_mem_winners hr
        exact hfresh e he hdesk
  · simp only [hwinners] at hr ht
    exact h.oneWinner d r hr t ht

/-- A reset leaves nobody registered at the desk, and puts nobody at another one. -/
lemma resetDesk_desks {w' : World} {cur : LoopId} {r : Ref} (hok : w.resetDesk env cur r = .ok w') :
    (∀ t, (w'.session t).deskID = (w.session t).deskID ∨ (w'.session t).deskID = 0) ∧
      (∀ t, (w.session t).deskID ≠ (w.session r).deskID →
        (w'.session t).deskID = (w.session t).deskID) ∧
      ∀ t ∈ w'.sessions.map Prod.snd, (w.session t).deskID = (w.session r).deskID →
        (w'.session t).deskID = 0 := by
  obtain ⟨hresets, hdone⟩ := resetDesk_cases hok
  refine ⟨fun t => ?_, fun t ht => ?_, fun t hmem ht => ?_⟩
  · rcases hresets.place t with ⟨-, hsame⟩ | ⟨-, -, hzero⟩
    · exact Or.inl hsame
    · exact Or.inr hzero
  · rw [hresets.session t fun hmem => ht hmem.2]
  · rw [hresets.sessions] at hmem
    exact (hdone t hmem ht).1

/-- The end of an answer leaves the hand. -/
lemma Hands.resetDesk (h : Hands s) {r : Ref} {batch : List Ref} {stage : Stage}
    (hstage : s.stage n = .notified r batch) (hok : s.world.resetDesk env (.worker n) r = .ok w)
    (hsound : Sound { world := w, stage := Function.update s.stage n stage })
    (hbusy : ∀ m, ∀ t ∈ (Function.update s.stage n stage m).answering, m < w.threadNum) :
    Hands { world := w, stage := Function.update s.stage n stage } := by
  obtain ⟨hplace, hothers, hleft⟩ := resetDesk_desks hok
  have hresets := (resetDesk_cases hok).1
  refine h.of_neutral hsound hbusy (Records.of_trace_eq hresets.trace) hplace fun d t ht => ?_
  have hd : d ≠ 0 := h.winner_ne_zero ht
  by_cases hdesk : d = (s.world.session r).deskID
  · -- the desk that is reset
    refine Or.inr fun t' ht' heq => ?_
    by_cases hwas : (s.world.session t').deskID = (s.world.session r).deskID
    · exact hd (heq ▸ hleft t' ht' hwas)
    · rw [hothers t' hwas] at heq
      exact hwas (heq.trans hdesk)
  · -- another desk
    rcases h.ends d t ht with ⟨m, hanswering, hat⟩ | hgone
    · have hm : m ≠ n := by
        rintro rfl
        rw [hstage] at hanswering
        obtain rfl := Option.some.inj hanswering
        exact hdesk hat.symm
      refine Or.inl ⟨m, ?_, ?_⟩
      · simp only [Function.update_of_ne hm]
        exact hanswering
      · rw [hothers t (hat ▸ hdesk)]
        exact hat
    · refine Or.inr fun t' ht' heq => ?_
      rw [hresets.sessions] at ht'
      rcases hplace t' with hsame | hzero
      · exact hgone t' ht' (hsame.symm.trans heq)
      · exact hd (heq ▸ hzero)

/-- The reply to a right answer makes its sender the winner. -/
lemma Hands.answer (h : Hands s) {r : Ref} {batch : List Ref}
    (hstage : s.stage n = .reading r batch) (hguard : MayAnswer s n r)
    (htrace : w.trace = .sent r rightAnswer :: s.world.trace)
    (hdesk : ∀ t, (w.session t).deskID = (s.world.session t).deskID)
    (hsessions : w.sessions.Sublist s.world.sessions)
    (hsound : Sound { world := w, stage := Function.update s.stage n (.answered r batch) })
    (hbusy : ∀ m, ∀ t ∈ (Function.update s.stage n (.answered r batch) m).answering,
      m < w.threadNum) :
    Hands { world := w, stage := Function.update s.stage n (.answered r batch) } := by
  have hlast : ∀ t, lastDesk t w.trace = lastDesk t s.world.trace := by
    intro t
    rw [htrace]
    rfl
  have hwinners : ∀ d, ∀ t ∈ winners d w.trace, t ∈ winners d s.world.trace ∨
      (t = r ∧ lastDesk r s.world.trace = some d) := by
    intro d t ht
    rw [htrace, winners] at ht
    split at ht
    · next hand =>
      rcases List.mem_cons.mp ht with rfl | hold
      · exact Or.inr ⟨rfl, hand.2⟩
      · exact Or.inl hold
    · exact Or.inl ht
  have hends : ∀ d, ∀ t ∈ winners d s.world.trace,
      (∃ m, (Function.update s.stage n (.answered r batch) m).answering = some t ∧
        (w.session t).deskID = d) ∨
        ∀ t' ∈ w.sessions.map Prod.snd, (w.session t').deskID ≠ d := by
    intro d t ht
    rcases h.ends d t ht with ⟨m, hanswering, hat⟩ | hgone
    · have hm : m ≠ n := by
        rintro rfl
        rw [hstage] at hanswering
        cases hanswering
      refine Or.inl ⟨m, ?_, (hdesk t).trans hat⟩
      rw [Function.update_of_ne hm]
      exact hanswering
    · refine Or.inr fun t' ht' => ?_
      rw [hdesk]
      exact hgone t' ((hsessions.map Prod.snd).subset ht')
  -- a new winner is at its desk, where nobody else has won
  have hnew : ∀ d, lastDesk r s.world.trace = some d → r ∉ winners d s.world.trace →
      (s.world.session r).deskID = d ∧ ∀ t, t ∉ winners d s.world.trace := by
    intro d hd hnot
    obtain ⟨hmem, hzero, hbusyOthers⟩ := (hguard d hd).resolve_left hnot
    have hat : (s.world.session r).deskID = d := Option.some.inj ((h.desk r hzero).symm.trans hd)
    refine ⟨hat, fun t ht => ?_⟩
    rcases h.ends d t ht with ⟨m, hanswering, htat⟩ | hgone
    · have hm : m ≠ n := by
        rintro rfl
        rw [hstage] at hanswering
        cases hanswering
      exact hbusyOthers m (h.busy m t hanswering) hm t hanswering (htat.trans hat.symm)
    · exact hgone r hmem hat
  refine ⟨hsound, hbusy, fun t ht => ?_, fun e he => ?_, fun d t ht => ?_, fun d t ht t' ht' => ?_⟩
  · simp only [hlast, hdesk] at ht ⊢
    exact h.desk t ht
  · simp only [htrace] at he
    rcases List.mem_cons.mp he with rfl | hold
    · exact fun hzero => by cases hzero
    · exact h.nonzero e hold
  · rcases hwinners d t ht with hold | ⟨rfl, hd⟩
    · exact hends d t hold
    · by_cases hmem : t ∈ winners d s.world.trace
      · exact hends d t hmem
      · refine Or.inl ⟨n, ?_, (hdesk t).trans (hnew d hd hmem).1⟩
        simp only [Function.update_self]
        rfl
  · rcases hwinners d t ht with hold | ⟨rfl, hd⟩ <;> rcases hwinners d t' ht' with hold' | ⟨rfl, hd'⟩
    · exact h.oneWinner d t hold t' hold'
    · by_cases hmem : t' ∈ winners d s.world.trace
      · exact h.oneWinner d t hold t' hmem
      · exact absurd hold ((hnew d hd' hmem).2 t)
    · by_cases hmem : t ∈ winners d s.world.trace
      · exact h.oneWinner d t hmem t' hold'
      · exact absurd hold' ((hnew d hd hmem).2 t')
    · rfl

/-- A step of a worker thread that meets the guard. -/
lemma Hands.work (h : Hands s) {input : Input} {stage : Stage} (hn : n < s.world.threadNum)
    (hguard : ∀ r ∈ (s.stage n).reader, Answers s r → MayAnswer s n r)
    (hwork : s.world.work env n input (s.stage n) = some (stage, w))
    (hsound : Sound { world := w, stage := Function.update s.stage n stage }) :
    Hands { world := w, stage := Function.update s.stage n stage } := by
  have hturn := turn_work h.sound.idle
    (fun task htask t ht => (h.sound.remaining n task htask t ht).2) hwork
  have hbusy : ∀ m, ∀ t ∈ (Function.update s.stage n stage m).answering, m < w.threadNum := by
    intro m r hr
    rw [hturn.affects.threadNum]
    by_cases hm : m = n
    · exact hm ▸ hn
    · rw [Function.update_of_ne hm] at hr
      exact h.busy m r hr
  rcases work_desks h.sound.idle hwork with ⟨r, batch, hstage, hok⟩ | ⟨hdesk, hanswering⟩
  · exact h.resetDesk hstage hok hsound hbusy
  · rcases hturn.records with hordinary | ⟨r, batch, hstage, rfl, htrace⟩
    · refine h.of_neutral hsound hbusy (hordinary.mono fun _ => Ordinary.neutral)
        (fun t => Or.inl (hdesk t)) fun d t ht => ?_
      rcases h.ends d t ht with ⟨m, hbefore, hat⟩ | hgone
      · refine Or.inl ⟨m, ?_, (hdesk t).trans hat⟩
        by_cases hm : m = n
        · subst hm
          simp only [Function.update_self]
          exact hanswering t hbefore
        · simp only [Function.update_of_ne hm]
          exact hbefore
      · refine Or.inr fun t' ht' => ?_
        simp only [hdesk]
        exact hgone t' ((hturn.affects.sessions.map Prod.snd).subset ht')
    · -- the package is a right answer
      have hdecode : s.world.decode env n r batch = some (.answered r batch, w) := by
        rw [hstage] at hwork
        exact hwork
      have hanswers : Answers s r := by
        rcases decode_cases hdecode with ⟨heq, -⟩ | ⟨heq, -⟩ | ⟨recvBuf, hnext, -, -⟩ |
          ⟨recvBuf, package, -, heq, -⟩
        · cases heq
        · cases heq
        · exact ⟨congrArg Prod.fst hnext, congrArg (fun p => p.2.2) hnext⟩
        · cases heq
      have hmay : MayAnswer s n r := hguard r (by rw [hstage]; rfl) hanswers
      exact h.answer hstage hmay htrace hdesk hturn.affects.sessions hsound hbusy

/-- **In every interleaving in which answers come from sessions that can answer, and deals go to
sessions that can be dealt to, a hand has one winner at most.** -/
theorem oneWinner (h : (interleaved env).ReachableUnder KeepsHands s) : OneWinner s := by
  have hhands : Hands s := by
    refine h.invariant ?_ fun s step s' h hguard hstep => ?_
    · rintro s ⟨threadNum, -, rfl⟩
      exact hands_start threadNum
    · have hsound := h.sound.next hstep
      rcases next_cases hstep with ⟨fd, order, w, rfl, hok, rfl⟩ | ⟨w, rfl, hok, rfl⟩ |
        ⟨n, input, stage, w, rfl, hn, hwork, rfl⟩
      · exact h.connect hok hsound
      · exact h.checkHandup hguard hok hsound
      · exact h.work hn hguard hwork hsound
  exact hhands.oneWinner

/-- Two players on two worker threads say that they are ready, and are dealt to; both have sent the
right answer as well. -/
def hand : List Step :=
  [.connect 5 [], .connect 6 [],
    goOn 0, pollRead 0 0, recvText 0 "!ready\n!xyz\n", goOn 0,
    goOn 1, pollRead 1 1, recvText 1 "!ready\n!xyz\n", goOn 1, .checkHandup]

/-- The first thread handles the answer of its player to the end. -/
theorem oneWinner_of_first_answer :
    OneWinner (runSteps calm (start 2) (hand ++ [goOn 0, goOn 0, goOn 0])) := by
  have hreach : (interleaved calm).ReachableUnder KeepsHands
      (runSteps calm (start 2) (hand ++ [goOn 0, goOn 0, goOn 0])) :=
    reachableUnder_runSteps (.init ⟨2, by decide, rfl⟩) (by decide)
  exact oneWinner hreach

/-- Both threads reply before either of them resets the desk: the hand has two winners. -/
theorem exists_two_winners : ¬ ∀ env s, (interleaved env).Reachable s → OneWinner s := by
  intro h
  have hreach : (interleaved calm).Reachable
      (runSteps calm (start 2) (hand ++ [goOn 0, goOn 1])) :=
    reachableUnder_runSteps (.init ⟨2, by decide, rfl⟩) (by decide)
  have hsame := h calm _ hreach 1 0 (by decide) 1 (by decide)
  exact absurd hsame (by decide)

end Process

end Calc24
