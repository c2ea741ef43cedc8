import Calc24.App.Intake
import Calc24.App.Protocol

/-!
# The threads follow the protocol

For each session the exchanges of a run are the packages that the threads take off its receive
buffer and the messages that they send to it, in the order of the run (`Process.exchanges`).  A
session is welcomed by the thread that accepts it, dealt to by the same thread, reminded and
answered by the thread of its own loop, and told about the answers of others and what they say by
all threads.

Whatever the order of the steps is, what comes out follows the protocol (`followsProtocol`): a
session whose status is `READY` has said so and has not been dealt to since, so that the
conversation and the status fit together between any two steps.
-/

namespace Calc24

open World TransitionSystem

/-- The state of a conversation fits the status of a session: no answer is owed, and who is ready
has said so. -/
def Conversation.Fits (c : Conversation) (status : SessionStatus) : Prop :=
  ∃ ready, c = .talking ready ∧ (status = .READY → ready = true)

lemma Conversation.Fits.mono {c : Conversation} {status status' : SessionStatus}
    (h : c.Fits status) (hstatus : status' = .READY → status = .READY) : c.Fits status' := by
  obtain ⟨ready, rfl, hready⟩ := h
  exact ⟨ready, rfl, fun heq => hready (hstatus heq)⟩

namespace World

variable {env : Environment} {cur l : LoopId} {n : ℕ} {r t : Ref} {batch : List Ref} {A : Set Ref}
  {w w₁ w' w'' : World} {stage stage' : Stage} {input : Input} {msg package : Bytes}
  {said : Option (Ref × Bytes)} {new new' : List Event}

/-! ## Exchanges -/

/-- The message, if the event is a send to the session. -/
def toldTo (t : Ref) : Event → Option Exchange
  | .sent r msg => if r = t then some (.told msg) else none
  | _ => none

/-- What a session is told when the events are recorded, the latest of which is the first. -/
def saidTo (t : Ref) (new : List Event) : List Exchange :=
  new.reverse.filterMap (toldTo t)

/-- What is taken from a session. -/
def took (t : Ref) (said : Option (Ref × Bytes)) : List Exchange :=
  said.toList.filterMap fun entry => if entry.1 = t then some (.took entry.2) else none

/-- What a session is told later comes behind what it is told before. -/
lemma saidTo_append (t : Ref) (new' new : List Event) :
    saidTo t (new' ++ new) = saidTo t new ++ saidTo t new' := by
  rw [saidTo, List.reverse_append, List.filterMap_append]
  rfl

/-- The send of a message tells it to its session. -/
lemma saidTo_sent (t r : Ref) (msg : Bytes) :
    saidTo t [.sent r msg] = if r = t then [.told msg] else [] := by
  by_cases heq : r = t <;> simp [saidTo, toldTo, heq]

/-- A package is taken from its session. -/
lemma took_some (t r : Ref) (package : Bytes) :
    took t (some (r, package)) = if r = t then [.took package] else [] := by
  by_cases heq : r = t <;> simp [took, heq]

/-- What a session is told is nothing that is taken from it. -/
lemma filter_isTold_saidTo (t : Ref) (new : List Event) :
    (saidTo t new).filter Exchange.isTold = saidTo t new := by
  refine List.filter_eq_self.mpr fun x hx => ?_
  obtain ⟨e, -, he⟩ := List.mem_filterMap.mp hx
  cases e with
  | sent r msg =>
    obtain ⟨-, heq⟩ := Option.ite_none_right_eq_some.mp he
    rw [← Option.some.inj heq]
    rfl
  | sendTask r => cases he
  | reminder r timerID => cases he
  | dealt r deskID => cases he
  | released r => cases he

/-- What is taken from a session is nothing that it is told. -/
lemma filter_isTold_took (t : Ref) (said : Option (Ref × Bytes)) :
    (took t said).filter Exchange.isTold = [] := by
  refine List.filter_eq_nil_iff.mpr fun x hx => ?_
  obtain ⟨entry, -, he⟩ := List.mem_filterMap.mp hx
  obtain ⟨-, heq⟩ := Option.ite_none_right_eq_some.mp he
  rw [← Option.some.inj heq]
  simp [Exchange.isTold]

/-- Between two states the package `said` is taken, then sessions in `A` are sent messages, and
every conversation goes on as the protocol has it. -/
def Converses (said : Option (Ref × Bytes)) (A : Set Ref) (w w' : World) : Prop :=
  ∃ new, w'.trace = new ++ w.trace ∧ (∀ t ∉ A, saidTo t new = []) ∧
    ∀ (t : Ref) (c : Conversation), c.Fits (w.session t).status →
      ∃ c', c.run (took t said ++ saidTo t new) = some c' ∧ c'.Fits (w'.session t).status

namespace Converses

/-- Nothing is sent, and nobody gets ready. -/
lemma of_eq (htrace : w'.trace = w.trace)
    (hstatus : ∀ t, (w'.session t).status = .READY → (w.session t).status = .READY) :
    Converses none A w w' :=
  ⟨[], htrace, fun _ _ => rfl, fun t c hc => ⟨c, rfl, hc.mono (hstatus t)⟩⟩

/-- Something is recorded that is no send. -/
lemma of_log {e : Event} (he : ∀ t, toldTo t e = none) : Converses none A w (w.log e) :=
  ⟨[e], rfl, fun t _ => by simp [saidTo, he], fun t c hc =>
    ⟨c, by simp [saidTo, took, he, Conversation.run], hc⟩⟩

lemma trans (h : Converses said A w w') (h' : Converses none A w' w'') :
    Converses said A w w'' := by
  obtain ⟨new, heq, hA, hfits⟩ := h
  obtain ⟨new', heq', hA', hfits'⟩ := h'
  refine ⟨new' ++ new, by rw [heq', heq, List.append_assoc], fun t ht => ?_, fun t c hc => ?_⟩
  · rw [saidTo_append, hA t ht, hA' t ht]
    rfl
  · obtain ⟨c₁, hrun, hc₁⟩ := hfits t c hc
    obtain ⟨c₂, hrun', hc₂⟩ := hfits' t c₁ hc₁
    refine ⟨c₂, ?_, hc₂⟩
    rw [saidTo_append, ← List.append_assoc]
    exact foldlM_append_eq_some.mpr ⟨c₁, hrun, hrun'⟩

/-- The state before may be replaced by one that looks the same. -/
lemma of_same (h : Converses said A w₁ w') (htrace : w₁.trace = w.trace)
    (hsession : w₁.session = w.session) : Converses said A w w' := by
  rwa [Converses, ← htrace, ← hsession]

/-- A package that asks for nothing. -/
lemma of_package (h : Converses none A w w') (hverdict : verdict package = none) :
    Converses (some (r, package)) A w w' := by
  obtain ⟨new, heq, hA, hfits⟩ := h
  refine ⟨new, heq, hA, fun t c hc => ?_⟩
  rw [took_some]
  split
  · obtain ⟨ready, rfl, hready⟩ := hc
    have htook : Conversation.next (.talking ready) (.took package) =
        some (.talking (ready || decide (IsReadyCmd package))) := by
      rw [Conversation.next, hverdict]
    obtain ⟨c', hrun, hc'⟩ := hfits t (.talking (ready || decide (IsReadyCmd package)))
      ⟨_, rfl, fun hstatus => by rw [hready hstatus, Bool.true_or]⟩
    exact ⟨c', foldlM_append_eq_some.mpr ⟨_, by rw [List.foldlM_cons, htook]; rfl, hrun⟩, hc'⟩
  · exact hfits t c hc

end Converses

/-! ## What is sent -/

/-- A message that is neither cards nor the welcome nor an answer. -/
def Plain (msg : Bytes) : Prop :=
  ¬ IsCards msg ∧ ¬ HasPlace msg

/-- A reminder is a plain message. -/
lemma plain_reminderMsg : Plain reminderMsg := by
  constructor <;> decide

/-- What the others are told at the end of a game is a plain message. -/
lemma plain_notifyOthersGameOverMsg : Plain notifyOthersGameOverMsg := by
  constructor <;> decide

/-- Chat messages start with a small letter, and what is not plain with a capital. -/
lemma plain_msgWithPrefix (id : Int32) (package : Bytes) : Plain (msgWithPrefix id package) := by
  have hhead : (msgWithPrefix id package).head? = some 99 := by simp [msgWithPrefix, ascii]
  refine ⟨fun hcards => ?_, fun hplace => ?_⟩
  · have htake : ((msgWithPrefix id package).take 15).head? = some 89 := by rw [hcards]; decide
    rw [List.head?_take, if_neg (by decide), hhead] at htake
    exact absurd htake (by decide)
  · rcases hplace with heq | heq | heq
    all_goals
      rw [heq] at hhead
      exact absurd hhead (by decide)

/-- The status of all sessions is the same after a send. -/
lemma session_sendMsg (r : Ref) (msg : Bytes) (w : World) :
    (w.sendMsg env cur r msg).session = w.session :=
  (touches_sendMsg (A := {r}) msg rfl).session

/-- One message to one session. -/
lemma converses_one (hr : r ∈ A) (htrace : w'.trace = .sent r msg :: w.trace)
    (hothers : ∀ t ≠ r, (w'.session t).status = (w.session t).status)
    (hself : ∀ c : Conversation, c.Fits (w.session r).status →
      ∃ c', c.run (took r said ++ [.told msg]) = some c' ∧ c'.Fits (w'.session r).status)
    (hsaid : ∀ t ≠ r, took t said = []) : Converses said A w w' := by
  refine ⟨[.sent r msg], htrace, fun t ht => ?_, fun t c hc => ?_⟩
  · have hne : r ≠ t := by
      rintro rfl
      exact ht hr
    rw [saidTo_sent, if_neg hne]
  · rw [saidTo_sent]
    by_cases heq : r = t
    · subst heq
      rw [if_pos rfl]
      exact hself c hc
    · rw [if_neg heq, hsaid t (Ne.symm heq)]
      exact ⟨c, rfl, by rwa [hothers t (Ne.symm heq)]⟩

/-- A plain message may be sent at any time. -/
lemma converses_sendMsg (hr : r ∈ A) (h : Plain msg) :
    Converses none A w (w.sendMsg env cur r msg) := by
  refine converses_one hr (trace_sendMsg r msg w) (fun t _ => by rw [session_sendMsg]) ?_
    fun _ _ => rfl
  rintro c ⟨ready, rfl, hready⟩
  refine ⟨.talking ready, ?_, ready, rfl, by rwa [session_sendMsg]⟩
  simp [Conversation.run, took, Conversation.next, h.1, h.2]

/-- A hand, for a session that is ready. -/
lemma converses_sendCards {cards : Bytes} {deskID : Int64} (hr : r ∈ A) (hcards : IsCards cards)
    (hstatus : (w.session r).status = .READY) :
    Converses none A w (w.sendCards env cur r cards deskID) := by
  have hsent : Converses none A w ((w.sendMsg env cur r cards).modifySession r fun s =>
      { s with deskID := deskID, status := .IN_GAME }) := by
    refine converses_one hr (trace_sendMsg r cards w) (fun t ht => ?_) ?_ fun _ _ => rfl
    · simp [modifySession, ht, session_sendMsg]
    · rintro c ⟨ready, rfl, hready⟩
      refine ⟨.talking false, ?_, false, rfl, by simp [modifySession]⟩
      simp [Conversation.run, took, Conversation.next, hcards, hready hstatus]
  exact hsent.trans (Converses.of_log (e := .dealt r deskID) fun _ => rfl)

/-- An answer, to whom it is owed. -/
lemma converses_answer {right : Bool} (hr : r ∈ A) (hverdict : verdict package = some right) :
    Converses (some (r, package)) A w (w.sendMsg env cur r (verdictMsg right)) := by
  refine converses_one hr (trace_sendMsg r _ w) (fun t _ => by rw [session_sendMsg]) ?_
    fun t ht => by rw [took_some, if_neg (Ne.symm ht)]
  rintro c ⟨ready, rfl, hready⟩
  refine ⟨.talking ready, ?_, ready, rfl, by rwa [session_sendMsg]⟩
  simp [Conversation.run, took, Conversation.next, hverdict]

/-- The session says that it is ready. -/
lemma converses_ready (hcmd : IsReadyCmd package) : Converses (some (r, package)) A w
    (w.modifySession r fun s => { s with status := .READY }) := by
  refine ⟨[], rfl, fun _ _ => rfl, fun t c hc => ?_⟩
  obtain ⟨ready, rfl, hready⟩ := hc
  have hverdict : verdict package = none := if_pos (Or.inr hcmd)
  rw [took_some]
  by_cases heq : r = t
  · subst heq
    refine ⟨.talking true, ?_, true, rfl, fun _ => rfl⟩
    simp [Conversation.run, saidTo, Conversation.next, hverdict, hcmd]
  · refine ⟨.talking ready, by rw [if_neg heq]; rfl, ready, rfl, ?_⟩
    simpa [modifySession, Ne.symm heq] using hready

lemma converses_sendAll {includeSelf : Bool} {id : Int32} {status : SessionStatus} {deskID : Int64}
    (hA : ∀ r ∈ w.sessions.map Prod.snd, r ∈ A) (hmsg : Plain msg)
    (h : w.sendAll env cur msg includeSelf id status deskID = .ok w') :
    Converses none A w w' :=
  (sendAll_invariant (I := Converses none A w) (Converses.of_eq rfl fun _ h => h)
    (fun r hr _ hw₁ _ _ => hw₁.trans (converses_sendMsg (hA r hr) hmsg)) h).1

/-- Removing a timer says nothing. -/
lemma converses_removeTimer (timerID : Int64) :
    Converses none A w (w.removeTimer cur l timerID) := by
  refine Converses.of_eq (trace_removeTimer l timerID w) fun t ht => ?_
  unfold removeTimer at ht
  split at ht <;> exact ht

/-- A reminder says its plain message, or nothing. -/
lemma converses_reminderCallback (timerID : Int64) (hr : r ∈ A) :
    Converses none A w (w.reminderCallback env cur r timerID) := by
  have hlog : Converses none A w (w.log (.reminder r timerID)) := Converses.of_log fun _ => rfl
  unfold reminderCallback
  dsimp only
  split
  · exact hlog.trans (converses_sendMsg hr plain_reminderMsg)
  · exact hlog.trans (converses_removeTimer timerID)

/-- The deal. -/
lemma converses_checkHandup (hA : ∀ r ∈ w.sessions.map Prod.snd, r ∈ A)
    (h : w.checkHandup env cur = .ok w') : Converses none A w w' := by
  unfold checkHandup at h
  split at h
  · obtain rfl : w = w' := Except.ok.inj h
    exact Converses.of_eq rfl fun _ => id
  · have hcards : IsCards (w.generateCards env).1 := by
      simp [IsCards, generateCards, ascii]
    refine (forEachSession_invariant (w := (w.generateCards env).2.2)
      (I := Converses none A w) (Converses.of_eq rfl fun _ => id) ?_ h).1
    intro r hr w₁ hw₁ _ _
    split
    · next hstatus => exact hw₁.trans (converses_sendCards (hA r hr) hcards hstatus)
    · exact hw₁

/-- A package that is no right answer. -/
lemma converses_processPackage (hr : r ∈ A) (hA : ∀ r ∈ w.sessions.map Prod.snd, r ∈ A)
    (hanswer : package ≠ answerCmd) (h : w.processPackage env cur r package = .ok w') :
    Converses (some (r, package)) A w w' := by
  unfold processPackage at h
  split at h
  · obtain rfl : w = w' := Except.ok.inj h
    exact (Converses.of_eq rfl fun _ => id).of_package (if_pos (Or.inl (by simp)))
  · next c package =>
    split at h
    · next hchat =>
      exact (converses_sendAll hA (plain_msgWithPrefix _ _) h).of_package
        (if_pos (Or.inl (by simpa using hchat)))
    · next hcommand =>
      rw [processCmd, if_neg hanswer] at h
      split at h
      · next hready =>
        obtain rfl := Except.ok.inj h
        exact converses_ready hready
      · next hready =>
        obtain rfl := Except.ok.inj h
        have hhead : (c :: package).head? = some 33 := by simpa using hcommand
        have hverdict : verdict (c :: package) = some false := by
          rw [verdict, if_neg (by simp [hhead, hready])]
          simp [hanswer]
        exact converses_answer hr hverdict

/-! ## The steps of a thread -/

/-- A connection that is closed sends nothing, and its session keeps its status. -/
lemma converses_onClose : Converses none A w (w.onClose cur r) := by
  refine Converses.of_eq (trace_onClose r w) fun t ht => ?_
  rwa [(touches_onClose (A := {r}) rfl).session] at ht

/-- A round of `Calc24Session::onRead` in which a package is taken. -/
lemma converses_decode {recvBuf : ByteBuffer} (hr : r ∈ A)
    (hA : ∀ t ∈ w.sessions.map Prod.snd, t ∈ A)
    (hnext : w.nextPackage r = (.success, recvBuf, package))
    (h : w.decode env n r batch = some (stage', w')) :
    Converses (some (r, package)) A w w' := by
  rw [decode, hnext] at h
  dsimp only at h
  split at h
  · next hanswer =>
    obtain ⟨-, rfl⟩ := Prod.mk.inj (Option.some.inj h)
    have hverdict : verdict package = some true := by
      rw [hanswer]
      decide
    have hanswered : Converses (some (r, package)) A (w.setRecvBuf r recvBuf)
        ((w.setRecvBuf r recvBuf).answer env (.worker n) r) :=
      converses_answer hr hverdict
    exact hanswered.of_same rfl rfl
  · next hanswer =>
    obtain ⟨w₁, hok, heq⟩ := TransitionSystem.exists_ok_of_toOption_map h
    obtain ⟨-, rfl⟩ := Prod.mk.inj heq
    have hprocess : Converses (some (r, package)) A (w.setRecvBuf r recvBuf) w₁ :=
      converses_processPackage hr hA hanswer hok
    exact hprocess.of_same rfl rfl

/-- A round in which there is no package to take. -/
lemma converses_decode_of_fail (hfail : (w.nextPackage r).1 ≠ .success)
    (h : w.decode env n r batch = some (stage', w')) : Converses none A w w' := by
  unfold decode at h
  split at h
  · obtain ⟨-, rfl⟩ := Prod.mk.inj (Option.some.inj h)
    exact Converses.of_eq rfl fun _ ht => ht
  · obtain ⟨-, rfl⟩ := Prod.mk.inj (Option.some.inj h)
    exact converses_onClose
  · next hsuccess => exact absurd (congrArg Prod.fst hsuccess) hfail

/-- A task says nothing; its message has been said when it was queued. -/
lemma converses_runTask (task : CustomTask) :
    Converses none A w (runTask env (.worker n) w task) := by
  cases task with
  | send r buf =>
    have hlog : Converses none A w (w.log (.sendTask r)) := Converses.of_log fun _ => rfl
    refine hlog.trans (Converses.of_eq (trace_send r buf _) fun t ht => ?_)
    rwa [runTask, (touches_send (A := {r}) buf rfl).session] at ht
  | addTimerInternal spTimer =>
    rw [runTask, addTimerInternal, if_pos rfl]
    exact Converses.of_eq rfl fun _ ht => ht
  | removeTimerInternal timerID => exact converses_removeTimer timerID

/-- Every step of a worker thread but the rounds of `Calc24Session::onRead`. -/
lemma converses_work (hidle : ∀ l, (w.loop l).timers.isCheckTimers = false)
    (hA : ∀ t ∈ w.sessions.map Prod.snd, t ∈ A) (hreminded : w.Reminded (.worker n) ⊆ A)
    (hreader : stage.reader = none) (h : w.work env n input stage = some (stage', w')) :
    Converses none A w w' := by
  cases stage with
  | timers =>
    obtain ⟨-, rfl⟩ := Prod.mk.inj (Option.some.inj h)
    exact (checkAndDoTimers_rule (I := Converses none A w) _ (hidle _)
      (Converses.of_eq rfl fun _ ht => ht)
      (fun _ _ hw₁ => hw₁.trans (Converses.of_eq rfl fun _ ht => ht))
      fun _ hr timerID _ hw₁ => hw₁.trans (converses_reminderCallback timerID (hreminded hr))).2
  | poll =>
    rw [work] at h
    split at h
    · obtain ⟨-, rfl⟩ := Prod.mk.inj (Option.some.inj h)
      exact List.foldlRecOn (motive := Converses none A w) _ _ (Converses.of_eq rfl fun _ ht => ht)
        fun w₁ hw₁ event _ => hw₁.trans (Converses.of_eq rfl fun _ ht => ht)
    · cases h
  | dispatch batch =>
    cases batch with
    | nil =>
      obtain ⟨-, rfl⟩ := Prod.mk.inj (Option.some.inj h)
      exact Converses.of_eq rfl fun _ ht => ht
    | cons r batch =>
      have hreceive : w.receive n r batch input.recv = (stage', w') := Option.some.inj h
      unfold receive at hreceive
      split at hreceive
      · obtain ⟨-, rfl⟩ := Prod.mk.inj hreceive
        exact Converses.of_eq rfl fun _ ht => ht
      · split at hreceive
        · obtain ⟨-, rfl⟩ := Prod.mk.inj hreceive
          exact converses_onClose
        · obtain ⟨-, rfl⟩ := Prod.mk.inj hreceive
          exact Converses.of_eq rfl fun _ ht => ht
        · obtain ⟨-, rfl⟩ := Prod.mk.inj hreceive
          exact Converses.of_eq rfl fun _ ht => ht
  | reading r batch => cases hreader
  | answered r batch =>
    obtain ⟨w₁, hok, heq⟩ := TransitionSystem.exists_ok_of_toOption_map h
    obtain ⟨-, rfl⟩ := Prod.mk.inj heq
    exact converses_sendAll hA plain_notifyOthersGameOverMsg hok
  | notified r batch =>
    obtain ⟨w₁, hok, heq⟩ := TransitionSystem.exists_ok_of_toOption_map h
    obtain ⟨-, rfl⟩ := Prod.mk.inj heq
    have hresets := (resetDesk_cases hok).1
    refine Converses.of_eq hresets.trace fun t ht => ?_
    -- the reset makes players idle
    rcases hresets.place t with ⟨hstatus, -⟩ | ⟨-, hstatus, -⟩
    · rwa [hstatus] at ht
    · rw [hstatus] at ht
      cases ht
  | closing r eof batch =>
    cases eof with
    | true =>
      obtain ⟨-, rfl⟩ := Prod.mk.inj (Option.some.inj h)
      exact Converses.of_eq rfl fun _ ht => ht
    | false =>
      obtain ⟨-, rfl⟩ := Prod.mk.inj (Option.some.inj h)
      exact Converses.of_eq rfl fun _ ht => ht
  | writing r batch =>
    obtain ⟨-, rfl⟩ := Prod.mk.inj (Option.some.inj h)
    exact Converses.of_eq rfl fun _ ht => ht
  | tasks remaining =>
    cases remaining with
    | nil =>
      obtain ⟨-, rfl⟩ := Prod.mk.inj (Option.some.inj h)
      exact Converses.of_eq rfl fun _ ht => ht
    | cons task rest =>
      obtain ⟨-, rfl⟩ := Prod.mk.inj (Option.some.inj h)
      exact converses_runTask task

/-- A new session is welcomed. -/
lemma saidTo_connects (h : Connects r w w') :
    ∃ new, w'.trace = new ++ w.trace ∧
      ∀ t, saidTo t new = if r = t then [.told welcomeMsg] else [] := by
  have hreleased : ∀ t,
      saidTo t (w.pendingToDeleteSessions.map Event.released).reverse = [] := by
    intro t
    rw [saidTo, List.reverse_reverse, List.filterMap_map]
    exact List.filterMap_eq_nil_iff.mpr fun _ _ => rfl
  refine ⟨[.sent r welcomeMsg] ++ (w.pendingToDeleteSessions.map Event.released).reverse,
    h.trace, fun t => ?_⟩
  rw [saidTo_append, hreleased, saidTo_sent, List.nil_append]

end World

/-! ## All interleavings -/

namespace Process

variable {env : Environment} {s s' : Process} {step : Step} {tr : List (Step × Process)} {t : Ref}

/-- What a step exchanges with a session: the package that it takes, and then the messages that it
sends. -/
def exchanges (t : Ref) (s : Process) (step : Step) (s' : Process) : List Exchange :=
  took t (s.package step) ++
    saidTo t (s'.world.trace.take (s'.world.trace.length - s.world.trace.length))

/-- The state of the conversation with a session fits the state of the process. -/
def Fits (t : Ref) (c : Conversation) (s : Process) : Prop :=
  if t < s.world.nextRef then c.Fits (s.world.session t).status else c = .before

/-- A step exchanges the package that it takes and what its new events tell. -/
lemma exchanges_eq {new : List Event} (h : s'.world.trace = new ++ s.world.trace) :
    exchanges t s step s' = took t (s.package step) ++ saidTo t new := by
  rw [exchanges, h, List.length_append, Nat.add_sub_cancel, List.take_left]

/-- A step that leaves the sessions as they are. -/
lemma fits_of_converses
    (h : Converses (s.package step) {r | r < s.world.nextRef} s.world s'.world)
    (hnext : s'.world.nextRef = s.world.nextRef)
    (htaken : ∀ entry ∈ s.package step, entry.1 < s.world.nextRef) :
    ∃ new, s'.world.trace = new ++ s.world.trace ∧ ∀ t c, Fits t c s →
      ∃ c', c.run (took t (s.package step) ++ saidTo t new) = some c' ∧ Fits t c' s' := by
  obtain ⟨new, htrace, hnew, hfits⟩ := h
  refine ⟨new, htrace, fun t c hc => ?_⟩
  unfold Fits at hc ⊢
  rw [hnext]
  split at hc
  · next hlt =>
    obtain ⟨c', hrun, hc'⟩ := hfits t c hc
    exact ⟨c', hrun, by rwa [if_pos hlt]⟩
  · next hge =>
    have htook : took t (s.package step) = [] := by
      cases hpackage : s.package step with
      | none => rfl
      | some entry =>
        have hne : entry.1 ≠ t := by
          rintro rfl
          exact hge (htaken entry (by rw [hpackage]; rfl))
        simp [took, hne]
    refine ⟨c, ?_, by rwa [if_neg hge]⟩
    rw [htook, hnew t hge]
    rfl

/-- A new session is welcomed, and nothing happens to the others. -/
lemma fits_of_connects {w : World} (h : Connects s.world.nextRef s.world w)
    (hs' : s'.world = w) :
    ∃ new, s'.world.trace = new ++ s.world.trace ∧ ∀ t c, Fits t c s →
      ∃ c', c.run (saidTo t new) = some c' ∧ Fits t c' s' := by
  subst hs'
  obtain ⟨new, htrace, hnew⟩ := saidTo_connects h
  refine ⟨new, htrace, fun t c hc => ?_⟩
  unfold Fits at hc ⊢
  rw [hnew, h.nextRef]
  rcases lt_trichotomy t s.world.nextRef with hlt | rfl | hgt
  · rw [if_pos hlt] at hc
    refine ⟨c, by rw [if_neg hlt.ne']; rfl, ?_⟩
    rwa [if_pos (hlt.trans (Nat.lt_succ_self _)), h.session t hlt.ne]
  · rw [if_neg (lt_irrefl _)] at hc
    refine ⟨.talking false, by rw [if_pos rfl, hc]; rfl, ?_⟩
    rw [if_pos (Nat.lt_succ_self _)]
    refine ⟨false, rfl, fun hready => ?_⟩
    rw [h.isReset.2] at hready
    cases hready
  · rw [if_neg hgt.not_gt] at hc
    exact ⟨c, by rw [if_neg hgt.ne]; rfl, by rwa [if_neg (Nat.succ_le_of_lt hgt).not_gt]⟩

/-- Every step goes on with every conversation as the protocol has it. -/
theorem fits_next (hsound : s.Sound) (h : s.next env step = some s') :
    ∃ new, s'.world.trace = new ++ s.world.trace ∧ ∀ t c, Fits t c s →
      ∃ c', c.run (took t (s.package step) ++ saidTo t new) = some c' ∧ Fits t c' s' := by
  have hregistered : ∀ t ∈ s.world.sessions.map Prod.snd, t ∈ {r | r < s.world.nextRef} :=
    fun t ht => hsound.wellFormed.owned_lt t (List.mem_append_left _ ht)
  rcases next_cases h with ⟨fd, order, w, rfl, hok, rfl⟩ | ⟨w, rfl, hok, rfl⟩ |
    ⟨n, input, stage, w, rfl, -, hwork, rfl⟩
  · exact fits_of_connects (connect_cases hsound.wellFormed hok) rfl
  · exact fits_of_converses (converses_checkHandup hregistered hok)
      (affects_checkHandup hok).nextRef (fun entry hentry => by cases hentry)
  · have hturn := turn_work hsound.idle
      (fun task htask t ht => (hsound.remaining n task htask t ht).2) hwork
    cases hreader : (s.stage n).reader with
    | none =>
      have hpackage : s.package (.worker n input) = none := by
        rw [package, hreader]
        rfl
      have hreminded : s.world.Reminded (.worker n) ⊆ {r | r < s.world.nextRef} := by
        rintro r ⟨timer, htimer, htask⟩
        exact (hsound.entries _ timer htimer r htask).1
      refine fits_of_converses ?_ hturn.affects.nextRef fun entry hentry => ?_
      · rw [hpackage]
        exact converses_work hsound.idle hregistered hreminded hreader hwork
      · rw [hpackage] at hentry
        cases hentry
    | some r =>
      obtain ⟨batch, hstage⟩ : ∃ batch, s.stage n = .reading r batch := by
        cases hstage : s.stage n <;> rw [hstage] at hreader <;> cases hreader
        exact ⟨_, rfl⟩
      have hr : r < s.world.nextRef := (hsound.held n r (by simp [hstage, Stage.held])).1
      rw [hstage] at hwork
      rcases nextPackage_cases s.world r with ⟨-, hfail⟩ | ⟨body, rest, -, -, htaken⟩
      · have hpackage : s.package (.worker n input) = none := package_of_fail hstage hfail
        refine fits_of_converses ?_ hturn.affects.nextRef fun entry hentry => ?_
        · rw [hpackage]
          exact converses_decode_of_fail hfail hwork
        · rw [hpackage] at hentry
          cases hentry
      · have hpackage : s.package (.worker n input) = some (r, body ++ [LF]) := by
          rw [package, hreader, Option.bind_some, htaken]
        refine fits_of_converses ?_ hturn.affects.nextRef fun entry hentry => ?_
        · rw [hpackage]
          exact converses_decode hr hregistered htaken hwork
        · rw [hpackage] at hentry
          obtain rfl := Option.some.inj hentry
          exact hr

/-- What a step exchanges with a session is what its conversation may go on with. -/
lemma accepted_step (t : Ref) (c : Conversation) (s : Process) (step : Step) (s' : Process)
    (hs : (interleaved env).Reachable s) (hc : Fits t c s) (h : (interleaved env).step s step s') :
    ∃ c', (exchanges t s step s').foldlM Conversation.next c = some c' ∧ Fits t c' s' := by
  obtain ⟨new, htrace, hnext⟩ := fits_next (sound_reachable hs) h
  rw [exchanges_eq htrace]
  exact hnext t c hc

/-- The messages that a step exchanges with a session are those that the step sends to it. -/
lemma recorded_step (t : Ref) (s : Process) (step : Step) (s' : Process)
    (hs : (interleaved env).Reachable s) (h : (interleaved env).step s step s') :
    saidTo t s'.world.trace =
      saidTo t s.world.trace ++ (exchanges t s step s').filter Exchange.isTold := by
  obtain ⟨new, htrace, -⟩ := fits_next (sound_reachable hs) h
  rw [exchanges_eq htrace, htrace, saidTo_append, List.filter_append, filter_isTold_took,
    filter_isTold_saidTo, List.nil_append]

/-- **The threads follow the protocol.**  In every run of the server, what is exchanged with a
session is what the protocol allows, whichever threads take the steps and in whatever order; and
the messages of the conversation are all that the session is sent. -/
theorem followsProtocol {threadNum : ℕ} (hthreads : 0 < threadNum)
    (hrun : (interleaved env).Run (start threadNum) tr) (t : Ref) :
    FollowsProtocol (emitted (exchanges t) (start threadNum) tr) ∧
      (emitted (exchanges t) (start threadNum) tr).filter Exchange.isTold =
        saidTo t (last (start threadNum) tr).world.trace := by
  have hinit : (interleaved env).Reachable (start threadNum) := .of_init ⟨threadNum, hthreads, rfl⟩
  have hfits : Fits t .before (start threadNum) := by
    unfold Fits
    exact (if_neg (Nat.not_lt_zero t)).mpr rfl
  constructor
  · obtain ⟨c, hread, hc⟩ := hrun.accepted (accepted_step t) hinit hfits
    unfold Fits at hc
    split at hc
    · obtain ⟨ready, rfl, -⟩ := hc
      exact Conversation.followsProtocol_of_run hread
    · subst hc
      rw [Conversation.eq_nil_of_run_before hread]
      exact Conversation.followsProtocol_nil
  · exact (hrun.filter_emitted (recorded_step t) hinit).symm

/-- The first client says that it is ready, and then that it does not know. -/
def guessing : List Step :=
  [.connect 5 [], goOn 0, pollRead 0 0, recvText 0 "!ready\n!?\n", goOn 0, goOn 0]

/-- What is exchanged with the client. -/
theorem followsProtocol_guessing :
    FollowsProtocol [.told welcomeMsg, .took (ascii "!ready\n"), .took (ascii "!?\n"),
      .told wrongAnswer] := by
  have hfollows : follows (fun _ _ => True) calm (start 1) guessing = true := by decide
  have hrun := (TransitionSystem.run_states (T := interleaved calm) (fun _ _ _ => id) hfollows).1
  have hexchanged : emitted (exchanges 0) (start 1)
      (TransitionSystem.states (fun s step => next calm s step) (start 1) guessing) =
      [.told welcomeMsg, .took (ascii "!ready\n"), .took (ascii "!?\n"), .told wrongAnswer] := by
    decide
  rw [← hexchanged]
  exact (followsProtocol (by decide) hrun 0).1

end Process

end Calc24
