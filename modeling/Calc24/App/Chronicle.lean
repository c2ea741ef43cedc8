import Calc24.App.Broadcast
import Calc24.App.Texts

/-!
# What is said and what is heard

Beside the threads of the server this file keeps a chronicle: each chat package that a thread takes
off a receive buffer is written down, with the id of its author and the sessions that share the
author's status and desk at this moment (`Utterance`).

The steps are those of `Process`, where a package is taken and passed on to its whole audience in
one step.  In the source other threads may come in between: the loop of `sendAll` looks at each
session only when it comes to it, so who gets the message may differ from this audience, and two
messages may be passed on at the same time (`Dealing` has these steps).

In every interleaving of the steps of `Process` the messages that the sessions are sent are these
utterances, once for each member of the audience and in the order of the chronicle, and texts of the
server (`heard_eq_said`).  Nobody is sent a chat message that has not been said, no message is lost,
repeated or sent to anybody else, commands are never passed on, and what a session is sent can be
cut into the messages again, since each of them is one line (`lines_of_messagesTo`).
-/

namespace Calc24

open World

/-- A chat package that has been taken off a receive buffer, with the id of its author and those
whom `sendAll` is to send it to. -/
structure Utterance where
  id : Int32
  package : Bytes
  audience : List Ref
  deriving DecidableEq

namespace Utterance

/-- The message that `processChatMsg` makes of the package. -/
def message (u : Utterance) : Bytes :=
  msgWithPrefix u.id u.package

/-- The sends of the message, the latest one first. -/
def sends (u : Utterance) : List Event :=
  (u.audience.map (.sent · u.message)).reverse

/-- A package is a line and no command, and nobody is in the audience twice. -/
structure Spoken (u : Utterance) : Prop where
  isLine : IsLine u.package
  no_command : u.package.head? ≠ some 33
  nodup : u.audience.Nodup

end Utterance

/-- A send of a chat message: those start with a small letter `c`. -/
def Event.isChat : Event → Bool
  | .sent _ msg => msg.head? = some 99
  | _ => false

namespace World

variable {env : Environment} {cur l : LoopId} {n : ℕ} {r t : Ref} {batch : List Ref}
  {w w' : World} {stage stage' : Stage} {input : Input} {msg : Bytes}

/-- What is said when the next package is taken off the receive buffer of a session. -/
def utterance (w : World) (r : Ref) : Option Utterance :=
  match w.nextPackage r with
  | (.success, _, c :: package) =>
    if c ≠ 33 then
      some
        { id := (w.session r).id
          package := c :: package
          audience := w.recipients false (w.session r).id (w.session r).status
            (w.session r).deskID }
    else none
  | _ => none

/-! ## What a step says -/

/-- Sends of the server's own texts, and everything that is no send. -/
def ServerSays : Event → Prop
  | .sent _ msg => ServerText msg
  | _ => True

/-- The server's own texts are no chat messages. -/
lemma ServerSays.isChat_eq_false {e : Event} (h : ServerSays e) : e.isChat = false := by
  cases e with
  | sent r msg => simpa [Event.isChat] using ServerText.head_ne h
  | sendTask r => rfl
  | reminder r timerID => rfl
  | dealt r deskID => rfl
  | released r => rfl

/-- The messages that the server has in its source are its own texts. -/
lemma serverText_of_mem
    (h : msg ∈ [welcomeMsg, reminderMsg, rightAnswer, notifyOthersGameOverMsg, wrongAnswer]) :
    ServerText msg :=
  Or.inl h

lemma says_sendMsg (h : ServerText msg) : Records ServerSays w (w.sendMsg env cur r msg) :=
  Records.of_cons (trace_sendMsg r msg w) h

lemma says_sendAll {includeSelf : Bool} {id : Int32} {status : SessionStatus} {deskID : Int64}
    (hmsg : ServerText msg) (h : w.sendAll env cur msg includeSelf id status deskID = .ok w') :
    Records ServerSays w w' :=
  (sendAll_invariant (I := Records ServerSays w) (Records.of_trace_eq rfl)
    (fun _ _ _ hw₁ _ _ => hw₁.trans (says_sendMsg hmsg)) h).1

lemma says_reminderCallback (timerID : Int64) :
    Records ServerSays w (w.reminderCallback env cur r timerID) := by
  have hlog : Records ServerSays w (w.log (.reminder r timerID)) := Records.of_cons rfl trivial
  unfold reminderCallback
  dsimp only
  split
  · exact hlog.trans (says_sendMsg (serverText_of_mem (by simp)))
  · exact hlog.trans (Records.of_trace_eq (trace_removeTimer _ _ _))

/-- The deal. -/
lemma says_checkHandup (h : w.checkHandup env cur = .ok w') : Records ServerSays w w' := by
  unfold checkHandup at h
  split at h
  · obtain rfl : w = w' := Except.ok.inj h
    exact Records.of_trace_eq rfl
  · refine (forEachSession_invariant (w := (w.generateCards env).2.2)
      (I := Records ServerSays w) (Records.of_trace_eq rfl) ?_ h).1
    intro r _ w₁ hw₁ _ _
    split
    · have hcards : Records ServerSays w₁ (w₁.sendMsg env cur r (w.generateCards env).1) :=
        says_sendMsg (serverText_generateCards env w)
      exact (hw₁.trans hcards).trans (Records.of_cons rfl trivial)
    · exact hw₁

/-- A new session is welcomed. -/
lemma says_connects (h : Connects r w w') : Records ServerSays w w' := by
  refine ⟨.sent r welcomeMsg :: (w.pendingToDeleteSessions.map Event.released).reverse, ?_, ?_⟩
  · rw [h.trace, List.cons_append]
  · rw [List.forall_mem_cons]
    refine ⟨serverText_of_mem (by simp), fun e he => ?_⟩
    obtain ⟨t, -, rfl⟩ := List.mem_map.mp (List.mem_reverse.mp he)
    trivial

/-- A command, and a package that is no chat message at all. -/
lemma says_processPackage {package : Bytes} (hcommand : ∀ c ∈ package.head?, c = 33)
    (hanswer : package ≠ answerCmd) (h : w.processPackage env cur r package = .ok w') :
    Records ServerSays w w' := by
  unfold processPackage at h
  split at h
  · obtain rfl : w = w' := Except.ok.inj h
    exact Records.of_trace_eq rfl
  · next c package =>
    obtain rfl : c = 33 := hcommand c rfl
    rw [if_neg (by simp), processCmd, if_neg hanswer] at h
    split at h
    · obtain rfl := Except.ok.inj h
      exact Records.of_trace_eq rfl
    · obtain rfl := Except.ok.inj h
      exact says_sendMsg (serverText_of_mem (by simp))

/-! ## Chat packages -/

/-- A package that has been taken off the buffer is a line. -/
lemma isLine_of_nextPackage {recvBuf : ByteBuffer} {package : Bytes}
    (h : w.nextPackage r = (.success, recvBuf, package)) : IsLine package := by
  rcases Framing.not_mem_or_exists_first LF (w.connection r).recvBuf.internalBuf with
    hno | ⟨body, rest, hbody, hbuf⟩
  · rw [nextPackage, Calc24Session.decodePackage_of_not_mem _ hno] at h
    split at h <;> simp at h
  · rw [nextPackage, Calc24Session.decodePackage_frame _ hbuf hbody] at h
    exact ⟨body, hbody, (congrArg (fun result => result.2.2) h).symm⟩

/-- An utterance is the next package, which is no command. -/
lemma utterance_eq_some {u : Utterance} (h : w.utterance r = some u) :
    ∃ recvBuf c package, c ≠ 33 ∧ w.nextPackage r = (.success, recvBuf, c :: package) ∧
      u = { id := (w.session r).id
            package := c :: package
            audience := w.recipients false (w.session r).id (w.session r).status
              (w.session r).deskID } := by
  unfold utterance at h
  split at h
  · next recvBuf c package hnext =>
    split at h
    · next hc => exact ⟨recvBuf, c, package, hc, hnext, (Option.some.inj h).symm⟩
    · cases h
  · cases h

/-- What a thread takes off a receive buffer and passes on is an utterance as it should be. -/
lemma spoken_of_utterance (hwf : WellFormed w) {u : Utterance} (h : w.utterance r = some u) :
    u.Spoken := by
  obtain ⟨recvBuf, c, package, hc, hnext, rfl⟩ := utterance_eq_some h
  constructor
  · exact isLine_of_nextPackage hnext
  · simpa using hc
  · exact hwf.refs_nodup.filter _

/-- A round of `Calc24Session::onRead` in which something is said. -/
lemma trace_decode_of_utterance {u : Utterance} (hu : w.utterance r = some u)
    (h : w.decode env n r batch = some (stage', w')) : w'.trace = u.sends ++ w.trace := by
  obtain ⟨recvBuf, c, package, hc, hnext, rfl⟩ := utterance_eq_some hu
  have hanswer : c :: package ≠ answerCmd := by
    intro heq
    have hhead := congrArg List.head? heq
    exact hc (by simpa [answerCmd, ascii] using hhead)
  rw [decode, hnext] at h
  dsimp only at h
  rw [if_neg hanswer] at h
  obtain ⟨w₁, hok, heq⟩ := TransitionSystem.exists_ok_of_toOption_map h
  obtain ⟨-, rfl⟩ := Prod.mk.inj heq
  rw [processPackage, if_pos hc, processChatMsg, sendAll] at hok
  rw [(forEachSession_eq_ok_iff.mp hok).2]
  exact trace_foldl_sendIfRecipient _ rfl

/-- A round in which nothing is said. -/
lemma says_decode (hu : w.utterance r = none)
    (h : w.decode env n r batch = some (stage', w')) : Records ServerSays w w' := by
  unfold decode at h
  split at h
  · obtain ⟨-, rfl⟩ := Prod.mk.inj (Option.some.inj h)
    exact Records.of_trace_eq rfl
  · obtain ⟨-, rfl⟩ := Prod.mk.inj (Option.some.inj h)
    exact Records.of_trace_eq (trace_onClose r w)
  · next recvBuf package hnext =>
    have hreceived : Records ServerSays w (w.setRecvBuf r recvBuf) := Records.of_trace_eq rfl
    dsimp only at h
    split at h
    · obtain ⟨-, rfl⟩ := Prod.mk.inj (Option.some.inj h)
      exact hreceived.trans (says_sendMsg (serverText_of_mem (by simp)))
    · next hanswer =>
      obtain ⟨w₁, hok, heq⟩ := TransitionSystem.exists_ok_of_toOption_map h
      obtain ⟨-, rfl⟩ := Prod.mk.inj heq
      refine hreceived.trans (says_processPackage (fun c hc => ?_) hanswer hok)
      -- a package that starts otherwise would have been an utterance
      obtain ⟨rest, rfl⟩ : ∃ rest, package = c :: rest := by
        cases package with
        | nil => cases hc
        | cons c' rest => exact ⟨rest, by rw [Option.some.inj hc]⟩
      by_contra hne
      simp [utterance, hnext, hne] at hu

/-! ## The other stages -/

/-- Every step of a worker thread but the rounds of `Calc24Session::onRead` sends texts of the
server only. -/
lemma says_work (hidle : ∀ l, (w.loop l).timers.isCheckTimers = false)
    (hreader : stage.reader = none) (h : w.work env n input stage = some (stage', w')) :
    Records ServerSays w w' := by
  cases stage with
  | timers =>
    obtain ⟨-, rfl⟩ := Prod.mk.inj (Option.some.inj h)
    refine (checkAndDoTimers_rule (I := Records ServerSays w) _ (hidle _)
      (Records.of_trace_eq rfl) (fun f w₁ hw₁ => ?_) fun r _ timerID w₁ hw₁ => ?_).2
    · exact hw₁.trans (Records.of_trace_eq rfl)
    · exact hw₁.trans (says_reminderCallback timerID)
  | poll =>
    rw [work] at h
    split at h
    · obtain ⟨-, rfl⟩ := Prod.mk.inj (Option.some.inj h)
      refine Records.of_trace_eq ?_
      exact List.foldlRecOn (motive := fun w₁ : World => w₁.trace = w.trace) _ _ rfl
        fun w₁ hw₁ event _ => hw₁
    · cases h
  | dispatch batch =>
    cases batch with
    | nil =>
      obtain ⟨-, rfl⟩ := Prod.mk.inj (Option.some.inj h)
      exact Records.of_trace_eq rfl
    | cons r batch =>
      have hreceive : w.receive n r batch input.recv = (stage', w') := Option.some.inj h
      unfold receive at hreceive
      split at hreceive
      · obtain ⟨-, rfl⟩ := Prod.mk.inj hreceive
        exact Records.of_trace_eq rfl
      · split at hreceive
        · obtain ⟨-, rfl⟩ := Prod.mk.inj hreceive
          exact Records.of_trace_eq (trace_onClose r w)
        · obtain ⟨-, rfl⟩ := Prod.mk.inj hreceive
          exact Records.of_trace_eq rfl
        · obtain ⟨-, rfl⟩ := Prod.mk.inj hreceive
          exact Records.of_trace_eq rfl
  | reading r batch => cases hreader
  | answered r batch =>
    obtain ⟨w₁, hok, heq⟩ := TransitionSystem.exists_ok_of_toOption_map h
    obtain ⟨-, rfl⟩ := Prod.mk.inj heq
    exact says_sendAll (serverText_of_mem (by simp)) hok
  | notified r batch =>
    obtain ⟨w₁, hok, heq⟩ := TransitionSystem.exists_ok_of_toOption_map h
    obtain ⟨-, rfl⟩ := Prod.mk.inj heq
    exact Records.of_trace_eq (resetDesk_cases hok).1.trace
  | closing r eof batch =>
    cases eof with
    | true =>
      obtain ⟨-, rfl⟩ := Prod.mk.inj (Option.some.inj h)
      exact Records.of_trace_eq rfl
    | false =>
      obtain ⟨-, rfl⟩ := Prod.mk.inj (Option.some.inj h)
      exact Records.of_trace_eq rfl
  | writing r batch =>
    obtain ⟨-, rfl⟩ := Prod.mk.inj (Option.some.inj h)
    exact Records.of_trace_eq rfl
  | tasks remaining =>
    cases remaining with
    | nil =>
      obtain ⟨-, rfl⟩ := Prod.mk.inj (Option.some.inj h)
      exact Records.of_trace_eq rfl
    | cons task rest =>
      obtain ⟨-, rfl⟩ := Prod.mk.inj (Option.some.inj h)
      cases task with
      | send r buf => exact Records.of_cons (trace_send r buf (w.log (.sendTask r))) trivial
      | addTimerInternal spTimer =>
        refine Records.of_trace_eq ?_
        rw [runTask, addTimerInternal, if_pos rfl]
        rfl
      | removeTimerInternal timerID =>
        exact Records.of_trace_eq (trace_removeTimer (.worker n) timerID w)

end World

/-! ## All interleavings -/

/-- The process with the utterances so far, the latest one first. -/
structure Chronicle where
  process : Process
  said : List Utterance

/-- What is said in a step. -/
def Process.utterance (s : Process) : Step → Option Utterance
  | .worker n _ => (s.stage n).reader.bind s.world.utterance
  | _ => none

/-- In every step something is said, and sent to its audience, or only the server speaks. -/
theorem Process.says_next {env : Environment} {s s' : Process} {step : Step} (hsound : s.Sound)
    (h : s.next env step = some s') :
    (s.utterance step = none ∧ Records ServerSays s.world s'.world) ∨
    ∃ u, s.utterance step = some u ∧ u.Spoken ∧ s'.world.trace = u.sends ++ s.world.trace := by
  rcases next_cases h with ⟨fd, order, w, rfl, hok, rfl⟩ | ⟨w, rfl, hok, rfl⟩ |
    ⟨n, input, stage, w, rfl, -, hwork, rfl⟩
  · exact Or.inl ⟨rfl, says_connects (connect_cases hsound.wellFormed hok)⟩
  · exact Or.inl ⟨rfl, says_checkHandup hok⟩
  · cases hreader : (s.stage n).reader with
    | none =>
      have hquiet : s.utterance (.worker n input) = none := by simp [utterance, hreader]
      exact Or.inl ⟨hquiet, says_work hsound.idle hreader hwork⟩
    | some r =>
      have hutterance : s.utterance (.worker n input) = s.world.utterance r := by
        simp [utterance, hreader]
      obtain ⟨batch, hstage⟩ : ∃ batch, s.stage n = .reading r batch := by
        cases hstage : s.stage n <;> rw [hstage] at hreader <;> cases hreader
        exact ⟨_, rfl⟩
      rw [hstage] at hwork
      rw [hutterance]
      cases hu : s.world.utterance r with
      | none => exact Or.inl ⟨rfl, says_decode hu hwork⟩
      | some u =>
        exact Or.inr ⟨u, rfl, spoken_of_utterance hsound.wellFormed hu,
          trace_decode_of_utterance hu hwork⟩

namespace Utterance

variable {u v : Utterance} {t : Ref} {id : Int32} {package : Bytes}

/-- What an utterance sends is chat. -/
lemma isChat_of_mem_sends {e : Event} (h : e ∈ u.sends) : e.isChat = true := by
  obtain ⟨t, -, rfl⟩ := List.mem_map.mp (List.mem_reverse.mp h)
  simp [Event.isChat, message, msgWithPrefix, ascii]

lemma mem_sends_iff :
    .sent t (msgWithPrefix id package) ∈ u.sends ↔ u.id = id ∧ u.package = package ∧ t ∈ u.audience := by
  rw [sends, List.mem_reverse, List.mem_map]
  constructor
  · rintro ⟨t', ht', heq⟩
    obtain ⟨rfl, hmessage⟩ := Event.sent.inj heq
    obtain ⟨hid, hpackage⟩ := msgWithPrefix_inj.mp hmessage
    exact ⟨hid, hpackage, ht'⟩
  · rintro ⟨rfl, rfl, ht⟩
    exact ⟨t, ht, rfl⟩

/-- An utterance is sent once to each member of its audience. -/
lemma Spoken.count_sends (h : u.Spoken) :
    u.sends.count (.sent t (msgWithPrefix id package)) =
      if u.id = id ∧ u.package = package ∧ t ∈ u.audience then 1 else 0 := by
  have hinjective : Function.Injective fun t => Event.sent t u.message :=
    fun t t' heq => (Event.sent.inj heq).1
  have hnodup : u.sends.Nodup := List.nodup_reverse.mpr (h.nodup.map hinjective)
  split
  · next hmem => exact List.count_eq_one_of_mem hnodup (mem_sends_iff.mpr hmem)
  · next hmem => exact List.count_eq_zero.mpr fun hsend => hmem (mem_sends_iff.mp hsend)

end Utterance

namespace Chronicle

variable {env : Environment} {s s' : Chronicle} {step : Step}

/-- Where a step leads, with what is said in it written down. -/
def next (env : Environment) (s : Chronicle) (step : Step) : Option Chronicle :=
  (s.process.next env step).map fun process =>
    { process := process, said := (s.process.utterance step).toList ++ s.said }

/-- All interleavings of the threads, with their chronicle. -/
def system (env : Environment) : TransitionSystem Chronicle Step where
  init s := (Process.interleaved env).init s.process ∧ s.said = []
  step s step s' := s.next env step = some s'

/-- The messages that a session is sent, the earliest one first. -/
def messagesTo (t : Ref) (s : Chronicle) : List Bytes :=
  s.process.world.trace.reverse.filterMap fun
    | .sent r msg => if r = t then some msg else none
    | _ => none

/-- The chat messages sent so far are the utterances of the chronicle, and all other messages are
texts of the server. -/
structure Faithful (s : Chronicle) : Prop where
  sound : s.process.Sound
  spoken : ∀ u ∈ s.said, u.Spoken
  chats : s.process.world.trace.filter Event.isChat = s.said.flatMap Utterance.sends
  others : ∀ t msg, .sent t msg ∈ s.process.world.trace →
    (Event.sent t msg).isChat = false → ServerText msg

lemma faithful_init (h : (system env).init s) : Faithful s := by
  obtain ⟨⟨threadNum, -, hprocess⟩, hsaid⟩ := h
  constructor
  · exact hprocess ▸ Process.sound_start threadNum
  · simp [hsaid]
  · rw [hprocess, hsaid]
    rfl
  · intro t msg hsent
    rw [hprocess] at hsent
    exact absurd hsent List.not_mem_nil

/-- Every step is written down faithfully. -/
lemma Faithful.next (h : Faithful s) (hstep : s.next env step = some s') : Faithful s' := by
  obtain ⟨process, hprocess, rfl⟩ := Option.map_eq_some_iff.mp hstep
  have hsound := h.sound.next hprocess
  rcases Process.says_next h.sound hprocess with
    ⟨hquiet, new, htrace, hnew⟩ | ⟨u, hu, hspoken, htrace⟩
  · have hfilter : new.filter Event.isChat = [] :=
      List.filter_eq_nil_iff.mpr fun e he => by simp [(hnew e he).isChat_eq_false]
    rw [hquiet, Option.toList_none, List.nil_append]
    refine ⟨hsound, h.spoken, ?_, fun t msg hsent hchat => ?_⟩
    · rw [htrace, List.filter_append, hfilter, List.nil_append]
      exact h.chats
    · rw [htrace] at hsent
      rcases List.mem_append.mp hsent with hsent | hsent
      · exact hnew _ hsent
      · exact h.others t msg hsent hchat
  · have hfilter : u.sends.filter Event.isChat = u.sends :=
      List.filter_eq_self.mpr fun e he => Utterance.isChat_of_mem_sends he
    rw [hu, Option.toList_some, List.singleton_append]
    refine ⟨hsound, List.forall_mem_cons.mpr ⟨hspoken, h.spoken⟩, ?_, fun t msg hsent hchat => ?_⟩
    · rw [htrace, List.filter_append, hfilter, h.chats, List.flatMap_cons]
    · rw [htrace] at hsent
      rcases List.mem_append.mp hsent with hsent | hsent
      · rw [Utterance.isChat_of_mem_sends hsent] at hchat
        cases hchat
      · exact h.others t msg hsent hchat

/-- What has been sent is what has been said, in every reachable state. -/
lemma faithful_reachable (h : (system env).Reachable s) : Faithful s :=
  h.invariant (fun _ => faithful_init) fun _ _ _ hs hstep => hs.next hstep

/-- Who is sent something is sent a text of the server or belongs to the audience of an
utterance. -/
lemma Faithful.serverText_or_said (h : Faithful s) {t : Ref} {msg : Bytes}
    (hsent : .sent t msg ∈ s.process.world.trace) :
    ServerText msg ∨ ∃ u ∈ s.said, t ∈ u.audience ∧ msg = u.message := by
  cases hchat : (Event.sent t msg).isChat with
  | false => exact Or.inl (h.others t msg hsent hchat)
  | true =>
    have hmem : .sent t msg ∈ s.said.flatMap Utterance.sends := by
      rw [← h.chats]
      exact List.mem_filter.mpr ⟨hsent, hchat⟩
    obtain ⟨u, hu, hsends⟩ := List.mem_flatMap.mp hmem
    obtain ⟨t', ht', heq⟩ := List.mem_map.mp (List.mem_reverse.mp hsends)
    obtain ⟨rfl, rfl⟩ := Event.sent.inj heq
    exact Or.inr ⟨u, hu, ht', rfl⟩

/-- **What is heard is what was said.**  Under every interleaving of the threads in which a package
is passed on in one step, the chat messages that sessions are sent are the utterances, in their
order and each one once for each member of its audience; so a session is sent
`client[id] says: package` as many times as it was in the audience when a session with this id said
the package.  An utterance is never a command. -/
theorem heard_eq_said (h : (system env).Reachable s) :
    s.process.world.trace.filter Event.isChat = s.said.flatMap Utterance.sends ∧
    (∀ t id package, s.process.world.trace.count (.sent t (msgWithPrefix id package)) =
      s.said.countP fun u => u.id = id ∧ u.package = package ∧ t ∈ u.audience) ∧
    ∀ u ∈ s.said, u.package.head? ≠ some 33 := by
  have hfaithful := faithful_reachable h
  refine ⟨hfaithful.chats, fun t id package => ?_, fun u hu => (hfaithful.spoken u hu).no_command⟩
  have hchat : (Event.sent t (msgWithPrefix id package)).isChat = true := by
    simp [Event.isChat, msgWithPrefix, ascii]
  have hcount : ∀ said : List Utterance, (∀ u ∈ said, u.Spoken) →
      (said.flatMap Utterance.sends).count (.sent t (msgWithPrefix id package)) =
        said.countP fun u => u.id = id ∧ u.package = package ∧ t ∈ u.audience := by
    intro said hsaid
    induction said with
    | nil => rfl
    | cons u said ih =>
      obtain ⟨hu, hrest⟩ := List.forall_mem_cons.mp hsaid
      rw [List.flatMap_cons, List.count_append, hu.count_sends, ih hrest, List.countP_cons,
        Nat.add_comm]
      simp only [decide_eq_true_eq]
  rw [← hcount s.said hfaithful.spoken, ← hfaithful.chats]
  exact (List.count_filter hchat).symm

/-- The steps of a chat: two clients connect, and the first one says "hi" to the second one. -/
def hi : List Step :=
  Process.chat ++ [Process.goOn 0]

/-- The chronicle after a list of steps. -/
def runSteps (env : Environment) : Chronicle → List Step → Chronicle :=
  TransitionSystem.runAll fun s step => s.next env step

lemma reachable_runSteps {threadNum : ℕ} (hthreadNum : 0 < threadNum) (steps : List Step)
    (h : TransitionSystem.follows (fun s step => next env s step) (fun _ _ => True)
      ⟨Process.start threadNum, []⟩ steps = true) :
    (system env).Reachable (runSteps env ⟨Process.start threadNum, []⟩ steps) :=
  TransitionSystem.ReachableUnder.runAll (fun _ _ _ => id)
    (.init ⟨⟨threadNum, hthreadNum, rfl⟩, rfl⟩) h

/-- The second client is sent what the first one has said, once. -/
theorem heard_eq_said_hi :
    (runSteps calm ⟨Process.start 1, []⟩ hi).process.world.trace.count
      (.sent 1 (msgWithPrefix 1 (ascii "hi\n"))) = 1 := by
  have hreach : (system calm).Reachable (runSteps calm ⟨Process.start 1, []⟩ hi) :=
    reachable_runSteps (by decide) hi (by decide)
  rw [(heard_eq_said hreach).2.1 1 1 (ascii "hi\n")]
  decide

/-- **What a session is sent are lines.**  Under every interleaving of the steps the messages that a
session is sent are cut off again at the line feeds, and each of these lines is one of the server's
own texts or, but never both, an utterance in whose audience the session was. -/
theorem lines_of_messagesTo (h : (system env).Reachable s) (t : Ref) :
    Framing.frames LF (s.messagesTo t).flatten = s.messagesTo t ∧
    Framing.residue LF (s.messagesTo t).flatten = [] ∧
    ∀ line ∈ s.messagesTo t,
      Xor (ServerText line) (∃ u ∈ s.said, t ∈ u.audience ∧ line = u.message) := by
  have hfaithful := faithful_reachable h
  have hsent : ∀ line ∈ s.messagesTo t, .sent t line ∈ s.process.world.trace := by
    intro line hline
    obtain ⟨e, he, hmsg⟩ := List.mem_filterMap.mp hline
    split at hmsg
    · next r msg =>
      split at hmsg
      · next hr =>
        obtain rfl := hr
        obtain rfl := Option.some.inj hmsg
        exact List.mem_reverse.mp he
      · cases hmsg
    · cases hmsg
  have hlines : ∀ line ∈ s.messagesTo t, IsLine line := by
    intro line hline
    rcases hfaithful.serverText_or_said (hsent line hline) with hserver | ⟨u, hu, -, rfl⟩
    · exact hserver.isLine
    · exact isLine_msgWithPrefix u.id (hfaithful.spoken u hu).isLine
  have hcut := Framing.frames_flatten_append hlines ([] : Bytes)
  rw [List.append_nil, Framing.frames_of_not_mem List.not_mem_nil, List.append_nil,
    Framing.residue_of_not_mem List.not_mem_nil] at hcut
  refine ⟨hcut.1, hcut.2, fun line hline => ?_⟩
  rcases hfaithful.serverText_or_said (hsent line hline) with hserver | ⟨u, hu, ht, rfl⟩
  · refine Or.inl ⟨hserver, ?_⟩
    rintro ⟨u, -, -, rfl⟩
    exact not_serverText_msgWithPrefix u.id u.package hserver
  · exact Or.inr ⟨⟨u, hu, ht, rfl⟩, not_serverText_msgWithPrefix u.id u.package⟩

/-- What the second client has been sent by then. -/
theorem lines_of_messagesTo_hi :
    Framing.frames LF ((runSteps calm ⟨Process.start 1, []⟩ hi).messagesTo 1).flatten =
      [welcomeMsg, msgWithPrefix 1 (ascii "hi\n")] := by
  have hreach : (system calm).Reachable (runSteps calm ⟨Process.start 1, []⟩ hi) :=
    reachable_runSteps (by decide) hi (by decide)
  rw [(lines_of_messagesTo hreach 1).1]
  decide

end Chronicle

end Calc24
