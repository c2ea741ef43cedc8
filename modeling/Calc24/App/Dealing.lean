import Calc24.Lib.Mailbox
import Calc24.App.Sequential

/-!
# Dealing while the players talk

The deal goes over the sessions on the base thread and does three things with each one that is
ready: it sends the cards, which become a task of the session's loop, and sets the desk and the
status.  In between and afterwards the worker threads handle packages, broadcast to the desk of
the sender, reset desks and execute the tasks of their loops.

Each of these statements is a step of its own here.  A loop is a mailbox: a message that is sent
on the loop's own thread goes to `sendInternal` at once, any other one waits for `doOtherTask`;
what has been handled, in order, are the calls of `sendInternal` on the connections of the loop.
Messages carry the desk they are about as a ghost.  Timers, other than the reminder itself, and
answers of the kernel are left out; a close is a step that takes the session out of the map.

Taken without steps in between, the steps of the deal do what `World.checkHandup` does
(`shows_checkHandup`).

A loop goes over the sessions that were in the map when it began.  Where a close erases one of them
before the loop has come to it, or erases the entry that the iterator stands on, which is undefined
in the source, the loop goes on as if the entry were still there.
-/

namespace Calc24

/-- The messages to sessions. -/
inductive Message
  /-- The cards of the deal with the desk id. -/
  | cards (deskID : Int64) (buf : Bytes)
  /-- What `sendAll` sends to a desk: a chat message or the end of the game. -/
  | room (deskID : Int64) (buf : Bytes)
  /-- A message to one session: a welcome, a reminder, a reply. -/
  | own (buf : Bytes)
  deriving DecidableEq, Repr

namespace Message

/-- The message has the cards of the desk. -/
def IsCards (deskID : Int64) : Message → Prop
  | .cards d _ => d = deskID
  | _ => False

/-- The message is a broadcast to the desk. -/
def IsRoom (deskID : Int64) : Message → Prop
  | .room d _ => d = deskID
  | _ => False

/-- The bytes of a message. -/
def buf : Message → Bytes
  | .cards _ buf => buf
  | .room _ buf => buf
  | .own buf => buf

instance (deskID : Int64) (m : Message) : Decidable (m.IsCards deskID) :=
  match m with
  | .cards d _ => inferInstanceAs (Decidable (d = deskID))
  | .room _ _ => .isFalse not_false
  | .own _ => .isFalse not_false

instance (deskID : Int64) (m : Message) : Decidable (m.IsRoom deskID) :=
  match m with
  | .cards _ _ => .isFalse not_false
  | .room d _ => inferInstanceAs (Decidable (d = deskID))
  | .own _ => .isFalse not_false

end Message

/-- Where the base thread is in the callback of the timer that checks for players. -/
inductive DealStage
  | idle
  /-- Before the next session of the loop. -/
  | dealing (deskID : Int64) (cards : Bytes) (remaining : List Ref)
  /-- In `sendCards`, before `m_deskID` is set. -/
  | seating (deskID : Int64) (cards : Bytes) (r : Ref) (remaining : List Ref)
  /-- In `sendCards`, before `m_status` is set. -/
  | starting (deskID : Int64) (cards : Bytes) (r : Ref) (remaining : List Ref)
  deriving DecidableEq

/-- The arguments of a call of `sendAll` with `includeSelf = false`. -/
structure Broadcast where
  msg : Bytes
  id : Int32
  status : SessionStatus
  deskID : Int64
  deriving DecidableEq

/-- Where a worker thread is. -/
inductive PlayStage
  /-- Between the functions below. -/
  | idle
  /-- In `Calc24Session::onRead`, before the next package. -/
  | reading (r : Ref)
  /-- In `processCmd`, after the reply to a right answer. -/
  | answered (r : Ref)
  /-- In `sendAll`, before the next session; `gameOver` says who has called it. -/
  | sendingAll (r : Ref) (gameOver : Bool) (call : Broadcast) (remaining : List Ref)
  /-- In `processCmd`, after the others have been notified. -/
  | notified (r : Ref)
  /-- In `resetSessionToIdle`, before the next session. -/
  | resetting (r : Ref) (deskID : Int64) (remaining : List Ref)
  /-- In `resetToIdle` of the session `t`, before `m_status` is set. -/
  | resettingStatus (r : Ref) (deskID : Int64) (t : Ref) (remaining : List Ref)
  /-- In `doOtherTask`. -/
  | tasks
  deriving DecidableEq

/-- The steps of the threads. -/
inductive DealingStep
  /-- The base loop connects a session and gives it to the loop of the worker `n`; `order` is the
  iteration order of the map afterwards. -/
  | connect (n : ℕ) (order : List Ref)
  /-- The base loop calls the callback of the timer that checks for players, with `cards` as the
  text of the cards. -/
  | checkHandup (cards : Bytes)
  /-- The base thread takes the next step of the deal. -/
  | deal
  /-- A worker thread starts to handle what a session has received. -/
  | read (n : ℕ) (r : Ref)
  /-- A worker thread takes a package off the receive buffer. -/
  | package (n : ℕ) (package : Bytes)
  /-- A worker thread starts to execute the tasks of its loop. -/
  | doOtherTask (n : ℕ)
  /-- A worker thread calls the reminder callback of a session. -/
  | remind (n : ℕ) (r : Ref)
  /-- A worker thread closes a connection, which takes its session out of the map. -/
  | close (n : ℕ) (r : Ref)
  /-- A worker thread goes on. -/
  | goOn (n : ℕ)
  deriving DecidableEq

/-- The sessions, the loops and the threads. -/
structure Dealing where
  sessions : List Ref
  session : Ref → Calc24Session
  loop : Ref → ℕ
  nextRef : Ref
  sessionBaseId : Int32
  deskBaseId : Int64
  mailbox : ℕ → Mailbox LoopId (Ref × Message)
  base : DealStage
  worker : ℕ → PlayStage

namespace Dealing

open World

/-- The server before anybody has connected. -/
def start : Dealing where
  sessions := []
  session := fun _ => { id := 0, timerID := 0, deskID := 0, status := .IDLE }
  loop := fun _ => 0
  nextRef := 0
  sessionBaseId := 0
  deskBaseId := 0
  mailbox := fun _ => {}
  base := .idle
  worker := fun _ => .idle

/-- `TCPConnection::send` on the thread `cur`. -/
def send (cur : LoopId) (r : Ref) (m : Message) (s : Dealing) : Dealing :=
  { s with
    mailbox := Function.update s.mailbox (s.loop r)
      ((s.mailbox (s.loop r)).post (.worker (s.loop r)) (cur, r, m)) }

/-- Change one session. -/
def modifySession (r : Ref) (f : Calc24Session → Calc24Session) (s : Dealing) : Dealing :=
  { s with session := Function.update s.session r (f (s.session r)) }

/-- Move a worker thread. -/
def goTo (n : ℕ) (stage : PlayStage) (s : Dealing) : Dealing :=
  { s with worker := Function.update s.worker n stage }

/-- The call of `sendAll` that a session makes. -/
def broadcast (s : Dealing) (r : Ref) (msg : Bytes) : Broadcast where
  msg := msg
  id := (s.session r).id
  status := (s.session r).status
  deskID := (s.session r).deskID

/-- `sendAll` sends to the session. -/
def Reaches (s : Dealing) (call : Broadcast) (t : Ref) : Prop :=
  (s.session t).id ≠ call.id ∧ (s.session t).status = call.status ∧
    (s.session t).deskID = call.deskID

instance (s : Dealing) (call : Broadcast) (t : Ref) : Decidable (s.Reaches call t) :=
  inferInstanceAs (Decidable (_ ∧ _ ∧ _))

/-- `Calc24Session::processPackage`, up to the iterations over the sessions. -/
def processPackage (n : ℕ) (r : Ref) (package : Bytes) (s : Dealing) : Dealing :=
  match package with
  | [] => s
  | c :: _ =>
    if c ≠ 33 then
      s.goTo n (.sendingAll r false (s.broadcast r (msgWithPrefix (s.session r).id package))
        s.sessions)
    else if IsReadyCmd package then
      s.modifySession r fun session => { session with status := .READY }
    else if package = answerCmd then
      (s.send (.worker n) r (.own rightAnswer)).goTo n (.answered r)
    else s.send (.worker n) r (.own wrongAnswer)

/-- The next statement of a worker thread. -/
def goOn (n : ℕ) (s : Dealing) : PlayStage → Dealing
  | .idle => s
  | .reading _ => s.goTo n .idle
  | .answered r =>
    s.goTo n (.sendingAll r true (s.broadcast r notifyOthersGameOverMsg) s.sessions)
  | .sendingAll r gameOver _ [] => s.goTo n (if gameOver then .notified r else .reading r)
  | .sendingAll r gameOver call (t :: rest) =>
    if s.Reaches call t then
      (s.send (.worker n) t (.room call.deskID call.msg)).goTo n (.sendingAll r gameOver call rest)
    else s.goTo n (.sendingAll r gameOver call rest)
  | .notified r => s.goTo n (.resetting r (s.session r).deskID s.sessions)
  | .resetting r _ [] => s.goTo n (.reading r)
  | .resetting r deskID (t :: rest) =>
    if (s.session t).deskID ≠ deskID then s.goTo n (.resetting r deskID rest)
    else (s.modifySession t fun session => { session with deskID := 0 }).goTo n
      (.resettingStatus r deskID t rest)
  | .resettingStatus r deskID t rest =>
    (s.modifySession t fun session => { session with status := .IDLE }).goTo n
      (.resetting r deskID rest)
  | .tasks =>
    if (s.mailbox n).batch = [] then s.goTo n .idle
    else { s with mailbox := Function.update s.mailbox n (s.mailbox n).handleNext }

/-- `readySessionCount`. -/
def readySessionCount (s : Dealing) : ℕ :=
  s.sessions.countP fun r => (s.session r).status = .READY

/-- The next statement of the deal. -/
def deal (s : Dealing) : DealStage → Option Dealing
  | .idle => none
  | .dealing _ _ [] => some { s with base := .idle }
  | .dealing deskID cards (r :: rest) =>
    if (s.session r).status = .READY then
      some { s.send .base r (.cards deskID cards) with base := .seating deskID cards r rest }
    else some { s with base := .dealing deskID cards rest }
  | .seating deskID cards r rest =>
    some { s.modifySession r fun session => { session with deskID := deskID } with
      base := .starting deskID cards r rest }
  | .starting deskID cards r rest =>
    some { s.modifySession r fun session => { session with status := .IN_GAME } with
      base := .dealing deskID cards rest }

/-- `Calc24Server::onConnected`, for a connection of the worker `n`. -/
def connect (n : ℕ) (order : List Ref) (s : Dealing) : Dealing :=
  send .base s.nextRef (.own welcomeMsg) { s with
    sessions := order
    session := Function.update s.session s.nextRef
      { id := s.sessionBaseId + 1, timerID := 0, deskID := 0, status := .IDLE }
    loop := Function.update s.loop s.nextRef n
    nextRef := s.nextRef + 1
    sessionBaseId := s.sessionBaseId + 1 }

/-- Where a step leads, if it can be taken. -/
def next (s : Dealing) : DealingStep → Option Dealing
  | .connect n order =>
    if s.base = .idle ∧ order.Perm (s.nextRef :: s.sessions) then some (s.connect n order)
    else none
  | .checkHandup cards =>
    if s.base ≠ .idle then none
    else if s.readySessionCount < REQUIRED_MIN_READY_COUNT then some s
    else some { s with
      deskBaseId := s.deskBaseId + 1
      base := .dealing (s.deskBaseId + 1) cards s.sessions }
  | .deal => s.deal s.base
  | .read n r =>
    if s.worker n = .idle ∧ r < s.nextRef ∧ s.loop r = n then some (s.goTo n (.reading r))
    else none
  | .package n package =>
    match s.worker n with
    | .reading r => some (s.processPackage n r package)
    | _ => none
  | .doOtherTask n =>
    if s.worker n = .idle then
      some { s.goTo n .tasks with mailbox := Function.update s.mailbox n (s.mailbox n).take }
    else none
  | .remind n r =>
    if s.worker n = .idle ∧ r < s.nextRef ∧ s.loop r = n ∧ (s.session r).status = .IDLE then
      some (s.send (.worker n) r (.own reminderMsg))
    else none
  | .close n r => if s.loop r = n then some { s with sessions := s.sessions.erase r } else none
  | .goOn n => some (s.goOn n (s.worker n))

/-- All interleavings of the threads. -/
def system : TransitionSystem Dealing DealingStep where
  init s := s = start
  step s step s' := s.next step = some s'

/-- The calls of `sendInternal` on the connection of a session, in order. -/
def output (s : Dealing) (r : Ref) : List Message :=
  ((s.mailbox (s.loop r)).handled.filter fun x => x.2.1 = r).map fun x => x.2.2

/-- In the output stream of a session that gets the cards of a desk, the cards come before
everything that is sent to the desk. -/
def CardsFirst (s : Dealing) : Prop :=
  ∀ r deskID, (∃ m ∈ s.output r, m.IsCards deskID) →
    Preceded (Message.IsRoom deskID) (Message.IsCards deskID) (s.output r)

/-! ## The deal without interruption -/

variable {env : Environment} {s s' : Dealing} {w w' : World} {r : Ref} {deskID : Int64}
  {cards : Bytes}

/-- The sends that are queued for a loop. -/
def queuedSends (w : World) (l : LoopId) : List (Ref × Bytes) :=
  (w.loop l).customTasks.filterMap fun task =>
    match task with
    | .send r buf => some (r, buf)
    | _ => none

/-- The same sessions, desks and queued sends as in a state of the whole server. -/
structure Shows (s : Dealing) (w : World) : Prop where
  sessions : s.sessions = w.sessions.map Prod.snd
  session : s.session = w.session
  deskBaseId : s.deskBaseId = w.deskBaseId
  loop : ∀ r ∈ w.sessions.map Prod.snd, (w.connection r).loop = .worker (s.loop r)
  queue : ∀ n, (s.mailbox n).queue.map (fun x => (x.2.1, x.2.2.buf)) = queuedSends w (.worker n)

/-- The cards of one session. -/
lemma Shows.sendCards (env : Environment) (deskID : Int64) (cards : Bytes) (base : DealStage)
    (h : Shows s w) (hr : r ∈ w.sessions.map Prod.snd) :
    Shows { (s.send .base r (.cards deskID cards)).modifySession r fun session =>
      { session with deskID := deskID, status := .IN_GAME } with base := base }
      (w.sendCards env .base r cards deskID) := by
  have hloop := h.loop r hr
  have hne : LoopId.base ≠ (w.connection r).loop := by
    rw [hloop]
    exact fun heq => by cases heq
  have hsend : w.sendMsg env .base r cards = (w.log (.sent r cards)).modifyLoop
      (w.connection r).loop (EventLoop.addTask (.send r cards)) := if_neg hne
  rw [World.sendCards, hsend]
  refine ⟨h.sessions, ?_, h.deskBaseId, h.loop, fun n => ?_⟩
  · simp [Dealing.modifySession, Dealing.send, World.modifySession, World.modifyLoop, World.log,
      h.session]
  · have hqueue := h.queue n
    by_cases hn : n = s.loop r
    · subst hn
      simp only [queuedSends] at hqueue
      simp [Dealing.modifySession, Dealing.send, World.modifySession, World.modifyLoop, World.log,
        hloop, Mailbox.post, queuedSends, EventLoop.addTask, hqueue]
      rfl
    · simpa [Dealing.modifySession, Dealing.send, World.modifySession, World.modifyLoop,
        World.log, hloop, hn, queuedSends] using hqueue

/-- The rest of the deal. -/
lemma shows_deal {rest : List (Int32 × Ref)} (h : Shows s w)
    (hbase : s.base = .dealing deskID cards (rest.map Prod.snd))
    (hrest : ∀ entry ∈ rest, entry.2 ∈ w.sessions.map Prod.snd)
    (hok : forEachSession.go (fun r w =>
      if (w.session r).status = .READY then w.sendCards env .base r cards deskID else w) rest w =
        .ok w') :
    ∃ count, Shows (TransitionSystem.runAll next s (List.replicate count .deal)) w' ∧
      (TransitionSystem.runAll next s (List.replicate count .deal)).base = .idle := by
  induction rest generalizing s w with
  | nil =>
    obtain rfl : w = w' := by simpa [forEachSession.go] using hok
    have hlast : s.next .deal = some { s with base := .idle } := by
      simp [next, hbase, deal]
    refine ⟨1, ?_⟩
    rw [List.replicate_one, TransitionSystem.runAll_cons hlast]
    exact ⟨⟨h.sessions, h.session, h.deskBaseId, h.loop, h.queue⟩, rfl⟩
  | cons entry rest ih =>
    obtain ⟨hentry, hrest⟩ := List.forall_mem_cons.mp hrest
    rw [forEachSession.go] at hok
    by_cases hready : (w.session entry.2).status = .READY
    · simp only [if_pos hready] at hok
      split at hok
      · next hsame =>
        have hcards := h.sendCards env deskID cards (.dealing deskID cards (rest.map Prod.snd))
          hentry
        have hrest' : ∀ entry' ∈ rest, entry'.2 ∈
            (w.sendCards env .base entry.2 cards deskID).sessions.map Prod.snd := by
          rw [hsame]
          exact hrest
        obtain ⟨count, hcount⟩ := ih hcards rfl hrest' hok
        -- the three statements of `sendCards`
        have h₁ : s.next .deal = some { s.send .base entry.2 (.cards deskID cards) with
            base := .seating deskID cards entry.2 (rest.map Prod.snd) } := by
          simp [next, hbase, deal, h.session, hready]
        have h₂ : next { s.send .base entry.2 (.cards deskID cards) with
            base := .seating deskID cards entry.2 (rest.map Prod.snd) } .deal =
              some { (s.send .base entry.2 (.cards deskID cards)).modifySession entry.2
                fun session => { session with deskID := deskID } with
                  base := .starting deskID cards entry.2 (rest.map Prod.snd) } := rfl
        have h₃ : next { (s.send .base entry.2 (.cards deskID cards)).modifySession entry.2
            fun session => { session with deskID := deskID } with
              base := .starting deskID cards entry.2 (rest.map Prod.snd) } .deal =
              some { (s.send .base entry.2 (.cards deskID cards)).modifySession entry.2
                fun session => { session with deskID := deskID, status := .IN_GAME } with
                  base := .dealing deskID cards (rest.map Prod.snd) } := by
          simp [next, deal, Dealing.modifySession]
        refine ⟨count + 3, ?_⟩
        rw [List.replicate_succ, TransitionSystem.runAll_cons h₁, List.replicate_succ,
          TransitionSystem.runAll_cons h₂, List.replicate_succ, TransitionSystem.runAll_cons h₃]
        exact hcount
      · cases hok
    · simp only [if_neg hready, if_true] at hok
      have hskip : s.next .deal =
          some { s with base := .dealing deskID cards (rest.map Prod.snd) } := by
        simp [next, hbase, deal, h.session, hready]
      have hsame : Shows { s with base := .dealing deskID cards (rest.map Prod.snd) } w :=
        ⟨h.sessions, h.session, h.deskBaseId, h.loop, h.queue⟩
      obtain ⟨count, hcount⟩ := ih hsame rfl hrest hok
      refine ⟨count + 1, ?_⟩
      rw [List.replicate_succ, TransitionSystem.runAll_cons hskip]
      exact hcount

/-- **Without other steps in between, the small steps of the deal do what the callback of the timer
that checks for players does.** -/
theorem shows_checkHandup (h : Shows s w) (hbase : s.base = .idle)
    (hok : w.checkHandup env .base = .ok w') :
    ∃ count, Shows (TransitionSystem.runAll next s
        (.checkHandup (w.generateCards env).1 :: List.replicate count .deal)) w' ∧
      (TransitionSystem.runAll next s
        (.checkHandup (w.generateCards env).1 :: List.replicate count .deal)).base = .idle := by
  have hcount : s.readySessionCount = w.readySessionCount := by
    rw [readySessionCount, World.readySessionCount, h.sessions, h.session, List.countP_map]
    rfl
  unfold World.checkHandup at hok
  split at hok
  · next hfew =>
    obtain rfl : w = w' := Except.ok.inj hok
    have hstep : s.next (.checkHandup (w.generateCards env).1) = some s := by
      simp [next, hbase, hcount, hfew]
    refine ⟨0, ?_⟩
    rw [List.replicate_zero, TransitionSystem.runAll_cons hstep]
    exact ⟨h, hbase⟩
  · next hmany =>
    have hstep : s.next (.checkHandup (w.generateCards env).1) = some { s with
        deskBaseId := s.deskBaseId + 1
        base := .dealing (s.deskBaseId + 1) (w.generateCards env).1 s.sessions } := by
      simp [next, hbase, hcount, hmany]
    have hgenerated : Shows { s with
        deskBaseId := s.deskBaseId + 1
        base := .dealing (s.deskBaseId + 1) (w.generateCards env).1 s.sessions }
        (w.generateCards env).2.2 :=
      ⟨h.sessions, h.session, congrArg (· + 1) h.deskBaseId, h.loop, h.queue⟩
    have hstage : DealStage.dealing (s.deskBaseId + 1) (w.generateCards env).1 s.sessions =
        .dealing (w.deskBaseId + 1) (w.generateCards env).1 (w.sessions.map Prod.snd) := by
      rw [h.sessions, h.deskBaseId]
    obtain ⟨count, hdeal⟩ := shows_deal hgenerated hstage
      (fun entry hentry => List.mem_map_of_mem hentry) hok
    refine ⟨count, ?_⟩
    rw [TransitionSystem.runAll_cons hstep]
    exact hdeal

end Dealing

end Calc24
