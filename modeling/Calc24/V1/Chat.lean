import Calc24.Lib.Mutex
import Calc24.V1.Departures
import Calc24.V1.Receiving

/-!
# The chat of the first version

Each client has a thread (`TCPServer::clientThreadFunc`, `Calc24v1/Calc24Server/TCPServer.cpp`),
which takes the messages off the receive buffer and passes each of them on to the others
(`sendMsgToOtherClients`), one `::send` after another, with `m_mutexForPlayers` locked.  This file
puts the receive loop and these sends into the steps of `Clients`, and interleaves all threads.

`newPlayerJoined` stores a player without the lock, so that a player may be stored while the loop of
`sendMsgToOtherClients` is running.  Whether the loop comes to this player as well is left open.
The assignment `m_players[clientfd]` may also rehash the map under the loop, which then goes on in
the new order of the entries, and may come to some of them twice and to others not at all
(`Insertion.rehash`); `NoRehash` is the guard that excludes it.  What else two unprotected accesses
to an `unordered_map` can do is undefined, and is not modelled: each access is one step.

`Keyed` is what the steps of `Clients` keep: the lock excludes, and the keys of `m_players` are the
descriptors of the players in it.
-/

namespace Calc24.V1

/-- `PALYER_WELCOME_MSG`. -/
def PALYER_WELCOME_MSG : Bytes :=
  ascii "Welcome To Calc24 Game!\n"

/-- Where the thread of a client is in its receive loop: before `recvData`, before
`handleClientMsg`, or before `sendMsgToOtherClients` with a message. -/
inductive LoopStage
  | recvData
  | handleClientMsg
  | sendMsgToOtherClients (aMsg : Bytes)
  deriving DecidableEq, Repr

/-- The message that a client is about to say. -/
def LoopStage.pending : LoopStage → List Bytes
  | .sendMsgToOtherClients aMsg => [aMsg]
  | _ => []

/-- What a call of `::send` has sent to a client; the messages of the chat have a number. -/
inductive Piece
  | welcome (text : Bytes)
  | cards (text : Bytes)
  | message (number : ℕ) (text : Bytes)
  deriving DecidableEq, Repr

/-- The number of a message. -/
def Piece.number : Piece → Option ℕ
  | .message number _ => some number
  | _ => none

/-- A message that has been said: by whom, and who else was in `m_players`. -/
structure Saying where
  author : PlayerRef
  aMsg : Bytes
  others : List PlayerRef
  deriving DecidableEq, Repr

/-- The clients with their receive loops, and the loop of `sendMsgToOtherClients` with the
descriptors that it has not come to yet.  What has been sent to the clients, received from them and
said are ghosts. -/
structure Chat where
  clients : Clients
  loop : PlayerRef → LoopStage
  recvBuf : PlayerRef → Bytes
  msgWithOwnerInfo : Bytes
  remaining : List ℕ
  sent : PlayerRef → List Piece
  received : PlayerRef → Bytes
  said : List Saying

/-- What `m_players[clientfd]` does to a loop that is running over `m_players`: `met` is where it
comes to the new player, if it does, and after a rehash it goes on with the entries `order`. -/
inductive Insertion
  | inPlace (met : Option ℕ)
  | rehash (order : List ℕ)
  deriving DecidableEq, Repr

/-- The descriptors that the loop has not come to yet. -/
def Insertion.remaining (clientfd : ℕ) (remaining : List ℕ) : Insertion → List ℕ
  | .inPlace none => remaining
  | .inPlace (some k) => remaining.insertIdx k clientfd
  | .rehash order => order

/-- The steps of the accepting thread and of the clean-up are those of `Clients`, with what storing
a player does to the loop of `sendMsgToOtherClients`.  The other steps are those of the thread of a
client: its calls of `::send`, with their results, and `order` is the order in which the loop visits
the entries of `m_players`. -/
inductive ChatStep
  | clients (l : ClientsStep)
  | storePlayer (insertion : Insertion)
  | senWelcomeMsg (p : PlayerRef) (sentLength : ℤ)
  | sendCards (p : PlayerRef) (cards : Bytes) (sentLength : ℤ)
  | recvData (p : PlayerRef) (n : RecvResult)
  | handleClientMsg (p : PlayerRef)
  | lock (p : PlayerRef) (order : List ℕ)
  | sendMsgToClient (p : PlayerRef) (sentLength : ℤ)
  | unlock (p : PlayerRef)

/-- The text that is sent to the others. -/
def ownerInfo (msgOwnerClientfd : ℕ) (msg : Bytes) : Bytes :=
  ascii "Client[" ++ decimal msgOwnerClientfd ++ ascii "] Says: " ++ msg

/-- The bytes that `::recv` has delivered. -/
def arrived : RecvResult → Bytes
  | .data clientMsg => clientMsg
  | _ => []

namespace Chat

/-- A server without clients. -/
def empty : Chat where
  clients := Clients.empty
  loop := fun _ => .recvData
  recvBuf := fun _ => []
  msgWithOwnerInfo := []
  remaining := []
  sent := fun _ => []
  received := fun _ => []
  said := []

/-- The descriptors in `m_players`, in some order. -/
def IsOrder (s : Chat) (order : List ℕ) : Prop :=
  order.Nodup ∧ (∀ clientfd ∈ order, s.clients.players clientfd ≠ none) ∧
    ∀ q < s.clients.joined, s.clients.players (s.clients.clientfd q) = some q →
      s.clients.clientfd q ∈ order

instance (s : Chat) (order : List ℕ) : Decidable (s.IsOrder order) :=
  inferInstanceAs (Decidable (_ ∧ _ ∧ _))

/-- Something has been sent to a client. -/
def put (s : Chat) (q : PlayerRef) (piece : Piece) : Chat :=
  { s with sent := Function.update s.sent q (s.sent q ++ [piece]) }

/-- A thread goes on to another place in its loop. -/
def goTo (s : Chat) (p : PlayerRef) (stage : LoopStage) : Chat :=
  { s with loop := Function.update s.loop p stage }

/-- The players other than `p` with these descriptors. -/
def playersExcept (s : Chat) (p : PlayerRef) (order : List ℕ) : List PlayerRef :=
  (order.filter fun clientfd => clientfd ≠ s.clients.clientfd p).filterMap s.clients.players

/-- One step, where it is possible. -/
def next (s : Chat) : ChatStep → Option Chat
  | .clients l =>
    match l with
    | .storePlayer | .welcome _ _ | .receive _ _ | .lockToSend _ | .unlockSent _ => none
    | l => (s.clients.next l).map fun clients => { s with clients := clients }
  | .storePlayer insertion =>
    match s.clients.accepting with
    | .storePlayer p =>
      (s.clients.next .storePlayer).map fun clients =>
        { s with
          clients := clients
          remaining := insertion.remaining (s.clients.clientfd p) s.remaining }
    | _ => none
  | .senWelcomeMsg p sentLength =>
    if sentLength ≤ PALYER_WELCOME_MSG.length then
      (s.clients.next (.welcome p (decide (sentLength = PALYER_WELCOME_MSG.length)))).map
        fun clients =>
          { s.put p (.welcome (PALYER_WELCOME_MSG.take sentLength.toNat)) with clients := clients }
    else none
  | .sendCards p cards sentLength =>
    if s.loop p = .recvData ∧ sentLength ≤ cards.length then
      (s.clients.next (.receive p (decide (sentLength = cards.length)))).map fun clients =>
        { s.put p (.cards (cards.take sentLength.toNat)) with clients := clients }
    else none
  | .recvData p n =>
    if s.loop p = .recvData ∧ (arrived n).length ≤ CLIENT_MSG_SIZE then
      (s.clients.next (.receive p (Player.recvData n (s.recvBuf p)).1)).map fun clients =>
        { s.goTo p .handleClientMsg with
          clients := clients
          recvBuf := Function.update s.recvBuf p (Player.recvData n (s.recvBuf p)).2
          received := Function.update s.received p (s.received p ++ arrived n) }
    else none
  | .handleClientMsg p =>
    if s.clients.thread p = .receive ∧ s.loop p = .handleClientMsg then
      match Player.handleClientMsg (s.recvBuf p) with
      | ([], recvBuf) =>
        some { s.goTo p .recvData with recvBuf := Function.update s.recvBuf p recvBuf }
      | (x :: xs, recvBuf) =>
        some
          { s.goTo p (.sendMsgToOtherClients (x :: xs)) with
            recvBuf := Function.update s.recvBuf p recvBuf }
    else none
  | .lock p order =>
    match s.loop p with
    | .sendMsgToOtherClients aMsg =>
      if s.IsOrder order then
        (s.clients.next (.lockToSend p)).map fun clients =>
          { s.goTo p .handleClientMsg with
            clients := clients
            msgWithOwnerInfo := ownerInfo (s.clients.clientfd p) aMsg
            remaining := order
            said := s.said ++ [⟨p, aMsg, s.playersExcept p order⟩] }
      else none
    | _ => none
  | .sendMsgToClient p sentLength =>
    if s.clients.thread p = .sendToOthers then
      match s.remaining with
      | [] => none
      | otherClientfd :: remaining =>
        if otherClientfd = s.clients.clientfd p then some { s with remaining := remaining }
        else
          match s.clients.players otherClientfd with
          | none => none
          | some q =>
            if sentLength ≤ s.msgWithOwnerInfo.length then
              some
                { s.put q (.message (s.said.length - 1)
                    (s.msgWithOwnerInfo.take sentLength.toNat)) with
                  remaining := remaining }
            else none
    else none
  | .unlock p =>
    if s.remaining = [] then
      (s.clients.next (.unlockSent p)).map fun clients => { s with clients := clients }
    else none

/-- The runs of the chat. -/
def system : TransitionSystem Chat ChatStep where
  init s := s = empty
  step s l s' := s.next l = some s'

/-- No entry of `m_players` is moved while a message is being passed on. -/
def NoRehash (s : Chat) : ChatStep → Prop
  | .storePlayer (.rehash _) => s.clients.mutexForPlayers = none
  | _ => True

instance (s : Chat) (l : ChatStep) : Decidable (s.NoRehash l) :=
  match l with
  | .storePlayer (.rehash _) => inferInstanceAs (Decidable (s.clients.mutexForPlayers = none))
  | .storePlayer (.inPlace _) | .clients _ | .senWelcomeMsg _ _ | .sendCards _ _ _ | .recvData _ _
  | .handleClientMsg _ | .lock _ _ | .sendMsgToClient _ _ | .unlock _ => .isTrue trivial

/-- The numbers of the messages that a client has heard. -/
def heard (s : Chat) (q : PlayerRef) : List ℕ :=
  (s.sent q).filterMap Piece.number

/-- What a client has said. -/
def saidBy (s : Chat) (p : PlayerRef) : List Bytes :=
  (s.said.filter fun saying => saying.author = p).map Saying.aMsg

end Chat

/-! ## The clients -/

/-- The thread is between a lock and an unlock of `m_mutexForPlayers`. -/
def ClientStage.Critical (stage : ClientStage) : Prop :=
  stage = .sendToOthers ∨ stage = .erasePlayer ∨ stage = .eraseThread ∨ stage = .unlock

instance : DecidablePred ClientStage.Critical := fun _ => inferInstanceAs (Decidable (_ ∨ _))

namespace Clients

variable {s s' : Clients} {l : ClientsStep} {p q : PlayerRef}

/-- The lock excludes, the keys of `m_players` are the descriptors of the players, a player that is
about to be stored is not there yet, and threads are started by the accepting thread. -/
structure Keyed (s : Clients) : Prop where
  excludes : Mutex.Excludes (fun p => (s.thread p).Critical) s.mutexForPlayers
  key : ∀ clientfd q, s.players clientfd = some q → s.clientfd q = clientfd ∧ q < s.joined
  arriving : ∀ p, s.accepting.player = some p →
    p < s.joined ∧ ∀ clientfd, s.players clientfd ≠ some p
  notStarted : ∀ p, s.joined ≤ p ∨ s.accepting = .startThread p → s.thread p = .notStarted

/-- A thread that moves without the lock. -/
lemma excludes_go {stage : ClientStage}
    (h : Mutex.Excludes (fun p => (s.thread p).Critical) s.mutexForPlayers)
    (hstage : stage.Critical → (s.thread p).Critical) :
    Mutex.Excludes (fun q => ((s.go p stage).thread q).Critical) s.mutexForPlayers := by
  refine h.mono fun q hq => ?_
  by_cases hqp : q = p
  · subst hqp
    simp only [go, Function.update_self] at hq
    exact hstage hq
  · simpa [go, hqp] using hq

/-- A free lock is given to one thread. -/
lemma excludes_acquire {stage : ClientStage}
    (h : Mutex.Excludes (fun p => (s.thread p).Critical) s.mutexForPlayers)
    (hfree : s.mutexForPlayers = none) :
    Mutex.Excludes (fun q => ((s.go p stage).thread q).Critical) (some p) := by
  rw [hfree] at h
  refine h.acquire fun q hq => ?_
  by_cases hqp : q = p
  · exact Or.inr hqp
  · exact Or.inl (by simpa [go, hqp] using hq)

/-- The thread that has the lock gives it back. -/
lemma excludes_release {stage : ClientStage}
    (h : Mutex.Excludes (fun p => (s.thread p).Critical) s.mutexForPlayers)
    (hp : (s.thread p).Critical) (hstage : ¬ stage.Critical) :
    Mutex.Excludes (fun q => ((s.go p stage).thread q).Critical) none := by
  refine h.release hp fun q hq => ?_
  by_cases hqp : q = p
  · subst hqp
    simp only [go, Function.update_self] at hq
    exact absurd hq hstage
  · exact ⟨by simpa [go, hqp] using hq, hqp⟩

/-- The lock excludes. -/
lemma excludes_step (h : Mutex.Excludes (fun p => (s.thread p).Critical) s.mutexForPlayers)
    (hstep : system.step s l s') :
    Mutex.Excludes (fun p => (s'.thread p).Critical) s'.mutexForPlayers := by
  cases l with
  | accept clientfd =>
    obtain ⟨-, heq⟩ := Option.ite_none_right_eq_some.mp hstep
    obtain rfl := Option.some.inj heq
    exact h
  | startThread =>
    simp only [system, next] at hstep
    split at hstep
    · obtain rfl := Option.some.inj hstep
      exact excludes_go h fun hcritical => absurd hcritical (by decide)
    · cases hstep
  | storeThread =>
    simp only [system, next] at hstep
    split at hstep
    · obtain rfl := Option.some.inj hstep
      exact h
    · cases hstep
  | storePlayer =>
    simp only [system, next] at hstep
    split at hstep
    · obtain rfl := Option.some.inj hstep
      exact h
    · cases hstep
  | welcome p sent =>
    obtain ⟨-, heq⟩ := Option.ite_none_right_eq_some.mp hstep
    obtain rfl := Option.some.inj heq
    exact excludes_go h fun hcritical => absurd hcritical (by cases sent <;> decide)
  | receive p received =>
    obtain ⟨-, heq⟩ := Option.ite_none_right_eq_some.mp hstep
    obtain rfl := Option.some.inj heq
    exact excludes_go h fun hcritical => absurd hcritical (by cases received <;> decide)
  | lockToSend p =>
    obtain ⟨⟨-, hfree⟩, heq⟩ := Option.ite_none_right_eq_some.mp hstep
    obtain rfl := Option.some.inj heq
    exact excludes_acquire h hfree
  | unlockSent p =>
    obtain ⟨hstage, heq⟩ := Option.ite_none_right_eq_some.mp hstep
    obtain rfl := Option.some.inj heq
    exact excludes_release h (Or.inl hstage) (by decide)
  | lockToErase p =>
    obtain ⟨⟨-, hfree⟩, heq⟩ := Option.ite_none_right_eq_some.mp hstep
    obtain rfl := Option.some.inj heq
    exact excludes_acquire h hfree
  | erasePlayer p =>
    obtain ⟨hstage, heq⟩ := Option.ite_none_right_eq_some.mp hstep
    obtain rfl := Option.some.inj heq
    exact excludes_go h fun _ => Or.inr (Or.inl hstage)
  | eraseThread p =>
    obtain ⟨hstage, heq⟩ := Option.ite_none_right_eq_some.mp hstep
    obtain rfl := Option.some.inj heq
    exact excludes_go h fun _ => Or.inr (Or.inr (Or.inl hstage))
  | finish p =>
    obtain ⟨hstage, heq⟩ := Option.ite_none_right_eq_some.mp hstep
    obtain rfl := Option.some.inj heq
    exact excludes_release h (Or.inr (Or.inr (Or.inr hstage))) (by decide)

/-- Entries are only erased by the thread of a client. -/
lemma ClientMove.players_eq_or (hmove : ClientMove p s s') (clientfd : ℕ) :
    s'.players clientfd = s.players clientfd ∨ s'.players clientfd = none := by
  rcases hmove.players with ⟨hsame, -⟩ | ⟨-, -, herased⟩
  · exact Or.inl (congrFun hsame clientfd)
  · rw [herased]
    by_cases hfd : clientfd = s.clientfd p
    · exact Or.inr (by rw [hfd, Function.update_self])
    · exact Or.inl (Function.update_of_ne hfd _ _)

/-- Every step keeps the lock and the keys right. -/
lemma Keyed.step (h : Keyed s) (hstep : system.step s l s') : Keyed s' := by
  have hexcludes := excludes_step h.excludes hstep
  rcases step_cases hstep with ⟨clientfd, -, haccepting, -, rfl⟩ | ⟨p, -, haccepting, rfl⟩ |
    ⟨p, -, haccepting, rfl⟩ | ⟨p, -, haccepting, rfl⟩ | ⟨p, hmove⟩
  · refine ⟨hexcludes, fun fd q hq => ?_, fun p hp => ?_, fun p hp => ?_⟩
    · obtain ⟨hkey, hlt⟩ := h.key fd q hq
      exact ⟨(Function.update_of_ne hlt.ne _ _).trans hkey, Nat.lt_succ_of_lt hlt⟩
    · obtain rfl : s.joined = p := Option.some.inj hp
      exact ⟨Nat.lt_succ_self _, fun fd hfd => absurd (h.key fd _ hfd).2 (lt_irrefl _)⟩
    · rcases hp with hle | hstart
      · exact h.notStarted p (Or.inl ((Nat.le_succ _).trans hle))
      · exact h.notStarted p (Or.inl (AcceptStage.startThread.inj hstart).le)
  · have hnotStarted := h.notStarted p (Or.inr haccepting)
    refine ⟨hexcludes, h.key, fun q hq => h.arriving q (by rw [haccepting]; exact hq),
      fun q hq => ?_⟩
    rcases hq with hle | hstart
    · have hne : q ≠ p := by
        rintro rfl
        exact absurd (h.arriving q (by rw [haccepting]; rfl)).1 (not_lt.mpr hle)
      simpa [go, hne] using h.notStarted q (Or.inl hle)
    · cases hstart
  · refine ⟨hexcludes, h.key, fun q hq => h.arriving q (by rw [haccepting]; exact hq),
      fun q hq => ?_⟩
    rcases hq with hle | hstart
    · exact h.notStarted q (Or.inl hle)
    · cases hstart
  · refine ⟨hexcludes, fun fd q hq => ?_, fun q hq => ?_, fun q hq => ?_⟩
    · by_cases hfd : fd = s.clientfd p
      · subst hfd
        simp only [Function.update_self] at hq
        obtain rfl : p = q := Option.some.inj hq
        exact ⟨rfl, (h.arriving p (by rw [haccepting]; rfl)).1⟩
      · simp only [Function.update_of_ne hfd] at hq
        exact h.key fd q hq
    · cases hq
    · rcases hq with hle | hstart
      · exact h.notStarted q (Or.inl hle)
      · cases hstart
  · refine ⟨hexcludes, fun fd q hq => ?_, fun q hq => ?_, fun q hq => ?_⟩
    · rw [hmove.clientfd, hmove.joined]
      rcases hmove.players_eq_or fd with hsame | hnone
      · exact h.key fd q (hsame ▸ hq)
      · rw [hnone] at hq
        cases hq
    · rw [hmove.accepting] at hq
      obtain ⟨hlt, hnot⟩ := h.arriving q hq
      refine ⟨hmove.joined ▸ hlt, fun fd hfd => ?_⟩
      rcases hmove.players_eq_or fd with hsame | hnone
      · exact hnot fd (hsame ▸ hfd)
      · rw [hnone] at hfd
        cases hfd
    · rw [hmove.accepting, hmove.joined] at hq
      have hstage := h.notStarted q hq
      have hne : q ≠ p := by
        rintro rfl
        exact hmove.running.1 hstage
      rw [hmove.others q hne, hstage]

lemma keyed_empty : Keyed empty where
  excludes p hp := by
    rcases hp with hp | hp | hp | hp <;> cases hp
  key _ _ hq := by cases hq
  arriving _ hp := by cases hp
  notStarted _ _ := rfl

/-- A step that has nothing to do with the messages of the chat. -/
structure Quiet (s s' : Clients) : Prop where
  joined : s.joined ≤ s'.joined
  clientfd : ∀ q < s.joined, s'.clientfd q = s.clientfd q
  sends : ∀ p, s'.thread p = .sendToOthers ↔ s.thread p = .sendToOthers
  players : ∀ p, s.thread p = .sendToOthers → s'.players = s.players

/-- A thread that neither begins nor ends a message. -/
lemma quiet_go {stage : ClientStage} (hbefore : s.thread p ≠ .sendToOthers)
    (hafter : stage ≠ .sendToOthers) (mutexForPlayers : Option PlayerRef)
    (clientfdToThreads : ℕ → Option PlayerRef) (accepting : AcceptStage) :
    Quiet s { s.go p stage with
      mutexForPlayers := mutexForPlayers
      clientfdToThreads := clientfdToThreads
      accepting := accepting } where
  joined := le_refl _
  clientfd _ _ := rfl
  sends q := by
    by_cases hq : q = p
    · subst hq
      simp [go, hbefore, hafter]
    · simp [go, hq]
  players _ _ := rfl

/-- Most steps are like this. -/
lemma quiet_step (h : Keyed s) (hstep : system.step s l s') (hstore : l ≠ .storePlayer)
    (hlock : ∀ p, l ≠ .lockToSend p) (hunlock : ∀ p, l ≠ .unlockSent p) : Quiet s s' := by
  cases l with
  | accept clientfd =>
    obtain ⟨-, heq⟩ := Option.ite_none_right_eq_some.mp hstep
    obtain rfl := Option.some.inj heq
    exact ⟨Nat.le_succ _, fun q hq => Function.update_of_ne hq.ne _ _, fun _ => Iff.rfl,
      fun _ _ => rfl⟩
  | startThread =>
    simp only [system, next] at hstep
    split at hstep
    · next p haccepting =>
      obtain rfl := Option.some.inj hstep
      have hstage := h.notStarted p (Or.inr haccepting)
      exact quiet_go (by simp [hstage]) (by simp) _ _ _
    · cases hstep
  | storeThread =>
    simp only [system, next] at hstep
    split at hstep
    · obtain rfl := Option.some.inj hstep
      exact ⟨le_refl _, fun _ _ => rfl, fun _ => Iff.rfl, fun _ _ => rfl⟩
    · cases hstep
  | storePlayer => exact absurd rfl hstore
  | welcome p sent =>
    obtain ⟨hstage, heq⟩ := Option.ite_none_right_eq_some.mp hstep
    obtain rfl := Option.some.inj heq
    exact quiet_go (by simp [hstage]) (by cases sent <;> decide) _ _ _
  | receive p received =>
    obtain ⟨hstage, heq⟩ := Option.ite_none_right_eq_some.mp hstep
    obtain rfl := Option.some.inj heq
    exact quiet_go (by simp [hstage]) (by cases received <;> decide) _ _ _
  | lockToSend p => exact absurd rfl (hlock p)
  | unlockSent p => exact absurd rfl (hunlock p)
  | lockToErase p =>
    obtain ⟨⟨hstage, -⟩, heq⟩ := Option.ite_none_right_eq_some.mp hstep
    obtain rfl := Option.some.inj heq
    exact quiet_go (by simp [hstage]) (by decide) _ _ _
  | erasePlayer p =>
    obtain ⟨hstage, heq⟩ := Option.ite_none_right_eq_some.mp hstep
    obtain rfl := Option.some.inj heq
    have hquiet : Quiet s (s.go p .eraseThread) :=
      quiet_go (by simp [hstage]) (by decide) _ _ _
    refine { hquiet with players := fun q hq => ?_ }
    -- nobody else is between a lock and an unlock
    have hsame : q = p := h.excludes.eq (Or.inl hq) (Or.inr (Or.inl hstage))
    rw [hsame, hstage] at hq
    cases hq
  | eraseThread p =>
    obtain ⟨hstage, heq⟩ := Option.ite_none_right_eq_some.mp hstep
    obtain rfl := Option.some.inj heq
    exact quiet_go (by simp [hstage]) (by decide) _ _ _
  | finish p =>
    obtain ⟨hstage, heq⟩ := Option.ite_none_right_eq_some.mp hstep
    obtain rfl := Option.some.inj heq
    exact quiet_go (by simp [hstage]) (by decide) _ _ _

end Clients

end Calc24.V1
