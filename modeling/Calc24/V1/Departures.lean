import Calc24.V1.TCPServer

/-!
# Clients that leave at once

`TCPServer::newPlayerJoined` starts the thread of a new client and stores the thread and the player
in its maps afterwards (`Calc24v1/Calc24Server/TCPServer.cpp`).  At its end `clientThreadFunc`
erases both entries.  The thread may come to its end before the entries are stored, and then nobody
erases them any more.

This file interleaves the accepting thread with the threads of all clients.  If every player is
stored before its thread erases it, no client whose thread has finished is in `m_players` between
two arrivals (`registered_of_reachableUnder`).  A player that is stored later stays there for ever
(`not_registered_of_leftOver`), and with it its socket stays open.
-/

namespace Calc24.V1

/-- Where the accepting thread is: in `accept4`, or in `newPlayerJoined` for a player, before its
thread is started, before the thread is stored, or before the player is stored. -/
inductive AcceptStage
  | accept
  | startThread (p : PlayerRef)
  | storeThread (p : PlayerRef)
  | storePlayer (p : PlayerRef)
  deriving DecidableEq, Repr

/-- The player that `newPlayerJoined` holds. -/
def AcceptStage.player : AcceptStage → Option PlayerRef
  | .accept => none
  | .startThread p | .storeThread p | .storePlayer p => some p

/-- Where a client's thread is in `clientThreadFunc`: before it, at the welcome, in the receive
loop, in `sendMsgToOtherClients` under the lock, before the lock of the clean-up, under it before
the first and the second `erase` and after them, or returned. -/
inductive ClientStage
  | notStarted
  | welcome
  | receive
  | sendToOthers
  | cleanUp
  | erasePlayer
  | eraseThread
  | unlock
  | finished
  deriving DecidableEq, Repr

/-- The entry in `m_players` has been erased, if there was one. -/
def ClientStage.Erased (stage : ClientStage) : Prop :=
  stage = .eraseThread ∨ stage = .unlock ∨ stage = .finished

instance : DecidablePred ClientStage.Erased := fun _ => inferInstanceAs (Decidable (_ ∨ _))

/-- The maps of the server, the players constructed so far, and the threads. -/
structure Clients where
  accepting : AcceptStage
  thread : PlayerRef → ClientStage
  clientfd : PlayerRef → ℕ
  players : ℕ → Option PlayerRef
  clientfdToThreads : ℕ → Option PlayerRef
  mutexForPlayers : Option PlayerRef
  joined : ℕ

/-- The steps of the accepting thread, and those of the thread of a client. -/
inductive ClientsStep
  | accept (clientfd : ℕ)
  | startThread
  | storeThread
  | storePlayer
  | welcome (p : PlayerRef) (sent : Bool)
  | receive (p : PlayerRef) (received : Bool)
  | lockToSend (p : PlayerRef)
  | unlockSent (p : PlayerRef)
  | lockToErase (p : PlayerRef)
  | erasePlayer (p : PlayerRef)
  | eraseThread (p : PlayerRef)
  | finish (p : PlayerRef)

namespace Clients

/-- A server without clients. -/
def empty : Clients where
  accepting := .accept
  thread := fun _ => .notStarted
  clientfd := fun _ => 0
  players := fun _ => none
  clientfdToThreads := fun _ => none
  mutexForPlayers := none
  joined := 0

/-- Somebody holds the player, so that its socket is open: `newPlayerJoined`, its thread, or
`m_players`. -/
def Held (s : Clients) (p : PlayerRef) : Prop :=
  s.accepting.player = some p ∨ (s.thread p ≠ .notStarted ∧ s.thread p ≠ .finished) ∨
    s.players (s.clientfd p) = some p

instance (s : Clients) (p : PlayerRef) : Decidable (s.Held p) :=
  inferInstanceAs (Decidable (_ ∨ _))

/-- A thread goes on to another place. -/
def go (s : Clients) (p : PlayerRef) (stage : ClientStage) : Clients :=
  { s with thread := Function.update s.thread p stage }

/-- One step, where it is possible.  A new socket is one that is not open. -/
def next (s : Clients) : ClientsStep → Option Clients
  | .accept clientfd =>
    if s.accepting = .accept ∧ ∀ p < s.joined, s.Held p → s.clientfd p ≠ clientfd then
      some
        { s with
          accepting := .startThread s.joined
          clientfd := Function.update s.clientfd s.joined clientfd
          joined := s.joined + 1 }
    else none
  | .startThread =>
    match s.accepting with
    | .startThread p => some { s.go p .welcome with accepting := .storeThread p }
    | _ => none
  | .storeThread =>
    match s.accepting with
    | .storeThread p =>
      some
        { s with
          accepting := .storePlayer p
          clientfdToThreads := Function.update s.clientfdToThreads (s.clientfd p) (some p) }
    | _ => none
  | .storePlayer =>
    match s.accepting with
    | .storePlayer p =>
      some
        { s with
          accepting := .accept
          players := Function.update s.players (s.clientfd p) (some p) }
    | _ => none
  | .welcome p sent =>
    if s.thread p = .welcome then some (s.go p (if sent then .receive else .cleanUp)) else none
  | .receive p received =>
    if s.thread p = .receive then some (s.go p (if received then .receive else .cleanUp)) else none
  | .lockToSend p =>
    if s.thread p = .receive ∧ s.mutexForPlayers = none then
      some { s.go p .sendToOthers with mutexForPlayers := some p }
    else none
  | .unlockSent p =>
    if s.thread p = .sendToOthers then some { s.go p .receive with mutexForPlayers := none }
    else none
  | .lockToErase p =>
    if s.thread p = .cleanUp ∧ s.mutexForPlayers = none then
      some { s.go p .erasePlayer with mutexForPlayers := some p }
    else none
  | .erasePlayer p =>
    if s.thread p = .erasePlayer then
      some
        { s.go p .eraseThread with
          players := Function.update s.players (s.clientfd p) none }
    else none
  | .eraseThread p =>
    if s.thread p = .eraseThread then
      some
        { s.go p .unlock with
          clientfdToThreads := Function.update s.clientfdToThreads (s.clientfd p) none }
    else none
  | .finish p =>
    if s.thread p = .unlock then some { s.go p .finished with mutexForPlayers := none } else none

/-- The runs of the server. -/
def system : TransitionSystem Clients ClientsStep where
  init s := s = empty
  step s l s' := s.next l = some s'

/-- Between two arrivals nobody whose thread has finished is registered. -/
def Registered (s : Clients) : Prop :=
  s.accepting = .accept → ∀ clientfd p, s.players clientfd = some p → s.thread p ≠ .finished

/-- A player is stored before its thread has erased its entry. -/
def StoredInTime (s : Clients) : ClientsStep → Prop
  | .storePlayer => ∀ p ∈ s.accepting.player, ¬ (s.thread p).Erased
  | _ => True

instance (s : Clients) (l : ClientsStep) : Decidable (s.StoredInTime l) :=
  match l with
  | .storePlayer => inferInstanceAs (Decidable (∀ p ∈ s.accepting.player, ¬ (s.thread p).Erased))
  | .accept _ | .startThread | .storeThread | .welcome _ _ | .receive _ _ | .lockToSend _
  | .unlockSent _ | .lockToErase _ | .erasePlayer _ | .eraseThread _ | .finish _ => .isTrue trivial

/-! ## Steps -/

variable {s s' : Clients} {l : ClientsStep} {p q : PlayerRef}

/-- The thread of a client goes on.  It leaves `m_players` alone, or it erases its entry. -/
structure ClientMove (p : PlayerRef) (s s' : Clients) : Prop where
  accepting : s'.accepting = s.accepting
  clientfd : s'.clientfd = s.clientfd
  joined : s'.joined = s.joined
  others : ∀ q ≠ p, s'.thread q = s.thread q
  running : s.thread p ≠ .notStarted ∧ s.thread p ≠ .finished
  players : s'.players = s.players ∧ ((s'.thread p).Erased ↔ (s.thread p).Erased) ∨
    s.thread p = .erasePlayer ∧ (s'.thread p).Erased ∧
      s'.players = Function.update s.players (s.clientfd p) none

/-- A step to a place on the same side of the `erase`. -/
lemma clientMove_go {stage stage' : ClientStage} (hstage : s.thread p = stage)
    (hrunning : stage ≠ .notStarted ∧ stage ≠ .finished) (herased : stage'.Erased ↔ stage.Erased)
    (mutexForPlayers : Option PlayerRef) (clientfdToThreads : ℕ → Option PlayerRef) :
    ClientMove p s
      { s.go p stage' with
        mutexForPlayers := mutexForPlayers
        clientfdToThreads := clientfdToThreads } where
  accepting := rfl
  clientfd := rfl
  joined := rfl
  others _ hq := Function.update_of_ne hq _ _
  running := by rwa [hstage]
  players := by
    refine Or.inl ⟨rfl, ?_⟩
    simp only [go, Function.update_self, hstage, herased]

/-- The steps as what they do to the state. -/
lemma step_cases (h : system.step s l s') :
    (∃ clientfd, l = .accept clientfd ∧ s.accepting = .accept ∧
      (∀ p < s.joined, s.Held p → s.clientfd p ≠ clientfd) ∧
      s' = { s with
        accepting := .startThread s.joined
        clientfd := Function.update s.clientfd s.joined clientfd
        joined := s.joined + 1 }) ∨
    (∃ p, l = .startThread ∧ s.accepting = .startThread p ∧
      s' = { s.go p .welcome with accepting := .storeThread p }) ∨
    (∃ p, l = .storeThread ∧ s.accepting = .storeThread p ∧
      s' = { s with
        accepting := .storePlayer p
        clientfdToThreads := Function.update s.clientfdToThreads (s.clientfd p) (some p) }) ∨
    (∃ p, l = .storePlayer ∧ s.accepting = .storePlayer p ∧
      s' = { s with
        accepting := .accept
        players := Function.update s.players (s.clientfd p) (some p) }) ∨
    ∃ p, ClientMove p s s' := by
  cases l with
  | accept clientfd =>
    obtain ⟨⟨haccepting, hfresh⟩, heq⟩ := Option.ite_none_right_eq_some.mp h
    exact Or.inl ⟨clientfd, rfl, haccepting, hfresh, (Option.some.inj heq).symm⟩
  | startThread =>
    simp only [system, next] at h
    split at h
    · next p haccepting =>
      exact Or.inr (Or.inl ⟨p, rfl, haccepting, (Option.some.inj h).symm⟩)
    · cases h
  | storeThread =>
    simp only [system, next] at h
    split at h
    · next p haccepting =>
      exact Or.inr (Or.inr (Or.inl ⟨p, rfl, haccepting, (Option.some.inj h).symm⟩))
    · cases h
  | storePlayer =>
    simp only [system, next] at h
    split at h
    · next p haccepting =>
      exact Or.inr (Or.inr (Or.inr (Or.inl ⟨p, rfl, haccepting, (Option.some.inj h).symm⟩)))
    · cases h
  | welcome p sent =>
    obtain ⟨hstage, heq⟩ := Option.ite_none_right_eq_some.mp h
    obtain rfl := Option.some.inj heq
    exact Or.inr (Or.inr (Or.inr (Or.inr ⟨p, clientMove_go hstage (by decide)
      (by cases sent <;> decide) _ _⟩)))
  | receive p received =>
    obtain ⟨hstage, heq⟩ := Option.ite_none_right_eq_some.mp h
    obtain rfl := Option.some.inj heq
    exact Or.inr (Or.inr (Or.inr (Or.inr ⟨p, clientMove_go hstage (by decide)
      (by cases received <;> decide) _ _⟩)))
  | lockToSend p =>
    obtain ⟨⟨hstage, -⟩, heq⟩ := Option.ite_none_right_eq_some.mp h
    obtain rfl := Option.some.inj heq
    exact Or.inr (Or.inr (Or.inr (Or.inr ⟨p, clientMove_go hstage (by decide) (by decide) _ _⟩)))
  | unlockSent p =>
    obtain ⟨hstage, heq⟩ := Option.ite_none_right_eq_some.mp h
    obtain rfl := Option.some.inj heq
    exact Or.inr (Or.inr (Or.inr (Or.inr ⟨p, clientMove_go hstage (by decide) (by decide) _ _⟩)))
  | lockToErase p =>
    obtain ⟨⟨hstage, -⟩, heq⟩ := Option.ite_none_right_eq_some.mp h
    obtain rfl := Option.some.inj heq
    exact Or.inr (Or.inr (Or.inr (Or.inr ⟨p, clientMove_go hstage (by decide) (by decide) _ _⟩)))
  | erasePlayer p =>
    obtain ⟨hstage, heq⟩ := Option.ite_none_right_eq_some.mp h
    obtain rfl := Option.some.inj heq
    refine Or.inr (Or.inr (Or.inr (Or.inr ⟨p, rfl, rfl, rfl,
      fun q hq => Function.update_of_ne hq _ _, by rw [hstage]; decide, Or.inr ⟨hstage, ?_, rfl⟩⟩)))
    simp only [go, Function.update_self]
    decide
  | eraseThread p =>
    obtain ⟨hstage, heq⟩ := Option.ite_none_right_eq_some.mp h
    obtain rfl := Option.some.inj heq
    exact Or.inr (Or.inr (Or.inr (Or.inr ⟨p, clientMove_go hstage (by decide) (by decide) _ _⟩)))
  | finish p =>
    obtain ⟨hstage, heq⟩ := Option.ite_none_right_eq_some.mp h
    obtain rfl := Option.some.inj heq
    exact Or.inr (Or.inr (Or.inr (Or.inr ⟨p, clientMove_go hstage (by decide) (by decide) _ _⟩)))

/-! ## Players stored in time -/

/-- Who is in `m_players` is there under its own descriptor, and its thread has not erased it. -/
structure InTime (s : Clients) : Prop where
  accepting : ∀ p, s.accepting.player = some p → p < s.joined
  players : ∀ clientfd p, s.players clientfd = some p →
    p < s.joined ∧ s.clientfd p = clientfd ∧ ¬ (s.thread p).Erased

/-- The thread of a client erases its own entry at most. -/
lemma InTime.clientMove (hs : InTime s) (hmove : ClientMove p s s') : InTime s' where
  accepting q hq := by
    rw [hmove.accepting] at hq
    rw [hmove.joined]
    exact hs.accepting q hq
  players clientfd q hq := by
    rw [hmove.joined, hmove.clientfd]
    rcases hmove.players with ⟨hplayers, herased⟩ | ⟨-, -, hplayers⟩
    · rw [hplayers] at hq
      obtain ⟨hlt, hfd, hnot⟩ := hs.players clientfd q hq
      refine ⟨hlt, hfd, ?_⟩
      by_cases hne : q = p
      · subst hne
        exact fun herased' => hnot (herased.mp herased')
      · rwa [hmove.others q hne]
    · -- the entry of the thread itself is gone
      rw [hplayers] at hq
      by_cases hsame : clientfd = s.clientfd p
      · rw [hsame, Function.update_self] at hq
        cases hq
      · rw [Function.update_of_ne hsame] at hq
        obtain ⟨hlt, hfd, hnot⟩ := hs.players clientfd q hq
        have hne : q ≠ p := fun heq => hsame (heq ▸ hfd.symm)
        exact ⟨hlt, hfd, by rwa [hmove.others q hne]⟩

/-- Players are stored in time as long as each is stored before its thread erases it. -/
lemma InTime.step (hs : InTime s) (hguard : s.StoredInTime l) (h : system.step s l s') :
    InTime s' := by
  rcases step_cases h with ⟨clientfd, -, haccepting, hfresh, rfl⟩ | ⟨p, -, haccepting, rfl⟩ |
    ⟨p, -, haccepting, rfl⟩ | ⟨p, rfl, haccepting, rfl⟩ | ⟨p, hmove⟩
  · refine ⟨fun q hq => ?_, fun clientfd' q hq => ?_⟩
    · cases hq
      exact Nat.lt_succ_self _
    · obtain ⟨hlt, hfd, hnot⟩ := hs.players clientfd' q hq
      exact ⟨Nat.lt_succ_of_lt hlt, (Function.update_of_ne hlt.ne _ _).trans hfd, hnot⟩
  · have hp : p < s.joined := hs.accepting p (by rw [haccepting]; rfl)
    refine ⟨fun q hq => ?_, fun clientfd q hq => ?_⟩
    · cases hq
      exact hp
    · obtain ⟨hlt, hfd, hnot⟩ := hs.players clientfd q hq
      refine ⟨hlt, hfd, ?_⟩
      by_cases hne : q = p
      · subst hne
        simp only [go, Function.update_self]
        decide
      · simpa only [go, Function.update_of_ne hne] using hnot
  · have hp : p < s.joined := hs.accepting p (by rw [haccepting]; rfl)
    refine ⟨fun q hq => ?_, hs.players⟩
    cases hq
    exact hp
  · have hp : s.accepting.player = some p := by rw [haccepting]; rfl
    refine ⟨fun q hq => (nomatch hq), fun clientfd q hq => ?_⟩
    by_cases hsame : clientfd = s.clientfd p
    · simp only [hsame, Function.update_self, Option.some.injEq] at hq
      subst hq
      exact ⟨hs.accepting p hp, hsame.symm, hguard p hp⟩
    · simp only [Function.update_of_ne hsame] at hq
      exact hs.players clientfd q hq
  · exact hs.clientMove hmove

/-- Nobody is in the empty map. -/
lemma inTime_empty : InTime empty where
  accepting p hp := by cases hp
  players clientfd p hp := by cases hp

/-- **Where every player is stored before its thread erases it, no client whose thread has finished
is registered between two arrivals.** -/
theorem registered_of_reachableUnder (h : system.ReachableUnder StoredInTime s) :
    s.Registered := by
  have hs : InTime s := h.invariant (by rintro s rfl; exact inTime_empty)
    fun _ _ _ hs hguard hstep => hs.step hguard hstep
  rintro - clientfd p hp hfinished
  exact (hs.players clientfd p hp).2.2 (Or.inr (Or.inr hfinished))

/-- A client leaves, and the next one gets its descriptor. -/
def leaveAndArrive : List ClientsStep :=
  [.accept 5, .startThread, .welcome 0 true, .storeThread, .storePlayer, .receive 0 true,
    .lockToSend 0, .unlockSent 0, .receive 0 false, .lockToErase 0, .erasePlayer 0, .eraseThread 0,
    .finish 0, .accept 5, .startThread, .storeThread, .storePlayer]

/-- A client leaves and the next one gets its descriptor, and the map has the right player. -/
theorem registered_of_reachableUnder_leaveAndArrive :
    (TransitionSystem.runAll next empty leaveAndArrive).Registered := by
  have hreach : system.ReachableUnder StoredInTime
      (TransitionSystem.runAll next empty leaveAndArrive) :=
    (TransitionSystem.ReachableUnder.init rfl).runAll (fun _ _ _ h => h) (by decide)
  exact registered_of_reachableUnder hreach

/-- The welcome of a client fails, and its thread has finished before the player is stored. -/
theorem exists_not_registered : ¬ ∀ s, system.Reachable s → s.Registered := by
  intro h
  have hreach : system.Reachable (TransitionSystem.runAll next empty
      [.accept 5, .startThread, .welcome 0 false, .lockToErase 0, .erasePlayer 0, .eraseThread 0,
        .finish 0, .storeThread, .storePlayer]) :=
    (TransitionSystem.ReachableUnder.init rfl).runAll (fun _ _ _ h => h) (by decide)
  exact h _ hreach rfl 5 0 rfl rfl

/-! ## Players stored too late -/

/-- The sockets that are open are different ones. -/
structure Distinct (s : Clients) : Prop where
  lt : ∀ p, s.Held p → p < s.joined
  eq : ∀ p q, s.Held p → s.Held q → s.clientfd p = s.clientfd q → p = q

/-- Who is held after a step other than an accept was held before. -/
lemma Distinct.of_held (hs : Distinct s) (hheld : ∀ p, s'.Held p → s.Held p)
    (hclientfd : s'.clientfd = s.clientfd) (hjoined : s'.joined = s.joined) : Distinct s' where
  lt p hp := by
    rw [hjoined]
    exact hs.lt p (hheld p hp)
  eq p q hp hq heq := by
    rw [hclientfd] at heq
    exact hs.eq p q (hheld p hp) (hheld q hq) heq

/-- The thread of a client gives its player up at most. -/
lemma ClientMove.held (hmove : ClientMove p s s') (hq : s'.Held q) : s.Held q := by
  by_cases hne : q = p
  · exact hne ▸ Or.inr (Or.inl hmove.running)
  · rcases hq with haccepting | hrunning | hplayers
    · exact Or.inl (hmove.accepting ▸ haccepting)
    · exact Or.inr (Or.inl (by rwa [← hmove.others q hne]))
    · refine Or.inr (Or.inr ?_)
      rw [hmove.clientfd] at hplayers
      rcases hmove.players with ⟨hsame, -⟩ | ⟨-, -, herased⟩
      · rwa [← hsame]
      · rw [herased] at hplayers
        by_cases hfd : s.clientfd q = s.clientfd p
        · rw [hfd, Function.update_self] at hplayers
          cases hplayers
        · rwa [Function.update_of_ne hfd] at hplayers

/-- A descriptor that is not in use goes to a new player. -/
lemma Distinct.accept (hs : Distinct s) {clientfd : ℕ}
    (hfresh : ∀ p < s.joined, s.Held p → s.clientfd p ≠ clientfd) :
    Distinct { s with
      accepting := .startThread s.joined
      clientfd := Function.update s.clientfd s.joined clientfd
      joined := s.joined + 1 } := by
  set s' : Clients := { s with
    accepting := .startThread s.joined
    clientfd := Function.update s.clientfd s.joined clientfd
    joined := s.joined + 1 } with hs'
  have hold : ∀ p, p ≠ s.joined → s'.clientfd p = s.clientfd p := fun p hne =>
    Function.update_of_ne hne _ _
  have hnew : s'.clientfd s.joined = clientfd := Function.update_self ..
  have hheld : ∀ p, s'.Held p → p = s.joined ∨ s.Held p := by
    intro p hp
    by_cases hne : p = s.joined
    · exact Or.inl hne
    · right
      rcases hp with haccepting | hrunning | hplayers
      · exact absurd (Option.some.inj haccepting).symm hne
      · exact Or.inr (Or.inl hrunning)
      · rw [hold p hne] at hplayers
        exact Or.inr (Or.inr hplayers)
  constructor
  · intro p hp
    rcases hheld p hp with rfl | hp
    · exact Nat.lt_succ_self _
    · exact Nat.lt_succ_of_lt (hs.lt p hp)
  · intro p q hp hq heq
    rcases hheld p hp with rfl | hp <;> rcases hheld q hq with rfl | hq
    · rfl
    · rw [hnew, hold q (hs.lt q hq).ne] at heq
      exact absurd heq.symm (hfresh q (hs.lt q hq) hq)
    · rw [hnew, hold p (hs.lt p hp).ne] at heq
      exact absurd heq (hfresh p (hs.lt p hp) hp)
    · rw [hold p (hs.lt p hp).ne, hold q (hs.lt q hq).ne] at heq
      exact hs.eq p q hp hq heq

/-- Every step leaves the descriptors of those that are held different ones. -/
lemma Distinct.step (hs : Distinct s) (h : system.step s l s') : Distinct s' := by
  rcases step_cases h with ⟨clientfd, -, -, hfresh, rfl⟩ | ⟨p, -, haccepting, rfl⟩ |
    ⟨p, -, haccepting, rfl⟩ | ⟨p, -, haccepting, rfl⟩ | ⟨p, hmove⟩
  · exact hs.accept hfresh
  · refine hs.of_held (fun q hq => ?_) rfl rfl
    by_cases hne : q = p
    · exact Or.inl (by rw [haccepting, hne]; rfl)
    · rcases hq with hq | hrunning | hplayers
      · exact absurd (Option.some.inj hq).symm hne
      · simp only [go, Function.update_of_ne hne] at hrunning
        exact Or.inr (Or.inl hrunning)
      · exact Or.inr (Or.inr hplayers)
  · refine hs.of_held (fun q hq => ?_) rfl rfl
    rcases hq with hq | hrunning | hplayers
    · exact Or.inl (by rw [haccepting]; exact hq)
    · exact Or.inr (Or.inl hrunning)
    · exact Or.inr (Or.inr hplayers)
  · refine hs.of_held (fun q hq => ?_) rfl rfl
    rcases hq with hq | hrunning | hplayers
    · cases hq
    · exact Or.inr (Or.inl hrunning)
    · by_cases hfd : s.clientfd q = s.clientfd p
      · simp only [hfd, Function.update_self] at hplayers
        exact Or.inl (by rw [haccepting]; exact hplayers)
      · simp only [Function.update_of_ne hfd] at hplayers
        exact Or.inr (Or.inr hplayers)
  · exact hs.of_held (fun q hq => hmove.held hq) hmove.clientfd hmove.joined

/-- The sockets that are open are different ones in every reachable state. -/
lemma distinct_of_reachable (h : system.Reachable s) : Distinct s := by
  refine h.invariant ?_ fun _ _ _ hs hstep => hs.step hstep
  rintro s rfl
  have hnobody : ∀ p, ¬ empty.Held p := by
    rintro p (hp | ⟨hp, -⟩ | hp)
    · cases hp
    · exact hp rfl
    · cases hp
  exact ⟨fun p hp => absurd hp (hnobody p), fun p _ hp => absurd hp (hnobody p)⟩

/-- The entry of a player whose thread erases nothing any more. -/
structure LeftOver (p : PlayerRef) (s : Clients) : Prop where
  players : s.players (s.clientfd p) = some p
  erased : (s.thread p).Erased
  accepting : s.accepting.player ≠ some p

/-- Such a player is held by nothing but its entry. -/
lemma LeftOver.held (h : LeftOver p s) : s.Held p :=
  Or.inr (Or.inr h.players)

/-- The entry stays, under the descriptor of its socket. -/
lemma leftOver_step (hdistinct : Distinct s) (hs : LeftOver p s) (h : system.step s l s') :
    LeftOver p s' ∧ s'.clientfd p = s.clientfd p := by
  rcases step_cases h with ⟨clientfd, -, -, -, rfl⟩ | ⟨q, -, haccepting, rfl⟩ |
    ⟨q, -, haccepting, rfl⟩ | ⟨q, -, haccepting, rfl⟩ | ⟨q, hmove⟩
  · have hne := (hdistinct.lt p hs.held).ne
    have hfd : Function.update s.clientfd s.joined clientfd p = s.clientfd p :=
      Function.update_of_ne hne _ _
    refine ⟨⟨?_, hs.erased, fun hp => hne (Option.some.inj hp).symm⟩, hfd⟩
    simp only [hfd]
    exact hs.players
  · have hne : p ≠ q := fun heq => hs.accepting (by rw [haccepting, heq]; rfl)
    refine ⟨⟨hs.players, ?_, fun hp => hne (Option.some.inj hp).symm⟩, rfl⟩
    simp only [go, Function.update_of_ne hne]
    exact hs.erased
  · have hne : p ≠ q := fun heq => hs.accepting (by rw [haccepting, heq]; rfl)
    exact ⟨⟨hs.players, hs.erased, fun hp => hne (Option.some.inj hp).symm⟩, rfl⟩
  · have hq : s.Held q := Or.inl (by rw [haccepting]; rfl)
    have hfd : s.clientfd p ≠ s.clientfd q := fun heq => by
      have hsame := hdistinct.eq p q hs.held hq heq
      exact hs.accepting (by rw [haccepting, hsame]; rfl)
    refine ⟨⟨?_, hs.erased, fun hp => (nomatch hp)⟩, rfl⟩
    simp only [Function.update_of_ne hfd]
    exact hs.players
  · refine ⟨⟨?_, ?_, ?_⟩, congrFun hmove.clientfd p⟩
    · rw [hmove.clientfd]
      rcases hmove.players with ⟨hsame, -⟩ | ⟨hstage, -, herased⟩
      · rw [hsame]
        exact hs.players
      · have hfd : s.clientfd p ≠ s.clientfd q := fun heq => by
          have hsame := hdistinct.eq p q hs.held (Or.inr (Or.inl hmove.running)) heq
          have hnot := hs.erased
          rw [hsame, hstage] at hnot
          exact absurd hnot (by decide)
        rw [herased, Function.update_of_ne hfd]
        exact hs.players
    · by_cases hne : p = q
      · subst hne
        rcases hmove.players with ⟨-, hiff⟩ | ⟨-, herased, -⟩
        · exact hiff.mpr hs.erased
        · exact herased
      · rw [hmove.others p hne]
        exact hs.erased
    · rw [hmove.accepting]
      exact hs.accepting

/-- A player that is stored too late is left over. -/
theorem leftOver_of_not_storedInTime (h : system.step s l s') (hlate : ¬ s.StoredInTime l) :
    ∃ p, LeftOver p s' := by
  cases l with
  | storePlayer =>
    simp only [system, next] at h
    split at h
    · next p haccepting =>
      obtain rfl := Option.some.inj h
      have herased : (s.thread p).Erased := by
        by_contra hnot
        refine hlate fun q hq => ?_
        rw [haccepting] at hq
        obtain rfl : p = q := Option.some.inj hq
        exact hnot
      exact ⟨p, Function.update_self .., herased, fun hp => (nomatch hp)⟩
    · cases h
  | _ => exact absurd trivial hlate

/-- **It is left over for ever**, so that a client whose thread has finished is registered whenever
no arrival is in progress. -/
theorem not_registered_of_leftOver {tr : List (ClientsStep × Clients)} (h : system.Reachable s)
    (hs : LeftOver p s) (hrun : system.Run s tr)
    (hfinished : (TransitionSystem.last s tr).thread p = .finished)
    (haccept : (TransitionSystem.last s tr).accepting = .accept) :
    ¬ (TransitionSystem.last s tr).Registered := by
  have hlast : Distinct (TransitionSystem.last s tr) ∧ LeftOver p (TransitionSystem.last s tr) :=
    hrun.last_invariant (I := fun s => Distinct s ∧ LeftOver p s)
      (fun _ _ _ hboth hstep => ⟨hboth.1.step hstep, (leftOver_step hboth.1 hboth.2 hstep).1⟩)
      ⟨distinct_of_reachable h, hs⟩
  intro hregistered
  exact hregistered haccept _ p hlast.2.players hfinished

end Clients

end Calc24.V1
