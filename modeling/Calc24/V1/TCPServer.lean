import Calc24.Lib.TransitionSystem
import Calc24.Net.ByteBuffer

/-!
# The desks of the first version

`TCPServer::newPlayerJoined` (`Calc24v1/Calc24Server/TCPServer.cpp`) puts each new player on a seat
of the last desk, or opens another desk, and deals a hand to a desk when its third seat is taken.
The seats are weak pointers, so a seat is free again when its player has gone.  What the server
keeps of the players themselves, their threads and `m_players`, plays no part in the seating and is
left out here.

A desk on which all three seats are taken does not always play: a seat that is taken again while
the other two are still taken makes the desk full, but only if it is the third seat its players are
told so.  An arrival leaves its desk full and not playing exactly if it takes the first or the
second seat of a desk whose other seats are taken (`fullDeskPlays_iff`).
-/

namespace Calc24.V1

/-- The address of a `Player`: players are numbered as they are constructed. -/
abbrev PlayerRef := ℕ

/-- The address of a `Desk`, its position in `m_deskInfo`, from which no desk is ever removed. -/
abbrev DeskRef := ℕ

/-- `struct Desk`.  `dealt` is a ghost: the hands that the desk has been dealt. -/
structure Desk where
  id : Int32
  spPlayer1 : Option PlayerRef
  spPlayer2 : Option PlayerRef
  spPlayer3 : Option PlayerRef
  sendCards : Bytes
  dealt : List Bytes
  deriving DecidableEq, Repr

/-- The weak pointers of a desk. -/
def Desk.seats (desk : Desk) : List (Option PlayerRef) :=
  [desk.spPlayer1, desk.spPlayer2, desk.spPlayer3]

/-- The members of `class Player` that the desks and the hands are about.  `sentCards` is a ghost:
the text that the player was sent as its cards. -/
structure Player where
  ready : Bool := false
  cardsSent : Bool := false
  spDesk : Option DeskRef := none
  sentCards : Bytes := []
  deriving DecidableEq, Repr

/-- The desks of `class TCPServer` and the players: those constructed so far, and which of them
have not been destroyed. -/
structure TCPServer where
  deskInfo : List Desk
  player : PlayerRef → Player
  live : PlayerRef → Bool
  joined : ℕ

/-! ## Dealing -/

/-- `allCars`. -/
def allCars : List Char :=
  ['A', '2', '3', '4', '5', '6', '7', '8', '9', 'X', 'J', 'Q', 'K', 'w', 'W']

/-- `allCars[rand() % allCarsCount]`. -/
def card (n : ℕ) : Char :=
  allCars.getD (n % allCars.length) 'A'

/-- The text that `sprintf` makes of four cards. -/
def cardsLine (card1 card2 card3 card4 : Char) : Bytes :=
  ascii "Your cards is: " ++
    ascii (String.ofList [card1, ' ', card2, ' ', card3, ' ', card4, '\n'])

/-- `TCPServer::generateCards`, with the four results of `rand`. -/
def Desk.generateCards (rand1 rand2 rand3 rand4 : ℕ) (desk : Desk) : Desk :=
  let newCards := cardsLine (card rand1) (card rand2) (card rand3) (card rand4)
  { desk with sendCards := desk.sendCards ++ newCards, dealt := desk.dealt ++ [newCards] }

namespace TCPServer

/-! ## Seats -/

/-- A server without players. -/
def empty : TCPServer where
  deskInfo := []
  player := fun _ => {}
  live := fun _ => false
  joined := 0

/-- `expired` on a weak pointer to a player. -/
def expired (s : TCPServer) : Option PlayerRef → Bool
  | none => true
  | some p => !s.live p

/-- `lock` on a weak pointer to a player. -/
def lock (s : TCPServer) (seat : Option PlayerRef) : Option PlayerRef :=
  if s.expired seat then none else seat

/-- `std::make_shared<Player>`. -/
def construct (s : TCPServer) : TCPServer :=
  { s with
    player := Function.update s.player s.joined {}
    live := Function.update s.live s.joined true
    joined := s.joined + 1 }

/-- A new desk with the player on its first seat, which is told so. -/
def openDesk (id : Int32) (spCurrentPlayer : PlayerRef) (s : TCPServer) : TCPServer :=
  { s with
    deskInfo := s.deskInfo ++
      [{ id := id, spPlayer1 := some spCurrentPlayer, spPlayer2 := none, spPlayer3 := none,
         sendCards := [], dealt := [] }]
    player := Function.update s.player spCurrentPlayer
      { s.player spCurrentPlayer with spDesk := some s.deskInfo.length } }

/-- Change the last desk. -/
def setLastDesk (desk : Desk) (s : TCPServer) : TCPServer :=
  { s with deskInfo := s.deskInfo.dropLast ++ [desk] }

/-- `setReady(true)` and `setDesk` on the player of a seat, if there is one. -/
def play (d : DeskRef) (seat : Option PlayerRef) (s : TCPServer) : TCPServer :=
  match s.lock seat with
  | none => s
  | some p =>
    { s with
      player := Function.update s.player p { s.player p with ready := true, spDesk := some d } }

/-- What `newPlayerJoined` does with a desk that it takes for full: its players are told, and it is
dealt a hand. -/
def fillDesk (rand1 rand2 rand3 rand4 : ℕ) (desk : Desk) (s : TCPServer) : TCPServer :=
  let d := s.deskInfo.length - 1
  let s := (s.play d desk.spPlayer1).play d desk.spPlayer2
  (s.play d desk.spPlayer3).setLastDesk (desk.generateCards rand1 rand2 rand3 rand4)

/-- `TCPServer::newPlayerJoined`, apart from the thread of the new player. -/
def newPlayerJoined (rand1 rand2 rand3 rand4 : ℕ) (s : TCPServer) : TCPServer :=
  let spCurrentPlayer := s.joined
  let s := s.construct
  match s.deskInfo.getLast? with
  | none => s.openDesk 1 spCurrentPlayer
  | some desk =>
    if s.expired desk.spPlayer1 then
      s.setLastDesk { desk with spPlayer1 := some spCurrentPlayer }
    else if s.expired desk.spPlayer2 then
      s.setLastDesk { desk with spPlayer2 := some spCurrentPlayer }
    else if s.expired desk.spPlayer3 then
      s.fillDesk rand1 rand2 rand3 rand4 { desk with spPlayer3 := some spCurrentPlayer }
    else s.openDesk (Int32.ofNat (s.deskInfo.length + 1)) spCurrentPlayer

/-- `Player::sendCards`, where `::send` returns `sentLength`: the returned value, and the state. -/
def sendCards (p : PlayerRef) (sentLength : ℤ) (s : TCPServer) : Bool × TCPServer :=
  match (s.player p).spDesk.bind (s.deskInfo[·]?) with
  | none => (false, s)
  | some desk =>
    if sentLength = desk.sendCards.length then
      (true, { s with
        player := Function.update s.player p
          { s.player p with cardsSent := true, sentCards := desk.sendCards } })
    else
      (false, { s with
        player := Function.update s.player p { s.player p with cardsSent := false } })

/-! ## Runs -/

/-- A player arrives, with the results of `rand` should the desk be dealt a hand; a player departs,
and its object is destroyed; or the thread of a player sends it its cards. -/
inductive Step
  | newPlayerJoined (rand1 rand2 rand3 rand4 : ℕ)
  | depart (p : PlayerRef)
  | sendCards (p : PlayerRef) (sentLength : ℤ)

/-- One step, where it is possible.  A player that is ready is sent its cards once, and all of
them. -/
def next (s : TCPServer) : Step → Option TCPServer
  | .newPlayerJoined rand1 rand2 rand3 rand4 => some (s.newPlayerJoined rand1 rand2 rand3 rand4)
  | .depart p =>
    if s.live p = true then some { s with live := Function.update s.live p false } else none
  | .sendCards p sentLength =>
    if s.live p = true ∧ (s.player p).ready = true ∧ (s.player p).cardsSent = false then
      match s.sendCards p sentLength with
      | (true, s') => some s'
      | (false, _) => none
    else none

/-- The runs of the server. -/
def system : TransitionSystem TCPServer Step where
  init s := s = empty
  step s l s' := s.next l = some s'

/-- The player sits, or has sat, on a seat of the desk which has not been taken since. -/
def SeatedAt (s : TCPServer) (p : PlayerRef) (d : DeskRef) : Prop :=
  ∃ desk, s.deskInfo[d]? = some desk ∧ some p ∈ desk.seats

/-- If all seats of the desk of a player are taken, those who sit there are ready, on that desk. -/
def FullDeskPlays (s : TCPServer) (p : PlayerRef) : Prop :=
  ∀ d desk, s.deskInfo[d]? = some desk → some p ∈ desk.seats →
    (∀ seat ∈ desk.seats, s.expired seat = false) →
      ∀ q, some q ∈ desk.seats → (s.player q).ready = true ∧ (s.player q).spDesk = some d

/-- After an arrival the desk of the newcomer plays if it is full. -/
def ArrivalPlays (s : TCPServer) : Step → TCPServer → Prop
  | .newPlayerJoined _ _ _ _, s' => s'.FullDeskPlays s.joined
  | _, _ => True

/-- The newcomer will take the first or the second seat of a desk whose other seats are taken. -/
def RefillsFirstOrSecond (s : TCPServer) : Prop :=
  ∃ desk ∈ s.deskInfo.getLast?, s.expired desk.spPlayer3 = false ∧
    s.expired desk.spPlayer1 ≠ s.expired desk.spPlayer2

instance (s : TCPServer) : Decidable s.RefillsFirstOrSecond :=
  inferInstanceAs (Decidable (∃ desk ∈ s.deskInfo.getLast?, _))

/-- An arrival does not do so. -/
def NoRefill (s : TCPServer) : Step → Prop
  | .newPlayerJoined _ _ _ _ => ¬ s.RefillsFirstOrSecond
  | _ => True

/-! ## What an arrival does -/

variable {s s' : TCPServer} {desk desk' : Desk} {d : DeskRef} {p q : PlayerRef} {seat : Option PlayerRef}

/-- Players are numbered, on the seats and among the living. -/
structure Numbered (s : TCPServer) : Prop where
  seats : ∀ (d : DeskRef) (desk : Desk) (q : PlayerRef), s.deskInfo[d]? = some desk →
    some q ∈ desk.seats → q < s.joined
  live : ∀ q, s.live q = true → q < s.joined

lemma mem_seats_iff : seat ∈ desk.seats ↔
    seat = desk.spPlayer1 ∨ seat = desk.spPlayer2 ∨ seat = desk.spPlayer3 := by
  simp [Desk.seats]

/-- A player has not expired exactly if it is alive. -/
lemma expired_some_iff : s.expired (some q) = false ↔ s.live q = true := by
  simp [expired]

/-- A seat which is taken has a player. -/
lemma exists_of_expired_eq_false (h : s.expired seat = false) :
    ∃ q, seat = some q ∧ s.live q = true := by
  cases seat with
  | none => cases h
  | some q => exact ⟨q, rfl, expired_some_iff.mp h⟩

/-- The newcomer does not sit anywhere yet. -/
lemma Numbered.expired_construct (hs : Numbered s) (hdesk : s.deskInfo[d]? = some desk)
    (seat : Option PlayerRef) (hmem : seat ∈ desk.seats) : s.construct.expired seat = s.expired seat := by
  cases seat with
  | none => rfl
  | some q =>
    have hne : q ≠ s.joined := (hs.seats d desk q hdesk hmem).ne
    simp [expired, construct, hne]

/-- Telling the player of a seat changes that player only. -/
lemma play_eq (d : DeskRef) (seat : Option PlayerRef) (s : TCPServer) :
    s.play d seat =
      { s with
        player := fun q =>
          if seat = some q ∧ s.live q = true then
            { s.player q with ready := true, spDesk := some d }
          else s.player q } := by
  cases seat with
  | none => simp [play, lock, expired]
  | some p =>
    cases hlive : s.live p
    · have hnone : ∀ q, ¬ (some p = some q ∧ s.live q = true) := by
        rintro q ⟨heq, hq⟩
        cases heq
        rw [hlive] at hq
        cases hq
      simp only [play, lock, expired, hlive, Bool.not_false, if_true, if_neg (hnone _)]
    · simp only [play, lock, expired, hlive, Bool.not_true, Bool.false_eq_true, if_false]
      congr 1
      funext q
      by_cases hq : q = p
      · subst hq
        simp [hlive]
      · simp [Function.update_of_ne hq, Ne.symm hq]

/-- The players of a desk with three taken seats are told so, and it is dealt a hand. -/
lemma fillDesk_eq (rand1 rand2 rand3 rand4 : ℕ)
    (hfull : ∀ seat ∈ desk.seats, s.expired seat = false) :
    s.fillDesk rand1 rand2 rand3 rand4 desk =
      { s with
        deskInfo := s.deskInfo.dropLast ++ [desk.generateCards rand1 rand2 rand3 rand4]
        player := fun q =>
          if some q ∈ desk.seats then
            { s.player q with ready := true, spDesk := some (s.deskInfo.length - 1) }
          else s.player q } := by
  obtain ⟨p1, h1, hlive1⟩ := exists_of_expired_eq_false (hfull desk.spPlayer1 (by simp [Desk.seats]))
  obtain ⟨p2, h2, hlive2⟩ := exists_of_expired_eq_false (hfull desk.spPlayer2 (by simp [Desk.seats]))
  obtain ⟨p3, h3, hlive3⟩ := exists_of_expired_eq_false (hfull desk.spPlayer3 (by simp [Desk.seats]))
  simp only [fillDesk, setLastDesk, play_eq, TCPServer.mk.injEq, true_and, and_true]
  funext q
  have hplays : ∀ p, s.live p = true → (p = q ∧ s.live q = true ↔ p = q) :=
    fun p hp => ⟨fun h => h.1, fun h => ⟨h, h ▸ hp⟩⟩
  simp only [mem_seats_iff, h1, h2, h3, hplays p1 hlive1, hplays p2 hlive2, hplays p3 hlive3,
    Option.some.injEq, eq_comm (a := q)]
  by_cases hq1 : p1 = q <;> by_cases hq2 : p2 = q <;> by_cases hq3 : p3 = q <;>
    simp only [hq1, hq2, hq3, if_true, if_false, or_self, or_true, true_or]

/-- An arrival takes the first free seat of the last desk, or opens a desk if there is none. -/
lemma newPlayerJoined_cases (hs : Numbered s) (rand1 rand2 rand3 rand4 : ℕ) :
    ((∀ desk, s.deskInfo.getLast? = some desk → ∀ seat ∈ desk.seats, s.expired seat = false) ∧
      s.newPlayerJoined rand1 rand2 rand3 rand4 =
        s.construct.openDesk (Int32.ofNat (s.deskInfo.length + 1)) s.joined) ∨
    (∃ desks desk desk', s.deskInfo = desks ++ [desk] ∧
      s.newPlayerJoined rand1 rand2 rand3 rand4 = s.construct.setLastDesk desk' ∧
      (s.expired desk.spPlayer1 = true ∧ desk' = { desk with spPlayer1 := some s.joined } ∨
        s.expired desk.spPlayer1 = false ∧ s.expired desk.spPlayer2 = true ∧
          desk' = { desk with spPlayer2 := some s.joined })) ∨
    (∃ desks desk, s.deskInfo = desks ++ [desk] ∧ s.expired desk.spPlayer1 = false ∧
      s.expired desk.spPlayer2 = false ∧ s.expired desk.spPlayer3 = true ∧
      s.newPlayerJoined rand1 rand2 rand3 rand4 =
        s.construct.fillDesk rand1 rand2 rand3 rand4 { desk with spPlayer3 := some s.joined }) := by
  rcases List.eq_nil_or_concat' s.deskInfo with hnil | ⟨desks, desk, hdesks⟩
  · refine Or.inl ⟨by simp [hnil], ?_⟩
    simp [newPlayerJoined, construct, hnil]
  · have hlast : s.construct.deskInfo.getLast? = some desk := by
      simp [construct, hdesks]
    have hget : s.deskInfo[desks.length]? = some desk := by
      simp [hdesks]
    have h1 := hs.expired_construct hget desk.spPlayer1 (by simp [Desk.seats])
    have h2 := hs.expired_construct hget desk.spPlayer2 (by simp [Desk.seats])
    have h3 := hs.expired_construct hget desk.spPlayer3 (by simp [Desk.seats])
    simp only [newPlayerJoined, hlast, h1, h2, h3]
    cases hexp1 : s.expired desk.spPlayer1
    · cases hexp2 : s.expired desk.spPlayer2
      · cases hexp3 : s.expired desk.spPlayer3
        · refine Or.inl ⟨?_, rfl⟩
          intro desk' hdesk' seat hmem
          have heq : desk' = desk := by
            simpa [hdesks] using hdesk'.symm
          subst heq
          rcases mem_seats_iff.mp hmem with rfl | rfl | rfl
          · exact hexp1
          · exact hexp2
          · exact hexp3
        · exact Or.inr (Or.inr ⟨desks, desk, hdesks, hexp1, hexp2, hexp3, rfl⟩)
      · exact Or.inr (Or.inl ⟨desks, desk, _, hdesks, rfl, Or.inr ⟨hexp1, hexp2, rfl⟩⟩)
    · exact Or.inr (Or.inl ⟨desks, desk, _, hdesks, rfl, Or.inl ⟨hexp1, rfl⟩⟩)

lemma numbered_empty : Numbered empty where
  seats d desk q hdesk := by simp [empty] at hdesk
  live q hq := by cases hq

/-- The desks that the last desk is among, and the last one. -/
lemma getElem?_concat_cases {desks : List Desk}
    (h : (desks ++ [desk'])[d]? = some desk) :
    desks[d]? = some desk ∨ d = desks.length ∧ desk = desk' := by
  rcases Nat.lt_trichotomy d desks.length with hlt | rfl | hgt
  · rw [List.getElem?_append_left hlt] at h
    exact Or.inl h
  · simp only [List.getElem?_concat_length, Option.some.injEq] at h
    exact Or.inr ⟨rfl, h.symm⟩
  · rw [List.getElem?_eq_none (by simp; omega)] at h
    cases h

/-- The newcomer sits on the last desk only. -/
lemma Numbered.newcomer_at {desks : List Desk} (hs : Numbered s) (hdesks : desks <+: s.deskInfo)
    (h : (desks ++ [desk'])[d]? = some desk) (hseat : some s.joined ∈ desk.seats) :
    d = desks.length ∧ desk = desk' := by
  rcases getElem?_concat_cases h with hold | hlast
  · obtain ⟨rest, hrest⟩ := hdesks
    have hget : s.deskInfo[d]? = some desk := by
      rw [← hrest, List.getElem?_append_left]
      · exact hold
      · exact (List.getElem?_eq_some_iff.mp hold).1
    exact absurd (hs.seats d desk s.joined hget hseat) (lt_irrefl _)
  · exact hlast

/-- The seats of a desk of which only the third was free, once the newcomer sits there. -/
lemma Numbered.taken_of_third {desks : List Desk} (hs : Numbered s)
    (hdesks : s.deskInfo = desks ++ [desk]) (h1 : s.expired desk.spPlayer1 = false)
    (h2 : s.expired desk.spPlayer2 = false) :
    ∀ seat ∈ Desk.seats { desk with spPlayer3 := some s.joined },
      s.construct.expired seat = false := by
  have hget : s.deskInfo[desks.length]? = some desk := by
    simp [hdesks]
  intro seat hmem
  rcases mem_seats_iff.mp hmem with rfl | rfl | rfl
  · rw [← h1]
    exact hs.expired_construct hget _ (by simp [Desk.seats])
  · rw [← h2]
    exact hs.expired_construct hget _ (by simp [Desk.seats])
  · simp [expired, construct]

/-- A text that is the single line of a hand. -/
def IsHand (text : Bytes) : Prop :=
  ∃ n1 n2 n3 n4, text = cardsLine (card n1) (card n2) (card n3) (card n4)

/-- What an arrival can do to a desk: a new one has an empty text, and the text of another one is
kept, or a hand is added to it. -/
def KeepsText (old : Option Desk) (desk' : Desk) : Prop :=
  match old with
  | none => desk'.sendCards = [] ∧ desk'.dealt = []
  | some desk =>
    desk'.sendCards = desk.sendCards ∧ desk'.dealt = desk.dealt ∨
      ∃ hand, IsHand hand ∧ desk'.sendCards = desk.sendCards ++ hand ∧
        desk'.dealt = desk.dealt ++ [hand]

/-- What everybody can rely on when a newcomer is put on the desk `d₀`: nobody loses a seat, a desk
keeps its text, to which a hand may be added, and whoever becomes ready sits on that desk. -/
structure Arrives (d₀ : DeskRef) (s s' : TCPServer) : Prop where
  joined : s'.joined = s.joined + 1
  live : s'.live = Function.update s.live s.joined true
  seated : ∀ d q, s'.SeatedAt q d → q = s.joined ∧ d = d₀ ∨ s.SeatedAt q d
  newcomer : s'.SeatedAt s.joined d₀
  kept : ∀ d q, s.live q = true → s.SeatedAt q d → s'.SeatedAt q d
  desks : ∀ (d : DeskRef) (desk' : Desk), s'.deskInfo[d]? = some desk' →
    KeepsText s.deskInfo[d]? desk'
  sent : ∀ q, (s'.player q).cardsSent = (s.construct.player q).cardsSent ∧
    (s'.player q).sentCards = (s.construct.player q).sentCards
  ready : ∀ q, (s'.player q).ready = true →
    (s.construct.player q).ready = true ∧
        (s'.player q).spDesk = (s.construct.player q).spDesk ∨
      (s'.player q).spDesk = some d₀ ∧ ∃ desk' : Desk, s'.deskInfo[d₀]? = some desk' ∧
        some q ∈ desk'.seats ∧ desk'.dealt ≠ []

lemma KeepsText.refl (desk : Desk) : KeepsText (some desk) desk :=
  Or.inl ⟨rfl, rfl⟩

/-- The newcomer takes a seat of the last desk which is free. -/
structure Takes (s : TCPServer) (desk desk' : Desk) : Prop where
  newcomer : some s.joined ∈ desk'.seats
  others : ∀ q, some q ∈ desk'.seats → q = s.joined ∨ some q ∈ desk.seats
  kept : ∀ q, s.live q = true → some q ∈ desk.seats → some q ∈ desk'.seats
  text : KeepsText (some desk) desk'

/-- Nobody alive sits on a free seat. -/
lemma ne_of_expired (h : s.expired seat = true) (hq : s.live q = true) : some q ≠ seat := by
  rintro rfl
  rw [expired_some_iff.mpr hq] at h
  cases h

lemma takes_first (h : s.expired desk.spPlayer1 = true) :
    Takes s desk { desk with spPlayer1 := some s.joined } where
  newcomer := by simp [Desk.seats]
  others q hq := by
    simp only [mem_seats_iff, Option.some.injEq] at hq ⊢
    tauto
  kept q hlive hq := by
    have hne := ne_of_expired h hlive
    simp only [mem_seats_iff] at hq ⊢
    tauto
  text := KeepsText.refl desk

lemma takes_second (h : s.expired desk.spPlayer2 = true) :
    Takes s desk { desk with spPlayer2 := some s.joined } where
  newcomer := by simp [Desk.seats]
  others q hq := by
    simp only [mem_seats_iff, Option.some.injEq] at hq ⊢
    tauto
  kept q hlive hq := by
    have hne := ne_of_expired h hlive
    simp only [mem_seats_iff] at hq ⊢
    tauto
  text := KeepsText.refl desk

/-- The newcomer takes the third seat, and a hand is generated. -/
lemma takes_third (h : s.expired desk.spPlayer3 = true) (rand1 rand2 rand3 rand4 : ℕ) :
    Takes s desk (Desk.generateCards rand1 rand2 rand3 rand4
      { desk with spPlayer3 := some s.joined }) where
  newcomer := by simp [Desk.seats, Desk.generateCards]
  others q hq := by
    simp only [mem_seats_iff, Desk.generateCards, Option.some.injEq] at hq ⊢
    tauto
  kept q hlive hq := by
    have hne := ne_of_expired h hlive
    simp only [mem_seats_iff, Desk.generateCards] at hq ⊢
    tauto
  text := Or.inr ⟨_, ⟨rand1, rand2, rand3, rand4, rfl⟩, rfl, rfl⟩

/-- Taking a seat of the last desk is an arrival there. -/
lemma arrives_of_takes {desks : List Desk} (hdesks : s.deskInfo = desks ++ [desk])
    (hdesks' : s'.deskInfo = desks ++ [desk']) (htakes : Takes s desk desk')
    (hjoined : s'.joined = s.joined + 1) (hlive : s'.live = Function.update s.live s.joined true)
    (hsent : ∀ q, (s'.player q).cardsSent = (s.construct.player q).cardsSent ∧
      (s'.player q).sentCards = (s.construct.player q).sentCards)
    (hready : ∀ q, (s'.player q).ready = true →
      (s.construct.player q).ready = true ∧
          (s'.player q).spDesk = (s.construct.player q).spDesk ∨
        (s'.player q).spDesk = some desks.length ∧ some q ∈ desk'.seats ∧ desk'.dealt ≠ []) :
    Arrives desks.length s s' where
  joined := hjoined
  live := hlive
  newcomer := ⟨desk', by simp [hdesks'], htakes.newcomer⟩
  seated := by
    rintro d q ⟨desk₁, hget, hmem⟩
    rw [hdesks'] at hget
    rcases getElem?_concat_cases hget with hold | ⟨rfl, rfl⟩
    · right
      refine ⟨desk₁, ?_, hmem⟩
      rw [hdesks, List.getElem?_append_left (List.getElem?_eq_some_iff.mp hold).1]
      exact hold
    · rcases htakes.others q hmem with rfl | hmem
      · exact Or.inl ⟨rfl, rfl⟩
      · exact Or.inr ⟨desk, by simp [hdesks], hmem⟩
  kept := by
    rintro d q hq ⟨desk₁, hget, hmem⟩
    rw [hdesks] at hget
    rcases getElem?_concat_cases hget with hold | ⟨rfl, rfl⟩
    · refine ⟨desk₁, ?_, hmem⟩
      rw [hdesks', List.getElem?_append_left (List.getElem?_eq_some_iff.mp hold).1]
      exact hold
    · exact ⟨desk', by simp [hdesks'], htakes.kept q hq hmem⟩
  desks := by
    intro d desk₁ hget
    rw [hdesks'] at hget
    rcases getElem?_concat_cases hget with hold | ⟨rfl, rfl⟩
    · have hsame : s.deskInfo[d]? = some desk₁ := by
        rw [hdesks, List.getElem?_append_left (List.getElem?_eq_some_iff.mp hold).1]
        exact hold
      rw [hsame]
      exact KeepsText.refl desk₁
    · have hlast : s.deskInfo[desks.length]? = some desk := by
        simp [hdesks]
      rw [hlast]
      exact htakes.text
  sent := hsent
  ready q hq := by
    rcases hready q hq with hsame | ⟨htold, hmem, hdealt⟩
    · exact Or.inl hsame
    · exact Or.inr ⟨htold, desk', by simp [hdesks'], hmem, hdealt⟩

/-- **What an arrival does.** -/
theorem arrives_newPlayerJoined (hs : Numbered s) (rand1 rand2 rand3 rand4 : ℕ) :
    ∃ d₀, Arrives d₀ s (s.newPlayerJoined rand1 rand2 rand3 rand4) := by
  rcases newPlayerJoined_cases hs rand1 rand2 rand3 rand4 with
    ⟨-, heq⟩ | ⟨desks, desk, desk', hdesks, heq, hseat⟩ |
    ⟨desks, desk, hdesks, hexp1, hexp2, hexp3, heq⟩
  · rw [heq]
    refine ⟨s.deskInfo.length, ?_⟩
    constructor
    · rfl
    · rfl
    · rintro d q ⟨desk, hget, hmem⟩
      rcases getElem?_concat_cases hget with hold | ⟨rfl, rfl⟩
      · exact Or.inr ⟨desk, hold, hmem⟩
      · exact Or.inl ⟨by simpa [Desk.seats] using hmem, rfl⟩
    · exact ⟨_, List.getElem?_concat_length, by simp [Desk.seats]⟩
    · rintro d q - ⟨desk, hget, hmem⟩
      refine ⟨desk, ?_, hmem⟩
      exact (List.getElem?_append_left (List.getElem?_eq_some_iff.mp hget).1).trans hget
    · intro d desk' hget
      rcases getElem?_concat_cases hget with hold | ⟨rfl, rfl⟩
      · have hsame : s.deskInfo[d]? = some desk' := hold
        rw [hsame]
        exact KeepsText.refl desk'
      · have hnone : s.deskInfo[s.construct.deskInfo.length]? = none :=
          List.getElem?_eq_none (le_refl _)
        rw [hnone]
        exact ⟨rfl, rfl⟩
    · intro q
      by_cases hq : q = s.joined
      · subst hq
        simp [openDesk, construct]
      · simp [openDesk, hq]
    · intro q hq
      by_cases hne : q = s.joined
      · subst hne
        simp [openDesk, construct] at hq
      · left
        simpa [openDesk, hne] using hq
  · have htakes : Takes s desk desk' := by
      rcases hseat with ⟨hexp1, rfl⟩ | ⟨-, hexp2, rfl⟩
      · exact takes_first hexp1
      · exact takes_second hexp2
    rw [heq]
    refine ⟨desks.length, arrives_of_takes hdesks ?_ htakes rfl rfl ?_ ?_⟩
    · simp [setLastDesk, construct, hdesks]
    · exact fun q => ⟨rfl, rfl⟩
    · exact fun q hq => Or.inl ⟨hq, rfl⟩
  · have hlength : s.construct.deskInfo.dropLast = desks := by
      simp [construct, hdesks]
    rw [heq, fillDesk_eq _ _ _ _ (hs.taken_of_third hdesks hexp1 hexp2), hlength]
    refine ⟨desks.length,
      arrives_of_takes hdesks rfl (takes_third hexp3 rand1 rand2 rand3 rand4) rfl rfl ?_ ?_⟩
    · intro q
      by_cases hq : some q ∈ Desk.seats { desk with spPlayer3 := some s.joined }
      · simp [hq]
      · simp [hq]
    · intro q hready
      by_cases hq : some q ∈ Desk.seats { desk with spPlayer3 := some s.joined }
      · right
        refine ⟨?_, hq, by simp [Desk.generateCards]⟩
        simp [hq, construct, hdesks]
      · left
        simpa [hq] using hready

/-! ## A full desk plays -/

/-- The third seat is taken and one of the other two is free, at the last desk. -/
lemma refillsFirstOrSecond_concat {desks : List Desk} (hdesks : s.deskInfo = desks ++ [desk]) :
    s.RefillsFirstOrSecond ↔
      s.expired desk.spPlayer3 = false ∧ s.expired desk.spPlayer1 ≠ s.expired desk.spPlayer2 := by
  simp [RefillsFirstOrSecond, hdesks]

/-- **After an arrival the desk of the newcomer plays, if it is full, exactly if the newcomer has
not taken the first or the second seat of a desk whose other seats were taken.** -/
theorem fullDeskPlays_newPlayerJoined_iff (hs : Numbered s) (rand1 rand2 rand3 rand4 : ℕ) :
    (s.newPlayerJoined rand1 rand2 rand3 rand4).FullDeskPlays s.joined ↔
      ¬ s.RefillsFirstOrSecond := by
  rcases newPlayerJoined_cases hs rand1 rand2 rand3 rand4 with
    ⟨htaken, heq⟩ | ⟨desks, desk, desk', hdesks, heq, hseat⟩ |
    ⟨desks, desk, hdesks, hexp1, hexp2, hexp3, heq⟩
  · rw [heq]
    refine iff_of_true ?_ ?_
    · -- the newcomer is alone on its desk
      intro d desk hdesk hmem hfull
      obtain ⟨-, rfl⟩ := hs.newcomer_at (List.prefix_refl _) hdesk hmem
      exact absurd (hfull none (by simp [Desk.seats])) (by simp [expired])
    · rintro ⟨desk, hlast, -, hne⟩
      have h1 := htaken desk hlast desk.spPlayer1 (by simp [Desk.seats])
      have h2 := htaken desk hlast desk.spPlayer2 (by simp [Desk.seats])
      exact hne (h1.trans h2.symm)
  · have hget : s.deskInfo[desks.length]? = some desk := by
      simp [hdesks]
    have hnew : s.construct.expired (some s.joined) = false := by
      simp [expired, construct]
    -- the desk is full afterwards exactly if two seats were taken and one of them is not the last
    have hfull : ((∀ seat ∈ desk'.seats, s.construct.expired seat = false) ↔
        s.RefillsFirstOrSecond) ∧ some s.joined ∈ desk'.seats := by
      have h1 := hs.expired_construct hget desk.spPlayer1 (by simp [Desk.seats])
      have h2 := hs.expired_construct hget desk.spPlayer2 (by simp [Desk.seats])
      have h3 := hs.expired_construct hget desk.spPlayer3 (by simp [Desk.seats])
      rw [refillsFirstOrSecond_concat hdesks]
      rcases hseat with ⟨hexp1, rfl⟩ | ⟨hexp1, hexp2, rfl⟩
      · simp [Desk.seats, hnew, h2, h3, hexp1, and_comm]
      · simp [Desk.seats, hnew, h1, h3, hexp1, hexp2]
    have hdesks' : (s.construct.setLastDesk desk').deskInfo = desks ++ [desk'] := by
      simp [setLastDesk, construct, hdesks]
    rw [heq]
    constructor
    · intro hplays hrefills
      have hready := hplays desks.length desk' (by simp [hdesks']) hfull.2 (hfull.1.mpr hrefills)
        s.joined hfull.2
      simp [setLastDesk, construct] at hready
    · intro hno d desk'' hdesk hmem hall
      rw [hdesks'] at hdesk
      obtain ⟨-, rfl⟩ := hs.newcomer_at (hdesks ▸ List.prefix_append _ _) hdesk hmem
      exact absurd (hfull.1.mp hall) hno
  · refine iff_of_true ?_ ?_
    · rw [heq, fillDesk_eq _ _ _ _ (hs.taken_of_third hdesks hexp1 hexp2)]
      intro d desk' hdesk hmem _ q hq
      have hlength : s.construct.deskInfo.dropLast = desks := by
        simp [construct, hdesks]
      rw [hlength] at hdesk
      obtain ⟨rfl, rfl⟩ := hs.newcomer_at (hdesks ▸ List.prefix_append _ _) hdesk hmem
      have hq' : some q ∈ Desk.seats { desk with spPlayer3 := some s.joined } := hq
      simp [hq', construct, hdesks]
    · rw [refillsFirstOrSecond_concat hdesks, hexp3]
      simp

/-! ## Whole runs -/

/-- The three kinds of steps as what they do to the state. -/
lemma step_cases {l : Step} (h : system.step s l s') :
    (∃ rand1 rand2 rand3 rand4, l = .newPlayerJoined rand1 rand2 rand3 rand4 ∧
      s' = s.newPlayerJoined rand1 rand2 rand3 rand4) ∨
    (∃ p, l = .depart p ∧ s' = { s with live := Function.update s.live p false }) ∨
    (∃ p sentLength d desk, l = .sendCards p sentLength ∧ s.live p = true ∧
      (s.player p).ready = true ∧ (s.player p).spDesk = some d ∧ s.deskInfo[d]? = some desk ∧
      s' = { s with
        player := Function.update s.player p
          { s.player p with cardsSent := true, sentCards := desk.sendCards } }) := by
  cases l with
  | newPlayerJoined rand1 rand2 rand3 rand4 =>
    exact Or.inl ⟨rand1, rand2, rand3, rand4, rfl, (Option.some.inj h).symm⟩
  | depart p =>
    obtain ⟨-, heq⟩ := Option.ite_none_right_eq_some.mp h
    exact Or.inr (Or.inl ⟨p, rfl, (Option.some.inj heq).symm⟩)
  | sendCards p sentLength =>
    obtain ⟨⟨hlive, hready, -⟩, heq⟩ := Option.ite_none_right_eq_some.mp h
    unfold sendCards at heq
    cases hdesk : (s.player p).spDesk.bind (s.deskInfo[·]?) with
    | none =>
      rw [hdesk] at heq
      cases heq
    | some desk =>
      obtain ⟨d, hd, hget⟩ := Option.bind_eq_some_iff.mp hdesk
      rw [hdesk] at heq
      dsimp only at heq
      by_cases hfull : sentLength = desk.sendCards.length
      · rw [if_pos hfull] at heq
        exact Or.inr (Or.inr ⟨p, sentLength, d, desk, rfl, hlive, hready, hd, hget,
          (Option.some.inj heq).symm⟩)
      · rw [if_neg hfull] at heq
        cases heq

/-- The newcomer gets the next number. -/
lemma Arrives.numbered {d₀ : DeskRef} (h : Arrives d₀ s s') (hs : Numbered s) : Numbered s' where
  seats d desk q hget hmem := by
    rw [h.joined]
    rcases h.seated d q ⟨desk, hget, hmem⟩ with ⟨rfl, -⟩ | ⟨old, hold, hmem⟩
    · exact Nat.lt_succ_self _
    · exact Nat.lt_succ_of_lt (hs.seats d old q hold hmem)
  live q hq := by
    rw [h.live, Function.update_apply] at hq
    rw [h.joined]
    by_cases hne : q = s.joined
    · exact hne ▸ Nat.lt_succ_self _
    · rw [if_neg hne] at hq
      exact Nat.lt_succ_of_lt (hs.live q hq)

/-- A departure makes nobody come alive. -/
lemma live_of_departed (h : Function.update s.live p false q = true) : s.live q = true := by
  by_cases hne : q = p
  · simp [hne] at h
  · simpa [hne] using h

/-- Players stay numbered. -/
lemma Numbered.step {l : Step} (hs : Numbered s) (h : system.step s l s') : Numbered s' := by
  rcases step_cases h with ⟨rand1, rand2, rand3, rand4, -, rfl⟩ | ⟨p, -, rfl⟩ |
    ⟨p, sentLength, d, desk, -, -, -, -, -, rfl⟩
  · obtain ⟨d₀, harrives⟩ := arrives_newPlayerJoined hs rand1 rand2 rand3 rand4
    exact harrives.numbered hs
  · exact ⟨hs.seats, fun q hq => hs.live q (live_of_departed hq)⟩
  · exact ⟨hs.seats, hs.live⟩

/-- **In a run every full desk plays after an arrival exactly if no newcomer takes the first or
the second seat of a desk whose other seats are taken.** -/
theorem fullDeskPlays_iff_noRefill {tr : List (Step × TCPServer)} (hrun : system.Run empty tr) :
    TransitionSystem.Along ArrivalPlays empty tr ↔ TransitionSystem.Guarded NoRefill empty tr := by
  refine hrun.along_iff_guarded (I := Numbered) (fun _ _ _ hs h => hs.step h) ?_ numbered_empty
  intro s l s' hs h
  rcases step_cases h with ⟨rand1, rand2, rand3, rand4, rfl, rfl⟩ | ⟨p, rfl, rfl⟩ |
    ⟨p, sentLength, d, desk, rfl, -, -, -, -, rfl⟩
  · exact fullDeskPlays_newPlayerJoined_iff hs rand1 rand2 rand3 rand4
  · exact Iff.rfl
  · exact Iff.rfl

/-- Three players arrive. -/
theorem fullDeskPlays_iff_noRefill_three_players :
    TransitionSystem.Along ArrivalPlays empty (TransitionSystem.states next empty
      [.newPlayerJoined 0 0 0 0, .newPlayerJoined 0 0 0 0, .newPlayerJoined 0 0 0 0]) := by
  refine (fullDeskPlays_iff_noRefill ?_).mpr ?_
  · exact .cons rfl (.cons rfl (.cons rfl (.nil _)))
  · refine ⟨?_, ?_, ?_, trivial⟩
    · show ¬ RefillsFirstOrSecond _
      decide
    · show ¬ RefillsFirstOrSecond _
      decide
    · show ¬ RefillsFirstOrSecond _
      decide

/-- The first of three players departs, and a fourth one takes its seat. -/
theorem exists_full_desk_not_playing :
    ¬ ∀ tr, system.Run empty tr → TransitionSystem.Along ArrivalPlays empty tr := by
  intro h
  have hrun : system.Run empty (TransitionSystem.states next empty
      [.newPlayerJoined 0 0 0 0, .newPlayerJoined 0 0 0 0, .newPlayerJoined 0 0 0 0, .depart 0,
        .newPlayerJoined 0 0 0 0]) :=
    .cons rfl (.cons rfl (.cons rfl (.cons rfl (.cons rfl (.nil _)))))
  obtain ⟨-, -, -, -, hplays, -⟩ := h _ hrun
  have hready := hplays 0 _ rfl (by decide) (by decide) 3 (by decide)
  exact absurd hready.1 (by decide)

end TCPServer

end Calc24.V1
