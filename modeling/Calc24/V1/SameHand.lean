import Calc24.V1.TCPServer

/-!
# One hand on a desk

`generateCards` appends the hand to the text of the desk, and the thread of each player sends the
text as it is at that moment (`Player::sendCards`).  A desk becomes full again when its third seat
is vacated and taken once more, and is then dealt another hand, so that whoever is sent the text
from then on gets several lines.

The players who sit at one desk have been sent one and the same line exactly in the runs in which
every player is sent its cards while its desk has been dealt a single hand
(`sameHand_iff_dealtOnce`).
-/

namespace Calc24.V1.TCPServer

/-! ## The texts of the desks -/

variable {s s' : TCPServer} {desk desk' : Desk} {d e d₀ : DeskRef} {p q : PlayerRef}
  {text hand : Bytes}

/-- All hands have the same length. -/
lemma length_cardsLine (card1 card2 card3 card4 : Char) :
    (cardsLine card1 card2 card3 card4).length = 23 := by
  simp only [cardsLine, ascii, List.length_append, List.length_map, String.toList_ofList]
  rfl

lemma IsHand.length (h : IsHand hand) : hand.length = 23 := by
  obtain ⟨n1, n2, n3, n4, rfl⟩ := h
  exact length_cardsLine _ _ _ _

/-- The text of a desk is made of the hands that it has been dealt. -/
structure Dealt (desk : Desk) : Prop where
  text : desk.sendCards = desk.dealt.flatten
  hands : ∀ hand ∈ desk.dealt, IsHand hand

/-- A desk that has been dealt to still has been. -/
lemma KeepsText.dealt (h : KeepsText (some desk) desk') (hdesk : Dealt desk) : Dealt desk' := by
  rcases h with ⟨htext, hdealt⟩ | ⟨hand, hhand, htext, hdealt⟩
  · exact ⟨by rw [htext, hdealt, hdesk.text], by rw [hdealt]; exact hdesk.hands⟩
  · constructor
    · rw [htext, hdealt, hdesk.text]
      simp
    · rw [hdealt]
      intro hand' hmem
      rcases List.mem_append.mp hmem with hmem | hmem
      · exact hdesk.hands hand' hmem
      · rw [List.mem_singleton.mp hmem]
        exact hhand

/-- The text of a desk is as long as its hands together. -/
lemma Dealt.length (h : Dealt desk) : desk.sendCards.length = 23 * desk.dealt.length := by
  rw [h.text, List.length_flatten]
  have hall : ∀ n ∈ desk.dealt.map List.length, n = 23 := by
    intro n hn
    obtain ⟨hand, hmem, rfl⟩ := List.mem_map.mp hn
    exact (h.hands hand hmem).length
  rw [List.eq_replicate_of_mem hall, List.sum_replicate, List.length_map]
  simp [Nat.mul_comm]

/-- The text is a single line exactly if a single hand has been dealt. -/
lemma Dealt.isHand_iff (h : Dealt desk) : IsHand desk.sendCards ↔ desk.dealt.length = 1 := by
  constructor
  · intro hhand
    have hlen := h.length
    have hone := hhand.length
    omega
  · intro hone
    obtain ⟨hand, hhand⟩ := List.length_eq_one_iff.mp hone
    have htext := h.text
    rw [hhand] at htext
    rw [htext]
    simpa using h.hands hand (by simp [hhand])

/-! ## The players -/

/-- What holds about the players who are alive: each sits at exactly one desk, is told of that one
when it becomes ready, and has been sent part of its text. -/
structure Seating (s : TCPServer) : Prop extends Numbered s where
  seated : ∀ q, s.live q = true → ∃ d, s.SeatedAt q d
  unique : ∀ q d e, s.SeatedAt q d → s.SeatedAt q e → d = e
  dealt : ∀ (d : DeskRef) (desk : Desk), s.deskInfo[d]? = some desk → Dealt desk
  ready : ∀ (q : PlayerRef) (d : DeskRef) (desk : Desk), s.live q = true →
    (s.player q).ready = true → s.deskInfo[d]? = some desk → some q ∈ desk.seats →
      (s.player q).spDesk = some d ∧ desk.dealt ≠ []
  sent : ∀ (q : PlayerRef) (d : DeskRef) (desk : Desk), s.live q = true →
    (s.player q).cardsSent = true → s.deskInfo[d]? = some desk → some q ∈ desk.seats →
      23 ≤ (s.player q).sentCards.length ∧ (s.player q).sentCards <+: desk.sendCards

lemma seating_empty : Seating empty where
  toNumbered := numbered_empty
  seated q hq := by cases hq
  unique q d e hd _ := by
    obtain ⟨desk, hdesk, -⟩ := hd
    simp [empty] at hdesk
  dealt d desk hdesk := by simp [empty] at hdesk
  ready q d desk hq := by cases hq
  sent q d desk hq := by cases hq

lemma construct_player_of_ne (hne : q ≠ s.joined) : s.construct.player q = s.player q :=
  Function.update_of_ne hne _ _

/-- Whoever sat at a desk before an arrival sits at the same one, with what it had been dealt. -/
lemma Arrives.old_desk (h : Arrives d₀ s s') (hne : q ≠ s.joined)
    (hget : s'.deskInfo[d]? = some desk') (hmem : some q ∈ desk'.seats) :
    ∃ desk, s.deskInfo[d]? = some desk ∧ some q ∈ desk.seats ∧ KeepsText (some desk) desk' := by
  rcases h.seated d q ⟨desk', hget, hmem⟩ with ⟨heq, -⟩ | ⟨desk, hold, hmem'⟩
  · exact absurd heq hne
  · have hkeeps := h.desks d desk' hget
    rw [hold] at hkeeps
    exact ⟨desk, hold, hmem', hkeeps⟩

lemma KeepsText.dealt_ne_nil (h : KeepsText (some desk) desk') (hdealt : desk.dealt ≠ []) :
    desk'.dealt ≠ [] := by
  rcases h with ⟨-, heq⟩ | ⟨hand, -, -, heq⟩
  · rwa [heq]
  · simp [heq]

/-- The text of a desk is only appended to. -/
lemma KeepsText.prefix (h : KeepsText (some desk) desk') : desk.sendCards <+: desk'.sendCards := by
  rcases h with ⟨heq, -⟩ | ⟨hand, -, heq, -⟩
  · rw [heq]
  · rw [heq]
    exact List.prefix_append _ _

/-- Nobody sits at two desks after an arrival. -/
lemma Seating.unique_of_arrives (hs : Seating s) (h : Arrives d₀ s s') (q : PlayerRef)
    (d e : DeskRef) (hd : s'.SeatedAt q d) (he : s'.SeatedAt q e) : d = e := by
  have hfresh : ∀ d, ¬ s.SeatedAt s.joined d := by
    rintro d ⟨desk, hget, hmem⟩
    exact absurd (hs.seats d desk _ hget hmem) (lt_irrefl _)
  rcases h.seated d q hd with ⟨rfl, rfl⟩ | hd'
  · rcases h.seated e _ he with ⟨-, rfl⟩ | he'
    · rfl
    · exact absurd he' (hfresh e)
  · rcases h.seated e q he with ⟨rfl, -⟩ | he'
    · exact absurd hd' (hfresh d)
    · exact hs.unique q d e hd' he'

/-- An arrival keeps all this. -/
lemma Seating.arrives (hs : Seating s) (h : Arrives d₀ s s') : Seating s' where
  toNumbered := h.numbered hs.toNumbered
  seated q hq := by
    by_cases hne : q = s.joined
    · exact ⟨d₀, hne ▸ h.newcomer⟩
    · rw [h.live, Function.update_of_ne hne] at hq
      obtain ⟨d, hd⟩ := hs.seated q hq
      exact ⟨d, h.kept d q hq hd⟩
  unique := hs.unique_of_arrives h
  dealt d desk' hget := by
    have hkeeps := h.desks d desk' hget
    cases hold : s.deskInfo[d]? with
    | none =>
      rw [hold] at hkeeps
      obtain ⟨htext, hdealt⟩ := hkeeps
      exact ⟨by simp [htext, hdealt], by simp [hdealt]⟩
    | some desk =>
      rw [hold] at hkeeps
      exact hkeeps.dealt (hs.dealt d desk hold)
  ready q d desk' hq hready hget hmem := by
    rcases h.ready q hready with ⟨hold, hdesk⟩ | ⟨hdesk, desk₀, hget₀, hmem₀, hdealt⟩
    · -- the newcomer is not ready, and the others were ready on the same desk
      have hne : q ≠ s.joined := by
        rintro rfl
        simp [construct] at hold
      rw [h.live, Function.update_of_ne hne] at hq
      rw [construct_player_of_ne hne] at hold hdesk
      obtain ⟨desk, hget', hmem', hkeeps⟩ := h.old_desk hne hget hmem
      obtain ⟨htold, hdealt⟩ := hs.ready q d desk hq hold hget' hmem'
      exact ⟨hdesk.trans htold, hkeeps.dealt_ne_nil hdealt⟩
    · have heq := hs.unique_of_arrives h q d d₀ ⟨desk', hget, hmem⟩ ⟨desk₀, hget₀, hmem₀⟩
      subst heq
      rw [hget] at hget₀
      cases hget₀
      exact ⟨hdesk, hdealt⟩
  sent q d desk' hq hsent hget hmem := by
    obtain ⟨hsame, htext⟩ := h.sent q
    rw [hsame] at hsent
    have hne : q ≠ s.joined := by
      rintro rfl
      simp [construct] at hsent
    rw [h.live, Function.update_of_ne hne] at hq
    rw [construct_player_of_ne hne] at hsent htext
    obtain ⟨desk, hget', hmem', hkeeps⟩ := h.old_desk hne hget hmem
    obtain ⟨hlen, hprefix⟩ := hs.sent q d desk hq hsent hget' hmem'
    rw [htext]
    exact ⟨hlen, hprefix.trans hkeeps.prefix⟩

/-- A departure keeps it. -/
lemma Seating.depart (hs : Seating s) (p : PlayerRef) :
    Seating { s with live := Function.update s.live p false } where
  seats := hs.seats
  live q hq := hs.live q (live_of_departed hq)
  seated q hq := hs.seated q (live_of_departed hq)
  unique := hs.unique
  dealt := hs.dealt
  ready q d desk hq := hs.ready q d desk (live_of_departed hq)
  sent q d desk hq := hs.sent q d desk (live_of_departed hq)

/-- And so does a player that is sent the text of its desk. -/
lemma Seating.sendCards (hs : Seating s) (hp : s.live p = true) (hready : (s.player p).ready = true)
    (hd : (s.player p).spDesk = some d) (hget : s.deskInfo[d]? = some desk) :
    Seating { s with
      player := Function.update s.player p
        { s.player p with cardsSent := true, sentCards := desk.sendCards } } where
  seats := hs.seats
  live := hs.live
  seated := hs.seated
  unique := hs.unique
  dealt := hs.dealt
  ready q e desk' hq hready' hget' hmem := by
    by_cases hne : q = p
    · subst hne
      simpa using hs.ready q e desk' hq hready hget' hmem
    · simp only [Function.update_of_ne hne] at hready' ⊢
      exact hs.ready q e desk' hq hready' hget' hmem
  sent q e desk' hq hsent hget' hmem := by
    by_cases hne : q = p
    · subst hne
      obtain ⟨hdesk, hdealt⟩ := hs.ready q e desk' hq hready hget' hmem
      have heq : d = e := Option.some.inj (hd.symm.trans hdesk)
      subst heq
      have hsame : desk' = desk := Option.some.inj (hget'.symm.trans hget)
      subst hsame
      have hlen := (hs.dealt d desk' hget).length
      have hpos := List.length_pos_iff.mpr hdealt
      simp only [Function.update_self]
      exact ⟨by omega, List.prefix_refl _⟩
    · simp only [Function.update_of_ne hne] at hsent ⊢
      exact hs.sent q e desk' hq hsent hget' hmem

/-- Every step keeps it. -/
lemma Seating.step {l : Step} (hs : Seating s) (h : system.step s l s') : Seating s' := by
  rcases step_cases h with ⟨rand1, rand2, rand3, rand4, -, rfl⟩ | ⟨p, -, rfl⟩ |
    ⟨p, sentLength, d, desk, -, hp, hready, hd, hget, rfl⟩
  · obtain ⟨d₀, harrives⟩ := arrives_newPlayerJoined hs.toNumbered rand1 rand2 rand3 rand4
    exact hs.arrives harrives
  · exact hs.depart p
  · exact hs.sendCards hp hready hd hget

/-! ## The law -/

/-- Any two players who are alive, sit at the same desk and have been sent cards were sent the same
text, and it is a single line. -/
def SameHand (s : TCPServer) : Prop :=
  ∀ d p q, s.SeatedAt p d → s.SeatedAt q d → s.live p = true → s.live q = true →
    (s.player p).cardsSent = true → (s.player q).cardsSent = true →
      (s.player p).sentCards = (s.player q).sentCards ∧ IsHand (s.player p).sentCards

/-- A player is sent its cards while the desk at which it plays has been dealt a single hand. -/
def DealtOnce (s : TCPServer) : Step → Prop
  | .sendCards p _ => ∃ d ∈ (s.player p).spDesk, ∃ desk ∈ s.deskInfo[d]?, desk.dealt.length = 1
  | _ => True

/-- A newcomer has not been sent anything. -/
lemma SameHand.arrives (hsame : SameHand s) (h : Arrives d₀ s s') : SameHand s' := by
  have hold : ∀ d q, s'.SeatedAt q d → s'.live q = true → (s'.player q).cardsSent = true →
      s.SeatedAt q d ∧ s.live q = true ∧ (s.player q).cardsSent = true ∧
        (s'.player q).sentCards = (s.player q).sentCards := by
    intro d q hseat hlive hsent
    obtain ⟨hsent', htext⟩ := h.sent q
    rw [hsent'] at hsent
    have hne : q ≠ s.joined := by
      rintro rfl
      simp [construct] at hsent
    rw [construct_player_of_ne hne] at hsent htext
    rw [h.live, Function.update_of_ne hne] at hlive
    rcases h.seated d q hseat with ⟨heq, -⟩ | hseat
    · exact absurd heq hne
    · exact ⟨hseat, hlive, hsent, htext⟩
  intro d p q hp hq hlivep hliveq hsentp hsentq
  obtain ⟨hp, hlivep, hsentp, htextp⟩ := hold d p hp hlivep hsentp
  obtain ⟨hq, hliveq, hsentq, htextq⟩ := hold d q hq hliveq hsentq
  rw [htextp, htextq]
  exact hsame d p q hp hq hlivep hliveq hsentp hsentq

/-- A departure changes no text and no hand. -/
lemma SameHand.depart (hsame : SameHand s) (p : PlayerRef) :
    SameHand { s with live := Function.update s.live p false } := by
  intro d q r hq hr hliveq hliver
  exact hsame d q r hq hr (live_of_departed hliveq) (live_of_departed hliver)

/-- A player who sits at a desk that has been dealt once and has been sent cards was sent the text
of the desk as it is. -/
lemma Seating.sentCards_eq (hs : Seating s) (hget : s.deskInfo[d]? = some desk)
    (honce : desk.dealt.length = 1) (hq : s.live q = true) (hsent : (s.player q).cardsSent = true)
    (hseat : s.SeatedAt q d) : (s.player q).sentCards = desk.sendCards := by
  obtain ⟨desk', hget', hmem⟩ := hseat
  rw [hget] at hget'
  cases hget'
  obtain ⟨hlen, hprefix⟩ := hs.sent q d desk hq hsent hget hmem
  have htext := (hs.dealt d desk hget).length
  have hle := hprefix.length_le
  exact hprefix.eq_of_length (by omega)

/-- What a player is sent is what the others at its desk were sent, if the desk has been dealt
once. -/
lemma SameHand.sendCards (hsame : SameHand s) (hs : Seating s) (hp : s.live p = true)
    (hready : (s.player p).ready = true) (hd : (s.player p).spDesk = some d)
    (hget : s.deskInfo[d]? = some desk) (honce : desk.dealt.length = 1) :
    SameHand { s with
      player := Function.update s.player p
        { s.player p with cardsSent := true, sentCards := desk.sendCards } } := by
  have hhand := (hs.dealt d desk hget).isHand_iff.mpr honce
  have hdesk : ∀ e, s.SeatedAt p e → e = d := by
    rintro e ⟨desk', hget', hmem⟩
    obtain ⟨htold, -⟩ := hs.ready p e desk' hp hready hget' hmem
    exact Option.some.inj (htold.symm.trans hd)
  intro e q r hq hr hliveq hliver hsentq hsentr
  by_cases hqp : q = p
  · subst hqp
    obtain rfl := hdesk e hq
    by_cases hrq : r = q
    · subst hrq
      simp only [Function.update_self]
      exact ⟨trivial, hhand⟩
    · simp only [Function.update_self, Function.update_of_ne hrq] at hsentr ⊢
      exact ⟨(hs.sentCards_eq hget honce hliver hsentr hr).symm, hhand⟩
  · simp only [Function.update_of_ne hqp] at hsentq ⊢
    by_cases hrp : r = p
    · subst hrp
      obtain rfl := hdesk e hr
      have htext := hs.sentCards_eq hget honce hliveq hsentq hq
      simp only [Function.update_self]
      rw [htext]
      exact ⟨rfl, hhand⟩
    · simp only [Function.update_of_ne hrp] at hsentr ⊢
      exact hsame e q r hq hr hliveq hliver hsentq hsentr

/-- **A step keeps the law exactly if whoever is sent its cards plays at a desk that has been dealt
once.** -/
theorem sameHand_step_iff {l : Step} (hs : Seating s) (hsame : SameHand s)
    (h : system.step s l s') : SameHand s' ↔ DealtOnce s l := by
  rcases step_cases h with ⟨rand1, rand2, rand3, rand4, rfl, rfl⟩ | ⟨p, rfl, rfl⟩ |
    ⟨p, sentLength, d, desk, rfl, hp, hready, hd, hget, rfl⟩
  · obtain ⟨d₀, harrives⟩ := arrives_newPlayerJoined hs.toNumbered rand1 rand2 rand3 rand4
    exact iff_of_true (hsame.arrives harrives) trivial
  · exact iff_of_true (hsame.depart p) trivial
  · constructor
    · intro hsame'
      obtain ⟨e, desk', hget', hmem⟩ := hs.seated p hp
      have htold := (hs.ready p e desk' hp hready hget' hmem).1
      obtain rfl : d = e := Option.some.inj (hd.symm.trans htold)
      have hseat : s.SeatedAt p d := ⟨desk', hget', hmem⟩
      have hhand := (hsame' d p p hseat hseat hp hp (by simp) (by simp)).2
      simp only [Function.update_self] at hhand
      exact ⟨d, hd, desk, hget, (hs.dealt d desk hget).isHand_iff.mp hhand⟩
    · rintro ⟨e, he, desk', hget', honce⟩
      obtain rfl : d = e := Option.some.inj (hd.symm.trans he)
      obtain rfl : desk = desk' := Option.some.inj (hget.symm.trans hget')
      exact hsame.sendCards hs hp hready hd hget honce

/-- **In a run the players of each desk have always been sent the same single line exactly if every
player is sent its cards while its desk has been dealt a single hand.** -/
theorem sameHand_iff_dealtOnce {tr : List (Step × TCPServer)} (hrun : system.Run empty tr) :
    (∀ r ∈ tr, SameHand r.2) ↔ TransitionSystem.Guarded DealtOnce empty tr :=
  hrun.forall_iff_guarded (I := Seating) (P := SameHand) (fun _ _ _ hs h => hs.step h)
    (fun _ _ _ hs hsame h => sameHand_step_iff hs hsame h) seating_empty
    fun _ _ _ _ _ hlive => by cases hlive

/-- Three players arrive, and one of them is sent its cards. -/
theorem sameHand_iff_dealtOnce_three_players :
    SameHand (TransitionSystem.runAll next empty [.newPlayerJoined 0 0 0 0,
      .newPlayerJoined 0 0 0 0, .newPlayerJoined 0 0 0 0, .sendCards 0 23]) := by
  have hrun : system.Run empty (TransitionSystem.states next empty [.newPlayerJoined 0 0 0 0,
      .newPlayerJoined 0 0 0 0, .newPlayerJoined 0 0 0 0, .sendCards 0 23]) :=
    .cons rfl (.cons rfl (.cons rfl (.cons rfl (.nil _))))
  have hall := (sameHand_iff_dealtOnce hrun).mpr
    ⟨trivial, trivial, trivial, ⟨0, rfl, _, rfl, rfl⟩, trivial⟩
  exact hall _ (List.getLast_mem (by simp [TransitionSystem.states]))

/-- The third player departs after the first one has been sent its cards, and the one who takes its
seat is sent two lines. -/
theorem exists_different_hands :
    ¬ ∀ tr, system.Run empty tr → ∀ r ∈ tr, SameHand r.2 := by
  intro h
  have hrun : system.Run empty (TransitionSystem.states next empty
      [.newPlayerJoined 0 0 0 0, .newPlayerJoined 0 0 0 0, .newPlayerJoined 0 0 0 0,
        .sendCards 0 23, .depart 2, .newPlayerJoined 0 0 0 0, .sendCards 3 46]) :=
    .cons rfl (.cons rfl (.cons rfl (.cons rfl (.cons rfl (.cons rfl (.cons rfl (.nil _)))))))
  have hsame := h _ hrun _ (List.getLast_mem (by simp [TransitionSystem.states]))
  have htexts := (hsame 0 0 3 ⟨_, rfl, by decide⟩ ⟨_, rfl, by decide⟩ rfl rfl rfl rfl).1
  exact absurd htexts (by decide)

end Calc24.V1.TCPServer
