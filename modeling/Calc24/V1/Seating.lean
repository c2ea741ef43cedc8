import Calc24.V1.TCPServer

/-!
# One seat for every player

`newPlayerJoined` looks at the last desk only, through weak pointers that expire whenever a player
goes.  Still no player who is there loses the seat, and each has exactly one; the next desk is
opened only when the last one is full (`seatedOnce`).  The id of a desk is its number converted to
`int`, so the ids are distinct up to `2 ^ 32` desks, and not beyond (`exists_equal_ids`).
-/

namespace Calc24.V1.TCPServer

variable {s s' : TCPServer} {desk desk' : Desk} {d e : DeskRef} {p q : PlayerRef} {k : ℕ}

/-- The player's weak pointer is in the seat `k` of the desk `d`. -/
def Occupies (s : TCPServer) (p : PlayerRef) (d : DeskRef) (k : ℕ) : Prop :=
  ∃ desk, s.deskInfo[d]? = some desk ∧ desk.seats[k]? = some (some p)

/-- All seats of the last desk, if there is one, are occupied by players who are there. -/
def LastDeskFull (s : TCPServer) : Prop :=
  ∀ desk, s.deskInfo.getLast? = some desk → ∀ seat ∈ desk.seats, ∃ p, seat = some p ∧ s.live p = true

/-! ## The seat of a newcomer -/

/-- Nobody who is there is on a free seat. -/
lemma not_occupies_of_expired {desks : List Desk} {seat : Option PlayerRef}
    (hdesks : s.deskInfo = desks ++ [desk]) (hexpired : s.expired seat = true)
    (hseat : desk.seats[k]? = some seat) :
    ∀ q, s.live q = true → ¬ s.Occupies q desks.length k := by
  rintro q hlive ⟨desk', hdesk', hmem⟩
  rw [hdesks, List.getElem?_concat_length] at hdesk'
  obtain rfl := Option.some.inj hdesk'
  obtain rfl := Option.some.inj (hseat.symm.trans hmem)
  rw [expired_some_iff.mpr hlive] at hexpired
  cases hexpired

/-- In a list of desks the last one is replaced by one that differs in the seat `k`. -/
lemma occupies_concat_iff {desks : List Desk} (hdesks : s.deskInfo = desks ++ [desk])
    (hdesks' : s'.deskInfo = desks ++ [desk'])
    (hseats : desk'.seats = desk.seats.set k (some p)) (hk : k < 3)
    (q : PlayerRef) (e : DeskRef) (j : ℕ) :
    s'.Occupies q e j ↔ if e = desks.length ∧ j = k then q = p else s.Occupies q e j := by
  have hlength : k < desk.seats.length := hk
  rw [Occupies, Occupies, hdesks, hdesks']
  by_cases he : e = desks.length
  · subst he
    simp only [List.getElem?_concat_length, Option.some.injEq, exists_eq_left', true_and, hseats]
    by_cases hj : j = k
    · subst hj
      rw [List.getElem?_set_self hlength, if_pos rfl, Option.some.injEq, Option.some.injEq, eq_comm]
    · rw [List.getElem?_set_ne (Ne.symm hj), if_neg hj]
  · rw [if_neg fun h => he h.1]
    rcases Nat.lt_or_ge e desks.length with hlt | hge
    · rw [List.getElem?_append_left hlt, List.getElem?_append_left hlt]
    · have hnone : ∀ desk : Desk, (desks ++ [desk])[e]? = none := fun desk =>
        List.getElem?_eq_none (by
          rw [List.length_append, List.length_singleton]
          exact Nat.succ_le_of_lt (lt_of_le_of_ne hge (Ne.symm he)))
      rw [hnone, hnone]

/-- **A newcomer takes one seat, on which nobody is, and changes no other.** -/
lemma occupies_newPlayerJoined (hs : Numbered s) (rand1 rand2 rand3 rand4 : ℕ) :
    ∃ d k, (∀ q, s.live q = true → ¬ s.Occupies q d k) ∧
      ∀ q e j, (s.newPlayerJoined rand1 rand2 rand3 rand4).Occupies q e j ↔
        if e = d ∧ j = k then q = s.joined else s.Occupies q e j := by
  rcases newPlayerJoined_cases hs rand1 rand2 rand3 rand4 with
    ⟨-, heq⟩ | ⟨desks, desk, desk', hdesks, heq, hseat⟩ |
    ⟨desks, desk, hdesks, hexp1, hexp2, hexp3, heq⟩
  · refine ⟨s.deskInfo.length, 0, ?_, fun q e j => ?_⟩
    · rintro q - ⟨desk, hdesk, -⟩
      rw [List.getElem?_eq_none (le_refl _)] at hdesk
      cases hdesk
    · rw [heq, Occupies, Occupies]
      by_cases he : e = s.deskInfo.length
      · subst he
        have hnone : s.deskInfo[s.deskInfo.length]? = none := List.getElem?_eq_none (le_refl _)
        simp only [openDesk, construct, List.getElem?_concat_length, hnone, Option.some.injEq,
          exists_eq_left', true_and, reduceCtorEq, false_and, exists_false]
        rcases j with _ | _ | _ | j
        · simp [Desk.seats, eq_comm]
        · simp [Desk.seats]
        · simp [Desk.seats]
        · simp [Desk.seats]
      · rw [if_neg fun h => he h.1]
        rcases Nat.lt_or_ge e s.deskInfo.length with hlt | hge
        · simp only [openDesk, construct, List.getElem?_append_left hlt]
        · have hnone : s.deskInfo[e]? = none := List.getElem?_eq_none hge
          have hnone' : (s.construct.openDesk (Int32.ofNat (s.deskInfo.length + 1))
              s.joined).deskInfo[e]? = none :=
            List.getElem?_eq_none (by
              rw [openDesk, List.length_append, List.length_singleton]
              exact Nat.succ_le_of_lt (lt_of_le_of_ne hge (Ne.symm he)))
          rw [hnone, hnone']
  · have hconcat : (s.construct.setLastDesk desk').deskInfo = desks ++ [desk'] := by
      simp [setLastDesk, construct, hdesks]
    rcases hseat with ⟨hexp1, rfl⟩ | ⟨-, hexp2, rfl⟩
    · exact ⟨desks.length, 0, not_occupies_of_expired hdesks hexp1 rfl,
        heq ▸ occupies_concat_iff hdesks hconcat rfl (by decide)⟩
    · exact ⟨desks.length, 1, not_occupies_of_expired hdesks hexp2 rfl,
        heq ▸ occupies_concat_iff hdesks hconcat rfl (by decide)⟩
  · have hconcat : (s.construct.fillDesk rand1 rand2 rand3 rand4
        { desk with spPlayer3 := some s.joined }).deskInfo = desks ++
          [Desk.generateCards rand1 rand2 rand3 rand4 { desk with spPlayer3 := some s.joined }] := by
      rw [fillDesk_eq _ _ _ _ (hs.taken_of_third hdesks hexp1 hexp2)]
      simp [construct, hdesks]
    exact ⟨desks.length, 2, not_occupies_of_expired hdesks hexp3 rfl,
      heq ▸ occupies_concat_iff hdesks hconcat rfl (by decide)⟩

/-! ## All runs -/

/-- Every player who is there has one seat, and the desks are numbered by their ids. -/
structure Seated (s : TCPServer) : Prop extends Numbered s where
  seat : ∀ p, s.live p = true → ∃! x : DeskRef × ℕ, s.Occupies p x.1 x.2
  ids : ∀ (d : DeskRef) (desk : Desk), s.deskInfo[d]? = some desk → desk.id = Int32.ofNat (d + 1)

/-- Who sits on a seat has joined. -/
lemma Numbered.lt_of_occupies (hs : Numbered s) (h : s.Occupies p d k) : p < s.joined := by
  obtain ⟨desk, hdesk, hseat⟩ := h
  exact hs.seats d desk p hdesk (List.mem_of_getElem? hseat)

/-- After an arrival everybody there has one seat. -/
lemma seat_newPlayerJoined (hs : Seated s) (rand1 rand2 rand3 rand4 : ℕ)
    (hlive : (s.newPlayerJoined rand1 rand2 rand3 rand4).live =
      Function.update s.live s.joined true) :
    ∀ p, (s.newPlayerJoined rand1 rand2 rand3 rand4).live p = true →
      ∃! x : DeskRef × ℕ, (s.newPlayerJoined rand1 rand2 rand3 rand4).Occupies p x.1 x.2 := by
  obtain ⟨d, k, hfree, hoccupies⟩ := occupies_newPlayerJoined hs.toNumbered rand1 rand2 rand3 rand4
  intro p hp
  by_cases hnew : p = s.joined
  · subst hnew
    refine ⟨(d, k), (hoccupies _ d k).mpr (by rw [if_pos ⟨rfl, rfl⟩]), ?_⟩
    rintro ⟨e, j⟩ hj
    rw [hoccupies] at hj
    by_cases hsame : e = d ∧ j = k
    · rw [hsame.1, hsame.2]
    · rw [if_neg hsame] at hj
      exact absurd (hs.toNumbered.lt_of_occupies hj) (lt_irrefl _)
  · have hold : s.live p = true := by
      rw [hlive, Function.update_of_ne hnew] at hp
      exact hp
    obtain ⟨⟨e, j⟩, hej, hunique⟩ := hs.seat p hold
    have hother : ¬ (e = d ∧ j = k) := by
      rintro ⟨rfl, rfl⟩
      exact hfree p hold hej
    refine ⟨(e, j), (hoccupies p e j).mpr (by rw [if_neg hother]; exact hej), ?_⟩
    rintro ⟨e', j'⟩ hej'
    rw [hoccupies] at hej'
    by_cases hsame : e' = d ∧ j' = k
    · rw [if_pos hsame] at hej'
      exact absurd hej' hnew
    · rw [if_neg hsame] at hej'
      exact hunique (e', j') hej'

/-- After an arrival the desks are numbered by their ids. -/
lemma ids_newPlayerJoined (hs : Seated s) (rand1 rand2 rand3 rand4 : ℕ) :
    ∀ (d : DeskRef) (desk : Desk),
      (s.newPlayerJoined rand1 rand2 rand3 rand4).deskInfo[d]? = some desk →
        desk.id = Int32.ofNat (d + 1) := by
  intro d desk₁ hdesk
  rcases newPlayerJoined_cases hs.toNumbered rand1 rand2 rand3 rand4 with
    ⟨-, heq⟩ | ⟨desks, desk, desk', hdesks, heq, hseat⟩ |
    ⟨desks, desk, hdesks, hexp1, hexp2, hexp3, heq⟩
  · rw [heq] at hdesk
    rcases getElem?_concat_cases hdesk with hold | ⟨rfl, rfl⟩
    · exact hs.ids d desk₁ hold
    · rfl
  · have hid : desk'.id = desk.id := by
      rcases hseat with ⟨-, rfl⟩ | ⟨-, -, rfl⟩ <;> rfl
    have hconcat : (s.construct.setLastDesk desk').deskInfo = desks ++ [desk'] := by
      simp [setLastDesk, construct, hdesks]
    rw [heq, hconcat] at hdesk
    rcases getElem?_concat_cases hdesk with hold | ⟨rfl, rfl⟩
    · refine hs.ids d desk₁ ?_
      rw [hdesks, List.getElem?_append_left (List.getElem?_eq_some_iff.mp hold).1]
      exact hold
    · rw [hid]
      exact hs.ids desks.length desk (by rw [hdesks, List.getElem?_concat_length])
  · rw [heq, fillDesk_eq _ _ _ _ (hs.toNumbered.taken_of_third hdesks hexp1 hexp2)] at hdesk
    have hdropLast : s.construct.deskInfo.dropLast = desks := by
      simp [construct, hdesks]
    simp only [hdropLast] at hdesk
    rcases getElem?_concat_cases hdesk with hold | ⟨rfl, rfl⟩
    · refine hs.ids d desk₁ ?_
      rw [hdesks, List.getElem?_append_left (List.getElem?_eq_some_iff.mp hold).1]
      exact hold
    · exact hs.ids desks.length desk (by rw [hdesks, List.getElem?_concat_length])

/-- Every step keeps it. -/
lemma Seated.step {l : Step} (hs : Seated s) (h : system.step s l s') : Seated s' := by
  have hnumbered := hs.toNumbered.step h
  rcases step_cases h with ⟨rand1, rand2, rand3, rand4, -, rfl⟩ | ⟨p, -, rfl⟩ |
    ⟨p, sentLength, d, desk, -, -, -, -, -, rfl⟩
  · obtain ⟨d₀, harrives⟩ := arrives_newPlayerJoined hs.toNumbered rand1 rand2 rand3 rand4
    exact ⟨hnumbered, seat_newPlayerJoined hs rand1 rand2 rand3 rand4 harrives.live,
      ids_newPlayerJoined hs rand1 rand2 rand3 rand4⟩
  · exact ⟨hnumbered, fun q hq => hs.seat q (live_of_departed hq), hs.ids⟩
  · exact ⟨hnumbered, hs.seat, hs.ids⟩

lemma seated_empty : Seated empty where
  toNumbered := numbered_empty
  seat p hp := by cases hp
  ids d desk hdesk := by simp [empty] at hdesk

/-- Everybody has one seat in every reachable state. -/
lemma seated_of_reachable (h : system.Reachable s) : Seated s :=
  h.invariant (by rintro s rfl; exact seated_empty) fun _ _ _ hs hstep => hs.step hstep

/-- Up to `2 ^ 32` desks the ids are distinct. -/
lemma Seated.nodup_ids (hs : Seated s) (hlength : s.deskInfo.length ≤ 2 ^ 32) :
    (s.deskInfo.map Desk.id).Nodup := by
  rw [List.nodup_iff_getElem?_ne_getElem?]
  intro i j hij hj
  rw [List.length_map] at hj
  rw [List.getElem?_map, List.getElem?_map, List.getElem?_eq_getElem hj,
    List.getElem?_eq_getElem (hij.trans hj), Option.map_some, Option.map_some]
  intro heq
  have hids := Option.some.inj heq
  rw [hs.ids i _ (List.getElem?_eq_getElem (hij.trans hj)),
    hs.ids j _ (List.getElem?_eq_getElem hj)] at hids
  have hbits := congrArg (fun x : Int32 => x.toBitVec.toNat) hids
  simp only [Int32.toBitVec_ofNat', BitVec.toNat_ofNat] at hbits
  omega

/-- Nobody who is there loses the seat. -/
lemma Seated.keeps {l : Step} (hs : Seated s) (h : system.step s l s') (hlive : s.live p = true)
    (hseat : s.Occupies p d k) : s'.Occupies p d k := by
  rcases step_cases h with ⟨rand1, rand2, rand3, rand4, -, rfl⟩ | ⟨p, -, rfl⟩ |
    ⟨p, sentLength, d, desk, -, -, -, -, -, rfl⟩
  · obtain ⟨d₀, k₀, hfree, hoccupies⟩ :=
      occupies_newPlayerJoined hs.toNumbered rand1 rand2 rand3 rand4
    have hother : ¬ (d = d₀ ∧ k = k₀) := by
      rintro ⟨rfl, rfl⟩
      exact hfree p hlive hseat
    rw [hoccupies, if_neg hother]
    exact hseat
  · exact hseat
  · exact hseat

/-- Another desk is opened when the last one is full. -/
lemma Seated.full_of_opened {l : Step} (hs : Seated s) (h : system.step s l s')
    (hopened : s.deskInfo.length < s'.deskInfo.length) : s.LastDeskFull := by
  rcases step_cases h with ⟨rand1, rand2, rand3, rand4, -, rfl⟩ | ⟨p, -, rfl⟩ |
    ⟨p, sentLength, d, desk, -, -, -, -, -, rfl⟩
  · rcases newPlayerJoined_cases hs.toNumbered rand1 rand2 rand3 rand4 with
      ⟨htaken, -⟩ | ⟨desks, desk, desk', hdesks, heq, -⟩ |
      ⟨desks, desk, hdesks, hexp1, hexp2, hexp3, heq⟩
    · exact fun desk hlast seat hseat => exists_of_expired_eq_false (htaken desk hlast seat hseat)
    · rw [heq] at hopened
      simp [setLastDesk, construct, hdesks] at hopened
    · rw [heq, fillDesk_eq _ _ _ _ (hs.toNumbered.taken_of_third hdesks hexp1 hexp2)] at hopened
      simp [construct, hdesks] at hopened
  · exact absurd hopened (lt_irrefl _)
  · exact absurd hopened (lt_irrefl _)

/-- **Every player who is there has exactly one seat and keeps it whoever arrives, the next desk is
opened when the last one is full, and the ids are distinct up to `2 ^ 32` desks.** -/
theorem seatedOnce (h : system.Reachable s) :
    (∀ p, s.live p = true → ∃! x : DeskRef × ℕ, s.Occupies p x.1 x.2) ∧
      (s.deskInfo.length ≤ 2 ^ 32 → (s.deskInfo.map Desk.id).Nodup) ∧
      ∀ l s', system.step s l s' →
        (∀ p d k, s.live p = true → s.Occupies p d k → s'.Occupies p d k) ∧
          (s.deskInfo.length < s'.deskInfo.length → s.LastDeskFull) := by
  have hs := seated_of_reachable h
  exact ⟨hs.seat, hs.nodup_ids, fun l s' hstep =>
    ⟨fun _ _ _ hlive hseat => hs.keeps hstep hlive hseat, hs.full_of_opened hstep⟩⟩

/-- Four players arrive, and the second one leaves. -/
theorem seatedOnce_four_players :
    let s := TransitionSystem.runAll next empty
      [.newPlayerJoined 0 0 0 0, .newPlayerJoined 0 0 0 0, .newPlayerJoined 0 0 0 0,
        .newPlayerJoined 0 0 0 0, .depart 1]
    (∃! x : DeskRef × ℕ, s.Occupies 3 x.1 x.2) ∧ (s.deskInfo.map Desk.id).Nodup := by
  intro s
  have hreach : system.Reachable s :=
    (TransitionSystem.ReachableUnder.init rfl).runAll (fun _ _ _ h => h) (by decide)
  obtain ⟨hseat, hids, -⟩ := seatedOnce hreach
  exact ⟨hseat 3 (by decide), hids (by decide)⟩

/-! ## Too many desks -/

/-- The free seats of the last desk. -/
def freeSeats (s : TCPServer) : ℕ :=
  match s.deskInfo.getLast? with
  | none => 0
  | some desk => desk.seats.countP s.expired

/-- The free seats of the last desk. -/
lemma freeSeats_concat {desks : List Desk} (hdesks : s.deskInfo = desks ++ [desk]) :
    s.freeSeats = desk.seats.countP s.expired := by
  simp [freeSeats, hdesks]

/-- Who has left is told from the living alone. -/
lemma expired_eq (hlive : s'.live = s.live) : s'.expired = s.expired := by
  funext seat
  cases seat with
  | none => rfl
  | some p => rw [expired, expired, hlive]

/-- A free seat is taken. -/
lemma freeSeats_lt (hs : Numbered s) {desks : List Desk} (hdesks : s.deskInfo = desks ++ [desk])
    (hdesks' : s'.deskInfo = desks ++ [desk']) (hlive : s'.live = s.construct.live)
    (htakes : s.expired desk.spPlayer1 = true ∧
        desk'.seats = [some s.joined, desk.spPlayer2, desk.spPlayer3] ∨
      s.expired desk.spPlayer2 = true ∧
        desk'.seats = [desk.spPlayer1, some s.joined, desk.spPlayer3] ∨
      s.expired desk.spPlayer3 = true ∧
        desk'.seats = [desk.spPlayer1, desk.spPlayer2, some s.joined]) :
    s'.freeSeats < s.freeSeats := by
  have hget : s.deskInfo[desks.length]? = some desk := by
    simp [hdesks]
  have h1 := hs.expired_construct hget desk.spPlayer1 (by simp [Desk.seats])
  have h2 := hs.expired_construct hget desk.spPlayer2 (by simp [Desk.seats])
  have h3 := hs.expired_construct hget desk.spPlayer3 (by simp [Desk.seats])
  have hnew : s.construct.expired (some s.joined) = false := by
    simp [expired, construct]
  have hold : desk.seats = [desk.spPlayer1, desk.spPlayer2, desk.spPlayer3] := rfl
  rw [freeSeats_concat hdesks, freeSeats_concat hdesks', expired_eq hlive, hold]
  rcases htakes with ⟨hfree, hseats⟩ | ⟨hfree, hseats⟩ | ⟨hfree, hseats⟩ <;>
    rw [hseats] <;>
    simp [List.countP_cons, h1, h2, h3, hnew, hfree]

/-- With an arrival another desk is opened, or a free seat is taken. -/
lemma opens_or_takes (hs : Numbered s) :
    (s.newPlayerJoined 0 0 0 0).deskInfo.length = s.deskInfo.length + 1 ∨
      (s.newPlayerJoined 0 0 0 0).deskInfo.length = s.deskInfo.length ∧
        (s.newPlayerJoined 0 0 0 0).freeSeats < s.freeSeats := by
  rcases newPlayerJoined_cases hs 0 0 0 0 with
    ⟨-, heq⟩ | ⟨desks, desk, desk', hdesks, heq, hseat⟩ |
    ⟨desks, desk, hdesks, hexp1, hexp2, hexp3, heq⟩
  · left
    rw [heq, openDesk, List.length_append, List.length_singleton]
    rfl
  · have hconcat : (s.construct.setLastDesk desk').deskInfo = desks ++ [desk'] := by
      simp [setLastDesk, construct, hdesks]
    refine Or.inr ⟨by rw [heq, hconcat, hdesks]; simp, ?_⟩
    rw [heq]
    apply freeSeats_lt hs hdesks hconcat rfl
    rcases hseat with ⟨hexp1, rfl⟩ | ⟨-, hexp2, rfl⟩
    · exact Or.inl ⟨hexp1, rfl⟩
    · exact Or.inr (Or.inl ⟨hexp2, rfl⟩)
  · have hfill := fillDesk_eq 0 0 0 0 (hs.taken_of_third hdesks hexp1 hexp2)
    have hconcat : (s.construct.fillDesk 0 0 0 0
        { desk with spPlayer3 := some s.joined }).deskInfo = desks ++
          [Desk.generateCards 0 0 0 0 { desk with spPlayer3 := some s.joined }] := by
      rw [hfill]
      simp [construct, hdesks]
    refine Or.inr ⟨by rw [heq, hconcat, hdesks]; simp, ?_⟩
    rw [heq]
    exact freeSeats_lt hs hdesks hconcat (by rw [hfill]) (Or.inr (Or.inr ⟨hexp3, rfl⟩))

/-- There can always be one desk more. -/
lemma exists_one_more (h : system.Reachable s) :
    ∃ s', system.Reachable s' ∧ s'.deskInfo.length = s.deskInfo.length + 1 := by
  induction hn : s.freeSeats using Nat.strong_induction_on generalizing s with
  | _ n ih =>
    have hreach : system.Reachable (s.newPlayerJoined 0 0 0 0) :=
      h.tail (l := .newPlayerJoined 0 0 0 0) rfl
    rcases opens_or_takes (seated_of_reachable h).toNumbered with hopens | ⟨hlength, htakes⟩
    · exact ⟨_, hreach, hopens⟩
    · obtain ⟨s', hreach', hlength'⟩ := ih _ (hn ▸ htakes) hreach rfl
      exact ⟨s', hreach', hlength'.trans (by rw [hlength])⟩

/-- There may be any number of desks. -/
lemma exists_desks (n : ℕ) : ∃ s, system.Reachable s ∧ s.deskInfo.length = n := by
  induction n with
  | zero => exact ⟨empty, .of_init rfl, rfl⟩
  | succ n ih =>
    obtain ⟨s, hreach, rfl⟩ := ih
    exact exists_one_more hreach

/-- The desk after `2 ^ 32` others has the id of the first. -/
theorem exists_equal_ids : ¬ ∀ s, system.Reachable s → (s.deskInfo.map Desk.id).Nodup := by
  intro h
  obtain ⟨s, hreach, hlength⟩ := exists_desks (2 ^ 32 + 1)
  have hs := seated_of_reachable hreach
  have hnodup := List.nodup_iff_getElem?_ne_getElem?.mp (h s hreach) 0 (2 ^ 32) (by norm_num)
    (by rw [List.length_map, hlength]; norm_num)
  have hfirst : 0 < s.deskInfo.length := by omega
  have hlast : 2 ^ 32 < s.deskInfo.length := by omega
  apply hnodup
  rw [List.getElem?_map, List.getElem?_map, List.getElem?_eq_getElem hfirst,
    List.getElem?_eq_getElem hlast, Option.map_some, Option.map_some,
    hs.ids 0 _ (List.getElem?_eq_getElem hfirst), hs.ids _ _ (List.getElem?_eq_getElem hlast)]
  rfl

end Calc24.V1.TCPServer
