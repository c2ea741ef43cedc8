import Calc24.Net.TimerIds
import Calc24.App.Table

/-!
# Desks and hands

A deal takes the next desk id, and every session that is given the id is sent the cards of the
deal.  Later the session may be reset, dealt to again, say `!ready` during the game or disconnect,
in any order with the others.  This file records the deals, and the states of the past, beside the
runs of the server in which each operation is one step.

The desk of a session is `0`, or it is the desk of a recorded deal in which the session was sent
the cards (`Told`).  The ids of the deals are those that the counter has run through, so for as
long as it has not come round a desk stands for one deal (`desksIdentifyHands`).
-/

namespace Calc24

open World

/-- A call of the callback that checks for players, if it deals: the desk id, the cards, and what
the call records. -/
structure Deal where
  deskID : Int64
  cards : Bytes
  events : List Event

/-- The server with its deals and its earlier states, the latest ones first. -/
structure History where
  world : World
  deals : List Deal
  past : List World

/-- The operation is a call of the callback that finds enough sessions ready. -/
def World.Operation.IsDeal (w : World) : Operation → Prop
  | .checkHandup => REQUIRED_MIN_READY_COUNT ≤ w.readySessionCount
  | _ => False

instance (w : World) (op : Operation) : Decidable (op.IsDeal w) :=
  match op with
  | .checkHandup => inferInstanceAs (Decidable (REQUIRED_MIN_READY_COUNT ≤ w.readySessionCount))
  | .connect _ _ => .isFalse not_false
  | .package _ _ => .isFalse not_false
  | .close _ => .isFalse not_false
  | .checkAndDoTimers _ _ => .isFalse not_false
  | .doOtherTask _ => .isFalse not_false

namespace Deal

/-- The session received the desk id in the deal, and was sent the cards and nothing else. -/
def Reaches (deal : Deal) (r : Ref) (deskID : Int64) : Prop :=
  .dealt r deskID ∈ deal.events ∧ ∀ buf, .sent r buf ∈ deal.events ↔ buf = deal.cards

/-- The deal hands out its desk id and its cards only, and the cards to everybody who gets the
desk id. -/
structure Sound (deal : Deal) : Prop where
  events : ∀ e ∈ deal.events, ∃ r, e = .sent r deal.cards ∨ e = .dealt r deal.deskID
  cards : ∀ r, .dealt r deal.deskID ∈ deal.events → .sent r deal.cards ∈ deal.events

/-- A deal hands out one desk id. -/
lemma Sound.deskID_eq {deal : Deal} (h : deal.Sound) {r : Ref} {d : Int64}
    (hr : .dealt r d ∈ deal.events) : d = deal.deskID := by
  obtain ⟨t, heq | heq⟩ := h.events _ hr
  · cases heq
  · exact (Event.dealt.inj heq).2

/-- Who gets the desk id of a deal gets its cards. -/
lemma Sound.reaches {deal : Deal} (h : deal.Sound) {r : Ref} {d : Int64}
    (hr : .dealt r d ∈ deal.events) : deal.Reaches r d := by
  refine ⟨hr, fun buf => ⟨fun hsent => ?_, ?_⟩⟩
  · obtain ⟨t, heq | heq⟩ := h.events _ hsent
    · exact (Event.sent.inj heq).2
    · cases heq
  · rintro rfl
    exact h.cards r (h.deskID_eq hr ▸ hr)

end Deal

namespace History

variable {env : Environment} {s s' : History} {w w' w₁ : World} {r t : Ref} {op : Operation}
  {cur : LoopId} {new : List Event}

/-- The deal of an operation that leads from `w` to `w'`. -/
def dealOf (env : Environment) (w w' : World) : Deal where
  deskID := (w.generateCards env).2.1
  cards := (w.generateCards env).1
  events := w'.trace.take (w'.trace.length - w.trace.length)

/-- The runs of the server, with their history. -/
def system (env : Environment) : TransitionSystem History Operation where
  init s := (sequential env).init s.world ∧ s.deals = [] ∧ s.past = []
  step s op s' := (sequential env).step s.world op s'.world ∧
    s'.deals = (if op.IsDeal s.world then dealOf env s.world s'.world :: s.deals else s.deals) ∧
    s'.past = s.world :: s.past

/-- Desks identify hands: two sessions that play at the same desk received it in the same deal, and
were sent the same cards in it; a desk id is handed out by one deal, and a deal hands out one desk
id; and the next deal uses a desk id that no session has carried so far. -/
structure DesksIdentifyHands (env : Environment) (s : History) : Prop where
  together : ∀ a b, (s.world.session a).status = .IN_GAME → (s.world.session b).status = .IN_GAME →
    (s.world.session a).deskID = (s.world.session b).deskID → (s.world.session a).deskID ≠ 0 →
      ∃ deal ∈ s.deals, deal.Reaches a (s.world.session a).deskID ∧
        deal.Reaches b (s.world.session a).deskID
  one_deal : (s.deals.map Deal.deskID).Nodup
  one_desk : ∀ deal ∈ s.deals, ∀ r d, .dealt r d ∈ deal.events → d = deal.deskID
  fresh : ∀ op s' deal, (system env).step s op s' → s'.deals = deal :: s.deals →
    ∀ w ∈ s.world :: s.past, ∀ r, (w.session r).deskID ≠ deal.deskID

/-! ## What an operation does to the desks -/

/-- An operation that does not deal takes desks away at most. -/
lemma desk_perform (hstable : Stable w) (hok : op.perform env w = .ok w') (hop : ¬ op.IsDeal w) :
    w'.deskBaseId = w.deskBaseId ∧
      ∀ t, (w'.session t).deskID = (w.session t).deskID ∨ (w'.session t).deskID = 0 := by
  have htouches : ∀ {A w₁}, Touches A w w₁ → w₁.deskBaseId = w.deskBaseId ∧
      ∀ t, (w₁.session t).deskID = (w.session t).deskID ∨ (w₁.session t).deskID = 0 :=
    fun hw => ⟨hw.deskBaseId, fun t => Or.inl (by rw [hw.session])⟩
  cases op with
  | connect fd order =>
    have hconnect := connect_cases hstable.wellFormed hok
    refine ⟨hconnect.deskBaseId, fun t => ?_⟩
    by_cases ht : t = w.nextRef
    · exact Or.inr (ht ▸ hconnect.isReset.1)
    · exact Or.inl (by rw [hconnect.session t ht])
  | package r p =>
    rcases processPackage_cases hok with ⟨-, -, hsend⟩ | ⟨-, rfl⟩ | ⟨-, w₁, w₂, -, h₁, -, h₂, h₃⟩
    · exact htouches hsend
    · refine ⟨rfl, fun t => Or.inl ?_⟩
      by_cases ht : t = r <;> simp [modifySession, ht]
    · have hresets := (resetDesk_cases h₃).1
      refine ⟨hresets.deskBaseId.trans (h₂.deskBaseId.trans h₁.deskBaseId), fun t => ?_⟩
      rcases hresets.place t with ⟨-, hdesk⟩ | ⟨-, -, hdesk⟩
      · rw [hdesk, h₂.session, h₁.session]
        exact Or.inl rfl
      · exact Or.inr hdesk
  | checkHandup =>
    rcases checkHandup_cases hok with ⟨-, rfl⟩ | ⟨hmany, -, -, -⟩
    · exact ⟨rfl, fun t => Or.inl rfl⟩
    · exact absurd hmany hop
  | close r =>
    obtain rfl : w.onClose (w.connection r).loop r = w' := Except.ok.inj hok
    exact htouches (touches_onClose (Set.mem_singleton r))
  | checkAndDoTimers l nowMs =>
    obtain rfl : w.checkAndDoTimers env l nowMs = w' := Except.ok.inj hok
    exact htouches (touches_checkAndDoTimers nowMs (hstable.idle l))
  | doOtherTask l =>
    obtain rfl : w.doOtherTask env l = w' := Except.ok.inj hok
    have hw := touches_doOtherTask env (hstable.settled l)
    refine ⟨hw.deskBaseId, fun t => Or.inl ?_⟩
    rw [hw.session]
    rfl

/-- The part of a deal that has recorded the events `new`. -/
structure DealsTo (deskID : Int64) (cards : Bytes) (w w' : World) (new : List Event) : Prop where
  trace : w'.trace = new ++ w.trace
  sound : Deal.Sound ⟨deskID, cards, new⟩
  desk : ∀ t, (w'.session t).deskID = (w.session t).deskID ∨
    (w'.session t).deskID = deskID ∧ .dealt t deskID ∈ new

/-- The cards of one more session. -/
lemma DealsTo.sendCards {deskID : Int64} {cards : Bytes} (h : DealsTo deskID cards w w₁ new) :
    DealsTo deskID cards w (w₁.sendCards env cur r cards deskID)
      (.dealt r deskID :: .sent r cards :: new) where
  trace := by
    simp only [World.sendCards, modifySession, log, List.cons_append]
    rw [trace_sendMsg, h.trace]
  sound := by
    constructor
    · intro e he
      rcases List.mem_cons.mp he with rfl | he
      · exact ⟨r, Or.inr rfl⟩
      · rcases List.mem_cons.mp he with rfl | he
        · exact ⟨r, Or.inl rfl⟩
        · exact h.sound.events e he
    · intro t ht
      rcases List.mem_cons.mp ht with heq | ht
      · obtain ⟨rfl, -⟩ := Event.dealt.inj heq
        simp
      · have hold : .dealt t deskID ∈ new := (List.mem_cons.mp ht).resolve_left (by simp)
        have hsent := h.sound.cards t hold
        exact List.mem_cons_of_mem _ (List.mem_cons_of_mem _ hsent)
  desk t := by
    by_cases ht : t = r
    · subst ht
      refine Or.inr ⟨?_, List.mem_cons_self ..⟩
      simp only [World.sendCards, modifySession, Function.update_self]
    · have hsession : (w₁.sendMsg env cur r cards).session = w₁.session :=
        (touches_sendMsg (A := {r}) _ rfl).session
      have hother : (w₁.sendCards env cur r cards deskID).session t = w₁.session t := by
        simp only [World.sendCards, modifySession, Function.update_of_ne ht]
        exact congrFun hsession t
      rw [hother]
      refine (h.desk t).imp_right ?_
      rintro ⟨hdesk, hmem⟩
      exact ⟨hdesk, List.mem_cons_of_mem _ (List.mem_cons_of_mem _ hmem)⟩

/-- What a deal does. -/
lemma dealsTo_checkHandup (h : w.checkHandup env cur = .ok w')
    (hmany : REQUIRED_MIN_READY_COUNT ≤ w.readySessionCount) :
    w'.deskBaseId = w.deskBaseId + 1 ∧
      ∃ new, DealsTo (w.generateCards env).2.1 (w.generateCards env).1 w w' new := by
  constructor
  · rcases checkHandup_cases h with ⟨hfew, -⟩ | ⟨-, -, hdeskBaseId, -⟩
    · exact absurd hmany (not_le.mpr hfew)
    · exact hdeskBaseId
  · rw [checkHandup, if_neg (not_lt.mpr hmany)] at h
    refine (forEachSession_invariant (w := (w.generateCards env).2.2)
      (I := fun w₁ => ∃ new, DealsTo (w.generateCards env).2.1 (w.generateCards env).1 w w₁ new)
      ?_ ?_ h).1
    · refine ⟨[], rfl, ⟨?_, ?_⟩, fun t => Or.inl rfl⟩
      · exact fun e he => absurd he List.not_mem_nil
      · exact fun r hr => absurd hr List.not_mem_nil
    · rintro r - w₁ ⟨new, hw₁⟩ - -
      split
      · exact ⟨_, hw₁.sendCards⟩
      · exact ⟨new, hw₁⟩

/-! ## What all runs keep -/

/-- The desk of every session, now and in the past, goes back to a recorded deal, and the recorded
deals have used the desk ids in the order of the counter. -/
structure Told (s : History) : Prop where
  stable : Stable s.world
  deskBaseId : s.world.deskBaseId = Int64.ofNat s.deals.length
  ids : s.deals.map Deal.deskID =
    ((List.range s.deals.length).map fun n => Int64.ofNat (n + 1)).reverse
  sound : ∀ deal ∈ s.deals, deal.Sound
  desk : ∀ r, (s.world.session r).deskID = 0 ∨
    ∃ deal ∈ s.deals, .dealt r (s.world.session r).deskID ∈ deal.events
  past : ∀ w ∈ s.past, ∀ r, (w.session r).deskID = 0 ∨ (w.session r).deskID ∈ s.deals.map Deal.deskID

lemma told_init (h : (system env).init s) : Told s := by
  obtain ⟨⟨threadNum, -, hworld⟩, hdeals, hpast⟩ := h
  constructor
  · exact hworld ▸ stable_start threadNum
  · rw [hworld, hdeals]
    rfl
  · simp [hdeals]
  · simp [hdeals]
  · intro r
    rw [hworld]
    exact Or.inl rfl
  · simp [hpast]

/-- The desk ids of the present are those of recorded deals. -/
lemma Told.carried (h : Told s) (hw : w ∈ s.world :: s.past) (r : Ref) :
    (w.session r).deskID = 0 ∨ (w.session r).deskID ∈ s.deals.map Deal.deskID := by
  rcases List.mem_cons.mp hw with rfl | hw
  · refine (h.desk r).imp_right ?_
    rintro ⟨deal, hdeal, hdealt⟩
    rw [(h.sound deal hdeal).deskID_eq hdealt]
    exact List.mem_map_of_mem hdeal
  · exact h.past w hw r

/-- An operation that does not deal. -/
lemma Told.step_of_not_isDeal (h : Told s) (hop : ¬ op.IsDeal s.world)
    (hstep : (system env).step s op s') : Told s' := by
  obtain ⟨hworldStep, hdeals, hpast⟩ := hstep
  rw [if_neg hop] at hdeals
  have hstable := stable_step h.stable hworldStep
  obtain ⟨-, w₁, hok, hworld⟩ := hworldStep
  obtain ⟨hdeskBaseId, hdesk⟩ := desk_perform h.stable hok hop
  have hsession : s'.world.session = w₁.session := by rw [hworld]; rfl
  refine ⟨hstable, ?_, hdeals ▸ h.ids, hdeals ▸ h.sound, fun r => ?_, fun w hw => ?_⟩
  · rw [hworld, hdeals, ← h.deskBaseId]
    exact hdeskBaseId
  · rw [hsession, hdeals]
    rcases hdesk r with hsame | hzero
    · rw [hsame]
      exact h.desk r
    · exact Or.inl hzero
  · rw [hpast] at hw
    rw [hdeals]
    exact h.carried hw

/-- A deal. -/
lemma Told.step_of_isDeal (h : Told s) (hop : op.IsDeal s.world)
    (hstep : (system env).step s op s') : Told s' := by
  obtain ⟨hworldStep, hdeals, hpast⟩ := hstep
  rw [if_pos hop] at hdeals
  have hstable := stable_step h.stable hworldStep
  obtain ⟨-, w₁, hok, hworld⟩ := hworldStep
  cases op with
  | checkHandup =>
    obtain ⟨hdeskBaseId, new, hnew⟩ := dealsTo_checkHandup hok hop
    have hsession : s'.world.session = w₁.session := by rw [hworld]; rfl
    have htrace : s'.world.trace = new ++ s.world.trace := by
      rw [hworld]
      exact hnew.trace
    have hdeal : dealOf env s.world s'.world =
        ⟨(s.world.generateCards env).2.1, (s.world.generateCards env).1, new⟩ := by
      rw [dealOf, htrace, List.length_append, Nat.add_sub_cancel, List.take_left]
    have hid : (s.world.generateCards env).2.1 = Int64.ofNat (s.deals.length + 1) := by
      rw [Int64.ofNat_add, ← h.deskBaseId]
      rfl
    rw [hdeal] at hdeals
    refine ⟨hstable, ?_, ?_, ?_, fun r => ?_, fun w hw r => ?_⟩
    · rw [hworld, hdeals, List.length_cons, ← hid]
      exact hdeskBaseId
    · rw [hdeals, List.map_cons, h.ids, List.length_cons, List.range_succ, List.map_append,
        List.reverse_append]
      exact congrArg (· :: _) hid
    · rw [hdeals]
      exact List.forall_mem_cons.mpr ⟨hnew.sound, h.sound⟩
    · rw [hsession, hdeals]
      rcases hnew.desk r with hsame | ⟨hdesk, hmem⟩
      · rw [hsame]
        refine (h.desk r).imp_right ?_
        rintro ⟨deal, hmem, hdealt⟩
        exact ⟨deal, List.mem_cons_of_mem _ hmem, hdealt⟩
      · rw [hdesk]
        exact Or.inr ⟨_, List.mem_cons_self .., hmem⟩
    · rw [hpast] at hw
      rw [hdeals, List.map_cons]
      exact (h.carried hw r).imp_right (List.mem_cons_of_mem _)
  | connect fd order => exact absurd hop not_false
  | package r p => exact absurd hop not_false
  | close r => exact absurd hop not_false
  | checkAndDoTimers l nowMs => exact absurd hop not_false
  | doOtherTask l => exact absurd hop not_false

/-- Every desk goes back to a deal, in every reachable state. -/
lemma told_reachable (h : (system env).Reachable s) : Told s := by
  refine h.invariant (fun _ hs => told_init hs) fun s op s' hs hstep => ?_
  by_cases hop : op.IsDeal s.world
  · exact hs.step_of_isDeal hop hstep
  · exact hs.step_of_not_isDeal hop hstep

/-! ## Desks identify hands -/

/-- The counter has not come round: it gives out a new id, which is not `0`. -/
lemma Told.fresh (h : Told s) (env : Environment) (hfew : s.deals.length < 2 ^ 63) :
    (s.world.generateCards env).2.1 ≠ 0 ∧
      (s.world.generateCards env).2.1 ∉ s.deals.map Deal.deskID := by
  have hid : (s.world.generateCards env).2.1 = Int64.ofNat (s.deals.length + 1) := by
    rw [Int64.ofNat_add, ← h.deskBaseId]
    rfl
  rw [hid]
  constructor
  · intro hzero
    have hne := (Int64.ofNat_inj_of_lt (by omega) (by omega)).mp
      (hzero.trans (show (0 : Int64) = Int64.ofNat 0 from rfl))
    omega
  · rw [h.ids]
    intro hmem
    obtain ⟨n, hn, heq⟩ := List.mem_map.mp (List.mem_reverse.mp hmem)
    rw [List.mem_range] at hn
    rw [Int64.ofNat_inj_of_lt (by omega) (by omega)] at heq
    omega

/-- The deals have different desk ids. -/
lemma Told.nodup (h : Told s) (hfew : s.deals.length < 2 ^ 63) :
    (s.deals.map Deal.deskID).Nodup := by
  rw [h.ids, List.nodup_reverse]
  refine List.nodup_range.map_on fun m hm n hn heq => ?_
  rw [List.mem_range] at hm hn
  rw [Int64.ofNat_inj_of_lt (by omega) (by omega)] at heq
  omega

/-- **In every state reached with fewer than `2 ^ 63` deals, desks identify hands.** -/
theorem desksIdentifyHands (h : (system env).Reachable s) (hfew : s.deals.length < 2 ^ 63) :
    DesksIdentifyHands env s := by
  have htold := told_reachable h
  refine ⟨fun a b _ _ hsame hdesk => ?_, htold.nodup hfew, fun deal hdeal r d hdealt => ?_, ?_⟩
  · obtain ⟨deal, hdeal, ha⟩ := (htold.desk a).resolve_left hdesk
    obtain ⟨deal', hdeal', hb⟩ := (htold.desk b).resolve_left (hsame ▸ hdesk)
    have hsound := htold.sound deal hdeal
    -- the two deals have the same desk id, so they are one
    have hids : deal'.deskID = deal.deskID := by
      rw [← (htold.sound deal' hdeal').deskID_eq hb, ← hsame, hsound.deskID_eq ha]
    obtain rfl : deal' = deal := List.inj_on_of_nodup_map (htold.nodup hfew) hdeal' hdeal hids
    exact ⟨deal', hdeal, hsound.reaches ha, hsound.reaches (hsame ▸ hb)⟩
  · exact (htold.sound deal hdeal).deskID_eq hdealt
  · rintro op s' deal ⟨-, hdeals, -⟩ hdeal w hw r
    rw [hdeal] at hdeals
    split at hdeals
    · obtain ⟨rfl, -⟩ := List.cons.inj hdeals
      obtain ⟨hzero, hnew⟩ := htold.fresh env hfew
      intro heq
      rcases htold.carried hw r with hcarried | hcarried
      · exact hzero (heq.symm.trans hcarried)
      · rw [heq] at hcarried
        exact hnew hcarried
    · exact absurd hdeals (List.cons_ne_self _ _)

/-- The state after an operation, if it is allowed and does not fail. -/
def next (env : Environment) (s : History) (op : Operation) : Option History :=
  (op.next env s.world).map fun w' =>
    { world := w'
      deals := if op.IsDeal s.world then dealOf env s.world w' :: s.deals else s.deals
      past := s.world :: s.past }

lemma step_of_next (h : s.next env op = some s') : (system env).step s op s' := by
  obtain ⟨w', hw', rfl⟩ := Option.map_eq_some_iff.mp h
  exact ⟨World.step_of_next hw', rfl, rfl⟩

/-- The server with two worker threads before anybody has connected. -/
def start : History where
  world := World.start 2
  deals := []
  past := []

/-- After the deal to two players. -/
theorem desksIdentifyHands_twoPlayers :
    DesksIdentifyHands calm (TransitionSystem.runAll (next calm) start twoPlayers) :=
  desksIdentifyHands
    (TransitionSystem.ReachableUnder.runAll (fun _ _ _ => step_of_next)
      (.init ⟨⟨2, by decide, rfl⟩, rfl, rfl⟩) (by decide)) (by decide)

end History

end Calc24
