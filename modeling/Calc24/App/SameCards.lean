import Calc24.App.CardsFirst

/-!
# Everybody at a desk has the same cards

Broadcasts may overtake the cards, and the counting and the dealing may see different sessions; but
under every interleaving of the deal with the worker threads, a desk id stands for one hand.  There
are no two different messages with the cards of one desk in all the loops, and whoever sits at a
desk has been sent its cards (`sameCards`).

The desk ids are drawn from a counter; `FewDeals` says that it does not wrap around.
-/

namespace Calc24

namespace Dealing

open World

variable {s s' : Dealing} {n : ℕ} {r : Ref} {d : Int64} {cur : LoopId} {m : Message}
  {cards : Bytes} {stage : PlayStage} {step : DealingStep} {f : Calc24Session → Calc24Session}

/-- Some loop has a message with these cards of the desk, whether it is queued or not. -/
def Carries (s : Dealing) (d : Int64) (cards : Bytes) : Prop :=
  ∃ n, ∃ x ∈ (s.mailbox n).contents, x.2.2 = .cards d cards

/-- The counter of the desk ids does not wrap around. -/
def FewDeals (s : Dealing) : DealingStep → Prop
  | .checkHandup _ => s.deskBaseId.toInt < 2 ^ 63 - 1
  | _ => True

instance (s : Dealing) (step : DealingStep) : Decidable (s.FewDeals step) :=
  match step with
  | .checkHandup _ => inferInstanceAs (Decidable (_ < _))
  | .connect _ _ | .deal | .read _ _ | .package _ _ | .doOtherTask _ | .remind _ _ | .close _ _
  | .goOn _ => .isTrue trivial

/-- The deal in progress has the latest desk id, and its own cards are the only ones under it. -/
def Deals (s : Dealing) (d : Int64) (cards : Bytes) : Prop :=
  d = s.deskBaseId ∧ ∀ cards', s.Carries d cards' → cards' = cards

/-- What holds at each stage of the deal. -/
def Dealt (s : Dealing) : DealStage → Prop
  | .idle => True
  | .dealing d cards _ => s.Deals d cards
  | .seating d cards r _ => s.Deals d cards ∧ s.HasCards r d
  | .starting d cards _ _ => s.Deals d cards

/-- One hand for each desk id that has been drawn, and everybody at a desk has been sent it. -/
structure Agreed (s : Dealing) : Prop where
  le : ∀ d cards, s.Carries d cards → d.toInt ≤ s.deskBaseId.toInt
  same : ∀ d cards cards', s.Carries d cards → s.Carries d cards' → cards = cards'
  desk : ∀ r, (s.session r).deskID ≠ 0 → s.HasCards r (s.session r).deskID
  batch : ∀ n, s.worker n ≠ .tasks → (s.mailbox n).batch = []
  base : s.Dealt s.base

/-! ## The pieces of a step -/

lemma carries_send {d' : Int64} {cards' : Bytes} :
    (s.send cur r m).Carries d' cards' ↔ m = .cards d' cards' ∨ s.Carries d' cards' := by
  constructor
  · rintro ⟨n, x, hx, heq⟩
    rcases mem_contents_send.mp hx with ⟨-, rfl⟩ | hold
    · exact Or.inl heq
    · exact Or.inr ⟨n, x, hold, heq⟩
  · rintro (rfl | ⟨n, x, hx, heq⟩)
    · exact ⟨_, _, mem_contents_send.mpr (Or.inl ⟨rfl, rfl⟩), rfl⟩
    · exact ⟨n, x, mem_contents_send.mpr (Or.inr hx), heq⟩

/-- A stage of the deal that is still what it was. -/
lemma Dealt.mono {base : DealStage} (h : s.Dealt base) (hid : s'.deskBaseId = s.deskBaseId)
    (hcarries : ∀ d cards, s'.Carries d cards → s.Carries d cards)
    (hhas : ∀ r d, s.HasCards r d → s'.HasCards r d) : s'.Dealt base := by
  have hdeals : ∀ {d cards}, s.Deals d cards → s'.Deals d cards := fun hd =>
    ⟨hd.1.trans hid.symm, fun cards' hc => hd.2 cards' (hcarries _ _ hc)⟩
  cases base with
  | idle => trivial
  | dealing d cards remaining => exact hdeals h
  | seating d cards r remaining => exact ⟨hdeals h.1, hhas r d h.2⟩
  | starting d cards r remaining => exact hdeals h

/-- A message of another kind. -/
lemma Agreed.send (h : Agreed s) (hm : ∀ d cards, m ≠ .cards d cards) :
    Agreed (s.send cur r m) := by
  have hcarries : ∀ d cards, (s.send cur r m).Carries d cards → s.Carries d cards :=
    fun d cards hc => (carries_send.mp hc).resolve_left (hm d cards)
  refine ⟨fun d cards hc => h.le d cards (hcarries d cards hc),
    fun d cards cards' hc hc' => h.same d cards cards' (hcarries _ _ hc) (hcarries _ _ hc'),
    fun t ht => CardsIn.send (h.desk t ht), fun n hstage => ?_,
    h.base.mono rfl hcarries fun _ _ => CardsIn.send⟩
  by_cases hn : n = s.loop r
  · subst hn
    simp only [Dealing.send, Function.update_self, Mailbox.post]
    split <;> exact h.batch _ hstage
  · simpa [Dealing.send, hn] using h.batch n hstage

/-- A session may be put at a desk whose cards it has been sent. -/
lemma Agreed.modifySession (h : Agreed s)
    (hf : (f (s.session r)).deskID ≠ 0 → s.HasCards r (f (s.session r)).deskID) :
    Agreed (s.modifySession r f) where
  __ := h
  desk t ht := by
    by_cases htr : t = r
    · subst htr
      simp only [Dealing.modifySession, Function.update_self] at ht ⊢
      exact hf ht
    · simp only [Dealing.modifySession, Function.update_of_ne htr] at ht ⊢
      exact h.desk t ht
  base := h.base.mono rfl (fun _ _ => id) fun _ _ => id

/-- A worker thread moves. -/
lemma Agreed.goTo (h : Agreed s) (hbatch : (s.mailbox n).batch = []) : Agreed (s.goTo n stage) where
  __ := h
  batch k hk := by
    by_cases hkn : k = n
    · subst hkn
      exact hbatch
    · simp only [Dealing.goTo, Function.update_of_ne hkn] at hk
      exact h.batch k hk
  base := h.base.mono rfl (fun _ _ => id) fun _ _ => id

/-- The base thread moves. -/
lemma Agreed.withBase {base : DealStage} (h : Agreed s) (hbase : s.Dealt base) :
    Agreed { s with base := base } where
  __ := h
  base := hbase.mono rfl (fun _ _ => id) fun _ _ => id

/-- A mailbox is replaced by one with the same contents. -/
lemma Agreed.withMailbox {b : Mailbox LoopId (Ref × Message)} (h : Agreed s)
    (hcontents : b.contents = (s.mailbox n).contents)
    (hbatch : s.worker n ≠ .tasks → b.batch = []) :
    Agreed { s with mailbox := Function.update s.mailbox n b } := by
  have hsame : ∀ k, (Function.update s.mailbox n b k).contents = (s.mailbox k).contents := by
    intro k
    by_cases hk : k = n
    · subst hk
      rw [Function.update_self]
      exact hcontents
    · rw [Function.update_of_ne hk]
  have hcarries : ∀ d cards, Carries { s with mailbox := Function.update s.mailbox n b } d cards →
      s.Carries d cards := by
    rintro d cards ⟨k, x, hx, heq⟩
    exact ⟨k, x, by rwa [hsame] at hx, heq⟩
  have hhas : ∀ r d, s.HasCards r d →
      HasCards { s with mailbox := Function.update s.mailbox n b } r d :=
    fun r d hcards => by rwa [HasCards, hsame]
  refine ⟨fun d cards hc => h.le d cards (hcarries d cards hc),
    fun d cards cards' hc hc' => h.same d cards cards' (hcarries _ _ hc) (hcarries _ _ hc'),
    fun t ht => hhas t _ (h.desk t ht), fun k hk => ?_, h.base.mono rfl hcarries hhas⟩
  by_cases hkn : k = n
  · subst hkn
    simpa using hbatch hk
  · simpa [hkn] using h.batch k hk

/-! ## The steps -/

/-- A worker thread outside `doOtherTask` moves. -/
lemma Agreed.goTo_of_ne (h : Agreed s) (hne : s.worker n ≠ .tasks) : Agreed (s.goTo n stage) :=
  h.goTo (h.batch n hne)

/-- A package. -/
lemma agreed_processPackage {package : Bytes} (h : Agreed s) (hne : s.worker n ≠ .tasks) :
    Agreed (s.processPackage n r package) := by
  unfold processPackage
  split
  · exact h
  · split
    · exact h.goTo_of_ne hne
    · split
      · exact h.modifySession (h.desk r)
      · split
        · exact (h.send fun _ _ => by simp).goTo_of_ne hne
        · exact h.send fun _ _ => by simp

/-- A statement of a worker thread. -/
lemma agreed_goOn (h : Agreed s) : Agreed (s.goOn n (s.worker n)) := by
  cases hstage : s.worker n with
  | idle => exact h
  | sendingAll r gameOver call remaining =>
    have hne : s.worker n ≠ .tasks := by simp [hstage]
    cases remaining with
    | nil => exact h.goTo_of_ne hne
    | cons t rest =>
      rw [goOn]
      split
      · exact Agreed.goTo_of_ne (h.send fun _ _ => by simp) hne
      · exact h.goTo_of_ne hne
  | resetting r deskID remaining =>
    have hne : s.worker n ≠ .tasks := by simp [hstage]
    cases remaining with
    | nil => exact h.goTo_of_ne hne
    | cons t rest =>
      rw [goOn]
      split
      · exact h.goTo_of_ne hne
      · exact (h.modifySession fun hd => absurd rfl hd).goTo_of_ne hne
  | resettingStatus r deskID t rest =>
    have hne : s.worker n ≠ .tasks := by simp [hstage]
    exact (h.modifySession (h.desk t)).goTo_of_ne hne
  | tasks =>
    rw [goOn]
    split
    · next hbatch => exact h.goTo hbatch
    · exact h.withMailbox Mailbox.contents_handleNext fun hne => absurd hstage hne
  | _ => exact h.goTo_of_ne (by simp [hstage])

/-- The cards of the deal in progress. -/
lemma Agreed.send_cards (h : Agreed s) {rest : List Ref} (hstage : s.base = .dealing d cards rest) :
    Agreed (s.send .base r (.cards d cards)) ∧ (s.send .base r (.cards d cards)).Deals d cards := by
  have hdeals : s.Deals d cards := by
    have hbase := h.base
    rwa [hstage] at hbase
  have hcarries : ∀ d' cards', (s.send .base r (.cards d cards)).Carries d' cards' →
      (d' = d ∧ cards' = cards) ∨ s.Carries d' cards' := by
    intro d' cards' hc
    refine (carries_send.mp hc).imp_left fun heq => ?_
    obtain ⟨rfl, rfl⟩ := Message.cards.inj heq
    exact ⟨rfl, rfl⟩
  have hafter : (s.send .base r (.cards d cards)).Deals d cards := by
    refine ⟨hdeals.1, fun cards' hc => ?_⟩
    rcases hcarries d cards' hc with ⟨-, rfl⟩ | hold
    · rfl
    · exact hdeals.2 cards' hold
  refine ⟨⟨fun d' cards' hc => ?_, fun d' cards' cards'' hc hc' => ?_,
    fun t ht => CardsIn.send (h.desk t ht), fun n hn => ?_, ?_⟩, hafter⟩
  · rcases hcarries d' cards' hc with ⟨rfl, -⟩ | hold
    · rw [hdeals.1]
      exact le_refl _
    · exact h.le d' cards' hold
  · rcases hcarries d' cards' hc with ⟨rfl, rfl⟩ | hold
    · rcases hcarries _ cards'' hc' with ⟨-, rfl⟩ | hold'
      · rfl
      · exact (hdeals.2 cards'' hold').symm
    · rcases hcarries d' cards'' hc' with ⟨rfl, rfl⟩ | hold'
      · exact hdeals.2 cards' hold
      · exact h.same d' cards' cards'' hold hold'
  · by_cases hloop : n = s.loop r
    · subst hloop
      simp only [Dealing.send, Function.update_self, Mailbox.post]
      split <;> exact h.batch _ hn
    · simpa [Dealing.send, hloop] using h.batch n hn
  · rw [Dealing.send, hstage]
    exact hafter

/-- A statement of the deal. -/
lemma agreed_deal (h : Agreed s) (hstep : s.deal s.base = some s') : Agreed s' := by
  have hbase := h.base
  cases hstage : s.base with
  | idle =>
    rw [hstage] at hstep
    cases hstep
  | dealing d cards remaining =>
    rw [hstage] at hstep hbase
    cases remaining with
    | nil =>
      cases hstep
      exact h.withBase trivial
    | cons r rest =>
      rw [deal] at hstep
      split at hstep
      · cases hstep
        obtain ⟨hsent, hdeals⟩ := h.send_cards (r := r) hstage
        exact hsent.withBase ⟨hdeals, _, mem_contents_send.mpr (Or.inl ⟨rfl, rfl⟩), rfl, rfl⟩
      · cases hstep
        exact h.withBase hbase
  | seating d cards r rest =>
    rw [hstage] at hstep hbase
    cases hstep
    exact Agreed.withBase (h.modifySession fun _ => hbase.2) hbase.1
  | starting d cards r rest =>
    rw [hstage] at hstep hbase
    cases hstep
    exact Agreed.withBase (h.modifySession (h.desk r)) hbase

/-- The next desk id is larger than all before it. -/
lemma lt_toInt_add_one {d : Int64} (h : d.toInt < 2 ^ 63 - 1) : (d + 1).toInt = d.toInt + 1 := by
  have hlow := Int64.le_toInt d
  have hone : (1 : Int64).toInt = 1 := rfl
  rw [Int64.toInt_add, hone]
  exact Int.bmod_eq_of_le (by omega) (by omega)

/-- A new deal draws a desk id that no message carries. -/
lemma agreed_checkHandup (h : Agreed s) (hfew : s.deskBaseId.toInt < 2 ^ 63 - 1) (cards : Bytes) :
    Agreed { s with
      deskBaseId := s.deskBaseId + 1
      base := .dealing (s.deskBaseId + 1) cards s.sessions } := by
  have hnext := lt_toInt_add_one hfew
  refine ⟨fun d cards hc => ?_, h.same, h.desk, h.batch, rfl, fun cards' hc => ?_⟩
  · have hle := h.le d cards hc
    rw [hnext]
    omega
  · have hle := h.le _ cards' hc
    rw [hnext] at hle
    omega

/-- A new session. -/
lemma agreed_connect {order : List Ref} (h : Agreed s) (hbase : s.base = .idle) :
    Agreed (s.connect n order) := by
  refine Agreed.send ⟨h.le, h.same, fun r hr => ?_, h.batch, ?_⟩ fun _ _ => by simp
  · by_cases hnew : r = s.nextRef
    · subst hnew
      simp at hr
    · simp only [HasCards, Function.update_of_ne hnew] at hr ⊢
      exact h.desk r hr
  · rw [hbase]
    trivial

/-- Every step keeps one hand for each desk. -/
theorem Agreed.next (h : Agreed s) (hguard : s.FewDeals step) (hstep : s.next step = some s') :
    Agreed s' := by
  cases step with
  | connect n order =>
    obtain ⟨⟨hbase, -⟩, heq⟩ := Option.ite_none_right_eq_some.mp hstep
    cases heq
    exact agreed_connect h hbase
  | checkHandup cards =>
    rw [Dealing.next] at hstep
    split at hstep
    · cases hstep
    · split at hstep <;> cases hstep
      · exact h
      · exact agreed_checkHandup h hguard cards
  | deal => exact agreed_deal h hstep
  | read n r =>
    obtain ⟨⟨hidle, -⟩, heq⟩ := Option.ite_none_right_eq_some.mp hstep
    cases heq
    exact h.goTo_of_ne (by simp [hidle])
  | package n package =>
    rw [Dealing.next] at hstep
    split at hstep
    · next r hstage =>
      cases hstep
      exact agreed_processPackage h (by simp [hstage])
    · cases hstep
  | doOtherTask n =>
    obtain ⟨hidle, heq⟩ := Option.ite_none_right_eq_some.mp hstep
    cases heq
    have hmoved : Agreed (s.goTo n .tasks) := h.goTo_of_ne (by simp [hidle])
    exact hmoved.withMailbox (Mailbox.contents_take (h.batch n (by simp [hidle])))
      fun hne => absurd (Function.update_self ..) hne
  | remind n r =>
    obtain ⟨-, heq⟩ := Option.ite_none_right_eq_some.mp hstep
    cases heq
    exact h.send fun _ _ => by simp
  | close n r =>
    obtain ⟨-, heq⟩ := Option.ite_none_right_eq_some.mp hstep
    cases heq
    exact ⟨h.le, h.same, h.desk, h.batch, h.base.mono rfl (fun _ _ => id) fun _ _ => id⟩
  | goOn n =>
    cases hstep
    exact agreed_goOn h

lemma agreed_start : Agreed start where
  le _ _ hc := by
    obtain ⟨n, x, hx, -⟩ := hc
    cases hx
  same _ _ _ hc := by
    obtain ⟨n, x, hx, -⟩ := hc
    cases hx
  desk _ hr := absurd rfl hr
  batch _ _ := rfl
  base := trivial

/-- **Under every interleaving a desk has one hand.**  Whoever sits at a desk has been sent the
cards of the desk, which are the same ones for everybody there, and whatever cards anybody is ever
sent under this desk id are the same, too. -/
theorem sameCards (h : system.ReachableUnder FewDeals s) {a b : Ref}
    (hsame : (s.session a).deskID = (s.session b).deskID) (hdesk : (s.session a).deskID ≠ 0) :
    ∃ cards, (∃ x ∈ (s.mailbox (s.loop a)).contents,
        x.2 = (a, .cards (s.session a).deskID cards)) ∧
      (∃ x ∈ (s.mailbox (s.loop b)).contents, x.2 = (b, .cards (s.session a).deskID cards)) ∧
      ∀ r, ∀ m ∈ s.output r, m.IsCards (s.session a).deskID →
        m = .cards (s.session a).deskID cards := by
  have hagreed : Agreed s := by
    refine h.invariant ?_ fun _ _ _ h hguard hstep => h.next hguard hstep
    rintro s rfl
    exact agreed_start
  -- cards that somebody has been sent under the desk id
  have hcards : ∀ r, s.HasCards r (s.session a).deskID → ∃ cards,
      ∃ x ∈ (s.mailbox (s.loop r)).contents, x.2 = (r, .cards (s.session a).deskID cards) := by
    rintro r ⟨⟨sender, t, m⟩, hx, rfl, hm⟩
    cases m with
    | cards d cards =>
      obtain rfl : d = (s.session a).deskID := hm
      exact ⟨cards, _, hx, rfl⟩
    | room d buf => exact hm.elim
    | own buf => exact hm.elim
  obtain ⟨cards, x, hx, heq⟩ := hcards a (hagreed.desk a hdesk)
  have hcarries : s.Carries (s.session a).deskID cards := ⟨_, x, hx, by rw [heq]⟩
  obtain ⟨cards', y, hy, heq'⟩ := hcards b (hsame ▸ hagreed.desk b (hsame ▸ hdesk))
  obtain rfl : cards = cards' := hagreed.same _ _ _ hcarries ⟨_, y, hy, by rw [heq']⟩
  refine ⟨cards, ⟨x, hx, heq⟩, ⟨y, hy, heq'⟩, fun r m hm hcardsOf => ?_⟩
  obtain ⟨z, hz, rfl⟩ := List.mem_map.mp hm
  obtain ⟨hhandled, -⟩ := List.mem_filter.mp hz
  cases hmessage : z.2.2 with
  | cards d buf =>
    rw [hmessage] at hcardsOf
    obtain rfl : d = (s.session a).deskID := hcardsOf
    have hz : s.Carries (s.session a).deskID buf :=
      ⟨_, z, List.mem_append_left _ hhandled, hmessage⟩
    rw [hagreed.same _ _ _ hz hcarries]
  | room d buf =>
    rw [hmessage] at hcardsOf
    exact hcardsOf.elim
  | own buf =>
    rw [hmessage] at hcardsOf
    exact hcardsOf.elim

/-- Two players of one loop are dealt to while one of them speaks before the loop has come to its
tasks: the cards are the same all the same. -/
theorem sameCards_overtaken :
    ∃ cards, (∃ x ∈ ((run (dealtTo ++ speaks 1 "hi\n" 4)).mailbox 0).contents,
        x.2 = (0, .cards 1 cards)) ∧
      (∃ x ∈ ((run (dealtTo ++ speaks 1 "hi\n" 4)).mailbox 0).contents, x.2 = (1, .cards 1 cards)) ∧
      ∀ r, ∀ m ∈ (run (dealtTo ++ speaks 1 "hi\n" 4)).output r, m.IsCards 1 → m = .cards 1 cards :=
  sameCards (a := 0) (b := 1) (reachableUnder_run (C := FewDeals) (by decide)) (by decide) (by decide)

end Dealing

end Calc24
