import Calc24.App.Dealing

/-!
# The cards come first

Everybody at a desk has been sent the cards of the desk before: `sendCards` sends first and sets
the desk afterwards, and `sendAll` looks at the desk.  A broadcast that is queued for a loop waits
behind them.  A broadcast by a player of the same loop does not wait, and overtakes cards that the
loop has not come to yet.

`Ordered` is what all steps keep that let no broadcast overtake cards (`cardsFirst`).  Desk ids
are drawn from a counter that wraps around; the id `0` is the one of no desk, and so the only one
to which something may have been sent before it is dealt.
-/

namespace Calc24

namespace Dealing

open World

variable {s s' : Dealing} {n : ℕ} {r t : Ref} {d : Int64} {cur : LoopId} {m : Message}
  {stage : PlayStage} {step : DealingStep} {f : Calc24Session → Calc24Session}

/-- Among the messages are cards of the desk for the session. -/
def CardsIn (l : List (LoopId × Ref × Message)) (r : Ref) (d : Int64) : Prop :=
  ∃ x ∈ l, x.2.1 = r ∧ x.2.2.IsCards d

/-- Among the messages is a broadcast to the desk for the session. -/
def RoomIn (l : List (LoopId × Ref × Message)) (r : Ref) (d : Int64) : Prop :=
  ∃ x ∈ l, x.2.1 = r ∧ x.2.2.IsRoom d

instance (l : List (LoopId × Ref × Message)) (r : Ref) (d : Int64) : Decidable (CardsIn l r d) :=
  inferInstanceAs (Decidable (∃ x ∈ _, _))

instance (l : List (LoopId × Ref × Message)) (r : Ref) (d : Int64) : Decidable (RoomIn l r d) :=
  inferInstanceAs (Decidable (∃ x ∈ _, _))

/-- The cards of the desk have been sent to the session, whether they are queued or not. -/
def HasCards (s : Dealing) (r : Ref) (d : Int64) : Prop :=
  CardsIn (s.mailbox (s.loop r)).contents r d

instance (s : Dealing) (r : Ref) (d : Int64) : Decidable (s.HasCards r d) :=
  inferInstanceAs (Decidable (CardsIn _ _ _))

/-- No broadcast reaches a session of the broadcasting thread's own loop while the cards of the
desk wait for the session in the loop.  The desk id `0` is not dealt to a session that has been
sent something under it. -/
def NothingOvertakes (s : Dealing) : DealingStep → Prop
  | .goOn n =>
    match s.worker n with
    | .sendingAll _ _ call (t :: _) => s.loop t = n → s.Reaches call t →
        s.HasCards t call.deskID → CardsIn (s.mailbox n).handled t call.deskID
    | _ => True
  | .deal =>
    match s.base with
    | .dealing d _ (r :: _) => d = 0 → (s.session r).status = .READY →
        RoomIn (s.mailbox (s.loop r)).contents r 0 → s.HasCards r 0
    | _ => True
  | _ => True

instance (s : Dealing) (step : DealingStep) : Decidable (s.NothingOvertakes step) := by
  unfold NothingOvertakes
  split
  · split <;> infer_instance
  · split <;> infer_instance
  · infer_instance

/-- What the deal relies on at a stage. -/
def Prepared (s : Dealing) : DealStage → Prop
  | .seating d _ r _ => s.HasCards r d
  | _ => True

/-- Whoever sits at a desk has been sent its cards, as has everybody who has been sent something
to the desk; and no broadcast to a desk comes before the cards of the desk, in any loop. -/
structure Ordered (s : Dealing) : Prop where
  preceded : ∀ n r d, CardsIn (s.mailbox n).contents r d →
    Preceded (fun x => x.2.1 = r ∧ x.2.2.IsRoom d) (fun x => x.2.1 = r ∧ x.2.2.IsCards d)
      (s.mailbox n).contents
  room : ∀ n r d, d ≠ 0 → RoomIn (s.mailbox n).contents r d → CardsIn (s.mailbox n).contents r d
  desk : ∀ r, (s.session r).deskID ≠ 0 → s.HasCards r (s.session r).deskID
  batch : ∀ n, s.worker n ≠ .tasks → (s.mailbox n).batch = []
  base : s.Prepared s.base

/-! ## The pieces of a step -/

lemma Prepared.mono {stage : DealStage} (h : s.Prepared stage)
    (hmono : ∀ r d, s.HasCards r d → s'.HasCards r d) : s'.Prepared stage := by
  cases stage with
  | seating d cards r remaining => exact hmono r d h
  | _ => trivial

/-- A send adds one message to one mailbox. -/
lemma mem_contents_send {x : LoopId × Ref × Message} :
    x ∈ ((s.send cur r m).mailbox n).contents ↔
      n = s.loop r ∧ x = (cur, r, m) ∨ x ∈ (s.mailbox n).contents := by
  by_cases hn : n = s.loop r
  · subst hn
    simp only [send, Function.update_self, true_and]
    exact Mailbox.mem_contents_post
  · simp [send, hn]

/-- A send leaves the cards in the mailbox. -/
lemma CardsIn.send (h : CardsIn (s.mailbox n).contents t d) :
    CardsIn ((s.send cur r m).mailbox n).contents t d := by
  obtain ⟨x, hx, hcards⟩ := h
  exact ⟨x, mem_contents_send.mpr (Or.inr hx), hcards⟩

/-- A message may be sent if it is no broadcast, or if its receiver has been sent the cards of the
desk and, on the loop's own thread, does not wait for them. -/
lemma Ordered.send (h : Ordered s)
    (hcards : m.IsCards 0 → RoomIn (s.mailbox (s.loop r)).contents r 0 → s.HasCards r 0)
    (hroom : ∀ d, d ≠ 0 → m.IsRoom d → s.HasCards r d)
    (hdirect : cur = .worker (s.loop r) → ∀ d, m.IsRoom d → s.HasCards r d →
      CardsIn (s.mailbox (s.loop r)).handled r d) :
    Ordered (s.send cur r m) where
  preceded n t d hd := by
    by_cases hold : CardsIn (s.mailbox n).contents t d
    · have hbefore := h.preceded n t d hold
      by_cases hn : n = s.loop r
      · subst hn
        simp only [Dealing.send, Function.update_self]
        apply Mailbox.preceded_post hbefore
        · exact fun _ => hold
        · rintro howner ⟨ht, hm⟩
          obtain rfl : r = t := ht
          exact hdirect howner d hm hold
      · simpa [Dealing.send, hn] using hbefore
    · -- the message is the first one with the cards, and nothing has been sent to the desk
      obtain ⟨x, hx, hxcards⟩ := hd
      obtain ⟨hn, rfl⟩ := (mem_contents_send.mp hx).resolve_right fun hmem =>
        hold ⟨x, hmem, hxcards⟩
      obtain ⟨ht, hm⟩ := hxcards
      obtain rfl : r = t := ht
      subst hn
      have hnone : ¬ RoomIn (s.mailbox (s.loop r)).contents r d := by
        intro hsent
        by_cases hzero : d = 0
        · subst hzero
          exact hold (hcards hm hsent)
        · exact hold (h.room _ r d hzero hsent)
      refine preceded_of_forall_not fun y hy hroomy => ?_
      rcases mem_contents_send.mp hy with ⟨-, rfl⟩ | hy
      · cases m with
        | cards d' buf => exact hroomy.2
        | _ => exact hm
      · exact hnone ⟨y, hy, hroomy⟩
  room n t d hd hsent := by
    obtain ⟨x, hx, ht, hxroom⟩ := hsent
    rcases mem_contents_send.mp hx with ⟨rfl, rfl⟩ | hx
    · obtain rfl : r = t := ht
      exact CardsIn.send (hroom d hd hxroom)
    · exact CardsIn.send (h.room n t d hd ⟨x, hx, ht, hxroom⟩)
  desk t ht := CardsIn.send (h.desk t ht)
  batch n hstage := by
    by_cases hn : n = s.loop r
    · subst hn
      simp only [Dealing.send, Function.update_self, Mailbox.post]
      split <;> exact h.batch _ hstage
    · simpa [Dealing.send, hn] using h.batch n hstage
  base := h.base.mono fun _ _ => CardsIn.send

/-- A message that is neither cards nor a broadcast. -/
lemma Ordered.send_own (h : Ordered s) (cur : LoopId) (r : Ref) (buf : Bytes) :
    Ordered (s.send cur r (.own buf)) :=
  h.send (fun hcards => hcards.elim) (fun _ _ hroom => hroom.elim) fun _ _ hroom => hroom.elim

/-- A session may be put at a desk whose cards it has been sent. -/
lemma Ordered.modifySession (h : Ordered s)
    (hf : (f (s.session r)).deskID ≠ 0 → s.HasCards r (f (s.session r)).deskID) :
    Ordered (s.modifySession r f) where
  __ := h
  desk t ht := by
    by_cases htr : t = r
    · subst htr
      simp only [Dealing.modifySession, Function.update_self] at ht ⊢
      exact hf ht
    · simp only [Dealing.modifySession, Function.update_of_ne htr] at ht ⊢
      exact h.desk t ht
  base := h.base.mono fun _ _ => id

/-- A worker thread moves. -/
lemma Ordered.goTo (h : Ordered s) (hstage : (s.mailbox n).batch = []) :
    Ordered (s.goTo n stage) where
  __ := h
  batch k hk := by
    by_cases hkn : k = n
    · subst hkn
      exact hstage
    · simp only [Dealing.goTo, Function.update_of_ne hkn] at hk
      exact h.batch k hk
  base := h.base.mono fun _ _ => id

/-- The base thread moves. -/
lemma Ordered.withBase {base : DealStage} (h : Ordered s) (hbase : s.Prepared base) :
    Ordered { s with base := base } where
  __ := h
  base := hbase.mono fun _ _ => id

/-- A mailbox is replaced by one with the same contents. -/
lemma Ordered.withMailbox {b : Mailbox LoopId (Ref × Message)} (h : Ordered s)
    (hcontents : b.contents = (s.mailbox n).contents)
    (hbatch : s.worker n ≠ .tasks → b.batch = []) :
    Ordered { s with mailbox := Function.update s.mailbox n b } := by
  have hsame : ∀ k, (Function.update s.mailbox n b k).contents = (s.mailbox k).contents := by
    intro k
    by_cases hk : k = n
    · subst hk
      rw [Function.update_self]
      exact hcontents
    · rw [Function.update_of_ne hk]
  have hmono : ∀ r d, s.HasCards r d →
      HasCards { s with mailbox := Function.update s.mailbox n b } r d :=
    fun r d hcards => by rwa [HasCards, hsame]
  refine ⟨fun k r d => ?_, fun k r d hd => ?_, fun r hr => hmono r _ (h.desk r hr),
    fun k hk => ?_, h.base.mono hmono⟩
  · rw [hsame]
    exact h.preceded k r d
  · rw [hsame]
    exact h.room k r d hd
  · by_cases hkn : k = n
    · subst hkn
      simpa using hbatch hk
    · simpa [hkn] using h.batch k hk

/-! ## The steps -/

/-- A worker thread outside `doOtherTask` moves. -/
lemma Ordered.goTo_of_ne (h : Ordered s) (hne : s.worker n ≠ .tasks) : Ordered (s.goTo n stage) :=
  h.goTo (h.batch n hne)

/-- A package. -/
lemma ordered_processPackage {package : Bytes} (h : Ordered s) (hne : s.worker n ≠ .tasks) :
    Ordered (s.processPackage n r package) := by
  unfold processPackage
  split
  · exact h
  · split
    · exact h.goTo_of_ne hne
    · split
      · exact h.modifySession (h.desk r)
      · split
        · exact (h.send_own _ r _).goTo_of_ne hne
        · exact h.send_own _ r _

/-- A statement of a worker thread. -/
lemma ordered_goOn (h : Ordered s) (hguard : s.NothingOvertakes (.goOn n)) :
    Ordered (s.goOn n (s.worker n)) := by
  cases hstage : s.worker n with
  | idle => exact h
  | reading r => exact h.goTo_of_ne (by simp [hstage])
  | answered r => exact h.goTo_of_ne (by simp [hstage])
  | sendingAll r gameOver call remaining =>
    have hne : s.worker n ≠ .tasks := by simp [hstage]
    cases remaining with
    | nil => exact h.goTo_of_ne hne
    | cons t rest =>
      simp only [NothingOvertakes, hstage] at hguard
      rw [goOn]
      split
      · next hreaches =>
        refine Ordered.goTo_of_ne (h.send (fun hcards => hcards.elim) (fun d hd hroom => ?_)
          fun howner d hroom hcards => ?_) hne
        · -- the receiver sits at the desk of the broadcast
          obtain rfl : call.deskID = d := hroom
          rw [← hreaches.2.2] at hd ⊢
          exact h.desk t hd
        · obtain rfl : call.deskID = d := hroom
          have hn : s.loop t = n := (LoopId.worker.inj howner).symm
          rw [hn]
          exact hguard hn hreaches hcards
      · exact h.goTo_of_ne hne
  | notified r => exact h.goTo_of_ne (by simp [hstage])
  | resetting r deskID remaining =>
    have hne : s.worker n ≠ .tasks := by simp [hstage]
    cases remaining with
    | nil => exact h.goTo_of_ne hne
    | cons t rest =>
      rw [goOn]
      split
      · exact h.goTo_of_ne hne
      · exact (h.modifySession fun hd => absurd rfl hd).goTo_of_ne hne
  | resettingStatus r deskID t rest =>
    have hne : s.worker n ≠ .tasks := by simp [hstage]
    exact (h.modifySession (h.desk t)).goTo_of_ne hne
  | tasks =>
    rw [goOn]
    split
    · next hbatch => exact h.goTo hbatch
    · exact h.withMailbox Mailbox.contents_handleNext fun hne => absurd hstage hne

/-- A statement of the deal. -/
lemma ordered_deal (h : Ordered s) (hguard : s.NothingOvertakes .deal)
    (hstep : s.deal s.base = some s') : Ordered s' := by
  have hbase := h.base
  cases hstage : s.base with
  | idle =>
    rw [hstage] at hstep
    cases hstep
  | dealing d cards remaining =>
    rw [hstage] at hstep
    cases remaining with
    | nil =>
      cases hstep
      exact h.withBase trivial
    | cons r rest =>
      simp only [NothingOvertakes, hstage] at hguard
      rw [deal] at hstep
      split at hstep
      · next hready =>
        cases hstep
        have hsent : Ordered (s.send .base r (.cards d cards)) :=
          h.send (fun hzero => hguard hzero hready) (fun _ _ hroom => hroom.elim)
            fun _ _ hroom => hroom.elim
        exact hsent.withBase ⟨_, mem_contents_send.mpr (Or.inl ⟨rfl, rfl⟩), rfl, rfl⟩
      · cases hstep
        exact h.withBase trivial
  | seating d cards r rest =>
    rw [hstage] at hstep hbase
    cases hstep
    exact Ordered.withBase (h.modifySession fun _ => hbase) trivial
  | starting d cards r rest =>
    rw [hstage] at hstep
    cases hstep
    exact Ordered.withBase (h.modifySession (h.desk r)) trivial

/-- A new session. -/
lemma ordered_connect {order : List Ref} (h : Ordered s) (hbase : s.base = .idle) :
    Ordered (s.connect n order) := by
  apply Ordered.send_own
  refine ⟨h.preceded, h.room, fun r hr => ?_, h.batch, ?_⟩
  · by_cases hnew : r = s.nextRef
    · subst hnew
      simp at hr
    · simp only [HasCards, Function.update_of_ne hnew] at hr ⊢
      exact h.desk r hr
  · rw [hbase]
    trivial

/-- Every step that lets no broadcast overtake cards keeps the order. -/
theorem Ordered.next (h : Ordered s) (hguard : s.NothingOvertakes step)
    (hstep : s.next step = some s') : Ordered s' := by
  cases step with
  | connect n order =>
    obtain ⟨⟨hbase, -⟩, heq⟩ := Option.ite_none_right_eq_some.mp hstep
    cases heq
    exact ordered_connect h hbase
  | checkHandup cards =>
    rw [Dealing.next] at hstep
    split at hstep
    · cases hstep
    · split at hstep
      · cases hstep
        exact h
      · cases hstep
        exact ⟨h.preceded, h.room, h.desk, h.batch, trivial⟩
  | deal => exact ordered_deal h hguard hstep
  | read n r =>
    obtain ⟨⟨hidle, -⟩, heq⟩ := Option.ite_none_right_eq_some.mp hstep
    cases heq
    exact h.goTo_of_ne (by simp [hidle])
  | package n package =>
    rw [Dealing.next] at hstep
    split at hstep
    · next r hstage =>
      cases hstep
      exact ordered_processPackage h (by simp [hstage])
    · cases hstep
  | doOtherTask n =>
    obtain ⟨hidle, heq⟩ := Option.ite_none_right_eq_some.mp hstep
    cases heq
    have hmoved : Ordered (s.goTo n .tasks) := h.goTo_of_ne (by simp [hidle])
    exact hmoved.withMailbox (Mailbox.contents_take (h.batch n (by simp [hidle])))
      fun hne => absurd (Function.update_self ..) hne
  | remind n r =>
    obtain ⟨-, heq⟩ := Option.ite_none_right_eq_some.mp hstep
    cases heq
    exact h.send_own _ r _
  | close n r =>
    obtain ⟨-, heq⟩ := Option.ite_none_right_eq_some.mp hstep
    cases heq
    exact ⟨h.preceded, h.room, h.desk, h.batch, h.base.mono fun _ _ => id⟩
  | goOn n =>
    cases hstep
    exact ordered_goOn h hguard

lemma ordered_start : Ordered start where
  preceded _ _ _ _ := trivial
  room _ _ _ _ hsent := by
    obtain ⟨x, hx, -⟩ := hsent
    cases hx
  desk _ hr := absurd rfl hr
  batch _ _ := rfl
  base := trivial

/-- **In a run in which no broadcast overtakes cards, every player sees the cards of a desk before
everything that is sent to the desk.** -/
theorem cardsFirst (h : system.ReachableUnder NothingOvertakes s) : CardsFirst s := by
  have hordered : Ordered s := by
    refine h.invariant ?_ fun _ _ _ h hguard hstep => h.next hguard hstep
    rintro s rfl
    exact ordered_start
  rintro r d ⟨m, hm, hcards⟩
  obtain ⟨x, hx, rfl⟩ := List.mem_map.mp hm
  obtain ⟨hhandled, hr⟩ := List.mem_filter.mp hx
  have hsent : s.HasCards r d :=
    ⟨x, List.mem_append_left _ hhandled, of_decide_eq_true hr, hcards⟩
  exact (hordered.preceded (s.loop r) r d hsent).of_append.filter_map

/-- The process after a list of steps. -/
def run (steps : List DealingStep) : Dealing :=
  TransitionSystem.runAll next start steps

lemma reachableUnder_run {C : Dealing → DealingStep → Prop} [∀ s step, Decidable (C s step)]
    {steps : List DealingStep} (h : TransitionSystem.follows next C start steps = true) :
    system.ReachableUnder C (run steps) :=
  TransitionSystem.ReachableUnder.runAll (fun _ _ _ => id) (.init rfl) h

/-- A session on the loop of the first worker thread sends a package, and the thread takes `count`
steps until it is done. -/
def speaks (r : Ref) (text : String) (count : ℕ) : List DealingStep :=
  [.read 0 r, .package 0 (ascii text)] ++ List.replicate count (.goOn 0)

/-- Two sessions of one loop connect, get ready, and are dealt to. -/
def dealtTo : List DealingStep :=
  [.connect 0 [0], .connect 0 [1, 0]] ++ speaks 0 "!ready\n" 1 ++ speaks 1 "!ready\n" 1 ++
    [.checkHandup (ascii "A 2 3 4\n")] ++ List.replicate 7 .deal

/-- The loop executes its four tasks: two welcomes and the cards. -/
def executesTasks : List DealingStep :=
  .doOtherTask 0 :: List.replicate 5 (.goOn 0)

/-- The loop comes to its tasks before one of the players speaks. -/
theorem cardsFirst_tasksFirst :
    (run (dealtTo ++ executesTasks ++ speaks 1 "hi\n" 4)).output 0 =
      [.own welcomeMsg, .cards 1 (ascii "A 2 3 4\n"), .room 1 (msgWithPrefix 2 (ascii "hi\n"))] ∧
    CardsFirst (run (dealtTo ++ executesTasks ++ speaks 1 "hi\n" 4)) :=
  ⟨by decide, cardsFirst (reachableUnder_run (by decide))⟩

/-- One of the players speaks before the loop comes to its tasks: the other one sees the message
first, and then the cards. -/
theorem exists_cards_overtaken : ¬ ∀ s, system.Reachable s → CardsFirst s := by
  intro h
  have hreach : system.Reachable (run (dealtTo ++ speaks 1 "hi\n" 4 ++ executesTasks)) :=
    reachableUnder_run (by decide)
  have houtput : (run (dealtTo ++ speaks 1 "hi\n" 4 ++ executesTasks)).output 0 =
      [.room 1 (msgWithPrefix 2 (ascii "hi\n")), .own welcomeMsg, .cards 1 (ascii "A 2 3 4\n")] := by
    decide
  have hcards : ∃ m ∈ (run (dealtTo ++ speaks 1 "hi\n" 4 ++ executesTasks)).output 0,
      m.IsCards 1 := by
    rw [houtput]
    exact ⟨.cards 1 (ascii "A 2 3 4\n"), by simp, rfl⟩
  have hfirst := h _ hreach 0 1 hcards
  rw [houtput] at hfirst
  exact hfirst.1 rfl

end Dealing

end Calc24
