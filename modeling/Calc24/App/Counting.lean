import Calc24.App.Dealing

/-!
# Hands for one

The callback of the timer that checks for players looks at the status of every session twice: it
counts the sessions that are ready, and if there are enough of them it generates a hand and deals
it to the sessions that are ready then.  In between, the worker threads go on: a session that has
been counted may disconnect, or be put back to idle by a right answer at a desk it sat at before.

Here both loops of the callback take one step for each session, between any steps of the worker
threads in `Dealing`.  A session that has been erased from the map is not visited any more; where
the erasure hits the entry that the iterator stands on, which is undefined in the source, the loop
goes on with the next entry.  Taken without steps in between, the counting loop does what
`Dealing.next` does in one step (`next_checkHandup`).

`Enough` is what every step of a deal keeps that takes nobody away on whom the hand depends
(`nobodyAlone`).
-/

namespace Calc24

open World

/-- The counting loop of the callback: the sessions found ready so far, and those to come. -/
structure CountingLoop where
  readySessionCount : ℕ
  remaining : List Ref
  deriving DecidableEq

/-- The steps of the threads. -/
inductive CountingStep
  /-- The base loop calls the callback of the timer that checks for players. -/
  | checkHandup
  /-- The counting loop visits the next session. -/
  | count
  /-- The counting loop ends; `cards` is the text of the cards, if a hand is generated. -/
  | endCount (cards : Bytes)
  /-- The dealing loop takes its next step. -/
  | deal
  /-- A worker thread takes a step, or the base loop connects a session. -/
  | play (step : DealingStep)
  deriving DecidableEq

/-- The sessions, the loops and the threads, with the counting loop of the callback.  `given` is a
ghost: the desk ids that sessions were given, the latest one first. -/
structure Counting where
  play : Dealing
  counting : Option CountingLoop
  given : List (Int64 × Ref)

namespace DealStage

/-- The desk id of the hand that is being dealt. -/
def deskID : DealStage → Option Int64
  | .idle => none
  | .dealing deskID _ _ => some deskID
  | .seating deskID _ _ _ => some deskID
  | .starting deskID _ _ _ => some deskID

end DealStage

namespace Dealing

/-- The session is registered and ready. -/
def IsReady (s : Dealing) (r : Ref) : Prop :=
  r ∈ s.sessions ∧ (s.session r).status = .READY

instance (s : Dealing) (r : Ref) : Decidable (s.IsReady r) :=
  inferInstanceAs (Decidable (_ ∧ _))

/-- The sessions among `refs` that are registered and ready, but for the one that is `lost`. -/
def readyAmong (s : Dealing) (lost : Option Ref) (refs : List Ref) : Finset Ref :=
  (refs.filter fun r => s.IsReady r ∧ lost ≠ some r).toFinset

/-- The session that a step of a worker thread closes or puts back to idle. -/
def loses (s : Dealing) : DealingStep → Option Ref
  | .close _ t => some t
  | .goOn n =>
    match s.worker n with
    | .resettingStatus _ _ t _ => some t
    | _ => none
  | _ => none

/-- The generation of a hand, after which the dealing loop starts. -/
def generate (cards : Bytes) (s : Dealing) : Dealing :=
  { s with
    deskBaseId := s.deskBaseId + 1
    base := .dealing (s.deskBaseId + 1) cards s.sessions }

end Dealing

namespace Counting

variable {s s' : Counting} {p : Dealing} {r t : Ref} {d : Int64} {cards : Bytes} {n : ℕ}
  {step : CountingStep} {lost : Option Ref} {rest : List Ref} {loop : CountingLoop}

/-- The server before anybody has connected. -/
def start : Counting where
  play := .start
  counting := none
  given := []

/-- One session of the counting loop. -/
def visit (s : Dealing) (r : Ref) (count : ℕ) : ℕ :=
  if s.IsReady r then count + 1 else count

/-- The next step of the dealing loop. -/
def deal (s : Counting) : Option Counting :=
  match s.play.base with
  | .dealing deskID cards (r :: rest) =>
    -- an entry that has been erased is not visited
    if r ∉ s.play.sessions then
      some { s with play := { s.play with base := .dealing deskID cards rest } }
    else (s.play.next .deal).map fun p => { s with play := p }
  | .seating deskID _ r _ =>
    (s.play.next .deal).map fun p => { s with play := p, given := (deskID, r) :: s.given }
  | _ => (s.play.next .deal).map fun p => { s with play := p }

/-- The steps that are taken beside the callback.  A session connects on the thread of the callback,
and so not while the callback counts. -/
def Beside (s : Counting) : DealingStep → Prop
  | .checkHandup _ => False
  | .deal => False
  | .connect _ _ => s.counting = none
  | _ => True

instance (s : Counting) (step : DealingStep) : Decidable (s.Beside step) :=
  match step with
  | .checkHandup _ => .isFalse not_false
  | .deal => .isFalse not_false
  | .connect _ _ => inferInstanceAs (Decidable (s.counting = none))
  | .read _ _ => .isTrue trivial
  | .package _ _ => .isTrue trivial
  | .doOtherTask _ => .isTrue trivial
  | .remind _ _ => .isTrue trivial
  | .close _ _ => .isTrue trivial
  | .goOn _ => .isTrue trivial

/-- Where a step leads, if it can be taken. -/
def next (s : Counting) : CountingStep → Option Counting
  | .checkHandup =>
    if s.counting = none ∧ s.play.base = .idle then
      some { s with counting := some { readySessionCount := 0, remaining := s.play.sessions } }
    else none
  | .count =>
    match s.counting with
    | some { readySessionCount := count, remaining := r :: rest } =>
      some { s with
        counting := some { readySessionCount := visit s.play r count, remaining := rest } }
    | _ => none
  | .endCount cards =>
    match s.counting with
    | some { readySessionCount := count, remaining := [] } =>
      if count < REQUIRED_MIN_READY_COUNT then some { s with counting := none }
      else some { s with counting := none, play := s.play.generate cards }
    | _ => none
  | .deal => s.deal
  | .play step =>
    if s.Beside step then (s.play.next step).map fun p => { s with play := p } else none

/-- All interleavings of the callback with the worker threads. -/
def system : TransitionSystem Counting CountingStep where
  init s := s = start
  step s step s' := s.next step = some s'

/-- The sessions that were given a desk id. -/
def receivers (s : Counting) (d : Int64) : Finset Ref :=
  ((s.given.filter fun x => x.1 = d).map Prod.snd).toFinset

/-- Every desk id that has been given to a session has been given to enough of them, unless the
hand is still being dealt. -/
def NobodyAlone (s : Counting) : Prop :=
  ∀ d, s.play.base.deskID ≠ some d → (s.receivers d).Nonempty →
    REQUIRED_MIN_READY_COUNT ≤ (s.receivers d).card

/-- The sessions that have been given the desk id of the hand that is being dealt, and those that
will be given it if nothing happens to them; without the session that is `lost`, if it has not been
dealt to yet. -/
def served (s : Counting) (lost : Option Ref) : Finset Ref :=
  match s.play.base with
  | .idle => ∅
  | .dealing d _ rest => s.receivers d ∪ s.play.readyAmong lost rest
  | .seating d _ r rest => insert r (s.receivers d ∪ s.play.readyAmong lost rest)
  | .starting d _ _ rest => s.receivers d ∪ s.play.readyAmong lost rest

/-- When a hand is generated enough sessions are still ready, and while it is dealt no session is
closed or put back to idle on which the hand depends. -/
def LosesNobody (s : Counting) : CountingStep → Prop
  | .endCount _ =>
    ∀ loop ∈ s.counting, REQUIRED_MIN_READY_COUNT ≤ loop.readySessionCount →
      REQUIRED_MIN_READY_COUNT ≤ (s.play.readyAmong none s.play.sessions).card
  | .play step =>
    s.play.base ≠ .idle → s.play.loses step ≠ none →
      REQUIRED_MIN_READY_COUNT ≤ (s.served (s.play.loses step)).card
  | _ => True

instance (s : Counting) (step : CountingStep) : Decidable (s.LosesNobody step) :=
  match step with
  | .endCount _ => inferInstanceAs (Decidable (∀ loop ∈ s.counting, _ → _))
  | .play _ => inferInstanceAs (Decidable (_ → _ → _))
  | .checkHandup => .isTrue trivial
  | .count => .isTrue trivial
  | .deal => .isTrue trivial

/-! ## The counting loop without interruption -/

/-- The rest of the counting loop. -/
lemma runAll_count (s : Counting) (rest : List Ref) (count : ℕ) :
    TransitionSystem.runAll next { s with counting := some ⟨count, rest⟩ }
      (List.replicate rest.length .count) =
        { s with counting := some ⟨rest.foldl (fun count r => visit s.play r count) count, []⟩ } := by
  induction rest generalizing count with
  | nil => rfl
  | cons r rest ih =>
    have hstep : next { s with counting := some ⟨count, r :: rest⟩ } .count =
        some { s with counting := some ⟨visit s.play r count, rest⟩ } := rfl
    rw [List.length_cons, List.replicate_succ, TransitionSystem.runAll_cons hstep, ih,
      List.foldl_cons]

/-- Visiting registered sessions one after another counts those that are ready. -/
lemma foldl_visit (s : Dealing) {count : ℕ} (hrest : ∀ r ∈ rest, r ∈ s.sessions) :
    rest.foldl (fun count r => visit s r count) count =
      count + rest.countP fun r => (s.session r).status = .READY := by
  induction rest generalizing count with
  | nil => rfl
  | cons r rest ih =>
    obtain ⟨hr, hrest⟩ := List.forall_mem_cons.mp hrest
    rw [List.foldl_cons, ih hrest, visit, List.countP_cons]
    by_cases hready : (s.session r).status = .READY
    · simp only [Dealing.IsReady, hr, hready, and_self, if_true, decide_true]
      omega
    · simp only [Dealing.IsReady, hready, and_false, if_false, decide_false, Bool.false_eq_true]
      omega

/-- **Without other steps in between, the counting loop leads to where the callback in one step
leads: to nothing, or to a hand and the dealing loop.** -/
theorem next_checkHandup (hcounting : s.counting = none)
    (h : s.play.next (.checkHandup cards) = some p) :
    TransitionSystem.runAll next s
      (.checkHandup :: (List.replicate s.play.sessions.length .count ++ [.endCount cards])) =
        { s with play := p } := by
  rw [Dealing.next] at h
  split at h
  · cases h
  · next hbase =>
    have hstart : s.next .checkHandup = some { s with counting := some ⟨0, s.play.sessions⟩ } := by
      simp [next, hcounting, not_not.mp hbase]
    rw [TransitionSystem.runAll_cons hstart, TransitionSystem.runAll, List.foldl_append]
    have hcount := runAll_count s s.play.sessions 0
    rw [TransitionSystem.runAll] at hcount
    rw [hcount, foldl_visit s.play fun _ => id, Nat.zero_add]
    have hnone : ({ s with counting := none } : Counting) = s := by
      rw [← hcounting]
    split at h
    · next hfew =>
      obtain rfl : s.play = p := Option.some.inj h
      have hend : next { s with counting := some ⟨s.play.readySessionCount, []⟩ }
          (.endCount cards) = some { s with counting := none } := if_pos hfew
      rw [Dealing.readySessionCount] at hend
      rw [List.foldl_cons, hend, hnone]
      rfl
    · next hmany =>
      obtain rfl : s.play.generate cards = p := Option.some.inj h
      have hend : next { s with counting := some ⟨s.play.readySessionCount, []⟩ }
          (.endCount cards) = some { s with counting := none, play := s.play.generate cards } :=
        if_neg hmany
      rw [Dealing.readySessionCount] at hend
      rw [List.foldl_cons, hend, hcounting]
      rfl

/-! ## Steps of the worker threads -/

lemma mem_readyAmong :
    r ∈ p.readyAmong lost rest ↔ r ∈ rest ∧ p.IsReady r ∧ lost ≠ some r := by
  simp [Dealing.readyAmong]

lemma mem_receivers : r ∈ s.receivers d ↔ (d, r) ∈ s.given := by
  simp [receivers]

end Counting

namespace Dealing

variable {s s' : Dealing} {r t : Ref} {n : ℕ} {step : DealingStep} {stage : PlayStage}
  {cur : LoopId} {m : Message}

lemma IsReady.goTo (h : s.IsReady r) : (s.goTo n stage).IsReady r := h

lemma IsReady.send (h : s.IsReady r) : (s.send cur t m).IsReady r := h

/-- A change of a session that does not touch the status, or of another session. -/
lemma IsReady.modifySession {f : Calc24Session → Calc24Session} (h : s.IsReady r)
    (hf : r = t → (f (s.session t)).status = .READY) : (s.modifySession t f).IsReady r := by
  refine ⟨h.1, ?_⟩
  by_cases hr : r = t
  · subst hr
    simpa [Dealing.modifySession] using hf rfl
  · simpa [Dealing.modifySession, hr] using h.2

/-- A package does not take away the readiness of anybody. -/
lemma IsReady.processPackage {package : Bytes} (h : s.IsReady r) :
    (s.processPackage n t package).IsReady r := by
  unfold Dealing.processPackage
  split
  · exact h
  · split
    · exact h.goTo
    · split
      · exact h.modifySession fun _ => rfl
      · split
        · exact h.send.goTo
        · exact h.send

/-- The statements of a worker thread: only a reset of the status takes away readiness. -/
lemma IsReady.goOn (h : s.IsReady r) (hlost : s.loses (.goOn n) ≠ some r) :
    (s.goOn n (s.worker n)).IsReady r := by
  cases hstage : s.worker n with
  | idle => exact h
  | reading t => exact h.goTo
  | answered t => exact h.goTo
  | sendingAll t gameOver call remaining =>
    cases remaining with
    | nil => exact h.goTo
    | cons t rest =>
      rw [Dealing.goOn]
      split
      · exact h.send.goTo
      · exact h.goTo
  | notified t => exact h.goTo
  | resetting t deskID remaining =>
    cases remaining with
    | nil => exact h.goTo
    | cons t' rest =>
      rw [Dealing.goOn]
      split
      · exact h.goTo
      · refine IsReady.goTo (h.modifySession ?_)
        rintro rfl
        exact h.2
  | resettingStatus t deskID t' rest =>
    refine IsReady.goTo (h.modifySession ?_)
    rintro rfl
    exact absurd (by simp [loses, hstage]) hlost
  | tasks =>
    rw [Dealing.goOn]
    split
    · exact h.goTo
    · exact h

/-- What happens beside the base thread: it does not move, and a session stays ready unless the
step takes it away. -/
theorem next_play (hcheck : ∀ cards, step ≠ .checkHandup cards) (hdeal : step ≠ .deal)
    (hconnect : ∀ n order, step ≠ .connect n order) (h : s.next step = some s') :
    s'.base = s.base ∧ ∀ r, s.IsReady r → s.loses step ≠ some r → s'.IsReady r := by
  cases step with
  | connect n order => exact absurd rfl (hconnect n order)
  | checkHandup cards => exact absurd rfl (hcheck cards)
  | deal => exact absurd rfl hdeal
  | read n r =>
    obtain ⟨-, heq⟩ := Option.ite_none_right_eq_some.mp h
    cases heq
    exact ⟨rfl, fun r hr _ => hr.goTo⟩
  | package n package =>
    rw [Dealing.next] at h
    split at h
    · next t hstage =>
      cases h
      refine ⟨?_, fun r hr _ => hr.processPackage⟩
      unfold processPackage
      split
      · rfl
      · split
        · rfl
        · split
          · rfl
          · split <;> rfl
    · cases h
  | doOtherTask n =>
    obtain ⟨-, heq⟩ := Option.ite_none_right_eq_some.mp h
    cases heq
    exact ⟨rfl, fun r hr _ => hr⟩
  | remind n r =>
    obtain ⟨-, heq⟩ := Option.ite_none_right_eq_some.mp h
    cases heq
    exact ⟨rfl, fun r hr _ => hr.send⟩
  | close n t =>
    obtain ⟨-, heq⟩ := Option.ite_none_right_eq_some.mp h
    cases heq
    refine ⟨rfl, fun r hr hlost => ⟨?_, hr.2⟩⟩
    have hne : r ≠ t := by
      rintro rfl
      exact hlost rfl
    exact (List.mem_erase_of_ne hne).mpr hr.1
  | goOn n =>
    cases h
    refine ⟨?_, fun r hr hlost => hr.goOn hlost⟩
    cases s.worker n with
    | sendingAll t gameOver call remaining =>
      cases remaining with
      | nil => rfl
      | cons t rest =>
        rw [Dealing.goOn]
        split <;> rfl
    | resetting t deskID remaining =>
      cases remaining with
      | nil => rfl
      | cons t rest =>
        rw [Dealing.goOn]
        split <;> rfl
    | tasks =>
      rw [Dealing.goOn]
      split <;> rfl
    | _ => rfl

end Dealing

namespace Counting

variable {s s' : Counting} {p : Dealing} {r t : Ref} {d : Int64} {cards : Bytes}
  {step : CountingStep} {lost : Option Ref} {rest : List Ref} {base : DealStage}

/-! ## What a deal keeps -/

/-- The hand that is being dealt goes to enough sessions, and so have the hands before.  A session
that `sendCards` has put at its desk has been given the desk id. -/
structure Enough (s : Counting) : Prop where
  idle : s.counting ≠ none → s.play.base = .idle
  seated : ∀ d cards r rest, s.play.base = .starting d cards r rest → r ∈ s.receivers d
  served : s.play.base ≠ .idle → REQUIRED_MIN_READY_COUNT ≤ (s.served none).card
  nobodyAlone : s.NobodyAlone

lemma enough_start : Enough start where
  idle h := absurd rfl h
  seated d cards r rest h := by cases h
  served h := absurd rfl h
  nobodyAlone d _ h := by simp [receivers, start] at h

/-- Sessions stay ready. -/
lemma readyAmong_subset (h : ∀ r, p.IsReady r → lost ≠ some r → s.play.IsReady r) :
    p.readyAmong lost rest ⊆ s.play.readyAmong none rest := by
  intro r hr
  obtain ⟨hmem, hready, hlost⟩ := mem_readyAmong.mp hr
  exact mem_readyAmong.mpr ⟨hmem, h r hready hlost, by simp⟩

/-- The end of the counting loop. -/
lemma Enough.endCount (h : Enough s) (hguard : s.LosesNobody (.endCount cards))
    (hstep : s.next (.endCount cards) = some s') : Enough s' := by
  rw [next] at hstep
  split at hstep
  · next count hcounting =>
    have hbase := h.idle (by simp [hcounting])
    split at hstep
    · cases hstep
      exact { h with idle := fun hnone => absurd rfl hnone }
    · next hmany =>
      cases hstep
      have hready := hguard _ hcounting (not_lt.mp hmany)
      refine ⟨fun hnone => absurd rfl hnone, fun d cards r rest heq => (by cases heq), fun _ => ?_,
        fun d _ hd => h.nobodyAlone d (by rw [hbase]; exact fun heq => by cases heq) hd⟩
      exact hready.trans (Finset.card_le_card Finset.subset_union_right)
  · cases hstep

/-- A step of the dealing loop that goes on with the hand. -/
lemma Enough.goOn (h : Enough s) (hd : s.play.base.deskID = some d)
    (hd' : s'.play.base.deskID = some d) (hcounting : s'.counting = s.counting)
    (hothers : ∀ d' ≠ d, s'.receivers d' = s.receivers d')
    (hseated : ∀ d cards r rest, s'.play.base = .starting d cards r rest → r ∈ s'.receivers d)
    (hserved : s.served none ⊆ s'.served none) : Enough s' := by
  have hbase : s.play.base ≠ .idle := by
    intro hidle
    rw [hidle] at hd
    cases hd
  refine ⟨fun hnone => ?_, hseated, fun _ => ?_, fun d' hne hreceived => ?_⟩
  · rw [hcounting] at hnone
    exact absurd (h.idle hnone) hbase
  · exact (h.served hbase).trans (Finset.card_le_card hserved)
  · have hother : d' ≠ d := by
      rintro rfl
      exact hne hd'
    rw [hothers d' hother] at hreceived ⊢
    apply h.nobodyAlone d' _ hreceived
    rw [hd]
    exact fun heq => hother (Option.some.inj heq).symm

/-- The end of the dealing loop. -/
lemma Enough.endDeal (h : Enough s) (hbase : s.play.base = .dealing d cards []) :
    Enough { s with play := { s.play with base := .idle } } := by
  have hserved := h.served (by simp [hbase])
  refine ⟨fun _ => rfl, fun d cards r rest heq => (by cases heq), fun hne => absurd rfl hne,
    fun d' _ hreceived => ?_⟩
  by_cases hd : d' = d
  · subst hd
    have hall : s.served none = s.receivers d' := by
      simp [Counting.served, hbase, Dealing.readyAmong]
    rw [hall] at hserved
    exact hserved
  · apply h.nobodyAlone d' _ hreceived
    rw [hbase]
    exact fun heq => hd (Option.some.inj heq).symm

/-- The dealing loop passes over a session that is not registered any more, or not ready. -/
lemma Enough.skip (h : Enough s) (hbase : s.play.base = .dealing d cards (r :: rest))
    (hready : ¬ s.play.IsReady r) :
    Enough { s with play := { s.play with base := .dealing d cards rest } } := by
  apply h.goOn (d := d)
  · rw [hbase]
    rfl
  · rfl
  · rfl
  · exact fun _ _ => rfl
  · exact fun d cards r rest heq => (by cases heq)
  · intro t ht
    simp only [Counting.served, hbase, Finset.mem_union, mem_readyAmong, List.mem_cons] at ht ⊢
    rcases ht with hgiven | ⟨rfl | hmem, ht⟩
    · exact Or.inl hgiven
    · exact absurd ht.1 hready
    · exact Or.inr ⟨hmem, ht⟩

/-- The cards are sent to a session. -/
lemma Enough.sendCards (h : Enough s) (hbase : s.play.base = .dealing d cards (r :: rest)) :
    Enough { s with play := { s.play.send .base r (.cards d cards) with
      base := .seating d cards r rest } } := by
  apply h.goOn (d := d)
  · rw [hbase]
    rfl
  · rfl
  · rfl
  · exact fun _ _ => rfl
  · exact fun d cards r rest heq => (by cases heq)
  · intro t ht
    simp only [Counting.served, hbase, Finset.mem_union, mem_readyAmong, List.mem_cons] at ht
    simp only [Counting.served, Finset.mem_insert, Finset.mem_union, mem_readyAmong]
    rcases ht with hgiven | ⟨rfl | hmem, ht⟩
    · exact Or.inr (Or.inl hgiven)
    · exact Or.inl rfl
    · exact Or.inr (Or.inr ⟨hmem, ht⟩)

/-- The session is given the desk id. -/
lemma Enough.seat (h : Enough s) (hbase : s.play.base = .seating d cards r rest) :
    Enough { s with
      play := { s.play.modifySession r fun session => { session with deskID := d } with
        base := .starting d cards r rest }
      given := (d, r) :: s.given } := by
  apply h.goOn (d := d)
  · rw [hbase]
    rfl
  · rfl
  · rfl
  · intro d' hd'
    simp [receivers, hd'.symm]
  · rintro d' cards' r' rest' heq
    cases heq
    exact mem_receivers.mpr (List.mem_cons_self ..)
  · intro t ht
    have hready : s.play.IsReady t →
        (s.play.modifySession r fun session => { session with deskID := d }).IsReady t := by
      refine fun ht => ht.modifySession ?_
      rintro rfl
      exact ht.2
    simp only [Counting.served, hbase, Finset.mem_insert, Finset.mem_union, mem_readyAmong,
      mem_receivers] at ht
    simp only [Counting.served, Finset.mem_union, mem_readyAmong, mem_receivers, List.mem_cons]
    rcases ht with rfl | hgiven | ⟨hmem, ht, hlost⟩
    · exact Or.inl (Or.inl rfl)
    · exact Or.inl (Or.inr hgiven)
    · exact Or.inr ⟨hmem, hready ht, hlost⟩

/-- The session starts to play.  It does not count as ready any more, but it has been dealt to. -/
lemma Enough.startPlay (h : Enough s) (hbase : s.play.base = .starting d cards r rest) :
    Enough { s with
      play := { s.play.modifySession r fun session => { session with status := .IN_GAME } with
        base := .dealing d cards rest } } := by
  have hr := h.seated d cards r rest hbase
  apply h.goOn (d := d)
  · rw [hbase]
    rfl
  · rfl
  · rfl
  · exact fun _ _ => rfl
  · exact fun d cards r rest heq => (by cases heq)
  · intro t ht
    simp only [Counting.served, hbase, Finset.mem_union, mem_readyAmong] at ht
    simp only [Counting.served, Finset.mem_union, mem_readyAmong]
    rcases ht with hgiven | ⟨hmem, ht, hlost⟩
    · exact Or.inl hgiven
    · by_cases htr : t = r
      · subst htr
        exact Or.inl hr
      · have hready : (s.play.modifySession r
            fun session => { session with status := .IN_GAME }).IsReady t :=
          ht.modifySession fun heq => absurd heq htr
        exact Or.inr ⟨hmem, hready, hlost⟩

/-- The next step of the dealing loop. -/
lemma Enough.deal (h : Enough s) (hstep : s.deal = some s') : Enough s' := by
  unfold Counting.deal at hstep
  cases hbase : s.play.base with
  | idle => simp [hbase, Dealing.next, Dealing.deal] at hstep
  | dealing d cards remaining =>
    cases remaining with
    | nil =>
      simp only [hbase, Dealing.next, Dealing.deal, Option.map_some] at hstep
      cases hstep
      exact h.endDeal hbase
    | cons r rest =>
      simp only [hbase] at hstep
      split at hstep
      · next herased =>
        cases hstep
        exact h.skip hbase fun hready => herased hready.1
      · by_cases hready : (s.play.session r).status = .READY
        · simp only [Dealing.next, hbase, Dealing.deal, if_pos hready, Option.map_some] at hstep
          cases hstep
          exact h.sendCards hbase
        · simp only [Dealing.next, hbase, Dealing.deal, if_neg hready, Option.map_some] at hstep
          cases hstep
          exact h.skip hbase fun hready' => hready hready'.2
  | seating d cards r rest =>
    simp only [hbase, Dealing.next, Dealing.deal, Option.map_some] at hstep
    cases hstep
    exact h.seat hbase
  | starting d cards r rest =>
    simp only [hbase, Dealing.next, Dealing.deal, Option.map_some] at hstep
    cases hstep
    exact h.startPlay hbase

/-- A step beside the deal that does not move the base thread. -/
lemma Enough.play (h : Enough s) (hbase : p.base = s.play.base)
    (hserved : s.play.base ≠ .idle → REQUIRED_MIN_READY_COUNT ≤ (s.served lost).card)
    (hready : ∀ r, s.play.IsReady r → lost ≠ some r → p.IsReady r) :
    Enough { s with play := p } := by
  refine ⟨fun hcounting => hbase.trans (h.idle hcounting),
    fun d cards r rest heq => h.seated d cards r rest (hbase.symm.trans heq), fun hne => ?_,
    fun d hd => h.nobodyAlone d (by rwa [← hbase])⟩
  have hsubset : ∀ rest, s.play.readyAmong lost rest ⊆ p.readyAmong none rest :=
    fun rest => readyAmong_subset (s := { s with play := p }) hready
  have hmany := hserved (by rwa [← hbase])
  refine hmany.trans (Finset.card_le_card ?_)
  simp only [Counting.served, hbase]
  cases s.play.base with
  | idle => exact Finset.Subset.refl _
  | dealing d cards rest => exact Finset.union_subset_union_right (hsubset rest)
  | seating d cards r rest =>
    exact Finset.insert_subset_insert r (Finset.union_subset_union_right (hsubset rest))
  | starting d cards r rest => exact Finset.union_subset_union_right (hsubset rest)

/-- A step of a worker thread, or a connect. -/
lemma Enough.beside {play : DealingStep} (h : Enough s) (hguard : s.LosesNobody (.play play))
    (hbeside : s.Beside play) (hstep : s.play.next play = some p) : Enough { s with play := p } := by
  -- the readiness that the step takes away
  have hserved : s.play.base ≠ .idle →
      REQUIRED_MIN_READY_COUNT ≤ (s.served (s.play.loses play)).card := by
    intro hbase
    by_cases hlost : s.play.loses play = none
    · rw [hlost]
      exact h.served hbase
    · exact hguard hbase hlost
  by_cases hconnect : ∃ n order, play = .connect n order
  · obtain ⟨n, order, rfl⟩ := hconnect
    obtain ⟨⟨hbase, -⟩, heq⟩ := Option.ite_none_right_eq_some.mp hstep
    cases heq
    have hidle : (s.play.connect n order).base = .idle := hbase
    refine ⟨fun _ => hidle, fun d cards r rest heq => ?_, fun hne => absurd hidle hne, ?_⟩
    · rw [hidle] at heq
      cases heq
    · intro d _ hd
      apply h.nobodyAlone d _ hd
      rw [hbase]
      exact fun heq => by cases heq
  · obtain ⟨hbase, hready⟩ := Dealing.next_play
      (by rintro cards rfl; exact hbeside) (by rintro rfl; exact hbeside)
      (fun n order heq => hconnect ⟨n, order, heq⟩) hstep
    exact h.play hbase hserved hready

/-- Every step that loses nobody keeps enough receivers for the hand. -/
theorem Enough.next (h : Enough s) (hguard : s.LosesNobody step) (hstep : s.next step = some s') :
    Enough s' := by
  cases step with
  | checkHandup =>
    obtain ⟨⟨-, hbase⟩, heq⟩ := Option.ite_none_right_eq_some.mp hstep
    cases heq
    exact { h with idle := fun _ => hbase }
  | count =>
    rw [Counting.next] at hstep
    split at hstep
    · next count r rest hcounting =>
      cases hstep
      exact { h with idle := fun _ => h.idle (by simp [hcounting]) }
    · cases hstep
  | endCount cards => exact h.endCount hguard hstep
  | deal => exact h.deal hstep
  | play step =>
    obtain ⟨hbeside, heq⟩ := Option.ite_none_right_eq_some.mp hstep
    obtain ⟨p, hp, rfl⟩ := Option.map_eq_some_iff.mp heq
    exact h.beside hguard hbeside hp

/-- **In a run in which enough of the sessions that were counted are still ready when a hand is
generated, and no session on whom the hand depends is closed or put back to idle while it is dealt,
nobody is dealt a hand alone.** -/
theorem nobodyAlone (h : system.ReachableUnder LosesNobody s) : NobodyAlone s := by
  have henough : Enough s := by
    refine h.invariant ?_ fun _ _ _ h hguard hstep => h.next hguard hstep
    rintro s rfl
    exact enough_start
  exact henough.nobodyAlone

/-! ## Runs -/

/-- The process after a list of steps. -/
def run (steps : List CountingStep) : Counting :=
  TransitionSystem.runAll next start steps

lemma reachableUnder_run {C : Counting → CountingStep → Prop} [∀ s step, Decidable (C s step)]
    {steps : List CountingStep} (h : TransitionSystem.follows next C start steps = true) :
    system.ReachableUnder C (run steps) :=
  TransitionSystem.ReachableUnder.runAll (fun _ _ _ => id) (.init rfl) h

/-- A session on the loop of the first worker thread says that it is ready. -/
def getsReady (r : Ref) : List CountingStep :=
  [.play (.read 0 r), .play (.package 0 (ascii "!ready\n")), .play (.goOn 0)]

/-- Two clients connect and say that they are ready, and the callback counts them. -/
def counted : List CountingStep :=
  [.play (.connect 0 [0]), .play (.connect 0 [0, 1])] ++ getsReady 0 ++ getsReady 1 ++
    [.checkHandup, .count, .count, .endCount (ascii "Your cards is: A A A A\n")]

/-- Both are dealt to, and one of them leaves afterwards. -/
theorem nobodyAlone_counted :
    NobodyAlone (run (counted ++ List.replicate 7 .deal ++ [.play (.close 0 1)])) :=
  nobodyAlone (reachableUnder_run (by decide))

/-- One of the sessions that were counted leaves before it is dealt to: the other one has the hand
to itself. -/
theorem exists_alone : ¬ ∀ s, system.Reachable s → NobodyAlone s := by
  intro h
  have hreach : system.Reachable (run (counted ++ [.play (.close 0 1)] ++ List.replicate 5 .deal)) :=
    reachableUnder_run (by decide)
  have halone := h _ hreach 1 (by decide) (by decide)
  exact absurd halone (by decide)

end Counting

end Calc24
