import Calc24.Lib.TransitionSystem

/-!
# Infinite runs and ranks

What a program does sooner or later is a property of its infinite runs (`Execution`).  A goal is met
if there are infinitely many steps that bring it nearer and none that puts it off: that is the rule
`leadsTo_of_rank`, with a rank in any well-founded linear order.  The steps in `own` make
progress, all the others do at least no harm, and `hfair` is the assumption that the steps in `own`
do not cease.  `infinitelyOften_of_rank` is the case of a goal that is met again and again.
-/

namespace TransitionSystem

variable {S L : Type*} (T : TransitionSystem S L)

/-- An infinite run from a reachable state. -/
structure Execution where
  state : ℕ → S
  label : ℕ → L
  reachable : T.Reachable (state 0)
  step : ∀ i, T.step (state i) (label i) (state (i + 1))

namespace Execution

variable {T} (e : T.Execution)

/-- The states of an infinite run are reachable. -/
lemma reachable_state (i : ℕ) : T.Reachable (e.state i) := by
  induction i with
  | zero => exact e.reachable
  | succ i ih => exact ih.tail (e.step i)

/-- Steps with the property are taken again and again. -/
def InfinitelyOften (P : S → L → Prop) : Prop :=
  ∀ i, ∃ j ≥ i, P (e.state j) (e.label j)

variable {e}

/-- The rank rule: from a state with `P` the goal is met, if `P` stays until then and every step
in `own` lowers the rank, which no other step raises. -/
theorem leadsTo_of_rank {W : Type*} [LinearOrder W] [WellFoundedLT W] (rank : S → W)
    {P : S → Prop} {own goal : S → L → Prop}
    (hstep : ∀ s l s', T.Reachable s → P s → T.step s l s' → goal s l ∨
      P s' ∧ rank s' ≤ rank s ∧ (own s l → rank s' < rank s))
    (hfair : e.InfinitelyOften own) (i : ℕ) (hP : P (e.state i)) :
    ∃ j ≥ i, goal (e.state j) (e.label j) := by
  have hmain : ∀ w i, P (e.state i) → rank (e.state i) = w →
      ∃ j ≥ i, goal (e.state j) (e.label j) := by
    intro w
    induction w using WellFoundedLT.induction with
    | ind w ih =>
      rintro i hP rfl
      by_contra hnever
      push Not at hnever
      have hnext : ∀ k, P (e.state (i + k)) → P (e.state (i + k + 1)) ∧
          rank (e.state (i + k + 1)) ≤ rank (e.state (i + k)) ∧
          (own (e.state (i + k)) (e.label (i + k)) →
            rank (e.state (i + k + 1)) < rank (e.state (i + k))) := fun k hk =>
        (hstep _ _ _ (e.reachable_state _) hk (e.step _)).resolve_left
          (hnever _ (Nat.le_add_right i k))
      -- until the goal is met the rank does not grow
      have hle : ∀ k, P (e.state (i + k)) ∧ rank (e.state (i + k)) ≤ rank (e.state i) := by
        intro k
        induction k with
        | zero => exact ⟨hP, le_refl _⟩
        | succ k hk =>
          obtain ⟨hP', hle', -⟩ := hnext k hk.1
          exact ⟨hP', hle'.trans hk.2⟩
      obtain ⟨j, hj, hlabel⟩ := hfair i
      obtain ⟨k, rfl⟩ := Nat.exists_eq_add_of_le hj
      obtain ⟨hP', -, hless⟩ := hnext k (hle k).1
      obtain ⟨j', hj', hgoal⟩ := ih _ ((hless hlabel).trans_le (hle k).2) (i + k + 1) hP' rfl
      exact hnever j' (by omega) hgoal
  exact hmain _ i hP rfl

/-- The rule for a goal that is met again and again. -/
theorem infinitelyOften_of_rank {W : Type*} [LinearOrder W] [WellFoundedLT W] (rank : S → W)
    {own goal : S → L → Prop}
    (hstep : ∀ s l s', T.Reachable s → T.step s l s' → goal s l ∨
      rank s' ≤ rank s ∧ (own s l → rank s' < rank s))
    (hfair : e.InfinitelyOften own) : e.InfinitelyOften goal := by
  intro i
  refine leadsTo_of_rank (P := fun _ => True) rank (fun s l s' hs _ h => ?_) hfair i trivial
  exact (hstep s l s' hs h).imp_right fun hrank => ⟨trivial, hrank⟩

end Execution

end TransitionSystem
