import Calc24.Lib.TransitionSystem

/-!
# Refinement of transition systems

A system `T` refines a system `U` under an abstraction function `abs` if `abs` takes the initial
states of `T` to initial states of `U`, and every step of `T` from a reachable state to the step of
`U` that `lab` names.  What holds of all reachable states of `U` then holds of those of `T`
(`Refines.invariant`), and every run of `T` is a run of `U` (`Refines.run`), with the states taken
to their abstractions and the labels to those that `lab` gives (`image`).  A step of `T` that means
nothing to `U` is matched by a step of `U` that changes nothing.
-/

namespace TransitionSystem

variable {S L A M : Type*} {T : TransitionSystem S L} {U : TransitionSystem A M} {abs : S → A}
  {lab : S → L → S → M}

/-- Every step of `T` is the step of `U` that `lab` names. -/
structure Refines (T : TransitionSystem S L) (U : TransitionSystem A M) (abs : S → A)
    (lab : S → L → S → M) : Prop where
  init : ∀ s, T.init s → U.init (abs s)
  step : ∀ s l s', T.Reachable s → T.step s l s' → U.step (abs s) (lab s l s') (abs s')

/-- The run of the abstract system that a run stands for. -/
def image (abs : S → A) (lab : S → L → S → M) : S → List (L × S) → List (M × A)
  | _, [] => []
  | s, (l, s') :: tr => (lab s l s', abs s') :: image abs lab s' tr

/-- The abstract run ends with the abstraction of the state in which the run ends. -/
lemma last_image (s : S) (tr : List (L × S)) :
    last (abs s) (image abs lab s tr) = abs (last s tr) := by
  induction tr generalizing s with
  | nil => rfl
  | cons entry tr ih => exact ih entry.2

/-- A guard on abstract labels is a guard on the steps that they name. -/
lemma guarded_image {C : A → M → Prop} (s : S) (tr : List (L × S)) :
    Guarded C (abs s) (image abs lab s tr) ↔
      Along (fun s l s' => C (abs s) (lab s l s')) s tr := by
  induction tr generalizing s with
  | nil => exact Iff.rfl
  | cons entry tr ih => exact and_congr_right fun _ => ih entry.2

/-- Guarded steps that each have a property. -/
lemma along_of_guarded {C : S → L → Prop} {Q : S → L → S → Prop} (hCQ : ∀ s l s', C s l → Q s l s')
    {s : S} {tr : List (L × S)} (h : Guarded C s tr) : Along Q s tr := by
  induction tr generalizing s with
  | nil => trivial
  | cons entry tr ih => exact ⟨hCQ s entry.1 entry.2 h.1, ih h.2⟩

namespace Refines

/-- The abstraction of a reachable state is reachable. -/
theorem reachable (h : T.Refines U abs lab) {s : S} (hs : T.Reachable s) : U.Reachable (abs s) := by
  have hboth : T.Reachable s ∧ U.Reachable (abs s) := by
    refine hs.invariant (P := fun s => T.Reachable s ∧ U.Reachable (abs s)) ?_ ?_
    · exact fun s hs => ⟨.of_init hs, .of_init (h.init s hs)⟩
    · rintro s l s' ⟨hs, habs⟩ hstep
      exact ⟨hs.tail hstep, habs.tail (h.step s l s' hs hstep)⟩
  exact hboth.2

/-- What the abstract system guarantees is guaranteed by the system that refines it. -/
theorem invariant (h : T.Refines U abs lab) {P : A → Prop} (hP : ∀ a, U.Reachable a → P a) {s : S}
    (hs : T.Reachable s) : P (abs s) :=
  hP _ (h.reachable hs)

/-- Every run is a run of the abstract system. -/
theorem run (h : T.Refines U abs lab) {s : S} {tr : List (L × S)} (hs : T.Reachable s)
    (hr : T.Run s tr) : U.Run (abs s) (image abs lab s tr) := by
  induction hr with
  | nil s => exact .nil (abs s)
  | @cons s s' l tr hstep hr ih => exact .cons (h.step s l s' hs hstep) (ih (hs.tail hstep))

end Refines

end TransitionSystem
