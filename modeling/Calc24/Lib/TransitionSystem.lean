import Mathlib

/-!
# Labelled transition systems, guarded runs and invariants

A program that takes one step after another, chosen by its environment, is a relation
`step s l s'` on states: in the state `s` the step labelled `l` may lead to `s'`.  This file
collects the induction rules such programs are verified with.

* `ReachableUnder C`: the states reached by runs every step of which meets the guard `C`, a
  condition on the state before the step and on its label.  `Reachable` is the case without a
  guard.
* `ReachableUnder.invariant`: what holds initially and is kept by guarded steps holds in every
  state reached.
* `runAll` and `follows`: where a function computes the steps, a list of labels is executed and
  checked, and what it leads to is reachable (`ReachableUnder.runAll`).
* `Run` and `Guarded`: whole runs as lists of steps, and the rule `Run.forall_iff_guarded` for a
  guard which is exact, that is, which each step meets if and only if it keeps the property.  A
  list of labels that can be executed is such a run (`run_states`).
* `Along`: a property of every single step of a run, with the rule `Run.along_iff_guarded`.
* `last`: the state in which a run ends, with the rule `Run.last_iff_guarded` for a property which
  a step that does not meet the guard destroys for good.
-/

/-- A labelled transition system: its initial states and its labelled steps. -/
structure TransitionSystem (S L : Type*) where
  init : S → Prop
  step : S → L → S → Prop

namespace TransitionSystem

variable {S L : Type*} (T : TransitionSystem S L) {C : S → L → Prop} {P I : S → Prop}

/-! ## Reachable states -/

/-- The states reached from an initial one by steps that all meet the guard `C`. -/
inductive ReachableUnder (C : S → L → Prop) : S → Prop
  | init {s : S} (h : T.init s) : ReachableUnder C s
  | step {s s' : S} {l : L} (hs : ReachableUnder C s) (hc : C s l) (h : T.step s l s') :
      ReachableUnder C s'

/-- The states reached by any run. -/
def Reachable : S → Prop :=
  T.ReachableUnder fun _ _ => True

variable {T}

/-- The invariant rule for guarded runs. -/
theorem ReachableUnder.invariant (hinit : ∀ s, T.init s → P s)
    (hstep : ∀ s l s', P s → C s l → T.step s l s' → P s') {s : S}
    (h : T.ReachableUnder C s) : P s := by
  induction h with
  | init h => exact hinit _ h
  | step _ hc h ih => exact hstep _ _ _ ih hc h

/-- Initial states are reachable. -/
theorem Reachable.of_init {s : S} (h : T.init s) : T.Reachable s :=
  .init h

/-- One more step from a reachable state. -/
theorem Reachable.tail {s s' : S} {l : L} (hs : T.Reachable s) (h : T.step s l s') :
    T.Reachable s' :=
  .step hs trivial h

/-- The invariant rule for all runs. -/
theorem Reachable.invariant (hinit : ∀ s, T.init s → P s)
    (hstep : ∀ s l s', P s → T.step s l s' → P s') {s : S} (h : T.Reachable s) : P s :=
  ReachableUnder.invariant hinit (fun s l s' hP _ hs => hstep s l s' hP hs) h

/-! ## Executing steps -/

variable (next : S → L → Option S)

/-- Take the steps of a list one after another; one that cannot be taken is left out. -/
def runAll (s : S) (ls : List L) : S :=
  ls.foldl (fun s l => (next s l).getD s) s

/-- All steps of a list can be taken, and meet the guard `C`. -/
def follows (C : S → L → Prop) [∀ s l, Decidable (C s l)] : S → List L → Bool
  | _, [] => true
  | s, l :: ls => decide (C s l) && (next s l).isSome && follows C ((next s l).getD s) ls

variable {next}

/-- A step that a function computes which may fail. -/
lemma exists_ok_of_toOption_map {ε α β : Type*} {x : Except ε α} {f : α → β} {b : β}
    (h : x.toOption.map f = some b) : ∃ a, x = .ok a ∧ f a = b := by
  cases x with
  | error e => cases h
  | ok a => exact ⟨a, rfl, Option.some.inj h⟩

lemma runAll_cons {s s' : S} {l : L} {ls : List L} (h : next s l = some s') :
    runAll next s (l :: ls) = runAll next s' ls := by
  rw [runAll, List.foldl_cons, h]
  rfl

/-- Executing steps that meet the guard leads to reachable states. -/
theorem ReachableUnder.runAll [∀ s l, Decidable (C s l)]
    (hnext : ∀ s l s', next s l = some s' → T.step s l s') {s : S} {ls : List L}
    (hs : T.ReachableUnder C s) (h : follows next C s ls = true) :
    T.ReachableUnder C (runAll next s ls) := by
  induction ls generalizing s with
  | nil => exact hs
  | cons l ls ih =>
    simp only [follows, Bool.and_eq_true, decide_eq_true_eq] at h
    obtain ⟨⟨hguard, hsome⟩, hrest⟩ := h
    obtain ⟨s', hs'⟩ := Option.isSome_iff_exists.mp hsome
    have hreach := ReachableUnder.step hs hguard (hnext s l s' hs')
    rw [hs'] at hrest
    rw [TransitionSystem.runAll, List.foldl_cons, hs']
    exact ih hreach hrest

/-! ## Whole runs -/

variable (T) in
/-- `T.Run s tr`: from the state `s` the system can take the steps of `tr` one after another,
each of them listed with its label and the state it leads to. -/
inductive Run : S → List (L × S) → Prop
  | nil (s : S) : Run s []
  | cons {s s' : S} {l : L} {tr : List (L × S)} (h : T.step s l s') (hr : Run s' tr) :
      Run s ((l, s') :: tr)

/-- Every step of the run `tr` from `s` meets the guard. -/
def Guarded (C : S → L → Prop) : S → List (L × S) → Prop
  | _, [] => True
  | s, (l, s') :: tr => C s l ∧ Guarded C s' tr

variable (next) in
/-- The steps that executing a list of labels takes. -/
def states : S → List L → List (L × S)
  | _, [] => []
  | s, l :: ls => (l, (next s l).getD s) :: states ((next s l).getD s) ls

/-- Executing steps that meet the guard is a run whose steps meet the guard. -/
theorem run_states [∀ s l, Decidable (C s l)]
    (hnext : ∀ s l s', next s l = some s' → T.step s l s') {s : S} {ls : List L}
    (h : follows next C s ls = true) :
    T.Run s (states next s ls) ∧ Guarded C s (states next s ls) := by
  induction ls generalizing s with
  | nil => exact ⟨.nil s, trivial⟩
  | cons l ls ih =>
    simp only [follows, Bool.and_eq_true, decide_eq_true_eq] at h
    obtain ⟨⟨hguard, hsome⟩, hrest⟩ := h
    obtain ⟨s', hs'⟩ := Option.isSome_iff_exists.mp hsome
    obtain ⟨hrun, hguarded⟩ := ih hrest
    simp only [states, hs', Option.getD_some] at hrun hguarded ⊢
    exact ⟨.cons (hnext s l s' hs') hrun, hguard, hguarded⟩

/-- The run rule for an exact guard: where each step from a state with `P` keeps `P` if and
only if it meets `C`, a run stays within `P` if and only if all its steps meet `C`.  The
invariant `I` is what the steps keep in any case. -/
theorem Run.forall_iff_guarded (hI : ∀ s l s', I s → T.step s l s' → I s')
    (hstep : ∀ s l s', I s → P s → T.step s l s' → (P s' ↔ C s l))
    {s : S} {tr : List (L × S)} (hr : T.Run s tr) (hIs : I s) (hPs : P s) :
    (∀ q ∈ tr, P q.2) ↔ Guarded C s tr := by
  induction hr with
  | nil s => simp [Guarded]
  | @cons s s' l tr h hr ih =>
    have hfirst := hstep s l s' hIs hPs h
    simp only [List.forall_mem_cons, Guarded]
    constructor
    · rintro ⟨hP', hrest⟩
      exact ⟨hfirst.mp hP', (ih (hI s l s' hIs h) hP').mp hrest⟩
    · rintro ⟨hC, hrest⟩
      have hP' : P s' := hfirst.mpr hC
      exact ⟨hP', (ih (hI s l s' hIs h) hP').mpr hrest⟩

/-- Every step of the run `tr` from `s` has the property `Q`, of the state before the step, its
label and the state after it. -/
def Along (Q : S → L → S → Prop) : S → List (L × S) → Prop
  | _, [] => True
  | s, (l, s') :: tr => Q s l s' ∧ Along Q s' tr

/-- The rule for a property of single steps: where each step has the property `Q` if and only if
it meets `C`, this is so along all runs. -/
theorem Run.along_iff_guarded {Q : S → L → S → Prop}
    (hI : ∀ s l s', I s → T.step s l s' → I s')
    (hstep : ∀ s l s', I s → T.step s l s' → (Q s l s' ↔ C s l))
    {s : S} {tr : List (L × S)} (hr : T.Run s tr) (hIs : I s) :
    Along Q s tr ↔ Guarded C s tr := by
  induction hr with
  | nil s => exact Iff.rfl
  | @cons s s' l tr h hr ih =>
    exact and_congr (hstep s l s' hIs h) (ih (hI s l s' hIs h))

/-- The state in which the run `tr` from `s` ends. -/
def last : S → List (L × S) → S
  | s, [] => s
  | _, (_, s') :: tr => last s' tr

/-- What every step keeps holds at the end of a run. -/
theorem Run.last_invariant (hI : ∀ s l s', I s → T.step s l s' → I s') {s : S}
    {tr : List (L × S)} (hr : T.Run s tr) (hIs : I s) : I (last s tr) := by
  induction hr with
  | nil s => exact hIs
  | @cons s s' l tr h hr ih => exact ih (hI s l s' hIs h)

/-- The rule for damage that cannot be repaired: where a step from a state with `P` keeps `P` if it
meets `C` and leads to damage `B` otherwise, and damage stays, a run ends with `Q`, which `P`
implies and damage excludes, if and only if all its steps meet `C`. -/
theorem Run.last_iff_guarded {Q B : S → Prop} (hI : ∀ s l s', I s → T.step s l s' → I s')
    (hkeep : ∀ s l s', I s → P s → T.step s l s' → C s l → P s')
    (hbreak : ∀ s l s', I s → P s → T.step s l s' → ¬ C s l → B s')
    (hstay : ∀ s l s', I s → B s → T.step s l s' → B s')
    (hgood : ∀ s, P s → Q s) (hbad : ∀ s, B s → ¬ Q s)
    {s : S} {tr : List (L × S)} (hr : T.Run s tr) (hIs : I s) (hPs : P s) :
    Q (last s tr) ↔ Guarded C s tr := by
  induction hr with
  | nil s => exact iff_of_true (hgood s hPs) trivial
  | @cons s s' l tr h hr ih =>
    have hIs' := hI s l s' hIs h
    by_cases hC : C s l
    · rw [last, ih hIs' (hkeep s l s' hIs hPs h hC), Guarded]
      exact ⟨fun hrest => ⟨hC, hrest⟩, fun hall => hall.2⟩
    · have hdamage : B (last s' tr) :=
        (hr.last_invariant (I := fun s => I s ∧ B s)
          (fun s l s' hs h => ⟨hI s l s' hs.1 h, hstay s l s' hs.1 hs.2 h⟩)
          ⟨hIs', hbreak s l s' hIs hPs h hC⟩).2
      exact iff_of_false (hbad _ hdamage) fun hall => hC hall.1

end TransitionSystem
