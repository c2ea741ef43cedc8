import Calc24.Lib.TransitionSystem

/-!
# Monitors of the runs of a transition system

What a run shows to an observer is a list: `emitted out s tr` puts together what `out` gives for
each step.  A monitor is a partial automaton that reads such a list one element after the other, and
a list is accepted if the monitor can read it to its end.  Where the state of the monitor fits the
state of the system, and every step shows what the monitor can read from there and leads to states
that fit again, every run is accepted (`Run.accepted`).  Where the states keep a record of a part of
what is shown, the record of the last state has that part of what the run shows
(`Run.filter_emitted`).
-/

namespace TransitionSystem

variable {S L X C : Type*} {T : TransitionSystem S L} {out : S → L → S → List X}
  {next : C → X → Option C}

/-- What the steps of a run show, one after the other. -/
def emitted (out : S → L → S → List X) : S → List (L × S) → List X
  | _, [] => []
  | s, (l, s') :: tr => out s l s' ++ emitted out s' tr

/-- The rule for monitors. -/
theorem Run.accepted {Fits : C → S → Prop}
    (hstep : ∀ c s l s', T.Reachable s → Fits c s → T.step s l s' →
      ∃ c', (out s l s').foldlM next c = some c' ∧ Fits c' s')
    {s : S} {tr : List (L × S)} (hr : T.Run s tr) (hs : T.Reachable s) {c : C} (hc : Fits c s) :
    ∃ c', (emitted out s tr).foldlM next c = some c' ∧ Fits c' (last s tr) := by
  induction hr generalizing c with
  | nil s => exact ⟨c, rfl, hc⟩
  | @cons s s' l tr h hr ih =>
    obtain ⟨c₁, hread, hfits⟩ := hstep c s l s' hs hc h
    obtain ⟨c₂, hrest, hlast⟩ := ih (hs.tail h) hfits
    refine ⟨c₂, ?_, hlast⟩
    rw [emitted, List.foldlM_append, hread]
    exact hrest

/-- What a record of the states gains in each step is what the run shows of it. -/
theorem Run.filter_emitted {record : S → List X} {shown : X → Bool}
    (hstep : ∀ s l s', T.Reachable s → T.step s l s' →
      record s' = record s ++ (out s l s').filter shown)
    {s : S} {tr : List (L × S)} (hr : T.Run s tr) (hs : T.Reachable s) :
    record (last s tr) = record s ++ (emitted out s tr).filter shown := by
  induction hr with
  | nil s => exact (List.append_nil _).symm
  | @cons s s' l tr h hr ih =>
    have hrest : record (last s' tr) = record s' ++ (emitted out s' tr).filter shown :=
      ih (hs.tail h)
    rw [emitted, List.filter_append, ← List.append_assoc, ← hstep s l s' hs h]
    exact hrest

/-- What is read in two parts. -/
lemma foldlM_append_eq_some {xs ys : List X} {c c' : C} :
    (xs ++ ys).foldlM next c = some c' ↔
      ∃ c₁, xs.foldlM next c = some c₁ ∧ ys.foldlM next c₁ = some c' := by
  rw [List.foldlM_append]
  exact Option.bind_eq_some_iff

/-- What is read around one element. -/
lemma foldlM_cut_eq_some {xs ys : List X} {x : X} {c c' : C} :
    (xs ++ x :: ys).foldlM next c = some c' ↔
      ∃ c₁ c₂, xs.foldlM next c = some c₁ ∧ next c₁ x = some c₂ ∧
        ys.foldlM next c₂ = some c' := by
  rw [foldlM_append_eq_some]
  constructor
  · rintro ⟨c₁, hbefore, hrest⟩
    obtain ⟨c₂, hx, hafter⟩ := Option.bind_eq_some_iff.mp hrest
    exact ⟨c₁, c₂, hbefore, hx, hafter⟩
  · rintro ⟨c₁, c₂, hbefore, hx, hafter⟩
    exact ⟨c₁, hbefore, Option.bind_eq_some_iff.mpr ⟨c₂, hx, hafter⟩⟩

end TransitionSystem
