import Mathlib

/-!
# Total order broadcast

A sequencer numbers the messages of a broadcast, and every receiver hears some of them.  The logs of
the receivers are `Ordered` if each of them goes through the numbers upwards; then nobody hears a
message twice, and any two receivers hear the messages that both hear in the same order
(`Ordered.agree`).  A new message keeps this (`Ordered.number`), and so does a receiver that hears
the newest message (`Ordered.hear`).
-/

namespace Sequencer

open scoped List

variable {R : Type*} {n i j : ℕ} {heard heard' : R → List ℕ} {r r' : R}

/-- Of the messages with numbers below `n` each receiver has heard some, in order. -/
structure Ordered (n : ℕ) (heard : R → List ℕ) : Prop where
  lt : ∀ r, ∀ i ∈ heard r, i < n
  increasing : ∀ r, (heard r).Pairwise (· < ·)

/-- Nobody has heard anything. -/
lemma ordered_nil : Ordered 0 fun _ : R => [] where
  lt _ _ hi := absurd hi List.not_mem_nil
  increasing _ := List.Pairwise.nil

/-- A message gets the next number. -/
lemma Ordered.number (h : Ordered n heard) : Ordered (n + 1) heard where
  lt r i hi := Nat.lt_succ_of_lt (h.lt r i hi)
  increasing := h.increasing

/-- A receiver hears the newest message. -/
lemma Ordered.hear (h : Ordered (n + 1) heard) (hr : n ∉ heard r)
    (hself : heard' r = heard r ++ [n]) (hothers : ∀ r' ≠ r, heard' r' = heard r') :
    Ordered (n + 1) heard' := by
  have hbelow : ∀ i ∈ heard r, i < n := by
    intro i hi
    have hne : i ≠ n := fun heq => hr (heq ▸ hi)
    exact lt_of_le_of_ne (Nat.le_of_lt_succ (h.lt r i hi)) hne
  refine ⟨fun r' i hi => ?_, fun r' => ?_⟩
  · by_cases hr' : r' = r
    · rw [hr', hself] at hi
      rcases List.mem_append.mp hi with hold | hnew
      · exact h.lt r i hold
      · rw [List.mem_singleton.mp hnew]
        exact Nat.lt_succ_self n
    · rw [hothers r' hr'] at hi
      exact h.lt r' i hi
  · by_cases hr' : r' = r
    · rw [hr', hself, List.pairwise_append]
      refine ⟨h.increasing r, List.pairwise_singleton _ _, fun i hi j hj => ?_⟩
      rw [List.mem_singleton.mp hj]
      exact hbelow i hi
    · rw [hothers r' hr']
      exact h.increasing r'

/-- Nobody hears a message twice. -/
lemma Ordered.nodup (h : Ordered n heard) (r : R) : (heard r).Nodup :=
  (h.increasing r).imp fun hlt => hlt.ne

/-- **Everybody hears the messages in the same order.** -/
theorem Ordered.agree (h : Ordered n heard) (hr : [i, j] <+ heard r) (hi : i ∈ heard r')
    (hj : j ∈ heard r') : [i, j] <+ heard r' := by
  have hlt : i < j := by
    have hpair := (h.increasing r).sublist hr
    simpa using hpair
  have hsub : [i, j] ⊆ heard r' := by
    intro k hk
    rcases List.mem_cons.mp hk with rfl | hk
    · exact hi
    · exact List.mem_singleton.mp hk ▸ hj
  have hnodup : [i, j].Nodup := by simpa using hlt.ne
  have hperm : [i, j] <+~ heard r' := List.subperm_of_subset hnodup hsub
  exact List.sublist_of_subperm_of_pairwise (r := (· < ·)) hperm (by simpa using hlt)
    (h.increasing r')

end Sequencer
