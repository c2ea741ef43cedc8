import Mathlib

/-!
# Mutual exclusion

A mutex is the thread that holds it, if any.  Which threads are between a lock and an unlock is read
off the places where they are; `Mutex.Excludes` says that each of these threads is the holder, so
that there is at most one.  A step of a program keeps this if it brings no thread there that was not
there before (`Excludes.mono`), if it takes the mutex where it is free (`Excludes.acquire`), or if
the thread that is there leaves and gives the mutex back (`Excludes.release`).
-/

namespace Mutex

variable {T : Type*} {critical critical' : T → Prop} {holder : Option T} {t t' : T}

/-- A thread between a lock and an unlock is the holder. -/
def Excludes (critical : T → Prop) (holder : Option T) : Prop :=
  ∀ t, critical t → holder = some t

/-- There is at most one such thread. -/
lemma Excludes.eq (h : Excludes critical holder) (ht : critical t) (ht' : critical t') : t = t' :=
  Option.some.inj ((h t ht).symm.trans (h t' ht'))

/-- While the mutex is free there is none. -/
lemma Excludes.not_of_free (h : Excludes critical none) (t : T) : ¬ critical t :=
  fun ht => (nomatch h t ht)

lemma Excludes.mono (h : Excludes critical holder) (hle : ∀ t, critical' t → critical t) :
    Excludes critical' holder :=
  fun t ht => h t (hle t ht)

/-- A thread takes the mutex. -/
lemma Excludes.acquire (h : Excludes critical none)
    (hle : ∀ t', critical' t' → critical t' ∨ t' = t) : Excludes critical' (some t) := by
  intro t' ht'
  rcases hle t' ht' with hold | rfl
  · exact absurd hold (h.not_of_free t')
  · rfl

/-- The thread that holds the mutex gives it back. -/
lemma Excludes.release (h : Excludes critical holder) (ht : critical t)
    (hle : ∀ t', critical' t' → critical t' ∧ t' ≠ t) : Excludes critical' none := by
  intro t' ht'
  obtain ⟨hold, hne⟩ := hle t' ht'
  exact absurd (h.eq hold ht) hne

end Mutex
