import Calc24.Lib.TransitionSystem
import Calc24.Net.Epoll

/-!
# The registry of an `Epoll` object and the kernel

`Epoll` keeps the event mask of every descriptor in `m_fdEventFlags` and chooses between an early
return, `EPOLL_CTL_ADD`, `EPOLL_CTL_MOD` and `EPOLL_CTL_DEL` from what it finds there.  This file
follows arbitrary sequences of the five calls that change the registry, for all descriptors at
once.

The choice is right in every case but one.  A second event of a descriptor that is recorded with
another one is registered with `EPOLL_CTL_ADD` as well, which the kernel refuses, and `crash()` is
called.  Registry and kernel agree in a run exactly as long as no call asks for a second event
(`agrees_iff_addsNoSecondEvent`).
-/

namespace Calc24

variable {δ : Type*}

/-- The calls that change the registry of an `Epoll` object. -/
inductive EpollCall (δ : Type*)
  | registerReadEvent (fd : ℕ) (eventDispatcher : δ)
  | registerWriteEvent (fd : ℕ) (eventDispatcher : δ)
  | unregisterReadEvent (fd : ℕ) (eventDispatcher : δ)
  | unregisterWriteEvent (fd : ℕ) (eventDispatcher : δ)
  | unregisterReadWriteEvent (fd : ℕ) (eventDispatcher : δ)

/-- Make a call. -/
def EpollCall.perform (e : Epoll δ) : EpollCall δ → Epoll δ
  | .registerReadEvent fd eventDispatcher => e.registerReadEvent fd eventDispatcher
  | .registerWriteEvent fd eventDispatcher => e.registerWriteEvent fd eventDispatcher
  | .unregisterReadEvent fd eventDispatcher => e.unregisterReadEvent fd eventDispatcher
  | .unregisterWriteEvent fd eventDispatcher => e.unregisterWriteEvent fd eventDispatcher
  | .unregisterReadWriteEvent fd eventDispatcher => e.unregisterReadWriteEvent fd eventDispatcher

/-- The runs of one `Epoll` object, from its construction until `crash()` is called. -/
def epollSystem : TransitionSystem (Epoll δ) (EpollCall δ) where
  init e := e = Epoll.empty
  step e call e' := e.crashed = false ∧ e' = call.perform e

namespace Epoll

/-- No `epoll_ctl` has failed, and what is recorded is what the kernel has, without empty masks. -/
structure Agrees (e : Epoll δ) : Prop where
  crashed : e.crashed = false
  fdEventFlags : ∀ fd, e.fdEventFlags fd = (e.interest fd).map Prod.fst
  ne_zero : ∀ fd, e.fdEventFlags fd ≠ some 0#32

/-- The call does not ask for an event of a descriptor that is recorded without it. -/
def AddsNoSecondEvent (e : Epoll δ) : EpollCall δ → Prop
  | .registerReadEvent fd _ => e.fdEventFlags fd = none ∨ e.HasEvent fd EPOLLIN
  | .registerWriteEvent fd _ => e.fdEventFlags fd = none ∨ e.HasEvent fd EPOLLOUT
  | _ => True

/-! ## One call -/

variable {e : Epoll δ} {fd : ℕ} {eventFlag bit : BitVec 32} {d : δ}

lemma agrees_empty : Agrees (empty : Epoll δ) :=
  ⟨rfl, fun _ => rfl, fun _ => by simp [empty]⟩

/-- A recorded descriptor is registered with the recorded mask. -/
lemma Agrees.interest_of_recorded (h : e.Agrees) (hflag : e.fdEventFlags fd = some eventFlag) :
    ∃ d, e.interest fd = some (eventFlag, d) := by
  have hflags := h.fdEventFlags fd
  rw [hflag] at hflags
  obtain ⟨⟨mask, d⟩, hinterest, hmask⟩ := Option.map_eq_some_iff.mp hflags.symm
  exact ⟨d, by rw [hinterest, ← hmask]⟩

/-- A descriptor without a record is not registered. -/
lemma Agrees.interest_of_not_recorded (h : e.Agrees) (hflag : e.fdEventFlags fd = none) :
    e.interest fd = none := by
  have hflags := h.fdEventFlags fd
  rw [hflag] at hflags
  exact Option.map_eq_none_iff.mp hflags.symm

/-- Changing the record and the kernel's entry of a descriptor together keeps the agreement. -/
lemma Agrees.update (h : e.Agrees) (fd : ℕ) {entry : Option (BitVec 32 × δ)}
    (hentry : entry.map Prod.fst ≠ some 0#32) :
    Agrees { e with
      fdEventFlags := Function.update e.fdEventFlags fd (entry.map Prod.fst)
      interest := Function.update e.interest fd entry } where
  crashed := h.crashed
  fdEventFlags fd' := by
    by_cases hfd : fd' = fd
    · subst hfd
      simp
    · simpa [Function.update_of_ne hfd] using h.fdEventFlags fd'
  ne_zero fd' := by
    by_cases hfd : fd' = fd
    · subst hfd
      simpa using hentry
    · simpa [Function.update_of_ne hfd] using h.ne_zero fd'

/-- Recording a mask and giving the kernel the same one keeps the agreement. -/
lemma Agrees.update_some (h : e.Agrees) (fd : ℕ) (d : δ) (hflag : eventFlag ≠ 0#32) :
    Agrees { e with
      fdEventFlags := Function.update e.fdEventFlags fd (some eventFlag)
      interest := Function.update e.interest fd (some (eventFlag, d)) } := by
  have hentry : (some (eventFlag, d)).map Prod.fst ≠ some 0#32 := by simpa using hflag
  exact h.update fd hentry

/-- So does forgetting the descriptor on both sides. -/
lemma Agrees.update_none (h : e.Agrees) (fd : ℕ) :
    Agrees { e with
      fdEventFlags := Function.update e.fdEventFlags fd none
      interest := Function.update e.interest fd none } := by
  have hentry : (none : Option (BitVec 32 × δ)).map Prod.fst ≠ some 0#32 := by simp
  exact h.update fd hentry

/-- An event is registered without a crash exactly if it is the first one recorded for the
descriptor, or recorded already. -/
lemma Agrees.registerEvent_iff (h : e.Agrees) (hbit : bit ≠ 0#32) :
    (e.registerEvent bit fd d).Agrees ↔ e.fdEventFlags fd = none ∨ e.HasEvent fd bit := by
  cases hflag : e.fdEventFlags fd with
  | none =>
    have hadd := h.update_some fd d hbit
    refine iff_of_true ?_ (Or.inl rfl)
    simpa only [registerEvent, hflag, ctl, h.interest_of_not_recorded hflag] using hadd
  | some eventFlag =>
    by_cases hmask : eventFlag &&& bit = 0#32
    · refine iff_of_false ?_ ?_
      · -- the kernel has the descriptor, so `EPOLL_CTL_ADD` fails
        obtain ⟨d', hinterest⟩ := h.interest_of_recorded hflag
        intro hagrees
        have hcrash := hagrees.crashed
        simp [registerEvent, hflag, hmask, ctl, hinterest] at hcrash
      · rintro (hnone | ⟨eventFlag', hflag', hmask'⟩)
        · cases hnone
        · rw [hflag] at hflag'
          cases hflag'
          exact hmask' hmask
    · have hevent : e.HasEvent fd bit := ⟨eventFlag, hflag, hmask⟩
      rw [registerEvent_of_hasEvent hevent]
      exact iff_of_true h (Or.inr hevent)

/-- Removing an event always agrees with the kernel, whether it was recorded or not. -/
lemma Agrees.unregisterEvent (h : e.Agrees) : (e.unregisterEvent bit fd d).Agrees := by
  cases hflag : e.fdEventFlags fd with
  | none => simpa only [Epoll.unregisterEvent, hflag] using h
  | some eventFlag =>
    obtain ⟨d', hinterest⟩ := h.interest_of_recorded hflag
    set left := if eventFlag &&& bit ≠ 0#32 then eventFlag &&& ~~~bit else eventFlag with hleft
    by_cases hzero : left = 0#32
    · have hdel := h.update_none fd
      simpa only [Epoll.unregisterEvent, hflag, ← hleft, if_pos hzero, ctl, hinterest] using hdel
    · have hmod := h.update_some fd d hzero
      simpa only [Epoll.unregisterEvent, hflag, ← hleft, if_neg hzero, ctl, hinterest] using hmod

/-- Dropping a descriptor always agrees with the kernel. -/
lemma Agrees.unregisterReadWriteEvent (h : e.Agrees) :
    (e.unregisterReadWriteEvent fd d).Agrees := by
  cases hflag : e.fdEventFlags fd with
  | none => simpa only [Epoll.unregisterReadWriteEvent, hflag] using h
  | some eventFlag =>
    obtain ⟨d', hinterest⟩ := h.interest_of_recorded hflag
    have hdel := h.update_none fd
    simpa only [Epoll.unregisterReadWriteEvent, hflag, ctl, hinterest] using hdel

/-- **A call keeps registry and kernel in agreement exactly if it asks for no second event.** -/
theorem Agrees.perform_iff (h : e.Agrees) (call : EpollCall δ) :
    (call.perform e).Agrees ↔ e.AddsNoSecondEvent call := by
  cases call with
  | registerReadEvent fd d => exact h.registerEvent_iff (by decide)
  | registerWriteEvent fd d => exact h.registerEvent_iff (by decide)
  | unregisterReadEvent fd d => exact iff_of_true h.unregisterEvent trivial
  | unregisterWriteEvent fd d => exact iff_of_true h.unregisterEvent trivial
  | unregisterReadWriteEvent fd d => exact iff_of_true h.unregisterReadWriteEvent trivial

/-! ## Sequences of calls -/

/-- **Registry and kernel agree after every call of a sequence, and none of them crashes, exactly
if no call asks for an event of a descriptor that is recorded without it.** -/
theorem agrees_iff_addsNoSecondEvent {tr : List (EpollCall δ × Epoll δ)}
    (hrun : epollSystem.Run (empty : Epoll δ) tr) :
    (∀ q ∈ tr, q.2.Agrees) ↔ TransitionSystem.Guarded AddsNoSecondEvent (empty : Epoll δ) tr := by
  refine hrun.forall_iff_guarded (I := fun _ => True) (fun _ _ _ _ _ => trivial) ?_ trivial
    agrees_empty
  rintro e call e' - hagrees ⟨-, rfl⟩
  exact hagrees.perform_iff call

/-- A descriptor that is registered for reading and dropped again. -/
theorem agrees_iff_addsNoSecondEvent_readOnly :
    Agrees (((empty : Epoll Unit).registerReadEvent 5 ()).unregisterReadWriteEvent 5 ()) := by
  have hrun : epollSystem.Run (empty : Epoll Unit)
      [(.registerReadEvent 5 (), (empty : Epoll Unit).registerReadEvent 5 ()),
        (.unregisterReadWriteEvent 5 (),
          ((empty : Epoll Unit).registerReadEvent 5 ()).unregisterReadWriteEvent 5 ())] :=
    .cons ⟨rfl, rfl⟩ (.cons ⟨rfl, rfl⟩ (.nil _))
  exact (agrees_iff_addsNoSecondEvent hrun).mpr ⟨Or.inl rfl, trivial, trivial⟩ _
    (List.mem_cons_of_mem _ (List.mem_singleton_self _))

/-- Asking for the write event of a descriptor that is registered for reading crashes the
server. -/
theorem exists_crash_of_second_event :
    ¬ ∀ e : Epoll Unit, epollSystem.Reachable e → e.Agrees := by
  intro h
  have hread := TransitionSystem.Reachable.tail
    (TransitionSystem.Reachable.of_init (T := epollSystem) (s := (empty : Epoll Unit)) rfl)
    (l := .registerReadEvent 5 ()) ⟨rfl, rfl⟩
  have hwrite := hread.tail (l := .registerWriteEvent 5 ()) ⟨rfl, rfl⟩
  have hcrash := (h _ hwrite).crashed
  exact absurd hcrash (by decide)

end Epoll

end Calc24
