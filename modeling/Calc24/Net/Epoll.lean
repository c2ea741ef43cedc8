import Calc24.Net.ByteBuffer

/-!
# `Epoll`

The epoll wrapper of an event loop (`net/Epoll.cpp`): the cached event mask `m_fdEventFlags` of
every file descriptor, and beside it the interest list that the kernel keeps for `m_epollfd`.
`EPOLL_CTL_ADD` fails on a registered descriptor, `EPOLL_CTL_MOD` and `EPOLL_CTL_DEL` on an
unregistered one, and a failing `epoll_ctl` ends in `crash()`.

The parameter `δ` is the type of the dispatcher pointers handed back by `epoll_wait`.
-/

namespace Calc24

/-- `EPOLLIN`. -/
def EPOLLIN : BitVec 32 := 0x1#32

/-- `EPOLLOUT`. -/
def EPOLLOUT : BitVec 32 := 0x4#32

/-- The operation argument of `epoll_ctl`. -/
inductive EpollCtl
  | add
  | mod
  | del
  deriving DecidableEq, Repr

/-- `class Epoll`, with the kernel's interest list for its `m_epollfd`. -/
structure Epoll (δ : Type*) where
  fdEventFlags : ℕ → Option (BitVec 32)
  interest : ℕ → Option (BitVec 32 × δ)
  crashed : Bool

namespace Epoll

variable {δ : Type*}

/-- A fresh epoll instance: nothing is registered. -/
def empty : Epoll δ where
  fdEventFlags := fun _ => none
  interest := fun _ => none
  crashed := false

/-- `epoll_ctl`, with `crash()` called when it fails. -/
def ctl (e : Epoll δ) (operation : EpollCtl) (fd : ℕ) (event : BitVec 32 × δ) : Epoll δ :=
  match operation, e.interest fd with
  | .add, none => { e with interest := Function.update e.interest fd (some event) }
  | .mod, some _ => { e with interest := Function.update e.interest fd (some event) }
  | .del, some _ => { e with interest := Function.update e.interest fd none }
  | _, _ => { e with crashed := true }

/-- The common body of `registerReadEvent` and `registerWriteEvent`: add one event bit to the
cached mask of `fd` and register the new mask with `EPOLL_CTL_ADD`. -/
def registerEvent (bit : BitVec 32) (e : Epoll δ) (fd : ℕ) (eventDispatcher : δ) : Epoll δ :=
  match e.fdEventFlags fd with
  | none =>
    { e with fdEventFlags := Function.update e.fdEventFlags fd (some bit) }.ctl
      .add fd (bit, eventDispatcher)
  | some eventFlag =>
    if eventFlag &&& bit ≠ 0#32 then e
    else
      { e with fdEventFlags := Function.update e.fdEventFlags fd (some (eventFlag ||| bit)) }.ctl
        .add fd (eventFlag ||| bit, eventDispatcher)

/-- The common body of `unregisterReadEvent` and `unregisterWriteEvent`: clear one event bit, and
drop the descriptor once no bit is left. -/
def unregisterEvent (bit : BitVec 32) (e : Epoll δ) (fd : ℕ) (eventDispatcher : δ) : Epoll δ :=
  match e.fdEventFlags fd with
  | none => e
  | some eventFlag =>
    let eventFlag := if eventFlag &&& bit ≠ 0#32 then eventFlag &&& ~~~bit else eventFlag
    if eventFlag = 0#32 then
      { e with fdEventFlags := Function.update e.fdEventFlags fd none }.ctl
        .del fd (eventFlag, eventDispatcher)
    else
      { e with fdEventFlags := Function.update e.fdEventFlags fd (some eventFlag) }.ctl
        .mod fd (eventFlag, eventDispatcher)

def registerReadEvent : Epoll δ → ℕ → δ → Epoll δ :=
  registerEvent EPOLLIN

def registerWriteEvent : Epoll δ → ℕ → δ → Epoll δ :=
  registerEvent EPOLLOUT

def unregisterReadEvent : Epoll δ → ℕ → δ → Epoll δ :=
  unregisterEvent EPOLLIN

def unregisterWriteEvent : Epoll δ → ℕ → δ → Epoll δ :=
  unregisterEvent EPOLLOUT

/-- Drop the descriptor with all its events. -/
def unregisterReadWriteEvent (e : Epoll δ) (fd : ℕ) (eventDispatcher : δ) : Epoll δ :=
  match e.fdEventFlags fd with
  | none => e
  | some _ =>
    { e with fdEventFlags := Function.update e.fdEventFlags fd none }.ctl
      .del fd (0#32, eventDispatcher)

/-- The interest recorded for `fd` contains the event bit. -/
def HasEvent (e : Epoll δ) (fd : ℕ) (bit : BitVec 32) : Prop :=
  ∃ eventFlag, e.fdEventFlags fd = some eventFlag ∧ eventFlag &&& bit ≠ 0#32

/-! ## The cached masks -/

variable {e : Epoll δ} {fd fd' : ℕ} {bit : BitVec 32} {d : δ}

/-- `epoll_ctl` does not touch the cached masks. -/
@[simp] lemma ctl_fdEventFlags (e : Epoll δ) (operation : EpollCtl) (fd : ℕ)
    (event : BitVec 32 × δ) : (e.ctl operation fd event).fdEventFlags = e.fdEventFlags := by
  unfold ctl
  split <;> rfl

/-- Registering an event that is recorded already changes nothing. -/
lemma registerEvent_of_hasEvent (h : e.HasEvent fd bit) : e.registerEvent bit fd d = e := by
  obtain ⟨eventFlag, hflag, hbit⟩ := h
  simp only [registerEvent, hflag, if_pos hbit]

/-! ## The kernel's interest list -/

/-- `epoll_ctl` registers the event, drops the descriptor, or fails. -/
lemma ctl_cases (e : Epoll δ) (operation : EpollCtl) (fd : ℕ) (event : BitVec 32 × δ) :
    (e.ctl operation fd event).interest = Function.update e.interest fd (some event) ∨
      (e.ctl operation fd event).interest = Function.update e.interest fd none ∨
      (e.ctl operation fd event).interest = e.interest := by
  unfold ctl
  split
  · exact Or.inl rfl
  · exact Or.inl rfl
  · exact Or.inr (Or.inl rfl)
  · exact Or.inr (Or.inr rfl)

/-- What `epoll_ctl` registers carries the dispatcher it was called with. -/
lemma ctl_interest {operation : EpollCtl} {event x : BitVec 32 × δ}
    (h : (e.ctl operation fd event).interest fd' = some x) :
    x.2 = event.2 ∨ e.interest fd' = some x := by
  by_cases hfd : fd' = fd
  · subst hfd
    rcases ctl_cases e operation fd' event with hadd | hdrop | hfail
    · rw [hadd, Function.update_self] at h
      exact Or.inl (congrArg Prod.snd (Option.some.inj h)).symm
    · rw [hdrop, Function.update_self] at h
      cases h
    · rw [hfail] at h
      exact Or.inr h
  · refine Or.inr ?_
    rcases ctl_cases e operation fd event with hadd | hdrop | hfail
    · rwa [hadd, Function.update_of_ne hfd] at h
    · rwa [hdrop, Function.update_of_ne hfd] at h
    · rwa [hfail] at h

/-- Registering an event puts the dispatcher itself into the interest list, and nobody else. -/
lemma registerEvent_interest {x : BitVec 32 × δ}
    (h : (e.registerEvent bit fd d).interest fd' = some x) :
    x.2 = d ∨ e.interest fd' = some x := by
  unfold registerEvent at h
  split at h
  · exact ctl_interest h
  · split at h
    · exact Or.inr h
    · exact ctl_interest h

lemma unregisterEvent_interest {x : BitVec 32 × δ}
    (h : (e.unregisterEvent bit fd d).interest fd' = some x) :
    x.2 = d ∨ e.interest fd' = some x := by
  unfold unregisterEvent at h
  split at h
  · exact Or.inr h
  · next eventFlag _ =>
    by_cases hzero : (if eventFlag &&& bit ≠ 0#32 then eventFlag &&& ~~~bit else eventFlag) = 0#32
    · simp only [hzero, if_true] at h
      exact ctl_interest h
    · simp only [hzero, if_false] at h
      exact ctl_interest h

lemma unregisterReadWriteEvent_interest {x : BitVec 32 × δ}
    (h : (e.unregisterReadWriteEvent fd d).interest fd' = some x) :
    x.2 = d ∨ e.interest fd' = some x := by
  unfold unregisterReadWriteEvent at h
  split at h
  · exact Or.inr h
  · exact ctl_interest h

end Epoll

end Calc24
