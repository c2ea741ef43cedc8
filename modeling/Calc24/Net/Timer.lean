import Mathlib

/-!
# Timers of an event loop

`class Timer` (`net/Timer.cpp`) and the timer members of `class EventLoop` (`net/EventLoop.cpp`):
the list `m_timers`, the two lists that take requests made while `checkAndDoTimers` is running,
and the flag `m_isCheckTimers` that tells the two situations apart.

The vectors hold shared pointers.  An entry is therefore the part of a `Timer` object that never
changes, together with the address of the object; the one member that changes,
`m_nextTriggeredTimeMs`, is kept in a table under that address, so that two entries with the same
pointer share it.

The callbacks of a pass may do anything to the state they run in, and in particular request
timers.  `checkAndDoTimers` is therefore written over any state `S` that hosts the timer members
of the loop (`TimerHost`).
-/

namespace Calc24

/-- `enum class TimerMode`. -/
inductive TimerMode
  | fixedInterval
  | fixedDelay
  deriving DecidableEq, Repr

/-- `class Timer`, without `m_nextTriggeredTimeMs`; `object` is the address of the object and
`τ` the type of the callbacks. -/
structure Timer (τ : Type*) where
  object : ℕ
  id : Int64
  intervalMs : ℤ
  repeated : Bool
  repeatedCount : ℤ
  timerTask : τ
  mode : TimerMode
  deriving DecidableEq, Repr

/-- The next due time that `Timer::doTimer` sets before it calls the callback, when it is called
at `nowMs` on a timer that is due at `next`. -/
def Timer.nextDue {τ : Type*} (t : Timer τ) (nowMs next : ℤ) : ℤ :=
  if t.repeated then
    match t.mode with
    | .fixedInterval => next + t.intervalMs
    | .fixedDelay => nowMs + t.intervalMs
  else next

/-- The timer members of `class EventLoop`, with the due times of the timer objects. -/
structure LoopTimers (τ : Type*) where
  isCheckTimers : Bool
  timers : List (Timer τ)
  pendingAddTimers : List (Timer τ)
  pendingRemoveTimers : List Int64
  nextTriggeredTimeMs : ℕ → ℤ

namespace LoopTimers

variable {τ : Type*}

/-- A loop without timers. -/
def empty : LoopTimers τ where
  isCheckTimers := false
  timers := []
  pendingAddTimers := []
  pendingRemoveTimers := []
  nextTriggeredTimeMs := fun _ => 0

/-- The ids of the entries of `m_timers`. -/
def ids (s : LoopTimers τ) : List Int64 :=
  s.timers.map Timer.id

/-- `EventLoop::addTimerInternal` on the thread of the loop. -/
def addTimerInternal (spTimer : Timer τ) (s : LoopTimers τ) : LoopTimers τ :=
  if s.isCheckTimers then { s with pendingAddTimers := s.pendingAddTimers ++ [spTimer] }
  else { s with timers := s.timers ++ [spTimer] }

/-- `EventLoop::removeTimerInternal` on the thread of the loop: outside a pass the first entry
with the id goes. -/
def removeTimerInternal (timerID : Int64) (s : LoopTimers τ) : LoopTimers τ :=
  if s.isCheckTimers then { s with pendingRemoveTimers := s.pendingRemoveTimers ++ [timerID] }
  else { s with timers := s.timers.eraseP fun t => t.id == timerID }

/-- The constructor of `Timer` sets the first due time. -/
def construct (object : ℕ) (due : ℤ) (s : LoopTimers τ) : LoopTimers τ :=
  { s with nextTriggeredTimeMs := Function.update s.nextTriggeredTimeMs object due }

/-- Set the flag that a pass is going on. -/
def setIsCheckTimers (value : Bool) (s : LoopTimers τ) : LoopTimers τ :=
  { s with isCheckTimers := value }

/-- The part of `Timer::doTimer` before the callback. -/
def advance (t : Timer τ) (nowMs : ℤ) (s : LoopTimers τ) : LoopTimers τ :=
  { s with
    nextTriggeredTimeMs := Function.update s.nextTriggeredTimeMs t.object
      (t.nextDue nowMs (s.nextTriggeredTimeMs t.object)) }

/-- The test of `checkAndDoTimers` on an entry. -/
def IsDue (s : LoopTimers τ) (nowMs : ℤ) (t : Timer τ) : Prop :=
  s.nextTriggeredTimeMs t.object ≤ nowMs

instance (s : LoopTimers τ) (nowMs : ℤ) (t : Timer τ) : Decidable (s.IsDue nowMs t) :=
  inferInstanceAs (Decidable (_ ≤ _))

/-! ### Requests inside and outside a pass -/

/-- The entries of the list, and those on their way there. -/
def entries (s : LoopTimers τ) : List (Timer τ) :=
  s.timers ++ s.pendingAddTimers

variable {s : LoopTimers τ} {t spTimer : Timer τ} {timerID : Int64}

/-- Outside a pass a timer is added at once, at the end. -/
lemma addTimerInternal_of_idle (h : s.isCheckTimers = false) :
    s.addTimerInternal spTimer = { s with timers := s.timers ++ [spTimer] } := by
  simp [addTimerInternal, h]

/-- Within a pass a timer waits to be added. -/
lemma addTimerInternal_of_checking (h : s.isCheckTimers = true) :
    s.addTimerInternal spTimer =
      { s with pendingAddTimers := s.pendingAddTimers ++ [spTimer] } := by
  simp [addTimerInternal, h]

/-- Outside a pass a timer is removed at once, the first one with the id. -/
lemma removeTimerInternal_of_idle (h : s.isCheckTimers = false) :
    s.removeTimerInternal timerID =
      { s with timers := s.timers.eraseP fun t => t.id == timerID } := by
  simp [removeTimerInternal, h]

/-- Within a pass an id waits to be removed. -/
lemma removeTimerInternal_of_checking (h : s.isCheckTimers = true) :
    s.removeTimerInternal timerID =
      { s with pendingRemoveTimers := s.pendingRemoveTimers ++ [timerID] } := by
  simp [removeTimerInternal, h]

/-- Outside a pass a timer is put at the end of the list. -/
lemma ids_addTimerInternal_of_idle (h : s.isCheckTimers = false) :
    (s.addTimerInternal spTimer).ids = s.ids ++ [spTimer.id] := by
  rw [addTimerInternal_of_idle h, ids, ids, List.map_append, List.map_singleton]

/-- The ids that a removal leaves. -/
lemma map_id_eraseP (timers : List (Timer τ)) (timerID : Int64) :
    (timers.eraseP fun t => t.id == timerID).map Timer.id =
      (timers.map Timer.id).erase timerID := by
  have hpred : (fun t : Timer τ => t.id == timerID) = (fun i => timerID == i) ∘ Timer.id := by
    funext t
    exact Bool.beq_comm
  rw [List.erase_eq_eraseP, List.eraseP_map, hpred]

/-- Outside a pass the first entry with the id is taken out of the list. -/
lemma ids_removeTimerInternal_of_idle (h : s.isCheckTimers = false) :
    (s.removeTimerInternal timerID).ids = s.ids.erase timerID := by
  rw [removeTimerInternal_of_idle h]
  exact map_id_eraseP s.timers timerID

/-- Take the first entry with each of the ids out of a list. -/
def removeAll (removals : List Int64) (timers : List (Timer τ)) : List (Timer τ) :=
  removals.foldl (fun timers timerID => timers.eraseP fun t => t.id == timerID) timers

/-- Removals keep the order of what stays. -/
lemma removeAll_sublist (removals : List Int64) (timers : List (Timer τ)) :
    (removeAll removals timers).Sublist timers := by
  induction removals generalizing timers with
  | nil => exact List.Sublist.refl _
  | cons timerID removals ih => exact (ih _).trans List.eraseP_sublist

/-- A removed id that did not occur twice is gone. -/
lemma not_mem_removeAll {removals : List Int64} {timers : List (Timer τ)} {id : Int64}
    (h : (timers.map Timer.id).count id ≤ 1) (hid : id ∈ removals) :
    id ∉ (removeAll removals timers).map Timer.id := by
  induction removals generalizing timers with
  | nil => cases hid
  | cons timerID removals ih =>
    have herase := map_id_eraseP timers timerID
    rw [removeAll, List.foldl_cons]
    rcases List.mem_cons.mp hid with rfl | hid
    · intro hmem
      have hmem' := ((removeAll_sublist removals _).map Timer.id).subset hmem
      rw [herase, ← List.count_pos_iff, List.count_erase_self] at hmem'
      omega
    · refine ih ?_ hid
      rw [herase]
      exact ((List.erase_sublist).count_le id).trans h

/-- What a removal can do to the timers of a loop: fewer entries, or more pending removals. -/
structure Shrinks (x x' : LoopTimers τ) : Prop where
  timers : x'.timers.Sublist x.timers
  isCheckTimers : x'.isCheckTimers = x.isCheckTimers
  pendingAddTimers : x'.pendingAddTimers = x.pendingAddTimers
  pendingRemoveTimers : x.pendingRemoveTimers ⊆ x'.pendingRemoveTimers

lemma Shrinks.refl (x : LoopTimers τ) : Shrinks x x :=
  ⟨List.Sublist.refl _, rfl, rfl, List.Subset.refl _⟩

/-- A removal adds nothing. -/
lemma shrinks_removeTimerInternal (x : LoopTimers τ) (timerID : Int64) :
    Shrinks x (x.removeTimerInternal timerID) := by
  cases h : x.isCheckTimers
  · rw [removeTimerInternal_of_idle h]
    exact ⟨List.eraseP_sublist, rfl, rfl, List.Subset.refl _⟩
  · rw [removeTimerInternal_of_checking h]
    exact ⟨List.Sublist.refl _, rfl, rfl, List.subset_append_left _ _⟩

/-- After a removal an entry with the id is left only to go at the end of the pass. -/
lemma pending_of_mem_removeTimerInternal {x : LoopTimers τ} (honce : x.ids.count timerID ≤ 1)
    (ht : t ∈ (x.removeTimerInternal timerID).timers) (hid : t.id = timerID) :
    x.isCheckTimers = true ∧ timerID ∈ (x.removeTimerInternal timerID).pendingRemoveTimers := by
  cases h : x.isCheckTimers
  · have hmem : t.id ∈ (x.removeTimerInternal timerID).ids := List.mem_map_of_mem ht
    rw [ids_removeTimerInternal_of_idle h, hid, ← List.count_pos_iff,
      List.count_erase_self] at hmem
    omega
  · rw [removeTimerInternal_of_checking h]
    exact ⟨rfl, List.mem_append_right _ (List.mem_singleton_self _)⟩

@[simp] lemma addTimerInternal_isCheckTimers :
    (s.addTimerInternal spTimer).isCheckTimers = s.isCheckTimers := by
  unfold addTimerInternal
  split <;> rfl

@[simp] lemma removeTimerInternal_isCheckTimers :
    (s.removeTimerInternal timerID).isCheckTimers = s.isCheckTimers := by
  unfold removeTimerInternal
  split <;> rfl

/-- An added timer is the only new entry. -/
lemma mem_entries_addTimerInternal :
    t ∈ (s.addTimerInternal spTimer).entries ↔ t ∈ s.entries ∨ t = spTimer := by
  cases h : s.isCheckTimers
  · rw [addTimerInternal_of_idle h]
    simp only [entries, List.mem_append, List.mem_singleton]
    tauto
  · rw [addTimerInternal_of_checking h]
    simp only [entries, List.mem_append, List.mem_singleton]
    tauto

/-- A removal makes no new entry. -/
lemma entries_removeTimerInternal_subset :
    (s.removeTimerInternal timerID).entries ⊆ s.entries := by
  cases h : s.isCheckTimers
  · rw [removeTimerInternal_of_idle h]
    intro t ht
    rcases List.mem_append.mp ht with ht | ht
    · exact List.mem_append_left _ (List.mem_of_mem_eraseP ht)
    · exact List.mem_append_right _ ht
  · rw [removeTimerInternal_of_checking h]
    exact List.Subset.refl _

end LoopTimers

/-! ## A pass over the timers -/

/-- A state in which the timer members of one event loop can be read and replaced. -/
structure TimerHost (S τ : Type*) where
  get : S → LoopTimers τ
  set : LoopTimers τ → S → S
  get_set : ∀ x s, get (set x s) = x

namespace TimerHost

variable {S τ : Type*} (H : TimerHost S τ)

/-- Change the timer members. -/
def modify (f : LoopTimers τ → LoopTimers τ) (s : S) : S :=
  H.set (f (H.get s)) s

@[simp] lemma get_modify (f : LoopTimers τ → LoopTimers τ) (s : S) :
    H.get (H.modify f s) = f (H.get s) :=
  H.get_set _ _

/-- The loop of `checkAndDoTimers` over `m_timers`, with the iterator at index `i`.  `task i t`
is what the callback of the entry `t` met there does.  The list is read anew in each round, as
`m_timers.end()` is; `rounds` bounds the number of rounds. -/
def visit (task : ℕ → Timer τ → S → S) (nowMs : ℤ) : ℕ → ℕ → S → S
  | 0, _, s => s
  | rounds + 1, i, s =>
    match (H.get s).timers[i]? with
    | none => s
    | some t =>
      if (H.get s).IsDue nowMs t then
        visit task nowMs rounds (i + 1) (task i t (H.modify (LoopTimers.advance t nowMs) s))
      else visit task nowMs rounds (i + 1) s

/-- The end of `checkAndDoTimers`: the pending lists are applied, the removals first.  Neither
list is cleared. -/
def replayPending (s : S) : S :=
  let s := (H.get s).pendingRemoveTimers.foldl
    (fun s timerID => H.modify (LoopTimers.removeTimerInternal timerID) s) s
  (H.get s).pendingAddTimers.foldl
    (fun s spTimer => H.modify (LoopTimers.addTimerInternal spTimer) s) s

/-- `EventLoop::checkAndDoTimers`. -/
def checkAndDoTimers (task : ℕ → Timer τ → S → S) (nowMs : ℤ) (s : S) : S :=
  let s := H.modify (LoopTimers.setIsCheckTimers true) s
  let s := H.visit task nowMs (H.get s).timers.length 0 s
  H.replayPending (H.modify (LoopTimers.setIsCheckTimers false) s)

/-- Outside a pass removals take effect one after another. -/
lemma get_foldl_removeTimerInternal (removals : List Int64) (s : S)
    (hidle : (H.get s).isCheckTimers = false) :
    H.get (removals.foldl
        (fun s timerID => H.modify (LoopTimers.removeTimerInternal timerID) s) s) =
      { H.get s with timers := LoopTimers.removeAll removals (H.get s).timers } := by
  induction removals generalizing s with
  | nil => rfl
  | cons timerID removals ih =>
    have hget := H.get_modify (LoopTimers.removeTimerInternal timerID) s
    rw [LoopTimers.removeTimerInternal_of_idle hidle] at hget
    rw [List.foldl_cons, ih _ (by rw [hget]; exact hidle), hget]
    rfl

/-- And so do insertions. -/
lemma get_foldl_addTimerInternal (additions : List (Timer τ)) (s : S)
    (hidle : (H.get s).isCheckTimers = false) :
    H.get (additions.foldl
        (fun s spTimer => H.modify (LoopTimers.addTimerInternal spTimer) s) s) =
      { H.get s with timers := (H.get s).timers ++ additions } := by
  induction additions generalizing s with
  | nil => simp
  | cons spTimer additions ih =>
    have hget := H.get_modify (LoopTimers.addTimerInternal spTimer) s
    rw [LoopTimers.addTimerInternal_of_idle hidle] at hget
    rw [List.foldl_cons, ih _ (by rw [hget]; exact hidle), hget]
    simp

/-- Outside a pass the pending removals are applied, and then the pending insertions. -/
lemma get_replayPending (s : S) (hidle : (H.get s).isCheckTimers = false) :
    H.get (H.replayPending s) = { H.get s with
      timers := LoopTimers.removeAll (H.get s).pendingRemoveTimers (H.get s).timers ++
        (H.get s).pendingAddTimers } := by
  have hremoved := H.get_foldl_removeTimerInternal (H.get s).pendingRemoveTimers s hidle
  simp only [replayPending]
  rw [H.get_foldl_addTimerInternal _ _ (by rw [hremoved]; exact hidle), hremoved]

/-! ## Invariants of a pass -/

variable {task : ℕ → Timer τ → S → S} {nowMs : ℤ} {I : S → Prop}

/-- What every call of a due callback keeps is kept by the loop over the timers. -/
lemma visit_invariant
    (hcall : ∀ i t s, I s → (H.get s).timers[i]? = some t → (H.get s).IsDue nowMs t →
      I (task i t (H.modify (LoopTimers.advance t nowMs) s)))
    (rounds i : ℕ) (s : S) (h : I s) : I (H.visit task nowMs rounds i s) := by
  induction rounds generalizing i s with
  | zero => exact h
  | succ rounds ih =>
    rw [visit]
    split
    · exact h
    · next t ht =>
      split
      · next hdue => exact ih _ _ (hcall i t s h ht hdue)
      · exact ih _ _ h

/-- What a removal and the insertion of a pending timer keep is kept when the pending lists are
applied. -/
lemma replayPending_invariant (hidle : ∀ s, I s → (H.get s).isCheckTimers = false)
    (hremove : ∀ timerID s, I s → I (H.modify (LoopTimers.removeTimerInternal timerID) s))
    (hadd : ∀ spTimer s, I s → spTimer ∈ (H.get s).pendingAddTimers →
      I (H.modify (LoopTimers.addTimerInternal spTimer) s))
    (s : S) (h : I s) : I (H.replayPending s) := by
  have hremoved : I ((H.get s).pendingRemoveTimers.foldl
      (fun s timerID => H.modify (LoopTimers.removeTimerInternal timerID) s) s) :=
    List.foldlRecOn _ _ h fun s hs timerID _ => hremove timerID s hs
  -- outside a pass an insertion leaves the pending lists alone
  refine (List.foldlRecOn (motive := fun s' => I s' ∧ (H.get s').pendingAddTimers = _) _ _
    ⟨hremoved, rfl⟩ ?_).1
  rintro s ⟨hs, hpending⟩ spTimer hmem
  refine ⟨hadd spTimer s hs (hpending ▸ hmem), ?_⟩
  rw [get_modify, LoopTimers.addTimerInternal_of_idle (hidle s hs)]
  exact hpending

/-- The invariant rule for a pass: `I` holds between passes and `J` during one. -/
lemma checkAndDoTimers_invariant {J : S → Prop}
    (hstart : ∀ s, I s → J (H.modify (LoopTimers.setIsCheckTimers true) s))
    (hcall : ∀ i t s, J s → (H.get s).timers[i]? = some t → (H.get s).IsDue nowMs t →
      J (task i t (H.modify (LoopTimers.advance t nowMs) s)))
    (hstop : ∀ s, J s → I (H.modify (LoopTimers.setIsCheckTimers false) s))
    (hidle : ∀ s, I s → (H.get s).isCheckTimers = false)
    (hremove : ∀ timerID s, I s → I (H.modify (LoopTimers.removeTimerInternal timerID) s))
    (hadd : ∀ spTimer s, I s → spTimer ∈ (H.get s).pendingAddTimers →
      I (H.modify (LoopTimers.addTimerInternal spTimer) s))
    (s : S) (h : I s) : I (H.checkAndDoTimers task nowMs s) :=
  H.replayPending_invariant hidle hremove hadd _
    (hstop _ (H.visit_invariant hcall _ _ _ (hstart s h)))

end TimerHost

end Calc24
