import Calc24.Lib.TransitionSystem

/-!
# Timer ids

`Timer::geneateTimerID` (`net/Timer.cpp`) counts a static `std::atomic<int64_t>` up and then reads
it, and these are two atomic operations.  Timers are constructed on the base thread, for new
sessions, and on the worker threads, for sessions that are reset, so any number of threads may be
between the two.

The ids returned are pairwise distinct exactly in the runs in which some thread has counted
`baseID` up since the last time it was read, whenever it is read
(`nodup_returned_iff_incremented`).  A call that no other call interrupts returns the next number
(`next_load_of_uninterrupted`).
-/

namespace Calc24

/-- Values of a counter which has not come round. -/
lemma Int64.ofNat_inj_of_lt {m n : ℕ} (hm : m < 2 ^ 64) (hn : n < 2 ^ 64) :
    Int64.ofNat m = Int64.ofNat n ↔ m = n := by
  constructor
  · intro h
    have hbits := congrArg (fun x : Int64 => x.toBitVec.toNat) h
    simp only [Int64.toBitVec_ofNat', BitVec.toNat_ofNat] at hbits
    rwa [Nat.mod_eq_of_lt hm, Nat.mod_eq_of_lt hn] at hbits
  · rintro rfl
    rfl

/-- The counter `baseID`, and the threads that are between counting it up and reading it.  The
other fields are ghosts: the ids returned, the latest one first, and how often `baseID` was
counted up, so far and until it was last read. -/
structure TimerIds (T : Type*) where
  baseID : Int64
  incremented : T → Bool
  returned : List Int64
  increments : ℕ
  incrementsAtLoad : ℕ

/-- The two atomic operations of `Timer::geneateTimerID`. -/
inductive TimerIdStep (T : Type*)
  | increment (thread : T)
  | load (thread : T)

namespace TimerIds

variable {T : Type*} [DecidableEq T]

/-- Before the first timer. -/
def init : TimerIds T where
  baseID := 0
  incremented := fun _ => false
  returned := []
  increments := 0
  incrementsAtLoad := 0

/-- One operation, where the thread has come to it. -/
def next (s : TimerIds T) : TimerIdStep T → Option (TimerIds T)
  | .increment thread =>
    if s.incremented thread = false then
      some { s with
        baseID := s.baseID + 1
        incremented := Function.update s.incremented thread true
        increments := s.increments + 1 }
    else none
  | .load thread =>
    if s.incremented thread = true then
      some { s with
        incremented := Function.update s.incremented thread false
        returned := s.baseID :: s.returned
        incrementsAtLoad := s.increments }
    else none

/-- The runs of any number of threads that call `geneateTimerID` less than `2 ^ 63` times. -/
def system : TransitionSystem (TimerIds T) (TimerIdStep T) where
  init s := s = TimerIds.init
  step s l s' := s.next l = some s' ∧ s'.increments < 2 ^ 63

/-- When `baseID` is read, some thread has counted it up since it was read last. -/
def Incremented (s : TimerIds T) : TimerIdStep T → Prop
  | .load _ => s.incrementsAtLoad < s.increments
  | .increment _ => True

/-! ## The counter -/

/-- What the counter says about the ids returned. -/
structure Counted (s : TimerIds T) : Prop where
  bound : s.increments < 2 ^ 63
  baseID : s.baseID = Int64.ofNat s.increments
  started : ∀ thread, s.incremented thread = true → 0 < s.increments
  atLoad : s.incrementsAtLoad ≤ s.increments
  returned : ∀ id ∈ s.returned, ∃ n, n ≤ s.incrementsAtLoad ∧ id = Int64.ofNat n
  last : 0 < s.incrementsAtLoad → Int64.ofNat s.incrementsAtLoad ∈ s.returned

omit [DecidableEq T] in
lemma counted_init : Counted (init : TimerIds T) where
  bound := Nat.two_pow_pos 63
  baseID := rfl
  started _ h := by cases h
  atLoad := Nat.le_refl 0
  returned _ h := by cases h
  last h := by cases h

variable {s s' : TimerIds T} {l : TimerIdStep T} {thread : T}

/-- Both operations as what they do to the state. -/
lemma step_cases (h : system.step s l s') :
    (∃ thread, l = .increment thread ∧ s.increments + 1 < 2 ^ 63 ∧
      s' = { s with
        baseID := s.baseID + 1
        incremented := Function.update s.incremented thread true
        increments := s.increments + 1 }) ∨
    (∃ thread, l = .load thread ∧ s.incremented thread = true ∧
      s' = { s with
        incremented := Function.update s.incremented thread false
        returned := s.baseID :: s.returned
        incrementsAtLoad := s.increments }) := by
  obtain ⟨h, hbound⟩ := h
  cases l with
  | increment thread =>
    obtain ⟨-, heq⟩ := Option.ite_none_right_eq_some.mp h
    cases heq
    exact Or.inl ⟨thread, rfl, hbound, rfl⟩
  | load thread =>
    obtain ⟨hthread, heq⟩ := Option.ite_none_right_eq_some.mp h
    cases heq
    exact Or.inr ⟨thread, rfl, hthread, rfl⟩

/-- The counter keeps counting. -/
lemma Counted.step (hs : Counted s) (h : system.step s l s') : Counted s' := by
  rcases step_cases h with ⟨thread, rfl, hbound, rfl⟩ | ⟨thread, rfl, hthread, rfl⟩
  · refine ⟨hbound, ?_, fun _ _ => Nat.succ_pos _, ?_, hs.returned, hs.last⟩
    · have hcount := hs.baseID
      simp only [hcount, Int64.ofNat_add]
      rfl
    · have hle := hs.atLoad
      show s.incrementsAtLoad ≤ s.increments + 1
      omega
  · refine ⟨hs.bound, hs.baseID, fun _ _ => hs.started thread hthread, Nat.le_refl _, ?_, ?_⟩
    · intro id hid
      rcases List.mem_cons.mp hid with rfl | hid
      · exact ⟨s.increments, Nat.le_refl _, hs.baseID⟩
      · obtain ⟨n, hn, rfl⟩ := hs.returned id hid
        exact ⟨n, hn.trans hs.atLoad, rfl⟩
    · intro _
      rw [← hs.baseID]
      exact List.mem_cons_self

omit [DecidableEq T] in
/-- The value of `baseID` has been returned before exactly if nobody has counted it up since it
was read last. -/
lemma Counted.baseID_not_mem_iff (hs : Counted s) (hthread : s.incremented thread = true) :
    s.baseID ∉ s.returned ↔ s.incrementsAtLoad < s.increments := by
  have hbound := hs.bound
  have hle := hs.atLoad
  rw [hs.baseID]
  constructor
  · intro hfresh
    by_contra hnone
    have heq : s.incrementsAtLoad = s.increments := by omega
    have hpos := hs.started thread hthread
    have hlast := hs.last (by omega)
    rw [heq] at hlast
    exact hfresh hlast
  · intro hlt hmem
    obtain ⟨n, hn, heq⟩ := hs.returned _ hmem
    rw [Int64.ofNat_inj_of_lt (by omega) (by omega)] at heq
    omega

/-! ## Distinct ids -/

/-- A step keeps the ids distinct exactly if a thread that reads `baseID` finds it counted up. -/
theorem nodup_step_iff (hs : Counted s) (hnodup : s.returned.Nodup) (h : system.step s l s') :
    s'.returned.Nodup ↔ Incremented s l := by
  rcases step_cases h with ⟨thread, rfl, -, rfl⟩ | ⟨thread, rfl, hthread, rfl⟩
  · exact iff_of_true hnodup trivial
  · have hfresh := hs.baseID_not_mem_iff hthread
    simp only [Incremented, List.nodup_cons]
    tauto

/-- **The ids returned are pairwise distinct exactly if `baseID` is never read twice without being
counted up in between.** -/
theorem nodup_returned_iff_incremented {tr : List (TimerIdStep T × TimerIds T)}
    (hrun : system.Run (init : TimerIds T) tr) :
    (∀ q ∈ tr, q.2.returned.Nodup) ↔
      TransitionSystem.Guarded Incremented (init : TimerIds T) tr :=
  hrun.forall_iff_guarded (I := Counted) (P := fun s => s.returned.Nodup)
    (fun _ _ _ hs h => hs.step h)
    (fun _ _ _ hs hnodup h => nodup_step_iff hs hnodup h) counted_init List.nodup_nil

/-- Two threads draw two ids each: first one after the other, and then at the same time, where one
of them begins a third call before the last id is read. -/
def twoThreads : List (TimerIdStep Bool) :=
  [.increment false, .load false, .increment true, .load true, .increment false, .increment true,
    .load false, .increment false, .load true]

/-- They get four different ids. -/
theorem nodup_returned_iff_incremented_twoThreads :
    (TransitionSystem.runAll next (init : TimerIds Bool) twoThreads).returned = [5, 4, 2, 1] ∧
      ∀ q ∈ TransitionSystem.states next (init : TimerIds Bool) twoThreads,
        q.2.returned.Nodup := by
  have hrun : system.Run (init : TimerIds Bool)
      (TransitionSystem.states next init twoThreads) :=
    .cons ⟨rfl, by decide⟩ (.cons ⟨rfl, by decide⟩ (.cons ⟨rfl, by decide⟩
      (.cons ⟨rfl, by decide⟩ (.cons ⟨rfl, by decide⟩ (.cons ⟨rfl, by decide⟩
      (.cons ⟨rfl, by decide⟩ (.cons ⟨rfl, by decide⟩ (.cons ⟨rfl, by decide⟩ (.nil _)))))))))
  refine ⟨by decide, (nodup_returned_iff_incremented hrun).mpr ?_⟩
  -- whenever an id is read, the counter has gone on since the last time
  exact ⟨trivial, (by decide : 0 < 1), trivial, (by decide : 1 < 2), trivial, trivial,
    (by decide : 2 < 4), trivial, (by decide : 4 < 5), trivial⟩

/-- Two threads count up before either of them reads, and get the same id. -/
theorem exists_same_id :
    ¬ ∀ tr : List (TimerIdStep Bool × TimerIds Bool), system.Run init tr →
      ∀ q ∈ tr, q.2.returned.Nodup := by
  intro h
  have hrun : system.Run (init : TimerIds Bool) (TransitionSystem.states next init
      [.increment false, .increment true, .load false, .load true]) :=
    .cons ⟨rfl, by decide⟩ (.cons ⟨rfl, by decide⟩ (.cons ⟨rfl, by decide⟩
      (.cons ⟨rfl, by decide⟩ (.nil _))))
  have hlast := h _ hrun _ (List.mem_cons_of_mem _ (List.mem_cons_of_mem _
    (List.mem_cons_of_mem _ List.mem_cons_self)))
  exact absurd hlast (by decide)

/-- A call that is not interrupted returns the next number, as if it were one operation. -/
theorem next_load_of_uninterrupted (hthread : s.incremented thread = false) :
    ∃ s₁ s₂, s.next (.increment thread) = some s₁ ∧ s₁.next (.load thread) = some s₂ ∧
      s₂.baseID = s.baseID + 1 ∧ s₂.returned = (s.baseID + 1) :: s.returned := by
  refine ⟨_, _, if_pos hthread, if_pos ?_, rfl, rfl⟩
  exact Function.update_self thread true s.incremented

end TimerIds

end Calc24
