import Calc24.Lib.TransitionSystem
import Calc24.Net.Timer

/-!
# The timer list and the set it stands for

A loop's timer list is meant to be a set of timers: `addTimer` puts one in, `removeTimer` takes
one out, and `checkAndDoTimers` calls those that are due.  This file runs the timer members of one
loop through all requests and passes on the thread of the loop, with the requests recorded in the
order in which they were issued, and compares `m_timers` with the set.

The two agree as long as no callback requests anything (`refines_iff_quiet`).  A request made
inside a pass goes to one of the pending lists, which are replayed after the pass and never
cleared: the next pass replays it again.
-/

namespace Calc24

/-- What is requested of a loop's timers on its own thread.  `constructedElsewhere` are timers
that other threads construct for their loops in the meantime: all loops share the id counter. -/
inductive TimerRequest (τ : Type*)
  | addTimer (intervalMs : ℤ) (repeated : Bool) (repeatedCount : ℤ) (timerTask : τ)
      (mode : TimerMode) (nowMs : ℤ)
  | removeTimer (timerID : Int64)
  | constructedElsewhere (n : ℕ)
  deriving DecidableEq

/-- A request as it is recorded. -/
inductive TimerLog
  | added (timerID : Int64)
  | removed (timerID : Int64)
  deriving DecidableEq, Repr

/-- The effect of a request on a plain set of timers. -/
def TimerLog.apply (ids : Finset Int64) : TimerLog → Finset Int64
  | .added timerID => insert timerID ids
  | .removed timerID => ids.erase timerID

/-- The set of timers that requests stand for, when they are applied in the order issued. -/
def registered (issued : List TimerLog) : Finset Int64 :=
  issued.foldl TimerLog.apply ∅

/-- One more request is carried out last. -/
lemma registered_concat (issued : List TimerLog) (entry : TimerLog) :
    registered (issued ++ [entry]) = entry.apply (registered issued) := by
  rw [registered, registered, List.foldl_append]
  rfl

/-- The timers of one loop with what their ids and addresses are taken from: the counter of
`Timer::geneateTimerID` and the number of `Timer` objects constructed.  `issued` is a ghost. -/
structure TimerThread (τ : Type*) where
  timers : LoopTimers τ
  baseID : Int64
  objects : ℕ
  issued : List TimerLog

namespace TimerThread

variable {τ : Type*}

/-- The timer members of the loop. -/
def host : TimerHost (TimerThread τ) τ where
  get := TimerThread.timers
  set x s := { s with timers := x }
  get_set _ _ := rfl

/-- `EventLoop::addTimer` and `EventLoop::removeTimer` on the thread of the loop. -/
def perform (s : TimerThread τ) : TimerRequest τ → TimerThread τ
  | .addTimer intervalMs repeated repeatedCount timerTask mode nowMs =>
    let timerID := s.baseID + 1
    let spTimer : Timer τ := ⟨s.objects, timerID, intervalMs, repeated, repeatedCount, timerTask, mode⟩
    { timers := (s.timers.construct s.objects (nowMs + intervalMs)).addTimerInternal spTimer
      baseID := timerID
      objects := s.objects + 1
      issued := s.issued ++ [.added timerID] }
  | .removeTimer timerID =>
    { s with
      timers := s.timers.removeTimerInternal timerID
      issued := s.issued ++ [.removed timerID] }
  | .constructedElsewhere n =>
    { s with baseID := s.baseID + Int64.ofNat n, objects := s.objects + n }

/-- A step of the thread: a request from outside any callback, or a pass at the time `nowMs` in
which the callback of the entry at index `i` issues the requests `callback i`. -/
inductive Call (τ : Type*)
  | request (r : TimerRequest τ)
  | checkAndDoTimers (nowMs : ℤ) (callback : ℕ → List (TimerRequest τ))

/-- The effect of a step. -/
def Call.perform (s : TimerThread τ) : Call τ → TimerThread τ
  | .request r => s.perform r
  | .checkAndDoTimers nowMs callback =>
    host.checkAndDoTimers (fun i _ s => (callback i).foldl TimerThread.perform s) nowMs s

/-- The runs of the timers of one loop. -/
def system : TransitionSystem (TimerThread τ) (Call τ) where
  init s := s.timers = LoopTimers.empty ∧ s.issued = []
  step s call s' := s' = call.perform s

/-- The timer list is the set of registered timers, each with one entry, and nothing is
pending. -/
structure Refines (s : TimerThread τ) : Prop where
  nodup : s.timers.ids.Nodup
  mem_ids_iff : ∀ timerID, timerID ∈ s.timers.ids ↔ timerID ∈ registered s.issued
  pendingAddTimers : s.timers.pendingAddTimers = []
  pendingRemoveTimers : s.timers.pendingRemoveTimers = []

/-- A request that changes the timers of this loop. -/
def IsOwn : TimerRequest τ → Prop
  | .constructedElsewhere _ => False
  | _ => True

/-- No callback that the pass calls issues a request, and the id counter, when it wraps around,
does not meet a timer that is still registered. -/
def Quiet (s : TimerThread τ) : Call τ → Prop
  | .request (.addTimer ..) => s.baseID + 1 ∉ registered s.issued
  | .request _ => True
  | .checkAndDoTimers nowMs callback =>
    ∀ i t, s.timers.timers[i]? = some t → s.timers.IsDue nowMs t → ∀ r ∈ callback i, ¬ IsOwn r

/-! ## The addresses of the timers -/

/-- The entries were constructed on this thread, and an address belongs to one timer. -/
structure WellFormed (s : TimerThread τ) : Prop where
  object_lt : ∀ t ∈ s.timers.entries, t.object < s.objects
  id_eq : ∀ t ∈ s.timers.entries, ∀ t' ∈ s.timers.entries, t.object = t'.object → t.id = t'.id

variable {s s' : TimerThread τ} {nowMs : ℤ} {callback : ℕ → List (TimerRequest τ)}

/-- Fewer entries are as well formed as before. -/
lemma WellFormed.of_subset (h : WellFormed s) (hentries : s'.timers.entries ⊆ s.timers.entries)
    (hobjects : s.objects ≤ s'.objects) : WellFormed s' where
  object_lt t ht := (h.object_lt t (hentries ht)).trans_le hobjects
  id_eq t ht t' ht' := h.id_eq t (hentries ht) t' (hentries ht')

/-- A request adds the timer it constructs, under an address of its own, and no other. -/
lemma WellFormed.perform (h : WellFormed s) (r : TimerRequest τ) : WellFormed (s.perform r) := by
  cases r with
  | addTimer intervalMs repeated repeatedCount timerTask mode nowMs =>
    set r := TimerRequest.addTimer intervalMs repeated repeatedCount timerTask mode nowMs with hr
    have hmem : ∀ t ∈ (s.perform r).timers.entries,
        t ∈ s.timers.entries ∨ (t.object = s.objects ∧ t.id = s.baseID + 1) := by
      intro t ht
      rcases LoopTimers.mem_entries_addTimerInternal.mp ht with hold | rfl
      · exact Or.inl hold
      · exact Or.inr ⟨rfl, rfl⟩
    constructor
    · intro t ht
      rcases hmem t ht with hold | ⟨hnew, -⟩
      · exact (h.object_lt t hold).trans (Nat.lt_succ_self _)
      · rw [hnew]
        exact Nat.lt_succ_self _
    · intro t ht t' ht' heq
      rcases hmem t ht with hold | ⟨hnew, hid⟩ <;> rcases hmem t' ht' with hold' | ⟨hnew', hid'⟩
      · exact h.id_eq t hold t' hold' heq
      · exact absurd (h.object_lt t hold) (by omega)
      · exact absurd (h.object_lt t' hold') (by omega)
      · rw [hid, hid']
  | removeTimer timerID =>
    exact h.of_subset LoopTimers.entries_removeTimerInternal_subset (le_refl _)
  | constructedElsewhere n => exact h.of_subset (fun t ht => ht) (Nat.le_add_right _ _)

/-- A request does not start or end a pass. -/
lemma perform_isCheckTimers (r : TimerRequest τ) :
    (s.perform r).timers.isCheckTimers = s.timers.isCheckTimers := by
  cases r with
  | addTimer => exact LoopTimers.addTimerInternal_isCheckTimers
  | removeTimer => exact LoopTimers.removeTimerInternal_isCheckTimers
  | constructedElsewhere => rfl

/-- Every step keeps the entries well formed and ends outside a pass. -/
lemma wellFormed_step {call : Call τ} (h : WellFormed s ∧ s.timers.isCheckTimers = false)
    (hstep : system.step s call s') : WellFormed s' ∧ s'.timers.isCheckTimers = false := by
  obtain rfl : s' = call.perform s := hstep
  cases call with
  | request r => exact ⟨h.1.perform r, by rw [Call.perform, perform_isCheckTimers, h.2]⟩
  | checkAndDoTimers nowMs callback =>
    refine host.checkAndDoTimers_invariant
      (I := fun s => WellFormed s ∧ s.timers.isCheckTimers = false)
      (J := fun s => WellFormed s ∧ s.timers.isCheckTimers = true)
      ?_ ?_ ?_ (fun s hs => hs.2) ?_ ?_ s h
    · exact fun s hs => ⟨hs.1.of_subset (fun t ht => ht) (le_refl _), rfl⟩
    · intro i t s hs _ _
      refine List.foldlRecOn (callback i) TimerThread.perform
        (motive := fun s => WellFormed s ∧ s.timers.isCheckTimers = true) ?_ ?_
      · exact ⟨hs.1.of_subset (fun t ht => ht) (le_refl _), hs.2⟩
      · exact fun s hs r _ => ⟨hs.1.perform r, by rw [perform_isCheckTimers, hs.2]⟩
    · exact fun s hs => ⟨hs.1.of_subset (fun t ht => ht) (le_refl _), rfl⟩
    · exact fun timerID s hs =>
        ⟨hs.1.of_subset LoopTimers.entries_removeTimerInternal_subset (le_refl _),
          LoopTimers.removeTimerInternal_isCheckTimers.trans hs.2⟩
    · intro spTimer s hs hmem
      refine ⟨hs.1.of_subset ?_ (le_refl _), LoopTimers.addTimerInternal_isCheckTimers.trans hs.2⟩
      intro t ht
      rcases LoopTimers.mem_entries_addTimerInternal.mp ht with hold | rfl
      · exact hold
      · exact List.mem_append_right _ hmem

/-! ## Requests outside a pass -/

/-- Outside a pass a request keeps the list and the set together, unless it inserts an id that is
there already. -/
theorem refines_perform_iff (h : Refines s) (hidle : s.timers.isCheckTimers = false)
    (r : TimerRequest τ) : Refines (s.perform r) ↔ Quiet s (.request r) := by
  cases r with
  | addTimer intervalMs repeated repeatedCount timerTask mode nowMs =>
    set r := TimerRequest.addTimer intervalMs repeated repeatedCount timerTask mode nowMs with hr
    have hids : (s.perform r).timers.ids = s.timers.ids ++ [s.baseID + 1] :=
      LoopTimers.ids_addTimerInternal_of_idle hidle
    constructor
    · intro hnew
      have hnodup := hnew.nodup
      rw [hids, List.nodup_append] at hnodup
      intro hmem
      exact hnodup.2.2 _ ((h.mem_ids_iff _).mpr hmem) _ (List.mem_singleton_self _) rfl
    · intro hfresh
      have hnot : s.baseID + 1 ∉ s.timers.ids := fun hmem => hfresh ((h.mem_ids_iff _).mp hmem)
      refine ⟨?_, fun timerID => ?_, ?_, ?_⟩
      · rw [hids, List.nodup_append]
        refine ⟨h.nodup, List.nodup_singleton _, fun a ha b hb => ?_⟩
        rw [List.mem_singleton] at hb
        exact fun hab => hnot (hb ▸ hab ▸ ha)
      · have hissued : (s.perform r).issued = s.issued ++ [.added (s.baseID + 1)] := rfl
        rw [hids, hissued, registered_concat, List.mem_append, List.mem_singleton, h.mem_ids_iff,
          TimerLog.apply, Finset.mem_insert, or_comm]
      · simp only [hr, TimerThread.perform]
        rw [LoopTimers.addTimerInternal_of_idle (by exact hidle)]
        exact h.pendingAddTimers
      · simp only [hr, TimerThread.perform]
        rw [LoopTimers.addTimerInternal_of_idle (by exact hidle)]
        exact h.pendingRemoveTimers
  | removeTimer timerID =>
    have hids : (s.timers.removeTimerInternal timerID).ids = s.timers.ids.erase timerID :=
      LoopTimers.ids_removeTimerInternal_of_idle hidle
    refine iff_of_true ⟨?_, fun timerID' => ?_, ?_, ?_⟩ trivial
    · rw [TimerThread.perform, hids]
      exact h.nodup.erase timerID
    · simp only [TimerThread.perform]
      rw [hids, registered_concat, h.nodup.mem_erase_iff, h.mem_ids_iff, TimerLog.apply,
        Finset.mem_erase]
    · rw [TimerThread.perform, LoopTimers.removeTimerInternal_of_idle hidle]
      exact h.pendingAddTimers
    · rw [TimerThread.perform, LoopTimers.removeTimerInternal_of_idle hidle]
      exact h.pendingRemoveTimers
  | constructedElsewhere n =>
    exact iff_of_true ⟨h.nodup, h.mem_ids_iff, h.pendingAddTimers, h.pendingRemoveTimers⟩ trivial

/-! ## Requests inside a pass -/

/-- Nothing waits for the end of the pass. -/
def NothingPending (s : TimerThread τ) : Prop :=
  s.timers.pendingAddTimers = [] ∧ s.timers.pendingRemoveTimers = []

/-- A request of another thread leaves the timers of the loop alone. -/
lemma perform_of_not_own {r : TimerRequest τ} (h : ¬ IsOwn r) :
    (s.perform r).timers = s.timers ∧ (s.perform r).issued = s.issued := by
  cases r with
  | constructedElsewhere n => exact ⟨rfl, rfl⟩
  | _ => exact absurd trivial h

lemma foldl_perform_of_not_own {rs : List (TimerRequest τ)} (h : ∀ r ∈ rs, ¬ IsOwn r) :
    (rs.foldl TimerThread.perform s).timers = s.timers ∧
      (rs.foldl TimerThread.perform s).issued = s.issued := by
  induction rs generalizing s with
  | nil => exact ⟨rfl, rfl⟩
  | cons r rs ih =>
    obtain ⟨hr, hrest⟩ := List.forall_mem_cons.mp h
    obtain ⟨htimers, hissued⟩ := perform_of_not_own (s := s) hr
    obtain ⟨htimers', hissued'⟩ := ih (s := s.perform r) hrest
    rw [List.foldl_cons]
    exact ⟨htimers'.trans htimers, hissued'.trans hissued⟩

/-- Inside a pass every request of the thread leaves something pending. -/
lemma nothingPending_perform_iff (hcheck : s.timers.isCheckTimers = true) (r : TimerRequest τ) :
    NothingPending (s.perform r) ↔ NothingPending s ∧ ¬ IsOwn r := by
  cases r with
  | addTimer intervalMs repeated repeatedCount timerTask mode nowMs =>
    refine iff_of_false ?_ (fun h => h.2 trivial)
    simp only [NothingPending, TimerThread.perform]
    rw [LoopTimers.addTimerInternal_of_checking (by exact hcheck)]
    simp
  | removeTimer timerID =>
    refine iff_of_false ?_ (fun h => h.2 trivial)
    simp only [NothingPending, TimerThread.perform]
    rw [LoopTimers.removeTimerInternal_of_checking hcheck]
    simp
  | constructedElsewhere n => simp [NothingPending, TimerThread.perform, IsOwn]

lemma nothingPending_foldl_iff (hcheck : s.timers.isCheckTimers = true)
    (rs : List (TimerRequest τ)) :
    NothingPending (rs.foldl TimerThread.perform s) ↔
      NothingPending s ∧ ∀ r ∈ rs, ¬ IsOwn r := by
  induction rs generalizing s with
  | nil => simp
  | cons r rs ih =>
    rw [List.foldl_cons, ih ((perform_isCheckTimers r).trans hcheck),
      nothingPending_perform_iff hcheck, List.forall_mem_cons, and_assoc]

lemma foldl_perform_isCheckTimers (rs : List (TimerRequest τ)) :
    (rs.foldl TimerThread.perform s).timers.isCheckTimers = s.timers.isCheckTimers := by
  induction rs generalizing s with
  | nil => rfl
  | cons r rs ih => rw [List.foldl_cons, ih, perform_isCheckTimers]

/-- What the callbacks of a pass do. -/
abbrev visit (nowMs : ℤ) (callback : ℕ → List (TimerRequest τ)) :
    ℕ → ℕ → TimerThread τ → TimerThread τ :=
  host.visit (fun i _ s => (callback i).foldl TimerThread.perform s) nowMs

/-- What is pending stays pending for the rest of the pass. -/
lemma not_nothingPending_visit (hcheck : s.timers.isCheckTimers = true)
    (h : ¬ NothingPending s) (rounds i : ℕ) :
    ¬ NothingPending (visit nowMs callback rounds i s) := by
  refine (host.visit_invariant
    (I := fun s => s.timers.isCheckTimers = true ∧ ¬ NothingPending s) ?_ rounds i s ⟨hcheck, h⟩).2
  rintro i t s ⟨hs, hpending⟩ - -
  refine ⟨(foldl_perform_isCheckTimers _).trans hs, fun hnothing => ?_⟩
  exact hpending ((nothingPending_foldl_iff (by exact hs) _).mp hnothing).1

/-- Timers with different addresses do not share their due times. -/
lemma isDue_advance_iff {x : LoopTimers τ} (hobjects : (x.timers.map Timer.object).Nodup)
    {i j : ℕ} (hij : i ≠ j) {t t' : Timer τ} (ht : x.timers[i]? = some t)
    (ht' : x.timers[j]? = some t') : (x.advance t nowMs).IsDue nowMs t' ↔ x.IsDue nowMs t' := by
  have hne : t'.object ≠ t.object := by
    intro heq
    obtain ⟨hlt, -⟩ := List.getElem?_eq_some_iff.mp ht
    refine hij ((List.getElem?_inj (by simpa using hlt) hobjects).mp ?_)
    rw [List.getElem?_map, List.getElem?_map, ht, ht', Option.map_some, Option.map_some, heq]
  simp only [LoopTimers.IsDue, LoopTimers.advance, Function.update_of_ne hne]

/-- The loop of a quiet pass moves due times and nothing else. -/
lemma visit_of_quiet (hobjects : (s.timers.timers.map Timer.object).Nodup) (rounds i : ℕ)
    (hquiet : ∀ j t, i ≤ j → s.timers.timers[j]? = some t → s.timers.IsDue nowMs t →
      ∀ r ∈ callback j, ¬ IsOwn r) :
    (∃ due, (visit nowMs callback rounds i s).timers =
        { s.timers with nextTriggeredTimeMs := due }) ∧
      (visit nowMs callback rounds i s).issued = s.issued := by
  induction rounds generalizing i s with
  | zero => exact ⟨⟨s.timers.nextTriggeredTimeMs, rfl⟩, rfl⟩
  | succ rounds ih =>
    rw [visit, TimerHost.visit]
    split
    · exact ⟨⟨s.timers.nextTriggeredTimeMs, rfl⟩, rfl⟩
    · next t ht =>
      split
      · next hdue =>
        -- the callback at `i` is called, and requests nothing of this loop
        set called := (callback i).foldl TimerThread.perform
          (host.modify (LoopTimers.advance t nowMs) s) with hcalled
        obtain ⟨htimers, hissued⟩ := foldl_perform_of_not_own
          (s := host.modify (LoopTimers.advance t nowMs) s) (hquiet i t (le_refl i) ht hdue)
        have hadvanced : called.timers = s.timers.advance t nowMs := htimers
        obtain ⟨⟨due, hvisit⟩, hvisitIssued⟩ := ih (s := called)
          (by rw [hadvanced]; exact hobjects) (i + 1) (by
            intro j t' hj ht' hdue'
            rw [hadvanced] at ht' hdue'
            exact hquiet j t' (by omega) ht'
              ((isDue_advance_iff hobjects (by omega) ht ht').mp hdue'))
        refine ⟨⟨due, hvisit.trans ?_⟩, hvisitIssued.trans hissued⟩
        rw [hadvanced]
        rfl
      · exact ih hobjects (i + 1) fun j t' hj => hquiet j t' (by omega)

/-- A due callback that requests something is reached, and leaves something pending. -/
lemma visit_of_own (hcheck : s.timers.isCheckTimers = true)
    (hobjects : (s.timers.timers.map Timer.object).Nodup) {rounds i j : ℕ} (hij : i ≤ j)
    (hrounds : j < i + rounds) {t : Timer τ} (ht : s.timers.timers[j]? = some t)
    (hdue : s.timers.IsDue nowMs t) {r : TimerRequest τ} (hr : r ∈ callback j) (hown : IsOwn r) :
    ¬ NothingPending (visit nowMs callback rounds i s) := by
  induction rounds generalizing i s with
  | zero => omega
  | succ rounds ih =>
    obtain ⟨hjlt, -⟩ := List.getElem?_eq_some_iff.mp ht
    have hilt : i < s.timers.timers.length := by omega
    have hi : s.timers.timers[i]? = some s.timers.timers[i] := List.getElem?_eq_getElem hilt
    rw [visit, TimerHost.visit]
    split
    · next hnone => exact absurd (hi.symm.trans hnone) (by simp)
    · next t' ht' =>
      split
      · next hdue' =>
        set called := (callback i).foldl TimerThread.perform
          (host.modify (LoopTimers.advance t' nowMs) s) with hcalled
        have hcheck' : called.timers.isCheckTimers = true :=
          (foldl_perform_isCheckTimers _).trans hcheck
        by_cases hquiet : ∀ r ∈ callback i, ¬ IsOwn r
        · -- nothing is requested at `i`, so the entry at `j` is still to come
          have hne : i ≠ j := by
            rintro rfl
            exact hquiet r hr hown
          have hadvanced : called.timers = s.timers.advance t' nowMs :=
            (foldl_perform_of_not_own hquiet).1
          refine ih (s := called) hcheck' (by rw [hadvanced]; exact hobjects) (by omega) (by omega)
            (by rw [hadvanced]; exact ht) ?_
          rw [hadvanced]
          exact (isDue_advance_iff hobjects hne ht' ht).mpr hdue
        · refine not_nothingPending_visit hcheck' (fun hnothing => hquiet ?_) rounds (i + 1)
          exact ((nothingPending_foldl_iff (by exact hcheck) _).mp hnothing).2
      · next hnot =>
        have hne : i ≠ j := by
          rintro rfl
          obtain rfl : t = t' := Option.some.inj (ht.symm.trans ht')
          exact hnot hdue
        exact ih hcheck hobjects (by omega) (by omega) ht hdue

/-- Applying the pending lists does not clear them. -/
lemma nothingPending_replayPending_iff (hidle : s.timers.isCheckTimers = false) :
    NothingPending (host.replayPending s) ↔ NothingPending s := by
  have hkeep : (host.replayPending s).timers.isCheckTimers = false ∧
      (host.replayPending s).timers.pendingAddTimers = s.timers.pendingAddTimers ∧
      (host.replayPending s).timers.pendingRemoveTimers = s.timers.pendingRemoveTimers := by
    refine host.replayPending_invariant (I := fun s' => s'.timers.isCheckTimers = false ∧
      s'.timers.pendingAddTimers = s.timers.pendingAddTimers ∧
      s'.timers.pendingRemoveTimers = s.timers.pendingRemoveTimers)
      (fun s' hs' => hs'.1) ?_ ?_ s ⟨hidle, rfl, rfl⟩
    · intro timerID s' hs'
      rw [TimerHost.modify, host, LoopTimers.removeTimerInternal_of_idle hs'.1]
      exact hs'
    · intro spTimer s' hs' _
      rw [TimerHost.modify, host, LoopTimers.addTimerInternal_of_idle hs'.1]
      exact hs'
  rw [NothingPending, hkeep.2.1, hkeep.2.2, NothingPending]

/-- With nothing pending there is nothing to apply. -/
lemma replayPending_of_nothingPending (h : NothingPending s) : host.replayPending s = s := by
  have hadd : (host.get s).pendingAddTimers = [] := h.1
  have hremove : (host.get s).pendingRemoveTimers = [] := h.2
  simp only [TimerHost.replayPending, hremove, List.foldl_nil, hadd]

/-- A pass keeps the list and the set together exactly if no callback that it calls requests
anything. -/
theorem refines_checkAndDoTimers_iff (hwf : WellFormed s) (h : Refines s) : Refines ((Call.checkAndDoTimers nowMs callback).perform s) ↔
      Quiet s (.checkAndDoTimers nowMs callback) := by
  have hobjects : (s.timers.timers.map Timer.object).Nodup := by
    have hids := h.nodup
    rw [LoopTimers.ids, List.Nodup, List.pairwise_map] at hids
    rw [List.Nodup, List.pairwise_map]
    refine hids.imp_of_mem fun {t t'} ht ht' hne heq => hne ?_
    exact hwf.id_eq t (List.mem_append_left _ ht) t' (List.mem_append_left _ ht') heq
  set started := host.modify (LoopTimers.setIsCheckTimers true) s with hstarted
  set visited := visit nowMs callback s.timers.timers.length 0 started with hvisited
  set stopped := host.modify (LoopTimers.setIsCheckTimers false) visited with hstopped
  have hpass : (Call.checkAndDoTimers nowMs callback).perform s = host.replayPending stopped := rfl
  rw [hpass]
  constructor
  · intro hrefines i t ht hdue r hr hown
    obtain ⟨hlt, -⟩ := List.getElem?_eq_some_iff.mp ht
    have hpending : ¬ NothingPending visited :=
      visit_of_own (s := started) rfl hobjects (Nat.zero_le i) (by omega) ht hdue hr hown
    apply hpending
    have hnothing : NothingPending stopped :=
      (nothingPending_replayPending_iff rfl).mp
        ⟨hrefines.pendingAddTimers, hrefines.pendingRemoveTimers⟩
    exact hnothing
  · intro hquiet
    obtain ⟨⟨due, htimers⟩, hissued⟩ := visit_of_quiet (s := started) hobjects
      s.timers.timers.length 0 (fun j t _ => hquiet j t)
    have hsame : stopped.timers.timers = s.timers.timers ∧
        stopped.timers.pendingAddTimers = s.timers.pendingAddTimers ∧
        stopped.timers.pendingRemoveTimers = s.timers.pendingRemoveTimers := by
      have hstop : stopped.timers = visited.timers.setIsCheckTimers false := rfl
      rw [hstop, hvisited, htimers]
      exact ⟨rfl, rfl, rfl⟩
    have hids : stopped.timers.ids = s.timers.ids := congrArg (List.map Timer.id) hsame.1
    rw [replayPending_of_nothingPending
      ⟨hsame.2.1.trans h.pendingAddTimers, hsame.2.2.trans h.pendingRemoveTimers⟩]
    refine ⟨hids ▸ h.nodup, fun timerID => ?_, hsame.2.1.trans h.pendingAddTimers,
      hsame.2.2.trans h.pendingRemoveTimers⟩
    have hlog : stopped.issued = s.issued := hissued
    rw [hids, hlog, h.mem_ids_iff]

/-! ## Whole runs -/

/-- **The timer list refines the set of registered timers throughout a run exactly if no callback
requests timers and the id counter meets no registered timer.** -/
theorem refines_iff_quiet {tr : List (Call τ × TimerThread τ)} (hinit : system.init s)
    (hrun : system.Run s tr) :
    (∀ q ∈ tr, Refines q.2) ↔ TransitionSystem.Guarded Quiet s tr := by
  refine hrun.forall_iff_guarded (I := fun s => WellFormed s ∧ s.timers.isCheckTimers = false)
    (fun _ _ _ h hstep => wellFormed_step h hstep) ?_ ?_ ?_
  · rintro s call s' ⟨hwf, hidle⟩ h rfl
    cases call with
    | request r => exact refines_perform_iff h hidle r
    | checkAndDoTimers nowMs callback => exact refines_checkAndDoTimers_iff hwf h
  · obtain ⟨timers, baseID, objects, issued⟩ := s
    obtain ⟨rfl, rfl⟩ := hinit
    exact ⟨⟨by simp [LoopTimers.entries, LoopTimers.empty],
      by simp [LoopTimers.entries, LoopTimers.empty]⟩, rfl⟩
  · obtain ⟨timers, baseID, objects, issued⟩ := s
    obtain ⟨rfl, rfl⟩ := hinit
    exact ⟨List.nodup_nil, by simp [LoopTimers.ids, LoopTimers.empty, registered], rfl, rfl⟩

/-- A loop before its first timer. -/
def fresh : TimerThread Unit where
  timers := LoopTimers.empty
  baseID := 0
  objects := 0
  issued := []

/-- A timer that repeats every five seconds, added at time `0`. -/
def everyFiveSeconds : TimerRequest Unit :=
  .addTimer 5000 true 0 () .fixedInterval 0

/-- A timer is added and comes round, and its callback does something else. -/
theorem refines_iff_quiet_one_timer :
    Refines (fresh.perform everyFiveSeconds) ∧
      Refines ((Call.checkAndDoTimers 5000 fun _ => []).perform
        (fresh.perform everyFiveSeconds)) := by
  have hrun : system.Run fresh
      [(Call.request everyFiveSeconds, fresh.perform everyFiveSeconds),
        (Call.checkAndDoTimers 5000 fun _ => [],
          (Call.checkAndDoTimers 5000 fun _ => []).perform (fresh.perform everyFiveSeconds))] :=
    .cons rfl (.cons rfl (.nil _))
  have hrefines := (refines_iff_quiet (s := fresh) ⟨rfl, rfl⟩ hrun).mpr ⟨?_, ?_, trivial⟩
  · exact ⟨hrefines _ (List.mem_cons_self ..), hrefines _ (List.mem_cons_of_mem _
      (List.mem_singleton_self _))⟩
  · simp only [Quiet, everyFiveSeconds]
    decide
  · intro i t _ _ r hr
    cases hr

/-- A timer added by a callback has two entries after the next pass. -/
theorem exists_duplicate_entry :
    ¬ ∀ s : TimerThread Unit, system.Reachable s → ∀ nowMs callback s',
      system.step s (.checkAndDoTimers nowMs callback) s' → Refines s' := by
  intro h
  set added := fresh.perform everyFiveSeconds with hadded
  set once := (Call.checkAndDoTimers 5000 fun _ => [everyFiveSeconds]).perform added with honce
  have hadded : system.Reachable added :=
    TransitionSystem.Reachable.tail (.of_init ⟨rfl, rfl⟩) (l := .request everyFiveSeconds) rfl
  have honce : system.Reachable once :=
    hadded.tail (l := .checkAndDoTimers 5000 fun _ => [everyFiveSeconds]) rfl
  have htwice := h once honce 5001 (fun _ => []) _ rfl
  exact absurd htwice.nodup (by decide)

end TimerThread

end Calc24
