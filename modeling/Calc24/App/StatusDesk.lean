import Calc24.App.Sequential

/-!
# Status and desk

A session that is playing sits at a desk, and one that is not playing has none: `m_status` is
`SESSION_STATUS_IN_GAME` exactly if `m_deskID` is not `0`.  Two functions change both fields
together, and `processCmd` changes the status alone.  The two fields therefore agree throughout
every run in which nobody says `!ready` during a game (`statusMatchesDesk`).
-/

namespace Calc24

namespace World

variable {env : Environment} {cur l : LoopId} {r t : Ref} {w w' : World}

/-- The status and the desk of a session agree. -/
def Agree (s : Calc24Session) : Prop :=
  s.status = .IN_GAME ↔ s.deskID ≠ 0

instance (s : Calc24Session) : Decidable (Agree s) :=
  inferInstanceAs (Decidable (_ ↔ _))

/-- Every registered session agrees with its desk. -/
def StatusMatchesDesk (w : World) : Prop :=
  ∀ entry ∈ w.sessions, Agree (w.session entry.2)

/-- A registered session that is playing does not say that it is ready, and the counter of desk
ids does not come back to `0`. -/
def KeepsAgreement (w : World) : Operation → Prop
  | .package r p =>
    IsReadyCmd p → r ∈ w.sessions.map Prod.snd → (w.session r).status ≠ .IN_GAME
  | .checkHandup => REQUIRED_MIN_READY_COUNT ≤ w.readySessionCount → w.deskBaseId + 1 ≠ 0
  | _ => True

instance (w : World) (op : Operation) : Decidable (KeepsAgreement w op) :=
  match op with
  | .package r p => inferInstanceAs (Decidable
      (IsReadyCmd p → r ∈ w.sessions.map Prod.snd → (w.session r).status ≠ .IN_GAME))
  | .checkHandup => inferInstanceAs (Decidable
      (REQUIRED_MIN_READY_COUNT ≤ w.readySessionCount → w.deskBaseId + 1 ≠ 0))
  | .connect _ _ => .isTrue trivial
  | .close _ => .isTrue trivial
  | .checkAndDoTimers _ _ => .isTrue trivial
  | .doOtherTask _ => .isTrue trivial

/-! ## The steps -/

/-- A session that has been reset is idle and has no desk. -/
lemma IsReset.agree (h : IsReset w r) : Agree (w.session r) := by
  obtain ⟨hdesk, hstatus⟩ := h
  rw [Agree, hdesk, hstatus]
  decide

lemma StatusMatchesDesk.touches {A : Set Ref} (h : StatusMatchesDesk w) (hw : Touches A w w') :
    StatusMatchesDesk w' := by
  intro entry hentry
  rw [hw.session]
  exact h entry (hw.sessions.subset hentry)

/-- Resets take the status and the desk together. -/
lemma StatusMatchesDesk.resets {A : Set Ref} (h : StatusMatchesDesk w) (hw : Resets A w w') :
    StatusMatchesDesk w' := by
  intro entry hentry
  rcases hw.place entry.2 with ⟨hstatus, hdesk⟩ | ⟨-, hstatus, hdesk⟩
  · rw [Agree, hstatus, hdesk]
    exact h entry (hw.sessions ▸ hentry)
  · exact IsReset.agree ⟨hdesk, hstatus⟩

/-- A session says that it is ready: the fields agree afterwards exactly if it is not playing. -/
theorem statusMatchesDesk_ready_iff (h : StatusMatchesDesk w) :
    StatusMatchesDesk (w.modifySession r fun s => { s with status := .READY }) ↔
      (r ∈ w.sessions.map Prod.snd → (w.session r).status ≠ .IN_GAME) := by
  have hself : ∀ entry ∈ w.sessions, entry.2 = r →
      (Agree { w.session r with status := .READY } ↔ (w.session r).status ≠ .IN_GAME) := by
    rintro entry hentry rfl
    have hagree := h entry hentry
    simp only [Agree] at hagree ⊢
    constructor
    · intro hready hgame
      exact absurd (hready.mpr (hagree.mp hgame)) (by simp)
    · intro hgame
      refine ⟨fun hready => absurd hready (by simp), fun hdesk => absurd (hagree.mpr hdesk) hgame⟩
  constructor
  · intro hnew hmem
    obtain ⟨entry, hentry, rfl⟩ := List.mem_map.mp hmem
    have hagree := hnew entry hentry
    simp only [modifySession, Function.update_self] at hagree
    exact (hself entry hentry rfl).mp hagree
  · intro hgame entry hentry
    by_cases hr : entry.2 = r
    · have hmem : r ∈ w.sessions.map Prod.snd := hr ▸ List.mem_map_of_mem hentry
      simp only [hr, modifySession, Function.update_self]
      exact (hself entry hentry hr).mpr (hgame hmem)
    · simp only [modifySession, Function.update_of_ne hr]
      exact h entry hentry

/-- Every other operation keeps the agreement, whatever the guard on `!ready` says. -/
theorem statusMatchesDesk_step {op : Operation} (hstable : Stable w) (h : StatusMatchesDesk w)
    (hguard : KeepsAgreement w op) (hok : op.perform env w = .ok w') : StatusMatchesDesk w' := by
  cases op with
  | connect fd order =>
    have hconnect := connect_cases hstable.wellFormed hok
    intro entry hentry
    by_cases hr : entry.2 = w.nextRef
    · rw [hr]
      exact hconnect.isReset.agree
    · rw [hconnect.session entry.2 hr]
      exact h entry ((hconnect.sessions entry hentry).resolve_left hr)
  | package r p =>
    rcases processPackage_cases hok with ⟨-, -, hsend⟩ | ⟨hready, rfl⟩ | ⟨-, w₁, w₂, -, h₁, -, h₂, h₃⟩
    · exact h.touches hsend
    · exact (statusMatchesDesk_ready_iff h).mpr (hguard hready)
    · exact ((h.touches h₁).touches h₂).resets (resetDesk_cases h₃).1
  | checkHandup =>
    rcases checkHandup_cases hok with ⟨-, rfl⟩ | ⟨hmany, hsessions, -, hdeals⟩
    · exact h
    · intro entry hentry
      rcases hdeals.place entry.2 with hsame | ⟨-, -, hdealt⟩
      · rw [hsame]
        exact h entry (hsessions ▸ hentry)
      · rw [hdealt]
        exact ⟨fun _ => hguard hmany, fun _ => rfl⟩
  | close r =>
    obtain rfl : w.onClose (w.connection r).loop r = w' := Except.ok.inj hok
    exact h.touches (touches_onClose (Set.mem_singleton r))
  | checkAndDoTimers l nowMs =>
    obtain rfl : w.checkAndDoTimers env l nowMs = w' := Except.ok.inj hok
    exact h.touches (touches_checkAndDoTimers nowMs (hstable.idle l))
  | doOtherTask l =>
    obtain rfl : w.doOtherTask env l = w' := Except.ok.inj hok
    have hw := touches_doOtherTask env (hstable.settled l)
    have hcleared : StatusMatchesDesk (w.modifyLoop l fun l => { l with customTasks := [] }) := h
    exact hcleared.touches hw

/-- **In every run in which no registered session says `!ready` during a game, and the counter of
desk ids does not wrap around to `0`, exactly the sessions at a desk are playing.** -/
theorem statusMatchesDesk (h : (sequential env).ReachableUnder KeepsAgreement w) :
    StatusMatchesDesk w := by
  have hboth : Stable w ∧ StatusMatchesDesk w := by
    refine h.invariant (P := fun w => Stable w ∧ StatusMatchesDesk w) ?_ ?_
    · rintro w ⟨threadNum, -, rfl⟩
      exact ⟨stable_start threadNum, by simp [StatusMatchesDesk, start]⟩
    · rintro w op w' ⟨hstable, hagree⟩ hguard hstep
      refine ⟨stable_step hstable hstep, ?_⟩
      obtain ⟨-, w₁, hok, rfl⟩ := hstep
      have hagree' : StatusMatchesDesk w₁ := statusMatchesDesk_step hstable hagree hguard hok
      exact hagree'
  exact hboth.2

/-- After the deal both players are at a desk and playing. -/
theorem statusMatchesDesk_twoPlayers : StatusMatchesDesk (runOps calm (start 2) twoPlayers) :=
  statusMatchesDesk (reachableUnder_runOps (.init ⟨2, by decide, rfl⟩) (by decide))

/-- A player who says `!ready` during the game is ready, and still sits at the desk. -/
theorem exists_ready_at_desk :
    ¬ ∀ env w, (sequential env).Reachable w → StatusMatchesDesk w := by
  intro h
  have hreach : (sequential calm).Reachable
      (runOps calm (start 2) (twoPlayers ++ [.package 0 (ascii "!ready\n")])) :=
    reachableUnder_runOps (.init ⟨2, by decide, rfl⟩) (by decide)
  have hagree := h calm _ hreach (1, 0) (by decide)
  exact absurd hagree (by decide)

end World

end Calc24
