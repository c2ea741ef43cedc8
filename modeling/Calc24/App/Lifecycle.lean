import Calc24.App.Broadcast
import Calc24.App.Release

/-!
# The life of a session

`Calc24Server::onConnected` stores a session in `m_sessions`, `Calc24Server::onDisconnected` moves
it to `m_pendingToDeleteSessions`, and the next `onConnected` clears it out of there, which destroys
it.  In every interleaving of the steps of `Process` each session that has been accepted is in
exactly one of these places, and goes through them in this order: no session is leaked, destroyed
twice or registered again after it has gone (`lifecycle_of_run`).

An acceptance is one step, so a session is in the map when it exists.  On the way there it is in
none of the three places, and if it is closed then it stays in the map for good; this is shown in
`AcceptingRuns`, where the acceptance is taken apart.
-/

namespace Calc24

/-- Where a session is in its life. -/
inductive Phase
  | unborn
  | registered
  | pending
  | released
  deriving DecidableEq

/-- The order of the phases. -/
def Phase.rank : Phase → ℕ
  | .unborn => 0
  | .registered => 1
  | .pending => 2
  | .released => 3

namespace World

variable {env : Environment} {n : ℕ} {r : Ref} {A : Set Ref} {w w' : World}
  {stage stage' : Stage}

/-- The session at `r` is in a phase. -/
def IsIn (w : World) (r : Ref) : Phase → Prop
  | .unborn => w.nextRef ≤ r
  | .registered => r ∈ w.sessions.map Prod.snd
  | .pending => r ∈ w.pendingToDeleteSessions
  | .released => .released r ∈ w.trace

/-- How often a session is owned by the server or has been released. -/
def accounts (w : World) (r : Ref) : ℕ :=
  w.owned.count r + w.trace.count (.released r)

/-- Every session that has been accepted is accounted for, once. -/
def Accounted (w : World) : Prop :=
  ∀ r, w.accounts r = if r < w.nextRef then 1 else 0

/-- What a step of a run does to the phases of the sessions. -/
structure Ages (w w' : World) : Prop where
  nextRef : w.nextRef ≤ w'.nextRef
  registered : ∀ r < w.nextRef, w'.IsIn r .registered → w.IsIn r .registered
  released : ∀ r, w.IsIn r .released → w'.IsIn r .released

lemma Ages.refl (w : World) : Ages w w :=
  ⟨le_refl _, fun _ _ => id, fun _ => id⟩

lemma Ages.trans {w'' : World} (h : Ages w w') (h' : Ages w' w'') : Ages w w'' where
  nextRef := h.nextRef.trans h'.nextRef
  registered r hr hmem := h.registered r hr (h'.registered r (hr.trans_le h.nextRef) hmem)
  released r hmem := h'.released r (h.released r hmem)

/-! ## One step -/

/-- What happens on behalf of sessions moves them between the map and the pending list at most. -/
lemma accounts_of_affects (h : Affects A w w') {new : List Event} (htrace : w'.trace = new ++ w.trace)
    (hnew : ∀ e ∈ new, ∀ r, e ≠ .released r) (r : Ref) : w'.accounts r = w.accounts r := by
  have hcount : new.count (.released r) = 0 :=
    List.count_eq_zero.mpr fun hmem => hnew _ hmem r rfl
  rw [accounts, accounts, h.owned.count_eq, htrace, List.count_append, hcount, Nat.zero_add]

/-- What does not release sessions leaves every session accounted for. -/
lemma Accounted.affects (h : Accounted w) (hw : Affects A w w') {new : List Event}
    (htrace : w'.trace = new ++ w.trace) (hnew : ∀ e ∈ new, ∀ r, e ≠ .released r) :
    Accounted w' := by
  intro r
  rw [accounts_of_affects hw htrace hnew, hw.nextRef]
  exact h r

/-- What threads do for sessions brings none of them back into the map. -/
lemma Ages.of_affects (h : Affects A w w') {new : List Event} (htrace : w'.trace = new ++ w.trace) :
    Ages w w' where
  nextRef := h.nextRef.ge
  registered _ _ hmem := (h.sessions.map Prod.snd).subset hmem
  released r hmem := by
    rw [IsIn, htrace]
    exact List.mem_append_right _ hmem

/-- A connect registers the new session, and nobody is pending afterwards. -/
lemma owned_onConnected {fd : ℕ} {order : List (Int32 × Ref)}
    (h : (w.onAccept fd).onConnected env .base w.nextRef order = .ok w') :
    w'.owned.Perm (w.nextRef :: w.sessions.map Prod.snd) := by
  set cleared := (w.onAccept fd).clearPending with hcleared
  set constructed := cleared.constructSession env w.nextRef with hconstructed
  set welcomed := constructed.sendWelcomeMsg env .base w.nextRef with hwelcomed
  set notified := welcomed.notifyUserToBeReady env .base w.nextRef with hnotified
  have hclears : Clears (w.onAccept fd) cleared := clears_clearPending _
  have hwelcome : Touches {w.nextRef} constructed welcomed := touches_sendMsg _ rfl
  have hnotify : Resets {w.nextRef} welcomed notified := resets_notifyUserToBeReady rfl
  have hbefore : notified.owned.Perm (w.sessions.map Prod.snd) := by
    have hsame : notified.owned = welcomed.owned := by
      rw [owned, hnotify.sessions, hnotify.pending]
      rfl
    have hold : constructed.owned = w.sessions.map Prod.snd := by
      rw [show constructed.owned = cleared.owned from rfl, owned, hclears.sessions, hclears.pending,
        List.append_nil]
      rfl
    rw [hsame, ← hold]
    exact hwelcome.owned
  obtain ⟨-, sessions, rfl, hperm⟩ := emplace_cases (w := notified) h
  have hstored : (owned { notified with sessions := sessions }).Perm (w.nextRef :: notified.owned) :=
    (hperm.map Prod.snd).append_right notified.pendingToDeleteSessions
  exact hstored.trans (hbefore.cons _)

/-- A connect brings one more session, and releases those that are pending. -/
lemma Accounted.connect (h : Accounted w) (hwf : WellFormed w) {fd : ℕ}
    {order : List (Int32 × Ref)}
    (hok : (w.onAccept fd).onConnected env .base w.nextRef order = .ok w') : Accounted w' := by
  have hconnects := connect_cases hwf hok
  intro r
  have hreleased : w'.trace.count (.released r) =
      w.pendingToDeleteSessions.count r + w.trace.count (.released r) := by
    have hinj : Function.Injective Event.released := fun _ _ => Event.released.inj
    rw [hconnects.trace, List.count_cons_of_ne (by simp), List.count_append, List.count_reverse,
      List.count_map_of_injective _ _ hinj]
  have hbefore := h r
  rw [accounts, owned, List.count_append] at hbefore
  rw [accounts, (owned_onConnected hok).count_eq, hreleased, hconnects.nextRef]
  by_cases hr : r = w.nextRef
  · rw [hr, List.count_cons_self, if_pos (Nat.lt_succ_self _)]
    rw [hr, if_neg (lt_irrefl _)] at hbefore
    omega
  · have hlt : r < w.nextRef + 1 ↔ r < w.nextRef :=
      ⟨fun hr' => (Nat.lt_succ_iff_lt_or_eq.mp hr').resolve_right hr, Nat.lt_succ_of_lt⟩
    rw [List.count_cons_of_ne (Ne.symm hr), if_congr hlt rfl rfl, ← hbefore]
    exact (Nat.add_assoc ..).symm

/-- A connect registers the new session, and releases those that are pending. -/
lemma Ages.connect (hwf : WellFormed w) {fd : ℕ} {order : List (Int32 × Ref)}
    (hok : (w.onAccept fd).onConnected env .base w.nextRef order = .ok w') : Ages w w' := by
  have hconnects := connect_cases hwf hok
  refine ⟨?_, fun r hr hmem => ?_, fun r hmem => ?_⟩
  · rw [hconnects.nextRef]
    exact Nat.le_succ _
  · obtain ⟨entry, hentry, rfl⟩ := List.mem_map.mp hmem
    rcases hconnects.sessions entry hentry with heq | hold
    · exact absurd heq hr.ne
    · exact List.mem_map_of_mem hold
  · rw [IsIn, hconnects.trace]
    exact List.mem_cons_of_mem _ (List.mem_append_right _ hmem)

end World

namespace Process

open World

variable {env : Environment} {s s' : Process} {step : Step}

/-- What a step of a thread does to the sessions. -/
lemma ages_next (hsound : Sound s) (hstep : s.next env step = some s') :
    Ages s.world s'.world ∧ (Accounted s.world → Accounted s'.world) := by
  rcases next_cases hstep with ⟨fd, order, w, rfl, hok, rfl⟩ | ⟨w, rfl, hok, rfl⟩ |
    ⟨n, input, stage, w, rfl, -, hwork, rfl⟩
  · exact ⟨Ages.connect hsound.wellFormed hok, fun h => h.connect hsound.wellFormed hok⟩
  · have haffects := affects_checkHandup hok
    obtain ⟨new, htrace, hnew⟩ := records_checkHandup hok
    refine ⟨Ages.of_affects haffects htrace, fun h => h.affects haffects htrace ?_⟩
    rintro e he r rfl
    exact hnew _ he
  · have hturn := turn_work hsound.idle
      (fun task htask t ht => (hsound.remaining n task htask t ht).2) hwork
    rcases hturn.records with ⟨new, htrace, hnew⟩ | ⟨r, batch, -, -, htrace⟩
    · refine ⟨Ages.of_affects hturn.affects htrace, fun h => h.affects hturn.affects htrace ?_⟩
      rintro e he r rfl
      exact hnew _ he
    · have hsent : w.trace = [.sent r rightAnswer] ++ s.world.trace := htrace
      refine ⟨Ages.of_affects hturn.affects hsent, fun h => h.affects hturn.affects hsent ?_⟩
      simp

/-- Every session is accounted for in every reachable state. -/
lemma accounted_reachable (h : (interleaved env).Reachable s) : Accounted s.world := by
  have hboth : Sound s ∧ Accounted s.world := by
    refine h.invariant (P := fun s => Sound s ∧ Accounted s.world) ?_ fun s step s' h hstep =>
      ⟨h.1.next hstep, (ages_next h.1 hstep).2 h.2⟩
    rintro s ⟨threadNum, -, rfl⟩
    exact ⟨sound_start threadNum, fun r => rfl⟩
  exact hboth.2

/-- In a run no session goes back to an earlier phase. -/
lemma ages_of_run (h : (interleaved env).Reachable s) {tr : List (Step × Process)}
    (hrun : (interleaved env).Run s tr) : Ages s.world (TransitionSystem.last s tr).world := by
  induction hrun with
  | nil s => exact Ages.refl _
  | @cons s s₁ step tr hstep hrun ih =>
    exact (ages_next (sound_reachable h) hstep).1.trans (ih (h.tail hstep))

/-- A session is in exactly one phase, and is released at most once. -/
lemma existsUnique_phase (h : (interleaved env).Reachable s) (r : Ref) :
    (∃! p, s.world.IsIn r p) ∧ s.world.trace.count (.released r) ≤ 1 := by
  have haccount := accounted_reachable h r
  rw [accounts, owned, List.count_append] at haccount
  refine ⟨?_, by split at haccount <;> omega⟩
  have hregistered : s.world.IsIn r .registered ↔ (s.world.sessions.map Prod.snd).count r ≠ 0 :=
    List.count_pos_iff.symm.trans Nat.pos_iff_ne_zero
  have hpending : s.world.IsIn r .pending ↔ s.world.pendingToDeleteSessions.count r ≠ 0 :=
    List.count_pos_iff.symm.trans Nat.pos_iff_ne_zero
  have hreleased : s.world.IsIn r .released ↔ s.world.trace.count (.released r) ≠ 0 :=
    List.count_pos_iff.symm.trans Nat.pos_iff_ne_zero
  have hunborn : s.world.IsIn r .unborn ↔ s.world.nextRef ≤ r := Iff.rfl
  split at haccount
  · next hlt =>
    have hborn : ¬ s.world.nextRef ≤ r := not_le.mpr hlt
    obtain ⟨h₁, h₂, h₃⟩ | ⟨h₁, h₂, h₃⟩ | ⟨h₁, h₂, h₃⟩ :
        ((s.world.sessions.map Prod.snd).count r = 1 ∧ s.world.pendingToDeleteSessions.count r = 0 ∧
          s.world.trace.count (.released r) = 0) ∨
        ((s.world.sessions.map Prod.snd).count r = 0 ∧ s.world.pendingToDeleteSessions.count r = 1 ∧
          s.world.trace.count (.released r) = 0) ∨
        ((s.world.sessions.map Prod.snd).count r = 0 ∧ s.world.pendingToDeleteSessions.count r = 0 ∧
          s.world.trace.count (.released r) = 1) := by omega
    · refine ⟨.registered, by simp [hregistered, h₁], fun q hq => ?_⟩
      cases q <;> simp_all
    · refine ⟨.pending, by simp [hpending, h₂], fun q hq => ?_⟩
      cases q <;> simp_all
    · refine ⟨.released, by simp [hreleased, h₃], fun q hq => ?_⟩
      cases q <;> simp_all
  · next hge =>
    obtain ⟨h₁, h₂, h₃⟩ : (s.world.sessions.map Prod.snd).count r = 0 ∧
        s.world.pendingToDeleteSessions.count r = 0 ∧
        s.world.trace.count (.released r) = 0 := by omega
    refine ⟨.unborn, not_lt.mp hge, fun q hq => ?_⟩
    cases q <;> simp_all

/-- **Sessions go through their phases in order.**  In every interleaving in which an acceptance is
one step, a session is in exactly one phase at any time: not accepted yet, registered, pending or
released.  In the course of a run it never goes back to an earlier phase, and it is released once at
most. -/
theorem lifecycle_of_run (h : (interleaved env).Reachable s) {tr : List (Step × Process)}
    (hrun : (interleaved env).Run s tr) (r : Ref) :
    (∃! p, (TransitionSystem.last s tr).world.IsIn r p) ∧
    (TransitionSystem.last s tr).world.trace.count (.released r) ≤ 1 ∧
    ∀ p p', s.world.IsIn r p → (TransitionSystem.last s tr).world.IsIn r p' → p.rank ≤ p'.rank := by
  have hreach : (interleaved env).Reachable (TransitionSystem.last s tr) :=
    hrun.last_invariant (fun _ _ _ hs hstep => hs.tail hstep) h
  obtain ⟨hbefore, -⟩ := existsUnique_phase h r
  obtain ⟨hafter, hcount⟩ := existsUnique_phase hreach r
  refine ⟨hafter, hcount, fun p p' hp hp' => ?_⟩
  have hages := ages_of_run h hrun
  cases p with
  | unborn => exact Nat.zero_le _
  | registered =>
    cases p' with
    | unborn =>
      have hunborn : s.world.IsIn r .unborn := hages.nextRef.trans hp'
      exact absurd (hbefore.unique hp hunborn) (by decide)
    | _ => simp [Phase.rank]
  | pending =>
    have hborn : r < s.world.nextRef := by
      by_contra hge
      have hunborn : s.world.IsIn r .unborn := not_lt.mp hge
      exact absurd (hbefore.unique hp hunborn) (by decide)
    cases p' with
    | unborn => exact absurd (hages.nextRef.trans hp') (not_le.mpr hborn)
    | registered => exact absurd (hbefore.unique hp (hages.registered r hborn hp')) (by decide)
    | _ => simp [Phase.rank]
  | released =>
    rw [hafter.unique hp' (hages.released r hp)]

/-- One client goes and another one comes. -/
def replaced : List Step :=
  [.connect 5 [], goOn 0, pollRead 0 0, .worker 0 { recv := .eof }, .connect 6 []]

/-- The first session has been released by then. -/
theorem lifecycle_of_run_replaced :
    (TransitionSystem.last (start 1)
      (TransitionSystem.states (fun s step => s.next calm step) (start 1) replaced)).world.trace.count
        (.released 0) = 1 := by
  have hreach : (interleaved calm).Reachable (start 1) := .of_init ⟨1, by decide, rfl⟩
  have hfollows : follows (fun _ _ => True) calm (start 1) replaced = true := by decide
  have hrun := (TransitionSystem.run_states (T := interleaved calm) (fun _ _ _ => id) hfollows).1
  have hmem : Event.released 0 ∈ (TransitionSystem.last (start 1)
      (TransitionSystem.states (fun s step => s.next calm step) (start 1) replaced)).world.trace := by
    decide
  exact le_antisymm (lifecycle_of_run hreach hrun 0).2.1 (List.count_pos_iff.mpr hmem)

end Process

end Calc24
