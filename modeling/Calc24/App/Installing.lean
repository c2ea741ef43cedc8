import Calc24.App.AcceptingRuns

/-!
# Connections that are not set up yet

`TCPServer::onAccept` registers a connection with the loop of a worker before its session exists.
Two things depend on how far the base thread has got when the worker has something to do on the
connection.

* The worker may call a callback that is still to be set.  It never does exactly if it reaches its
  calls of a connection's callbacks only after the constructor of `Calc24Session` has set them
  (`callbacksInPlace_iff`).
* The worker may close the connection before its session is stored, and then the lookup of
  `onDisconnected` finds nothing.  If no session is stored whose connection has been closed
  already, no closed session stays in the map (`noClosedSession`).
-/

namespace Calc24

/-- The read or close callback that the next statement of a worker thread calls. -/
def WorkerStage.callee : WorkerStage → Option (Ref × Callback)
  | .onRead r _ => some (r, .read)
  | .onClose r .callback _ => some (r, .close)
  | _ => none

lemma WorkerStage.holds_of_callee {stage : WorkerStage} {r : Ref} {c : Callback}
    (h : stage.callee = some (r, c)) : stage.Holds r := by
  unfold callee at h
  split at h
  · cases h
    exact List.mem_cons_self ..
  · cases h
    exact Or.inl rfl
  · cases h

namespace Accepting

open World

variable {env : Environment} {n : ℕ} {r t : Ref} {s s' : Accepting} {w w' : World}
  {stage back : WorkerStage} {c : Callback} {move : Move} {step : AcceptingStep}
  {result : Except Callback (WorkerStage × World)}

/-! ## Callbacks -/

/-- No missing read or close callback has been called. -/
def CallbacksInPlace (s : Accepting) : Prop :=
  s.thrown ≠ some .read ∧ s.thrown ≠ some .close

/-- A worker thread does not call a read or close callback that the base thread, on its way
through `onAccept` and `onConnected`, has still to set. -/
def AfterInstallation (s : Accepting) : AcceptingStep → Prop
  | .worker n _ =>
    match (s.worker n).callee with
    | some (r, c) => ¬ s.base.Awaits r c
    | none => True
  | _ => True

instance (s : Accepting) : ∀ step, Decidable (AfterInstallation s step)
  | .accept _ => .isTrue trivial
  | .connect _ => .isTrue trivial
  | .checkHandup => .isTrue trivial
  | .worker n _ =>
    show Decidable (match (s.worker n).callee with
      | some (r, c) => ¬ s.base.Awaits r c
      | none => True) from
    match (s.worker n).callee with
    | none => .isTrue trivial
    | some (r, c) => inferInstanceAs (Decidable (¬ s.base.Awaits r c))

/-- A send calls no other callback than the one for writing. -/
lemma send_ne_error {buf : Bytes} (hc : c ≠ .write) : s.send env n r buf back w ≠ .error c := by
  intro h
  unfold send at h
  split at h
  · cases h
  · split at h
    · exact hc (Except.error.inj h).symm
    · split at h <;> cases h

lemma remind_ne_error {timerID : Int64} (hc : c ≠ .write) :
    s.remind env n r timerID ≠ .error c := by
  unfold remind
  dsimp only
  split
  · exact send_ne_error hc
  · exact fun h => by cases h

/-- A step of a worker thread that calls neither the read nor the close callback. -/
lemma work_ne_error (hstage : stage.callee = none) (hc : c ≠ .write) :
    s.work env n stage move ≠ some (.error c) := by
  intro h
  unfold work at h
  split at h
  · obtain ⟨-, h⟩ := Option.ite_none_right_eq_some.mp h
    split at h
    exact remind_ne_error hc (Option.some.inj h)
  · obtain ⟨-, heq⟩ := Option.ite_none_right_eq_some.mp h
    cases heq
  · cases h
  · cases h
  · cases hstage
  · cases h
  · obtain ⟨-, heq⟩ := Option.ite_none_right_eq_some.mp h
    exact send_ne_error hc (Option.some.inj heq)
  · cases h
  · obtain ⟨-, heq⟩ := Option.ite_none_right_eq_some.mp h
    cases heq
  · split at h
    · have hcall := Option.some.inj h
      rw [call] at hcall
      split at hcall
      · cases hcall
      · exact hc (Except.error.inj hcall).symm
    · cases h
  · cases h
  · exact send_ne_error hc (Option.some.inj h)
  · cases h
  · next r phase back recv =>
    have hclose := Option.some.inj h
    cases phase with
    | callback => cases hstage
    | unregister => cases hclose
    | removeTimer => cases hclose
    | onDisconnected => cases hclose
  · cases h

/-- A step that calls the read or the close callback throws exactly if it is missing. -/
lemma work_eq_error_iff (hstage : stage.callee = some (r, c))
    (h : s.work env n stage move = some result) :
    (result = .error .read ∨ result = .error .close) ↔ c ∉ s.callbacks r := by
  have hcall : ∀ {next : WorkerStage × World}, (c = .read ∨ c = .close) →
      ((s.call r c next = .error .read ∨ s.call r c next = .error .close) ↔
        c ∉ s.callbacks r) := by
    intro next hc
    by_cases hset : c ∈ s.callbacks r
    · simp [call, hset]
    · rcases hc with rfl | rfl <;> simp [call, hset]
  unfold WorkerStage.callee at hstage
  split at hstage
  · next r' batch =>
    cases hstage
    cases move with
    | goOn recv =>
      obtain rfl := Option.some.inj h
      exact hcall (Or.inl rfl)
    | _ => cases h
  · next r' back =>
    cases hstage
    cases move with
    | goOn recv =>
      obtain rfl := Option.some.inj h
      exact hcall (Or.inr rfl)
    | _ => cases h
  · cases hstage

/-- A worker thread throws for a read or close callback exactly if it calls one that the base
thread has still to set. -/
lemma callbacksInPlace_after (h : Sound s) (hin : CallbacksInPlace s)
    (hwork : s.work env n (s.worker n) move = some result) :
    CallbacksInPlace (s.after n result) ↔ AfterInstallation s (.worker n move) := by
  have hresult : CallbacksInPlace (s.after n result) ↔
      ¬ (result = .error .read ∨ result = .error .close) := by
    cases result with
    | error c => cases c <;> simp [CallbacksInPlace, after]
    | ok result => simpa [CallbacksInPlace, after] using hin
  rw [hresult]
  cases hcallee : (s.worker n).callee with
  | none =>
    have hnone : AfterInstallation s (.worker n move) := by simp [AfterInstallation, hcallee]
    refine iff_of_true ?_ hnone
    rintro (rfl | rfl)
    · exact work_ne_error hcallee (by decide) hwork
    · exact work_ne_error hcallee (by decide) hwork
  | some callee =>
    obtain ⟨r, c⟩ := callee
    have hlt := (h.holds n r (WorkerStage.holds_of_callee hcallee)).1
    have hguard : AfterInstallation s (.worker n move) ↔ ¬ s.base.Awaits r c := by
      simp [AfterInstallation, hcallee]
    rw [work_eq_error_iff hcallee hwork, hguard, not_not]
    exact h.callbacks r hlt c

/-- **In a run, no read or close callback is called before it has been set, if and only if every
worker thread reaches its calls of the callbacks of a connection after the base thread has set
them.** -/
theorem callbacksInPlace_iff {tr : List (AcceptingStep × Accepting)} (hinit : (system env).init s)
    (hrun : (system env).Run s tr) :
    (∀ q ∈ tr, CallbacksInPlace q.2) ↔ TransitionSystem.Guarded AfterInstallation s tr := by
  obtain ⟨threadNum, -, rfl⟩ := hinit
  refine hrun.forall_iff_guarded (I := Sound) (fun _ _ _ h hstep => h.next hstep) ?_
    (sound_start threadNum) ⟨by simp [start], by simp [start]⟩
  intro s step s' hsound hin hstep
  obtain ⟨hthrown, ⟨fd, rfl, -, rfl⟩ | ⟨order, rfl, hconnect⟩ | ⟨w, rfl, -, -, rfl⟩ |
    ⟨n, move, result, rfl, -, hwork, rfl⟩⟩ := next_cases hstep
  · exact iff_of_true hin trivial
  · refine iff_of_true ?_ trivial
    rw [CallbacksInPlace, (prepares_connect hsound hconnect).thrown]
    exact hin
  · exact iff_of_true hin trivial
  · exact callbacksInPlace_after hsound hin hwork

/-! ## Runs on fixed inputs -/

/-- The base thread takes some steps of `onAccept` and `onConnected`. -/
def connects (count : ℕ) : List AcceptingStep :=
  List.replicate count (.connect [])

/-- The first worker thread is told that the first connection can be read, and receives. -/
def receives (recv : RecvResult) : List AcceptingStep :=
  [.worker 0 (.poll [(0, true, false)]), .worker 0 (.goOn recv)]

/-- The first worker thread takes some steps. -/
def goesOn (count : ℕ) : List AcceptingStep :=
  List.replicate count (.worker 0 (.goOn .eof))

/-- The process after a list of steps, with one worker thread. -/
def run (steps : List AcceptingStep) : Accepting :=
  TransitionSystem.runAll (next calm) (start 1) steps

lemma reachableUnder_run {C : Accepting → AcceptingStep → Prop}
    [∀ s step, Decidable (C s step)] {steps : List AcceptingStep}
    (h : TransitionSystem.follows (next calm) C (start 1) steps = true) :
    (system calm).ReachableUnder C (run steps) :=
  TransitionSystem.ReachableUnder.runAll (fun _ _ _ => id) (.init ⟨1, by decide, rfl⟩) h

/-- A client connects, and its first bytes arrive after the connect. -/
def arrivesLate : List (AcceptingStep × Accepting) :=
  TransitionSystem.states (next calm) (start 1)
    ([.accept 5] ++ connects 8 ++ receives (.data (ascii "hi\n")) ++ goesOn 1)

/-- The worker thread calls the read callback after it has been set, and none is missing. -/
theorem callbacksInPlace_iff_arrivesLate :
    TransitionSystem.Guarded AfterInstallation (start 1) arrivesLate ∧
      ∀ q ∈ arrivesLate, CallbacksInPlace q.2 := by
  have hfollows : TransitionSystem.follows (next calm) AfterInstallation (start 1)
      ([.accept 5] ++ connects 8 ++ receives (.data (ascii "hi\n")) ++ goesOn 1) = true := by
    decide
  obtain ⟨hrun, hguarded⟩ :=
    TransitionSystem.run_states (T := system calm) (fun _ _ _ => id) hfollows
  exact ⟨hguarded, (callbacksInPlace_iff ⟨1, by decide, rfl⟩ hrun).mpr hguarded⟩

/-- A client whose first bytes arrive before the session has been constructed: the empty read
callback is called. -/
theorem exists_missing_callback :
    ¬ ∀ env s, (system env).Reachable s → CallbacksInPlace s := by
  intro h
  have hreach : (system calm).Reachable
      (run ([.accept 5] ++ receives (.data (ascii "hi\n")) ++ goesOn 1)) :=
    reachableUnder_run (by decide)
  exact (h calm _ hreach).1 (by decide)

/-! ## Closed sessions -/

/-- Neither `onConnected` nor a close is in progress. -/
def Quiet (s : Accepting) : Prop :=
  s.base.connecting = none ∧ ∀ n < s.world.threadNum, (s.worker n).closing = none

instance (s : Accepting) : Decidable s.Quiet :=
  inferInstanceAs (Decidable (_ ∧ _))

/-- No session is stored whose connection has been closed, unless the lookup of its close is still
to come. -/
def StoresNoClosed (s : Accepting) : AcceptingStep → Prop
  | .connect _ =>
    match s.base with
    | .reminded r => (s.world.connection r).closed = true →
        ∃ n < s.world.threadNum, (s.worker n).closing = some r
    | _ => True
  | _ => True

instance (s : Accepting) (step : AcceptingStep) : Decidable (StoresNoClosed s step) := by
  unfold StoresNoClosed
  split
  · split <;> infer_instance
  · infer_instance

/-- The close of every closed session in the map is in progress. -/
def ClosesInProgress (s : Accepting) : Prop :=
  ∀ entry ∈ s.world.sessions, (s.world.connection entry.2).closed = true →
    ∃ n < s.world.threadNum, (s.worker n).closing = some entry.2

/-- A step of `onAccept` and `onConnected`. -/
lemma closesInProgress_connect (hs' : Prepares s s') (h : ClosesInProgress s)
    (hstored : ∀ r, s.base = .reminded r → (s.world.connection r).closed = true →
      ∃ n < s.world.threadNum, (s.worker n).closing = some r) : ClosesInProgress s' := by
  intro entry hentry hclosed
  rw [hs'.connection] at hclosed
  rw [hs'.worker, hs'.threadNum]
  rcases hs'.sessions entry hentry with hold | ⟨hbase, -⟩
  · exact h entry hold hclosed
  · exact hstored entry.2 hbase hclosed

/-- A step of a worker thread. -/
lemma closesInProgress_work (h : ClosesInProgress s) (hn : n < s.world.threadNum)
    (hworks : Works n (s.worker n) s.world stage w) :
    ClosesInProgress (s.after n (.ok (stage, w))) := by
  intro entry hentry hclosed
  have hthread : w.threadNum = s.world.threadNum := hworks.affects.threadNum
  simp only [after, hthread] at hentry hclosed ⊢
  rcases hworks.closed entry.2 hclosed with hold | hnew
  · obtain ⟨m, hmt, hm⟩ := h entry (hworks.affects.sessions.subset hentry) hold
    by_cases hmn : m = n
    · -- the thread has not finished the close, because the session is still in the map
      subst hmn
      rcases hworks.closing entry.2 hm with hstage | hgone
      · exact ⟨m, hmt, by rwa [Function.update_self]⟩
      · exact absurd (List.mem_map_of_mem hentry) hgone
    · exact ⟨m, hmt, by rwa [Function.update_of_ne hmn]⟩
  · exact ⟨n, hn, by rwa [Function.update_self]⟩

/-- Every step keeps it, if it stores no closed session. -/
lemma closesInProgress_next (hsound : Sound s) (h : ClosesInProgress s)
    (hguard : StoresNoClosed s step) (hstep : s.next env step = some s') :
    ClosesInProgress s' := by
  obtain ⟨-, ⟨fd, rfl, hbase, rfl⟩ | ⟨order, rfl, hconnect⟩ | ⟨w, rfl, -, hok, rfl⟩ |
    ⟨n, move, result, rfl, hn, hwork, rfl⟩⟩ := next_cases hstep
  · intro entry hentry hclosed
    have hlt := hsound.wellFormed.owned_lt _ (mem_owned_of_mem_sessions hentry)
    rw [onAccept_connection fd hlt.ne] at hclosed
    exact h entry hentry hclosed
  · refine closesInProgress_connect (prepares_connect hsound hconnect) h fun r hbase hclosed => ?_
    simp only [StoresNoClosed, hbase] at hguard
    exact hguard hclosed
  · intro entry hentry hclosed
    rw [checkHandup_connection (fun t ht => hsound.pointed.loop t
      (hsound.wellFormed.owned_lt t (List.mem_append_left _ ht))) hok] at hclosed
    have haffects := Process.affects_checkHandup hok
    rw [ClosesInProgress] at h
    simp only [haffects.threadNum]
    exact h entry (haffects.sessions.subset hentry) hclosed
  · cases result with
    | error c => exact h
    | ok result =>
      have hworks := works_work hsound.wellFormed hsound.pointed (hsound.holds n) hwork
      exact closesInProgress_work h hn hworks

/-- **In a run that stores no session after its close, no closed session is in the map while
neither `onConnected` nor a close is in progress.** -/
theorem noClosedSession (h : (system env).ReachableUnder StoresNoClosed s) (hquiet : s.Quiet) :
    ∀ entry ∈ s.world.sessions, (s.world.connection entry.2).closed = false := by
  have hkept : Sound s ∧ ClosesInProgress s := by
    refine h.invariant (P := fun s => Sound s ∧ ClosesInProgress s) ?_ fun _ _ _ h hguard hstep =>
      ⟨h.1.next hstep, closesInProgress_next h.1 h.2 hguard hstep⟩
    rintro s ⟨threadNum, -, rfl⟩
    exact ⟨sound_start threadNum, fun entry hentry => absurd hentry List.not_mem_nil⟩
  intro entry hentry
  by_contra hclosed
  obtain ⟨n, hlt, hn⟩ := hkept.2 entry hentry (eq_true_of_ne_false hclosed)
  rw [hquiet.2 n hlt] at hn
  cases hn

/-- Two sessions connect, and the first one hangs up. -/
def hangsUp : List AcceptingStep :=
  [.accept 5] ++ connects 8 ++ [.accept 6] ++ connects 8 ++ receives .eof ++ goesOn 4

/-- The second session is still in the map, and its connection is open. -/
theorem noClosedSession_hangsUp : (run hangsUp).world.sessions = [(2, 1)] ∧
    ∀ entry ∈ (run hangsUp).world.sessions,
      ((run hangsUp).world.connection entry.2).closed = false :=
  ⟨by decide, noClosedSession (reachableUnder_run (by decide)) (by decide)⟩

/-- A client that hangs up before its session is stored: the close finds nothing in the map, and
the session is stored afterwards. -/
theorem exists_closed_session_stored :
    ¬ ∀ env s, (system env).Reachable s → s.Quiet → ∀ entry ∈ s.world.sessions,
      (s.world.connection entry.2).closed = false := by
  intro h
  have hreach : (system calm).Reachable
      (run ([.accept 5] ++ connects 7 ++ receives .eof ++ goesOn 4 ++ connects 1)) :=
    reachableUnder_run (by decide)
  have hopen := h calm _ hreach (by decide) (1, 0) (by decide)
  exact absurd hopen (by decide)

end Accepting

end Calc24
