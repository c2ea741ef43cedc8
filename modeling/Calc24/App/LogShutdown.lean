import Calc24.Lib.Mutex
import Calc24.Lib.TransitionSystem

/-!
# Shutting the log down

`CAsyncLog::uninit` sets `m_bExit`, notifies the condition variable and joins the thread that
writes (`appsrc/AsyncLog.cpp`).  It does so without the lock.  The writing thread tests the queue
and the flag under the lock and then waits, so the notification may come after the test and before
the wait, when there is nobody to receive it.

This file interleaves the writing thread with any number of threads inside `CAsyncLog::output` and
with one call of `uninit`.  A `notify` wakes the writing thread if it waits and is lost otherwise,
and the wait gives the lock back in the step in which it begins.  If the notification of `uninit`
does not come between the test and the wait, or an `output` is under way that will notify too, then
`uninit` is never kept waiting for a thread that nobody wakes (`not_deadlocked`); and where it does
come there, the wait is such a state (`deadlocked_of_wait`).
-/

namespace Calc24

/-- The threads that take `m_mutexWrite`. -/
inductive LogThread (T : Type*)
  | producer (thread : T)
  | writer

/-- Where a thread is in `output`: before the lock, under it before and after the `push_back`, and
after the `notify_one`. -/
inductive OutputStage (κ : Type*)
  | outside
  | entered (line : κ)
  | locked (line : κ)
  | pushed
  | notified

/-- The thread has the lock. -/
def OutputStage.Critical {κ : Type*} : OutputStage κ → Prop
  | .locked _ | .pushed | .notified => True
  | _ => False

/-- The thread is on the way to its `notify_one`. -/
def OutputStage.Notifying {κ : Type*} : OutputStage κ → Prop
  | .entered _ | .locked _ | .pushed => True
  | _ => False

instance {κ : Type*} : DecidablePred (OutputStage.Notifying (κ := κ)) := fun stage =>
  match stage with
  | .entered _ | .locked _ | .pushed => .isTrue trivial
  | .outside | .notified => .isFalse not_false

/-- Where the call of `uninit` is: before it, behind the assignment to `m_bExit`, in `join`, or
returned. -/
inductive UninitStage
  | outside
  | exitSet
  | joining
  | joined
  deriving DecidableEq, Repr

/-- Where the writing thread is: at the file, before the lock, at the test of the queue, at a line
that it has found, at the test of `m_bExit`, before the wait, in the wait, notified, at the write of
a line, or returned. -/
inductive WriterStage (κ : Type*)
  | checkFile
  | lock
  | testEmpty
  | takeLine
  | testExit
  | beforeWait
  | waiting
  | woken
  | write (line : κ)
  | finished
  deriving DecidableEq

/-- The thread has the lock. -/
def WriterStage.Critical {κ : Type*} : WriterStage κ → Prop
  | .testEmpty | .takeLine | .testExit | .beforeWait => True
  | _ => False

/-- The thread has found `m_bExit` unset, and waits for a notification or is about to. -/
def WriterStage.Sleepy {κ : Type*} : WriterStage κ → Prop
  | .beforeWait | .waiting => True
  | _ => False

/-- A notification reaches the thread if it waits. -/
def WriterStage.wake {κ : Type*} : WriterStage κ → WriterStage κ
  | .waiting => .woken
  | stage => stage

/-- The log, and the threads at it. -/
structure LogShutdown (T κ : Type*) where
  mutexWrite : Option (LogThread T)
  exit : Bool
  linesToWrite : List κ
  output : T → OutputStage κ
  uninit : UninitStage
  writer : WriterStage κ

/-- The steps of a thread in `output`, those of the call of `uninit`, and those of the writing
thread; a file that cannot be created or written ends it. -/
inductive LogShutdownStep (T κ : Type*)
  | output (thread : T) (line : κ)
  | lock (thread : T)
  | pushBack (thread : T)
  | notify (thread : T)
  | unlock (thread : T)
  | setExit
  | notifyExit
  | join
  | checkFile (success : Bool)
  | lockWriter
  | testEmpty
  | takeLine
  | testExit
  | wait
  | relock
  | write (success : Bool)

namespace LogShutdown

variable {T κ : Type*} [DecidableEq T]

/-- The log when its thread has been started. -/
def init : LogShutdown T κ where
  mutexWrite := none
  exit := false
  linesToWrite := []
  output := fun _ => .outside
  uninit := .outside
  writer := .checkFile

/-- The thread goes on to another place in `output`. -/
def enter (s : LogShutdown T κ) (thread : T) (stage : OutputStage κ) : LogShutdown T κ :=
  { s with output := Function.update s.output thread stage }

/-- `notify_one`. -/
def wake (s : LogShutdown T κ) : LogShutdown T κ :=
  { s with writer := s.writer.wake }

/-- One step, where it is possible. -/
def next (s : LogShutdown T κ) : LogShutdownStep T κ → Option (LogShutdown T κ)
  | .output thread line =>
    match s.output thread with
    | .outside => some (s.enter thread (.entered line))
    | _ => none
  | .lock thread =>
    match s.output thread, s.mutexWrite with
    | .entered line, none =>
      some { s.enter thread (.locked line) with mutexWrite := some (.producer thread) }
    | _, _ => none
  | .pushBack thread =>
    match s.output thread with
    | .locked line => some { s.enter thread .pushed with linesToWrite := s.linesToWrite ++ [line] }
    | _ => none
  | .notify thread =>
    match s.output thread with
    | .pushed => some ((s.enter thread .notified).wake)
    | _ => none
  | .unlock thread =>
    match s.output thread with
    | .notified => some { s.enter thread .outside with mutexWrite := none }
    | _ => none
  | .setExit =>
    match s.uninit with
    | .outside => some { s with exit := true, uninit := .exitSet }
    | _ => none
  | .notifyExit =>
    match s.uninit with
    | .exitSet => some { s.wake with uninit := .joining }
    | _ => none
  | .join =>
    match s.uninit, s.writer with
    | .joining, .finished => some { s with uninit := .joined }
    | _, _ => none
  | .checkFile success =>
    match s.writer with
    | .checkFile => some { s with writer := if success then .lock else .finished }
    | _ => none
  | .lockWriter =>
    match s.writer, s.mutexWrite with
    | .lock, none => some { s with writer := .testEmpty, mutexWrite := some .writer }
    | _, _ => none
  | .testEmpty =>
    match s.writer, s.linesToWrite with
    | .testEmpty, [] => some { s with writer := .testExit }
    | .testEmpty, _ :: _ => some { s with writer := .takeLine }
    | _, _ => none
  | .takeLine =>
    -- the lock is given back at the end of the block
    match s.writer, s.linesToWrite with
    | .takeLine, line :: lines =>
      some { s with writer := .write line, linesToWrite := lines, mutexWrite := none }
    | _, _ => none
  | .testExit =>
    match s.writer with
    | .testExit =>
      if s.exit then some { s with writer := .finished, mutexWrite := none }
      else some { s with writer := .beforeWait }
    | _ => none
  | .wait =>
    match s.writer with
    | .beforeWait => some { s with writer := .waiting, mutexWrite := none }
    | _ => none
  | .relock =>
    match s.writer, s.mutexWrite with
    | .woken, none => some { s with writer := .testEmpty, mutexWrite := some .writer }
    | _, _ => none
  | .write success =>
    match s.writer with
    | .write _ => some { s with writer := if success then .checkFile else .finished }
    | _ => none

/-- The runs of the log. -/
def system : TransitionSystem (LogShutdown T κ) (LogShutdownStep T κ) where
  init s := s = LogShutdown.init
  step s l s' := s.next l = some s'

/-- `uninit` is in `join`, the writing thread waits with an empty queue, and nobody is on the way to
a `notify_one`. -/
structure Deadlocked (s : LogShutdown T κ) : Prop where
  uninit : s.uninit = .joining
  writer : s.writer = .waiting
  linesToWrite : s.linesToWrite = []
  output : ∀ thread, ¬ (s.output thread).Notifying

/-- The notification of `uninit` does not come between the test of `m_bExit` and the wait, or
another one is under way. -/
def NotLost (s : LogShutdown T κ) : LogShutdownStep T κ → Prop
  | .notifyExit => s.writer ≠ .beforeWait ∨ ∃ thread, (s.output thread).Notifying
  | _ => True

instance [Fintype T] [DecidableEq κ] (s : LogShutdown T κ) (l : LogShutdownStep T κ) :
    Decidable (s.NotLost l) :=
  match l with
  | .notifyExit => inferInstanceAs (Decidable (_ ∨ _))
  | .output _ _ | .lock _ | .pushBack _ | .notify _ | .unlock _ | .setExit | .join | .checkFile _
  | .lockWriter | .testEmpty | .takeLine | .testExit | .wait | .relock | .write _ =>
    .isTrue trivial

/-! ## Steps -/

variable {s s' : LogShutdown T κ} {l : LogShutdownStep T κ} {thread : T}

/-- The steps of a thread in `output`, as what they do to the state. -/
inductive OutputMove (thread : T) (s : LogShutdown T κ) : LogShutdown T κ → Prop
  | output (line : κ) (hstage : s.output thread = .outside) :
    OutputMove thread s (s.enter thread (.entered line))
  | lock (line : κ) (hstage : s.output thread = .entered line)
    (hfree : s.mutexWrite = none) :
    OutputMove thread s { s.enter thread (.locked line) with mutexWrite := some (.producer thread) }
  | pushBack (line : κ) (hstage : s.output thread = .locked line) :
    OutputMove thread s { s.enter thread .pushed with linesToWrite := s.linesToWrite ++ [line] }
  | notify (hstage : s.output thread = .pushed) :
    OutputMove thread s (s.enter thread .notified).wake
  | unlock (hstage : s.output thread = .notified) :
    OutputMove thread s { s.enter thread .outside with mutexWrite := none }

/-- The steps of the writing thread. -/
inductive WriterMove (s : LogShutdown T κ) : LogShutdown T κ → Prop
  | checkFile (success : Bool) (hstage : s.writer = .checkFile) :
    WriterMove s { s with writer := if success then .lock else .finished }
  | lockWriter (hstage : s.writer = .lock ∨ s.writer = .woken) (hfree : s.mutexWrite = none) :
    WriterMove s { s with writer := .testEmpty, mutexWrite := some .writer }
  | empty (hstage : s.writer = .testEmpty) (hlines : s.linesToWrite = []) :
    WriterMove s { s with writer := .testExit }
  | notEmpty (hstage : s.writer = .testEmpty) : WriterMove s { s with writer := .takeLine }
  | takeLine (line : κ) (lines : List κ) (hstage : s.writer = .takeLine)
    (hlines : s.linesToWrite = line :: lines) :
    WriterMove s { s with writer := .write line, linesToWrite := lines, mutexWrite := none }
  | exit (hstage : s.writer = .testExit) (hexit : s.exit = true) :
    WriterMove s { s with writer := .finished, mutexWrite := none }
  | noExit (hstage : s.writer = .testExit) (hexit : s.exit = false) :
    WriterMove s { s with writer := .beforeWait }
  | wait (hstage : s.writer = .beforeWait) :
    WriterMove s { s with writer := .waiting, mutexWrite := none }
  | write (line : κ) (success : Bool) (hstage : s.writer = .write line) :
    WriterMove s { s with writer := if success then .checkFile else .finished }

/-- Every step is one of them, or one of `uninit`. -/
lemma step_cases (h : system.step s l s') :
    (∃ thread, OutputMove thread s s') ∨ WriterMove s s' ∨
    (l = .setExit ∧ s.uninit = .outside ∧ s' = { s with exit := true, uninit := .exitSet }) ∨
    (l = .notifyExit ∧ s.uninit = .exitSet ∧ s' = { s.wake with uninit := .joining }) ∨
    (l = .join ∧ s.uninit = .joining ∧ s' = { s with uninit := .joined }) := by
  cases l with
  | output thread line =>
    simp only [system, next] at h
    split at h
    · next hstage =>
      cases h
      exact Or.inl ⟨thread, .output line hstage⟩
    · cases h
  | lock thread =>
    simp only [system, next] at h
    split at h
    · next line hstage hfree =>
      cases h
      exact Or.inl ⟨thread, .lock line hstage hfree⟩
    · cases h
  | pushBack thread =>
    simp only [system, next] at h
    split at h
    · next line hstage =>
      cases h
      exact Or.inl ⟨thread, .pushBack line hstage⟩
    · cases h
  | notify thread =>
    simp only [system, next] at h
    split at h
    · next hstage =>
      cases h
      exact Or.inl ⟨thread, .notify hstage⟩
    · cases h
  | unlock thread =>
    simp only [system, next] at h
    split at h
    · next hstage =>
      cases h
      exact Or.inl ⟨thread, .unlock hstage⟩
    · cases h
  | setExit =>
    simp only [system, next] at h
    split at h
    · next hstage =>
      cases h
      exact Or.inr (Or.inr (Or.inl ⟨rfl, hstage, rfl⟩))
    · cases h
  | notifyExit =>
    simp only [system, next] at h
    split at h
    · next hstage =>
      cases h
      exact Or.inr (Or.inr (Or.inr (Or.inl ⟨rfl, hstage, rfl⟩)))
    · cases h
  | join =>
    simp only [system, next] at h
    split at h
    · next hstage hfinished =>
      cases h
      exact Or.inr (Or.inr (Or.inr (Or.inr ⟨rfl, hstage, rfl⟩)))
    · cases h
  | checkFile success =>
    simp only [system, next] at h
    split at h
    · next hstage =>
      cases h
      exact Or.inr (Or.inl (.checkFile success hstage))
    · cases h
  | lockWriter =>
    simp only [system, next] at h
    split at h
    · next hstage hfree =>
      cases h
      exact Or.inr (Or.inl (.lockWriter (Or.inl hstage) hfree))
    · cases h
  | testEmpty =>
    simp only [system, next] at h
    split at h
    · next hstage hlines =>
      cases h
      exact Or.inr (Or.inl (.empty hstage hlines))
    · next hstage hlines =>
      cases h
      exact Or.inr (Or.inl (.notEmpty hstage))
    · cases h
  | takeLine =>
    simp only [system, next] at h
    split at h
    · next line lines hstage hlines =>
      cases h
      exact Or.inr (Or.inl (.takeLine line lines hstage hlines))
    · cases h
  | testExit =>
    simp only [system, next] at h
    split at h
    · next hstage =>
      split at h
      · next hexit =>
        cases h
        exact Or.inr (Or.inl (.exit hstage hexit))
      · next hexit =>
        cases h
        exact Or.inr (Or.inl (.noExit hstage (Bool.eq_false_of_not_eq_true hexit)))
    · cases h
  | wait =>
    simp only [system, next] at h
    split at h
    · next hstage =>
      cases h
      exact Or.inr (Or.inl (.wait hstage))
    · cases h
  | relock =>
    simp only [system, next] at h
    split at h
    · next hstage hfree =>
      cases h
      exact Or.inr (Or.inl (.lockWriter (Or.inr hstage) hfree))
    · cases h
  | write success =>
    simp only [system, next] at h
    split at h
    · next line hstage =>
      cases h
      exact Or.inr (Or.inl (.write line success hstage))
    · cases h

omit [DecidableEq T] in
/-- A notification gives nobody the lock. -/
lemma writer_wake_cases (s : LogShutdown T κ) :
    (s.writer = .waiting ∧ s.wake.writer = .woken) ∨
      (s.writer ≠ .waiting ∧ s.wake.writer = s.writer) := by
  cases hwriter : s.writer <;> simp [wake, WriterStage.wake, hwriter]

/-- The threads that are between the lock and the unlock. -/
def Critical (s : LogShutdown T κ) : LogThread T → Prop
  | .producer thread => (s.output thread).Critical
  | .writer => s.writer.Critical

/-- A thread in `output` has gone to another place. -/
lemma critical_of_output {stage : OutputStage κ} {t : LogThread T} (ht : s'.Critical t)
    (hwriter : s'.writer = s.writer)
    (houtput : s'.output = Function.update s.output thread stage) :
    t ≠ .producer thread ∧ s.Critical t ∨ t = .producer thread ∧ stage.Critical := by
  cases t with
  | producer thread' =>
    simp only [Critical, houtput] at ht
    by_cases heq : thread' = thread
    · subst heq
      rw [Function.update_self] at ht
      exact Or.inr ⟨rfl, ht⟩
    · rw [Function.update_of_ne heq] at ht
      exact Or.inl ⟨fun hsame => heq (LogThread.producer.inj hsame), ht⟩
  | writer =>
    simp only [Critical, hwriter] at ht
    exact Or.inl ⟨by simp, ht⟩

omit [DecidableEq T] in
/-- The writing thread has gone to another place. -/
lemma critical_of_writer {t : LogThread T} (ht : s'.Critical t) (houtput : s'.output = s.output) :
    t ≠ .writer ∧ s.Critical t ∨ t = .writer ∧ s'.writer.Critical := by
  cases t with
  | producer thread' =>
    simp only [Critical, houtput] at ht
    exact Or.inl ⟨by simp, ht⟩
  | writer => exact Or.inr ⟨rfl, ht⟩

/-- Who is between the lock and the unlock has the lock, and the queue is empty while the writing
thread is behind the test that has found it empty. -/
structure Excluded (s : LogShutdown T κ) : Prop where
  mutexWrite : Mutex.Excludes s.Critical s.mutexWrite
  empty : s.writer = .testExit ∨ s.writer = .beforeWait → s.linesToWrite = []

omit [DecidableEq T] in
/-- The writing thread and another one are not between the lock and the unlock at once. -/
lemma Excluded.not_writer_critical (h : Excluded s) (hthread : (s.output thread).Critical) :
    ¬ s.writer.Critical := by
  intro hwriter
  have hproducer : s.Critical (.producer thread) := hthread
  have heq : LogThread.producer thread = .writer := h.mutexWrite.eq hproducer hwriter
  cases heq

omit [DecidableEq T] in
/-- A notification gives nobody the lock. -/
lemma Excluded.wake (h : Excluded s) : Excluded s.wake := by
  rcases writer_wake_cases s with ⟨-, hwoken⟩ | ⟨-, hsame⟩
  · refine ⟨h.mutexWrite.mono fun t ht => ?_, fun hwriter => ?_⟩
    · rcases critical_of_writer (s := s) ht rfl with ⟨-, hold⟩ | ⟨-, hwriter⟩
      · exact hold
      · rw [hwoken] at hwriter
        exact hwriter.elim
    · rw [hwoken] at hwriter
      rcases hwriter with hwriter | hwriter <;> cases hwriter
  · refine ⟨h.mutexWrite.mono fun t ht => ?_, fun hwriter => h.empty (hsame ▸ hwriter)⟩
    rcases critical_of_writer (s := s) ht rfl with ⟨-, hold⟩ | ⟨rfl, hwriter⟩
    · exact hold
    · rwa [hsame] at hwriter

/-- A thread in `output` keeps the lock, or is not where it needs it. -/
lemma Excluded.enter (h : Excluded s) {stage : OutputStage κ}
    (hcritical : stage.Critical → (s.output thread).Critical) :
    Mutex.Excludes (s.enter thread stage).Critical s.mutexWrite := by
  refine h.mutexWrite.mono fun t ht => ?_
  rcases critical_of_output (s := s) ht rfl rfl with ⟨-, hold⟩ | ⟨rfl, hstage⟩
  · exact hold
  · exact hcritical hstage

lemma Excluded.outputMove (h : Excluded s) (hmove : OutputMove thread s s') : Excluded s' := by
  cases hmove with
  | output line hstage => exact ⟨h.enter fun hfalse => hfalse.elim, h.empty⟩
  | lock line hstage hfree =>
    have hmutex := h.mutexWrite
    rw [hfree] at hmutex
    refine ⟨hmutex.acquire fun t ht => ?_, h.empty⟩
    rcases critical_of_output (s := s) ht rfl rfl with ⟨-, hold⟩ | ⟨hsame, -⟩
    · exact Or.inl hold
    · exact Or.inr hsame
  | pushBack line hstage =>
    have hcritical : (s.output thread).Critical := by rw [hstage]; trivial
    refine ⟨h.enter fun _ => hcritical, fun hwriter => ?_⟩
    refine absurd ?_ (h.not_writer_critical hcritical)
    rcases hwriter with hwriter | hwriter <;> rw [show s.writer = _ from hwriter] <;> trivial
  | notify hstage =>
    have henter : Excluded (s.enter thread .notified) :=
      ⟨h.enter fun _ => by rw [hstage]; trivial, h.empty⟩
    exact henter.wake
  | unlock hstage =>
    have hcritical : s.Critical (.producer thread) := by
      rw [Critical, hstage]
      trivial
    refine ⟨h.mutexWrite.release hcritical fun t ht => ?_, h.empty⟩
    rcases critical_of_output (s := s) ht rfl rfl with ⟨hne, hold⟩ | ⟨-, hfalse⟩
    · exact ⟨hold, hne⟩
    · exact hfalse.elim

omit [DecidableEq T] in
/-- The writing thread keeps the lock, or is not where it needs it. -/
lemma Excluded.writer_keeps (h : Excluded s) {stage : WriterStage κ}
    (hcritical : stage.Critical → s.writer.Critical) :
    Mutex.Excludes { s with writer := stage }.Critical s.mutexWrite := by
  refine h.mutexWrite.mono fun t ht => ?_
  rcases critical_of_writer (s := s) ht rfl with ⟨-, hold⟩ | ⟨rfl, hstage⟩
  · exact hold
  · exact hcritical hstage

omit [DecidableEq T] in
/-- The writing thread gives the lock back. -/
lemma Excluded.writer_unlock (h : Excluded s) (hcritical : s.writer.Critical)
    {stage : WriterStage κ} {lines : List κ} (hstage : ¬ stage.Critical) :
    Excluded { s with writer := stage, linesToWrite := lines, mutexWrite := none } where
  mutexWrite := by
    refine h.mutexWrite.release (t := .writer) hcritical fun t ht => ?_
    rcases critical_of_writer (s := s) ht rfl with ⟨hne, hold⟩ | ⟨-, hwriter⟩
    · exact ⟨hold, hne⟩
    · exact absurd hwriter hstage
  empty hwriter := by
    refine absurd ?_ hstage
    rcases hwriter with hwriter | hwriter <;> rw [show stage = _ from hwriter] <;> trivial

omit [DecidableEq T] in
lemma Excluded.writerMove (h : Excluded s) (hmove : WriterMove s s') : Excluded s' := by
  cases hmove with
  | checkFile success hstage =>
    cases success <;> exact ⟨h.writer_keeps fun hfalse => hfalse.elim, by simp⟩
  | lockWriter hstage hfree =>
    have hmutex := h.mutexWrite
    rw [hfree] at hmutex
    refine ⟨hmutex.acquire fun t ht => ?_, by simp⟩
    rcases critical_of_writer (s := s) ht rfl with ⟨-, hold⟩ | ⟨hsame, -⟩
    · exact Or.inl hold
    · exact Or.inr hsame
  | empty hstage hlines =>
    exact ⟨h.writer_keeps fun _ => by rw [hstage]; trivial, fun _ => hlines⟩
  | notEmpty hstage => exact ⟨h.writer_keeps fun _ => by rw [hstage]; trivial, by simp⟩
  | takeLine line lines hstage hlines =>
    exact h.writer_unlock (by rw [hstage]; trivial) not_false
  | exit hstage hexit => exact h.writer_unlock (by rw [hstage]; trivial) not_false
  | noExit hstage hexit =>
    exact ⟨h.writer_keeps fun _ => by rw [hstage]; trivial, fun _ => h.empty (Or.inl hstage)⟩
  | wait hstage => exact h.writer_unlock (by rw [hstage]; trivial) not_false
  | write line success hstage =>
    cases success <;> exact ⟨h.writer_keeps fun hfalse => hfalse.elim, by simp⟩

/-- **Mutual exclusion.** -/
lemma Excluded.step (h : Excluded s) (hstep : system.step s l s') : Excluded s' := by
  rcases step_cases hstep with ⟨thread, hmove⟩ | hmove | ⟨-, -, rfl⟩ | ⟨-, -, rfl⟩ | ⟨-, -, rfl⟩
  · exact h.outputMove hmove
  · exact h.writerMove hmove
  · exact ⟨h.mutexWrite, h.empty⟩
  · exact ⟨h.wake.mutexWrite, h.wake.empty⟩
  · exact ⟨h.mutexWrite, h.empty⟩

/-! ## The notification -/

omit [DecidableEq T] in
/-- A notification may reach a thread that waits, and only such a thread. -/
lemma sleepy_wake (h : s.wake.writer.Sleepy) : s.writer = .beforeWait := by
  cases hwriter : s.writer <;> simp_all [wake, WriterStage.wake, WriterStage.Sleepy]

/-- A thread that goes on stays on the way to its notification. -/
lemma notifying_enter {stage : OutputStage κ}
    (hstage : (s.output thread).Notifying → stage.Notifying)
    (h : ∃ thread, (s.output thread).Notifying) :
    ∃ thread', ((s.enter thread stage).output thread').Notifying := by
  obtain ⟨thread', hthread'⟩ := h
  refine ⟨thread', ?_⟩
  by_cases heq : thread' = thread
  · subst heq
    simpa only [enter, Function.update_self] using hstage hthread'
  · simpa only [enter, Function.update_of_ne heq] using hthread'

/-- When `uninit` has made its notification, somebody is on the way to another one if the writing
thread has missed it. -/
structure Heard (s : LogShutdown T κ) : Prop extends Excluded s where
  exit : s.uninit ≠ .outside → s.exit = true
  notifying : s.uninit = .joining → s.writer.Sleepy → ∃ thread, (s.output thread).Notifying

/-- A thread in `output` notifies under the lock, so the writing thread does not miss it. -/
lemma Heard.outputMove (h : Heard s) (hmove : OutputMove thread s s') : Heard s' := by
  have hexcluded := h.toExcluded.outputMove hmove
  cases hmove with
  | output line hstage =>
    exact ⟨hexcluded, h.exit, fun huninit hwriter =>
      notifying_enter (fun _ => trivial) (h.notifying huninit hwriter)⟩
  | lock line hstage hfree =>
    exact ⟨hexcluded, h.exit, fun huninit hwriter =>
      notifying_enter (fun _ => trivial) (h.notifying huninit hwriter)⟩
  | pushBack line hstage =>
    exact ⟨hexcluded, h.exit, fun huninit hwriter =>
      notifying_enter (fun _ => trivial) (h.notifying huninit hwriter)⟩
  | notify hstage =>
    refine ⟨hexcluded, h.exit, fun _ hwriter => ?_⟩
    -- the thread has the lock, so the writing thread is not before its wait
    have hcritical : (s.output thread).Critical := by rw [hstage]; trivial
    refine absurd ?_ (h.not_writer_critical hcritical)
    rw [show s.writer = .beforeWait from sleepy_wake hwriter]
    trivial
  | unlock hstage =>
    refine ⟨hexcluded, h.exit, fun huninit hwriter =>
      notifying_enter (fun hfalse => ?_) (h.notifying huninit hwriter)⟩
    rw [hstage] at hfalse
    exact hfalse.elim

omit [DecidableEq T] in
/-- The writing thread does not wait any more once it finds `m_bExit` set. -/
lemma Heard.writerMove (h : Heard s) (hmove : WriterMove s s') : Heard s' := by
  have hexcluded := h.toExcluded.writerMove hmove
  cases hmove with
  | checkFile success hstage =>
    cases success <;> exact ⟨hexcluded, h.exit, fun _ hfalse => hfalse.elim⟩
  | lockWriter hstage hfree => exact ⟨hexcluded, h.exit, fun _ hfalse => hfalse.elim⟩
  | empty hstage hlines => exact ⟨hexcluded, h.exit, fun _ hfalse => hfalse.elim⟩
  | notEmpty hstage => exact ⟨hexcluded, h.exit, fun _ hfalse => hfalse.elim⟩
  | takeLine line lines hstage hlines =>
    exact ⟨hexcluded, h.exit, fun _ hfalse => hfalse.elim⟩
  | exit hstage hexit => exact ⟨hexcluded, h.exit, fun _ hfalse => hfalse.elim⟩
  | noExit hstage hexit =>
    refine ⟨hexcluded, h.exit, fun huninit _ => ?_⟩
    have htrue := h.exit (by rw [show s.uninit = .joining from huninit]; simp)
    rw [hexit] at htrue
    cases htrue
  | wait hstage =>
    exact ⟨hexcluded, h.exit, fun huninit _ => h.notifying huninit (by rw [hstage]; trivial)⟩
  | write line success hstage =>
    cases success <;> exact ⟨hexcluded, h.exit, fun _ hfalse => hfalse.elim⟩

/-- A step that loses no notification leaves somebody to be heard. -/
lemma Heard.step (h : Heard s) (hnotLost : s.NotLost l) (hstep : system.step s l s') :
    Heard s' := by
  have hexcluded := h.toExcluded.step hstep
  rcases step_cases hstep with ⟨thread, hmove⟩ | hmove | ⟨-, -, rfl⟩ | ⟨rfl, hstage, rfl⟩ |
    ⟨-, hstage, rfl⟩
  · exact h.outputMove hmove
  · exact h.writerMove hmove
  · exact ⟨hexcluded, fun _ => rfl, by simp⟩
  · refine ⟨hexcluded, fun _ => h.exit (by rw [hstage]; simp), fun _ hwriter => ?_⟩
    exact hnotLost.resolve_left (not_not.mpr (sleepy_wake hwriter))
  · exact ⟨hexcluded, fun _ => h.exit (by rw [hstage]; simp), by simp⟩

omit [DecidableEq T] in
lemma heard_init : Heard (init : LogShutdown T κ) where
  mutexWrite t ht := by cases t <;> exact ht.elim
  empty _ := rfl
  exit hne := absurd rfl hne
  notifying hjoining := by cases hjoining

/-- **Where the notification of `uninit` does not come between the test of `m_bExit` and the wait,
or another one is under way, `uninit` does not wait for ever.** -/
theorem not_deadlocked (h : system.ReachableUnder NotLost s) : ¬ s.Deadlocked := by
  have hheard : Heard s := h.invariant (by rintro s rfl; exact heard_init)
    fun _ _ _ hs hnotLost hstep => hs.step hnotLost hstep
  intro hdeadlocked
  obtain ⟨thread, hthread⟩ := hheard.notifying hdeadlocked.uninit
    (by rw [hdeadlocked.writer]; trivial)
  exact hdeadlocked.output thread hthread

/-- A line is written, and the notification of `uninit` comes while the thread waits for the next
one. -/
def notifiedInWait : List (LogShutdownStep (Fin 2) ℕ) :=
  [.output 0 7, .checkFile true, .lock 0, .pushBack 0, .notify 0, .unlock 0, .lockWriter, .testEmpty,
    .takeLine, .write true, .checkFile true, .lockWriter, .testEmpty, .testExit, .setExit, .wait,
    .notifyExit]

/-- The notification comes when the writing thread waits, and is heard. -/
theorem not_deadlocked_notifiedInWait :
    ¬ (TransitionSystem.runAll next init notifiedInWait).Deadlocked := by
  have hreach : system.ReachableUnder NotLost (TransitionSystem.runAll next init notifiedInWait) :=
    (TransitionSystem.ReachableUnder.init rfl).runAll (fun _ _ _ h => h) (by decide)
  exact not_deadlocked hreach

/-- The notification comes before the wait. -/
theorem exists_deadlocked :
    ¬ ∀ s : LogShutdown (Fin 2) ℕ, system.Reachable s → ¬ s.Deadlocked := by
  intro h
  have hreach : system.Reachable (TransitionSystem.runAll next (init : LogShutdown (Fin 2) ℕ)
      [.checkFile true, .lockWriter, .testEmpty, .testExit, .setExit, .notifyExit, .wait]) :=
    (TransitionSystem.ReachableUnder.init rfl).runAll (fun _ _ _ h => h) (by decide)
  exact h _ hreach ⟨rfl, rfl, rfl, fun _ => not_false⟩

/-- Wherever it does so and nobody else is about to notify, the wait is one that nobody ends. -/
theorem deadlocked_of_wait {s₁ s₂ : LogShutdown T κ} (h : system.Reachable s)
    (hlost : ¬ s.NotLost .notifyExit) (hnotify : system.step s .notifyExit s₁)
    (hwait : system.step s₁ .wait s₂) : s₂.Deadlocked := by
  obtain ⟨hwriter, hnobody⟩ : s.writer = .beforeWait ∧ ∀ thread, ¬ (s.output thread).Notifying := by
    simpa only [NotLost, not_or, not_not, not_exists] using hlost
  have hexcluded : Excluded s := h.invariant
    (by rintro s rfl; exact heard_init.toExcluded) fun _ _ _ hs hstep => hs.step hstep
  obtain rfl : s₁ = { s.wake with uninit := .joining } := by
    simp only [system, next] at hnotify
    split at hnotify
    · exact (Option.some.inj hnotify).symm
    · cases hnotify
  have hwake : s.wake.writer = .beforeWait := by
    rw [wake, hwriter]
    rfl
  simp only [system, next, hwake] at hwait
  obtain rfl := Option.some.inj hwait
  exact ⟨rfl, rfl, hexcluded.empty (Or.inr hwriter), hnobody⟩

end LogShutdown

end Calc24
