import Calc24.App.LogLine
import Calc24.App.LogShutdown

/-!
# The log and its threads

This file puts the parts of `CAsyncLog` together (`appsrc/AsyncLog.cpp`): any number of threads
call `output`, `outputBinary` and `setLevel`, one call of `uninit` is made, and the writing thread
takes the texts off the queue, prints them and writes them to files that it rolls.  The steps at the
lock are those of `LogShutdown`, and a new file is begun as in `LogWriter`, where a text that the
thread has taken and not yet written counts as queued (`logWriter`).  A call with the level
`LOG_LEVEL_FATAL` writes without the queue and ends the program, and is left out.

`output` makes its text from its arguments and from what it has on its own stack, so this is one
step, and so is the `push_back` under the lock.  `outputBinary` takes the numbers of its rows out of
the array that `ullto4Str` returns, which is static and which all threads use without the lock.  So
a dump has a beginning of its own (`beginBinary`), and if another thread is at a dump between it and
the end, anything may stand on the queue.

Where no two dumps are made at the same time and the files can be created under new names and
written, every step is one of eleven moves (`Move.of_step`).
-/

namespace Calc24

/-! ## What is on its way to the files -/

/-- The text with which a thread in `output` is on the way to the queue. -/
def OutputStage.pending {κ : Type*} : OutputStage κ → List κ
  | .entered line | .locked line => [line]
  | .outside | .pushed | .notified => []

/-- The text that the writing thread has taken and not yet written. -/
def WriterStage.inHand {κ : Type*} : WriterStage κ → List κ
  | .write line => [line]
  | _ => []

/-- The stage as the files see it. -/
def WriterStage.writeStage {κ : Type*} : WriterStage κ → WriteStage
  | .checkFile => .checkFile
  | .finished => .finished
  | _ => .takeLine

@[simp] lemma WriterStage.inHand_wake {κ : Type*} (stage : WriterStage κ) :
    stage.wake.inHand = stage.inHand := by
  cases stage <;> rfl

@[simp] lemma WriterStage.writeStage_wake {κ : Type*} (stage : WriterStage κ) :
    stage.wake.writeStage = stage.writeStage := by
  cases stage <;> rfl

/-- For the files the thread has finished exactly if it has. -/
lemma WriterStage.writeStage_eq_finished {κ : Type*} {stage : WriterStage κ} :
    stage.writeStage = .finished ↔ stage = .finished := by
  cases stage <;> simp [writeStage]

namespace LogShutdown

variable {T κ : Type*} {s t : LogShutdown T κ} {l : LogShutdownStep T κ}

/-- The texts that have been queued and not yet written. -/
def queued (s : LogShutdown T κ) : List κ :=
  s.writer.inHand ++ s.linesToWrite

/-- Neither the queue nor the text in hand changes. -/
lemma queued_congr (hhand : t.writer.inHand = s.writer.inHand)
    (hlines : t.linesToWrite = s.linesToWrite) : t.queued = s.queued := by
  rw [queued, queued, hhand, hlines]

/-- A step that changes nothing but who waits for what. -/
structure Quiet (s t : LogShutdown T κ) : Prop where
  pending : ∀ thread, (t.output thread).pending = (s.output thread).pending
  queued : t.queued = s.queued
  stage : t.writer.writeStage = s.writer.writeStage
  exit : t.exit = s.exit
  uninit : t.uninit = .outside ↔ s.uninit = .outside
  joined : t.uninit = .joined ↔ s.uninit = .joined

/-- The steps at the lock and the condition variable. -/
def AtLock : LogShutdownStep T κ → Prop
  | .lock _ | .notify _ | .unlock _ | .notifyExit | .lockWriter | .testEmpty | .takeLine
  | .testExit | .wait | .relock => True
  | .output _ _ | .pushBack _ | .setExit | .join | .checkFile _ | .write _ => False

instance (l : LogShutdownStep T κ) : Decidable (AtLock l) :=
  match l with
  | .lock _ | .notify _ | .unlock _ | .notifyExit | .lockWriter | .testEmpty | .takeLine
  | .testExit | .wait | .relock => .isTrue trivial
  | .output _ _ | .pushBack _ | .setExit | .join | .checkFile _ | .write _ => .isFalse not_false

variable [DecidableEq T]

/-- A thread that goes on with its text. -/
lemma pending_enter {thread : T} {stage : OutputStage κ}
    (h : stage.pending = (s.output thread).pending) (thread' : T) :
    ((s.enter thread stage).output thread').pending = (s.output thread').pending := by
  by_cases heq : thread' = thread
  · subst heq
    simpa only [enter, Function.update_self] using h
  · simp only [enter, Function.update_of_ne heq]

omit [DecidableEq T] in
/-- The writing thread goes on without touching a text. -/
lemma quiet_of_writer {stage : WriterStage κ} {mutex : Option (LogThread T)}
    (hhand : stage.inHand = s.writer.inHand) (hstage : stage.writeStage = s.writer.writeStage) :
    Quiet s { s with writer := stage, mutexWrite := mutex } :=
  ⟨fun _ => rfl, queued_congr hhand rfl, hstage, rfl, Iff.rfl, Iff.rfl⟩

/-- **The steps at the lock leave alone what is on its way**, and one of them ends the writing
thread. -/
lemma quiet_or_finish (hl : AtLock l) (h : system.step s l t) :
    Quiet s t ∨ (s.writer = .testExit ∧ s.exit = true ∧
      t = { s with writer := .finished, mutexWrite := none }) := by
  cases l with
  | lock thread =>
    simp only [system, next] at h
    split at h
    · next line hstage hfree =>
      cases h
      exact Or.inl ⟨pending_enter (by rw [hstage]; rfl), rfl, rfl, rfl, Iff.rfl, Iff.rfl⟩
    · cases h
  | notify thread =>
    simp only [system, next] at h
    split at h
    · next hstage =>
      cases h
      refine Or.inl ⟨pending_enter (by rw [hstage]; rfl), ?_, ?_, rfl, Iff.rfl, Iff.rfl⟩
      · simp only [queued, wake, enter, WriterStage.inHand_wake]
      · simp only [wake, enter, WriterStage.writeStage_wake]
    · cases h
  | unlock thread =>
    simp only [system, next] at h
    split at h
    · next hstage =>
      cases h
      exact Or.inl ⟨pending_enter (by rw [hstage]; rfl), rfl, rfl, rfl, Iff.rfl, Iff.rfl⟩
    · cases h
  | notifyExit =>
    simp only [system, next] at h
    split at h
    · next hstage =>
      cases h
      refine Or.inl ⟨fun _ => rfl, ?_, ?_, rfl, ?_, ?_⟩
      · simp only [queued, wake, WriterStage.inHand_wake]
      · simp only [wake, WriterStage.writeStage_wake]
      · simp [hstage]
      · simp [hstage]
    · cases h
  | lockWriter =>
    simp only [system, next] at h
    split at h
    · next hstage hfree =>
      cases h
      exact Or.inl (quiet_of_writer (by rw [hstage]; rfl) (by rw [hstage]; rfl))
    · cases h
  | testEmpty =>
    simp only [system, next] at h
    split at h
    · next hstage hlines =>
      cases h
      exact Or.inl (quiet_of_writer (by rw [hstage]; rfl) (by rw [hstage]; rfl))
    · next hstage hlines =>
      cases h
      exact Or.inl (quiet_of_writer (by rw [hstage]; rfl) (by rw [hstage]; rfl))
    · cases h
  | takeLine =>
    simp only [system, next] at h
    split at h
    · next line lines hstage hlines =>
      cases h
      refine Or.inl ⟨fun _ => rfl, ?_, by rw [hstage]; rfl, rfl, Iff.rfl, Iff.rfl⟩
      -- the text goes from the front of the queue into the hand
      rw [queued, queued, hstage, hlines]
      rfl
    · cases h
  | testExit =>
    simp only [system, next] at h
    split at h
    · next hstage =>
      split at h
      · next hexit =>
        cases h
        exact Or.inr ⟨hstage, hexit, rfl⟩
      · cases h
        exact Or.inl (quiet_of_writer (by rw [hstage]; rfl) (by rw [hstage]; rfl))
    · cases h
  | wait =>
    simp only [system, next] at h
    split at h
    · next hstage =>
      cases h
      exact Or.inl (quiet_of_writer (by rw [hstage]; rfl) (by rw [hstage]; rfl))
    · cases h
  | relock =>
    simp only [system, next] at h
    split at h
    · next hstage hfree =>
      cases h
      exact Or.inl (quiet_of_writer (by rw [hstage]; rfl) (by rw [hstage]; rfl))
    · cases h
  | output thread line => exact hl.elim
  | pushBack thread => exact hl.elim
  | setExit => exact hl.elim
  | join => exact hl.elim
  | checkFile success => exact hl.elim
  | write success => exact hl.elim

end LogShutdown

/-! ## The log -/

/-- `CAsyncLog` and the threads at it, the console and the disk, and the threads that are making a
dump, with those of them that have met another one at it.  Ghosts: the files in the order of their
creation, the texts that have been written, those that each thread has called for, those that have
been queued with their threads, and those that had been queued when `m_bExit` was set. -/
structure AsyncLog (T : Type*) extends LogShutdown T Bytes where
  logFile : Option Bytes
  currentWrittenSize : Int64
  currentLevel : LogLevel
  console : Bytes
  disk : Bytes → Bytes
  dumping : List T
  mixed : List T
  created : List Bytes
  taken : List Bytes
  said : T → List Bytes
  pushed : List (T × Bytes)
  beforeExit : List Bytes

/-- The steps: the beginning of a dump, a call with its time up to the lock, `setLevel`, those of
the threads that do something to the queue, to `m_bExit` or to the files, where `opened` is the
success of `fopen`, and those at the lock.  A dump that has met another one has the text
`mixedText`. -/
inductive AsyncLogStep (T : Type*)
  | beginBinary (thread : T)
  | output (thread : T) (call : LogCall) (now : ℤ) (millitm : ℕ) (mixedText : Bytes)
  | setLevel (level : LogLevel)
  | pushBack (thread : T)
  | setExit
  | join
  | checkFile (now : ℤ) (opened : Bool)
  | write (counts : List ℕ)
  | atLock (l : LogShutdownStep T Bytes)

namespace AsyncLog

variable {T : Type*} [DecidableEq T] (c : AsyncLogConfig T)

/-- The log when its thread has been started. -/
def init (disk : Bytes → Bytes) : AsyncLog T where
  toLogShutdown := LogShutdown.init
  logFile := none
  currentWrittenSize := 0
  currentLevel := .info
  console := []
  disk := disk
  dumping := []
  mixed := []
  created := []
  taken := []
  said := fun _ => []
  pushed := []
  beforeExit := []

omit [DecidableEq T] in
/-- The log as its files see it. -/
def logWriter (s : AsyncLog T) : LogWriter where
  stage := s.writer.writeStage
  exit := s.exit
  linesToWrite := s.queued
  logFile := s.logFile
  currentWrittenSize := s.currentWrittenSize
  disk := s.disk
  created := s.created
  taken := s.taken

omit [DecidableEq T] in
/-- `CAsyncLog::createNewFile`, where `fopen` succeeds. -/
def createNewFile (name : Bytes) (s : AsyncLog T) : AsyncLog T :=
  let w := s.logWriter.createNewFile name
  { s with logFile := w.logFile, disk := w.disk, created := w.created }

/-- One step, where it is possible. -/
def next (s : AsyncLog T) : AsyncLogStep T → Option (AsyncLog T)
  | .beginBinary thread =>
    match s.output thread with
    | .outside =>
      if s.dumping.contains thread then none
      else
        some { s with
          dumping := thread :: s.dumping
          -- from now on they fill the array of `ullto4Str` and copy it while the others do
          mixed := if s.dumping.isEmpty then s.mixed else thread :: s.dumping }
    | _ => none
  | .output thread call now millitm mixedText =>
    if call.Fatal ∨ call.isBinary ≠ s.dumping.contains thread then none
    else if call.Passes s.currentLevel then
      let text := if s.mixed.contains thread then mixedText else call.text c thread now millitm
      (s.toLogShutdown.next (.output thread text)).map fun t =>
        { s with
          toLogShutdown := t
          dumping := s.dumping.filter (· ≠ thread)
          mixed := s.mixed.filter (· ≠ thread)
          said := Function.update s.said thread (s.said thread ++ [text]) }
    else
      match s.output thread with
      | .outside => some s
      | _ => none
  | .setLevel level =>
    if level < .trace ∨ .fatal < level then some s else some { s with currentLevel := level }
  | .pushBack thread =>
    match s.output thread with
    | .locked line =>
      (s.toLogShutdown.next (.pushBack thread)).map fun t =>
        { s with toLogShutdown := t, pushed := s.pushed ++ [(thread, line)] }
    | _ => none
  | .setExit =>
    (s.toLogShutdown.next .setExit).map fun t =>
      { s with toLogShutdown := t, beforeExit := s.pushed.map Prod.snd }
  | .join =>
    (s.toLogShutdown.next .join).map fun t => { s with toLogShutdown := t, logFile := none }
  | .checkFile now opened =>
    if s.logWriter.NeedsNewFile c.toLogConfig then
      (s.toLogShutdown.next (.checkFile opened)).map fun t =>
        let s := { s with toLogShutdown := t, currentWrittenSize := 0 }
        if opened then s.createNewFile (c.newFileName now) else { s with logFile := none }
    else (s.toLogShutdown.next (.checkFile true)).map fun t => { s with toLogShutdown := t }
  | .write counts =>
    match s.writer with
    | .write line =>
      let s := { s with console := s.console ++ (line ++ [LF]) }
      if c.fileName = [] then
        (s.toLogShutdown.next (.write true)).map fun t =>
          { s with toLogShutdown := t, taken := s.taken ++ [line] }
      else
        match s.logFile with
        | none => none
        | some name =>
          match writeToFile counts line (s.disk name) with
          | none => none
          | some (success, file) =>
            (s.toLogShutdown.next (.write success)).map fun t =>
              let s := { s with toLogShutdown := t, disk := Function.update s.disk name file }
              if success then
                { s with
                  currentWrittenSize := s.currentWrittenSize + Int64.ofNat line.length
                  taken := s.taken ++ [line] }
              else s
    | _ => none
  | .atLock l =>
    if LogShutdown.AtLock l then
      (s.toLogShutdown.next l).map fun t => { s with toLogShutdown := t }
    else none

/-- The runs of the log, on a disk with any files. -/
def system : TransitionSystem (AsyncLog T) (AsyncLogStep T) where
  init s := ∃ disk, s = init disk
  step s l s' := s.next c l = some s'

/-- The files work: each is created, under a name that no earlier one has, and `fwrite` writes every
text.  No dump begins while another one is made, and none is so long that its rows cannot be
numbered. -/
def Works (s : AsyncLog T) : AsyncLogStep T → Prop
  | .beginBinary _ => s.dumping.isEmpty = true
  | .checkFile now opened => s.logWriter.NeedsNewFile c.toLogConfig →
      opened = true ∧ c.newFileName now ∉ s.created
  | .write counts => ∀ line ∈ s.writer.inHand, ∀ name ∈ s.logFile,
      (writeToFile counts line (s.disk name)).map Prod.fst = some true
  | .output _ call _ _ _ => call.Numbered
  | _ => True

instance (s : AsyncLog T) (l : AsyncLogStep T) : Decidable (s.Works c l) :=
  match l with
  | .beginBinary _ => inferInstanceAs (Decidable (s.dumping.isEmpty = true))
  | .checkFile now opened => inferInstanceAs (Decidable (s.logWriter.NeedsNewFile c.toLogConfig →
      opened = true ∧ c.newFileName now ∉ s.created))
  | .write counts => inferInstanceAs (Decidable (∀ line ∈ s.writer.inHand, ∀ name ∈ s.logFile,
      (writeToFile counts line (s.disk name)).map Prod.fst = some true))
  | .output _ call _ _ _ => inferInstanceAs (Decidable call.Numbered)
  | .setLevel _ | .pushBack _ | .setExit | .join | .atLock _ => .isTrue trivial

/-! ## Steps -/

variable {c} {s s' : AsyncLog T} {l : AsyncLogStep T}

/-- The steps of a log with a name whose files work, as what they do to the state. -/
inductive Move (c : AsyncLogConfig T) (s : AsyncLog T) : AsyncLog T → Prop
  | beginBinary (thread : T) : Move c s { s with dumping := thread :: s.dumping }
  | quiet (t : LogShutdown T Bytes) (hquiet : LogShutdown.Quiet s.toLogShutdown t) :
    Move c s { s with toLogShutdown := t }
  | finish (hstage : s.writer = .testExit) (hexit : s.exit = true) :
    Move c s { s with writer := .finished, mutexWrite := none }
  | setLevel (level : LogLevel) : Move c s { s with currentLevel := level }
  | say (thread : T) (text : Bytes) (hstage : s.output thread = .outside) (hne : text ≠ [])
    (hend : Framing.residue LF text = []) :
    Move c s
      { s with
        toLogShutdown := s.enter thread (.entered text)
        dumping := s.dumping.filter (· ≠ thread)
        mixed := s.mixed.filter (· ≠ thread)
        said := Function.update s.said thread (s.said thread ++ [text]) }
  | pushBack (thread : T) (line : Bytes) (hstage : s.output thread = .locked line) :
    Move c s
      { s with
        toLogShutdown := { s.enter thread .pushed with linesToWrite := s.linesToWrite ++ [line] }
        pushed := s.pushed ++ [(thread, line)] }
  | setExit (hstage : s.uninit = .outside) :
    Move c s { s with exit := true, uninit := .exitSet, beforeExit := s.pushed.map Prod.snd }
  | join (hstage : s.uninit = .joining) (hwriter : s.writer = .finished) :
    Move c s { s with uninit := .joined, logFile := none }
  | newFile (now : ℤ) (hstage : s.writer = .checkFile)
    (hneeds : s.logWriter.NeedsNewFile c.toLogConfig) (hnew : c.newFileName now ∉ s.created) :
    Move c s
      (createNewFile (c.newFileName now) { s with writer := .lock, currentWrittenSize := 0 })
  | sameFile (hstage : s.writer = .checkFile)
    (hneeds : ¬ s.logWriter.NeedsNewFile c.toLogConfig) : Move c s { s with writer := .lock }
  | write (line : Bytes) (counts : List ℕ) (name file : Bytes) (hstage : s.writer = .write line)
    (hlog : s.logFile = some name)
    (hwrite : writeToFile counts line (s.disk name) = some (true, file)) :
    Move c s
      { s with
        writer := .checkFile
        console := s.console ++ (line ++ [LF])
        disk := Function.update s.disk name file
        currentWrittenSize := s.currentWrittenSize + Int64.ofNat line.length
        taken := s.taken ++ [line] }

/-- Every step is one of them, as long as no dump has met another one. -/
lemma Move.of_step (hname : c.fileName ≠ []) (hunmixed : s.mixed = []) (hworks : s.Works c l)
    (h : (system c).step s l s') : Move c s s' := by
  cases l with
  | beginBinary thread =>
    have halone : s.dumping.isEmpty = true := hworks
    simp only [system, next, if_pos halone] at h
    split at h
    · split at h
      · cases h
      · cases h
        exact .beginBinary thread
    · cases h
  | output thread call now millitm mixedText =>
    have hown : s.mixed.contains thread = false := by rw [hunmixed, List.contains_nil]
    simp only [system, next, hown, Bool.false_eq_true, if_false] at h
    split at h
    · cases h
    · split at h
      · obtain ⟨t, ht, rfl⟩ := Option.map_eq_some_iff.mp h
        simp only [LogShutdown.next] at ht
        split at ht
        · next hstage =>
          cases ht
          exact .say thread _ hstage (LogCall.text_ne_nil hworks)
            (LogCall.residue_text hname hworks)
        · cases ht
      · split at h
        · cases h
          exact .setLevel s.currentLevel
        · cases h
  | setLevel level =>
    simp only [system, next] at h
    split at h
    · cases h
      exact .setLevel s.currentLevel
    · cases h
      exact .setLevel level
  | pushBack thread =>
    simp only [system, next] at h
    split at h
    · next line hstage =>
      simp only [LogShutdown.next, hstage] at h
      cases h
      exact .pushBack thread line hstage
    · cases h
  | setExit =>
    simp only [system, next] at h
    obtain ⟨t, ht, rfl⟩ := Option.map_eq_some_iff.mp h
    simp only [LogShutdown.next] at ht
    split at ht
    · next hstage =>
      cases ht
      exact .setExit hstage
    · cases ht
  | join =>
    simp only [system, next] at h
    obtain ⟨t, ht, rfl⟩ := Option.map_eq_some_iff.mp h
    simp only [LogShutdown.next] at ht
    split at ht
    · next hstage hwriter =>
      cases ht
      exact .join hstage hwriter
    · cases ht
  | checkFile now opened =>
    simp only [system, next] at h
    split at h
    · next hneeds =>
      obtain ⟨rfl, hnew⟩ := hworks hneeds
      obtain ⟨t, ht, rfl⟩ := Option.map_eq_some_iff.mp h
      simp only [LogShutdown.next] at ht
      split at ht
      · next hstage =>
        cases ht
        exact .newFile now hstage hneeds hnew
      · cases ht
    · next hneeds =>
      obtain ⟨t, ht, rfl⟩ := Option.map_eq_some_iff.mp h
      simp only [LogShutdown.next] at ht
      split at ht
      · next hstage =>
        cases ht
        exact .sameFile hstage hneeds
      · cases ht
  | write counts =>
    simp only [system, next, if_neg hname] at h
    split at h
    · next line hstage =>
      split at h
      · cases h
      · next name hlog =>
        split at h
        · cases h
        · next success file hwrite =>
          have hall := hworks line (by rw [hstage]; exact List.mem_singleton_self line) name hlog
          obtain rfl : success = true := by
            simpa only [hwrite, Option.map_some, Option.some.injEq] using hall
          simp only [LogShutdown.next, hstage] at h
          cases h
          exact .write line counts name file hstage hlog hwrite
    · cases h
  | atLock l =>
    obtain ⟨hl, h⟩ := Option.ite_none_right_eq_some.mp h
    obtain ⟨t, ht, rfl⟩ := Option.map_eq_some_iff.mp h
    rcases LogShutdown.quiet_or_finish hl ht with hquiet | ⟨hstage, hexit, rfl⟩
    · exact .quiet t hquiet
    · exact .finish hstage hexit

/-- Every step is one at the lock, or changes nothing there. -/
lemma threads_step (h : (system c).step s l s') : s'.toLogShutdown = s.toLogShutdown ∨
    ∃ m, LogShutdown.system.step s.toLogShutdown m s'.toLogShutdown := by
  cases l with
  | beginBinary thread =>
    simp only [system, next] at h
    split at h
    · split at h
      · cases h
      · cases h
        exact Or.inl rfl
    · cases h
  | output thread call now millitm mixedText =>
    simp only [system, next] at h
    split at h
    · cases h
    · split at h
      · obtain ⟨t, ht, rfl⟩ := Option.map_eq_some_iff.mp h
        exact Or.inr ⟨_, ht⟩
      · split at h
        · cases h
          exact Or.inl rfl
        · cases h
  | setLevel level =>
    simp only [system, next] at h
    split at h <;> cases h <;> exact Or.inl rfl
  | pushBack thread =>
    simp only [system, next] at h
    split at h
    · obtain ⟨t, ht, rfl⟩ := Option.map_eq_some_iff.mp h
      exact Or.inr ⟨_, ht⟩
    · cases h
  | setExit =>
    obtain ⟨t, ht, rfl⟩ := Option.map_eq_some_iff.mp h
    exact Or.inr ⟨_, ht⟩
  | join =>
    obtain ⟨t, ht, rfl⟩ := Option.map_eq_some_iff.mp h
    exact Or.inr ⟨_, ht⟩
  | checkFile now opened =>
    simp only [system, next] at h
    split at h
    · obtain ⟨t, ht, rfl⟩ := Option.map_eq_some_iff.mp h
      refine Or.inr ⟨.checkFile opened, ?_⟩
      cases opened <;> exact ht
    · obtain ⟨t, ht, rfl⟩ := Option.map_eq_some_iff.mp h
      exact Or.inr ⟨_, ht⟩
  | write counts =>
    simp only [system, next] at h
    split at h
    · split at h
      · obtain ⟨t, ht, rfl⟩ := Option.map_eq_some_iff.mp h
        exact Or.inr ⟨_, ht⟩
      · split at h
        · cases h
        · split at h
          · cases h
          · next success file hwrite =>
            obtain ⟨t, ht, rfl⟩ := Option.map_eq_some_iff.mp h
            refine Or.inr ⟨.write success, ?_⟩
            cases success <;> exact ht
    · cases h
  | atLock l =>
    obtain ⟨-, h⟩ := Option.ite_none_right_eq_some.mp h
    obtain ⟨t, ht, rfl⟩ := Option.map_eq_some_iff.mp h
    exact Or.inr ⟨l, ht⟩

/-- The writing thread and the threads in `output` exclude each other. -/
lemma excluded_step (h : s.toLogShutdown.Excluded) (hstep : (system c).step s l s') :
    s'.toLogShutdown.Excluded := by
  rcases threads_step hstep with hsame | ⟨m, hm⟩
  · rwa [hsame]
  · exact h.step hm

end AsyncLog

end Calc24
