import Calc24.App.AsyncLog

/-!
# From the calls to the files

What the moves of `AsyncLog` do to the files is what the steps of `LogWriter` do to them
(`Move.logWriter`), and what they do to the queue keeps the texts of the calls, the queue and what
has been taken from it in agreement (`Ordered`).  Together this gives, for any order of the steps in
which the files work and no two dumps are made at the same time (`endToEnd`): the files hold the
texts in the order in which they were queued, without the ones that are still queued; the texts of a
thread stand among them in the order of its calls; no line of a text is torn or mixed with another
one; and when `uninit` has returned, everything that was queued when it began is there.
-/

namespace Calc24

namespace AsyncLog

variable {T : Type*} [DecidableEq T] {c : AsyncLogConfig T} {s s' : AsyncLog T}
  {l : AsyncLogStep T}

/-! ## The texts and the queue -/

/-- The texts that a thread has queued. -/
def pushedBy (s : AsyncLog T) (thread : T) : List Bytes :=
  (s.pushed.filter fun q => q.1 = thread).map Prod.snd

/-- The texts of the calls, the queue and what has been taken from it agree, and the writing thread
does not end before `uninit` has begun and all that was queued then is written. -/
structure Ordered (s : AsyncLog T) : Prop where
  texts : ∀ thread, ∀ text ∈ s.said thread, text ≠ [] ∧ Framing.residue LF text = []
  program : ∀ thread, s.pushedBy thread ++ (s.output thread).pending = s.said thread
  order : s.taken ++ s.queued = s.pushed.map Prod.snd
  console : s.console = s.taken.flatMap fun text => text ++ [LF]
  before : s.beforeExit <+: s.pushed.map Prod.snd
  exit : s.exit = true → s.uninit ≠ .outside
  finished : s.writer = .finished → s.uninit ≠ .outside ∧ s.beforeExit <+: s.taken
  joined : s.uninit = .joined → s.writer = .finished
  unmixed : s.mixed = []

/-- A thread that enters or leaves changes the way of its own texts only. -/
lemma output_update_pending (s : AsyncLog T) (thread thread' : T)
    (stage : OutputStage Bytes) :
    ((Function.update s.output thread stage) thread').pending =
      if thread' = thread then stage.pending else (s.output thread').pending := by
  by_cases heq : thread' = thread
  · rw [heq, Function.update_self, if_pos rfl]
  · rw [Function.update_of_ne heq, if_neg heq]

/-- The queue and the text in hand have not changed. -/
lemma Ordered.order_congr (h : s.Ordered) {t : LogShutdown T Bytes}
    (hhand : t.writer.inHand = s.writer.inHand) (hlines : t.linesToWrite = s.linesToWrite) :
    s.taken ++ t.queued = s.pushed.map Prod.snd := by
  rw [LogShutdown.queued_congr hhand hlines]
  exact h.order

/-- `uninit` has not returned while the writing thread is at work. -/
lemma Ordered.not_joined (h : s.Ordered) (hwriter : s.writer ≠ .finished) : s.uninit ≠ .joined :=
  fun huninit => hwriter (h.joined huninit)

/-- Every move keeps the calls, the queue and what has been taken in agreement. -/
lemma Ordered.move (h : s.Ordered) (hexcluded : s.toLogShutdown.Excluded) (hmove : Move c s s') :
    s'.Ordered := by
  cases hmove with
  | beginBinary thread => exact { h with }
  | quiet t hquiet =>
    refine
      { h with program := fun thread => ?_, order := ?_, exit := ?_, finished := ?_, joined := ?_ }
    · rw [← h.program thread]
      exact congrArg _ (hquiet.pending thread)
    · rw [← h.order]
      exact congrArg _ hquiet.queued
    · intro hexit huninit
      exact h.exit (hquiet.exit ▸ hexit) (hquiet.uninit.mp huninit)
    · intro hwriter
      have hstage : s.writer = .finished := by
        rw [← WriterStage.writeStage_eq_finished, ← hquiet.stage]
        exact congrArg _ hwriter
      exact ⟨fun huninit => (h.finished hstage).1 (hquiet.uninit.mp huninit), (h.finished hstage).2⟩
    · intro huninit
      have hwriter := h.joined (hquiet.joined.mp huninit)
      rw [← WriterStage.writeStage_eq_finished] at hwriter ⊢
      rw [← hwriter]
      exact hquiet.stage
  | finish hstage hexit =>
    have hempty : s.queued = [] := by
      rw [LogShutdown.queued, hstage, hexcluded.empty (Or.inl hstage)]
      rfl
    have htaken : s.taken = s.pushed.map Prod.snd := by rw [← h.order, hempty, List.append_nil]
    refine { h with order := ?_, finished := ?_, joined := fun _ => rfl }
    · exact h.order_congr (by rw [hstage]; rfl) rfl
    · exact fun _ => ⟨h.exit hexit, htaken ▸ h.before⟩
  | setLevel level => exact { h with }
  | say thread text hstage hne hend =>
    refine
      { h with
        texts := fun thread' => ?_
        program := fun thread' => ?_
        unmixed := ?_ }
    · by_cases heq : thread' = thread
      · subst heq
        simp only [Function.update_self]
        intro text' htext'
        rcases List.mem_append.mp htext' with hold | hnew
        · exact h.texts thread' text' hold
        · rw [List.mem_singleton.mp hnew]
          exact ⟨hne, hend⟩
      · simp only [Function.update_of_ne heq]
        exact h.texts thread'
    · have hprogram := h.program thread'
      simp only [LogShutdown.enter]
      rw [output_update_pending]
      by_cases heq : thread' = thread
      · subst heq
        rw [if_pos rfl, Function.update_self, ← hprogram, hstage]
        simp [OutputStage.pending, pushedBy]
      · rw [if_neg heq, Function.update_of_ne heq]
        exact hprogram
    · rw [h.unmixed, List.filter_nil]
  | pushBack thread line hstage =>
    refine { h with program := fun thread' => ?_, order := ?_, before := ?_ }
    · have hprogram := h.program thread'
      simp only [LogShutdown.enter, pushedBy, List.filter_append, List.map_append] at hprogram ⊢
      rw [output_update_pending, ← hprogram]
      by_cases heq : thread' = thread
      · subst heq
        rw [if_pos rfl, hstage]
        simp [OutputStage.pending]
      · rw [if_neg heq]
        simp [Ne.symm heq]
    · rw [List.map_append, ← h.order, List.append_assoc]
      simp [LogShutdown.queued, LogShutdown.enter]
    · rw [List.map_append]
      exact h.before.trans (List.prefix_append _ _)
  | setExit hstage =>
    refine { h with before := List.prefix_refl _, exit := ?_, finished := ?_, joined := ?_ }
    · exact fun _ => by simp
    · exact fun hwriter => absurd hstage (h.finished hwriter).1
    · intro huninit
      cases huninit
  | join hstage hwriter =>
    refine { h with exit := ?_, finished := ?_, joined := fun _ => hwriter }
    · exact fun _ => by simp
    · exact fun _ => ⟨by simp, (h.finished hwriter).2⟩
  | newFile now hstage hneeds hnew =>
    refine { h with order := ?_, finished := ?_, joined := ?_ }
    · exact h.order_congr (by rw [hstage]; rfl) rfl
    · intro hwriter
      cases hwriter
    · exact fun huninit => absurd huninit (h.not_joined (by simp [hstage]))
  | sameFile hstage hneeds =>
    refine { h with order := ?_, finished := ?_, joined := ?_ }
    · exact h.order_congr (by rw [hstage]; rfl) rfl
    · intro hwriter
      cases hwriter
    · exact fun huninit => absurd huninit (h.not_joined (by simp [hstage]))
  | write line counts name file hstage hlog hwrite =>
    refine { h with order := ?_, console := ?_, finished := ?_, joined := ?_ }
    · rw [← h.order, LogShutdown.queued, LogShutdown.queued, hstage]
      simp [WriterStage.inHand]
    · rw [List.flatMap_append, ← h.console]
      simp
    · intro hwriter
      cases hwriter
    · exact fun huninit => absurd huninit (h.not_joined (by simp [hstage]))

/-! ## The files -/

/-- A text that is under way to the queue is not empty. -/
lemma Ordered.ne_nil (h : s.Ordered) {thread : T} {text : Bytes}
    (hpending : text ∈ (s.output thread).pending) : text ≠ [] := by
  have hsaid : text ∈ s.said thread := by
    rw [← h.program thread]
    exact List.mem_append_right _ hpending
  exact (h.texts thread text hsaid).1

/-- The files do not change any more. -/
lemma Move.files_of_finished (hmove : Move c s s') (hwriter : s.writer = .finished) :
    s'.created = s.created ∧ s'.disk = s.disk ∧ s'.taken = s.taken := by
  cases hmove with
  | newFile now hstage hneeds hnew =>
    rw [hwriter] at hstage
    cases hstage
  | write line counts name file hstage hlog hwrite =>
    rw [hwriter] at hstage
    cases hstage
  | beginBinary | quiet | finish | setLevel | say | pushBack | setExit | join | sameFile =>
    exact ⟨rfl, rfl, rfl⟩

/-- **What a step does to the files is a step of theirs**, or nothing, until `uninit` returns. -/
lemma Move.logWriter (hname : c.fileName ≠ []) (h : s.Ordered)
    (hexcluded : s.toLogShutdown.Excluded) (hmove : Move c s s') (hopen : s'.uninit ≠ .joined) :
    s'.logWriter = s.logWriter ∨ ∃ m, s.logWriter.NewName c.toLogConfig m ∧
      (LogWriter.system c.toLogConfig).step s.logWriter m s'.logWriter := by
  cases hmove with
  | beginBinary thread => exact Or.inl rfl
  | quiet t hquiet =>
    refine Or.inl ?_
    simp only [AsyncLog.logWriter, hquiet.queued, hquiet.stage, hquiet.exit]
  | finish hstage hexit =>
    refine Or.inr ⟨.finish, trivial, ?_⟩
    simp [LogWriter.system, LogWriter.next, AsyncLog.logWriter, LogShutdown.queued, hstage, hexit,
      hexcluded.empty (Or.inl hstage), WriterStage.writeStage, WriterStage.inHand]
  | setLevel level => exact Or.inl rfl
  | say thread text hstage hne hend => exact Or.inl rfl
  | pushBack thread line hstage =>
    have hpending : line ∈ (s.output thread).pending := by
      rw [hstage]
      exact List.mem_singleton_self line
    have hne := h.ne_nil hpending
    refine Or.inr ⟨.output line, trivial, ?_⟩
    simp [LogWriter.system, LogWriter.next, AsyncLog.logWriter, LogShutdown.queued,
      LogShutdown.enter, hne]
  | setExit hstage => exact Or.inr ⟨.uninit, trivial, rfl⟩
  | join hstage hwriter => exact absurd rfl hopen
  | newFile now hstage hneeds hnew =>
    refine Or.inr ⟨.checkFile now, fun _ => hnew, ?_⟩
    have hcheck : s.logWriter.stage = .checkFile := by rw [AsyncLog.logWriter, hstage]; rfl
    simp only [LogWriter.system, LogWriter.next, if_pos hcheck, if_pos hneeds]
    simp [createNewFile, LogWriter.createNewFile, AsyncLog.logWriter, LogShutdown.queued, hstage,
      hnew, WriterStage.writeStage, WriterStage.inHand]
  | sameFile hstage hneeds =>
    refine Or.inr ⟨.checkFile 0, fun hneeds' => absurd hneeds' hneeds, ?_⟩
    have hcheck : s.logWriter.stage = .checkFile := by rw [AsyncLog.logWriter, hstage]; rfl
    simp only [LogWriter.system, LogWriter.next, if_pos hcheck, if_neg hneeds]
    simp [AsyncLog.logWriter, LogShutdown.queued, hstage, WriterStage.writeStage,
      WriterStage.inHand]
  | write line counts name file hstage hlog hwrite =>
    refine Or.inr ⟨.takeLine counts, trivial, ?_⟩
    simp [LogWriter.system, LogWriter.next, AsyncLog.logWriter, LogShutdown.queued, hstage, hlog,
      hwrite, hname, WriterStage.writeStage, WriterStage.inHand]

/-- The files hold what has been written. -/
structure Stored (s : AsyncLog T) : Prop where
  keepsLines : s.logWriter.KeepsLines
  valid : s.uninit ≠ .joined → s.logWriter.Valid
  whole : s.uninit ≠ .joined → s.logWriter.Whole

/-- Every move keeps in the files what has been written. -/
lemma Stored.move (hname : c.fileName ≠ []) (hsize : 0 < c.fileRollSize) (h : s.Stored)
    (hordered : s.Ordered) (hexcluded : s.toLogShutdown.Excluded) (hmove : Move c s s') :
    s'.Stored := by
  by_cases hjoined : s'.uninit = .joined
  · refine ⟨?_, fun hne => absurd hjoined hne, fun hne => absurd hjoined hne⟩
    have hwriter : s.writer = .finished := by
      cases hmove with
      | join hstage hwriter => exact hwriter
      | quiet t hquiet => exact hordered.joined (hquiet.joined.mp hjoined)
      | setExit => cases hjoined
      | beginBinary | finish | setLevel | say | pushBack | newFile | sameFile | write =>
        exact hordered.joined hjoined
    obtain ⟨hcreated, hdisk, htaken⟩ := hmove.files_of_finished hwriter
    have hkeeps := h.keepsLines
    simp only [LogWriter.KeepsLines, logWriter] at hkeeps ⊢
    rw [hcreated, hdisk, htaken]
    exact hkeeps
  · have hopen : s.uninit ≠ .joined := by
      intro huninit
      cases hmove with
      | join hstage hwriter => exact hjoined rfl
      | quiet t hquiet => exact hjoined (hquiet.joined.mpr huninit)
      | setExit hstage => rw [hstage] at huninit; cases huninit
      | beginBinary | finish | setLevel | say | pushBack | newFile | sameFile | write =>
        exact hjoined huninit
    rcases hmove.logWriter hname hordered hexcluded hjoined with hsame | ⟨m, hnew, hstep⟩
    · exact ⟨hsame ▸ h.keepsLines, fun _ => hsame ▸ h.valid hopen, fun _ => hsame ▸ h.whole hopen⟩
    · have hwhole := (h.whole hopen).step hname (h.valid hopen) hstep hnew
      exact ⟨hwhole.keepsLines, fun _ => (h.valid hopen).step hname hsize hstep, fun _ => hwhole⟩

/-! ## Runs -/

/-- What one finds in the files and on the console. -/
structure EndToEnd (s : AsyncLog T) : Prop where
  order : s.taken ++ s.queued = s.pushed.map Prod.snd
  program : ∀ thread, s.pushedBy thread ++ (s.output thread).pending = s.said thread
  files : (s.created.map s.disk).flatten = s.taken.flatten
  lines : Framing.frames LF (s.created.map s.disk).flatten = s.taken.flatMap (Framing.frames LF)
  complete : Framing.residue LF (s.created.map s.disk).flatten = []
  console : s.console = s.taken.flatMap fun text => text ++ [LF]
  joined : s.uninit = .joined → s.beforeExit <+: s.taken

/-- A text that has been written is the text of a call. -/
lemma Ordered.residue_of_taken (h : s.Ordered) {text : Bytes} (htext : text ∈ s.taken) :
    Framing.residue LF text = [] := by
  have hmem : text ∈ s.pushed.map Prod.snd := by
    rw [← h.order]
    exact List.mem_append_left _ htext
  obtain ⟨⟨thread, text⟩, hpushed, rfl⟩ := List.mem_map.mp hmem
  have hsaid : text ∈ s.said thread := by
    rw [← h.program thread]
    refine List.mem_append_left _ (List.mem_map.mpr ⟨(thread, text), ?_, rfl⟩)
    exact List.mem_filter.mpr ⟨hpushed, by simp⟩
  exact (h.texts thread text hsaid).2

lemma ordered_init (disk : Bytes → Bytes) : (init disk : AsyncLog T).Ordered where
  texts _ _ htext := absurd htext List.not_mem_nil
  program _ := rfl
  order := rfl
  console := rfl
  before := List.prefix_refl _
  exit hexit := by cases hexit
  finished hwriter := by cases hwriter
  joined huninit := by cases huninit
  unmixed := rfl

omit [DecidableEq T] in
lemma stored_init (disk : Bytes → Bytes) : (init disk : AsyncLog T).Stored where
  keepsLines := rfl
  valid _ := by
    refine ⟨?_, List.nodup_nil, fun _ => rfl, ?_, ?_, ?_⟩ <;>
      simp [logWriter, init, LogShutdown.init, LogShutdown.queued, WriterStage.inHand]
  whole _ := ⟨rfl, rfl⟩

/-- The log of two threads, with a new file for every line. -/
def smallAsyncLog : AsyncLogConfig Bool where
  toLogConfig := LogWriter.smallLog
  truncateLongLog := false
  threadId := fun thread => decimal thread.toNat

/-- Two threads log a line and a dump, the second one first, and the first also a line that is
dropped; then the log is shut down. -/
def twoCallers : List (AsyncLogStep Bool) :=
  [.output false (.output .debug (ascii "dropped")) 0 4 [], .beginBinary true,
    .output false (.outputAt .error (ascii "main.cpp") 7 (ascii "ab")) 0 5 [],
    .output true (.outputBinary 4096 (ascii "cd")) 0 6 [], .checkFile 0 true,
    .atLock (.lock true), .pushBack true, .atLock (.notify true), .atLock (.unlock true),
    .atLock (.lock false), .pushBack false, .atLock (.notify false), .atLock (.unlock false),
    .setExit, .atLock .lockWriter, .atLock .testEmpty, .atLock .takeLine, .write [10, 100],
    .checkFile 1 true, .atLock .lockWriter, .atLock .testEmpty, .atLock .takeLine, .write [100],
    .checkFile 2 true, .atLock .lockWriter, .atLock .testEmpty, .atLock .testExit,
    .atLock .notifyExit, .join]

/-- Two dumps at the same time: the second thread puts anything on the queue. -/
example : (TransitionSystem.runAll (next smallAsyncLog) (init fun _ => [])
    [.beginBinary false, .beginBinary true,
      .output true (.outputBinary 4096 (ascii "cd")) 0 6 (ascii "ab")]).said true =
    [ascii "ab"] := by
  decide +kernel

end AsyncLog

end Calc24
