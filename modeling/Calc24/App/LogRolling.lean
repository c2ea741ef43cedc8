import Calc24.Lib.TransitionSystem
import Calc24.Net.ByteBuffer

/-!
# Rolling the log file

The thread of `CAsyncLog` takes the lines off the queue one by one and writes them to a file
(`appsrc/AsyncLog.cpp`).  Before each line it begins a new file if there is none yet, or if the
current one has reached the roll size.  The name of a file is made of the second in which it is
created and the process id, and `fopen` empties a file that exists.

In the runs here every file can be created and every write succeeds.  Whatever the lines, the clock
and the roll size are, the files hold at the end what has been taken off the queue if and only if
no file has been created under the name of an earlier one (`keepsLines_iff`).
-/

namespace Calc24

/-- The fields of a `struct tm` that the name of a file is made of. -/
structure Tm where
  year : ℤ
  mon : ℕ
  mday : ℕ
  hour : ℕ
  min : ℕ
  sec : ℕ

/-- `strftime` with the format `"%Y%m%d%H%M%S"`. -/
def Tm.strftime (time : Tm) : Bytes :=
  (if time.year + 1900 < 0 then ascii "-" else []) ++ decimal (time.year + 1900).natAbs ++
    decimalPadded 2 (time.mon + 1) ++ decimalPadded 2 time.mday ++ decimalPadded 2 time.hour ++
    decimalPadded 2 time.min ++ decimalPadded 2 time.sec

/-- What `CAsyncLog::init` is called with, the process id, and the local time of the clock's
readings. -/
structure LogConfig where
  fileName : Bytes
  pid : ℕ
  fileRollSize : Int64
  localtime : ℤ → Tm

/-- `%05d` in an array of eight. -/
def LogConfig.fileNamePID (c : LogConfig) : Bytes :=
  (decimalPadded 5 c.pid).take 7

/-- The name of a file that is created at the clock reading `now`. -/
def LogConfig.newFileName (c : LogConfig) (now : ℤ) : Bytes :=
  c.fileName ++ ascii "." ++ (c.localtime now).strftime ++ ascii "." ++ c.fileNamePID ++
    ascii ".log"

/-! ## Writing one line -/

/-- `CAsyncLog::writeToFile` for the rest `strLocal` of a line, where the calls of `fwrite` take up
to `counts` bytes: the result and the file, or nothing if the calls have not come to an end. -/
def writeToFile : List ℕ → Bytes → Bytes → Option (Bool × Bytes)
  | [], _, _ => none
  | count :: counts, strLocal, file =>
    let written := strLocal.take count
    -- the result of `fwrite` is converted to `int`
    let ret := Int32.ofNat written.length
    if ret ≤ 0 then some (false, file ++ written)
    else
      let rest :=
        if ret ≤ Int32.ofNat strLocal.length then strLocal.drop ret.toInt.toNat else strLocal
      if rest = [] then some (true, file ++ written) else writeToFile counts rest (file ++ written)

/-- A length of `2 ^ 31` or more stays so: what is taken off it is the part that fits an `int`. -/
lemma two_pow_31_le_sub {length count : ℕ} (hlong : 2 ^ 31 ≤ length)
    (hpos : 0 < (Int32.ofNat count).toInt)
    (hle : (Int32.ofNat count).toInt ≤ (Int32.ofNat length).toInt) :
    2 ^ 31 ≤ length - (Int32.ofNat count).toInt.toNat := by
  have hlength : (Int32.ofNat length).toInt = (length : ℤ).bmod (2 ^ 32) := Int32.toInt_ofNat'
  rw [Int.bmod_def] at hlength
  split at hlength <;> omega

/-- A line of that length is never written to its end. -/
lemma writeToFile_ne_true (counts : List ℕ) (strLocal file file' : Bytes)
    (hlong : 2 ^ 31 ≤ strLocal.length) :
    writeToFile counts strLocal file ≠ some (true, file') := by
  induction counts generalizing strLocal file with
  | nil => exact fun h => by cases h
  | cons count counts ih =>
    intro h
    simp only [writeToFile] at h
    split at h
    · cases h
    · next hret =>
      rw [Int32.not_le, Int32.lt_iff_toInt_lt] at hret
      set rest := if Int32.ofNat (strLocal.take count).length ≤ Int32.ofNat strLocal.length then
        strLocal.drop (Int32.ofNat (strLocal.take count).length).toInt.toNat else strLocal with hrest
      have hlong' : 2 ^ 31 ≤ rest.length := by
        rw [hrest]
        split
        · next hle =>
          rw [List.length_drop]
          exact two_pow_31_le_sub hlong hret (Int32.le_iff_toInt_le.mp hle)
        · exact hlong
      split at h
      · next hnil =>
        rw [hnil] at hlong'
        exact absurd hlong' (by decide)
      · exact ih rest _ hlong' h

/-- **A line that is written to its end is appended to the file**, in however many pieces. -/
lemma writeToFile_eq_true {counts : List ℕ} {strLocal file file' : Bytes}
    (h : writeToFile counts strLocal file = some (true, file')) : file' = file ++ strLocal := by
  have hshort : strLocal.length < 2 ^ 31 := by
    by_contra hlong
    exact writeToFile_ne_true counts strLocal file file' (not_lt.mp hlong) h
  induction counts generalizing strLocal file with
  | nil => cases h
  | cons count counts ih =>
    have hlength : (strLocal.take count).length ≤ strLocal.length := List.length_take_le' _ _
    have hret := Int32.toInt_ofNat_of_lt (hlength.trans_lt hshort)
    have hle : Int32.ofNat (strLocal.take count).length ≤ Int32.ofNat strLocal.length := by
      rw [Int32.le_iff_toInt_le, hret, Int32.toInt_ofNat_of_lt hshort]
      exact_mod_cast hlength
    have hdrop : strLocal.drop (Int32.ofNat (strLocal.take count).length).toInt.toNat =
        strLocal.drop count := by
      rw [hret, Int.toNat_natCast, List.length_take]
      rcases le_total count strLocal.length with hcount | hcount
      · rw [min_eq_left hcount]
      · rw [min_eq_right hcount, List.drop_length, List.drop_of_length_le hcount]
    simp only [writeToFile, if_pos hle, hdrop] at h
    split at h
    · cases h
    · split at h
      · next hnil =>
        obtain rfl := (Prod.mk.inj (Option.some.inj h)).2
        rw [← List.take_append_drop count strLocal, hnil, List.append_nil, List.take_take, min_self]
      · rw [ih h (by rw [List.length_drop]; omega), List.append_assoc,
          List.take_append_drop]

/-! ## The thread -/

/-- Where the thread is in its loop: before the check for a new file, or before it takes a line. -/
inductive WriteStage
  | checkFile
  | takeLine
  | finished
  deriving DecidableEq, Repr

/-- The queue, the thread that empties it, and the files.  The files that have been created, in the
order of their first creation, and the lines taken off the queue are ghosts. -/
structure LogWriter where
  stage : WriteStage
  exit : Bool
  linesToWrite : List Bytes
  logFile : Option Bytes
  currentWrittenSize : Int64
  disk : Bytes → Bytes
  created : List Bytes
  taken : List Bytes

/-- A line is put on the queue, the end is announced, and the steps of the thread: the check for a
new file with its clock reading, a line with the calls of `fwrite` that write it, and the end. -/
inductive LogStep
  | output (line : Bytes)
  | uninit
  | checkFile (now : ℤ)
  | takeLine (counts : List ℕ)
  | finish

namespace LogWriter

variable (c : LogConfig)

/-- `CAsyncLog::createNewFile`: what the file held before is lost. -/
def createNewFile (name : Bytes) (s : LogWriter) : LogWriter :=
  { s with
    logFile := some name
    disk := Function.update s.disk name []
    created := if name ∈ s.created then s.created else s.created ++ [name] }

/-- A new file is begun. -/
def NeedsNewFile (s : LogWriter) : Prop :=
  c.fileName ≠ [] ∧ (s.logFile = none ∨ c.fileRollSize ≤ s.currentWrittenSize)

instance (s : LogWriter) : Decidable (s.NeedsNewFile c) :=
  inferInstanceAs (Decidable (_ ∧ _))

/-- One step, where it is possible and does not fail. -/
def next (s : LogWriter) : LogStep → Option LogWriter
  | .output line =>
    if line ≠ [] then some { s with linesToWrite := s.linesToWrite ++ [line] } else none
  | .uninit => some { s with exit := true }
  | .checkFile now =>
    if s.stage = .checkFile then
      if s.NeedsNewFile c then
        some
          { createNewFile (c.newFileName now) { s with currentWrittenSize := 0 } with
            stage := .takeLine }
      else some { s with stage := .takeLine }
    else none
  | .takeLine counts =>
    match s.stage, s.linesToWrite with
    | .takeLine, line :: lines =>
      if c.fileName = [] then
        -- without a name for the log the lines go to the console only
        some { s with stage := .checkFile, linesToWrite := lines, taken := s.taken ++ [line] }
      else
        match s.logFile with
        | none => none
        | some name =>
          match writeToFile counts line (s.disk name) with
          | some (true, file) =>
            some
              { s with
                stage := .checkFile
                linesToWrite := lines
                currentWrittenSize := s.currentWrittenSize + Int64.ofNat line.length
                disk := Function.update s.disk name file
                taken := s.taken ++ [line] }
          | _ => none
    | _, _ => none
  | .finish =>
    if s.stage = .takeLine ∧ s.linesToWrite = [] ∧ s.exit = true then
      some { s with stage := .finished }
    else none

/-- The runs of the log, on a disk with any files. -/
def system : TransitionSystem LogWriter LogStep where
  init s := s.stage = .checkFile ∧ s.exit = false ∧ s.linesToWrite = [] ∧ s.logFile = none ∧
    s.currentWrittenSize = 0 ∧ s.created = [] ∧ s.taken = []
  step s l s' := s.next c l = some s'

/-- The files hold the lines that have been taken, in the order in which the files were first
created. -/
def KeepsLines (s : LogWriter) : Prop :=
  (s.created.map s.disk).flatten = s.taken.flatten

/-- If a file is begun it has a new name. -/
def NewName (s : LogWriter) : LogStep → Prop
  | .checkFile now => s.NeedsNewFile c → c.newFileName now ∉ s.created
  | _ => True

instance (s : LogWriter) (l : LogStep) : Decidable (s.NewName c l) :=
  match l with
  | .checkFile now => inferInstanceAs (Decidable (s.NeedsNewFile c → c.newFileName now ∉ s.created))
  | .output _ | .uninit | .takeLine _ | .finish => .isTrue trivial

/-! ## Steps -/

variable {c} {s s' : LogWriter} {l : LogStep} {tr : List (LogStep × LogWriter)}

/-- The steps of a log with a name, as what they do to the state. -/
lemma step_cases (hname : c.fileName ≠ []) (h : (system c).step s l s') :
    (∃ line, l = .output line ∧ line ≠ [] ∧
      s' = { s with linesToWrite := s.linesToWrite ++ [line] }) ∨
    (l = .uninit ∧ s' = { s with exit := true }) ∨
    (∃ now, l = .checkFile now ∧ s.NeedsNewFile c ∧
      s' = { createNewFile (c.newFileName now) { s with currentWrittenSize := 0 } with
        stage := .takeLine }) ∨
    (∃ now, l = .checkFile now ∧ ¬ s.NeedsNewFile c ∧ s' = { s with stage := .takeLine }) ∨
    (∃ counts line lines name, l = .takeLine counts ∧ s.linesToWrite = line :: lines ∧
      s.logFile = some name ∧
      s' = { s with
        stage := .checkFile
        linesToWrite := lines
        currentWrittenSize := s.currentWrittenSize + Int64.ofNat line.length
        disk := Function.update s.disk name (s.disk name ++ line)
        taken := s.taken ++ [line] }) ∨
    (l = .finish ∧ s' = { s with stage := .finished }) := by
  cases l with
  | output line =>
    obtain ⟨hline, heq⟩ := Option.ite_none_right_eq_some.mp h
    exact Or.inl ⟨line, rfl, hline, (Option.some.inj heq).symm⟩
  | uninit => exact Or.inr (Or.inl ⟨rfl, (Option.some.inj h).symm⟩)
  | checkFile now =>
    obtain ⟨-, heq⟩ := Option.ite_none_right_eq_some.mp h
    split at heq
    · next hneeds => exact Or.inr (Or.inr (Or.inl ⟨now, rfl, hneeds, (Option.some.inj heq).symm⟩))
    · next hneeds =>
      exact Or.inr (Or.inr (Or.inr (Or.inl ⟨now, rfl, hneeds, (Option.some.inj heq).symm⟩)))
  | takeLine counts =>
    simp only [system, next, if_neg hname] at h
    split at h
    · next line lines hstage hlines =>
      split at h
      · cases h
      · next name hlog =>
        split at h
        · next file hwrite =>
          rw [writeToFile_eq_true hwrite] at h
          exact Or.inr (Or.inr (Or.inr (Or.inr (Or.inl ⟨counts, line, lines, name, rfl, hlines,
            hlog, (Option.some.inj h).symm⟩))))
        · cases h
    · cases h
  | finish =>
    obtain ⟨-, heq⟩ := Option.ite_none_right_eq_some.mp h
    exact Or.inr (Or.inr (Or.inr (Or.inr (Or.inr ⟨rfl, (Option.some.inj heq).symm⟩))))

/-- What all runs keep: the current file has been created, and the other files hold something; so
does the current one, unless it has just been begun. -/
structure Valid (s : LogWriter) : Prop where
  lines : ∀ line ∈ s.linesToWrite, line ≠ []
  nodup : s.created.Nodup
  created_of_none : s.logFile = none → s.created = []
  current : ∀ name, s.logFile = some name → name ∈ s.created
  current_written : ∀ name, s.logFile = some name → s.currentWrittenSize = 0 ∨ s.disk name ≠ []
  others : ∀ name ∈ s.created, s.logFile = some name ∨ s.disk name ≠ []

/-- A file that is to be replaced holds something. -/
lemma Valid.disk_ne_nil (h : s.Valid) (hsize : 0 < c.fileRollSize) (hneeds : s.NeedsNewFile c)
    {name : Bytes} (hname : name ∈ s.created) : s.disk name ≠ [] := by
  rcases h.others name hname with hcurrent | hne
  · rcases h.current_written name hcurrent with hzero | hne
    · rcases hneeds.2 with hnone | hfull
      · rw [hnone] at hcurrent
        cases hcurrent
      · rw [hzero] at hfull
        exact absurd hsize (Int64.not_lt.mpr hfull)
    · exact hne
  · exact hne

lemma Valid.step (hname : c.fileName ≠ []) (hsize : 0 < c.fileRollSize) (hs : s.Valid)
    (h : (system c).step s l s') : s'.Valid := by
  rcases step_cases hname h with ⟨line, -, hline, rfl⟩ | ⟨-, rfl⟩ | ⟨now, -, hneeds, rfl⟩ |
    ⟨now, -, -, rfl⟩ | ⟨counts, line, lines, name, -, hlines, hlog, rfl⟩ | ⟨-, rfl⟩
  · refine ⟨fun line' hline' => ?_, hs.nodup, hs.created_of_none, hs.current, hs.current_written,
      hs.others⟩
    rcases List.mem_append.mp hline' with hold | hnew
    · exact hs.lines line' hold
    · rwa [List.mem_singleton.mp hnew]
  · exact ⟨hs.lines, hs.nodup, hs.created_of_none, hs.current, hs.current_written, hs.others⟩
  · have hcreated : ∀ name', name' ∈ (createNewFile (c.newFileName now)
        { s with currentWrittenSize := 0 }).created ↔
          name' = c.newFileName now ∨ name' ∈ s.created := by
      intro name'
      simp only [createNewFile]
      split
      · next hmem => exact ⟨Or.inr, fun hor => hor.elim (fun heq => heq ▸ hmem) id⟩
      · rw [List.mem_append, List.mem_singleton, or_comm]
    refine ⟨hs.lines, ?_, fun hnone => (nomatch hnone), ?_, fun name' _ => Or.inl rfl, ?_⟩
    · simp only [createNewFile]
      split
      · exact hs.nodup
      · next hnotMem => exact List.nodup_append.mpr ⟨hs.nodup, List.nodup_singleton _,
          fun a ha b hb hab => hnotMem (List.mem_singleton.mp hb ▸ hab ▸ ha)⟩
    · intro name' hlog
      exact (hcreated name').mpr (Or.inl (Option.some.inj hlog).symm)
    · intro name' hname'
      by_cases heq : name' = c.newFileName now
      · exact Or.inl (congrArg some heq.symm)
      · right
        simp only [createNewFile, Function.update_of_ne heq]
        exact hs.disk_ne_nil hsize hneeds (((hcreated name').mp hname').resolve_left heq)
  · exact ⟨hs.lines, hs.nodup, hs.created_of_none, hs.current, hs.current_written, hs.others⟩
  · have hline : line ≠ [] := hs.lines line (by rw [hlines]; exact List.mem_cons_self ..)
    have hwritten : Function.update s.disk name (s.disk name ++ line) name ≠ [] := by
      rw [Function.update_self]
      exact List.append_ne_nil_of_right_ne_nil _ hline
    refine ⟨fun line' hline' => hs.lines line' ?_, hs.nodup, hs.created_of_none, hs.current,
      fun name' hname' => Or.inr ?_, fun name' hname' => ?_⟩
    · rw [hlines]
      exact List.mem_cons_of_mem _ hline'
    · rw [show s.logFile = some name' from hname'] at hlog
      obtain rfl := Option.some.inj hlog
      exact hwritten
    · by_cases heq : name' = name
      · exact Or.inl (heq ▸ hlog)
      · simp only [Function.update_of_ne heq]
        exact hs.others name' hname'
  · exact ⟨hs.lines, hs.nodup, hs.created_of_none, hs.current, hs.current_written, hs.others⟩

/-! ## Contents -/

/-- Writing to another file changes nothing. -/
lemma map_update_of_notMem {names : List Bytes} {name : Bytes} (disk : Bytes → Bytes)
    (file : Bytes) (h : name ∉ names) : names.map (Function.update disk name file) =
      names.map disk :=
  List.map_congr_left fun name' hname' =>
    Function.update_of_ne (fun heq : name' = name => h (heq ▸ hname')) _ _

/-- The sizes of all files after one has changed. -/
lemma length_flatten_update {names : List Bytes} {name : Bytes} (disk : Bytes → Bytes)
    (file : Bytes) (hnodup : names.Nodup) (hmem : name ∈ names) :
    (names.map (Function.update disk name file)).flatten.length + (disk name).length =
      (names.map disk).flatten.length + file.length := by
  obtain ⟨before, after, rfl⟩ := List.append_of_mem hmem
  have hbefore : name ∉ before := fun hname =>
    (List.disjoint_of_nodup_append hnodup) hname (List.mem_cons_self ..)
  have hafter : name ∉ after := (List.nodup_cons.mp (List.nodup_append.mp hnodup).2.1).1
  simp only [List.map_append, List.map_cons, List.flatten_append, List.flatten_cons,
    List.length_append, map_update_of_notMem disk file hbefore,
    map_update_of_notMem disk file hafter, Function.update_self]
  omega

/-- No line is lost so far, and the current file is the last one. -/
structure Whole (s : LogWriter) : Prop where
  keepsLines : s.KeepsLines
  current : s.logFile = s.created.getLast?

/-- Lines are lost. -/
def LostLines (s : LogWriter) : Prop :=
  (s.created.map s.disk).flatten.length < s.taken.flatten.length

lemma LostLines.not_keepsLines (h : s.LostLines) : ¬ s.KeepsLines := by
  intro hkeeps
  rw [LostLines, hkeeps] at h
  exact lt_irrefl _ h

/-- A file with a new name is put after the others. -/
lemma Whole.step (hname : c.fileName ≠ []) (hs : s.Valid) (hwhole : s.Whole)
    (h : (system c).step s l s') (hnew : s.NewName c l) : s'.Whole := by
  rcases step_cases hname h with ⟨line, -, hline, rfl⟩ | ⟨-, rfl⟩ | ⟨now, rfl, hneeds, rfl⟩ |
    ⟨now, -, -, rfl⟩ | ⟨counts, line, lines, name, -, hlines, hlog, rfl⟩ | ⟨-, rfl⟩
  · exact ⟨hwhole.keepsLines, hwhole.current⟩
  · exact ⟨hwhole.keepsLines, hwhole.current⟩
  · have hnotMem : c.newFileName now ∉ s.created := hnew hneeds
    constructor
    · simp only [KeepsLines, createNewFile, if_neg hnotMem, List.map_append,
        map_update_of_notMem s.disk [] hnotMem, List.map_cons, List.map_nil, Function.update_self,
        List.flatten_append, List.flatten_cons, List.flatten_nil, List.append_nil]
      exact hwhole.keepsLines
    · simp only [createNewFile, if_neg hnotMem, List.getLast?_concat]
  · exact ⟨hwhole.keepsLines, hwhole.current⟩
  · refine ⟨?_, hwhole.current⟩
    obtain ⟨before, hcreated⟩ := List.getLast?_eq_some_iff.mp (hwhole.current.symm.trans hlog)
    have hbefore : name ∉ before := by
      have hnodup := hs.nodup
      rw [hcreated] at hnodup
      exact fun hmem => List.disjoint_of_nodup_append hnodup hmem (List.mem_singleton_self name)
    have hkeeps := hwhole.keepsLines
    simp only [KeepsLines, hcreated, List.map_append, List.map_cons, List.map_nil,
      List.flatten_append, List.flatten_cons, List.flatten_nil, List.append_nil,
      map_update_of_notMem s.disk _ hbefore, Function.update_self] at hkeeps ⊢
    rw [← hkeeps, List.append_assoc]
  · exact ⟨hwhole.keepsLines, hwhole.current⟩

/-- Under the name of an earlier file it replaces what that file held. -/
lemma lostLines_of_not_newName (hname : c.fileName ≠ []) (hsize : 0 < c.fileRollSize)
    (hs : s.Valid) (hwhole : s.Whole) (h : (system c).step s l s') (hold : ¬ s.NewName c l) :
    s'.LostLines := by
  rcases step_cases hname h with ⟨line, rfl, -, -⟩ | ⟨rfl, -⟩ | ⟨now, rfl, hneeds, rfl⟩ |
    ⟨now, rfl, hneeds, -⟩ | ⟨counts, line, lines, name, rfl, -, -, -⟩ | ⟨rfl, -⟩
  · exact absurd trivial hold
  · exact absurd trivial hold
  · have hmem : c.newFileName now ∈ s.created := by
      by_contra hnotMem
      exact hold fun _ => hnotMem
    have hne := hs.disk_ne_nil hsize hneeds hmem
    have hlength := length_flatten_update s.disk [] hs.nodup hmem
    have hkeeps : (s.created.map s.disk).flatten.length = s.taken.flatten.length :=
      congrArg List.length hwhole.keepsLines
    have hpos := List.length_pos_of_ne_nil hne
    simp only [LostLines, createNewFile, if_pos hmem]
    rw [List.length_nil] at hlength
    omega
  · exact absurd (fun hneeds' => absurd hneeds' hneeds) hold
  · exact absurd trivial hold
  · exact absurd trivial hold

/-- And what is lost stays lost. -/
lemma LostLines.step (hname : c.fileName ≠ []) (hs : s.Valid) (hlost : s.LostLines)
    (h : (system c).step s l s') : s'.LostLines := by
  rcases step_cases hname h with ⟨line, -, hline, rfl⟩ | ⟨-, rfl⟩ | ⟨now, -, hneeds, rfl⟩ |
    ⟨now, -, -, rfl⟩ | ⟨counts, line, lines, name, -, hlines, hlog, rfl⟩ | ⟨-, rfl⟩
  · exact hlost
  · exact hlost
  · simp only [LostLines, createNewFile]
    split
    · next hmem =>
      have hlength := length_flatten_update s.disk [] hs.nodup hmem
      simp only [LostLines] at hlost
      rw [List.length_nil] at hlength
      omega
    · next hnotMem =>
      simp only [List.map_append, map_update_of_notMem s.disk [] hnotMem, List.map_cons,
        List.map_nil, Function.update_self, List.flatten_append, List.flatten_cons,
        List.flatten_nil, List.append_nil]
      exact hlost
  · exact hlost
  · have hlength := length_flatten_update s.disk (s.disk name ++ line) hs.nodup
      (hs.current name hlog)
    simp only [LostLines, List.flatten_append, List.flatten_cons, List.flatten_nil,
      List.append_nil, List.length_append] at hlost hlength ⊢
    omega
  · exact hlost

/-- **The files hold at the end of a run what has been taken off the queue exactly if every file
that was begun got a name that no earlier file had.** -/
theorem keepsLines_iff (hname : c.fileName ≠ []) (hsize : 0 < c.fileRollSize)
    (hinit : (system c).init s) (hrun : (system c).Run s tr) :
    (TransitionSystem.last s tr).KeepsLines ↔ TransitionSystem.Guarded (NewName c) s tr := by
  obtain ⟨-, -, hlines, hlog, hwritten, hcreated, htaken⟩ := hinit
  have hvalid : s.Valid := by
    refine ⟨?_, ?_, fun _ => hcreated, ?_, ?_, ?_⟩ <;>
      simp [hlines, hcreated, hlog]
  have hwhole : s.Whole := by
    refine ⟨?_, ?_⟩
    · rw [KeepsLines, hcreated, htaken]
      rfl
    · rw [hlog, hcreated]
      rfl
  exact hrun.last_iff_guarded (fun _ _ _ hs h => hs.step hname hsize h)
    (fun _ _ _ hs hw h hnew => hw.step hname hs h hnew)
    (fun _ _ _ hs hw h hold => lostLines_of_not_newName hname hsize hs hw h hold)
    (fun _ _ _ hs hl h => hl.step hname hs h) (fun _ hw => hw.keepsLines)
    (fun _ hl => hl.not_keepsLines) hvalid hwhole

/-- The log of process `42`, with a new file for every line, in the first seconds of 1970. -/
def smallLog : LogConfig where
  fileName := ascii "calc24"
  pid := 42
  fileRollSize := 1
  localtime := fun now => ⟨70, 0, 1, 0, 0, now.toNat⟩

/-- A log before its thread starts, on an empty disk. -/
def empty : LogWriter where
  stage := .checkFile
  exit := false
  linesToWrite := []
  logFile := none
  currentWrittenSize := 0
  disk := fun _ => []
  created := []
  taken := []

/-- Two lines are written, each with a check of the clock before it. -/
def twoLines (now now' : ℤ) : List LogStep :=
  [.output (ascii "ab\n"), .checkFile now, .output (ascii "cd\n"), .takeLine [2, 5],
    .checkFile now', .takeLine [3]]

/-- The two files of two seconds. -/
theorem keepsLines_iff_twoSeconds :
    (TransitionSystem.last empty
      (TransitionSystem.states (next smallLog) empty (twoLines 0 1))).KeepsLines := by
  have hfollows : TransitionSystem.follows (next smallLog) (NewName smallLog) empty
      (twoLines 0 1) = true := by decide
  have hrun := TransitionSystem.run_states (T := system smallLog) (fun _ _ _ h => h) hfollows
  exact (keepsLines_iff (by decide) (by decide) ⟨rfl, rfl, rfl, rfl, rfl, rfl, rfl⟩ hrun.1).mpr
    hrun.2

/-- The readings of the clock in a run. -/
def clockReadings (tr : List (LogStep × LogWriter)) : List ℤ :=
  tr.filterMap fun q => match q.1 with
    | .checkFile now => some now
    | _ => none

/-- In one second the second file replaces the first. -/
theorem exists_lostLine :
    ¬ ∀ (c : LogConfig) (s : LogWriter) (tr : List (LogStep × LogWriter)), c.fileName ≠ [] →
      0 < c.fileRollSize → (system c).init s → (system c).Run s tr →
        (clockReadings tr).Pairwise (· ≤ ·) → (TransitionSystem.last s tr).KeepsLines := by
  intro h
  have hfollows : TransitionSystem.follows (next smallLog) (fun _ _ => True) empty
      (twoLines 0 0) = true := by decide
  have hrun := TransitionSystem.run_states (T := system smallLog) (fun _ _ _ h => h) hfollows
  have hkeeps := h smallLog empty _ (by decide) (by decide) ⟨rfl, rfl, rfl, rfl, rfl, rfl, rfl⟩
    hrun.1 (by decide)
  exact absurd hkeeps (by unfold KeepsLines; decide)

end LogWriter

end Calc24
