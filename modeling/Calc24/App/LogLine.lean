import Calc24.App.BinaryDump
import Calc24.App.LogRolling

/-!
# The text of a log call

The two functions `CAsyncLog::output` drop a message whose level is below the current one, unless
it is critical.  They put the level, the time, the thread and, in the longer form, the place in the
source in front of a message, cut the message if the log was started so, and end the line if the
log goes to a file (`appsrc/AsyncLog.cpp`).  `outputBinary` puts a dump on the same queue, whose
text is that of `BinaryDump` as long as no other thread is at a dump.

A log that goes to a file is a sequence of complete lines: every text ends with a line feed
(`LogCall.residue_text`), so that none of them runs into the next one.
-/

namespace Calc24

/-- `enum LOG_LEVEL`. -/
inductive LogLevel
  | trace
  | debug
  | info
  | warning
  | error
  | sysError
  | fatal
  | critical
  deriving DecidableEq, Repr

/-- The value of the enumerator. -/
def LogLevel.toNat : LogLevel → ℕ
  | .trace => 0
  | .debug => 1
  | .info => 2
  | .warning => 3
  | .error => 4
  | .sysError => 5
  | .fatal => 6
  | .critical => 7

instance : LT LogLevel := ⟨fun level level' => level.toNat < level'.toNat⟩

instance : DecidableLT LogLevel := fun level level' =>
  inferInstanceAs (Decidable (level.toNat < level'.toNat))

/-- What stands for the level in a line. -/
def LogLevel.tag : LogLevel → Bytes
  | .trace => ascii "[TRACE]"
  | .debug => ascii "[DEBUG]"
  | .info => ascii "[INFO]"
  | .warning => ascii "[WARN]"
  | .error => ascii "[ERROR]"
  | .sysError => ascii "[SYSE]"
  | .fatal => ascii "[FATAL]"
  | .critical => ascii "[CRITICAL]"

def MAX_LINE_LENGTH : ℕ := 256

/-- What an `int` is printed as for a width, with zeros in front. -/
def decimalIntPadded (width : ℕ) (n : ℤ) : Bytes :=
  if n < 0 then ascii "-" ++ decimalPadded (width - 1) n.natAbs else decimalPadded width n.natAbs

/-- What `CAsyncLog::init` is called with, and what the threads print as their ids. -/
structure AsyncLogConfig (T : Type*) extends LogConfig where
  truncateLongLog : Bool
  threadId : T → Bytes

namespace AsyncLogConfig

variable {T : Type*} (c : AsyncLogConfig T)

/-- `CAsyncLog::getTime`, in an array of 64. -/
def getTime (now : ℤ) (millitm : ℕ) : Bytes :=
  let time := c.localtime now
  (ascii "[" ++ decimalIntPadded 4 (time.year + 1900) ++ ascii "-" ++
    decimalPadded 2 (time.mon + 1) ++ ascii "-" ++ decimalPadded 2 time.mday ++ ascii " " ++
    decimalPadded 2 time.hour ++ ascii ":" ++ decimalPadded 2 time.min ++ ascii ":" ++
    decimalPadded 2 time.sec ++ ascii ":" ++ decimalPadded 3 millitm ++ ascii "]").take 63

/-- `CAsyncLog::makeLinePrefix`; the id of the thread is put into an array of 32. -/
def makeLinePrefix (thread : T) (level : LogLevel) (now : ℤ) (millitm : ℕ) : Bytes :=
  level.tag ++ c.getTime now millitm ++ (ascii "[" ++ c.threadId thread ++ ascii "]").take 31

/-- The end of a line: the message, as far as it is kept, and a line feed for a log with a name. -/
def endOfLine (message : Bytes) : Bytes :=
  (if c.truncateLongLog then message.take MAX_LINE_LENGTH else message) ++
    if c.fileName ≠ [] then [LF] else []

end AsyncLogConfig

/-- A call of one of the two functions `output`, with the message that its format and arguments
are printed as, or of `outputBinary`. -/
inductive LogCall
  | output (level : LogLevel) (message : Bytes)
  | outputAt (level : LogLevel) (fileName : Bytes) (lineNo : Int32) (message : Bytes)
  | outputBinary (address : Int64) (buffer : Bytes)

namespace LogCall

/-- The call is not dropped. -/
def Passes (currentLevel : LogLevel) : LogCall → Prop
  | output level _ | outputAt level _ _ _ => level ≠ .critical → ¬ level < currentLevel
  | outputBinary _ _ => True

instance (currentLevel : LogLevel) (call : LogCall) : Decidable (call.Passes currentLevel) :=
  match call with
  | output level _ | outputAt level _ _ _ =>
    inferInstanceAs (Decidable (level ≠ .critical → ¬ level < currentLevel))
  | outputBinary _ _ => .isTrue trivial

/-- The call ends the program. -/
def Fatal : LogCall → Prop
  | output level _ | outputAt level _ _ _ => level = .fatal
  | outputBinary _ _ => False

instance (call : LogCall) : Decidable call.Fatal :=
  match call with
  | output level _ | outputAt level _ _ _ => inferInstanceAs (Decidable (level = .fatal))
  | outputBinary _ _ => .isFalse not_false

/-- The call is one of `outputBinary`. -/
def isBinary : LogCall → Bool
  | outputBinary _ _ => true
  | output _ _ | outputAt _ _ _ _ => false

/-- The rows of a dump can be numbered. -/
def Numbered : LogCall → Prop
  | outputBinary _ buffer => buffer.length ≤ 32 * (2 ^ 31 - 1)
  | output _ _ | outputAt _ _ _ _ => True

instance (call : LogCall) : Decidable call.Numbered :=
  match call with
  | outputBinary _ buffer => inferInstanceAs (Decidable (buffer.length ≤ 32 * (2 ^ 31 - 1)))
  | output _ _ | outputAt _ _ _ _ => .isTrue trivial

variable {T : Type*} (c : AsyncLogConfig T)

/-- What the call puts on the queue.  For a dump, this is so while no other thread makes one, as
`ullto4Str` answers with an array that all threads share. -/
def text (thread : T) (now : ℤ) (millitm : ℕ) : LogCall → Bytes
  | output level message => c.makeLinePrefix thread level now millitm ++ c.endOfLine message
  | outputAt level fileName lineNo message =>
    -- the place in the source is put into an array of 512
    c.makeLinePrefix thread level now millitm ++
      (ascii "[" ++ fileName ++ ascii ":" ++ decimalLong lineNo.toInt64 ++ ascii "]").take 511 ++
      c.endOfLine message
  | outputBinary address buffer => (Calc24.outputBinary address buffer).os

variable {c} {call : LogCall} {thread : T} {now : ℤ} {millitm : ℕ}

/-- A level is never printed as nothing. -/
lemma makeLinePrefix_ne_nil (level : LogLevel) :
    c.makeLinePrefix thread level now millitm ≠ [] := by
  have htag : level.tag ≠ [] := by cases level <;> decide
  rw [AsyncLogConfig.makeLinePrefix, List.append_assoc]
  exact List.append_ne_nil_of_left_ne_nil htag _

/-- The dump is its first line and its rows. -/
lemma outputBinary_os (address : Int64) {buffer : Bytes}
    (h : buffer.length ≤ 32 * (2 ^ 31 - 1)) :
    (Calc24.outputBinary address buffer).os =
      (ascii "address[" ++ decimalLong address ++ ascii "] size[" ++ decimal buffer.length ++
        ascii "] ") ++ [LF] ++ (dumpRows 0 buffer).flatten := by
  have hpieces := outputPieces_eq 0 buffer
    { os := ascii "address[" ++ decimalLong address ++ ascii "] size[" ++ decimal buffer.length ++
        ascii "] \n"
      inBounds := true } (by omega)
  have hend : ascii "] \n" = ascii "] " ++ [LF] := by decide
  rw [Calc24.outputBinary, show (0 : Int32) = Int32.ofNat 0 from rfl, hpieces]
  simp only [hend, List.append_assoc]

/-- No text is empty. -/
lemma text_ne_nil (hnumbered : call.Numbered) : call.text c thread now millitm ≠ [] := by
  cases call with
  | output level message => exact List.append_ne_nil_of_left_ne_nil (makeLinePrefix_ne_nil level) _
  | outputAt level fileName lineNo message =>
    rw [text, List.append_assoc]
    exact List.append_ne_nil_of_left_ne_nil (makeLinePrefix_ne_nil level) _
  | outputBinary address buffer =>
    rw [text, outputBinary_os address hnumbered]
    simp

/-- In a log with a name the end of a line is a line feed. -/
lemma endOfLine_eq (hname : c.fileName ≠ []) (message : Bytes) :
    ∃ body, c.endOfLine message = body ++ [LF] := by
  rw [AsyncLogConfig.endOfLine, if_pos hname]
  exact ⟨_, rfl⟩

/-- **In a log with a name every text ends with a line feed.** -/
lemma residue_text (hname : c.fileName ≠ []) (hnumbered : call.Numbered) :
    Framing.residue LF (call.text c thread now millitm) = [] := by
  cases call with
  | output level message =>
    obtain ⟨body, hbody⟩ := endOfLine_eq hname message
    rw [text, hbody, ← List.append_assoc]
    exact Framing.residue_concat LF _
  | outputAt level fileName lineNo message =>
    obtain ⟨body, hbody⟩ := endOfLine_eq hname message
    rw [text, hbody, ← List.append_assoc]
    exact Framing.residue_concat LF _
  | outputBinary address buffer =>
    rw [text, outputBinary_os address hnumbered, Framing.residue_append,
      Framing.residue_concat, List.nil_append]
    have hrows := Framing.frames_flatten_append (d := LF) (exists_of_mem_dumpRows 0 buffer) []
    rw [List.append_nil] at hrows
    exact hrows.2

end LogCall

end Calc24
