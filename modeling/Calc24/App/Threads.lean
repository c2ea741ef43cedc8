import Calc24.App.Decode
import Calc24.App.Sequential

/-!
# The threads of the server

The server as it runs: the base loop accepts connections and deals, and every worker thread goes
through `EventLoop::run` on its own.  A worker's turn consists of a pass over its timers, a poll,
the calls of `onRead` and `onWrite` on each connection that the poll has reported, and the tasks
that were queued for its loop; between any two of these steps the other threads may take any
number of steps.  Each of the following is one step, and no other thread comes in between.

* The base loop accepts a connection, up to the entry in `m_sessions`; the pending sessions are
  destroyed on the way.
* The base loop calls the callback that checks for players, with the count and the whole deal.
* A pass over the timers with the callbacks that it calls, each of which draws its timer ids.
* A poll; a `::recv`, with the whole of `onClose` at the end of the stream; an `onWrite`.
* A package is taken off a receive buffer and handled, with all that `sendAll` sends for it.  A
  right answer takes three steps: the reply, the broadcast and the reset of the desk.
* The queue of tasks is taken; a task is executed.

Results about `Process` speak of interleavings of these steps.  Where the order of smaller ones
matters they are taken apart elsewhere: the deal, the broadcast and the reset in `Dealing`, the
count in `Counting`, accepting and closing in `Accepting`, and the drawing of an id in `TimerIds`.

`Stage` says where a worker thread is, and which pointers it still holds.
-/

namespace Calc24

/-- Where a worker thread is in `EventLoop::run`; `batch` are the connections that remain of the
last poll. -/
inductive Stage
  /-- Before `checkAndDoTimers`. -/
  | timers
  /-- Before `poll`. -/
  | poll
  /-- Before the next connection of the batch. -/
  | dispatch (batch : List Ref)
  /-- In `Calc24Session::onRead`, before a call of `decodePackage`. -/
  | reading (r : Ref) (batch : List Ref)
  /-- In `processCmd`, after the reply to a right answer. -/
  | answered (r : Ref) (batch : List Ref)
  /-- In `processCmd`, after the others have been notified. -/
  | notified (r : Ref) (batch : List Ref)
  /-- In `TCPConnection::onClose`, which `onRead` has called, after the session has left the map;
  at the end of the stream the read callback is called next. -/
  | closing (r : Ref) (eof : Bool) (batch : List Ref)
  /-- Before `TCPConnection::onWrite`. -/
  | writing (r : Ref) (batch : List Ref)
  /-- In `doOtherTask`, before the next task. -/
  | tasks (remaining : List CustomTask)
  deriving DecidableEq

/-- The session whose `onRead` or `onClose` is in progress. -/
def Stage.inProgress : Stage → Option Ref
  | .reading r _ => some r
  | .answered r _ => some r
  | .notified r _ => some r
  | .closing r _ _ => some r
  | _ => none

/-- The session that has given a right answer and has not reset its desk yet. -/
def Stage.answering : Stage → Option Ref
  | .answered r _ => some r
  | .notified r _ => some r
  | _ => none

/-- The session whose next package is taken off its receive buffer. -/
def Stage.reader : Stage → Option Ref
  | .reading r _ => some r
  | _ => none

/-- The tasks that remain of `doOtherTask`. -/
def Stage.remainingTasks : Stage → List CustomTask
  | .tasks remaining => remaining
  | _ => []

/-- The process with its worker threads. -/
structure Process where
  world : World
  stage : ℕ → Stage

/-- What a step of a worker thread takes from outside. -/
structure Input where
  /-- The clock when timers are checked. -/
  nowMs : ℤ := 0
  /-- The connections that `epoll_wait` reports, each with `EPOLLIN` and `EPOLLOUT`. -/
  events : List (Ref × Bool × Bool) := []
  /-- The answer to `::recv`. -/
  recv : RecvResult := .error .EINTR
  deriving DecidableEq

namespace World

variable (env : Environment) (n : ℕ)

/-- `TCPConnection::enableReadWrite`, called by `Epoll::poll`. -/
def enableReadWrite (event : Ref × Bool × Bool) (w : World) : World :=
  w.setEndpoint event.1 ((w.endpoint event.1).enableReadWrite event.2.1 event.2.2)

/-- Replace a connection's receive buffer. -/
def setRecvBuf (r : Ref) (recvBuf : ByteBuffer) (w : World) : World :=
  w.setEndpoint r ((w.endpoint r).setRecvBuf recvBuf)

/-- `TCPConnection::onWrite`. -/
def onWrite (r : Ref) (w : World) : World :=
  { w.setEndpoint r ((w.endpoint r).onWrite (.connection r) (env.send w.flushes)) with
    flushes := w.flushes + 1 }

/-- `epoll_wait` on the loop of a worker reports open descriptors that are registered with it. -/
def Reported (w : World) (r : Ref) : Prop :=
  Alive w r ∧ (w.connection r).loop = .worker n ∧
    ((w.loop (.worker n)).epoll.interest (w.connection r).fd).map Prod.snd = some (.connection r)

instance (w : World) (r : Ref) : Decidable (Reported n w r) :=
  inferInstanceAs (Decidable (_ ∧ _ ∧ _))

/-- `TCPConnection::onRead` up to the read callback. -/
def receive (r : Ref) (batch : List Ref) (recv : RecvResult) (w : World) : Stage × World :=
  if !(w.connection r).enableRead then (.writing r batch, w)
  else
    match recv with
    | .eof => (.closing r true batch, w.onClose (.worker n) r)
    | .error _ => (.writing r batch, w)
    | .data buf => (.reading r batch, w.setRecvBuf r ((w.connection r).recvBuf.append buf))

/-- One package taken off the receive buffer, for a handler that only looks at it. -/
def nextPackage (r : Ref) (w : World) : DecodePackageResult × ByteBuffer × Bytes :=
  Calc24Session.decodePackage (fun package _ => package) (w.connection r).recvBuf []

/-- One round of `Calc24Session::onRead`.  But for a right answer, the package is handled to the end
here: who gets a broadcast is decided by what all sessions are at this moment. -/
def decode (r : Ref) (batch : List Ref) (w : World) : Option (Stage × World) :=
  match w.nextPackage r with
  | (.wantMoreData, _, _) => some (.writing r batch, w)
  | (.failed, _, _) => some (.closing r false batch, w.forceClose (.worker n) r)
  | (.success, recvBuf, package) =>
    let w := w.setRecvBuf r recvBuf
    if package = answerCmd then some (.answered r batch, w.answer env (.worker n) r)
    else (w.processPackage env (.worker n) r package).toOption.map fun w => (.reading r batch, w)

/-- The next step of a worker thread. -/
def work (input : Input) (w : World) : Stage → Option (Stage × World)
  | .timers => some (.poll, w.checkAndDoTimers env (.worker n) input.nowMs)
  | .poll =>
    if ∀ event ∈ input.events, Reported n w event.1 then
      some (.dispatch (input.events.map Prod.fst),
        input.events.foldl (fun w event => w.enableReadWrite event) w)
    else none
  | .dispatch [] =>
    some (.tasks (w.loop (.worker n)).customTasks,
      w.modifyLoop (.worker n) fun l => { l with customTasks := [] })
  | .dispatch (r :: batch) => some (w.receive n r batch input.recv)
  | .reading r batch => w.decode env n r batch
  | .answered r batch =>
    (w.notifyOthers env (.worker n) r).toOption.map fun w => (.notified r batch, w)
  | .notified r batch =>
    (w.resetDesk env (.worker n) r).toOption.map fun w => (.reading r batch, w)
  | .closing r true batch => some (.reading r batch, w)
  | .closing r false batch => some (.writing r batch, w)
  | .writing r batch => some (.dispatch batch, w.onWrite env r)
  | .tasks [] => some (.timers, w)
  | .tasks (task :: rest) => some (.tasks rest, runTask env (.worker n) w task)

end World

/-- The steps of the threads. -/
inductive Step
  /-- The base loop accepts the descriptor `fd`; `order` is the iteration order of the map after
  the new session is stored. -/
  | connect (fd : ℕ) (order : List (Int32 × Ref))
  /-- The base loop calls the callback of the timer that checks for players. -/
  | checkHandup
  /-- A worker thread goes on. -/
  | worker (n : ℕ) (input : Input)
  deriving DecidableEq

namespace Process

variable (env : Environment)

/-- The process when the worker threads start. -/
def start (threadNum : ℕ) : Process where
  world := World.start threadNum
  stage := fun _ => .timers

/-- Where a step leads, if it can be taken.  The acceptance of a connection, from `onAccept` to the
entry in the map, is one step, and so is the callback that counts the ready sessions and deals. -/
def next (s : Process) : Step → Option Process
  | .connect fd order =>
    if World.Allowed s.world (.connect fd order) then
      ((s.world.onAccept fd).onConnected env .base s.world.nextRef order).toOption.map
        fun w => { s with world := w }
    else none
  | .checkHandup => (s.world.checkHandup env .base).toOption.map fun w => { s with world := w }
  | .worker n input =>
    if n < s.world.threadNum then
      (s.world.work env n input (s.stage n)).map fun result =>
        { world := result.2, stage := Function.update s.stage n result.1 }
    else none

/-- All interleavings of the steps of the threads. -/
def interleaved : TransitionSystem Process Step where
  init s := ∃ threadNum > 0, s = start threadNum
  step s step s' := s.next env step = some s'

variable {env}

/-- The process after a list of steps. -/
def runSteps (env : Environment) : Process → List Step → Process :=
  TransitionSystem.runAll fun s step => s.next env step

/-- A list of steps is a run from `s`, with every step meeting the guard `C`. -/
def follows (C : Process → Step → Prop) [∀ s step, Decidable (C s step)] (env : Environment) :
    Process → List Step → Bool :=
  TransitionSystem.follows (fun s step => s.next env step) C

lemma reachableUnder_runSteps {C : Process → Step → Prop} [∀ s step, Decidable (C s step)]
    {s : Process} {steps : List Step} (hs : (interleaved env).ReachableUnder C s)
    (h : follows C env s steps = true) :
    (interleaved env).ReachableUnder C (runSteps env s steps) :=
  hs.runAll (fun _ _ _ => id) h

/-- A worker thread goes on, without anything from outside. -/
def goOn (n : ℕ) : Step :=
  .worker n {}

/-- A worker thread polls, and is told that the connection `r` can be read. -/
def pollRead (n : ℕ) (r : Ref) : Step :=
  .worker n { events := [(r, true, false)] }

/-- A worker thread receives a text. -/
def recvText (n : ℕ) (text : String) : Step :=
  .worker n { recv := .data (ascii text) }

end Process

end Calc24
