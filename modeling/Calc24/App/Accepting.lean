import Calc24.App.Turns

/-!
# Accepting, in small steps

The interleavings in which the base thread goes through `TCPServer::onAccept`,
`Calc24Server::onConnected` and the constructor of `Calc24Session` one statement at a time, while
the worker threads are polling, receiving, sending and closing, also on the connection that is
being accepted: `startRead` has registered it with the loop of a worker before anything else
happens to it.

Calling a `std::function` that nothing has been assigned to throws `std::bad_function_call`; a run
ends there, and `thrown` names the callback.  A close takes four steps.  Which timers are due and
what a package makes its session do is left open: between two calls of `decodePackage` the session
may send to itself and to registered sessions, reset them, and get ready.
-/

namespace Calc24

/-- `m_readCallback`, `m_writeCallback` and `m_closeCallback` of a `TCPConnection`. -/
inductive Callback
  | read
  | write
  | close
  deriving DecidableEq, Repr

/-- Where the base thread is. -/
inductive BaseStage
  /-- In none of the functions below. -/
  | idle
  /-- In `TCPServer::onAccept`, before the connected callback. -/
  | accepted (r : Ref)
  /-- In `onConnected`, before the session is constructed. -/
  | cleared (r : Ref)
  /-- In the constructor of the session, before the remaining callbacks are set. -/
  | installing (r : Ref) (callbacks : List Callback)
  /-- In `onConnected`, after `sendWelcomeMsg`. -/
  | welcomed (r : Ref)
  /-- In `onConnected`, after `notifyUserToBeReady`. -/
  | reminded (r : Ref)
  deriving DecidableEq, Repr

namespace BaseStage

/-- The connection that is being accepted. -/
def accepting : BaseStage → Option Ref
  | .idle => none
  | .accepted r => some r
  | .cleared r => some r
  | .installing r _ => some r
  | .welcomed r => some r
  | .reminded r => some r

/-- The connection whose `onConnected` is in progress. -/
def connecting : BaseStage → Option Ref
  | .idle => none
  | .accepted _ => none
  | .cleared r => some r
  | .installing r _ => some r
  | .welcomed r => some r
  | .reminded r => some r

/-- The connection is being accepted, and the callback is still to be set. -/
def Awaits (r : Ref) (c : Callback) : BaseStage → Prop
  | .accepted t => t = r
  | .cleared t => t = r
  | .installing t callbacks => t = r ∧ c ∈ callbacks
  | _ => False

instance (r : Ref) (c : Callback) (stage : BaseStage) : Decidable (stage.Awaits r c) :=
  match stage with
  | .idle => .isFalse not_false
  | .accepted t => inferInstanceAs (Decidable (t = r))
  | .cleared t => inferInstanceAs (Decidable (t = r))
  | .installing t callbacks => inferInstanceAs (Decidable (t = r ∧ c ∈ callbacks))
  | .welcomed _ => .isFalse not_false
  | .reminded _ => .isFalse not_false

end BaseStage

/-- What `TCPConnection::onClose` does next. -/
inductive ClosePhase
  /-- `unregisterAllEvent`. -/
  | unregister
  /-- The call of `m_closeCallback`. -/
  | callback
  /-- `removeTimer` in `Calc24Session::onClose`. -/
  | removeTimer
  /-- `Calc24Server::onDisconnected`. -/
  | onDisconnected
  deriving DecidableEq, Repr

/-- Where a worker thread is; `batch` are the connections that remain of the last poll. -/
inductive WorkerStage
  /-- In `checkAndDoTimers`, or before `poll`. -/
  | timers
  /-- Before the next connection of the batch. -/
  | dispatch (batch : List Ref)
  /-- In `TCPConnection::onRead`, before the call of `m_readCallback`. -/
  | onRead (r : Ref) (batch : List Ref)
  /-- In `Calc24Session::onRead`. -/
  | readCallback (r : Ref) (batch : List Ref)
  /-- Before `TCPConnection::onWrite`. -/
  | writing (r : Ref) (batch : List Ref)
  /-- In `doOtherTask`, before the next task. -/
  | tasks (remaining : List CustomTask)
  /-- In `TCPConnection::onClose`, which returns to `back`. -/
  | onClose (r : Ref) (phase : ClosePhase) (back : WorkerStage)
  deriving DecidableEq

namespace WorkerStage

/-- The connection whose `onClose` is in progress. -/
def closing : WorkerStage → Option Ref
  | .onClose r _ _ => some r
  | _ => none

/-- The thread holds a pointer to the session. -/
def Holds (t : Ref) : WorkerStage → Prop
  | .timers => False
  | .dispatch batch => t ∈ batch
  | .onRead r batch => t ∈ r :: batch
  | .readCallback r batch => t ∈ r :: batch
  | .writing r batch => t ∈ r :: batch
  | .tasks remaining => ∃ task ∈ remaining, task.Concerns t
  | .onClose r _ back => t = r ∨ back.Holds t

end WorkerStage

/-- What a worker thread does. -/
inductive Move
  /-- `epoll_wait` reports connections, each with `EPOLLIN` and `EPOLLOUT`. -/
  | poll (events : List (Ref × Bool × Bool))
  /-- The callback of a timer is called. -/
  | remind (timer : Timer TimerTask)
  /-- A package makes the session send. -/
  | send (r : Ref) (msg : Bytes)
  /-- A package makes the session get ready. -/
  | beReady
  /-- A package makes the session reset another one. -/
  | reset (r : Ref)
  /-- The next statement; `recv` is the answer to `::recv`. -/
  | goOn (recv : RecvResult)
  deriving DecidableEq

/-- The steps of the threads. -/
inductive AcceptingStep
  /-- The base loop accepts a descriptor. -/
  | accept (fd : ℕ)
  /-- The base thread takes the next step of `onAccept` and `onConnected`; `order` is the iteration
  order of the map after the new session is stored. -/
  | connect (order : List (Int32 × Ref))
  /-- The base loop calls the callback of the timer that checks for players. -/
  | checkHandup
  /-- A worker thread goes on. -/
  | worker (n : ℕ) (move : Move)
  deriving DecidableEq

/-- The process with its threads, in small steps. -/
structure Accepting where
  world : World
  callbacks : Ref → List Callback
  base : BaseStage
  worker : ℕ → WorkerStage
  thrown : Option Callback

namespace World

variable (env : Environment)

/-- `TCPConnection::sendInternal` up to `onClose`; the first component says whether it ends by
calling `onClose`. -/
def trySend (r : Ref) (buf : Bytes) (w : World) : Bool × World :=
  let (closes, p) := (w.endpoint r).sendInternal (.connection r) (env.send w.flushes) buf
  (closes, { w.setEndpoint r p with flushes := w.flushes + 1 })

/-- `TCPConnection::sendInternal` calls the write callback. -/
def SendBlocks (r : Ref) (buf : Bytes) (w : World) : Prop :=
  (flush (env.send w.flushes) ((w.connection r).sendBuf.append buf)).1 = .again

/-- `TCPConnection::onWrite` calls the write callback. -/
def WriteBlocks (r : Ref) (w : World) : Prop :=
  (w.connection r).enableWrite = true ∧
    (flush (env.send w.flushes) (w.connection r).sendBuf).1 = .again

instance (r : Ref) (buf : Bytes) (w : World) : Decidable (SendBlocks env r buf w) :=
  inferInstanceAs (Decidable (_ = _))

instance (r : Ref) (w : World) : Decidable (WriteBlocks env r w) :=
  inferInstanceAs (Decidable (_ ∧ _))

end World

namespace Accepting

open World

variable (env : Environment) (n : ℕ)

/-- Call a callback, and go on with `next` unless it is missing. -/
def call (s : Accepting) (r : Ref) (c : Callback) (next : WorkerStage × World) :
    Except Callback (WorkerStage × World) :=
  if c ∈ s.callbacks r then .ok next else .error c

/-- `TCPConnection::send` on a worker thread, which then goes on at `back`. -/
def send (s : Accepting) (r : Ref) (buf : Bytes) (back : WorkerStage) (w : World) :
    Except Callback (WorkerStage × World) :=
  if (w.connection r).loop ≠ .worker n then
    .ok (back, w.modifyLoop (w.connection r).loop (EventLoop.addTask (.send r buf)))
  else if w.SendBlocks env r buf ∧ .write ∉ s.callbacks r then .error .write
  else if (w.trySend env r buf).1 then
    .ok (.onClose r .unregister back, (w.trySend env r buf).2)
  else .ok (back, (w.trySend env r buf).2)

/-- `TCPConnection::onRead` up to the read callback. -/
def receive (s : Accepting) (r : Ref) (batch : List Ref) : RecvResult → WorkerStage × World
  | .eof =>
    if !(s.world.connection r).enableRead then (.writing r batch, s.world)
    else (.onClose r .unregister (.onRead r batch), s.world)
  | .error _ => (.writing r batch, s.world)
  | .data buf =>
    if !(s.world.connection r).enableRead then (.writing r batch, s.world)
    else (.onRead r batch, s.world.setRecvBuf r ((s.world.connection r).recvBuf.append buf))

/-- One round of `Calc24Session::onRead`, up to `processPackage`. -/
def decode (s : Accepting) (r : Ref) (batch : List Ref) : WorkerStage × World :=
  match s.world.nextPackage r with
  | (.wantMoreData, _, _) => (.writing r batch, s.world)
  | (.failed, _, _) => (.onClose r .unregister (.writing r batch), s.world)
  | (.success, recvBuf, _) => (.readCallback r batch, s.world.setRecvBuf r recvBuf)

/-- The callback that `notifyUserToBeReady` creates. -/
def remind (s : Accepting) (r : Ref) (timerID : Int64) : Except Callback (WorkerStage × World) :=
  let w := s.world.log (.reminder r timerID)
  if (w.session r).status = .IDLE then
    s.send env n r reminderMsg .timers (w.log (.sent r reminderMsg))
  else .ok (.timers, w.removeTimer (.worker n) (w.connection r).loop timerID)

/-- `TCPConnection::onClose`, one statement at a time. -/
def close (s : Accepting) (r : Ref) (back : WorkerStage) :
    ClosePhase → Except Callback (WorkerStage × World)
  | .unregister => .ok (.onClose r .callback back,
      s.world.setEndpoint r ((s.world.endpoint r).onClose (.connection r)))
  | .callback => s.call r .close (.onClose r .removeTimer back, s.world)
  | .removeTimer => .ok (.onClose r .onDisconnected back,
      s.world.removeTimer (.worker n) (s.world.connection r).loop (s.world.session r).timerID)
  | .onDisconnected => .ok (back, s.world.onDisconnected (s.world.session r).id)

/-- The next step of a worker thread, if it can be taken. -/
def work (s : Accepting) : WorkerStage → Move → Option (Except Callback (WorkerStage × World))
  | .timers, .remind timer =>
    if timer ∈ (s.world.loop (.worker n)).timers.entries then
      match timer.timerTask with
      | .reminder r => some (s.remind env n r timer.id)
    else none
  | .timers, .poll events =>
    if ∀ event ∈ events, Reported n s.world event.1 then
      some (.ok (.dispatch (events.map Prod.fst),
        events.foldl (fun w event => w.enableReadWrite event) s.world))
    else none
  | .dispatch [], .goOn _ =>
    some (.ok (.tasks (s.world.loop (.worker n)).customTasks,
      s.world.modifyLoop (.worker n) fun l => { l with customTasks := [] }))
  | .dispatch (r :: batch), .goOn recv => some (.ok (s.receive r batch recv))
  | .onRead r batch, .goOn _ => some (s.call r .read (.readCallback r batch, s.world))
  | .readCallback r batch, .goOn _ => some (.ok (s.decode r batch))
  | .readCallback r batch, .send t msg =>
    if t = r ∨ t ∈ s.world.sessions.map Prod.snd then
      some (s.send env n t msg (.readCallback r batch) (s.world.log (.sent t msg)))
    else none
  | .readCallback r batch, .beReady => some (.ok (.readCallback r batch,
      s.world.modifySession r fun session => { session with status := .READY }))
  | .readCallback r batch, .reset t =>
    if t ∈ s.world.sessions.map Prod.snd then
      some (.ok (.readCallback r batch, s.world.resetToIdle env (.worker n) t))
    else none
  | .writing r batch, .goOn _ =>
    if s.world.WriteBlocks env r then
      some (s.call r .write (.dispatch batch, s.world.onWrite env r))
    else some (.ok (.dispatch batch, s.world.onWrite env r))
  | .tasks [], .goOn _ => some (.ok (.timers, s.world))
  | .tasks (.send r buf :: rest), .goOn _ =>
    some (s.send env n r buf (.tasks rest) (s.world.log (.sendTask r)))
  | .tasks (task :: rest), .goOn _ =>
    some (.ok (.tasks rest, runTask env (.worker n) s.world task))
  | .onClose r phase back, .goOn _ => some (s.close n r back phase)
  | _, _ => none

/-- Set a callback of a connection. -/
def install (s : Accepting) (r : Ref) (c : Callback) : Ref → List Callback :=
  Function.update s.callbacks r (c :: s.callbacks r)

/-- The next step of the base thread in `onAccept` and `onConnected`, if it is there. -/
def connect (s : Accepting) (order : List (Int32 × Ref)) : BaseStage → Option Accepting
  | .idle => none
  | .accepted r => some { s with base := .cleared r, world := s.world.clearPending }
  | .cleared r => some { s with
      base := .installing r [.read, .write, .close]
      world := s.world.constructSession env r }
  | .installing r (c :: rest) => some { s with
      base := .installing r rest
      callbacks := s.install r c }
  | .installing r [] => some { s with
      base := .welcomed r
      world := s.world.sendWelcomeMsg env .base r }
  | .welcomed r => some { s with
      base := .reminded r
      world := s.world.notifyUserToBeReady env .base r }
  | .reminded r =>
    (s.world.emplace r order).toOption.map fun w => { s with base := .idle, world := w }

/-- The process when the worker threads start. -/
def start (threadNum : ℕ) : Accepting where
  world := World.start threadNum
  callbacks := fun _ => []
  base := .idle
  worker := fun _ => .timers
  thrown := none

/-- Where a worker thread ends up. -/
def after (s : Accepting) : Except Callback (WorkerStage × World) → Accepting
  | .error c => { s with thrown := some c }
  | .ok (stage, w) => { s with world := w, worker := Function.update s.worker n stage }

/-- Where a step leads, if it can be taken. -/
def next (s : Accepting) (step : AcceptingStep) : Option Accepting :=
  if s.thrown ≠ none then none
  else
    match step with
    | .accept fd =>
      if s.base = .idle ∧ Allowed s.world (.connect fd []) then
        some { s with base := .accepted s.world.nextRef, world := s.world.onAccept fd }
      else none
    | .connect order => s.connect env order s.base
    | .checkHandup =>
      if s.base = .idle then
        (s.world.checkHandup env .base).toOption.map fun w => { s with world := w }
      else none
    | .worker n move =>
      if n < s.world.threadNum then (s.work env n (s.worker n) move).map (s.after n) else none

/-- All interleavings of the threads. -/
def system : TransitionSystem Accepting AcceptingStep where
  init s := ∃ threadNum > 0, s = start threadNum
  step s step s' := s.next env step = some s'

end Accepting

end Calc24
