import Calc24.Net.TCPConnection

/-!
# The state of the server

The whole process of `appsrc/Calc24Server.cpp`: the event loops with their epoll instances, task
queues and timers, the connections, the sessions, the map `m_sessions` and the list
`m_pendingToDeleteSessions`, and the counters that ids are drawn from.

A session and its connection are created together and own each other, so one address, a `Ref`,
names both.  What comes from outside the process in unforeseeable ways is an `Environment`: the
kernel's answers to `::send`, the clock, `rand`, and what uninitialised memory holds.
-/

namespace Calc24

/-- The address of a session and of its connection. -/
abbrev Ref := ℕ

/-- `SESSION_STATUS_IDLE`, `SESSION_STATUS_READY` and `SESSION_STATUS_IN_GAME`. -/
inductive SessionStatus
  | IDLE
  | READY
  | IN_GAME
  deriving DecidableEq, Repr

/-- The data members of `class Calc24Session`. -/
structure Calc24Session where
  id : Int32
  timerID : Int64
  deskID : Int64
  status : SessionStatus
  deriving DecidableEq

/-- What is registered with the epoll instances. -/
inductive Dispatcher
  | wakeup
  | acceptor
  | connection (r : Ref)
  deriving DecidableEq, Repr

/-- The callbacks of timers on worker loops: the one that `notifyUserToBeReady` creates. -/
inductive TimerTask
  | reminder (r : Ref)
  deriving DecidableEq, Repr

/-- The tasks that are queued for another thread's loop. -/
inductive CustomTask
  | send (r : Ref) (buf : Bytes)
  | addTimerInternal (spTimer : Timer TimerTask)
  | removeTimerInternal (timerID : Int64)
  deriving DecidableEq

/-- A task that works on a session, or on its reminder. -/
def CustomTask.Concerns (r : Ref) : CustomTask → Prop
  | .send t _ => t = r
  | .addTimerInternal spTimer => spTimer.timerTask = .reminder r
  | .removeTimerInternal _ => False

instance (r : Ref) (task : CustomTask) : Decidable (task.Concerns r) :=
  match task with
  | .send t _ => inferInstanceAs (Decidable (t = r))
  | .addTimerInternal spTimer => inferInstanceAs (Decidable (spTimer.timerTask = .reminder r))
  | .removeTimerInternal _ => .isFalse not_false

/-- What is recorded of a run. -/
inductive Event
  /-- A session calls `send` on its connection. -/
  | sent (r : Ref) (buf : Bytes)
  /-- A send task that was queued for the connection is executed. -/
  | sendTask (r : Ref)
  /-- The reminder callback of a session is called. -/
  | reminder (r : Ref) (timerID : Int64)
  /-- `sendCards` puts a session at a desk. -/
  | dealt (r : Ref) (deskID : Int64)
  /-- `onConnected` clears a session out of `m_pendingToDeleteSessions`. -/
  | released (r : Ref)
  deriving DecidableEq

/-- Undefined behaviour that ends a run. -/
inductive Fault
  /-- A map was changed under an iterator. -/
  | iteratorInvalidated
  /-- A session was destroyed while its connection is registered with a loop. -/
  | sessionDropped
  deriving DecidableEq, Repr

/-- What the process cannot foresee. -/
structure Environment where
  /-- The answers to the `::send` calls of each flush of a send buffer. -/
  send : ℕ → List SendResult
  /-- The clock when each timer is constructed. -/
  clock : ℕ → ℤ
  /-- The results of `rand`. -/
  rand : ℕ → ℕ
  /-- What a new session's `m_timerID` holds. -/
  memory : Ref → Int64

/-- The state of the process.  `trace` is a ghost, the latest event first; `flushes`, `randCalls`
and `timersConstructed` count what has been drawn from the environment. -/
structure World where
  threadNum : ℕ
  lastEventLoopNo : ℕ
  loop : LoopId → EventLoop Dispatcher TimerTask CustomTask
  connection : Ref → TCPConnection
  session : Ref → Calc24Session
  nextRef : Ref
  sessions : List (Int32 × Ref)
  pendingToDeleteSessions : List Ref
  sessionBaseId : Int32
  timerBaseId : Int64
  deskBaseId : Int64
  timersConstructed : ℕ
  flushes : ℕ
  randCalls : ℕ
  trace : List Event

namespace World

/-- The process when `Calc24Server::init` has started `threadNum` worker threads: the timer that
checks for players has been constructed, and nobody has connected. -/
def start (threadNum : ℕ) : World where
  threadNum := threadNum
  lastEventLoopNo := 0
  loop := fun _ => EventLoop.empty
  connection := fun _ => { fd := 0, loop := .base }
  session := fun _ => { id := 0, timerID := 0, deskID := 0, status := .IDLE }
  nextRef := 0
  sessions := []
  pendingToDeleteSessions := []
  sessionBaseId := 0
  timerBaseId := 1
  deskBaseId := 0
  timersConstructed := 1
  flushes := 0
  randCalls := 0
  trace := []

/-- Record an event. -/
def log (e : Event) (w : World) : World :=
  { w with trace := e :: w.trace }

/-- Change one loop. -/
def modifyLoop (l : LoopId) (f : EventLoop Dispatcher TimerTask CustomTask →
    EventLoop Dispatcher TimerTask CustomTask) (w : World) : World :=
  { w with loop := Function.update w.loop l (f (w.loop l)) }

/-- Change one session. -/
def modifySession (r : Ref) (f : Calc24Session → Calc24Session) (w : World) : World :=
  { w with session := Function.update w.session r (f (w.session r)) }

/-- A connection with the epoll instance of its loop. -/
def endpoint (r : Ref) (w : World) : Endpoint Dispatcher where
  connection := w.connection r
  epoll := (w.loop (w.connection r).loop).epoll

/-- Put a connection and the epoll instance of its loop back. -/
def setEndpoint (r : Ref) (p : Endpoint Dispatcher) (w : World) : World :=
  { w.modifyLoop (w.connection r).loop (fun l => { l with epoll := p.epoll }) with
    connection := Function.update w.connection r p.connection }

/-- The timer members of one loop. -/
def loopTimers (l : LoopId) : TimerHost World TimerTask where
  get w := (w.loop l).timers
  set x w := w.modifyLoop l fun loop => { loop with timers := x }
  get_set x w := by simp [modifyLoop]

@[simp] lemma loopTimers_get (l : LoopId) (w : World) :
    (loopTimers l).get w = (w.loop l).timers := rfl

lemma loopTimers_modify (l : LoopId) (f : LoopTimers TimerTask → LoopTimers TimerTask)
    (w : World) : (loopTimers l).modify f w =
      w.modifyLoop l fun loop => { loop with timers := f loop.timers } := rfl

/-- `for (auto& iter : m_sessions)`: the body may not change the map, because the only entry it
can erase is the one that the iterator stands on. -/
def forEachSession (body : Ref → World → World) (w : World) : Except Fault World :=
  go w.sessions w
where
  go : List (Int32 × Ref) → World → Except Fault World
  | [], w => .ok w
  | (_, r) :: rest, w =>
    if (body r w).sessions = w.sessions then go rest (body r w)
    else .error .iteratorInvalidated

end World

end Calc24
