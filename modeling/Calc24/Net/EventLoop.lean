import Calc24.Net.Epoll
import Calc24.Net.Timer

/-!
# `EventLoop`

One loop per thread (`net/EventLoop.cpp`): its epoll instance, the tasks that other threads have
queued for it, and its timers.  Whether a call runs at once or is queued is decided by comparing
the calling thread with the thread of the loop, so loops and threads are named alike.
-/

namespace Calc24

/-- The event loops, and the threads that run them: the base loop, which accepts connections,
and the worker loops of the thread pool. -/
inductive LoopId
  | base
  | worker (n : ℕ)
  deriving DecidableEq, Repr

/-- The data members of `class EventLoop`.  `δ` are the dispatchers registered with its epoll
instance, `τ` the timer callbacks, `κ` the queued tasks. -/
structure EventLoop (δ τ κ : Type*) where
  epoll : Epoll δ
  customTasks : List κ
  timers : LoopTimers τ

namespace EventLoop

variable {δ τ κ : Type*}

/-- A loop after `EventLoop::init`. -/
def empty : EventLoop δ τ κ where
  epoll := Epoll.empty
  customTasks := []
  timers := LoopTimers.empty

/-- `EventLoop::addTask`. -/
def addTask (task : κ) (l : EventLoop δ τ κ) : EventLoop δ τ κ :=
  { l with customTasks := l.customTasks ++ [task] }

/-! ## Forwarding to the epoll instance -/

def registerReadEvent (fd : ℕ) (eventDispatcher : δ) (e : Epoll δ) : Epoll δ :=
  e.registerReadEvent fd eventDispatcher

-- the write event is forwarded to the read event's function
def registerWriteEvent (fd : ℕ) (eventDispatcher : δ) (e : Epoll δ) : Epoll δ :=
  e.registerReadEvent fd eventDispatcher

def unregisterReadEvent (fd : ℕ) (eventDispatcher : δ) (e : Epoll δ) : Epoll δ :=
  e.unregisterReadEvent fd eventDispatcher

-- and so is its removal
def unregisterWriteEvent (fd : ℕ) (eventDispatcher : δ) (e : Epoll δ) : Epoll δ :=
  e.unregisterReadEvent fd eventDispatcher

def unregisterAllEvents (fd : ℕ) (eventDispatcher : δ) (e : Epoll δ) : Epoll δ :=
  e.unregisterReadWriteEvent fd eventDispatcher

/-- Forwarded like this, a request for the write event of a descriptor that is registered for
reading does nothing. -/
lemma registerWriteEvent_of_hasEvent {e : Epoll δ} {fd : ℕ} {d : δ} (h : e.HasEvent fd EPOLLIN) :
    registerWriteEvent fd d e = e :=
  Epoll.registerEvent_of_hasEvent h

end EventLoop

end Calc24
