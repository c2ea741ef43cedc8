import Calc24.App.World

/-!
# The operations of the server

The functions of `appsrc/Calc24Server.cpp` and `appsrc/Calc24Session.cpp`, with those of
`net/EventLoop.cpp` and `net/TCPConnection.cpp` that reach beyond one connection.  The argument
`cur` is the thread that makes a call: a call meant for another thread's loop is queued there.

A function that iterates over `m_sessions` may end in a `Fault`; the others are total.

Undefined behaviour is met in two ways.  An entry that is erased while an iterator stands on it is a
`Fault`, and nothing follows (`World.forEachSession`).  A session that has been destroyed keeps the
record that it had, and so does its connection: a call on it, which is undefined in the source, goes
on with the record (`World.clearPending`), and the event `released` tells that it means nothing any
more.
-/

namespace Calc24

namespace World

variable (env : Environment) (cur : LoopId)

/-! ## Timers -/

/-- `EventLoop::addTimerInternal` of the loop `l`. -/
def addTimerInternal (l : LoopId) (spTimer : Timer TimerTask) (w : World) : World :=
  if cur = l then (loopTimers l).modify (LoopTimers.addTimerInternal spTimer) w
  else w.modifyLoop l (EventLoop.addTask (.addTimerInternal spTimer))

/-- `EventLoop::removeTimerInternal` of the loop `l`, and so `EventLoop::removeTimer`. -/
def removeTimer (l : LoopId) (timerID : Int64) (w : World) : World :=
  if cur = l then (loopTimers l).modify (LoopTimers.removeTimerInternal timerID) w
  else w.modifyLoop l (EventLoop.addTask (.removeTimerInternal timerID))

/-- The constructor of `Timer`, with the id of `Timer::geneateTimerID`; the timer is due for the
loop `l`.  The two atomic operations with which an id is drawn come one right after the other; what
happens between them is the subject of `TimerIds`. -/
def constructTimer (l : LoopId) (intervalMs : ℤ) (repeated : Bool) (repeatedCount : ℤ)
    (timerTask : TimerTask) (mode : TimerMode) (w : World) : Timer TimerTask × World :=
  ({ object := w.timersConstructed
     id := w.timerBaseId + 1
     intervalMs := intervalMs
     repeated := repeated
     repeatedCount := repeatedCount
     timerTask := timerTask
     mode := mode },
    { (loopTimers l).modify
        (LoopTimers.construct w.timersConstructed (env.clock w.timersConstructed + intervalMs)) w with
      timerBaseId := w.timerBaseId + 1
      timersConstructed := w.timersConstructed + 1 })

/-- `EventLoop::addTimer` of the loop `l`. -/
def addTimer (l : LoopId) (intervalMs : ℤ) (repeated : Bool) (repeatedCount : ℤ)
    (timerTask : TimerTask) (mode : TimerMode) (w : World) : Int64 × World :=
  let (spTimer, w) := w.constructTimer env l intervalMs repeated repeatedCount timerTask mode
  (spTimer.id, w.addTimerInternal cur l spTimer)

/-! ## Closing -/

/-- `Calc24Server::onDisconnected`. -/
def onDisconnected (id : Int32) (w : World) : World :=
  match w.sessions.find? fun entry => entry.1 == id with
  | none => w
  | some entry =>
    { w with
      pendingToDeleteSessions := w.pendingToDeleteSessions ++ [entry.2]
      sessions := w.sessions.eraseP fun entry => entry.1 == id }

/-- `Calc24Session::onClose`. -/
def sessionOnClose (r : Ref) (w : World) : World :=
  (w.removeTimer cur (w.connection r).loop (w.session r).timerID).onDisconnected (w.session r).id

/-- `TCPConnection::onClose`. -/
def onClose (r : Ref) (w : World) : World :=
  (w.setEndpoint r ((w.endpoint r).onClose (.connection r))).sessionOnClose cur r

/-! ## Sending -/

/-- `TCPConnection::sendInternal`. -/
def sendInternal (r : Ref) (buf : Bytes) (w : World) : World :=
  let (closes, p) := (w.endpoint r).sendInternal (.connection r) (env.send w.flushes) buf
  let w := { w.setEndpoint r p with flushes := w.flushes + 1 }
  if closes then w.onClose cur r else w

/-- `TCPConnection::send`. -/
def send (r : Ref) (buf : Bytes) (w : World) : World :=
  if cur = (w.connection r).loop then w.sendInternal env cur r buf
  else w.modifyLoop (w.connection r).loop (EventLoop.addTask (.send r buf))

/-- `Calc24Session::sendMsg`, and every other call of `m_spConn->send` by a session. -/
def sendMsg (r : Ref) (msg : Bytes) (w : World) : World :=
  (w.log (.sent r msg)).send env cur r msg

/-! ## Sessions -/

/-- The `welcomeMsg` of `sendWelcomeMsg`. -/
def welcomeMsg : Bytes := ascii "Welcome To Calc24 Game.\n"

/-- What the reminder callback sends. -/
def reminderMsg : Bytes := ascii "please hand up!\n"

def rightAnswer : Bytes := ascii "Congratulations! Your answer is right! Game Over!\n"

def notifyOthersGameOverMsg : Bytes :=
  ascii "One palyer has already given the right answer! Game Over!\n"

def wrongAnswer : Bytes := ascii "Your answer is wrong, please try again!\n"

/-- `Calc24Session::sendWelcomeMsg`. -/
def sendWelcomeMsg (r : Ref) (w : World) : World :=
  w.sendMsg env cur r welcomeMsg

/-- `Calc24Session::notifyUserToBeReady`. -/
def notifyUserToBeReady (r : Ref) (w : World) : World :=
  let (timerID, w) := w.addTimer env cur (w.connection r).loop 5000 true 0 (.reminder r)
    .fixedInterval
  w.modifySession r fun s => { s with timerID := timerID }

/-- The callback that `notifyUserToBeReady` creates. -/
def reminderCallback (r : Ref) (timerID : Int64) (w : World) : World :=
  let w := w.log (.reminder r timerID)
  if (w.session r).status = .IDLE then w.sendMsg env cur r reminderMsg
  else w.removeTimer cur (w.connection r).loop timerID

/-- `Calc24Session::forceClose`. -/
def forceClose (r : Ref) (w : World) : World :=
  w.onClose cur r

/-- `Calc24Session::sendCards`. -/
def sendCards (r : Ref) (cards : Bytes) (deskID : Int64) (w : World) : World :=
  let w := (w.sendMsg env cur r cards).log (.dealt r deskID)
  w.modifySession r fun s => { s with deskID := deskID, status := .IN_GAME }

/-- `Calc24Session::resetToIdle`. -/
def resetToIdle (r : Ref) (w : World) : World :=
  (w.modifySession r fun s => { s with deskID := 0, status := .IDLE }).notifyUserToBeReady env cur r

/-! ## The server -/

/-- `Calc24Server::sendAll`. -/
def sendAll (msg : Bytes) (includeSelf : Bool) (id : Int32) (status : SessionStatus)
    (deskID : Int64) (w : World) : Except Fault World :=
  w.forEachSession fun r w =>
    if includeSelf = false ∧ (w.session r).id = id then w
    else if (w.session r).status ≠ status ∨ (w.session r).deskID ≠ deskID then w
    else w.sendMsg env cur r msg

/-- `Calc24Server::resetSessionToIdle`. -/
def resetSessionToIdle (deskID : Int64) (w : World) : Except Fault World :=
  w.forEachSession fun r w =>
    if (w.session r).deskID ≠ deskID then w else w.resetToIdle env cur r

/-- `allCars`. -/
def allCars : List Char :=
  ['A', '2', '3', '4', '5', '6', '7', '8', '9', 'X', 'J', 'Q', 'K', 'w', 'W']

/-- `allCars[rand() % allCarsCount]`. -/
def card (n : ℕ) : Char :=
  allCars.getD (n % allCars.length) 'A'

/-- `Calc24Server::generateCards`, with `generateDeskID`. -/
def generateCards (w : World) : Bytes × Int64 × World :=
  let cards := String.ofList [card (env.rand w.randCalls), ' ', card (env.rand (w.randCalls + 1)), ' ',
    card (env.rand (w.randCalls + 2)), ' ', card (env.rand (w.randCalls + 3)), '\n']
  (ascii "Your cards is: " ++ ascii cards, w.deskBaseId + 1,
    { w with deskBaseId := w.deskBaseId + 1, randCalls := w.randCalls + 4 })

/-- `REQUIRED_MIN_READY_COUNT`. -/
def REQUIRED_MIN_READY_COUNT : ℕ := 2

/-- `readySessionCount`. -/
def readySessionCount (w : World) : ℕ :=
  w.sessions.countP fun entry => (w.session entry.2).status = .READY

/-- The callback of the timer that checks for players. -/
def checkHandup (w : World) : Except Fault World :=
  if w.readySessionCount < REQUIRED_MIN_READY_COUNT then .ok w
  else
    let (cards, deskID, w) := w.generateCards env
    w.forEachSession fun r w =>
      if (w.session r).status = .READY then w.sendCards env cur r cards deskID else w

/-! ## Packages -/

/-- The message that `processChatMsg` sends. -/
def msgWithPrefix (id : Int32) (package : Bytes) : Bytes :=
  ascii "client[" ++ ascii (toString id.toInt) ++ ascii "] says: " ++ package

/-- `Calc24Session::processChatMsg`. -/
def processChatMsg (r : Ref) (package : Bytes) (w : World) : Except Fault World :=
  w.sendAll env cur (msgWithPrefix (w.session r).id package) false (w.session r).id
    (w.session r).status (w.session r).deskID

/-- `package.substr(0, 6) == "!ready"`. -/
def IsReadyCmd (package : Bytes) : Prop :=
  package.take 6 = ascii "!ready"

instance (package : Bytes) : Decidable (IsReadyCmd package) :=
  inferInstanceAs (Decidable (_ = _))

/-- The package that is taken for a right answer. -/
def answerCmd : Bytes := ascii "!xyz\n"

/-- The first part of an answer in `processCmd`. -/
def answer (r : Ref) (w : World) : World :=
  w.sendMsg env cur r rightAnswer

/-- The second part of an answer in `processCmd`. -/
def notifyOthers (r : Ref) (w : World) : Except Fault World :=
  w.sendAll env cur notifyOthersGameOverMsg false (w.session r).id (w.session r).status
    (w.session r).deskID

/-- The third part of an answer in `processCmd`. -/
def resetDesk (r : Ref) (w : World) : Except Fault World :=
  w.resetSessionToIdle env cur (w.session r).deskID

/-- `Calc24Session::processCmd`. -/
def processCmd (r : Ref) (package : Bytes) (w : World) : Except Fault World :=
  if IsReadyCmd package then .ok (w.modifySession r fun s => { s with status := .READY })
  else if package = answerCmd then do
    let w ← (w.answer env cur r).notifyOthers env cur r
    w.resetDesk env cur r
  else .ok (w.sendMsg env cur r wrongAnswer)

/-- `Calc24Session::processPackage`. -/
def processPackage (r : Ref) (package : Bytes) (w : World) : Except Fault World :=
  match package with
  | [] => .ok w
  | c :: _ =>
    -- a package that starts with '!' is a command
    if c ≠ 33 then w.processChatMsg env cur r package else w.processCmd env cur r package

/-! ## Connecting -/

/-- `ThreadPoll::getNextEventLoop`. -/
def getNextEventLoop (w : World) : LoopId × World :=
  let lastEventLoopNo := w.lastEventLoopNo + 1
  (.worker w.lastEventLoopNo,
    { w with lastEventLoopNo := if lastEventLoopNo ≥ w.threadNum then 0 else lastEventLoopNo })

/-- `TCPServer::onAccept` up to the connected callback: the connection is constructed at the next
address and starts to read. -/
def onAccept (fd : ℕ) (w : World) : World :=
  let r := w.nextRef
  let (l, w) := w.getNextEventLoop
  let w := { w with
    connection := Function.update w.connection r { fd := fd, loop := l }
    nextRef := r + 1 }
  w.setEndpoint r ((w.endpoint r).startRead (.connection r))

/-- The start of `Calc24Server::onConnected`: the pending sessions are destroyed, and with each of
them its connection, whose descriptor is closed and so leaves the kernel's interest list.  This is
done on the thread of the base loop, wherever the thread of the session is.  The records of the
destroyed objects are left as they were and stand for freed memory from here on. -/
def clearPending (w : World) : World :=
  w.pendingToDeleteSessions.foldl (fun w r =>
    (w.log (.released r)).modifyLoop (w.connection r).loop fun l =>
      { l with epoll := { l.epoll with
        interest := Function.update l.epoll.interest (w.connection r).fd none } })
    { w with pendingToDeleteSessions := [] }

/-- The constructor of `Calc24Session`, with `generateId`. -/
def constructSession (r : Ref) (w : World) : World :=
  { w with
    session := Function.update w.session r
      { id := w.sessionBaseId + 1, timerID := env.memory r, deskID := 0, status := .IDLE }
    sessionBaseId := w.sessionBaseId + 1 }

/-- `m_sessions.emplace`: a new entry goes somewhere in the iteration order, and may change the
rest of it.  If the id is taken the new session is not stored and dies with `onConnected`. -/
def emplace (r : Ref) (order : List (Int32 × Ref)) (w : World) : Except Fault World :=
  if (w.session r).id ∈ w.sessions.map Prod.fst then .error .sessionDropped
  else if order.Perm (((w.session r).id, r) :: w.sessions) then .ok { w with sessions := order }
  else .ok { w with sessions := ((w.session r).id, r) :: w.sessions }

/-- `Calc24Server::onConnected` for the connection at `r`. -/
def onConnected (r : Ref) (order : List (Int32 × Ref)) (w : World) : Except Fault World :=
  ((((w.clearPending).constructSession env r).sendWelcomeMsg env cur r).notifyUserToBeReady env
    cur r).emplace r order

/-! ## The steps of a loop -/

/-- `EventLoop::checkAndDoTimers` of the loop `l`, on its own thread. -/
def checkAndDoTimers (l : LoopId) (nowMs : ℤ) (w : World) : World :=
  (loopTimers l).checkAndDoTimers (fun _ t w =>
    match t.timerTask with
    | .reminder r => w.reminderCallback env l r t.id) nowMs w

/-- The execution of a queued task of the loop `l`, on its own thread. -/
def runTask (l : LoopId) (w : World) : CustomTask → World
  | .send r buf => (w.log (.sendTask r)).send env l r buf
  | .addTimerInternal spTimer => w.addTimerInternal l l spTimer
  | .removeTimerInternal timerID => w.removeTimer l l timerID

/-- `EventLoop::doOtherTask` of the loop `l`. -/
def doOtherTask (l : LoopId) (w : World) : World :=
  (w.loop l).customTasks.foldl (runTask env l) (w.modifyLoop l fun l => { l with customTasks := [] })

end World

end Calc24
