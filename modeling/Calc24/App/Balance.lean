import Calc24.App.Turns
import Mathlib.Data.Int.CardIntervalMod

/-!
# The connections are shared out evenly

`ThreadPoll::start` starts between one and twenty worker threads, whatever it is asked for, and
`ThreadPoll::getNextEventLoop` hands its loops out in turn.  So the connections go to the worker
threads one after the other, and no worker thread has more than one connection more than another
one has been given (`balanced`), under every interleaving of the steps of `Process`; the connections
are accepted one at a time, on the thread of the base loop.
-/

namespace Calc24

/-! ## Starting the worker threads -/

namespace ThreadPoll

def MAX_THREAD_NUM : Int32 := 20

def DEFAULT_THREAD_NUM : Int32 := 5

/-- The number of loops and threads that `ThreadPoll::start` makes. -/
def start (threadNum : Int32) : ℕ :=
  let threadNum := if threadNum ≤ 0 ∨ threadNum > MAX_THREAD_NUM then DEFAULT_THREAD_NUM else threadNum
  threadNum.toNatClampNeg

/-- Whatever the argument is, there are between one and twenty threads. -/
lemma start_mem_Icc (threadNum : Int32) : start threadNum ∈ Set.Icc 1 20 := by
  unfold start MAX_THREAD_NUM DEFAULT_THREAD_NUM
  dsimp only
  split
  · decide
  · next h =>
    obtain ⟨hpos, hle⟩ := not_or.mp h
    rw [Int32.le_iff_toInt_le] at hpos
    rw [gt_iff_lt, Int32.lt_iff_toInt_lt] at hle
    have hzero : (0 : Int32).toInt = 0 := rfl
    have htwenty : (20 : Int32).toInt = 20 := rfl
    rw [hzero] at hpos
    rw [htwenty] at hle
    rw [Int32.toNatClampNeg, Set.mem_Icc]
    omega

end ThreadPoll

namespace World

variable {env : Environment} {cur l : LoopId} {n : ℕ} {r : Ref} {batch : List Ref} {w w' : World}
  {stage stage' : Stage} {input : Input} {msg : Bytes}

/-! ## Only accepting moves on -/

/-- The next loop to be handed out is the same. -/
def KeepsTurn (w w' : World) : Prop :=
  w'.lastEventLoopNo = w.lastEventLoopNo

/-- Removing a timer keeps the turn. -/
lemma keepsTurn_removeTimer (timerID : Int64) : KeepsTurn w (w.removeTimer cur l timerID) := by
  unfold removeTimer
  split <;> rfl

lemma keepsTurn_onDisconnected (id : Int32) : KeepsTurn w (w.onDisconnected id) := by
  unfold onDisconnected
  split <;> rfl

/-- A close keeps the turn. -/
lemma keepsTurn_onClose (cur : LoopId) (r : Ref) (w : World) : KeepsTurn w (w.onClose cur r) :=
  (keepsTurn_onDisconnected _).trans (keepsTurn_removeTimer _)

/-- A send keeps the turn, whether it is queued, flushed, or closes the connection. -/
lemma keepsTurn_send (cur : LoopId) (r : Ref) (buf : Bytes) (w : World) :
    KeepsTurn w (w.send env cur r buf) := by
  unfold send
  split
  · unfold sendInternal
    dsimp only
    split
    · exact keepsTurn_onClose _ _ _
    · rfl
  · rfl

/-- A message keeps the turn. -/
lemma keepsTurn_sendMsg (cur : LoopId) (r : Ref) (msg : Bytes) (w : World) :
    KeepsTurn w (w.sendMsg env cur r msg) :=
  keepsTurn_send cur r msg (w.log (.sent r msg))

lemma keepsTurn_sendAll {includeSelf : Bool} {id : Int32} {status : SessionStatus} {deskID : Int64}
    (h : w.sendAll env cur msg includeSelf id status deskID = .ok w') : KeepsTurn w w' :=
  (sendAll_invariant (I := KeepsTurn w) rfl
    (fun _ _ _ hw₁ _ _ => (keepsTurn_sendMsg _ _ _ _).trans hw₁) h).1

/-- A new reminder keeps the turn. -/
lemma keepsTurn_notifyUserToBeReady (cur : LoopId) (r : Ref) (w : World) :
    KeepsTurn w (w.notifyUserToBeReady env cur r) := by
  unfold notifyUserToBeReady addTimer addTimerInternal
  dsimp only
  split <;> rfl

lemma keepsTurn_resetDesk (h : w.resetDesk env cur r = .ok w') : KeepsTurn w w' := by
  refine (forEachSession_invariant (I := KeepsTurn w) rfl ?_ h).1
  intro t _ w₁ hw₁ _ _
  split
  · exact hw₁
  · exact (keepsTurn_notifyUserToBeReady _ _ _).trans hw₁

/-- A reminder keeps the turn. -/
lemma keepsTurn_reminderCallback (timerID : Int64) :
    KeepsTurn w (w.reminderCallback env cur r timerID) := by
  unfold reminderCallback
  dsimp only
  split
  · exact keepsTurn_sendMsg cur r reminderMsg (w.log (.reminder r timerID))
  · exact keepsTurn_removeTimer (w := w.log (.reminder r timerID)) timerID

/-- A deal keeps the turn. -/
lemma keepsTurn_checkHandup (h : w.checkHandup env cur = .ok w') : KeepsTurn w w' := by
  unfold checkHandup at h
  split at h
  · obtain rfl : w = w' := Except.ok.inj h
    rfl
  · refine (forEachSession_invariant (w := (w.generateCards env).2.2) (I := KeepsTurn w) rfl ?_ h).1
    intro t _ w₁ hw₁ _ _
    split
    · exact (keepsTurn_sendMsg _ _ _ _).trans hw₁
    · exact hw₁

/-- The handling of a package keeps the turn. -/
lemma keepsTurn_processPackage {package : Bytes} (hanswer : package ≠ answerCmd)
    (h : w.processPackage env cur r package = .ok w') : KeepsTurn w w' := by
  unfold processPackage at h
  split at h
  · obtain rfl : w = w' := Except.ok.inj h
    rfl
  · split at h
    · exact keepsTurn_sendAll h
    · rw [processCmd, if_neg hanswer] at h
      split at h
      · obtain rfl := Except.ok.inj h
        rfl
      · obtain rfl := Except.ok.inj h
        exact keepsTurn_sendMsg _ _ _ _

/-- One round of `onRead` keeps the turn. -/
lemma keepsTurn_decode (h : w.decode env n r batch = some (stage', w')) : KeepsTurn w w' := by
  rcases decode_cases h with ⟨-, rfl⟩ | ⟨-, rfl⟩ | ⟨recvBuf, -, -, rfl⟩ |
    ⟨recvBuf, package, hanswer, -, hok⟩
  · rfl
  · exact keepsTurn_onClose _ _ _
  · exact keepsTurn_sendMsg (.worker n) r rightAnswer (w.setRecvBuf r recvBuf)
  · exact keepsTurn_processPackage (w := w.setRecvBuf r recvBuf) hanswer hok

/-- A worker thread does not hand out loops. -/
lemma keepsTurn_work (hidle : ∀ l, (w.loop l).timers.isCheckTimers = false)
    (h : w.work env n input stage = some (stage', w')) : KeepsTurn w w' := by
  cases stage with
  | timers =>
    obtain ⟨-, rfl⟩ := Prod.mk.inj (Option.some.inj h)
    exact (checkAndDoTimers_rule (I := KeepsTurn w) _ (hidle _) rfl (fun _ _ hw₁ => hw₁)
      fun _ _ timerID _ hw₁ => (keepsTurn_reminderCallback timerID).trans hw₁).2
  | poll =>
    rw [work] at h
    split at h
    · obtain ⟨-, rfl⟩ := Prod.mk.inj (Option.some.inj h)
      exact List.foldlRecOn (motive := KeepsTurn w) _ _ rfl fun w₁ hw₁ event _ => hw₁
    · cases h
  | dispatch batch =>
    cases batch with
    | nil =>
      obtain ⟨-, rfl⟩ := Prod.mk.inj (Option.some.inj h)
      rfl
    | cons r batch =>
      have hreceive : w.receive n r batch input.recv = (stage', w') := Option.some.inj h
      unfold receive at hreceive
      split at hreceive
      · obtain ⟨-, rfl⟩ := Prod.mk.inj hreceive
        rfl
      · split at hreceive
        · obtain ⟨-, rfl⟩ := Prod.mk.inj hreceive
          exact keepsTurn_onClose _ _ _
        · obtain ⟨-, rfl⟩ := Prod.mk.inj hreceive
          rfl
        · obtain ⟨-, rfl⟩ := Prod.mk.inj hreceive
          rfl
  | reading r batch => exact keepsTurn_decode h
  | answered r batch =>
    obtain ⟨w₁, hok, heq⟩ := TransitionSystem.exists_ok_of_toOption_map h
    obtain ⟨-, rfl⟩ := Prod.mk.inj heq
    exact keepsTurn_sendAll hok
  | notified r batch =>
    obtain ⟨w₁, hok, heq⟩ := TransitionSystem.exists_ok_of_toOption_map h
    obtain ⟨-, rfl⟩ := Prod.mk.inj heq
    exact keepsTurn_resetDesk hok
  | closing r eof batch =>
    cases eof <;> obtain ⟨-, rfl⟩ := Prod.mk.inj (Option.some.inj h) <;> rfl
  | writing r batch =>
    obtain ⟨-, rfl⟩ := Prod.mk.inj (Option.some.inj h)
    rfl
  | tasks remaining =>
    cases remaining with
    | nil =>
      obtain ⟨-, rfl⟩ := Prod.mk.inj (Option.some.inj h)
      rfl
    | cons task rest =>
      obtain ⟨-, rfl⟩ := Prod.mk.inj (Option.some.inj h)
      cases task with
      | send r buf => exact keepsTurn_send (.worker n) r buf (w.log (.sendTask r))
      | addTimerInternal spTimer =>
        rw [runTask, addTimerInternal, if_pos rfl]
        rfl
      | removeTimerInternal timerID => exact keepsTurn_removeTimer timerID

/-! ## Accepting -/

/-- A new connection goes to the loop whose turn it is. -/
lemma onConnected_loop {fd : ℕ} {order : List (Int32 × Ref)}
    (h : (w.onAccept fd).onConnected env .base w.nextRef order = .ok w') :
    (w'.connection w.nextRef).loop = .worker w.lastEventLoopNo ∧
      w'.lastEventLoopNo =
        if w.lastEventLoopNo + 1 ≥ w.threadNum then 0 else w.lastEventLoopNo + 1 := by
  set cleared := (w.onAccept fd).clearPending with hcleared
  set constructed := cleared.constructSession env w.nextRef with hconstructed
  set welcomed := constructed.sendWelcomeMsg env .base w.nextRef with hwelcomed
  have hclears : Clears (w.onAccept fd) cleared := clears_clearPending _
  have hwelcome : Touches {w.nextRef} constructed welcomed := touches_sendMsg _ rfl
  have hnotify : Resets {w.nextRef} welcomed (welcomed.notifyUserToBeReady env .base w.nextRef) :=
    resets_notifyUserToBeReady rfl
  obtain ⟨-, sessions, rfl, -⟩ := emplace_cases h
  constructor
  · have hloop := hwelcome.loop w.nextRef
    rw [show constructed.connection = cleared.connection from rfl, hclears.connection,
      onAccept_connection_self] at hloop
    exact (congrArg TCPConnection.loop (congrFun hnotify.connection w.nextRef)).trans hloop
  · have hcleared : KeepsTurn (w.onAccept fd) cleared :=
      List.foldlRecOn (motive := KeepsTurn (w.onAccept fd)) _ _ rfl fun w₁ hw₁ r _ => hw₁
    have hwelcomed : KeepsTurn constructed welcomed := keepsTurn_sendMsg _ _ _ _
    exact (keepsTurn_notifyUserToBeReady _ _ welcomed).trans (hwelcomed.trans hcleared)

/-- How many connections a worker thread has been given. -/
def load (w : World) (n : ℕ) : ℕ :=
  (List.range w.nextRef).countP fun r => (w.connection r).loop = .worker n

end World

/-! ## All interleavings -/

namespace Process

open World

variable {env : Environment} {s s' : Process} {step : Step}

/-- The connections have been given to the worker threads in turn. -/
structure InTurn (threadNum : ℕ) (s : Process) : Prop where
  threadNum_eq : s.world.threadNum = threadNum
  lastEventLoopNo : s.world.lastEventLoopNo = s.world.nextRef % threadNum
  loop : ∀ r < s.world.nextRef, (s.world.connection r).loop = .worker (r % threadNum)

/-- Counting on with a counter that starts again at `n`. -/
lemma mod_succ_eq {n k : ℕ} (hn : 0 < n) :
    (if k % n + 1 ≥ n then 0 else k % n + 1) = (k + 1) % n := by
  have hlt := Nat.mod_lt k hn
  have hsucc : (k + 1) % n = (k % n + 1) % n := (Nat.mod_add_mod k n 1).symm
  rw [hsucc]
  split
  · next hge =>
    have heq : k % n + 1 = n := by omega
    rw [heq, Nat.mod_self]
  · next hge => exact (Nat.mod_eq_of_lt (not_le.mp hge)).symm

variable {threadNum : ℕ}

/-- What happens on behalf of sessions leaves the connections where they are. -/
lemma InTurn.affects (h : InTurn threadNum s) {A : Set Ref}
    (haffects : Affects A s.world s'.world) (hkeeps : KeepsTurn s.world s'.world) :
    InTurn threadNum s' where
  threadNum_eq := haffects.threadNum.trans h.threadNum_eq
  lastEventLoopNo := by
    rw [hkeeps, haffects.nextRef]
    exact h.lastEventLoopNo
  loop r hr := by
    rw [haffects.nextRef] at hr
    rw [haffects.loop]
    exact h.loop r hr

/-- Every step hands out the loops in turn: a connect takes the next one, and nothing else takes
any. -/
lemma InTurn.next (h : InTurn threadNum s) (hpos : 0 < threadNum) (hsound : Sound s)
    (hstep : s.next env step = some s') : InTurn threadNum s' := by
  rcases next_cases hstep with ⟨fd, order, w, rfl, hok, rfl⟩ | ⟨w, rfl, hok, rfl⟩ |
    ⟨n, input, stage, w, rfl, -, hwork, rfl⟩
  · have hconnects := connect_cases hsound.wellFormed hok
    obtain ⟨hnew, hturn⟩ := onConnected_loop hok
    rw [h.lastEventLoopNo] at hnew hturn
    refine ⟨hconnects.threadNum.trans h.threadNum_eq, ?_, fun r hr => ?_⟩
    · rw [hturn, hconnects.nextRef, h.threadNum_eq, mod_succ_eq hpos]
    · by_cases heq : r = s.world.nextRef
      · rw [heq, hnew]
      · rw [hconnects.loop r heq]
        rw [hconnects.nextRef] at hr
        exact h.loop r ((Nat.lt_succ_iff_lt_or_eq.mp hr).resolve_right heq)
  · exact h.affects (affects_checkHandup hok) (keepsTurn_checkHandup hok)
  · have hturn := turn_work hsound.idle
      (fun task htask t ht => (hsound.remaining n task htask t ht).2) hwork
    exact h.affects hturn.affects (keepsTurn_work hsound.idle hwork)

/-- What a worker thread has been given is a share of the connections. -/
lemma InTurn.load_eq (h : InTurn threadNum s) {n : ℕ} (hn : n < threadNum) :
    s.world.load n = s.world.nextRef / threadNum +
      if n < s.world.nextRef % threadNum then 1 else 0 := by
  have hcount : s.world.load n = s.world.nextRef.count (· ≡ n [MOD threadNum]) := by
    rw [load, Nat.count]
    refine List.countP_congr fun r hr => ?_
    rw [decide_eq_true_eq, decide_eq_true_eq, h.loop r (List.mem_range.mp hr), Nat.ModEq,
      Nat.mod_eq_of_lt hn, LoopId.worker.injEq]
  rw [hcount, Nat.count_modEq_card _ (Nat.zero_lt_of_lt hn), Nat.mod_eq_of_lt hn]

/-- The process that `Calc24Server::init` starts with the number of threads that it is given. -/
def configured (env : Environment) (threadNum : Int32) : TransitionSystem Process Step where
  init s := s = start (ThreadPoll.start threadNum)
  step := (interleaved env).step

/-- The loops are handed out in turn in every reachable state. -/
lemma inTurn_reachable {threadNum : Int32} (h : (configured env threadNum).Reachable s) :
    InTurn (ThreadPoll.start threadNum) s := by
  have hpos : 0 < ThreadPoll.start threadNum := (ThreadPoll.start_mem_Icc threadNum).1
  have hboth : Sound s ∧ InTurn (ThreadPoll.start threadNum) s := by
    refine h.invariant (P := fun s => Sound s ∧ InTurn (ThreadPoll.start threadNum) s) ?_
      fun s step s' h hstep => ⟨h.1.next hstep, h.2.next hpos h.1 hstep⟩
    rintro s rfl
    exact ⟨sound_start _, rfl, (Nat.zero_mod _).symm, fun r hr => absurd hr (Nat.not_lt_zero r)⟩
  exact hboth.2

/-- **The connections are shared out evenly.**  Whatever number of threads the server is started
with, in every interleaving the connections go to its worker threads in turn, so that none of them
has been given more than one connection more than another one, and the next loop to be handed out
is one of those that have been started. -/
theorem balanced {threadNum : Int32} (h : (configured env threadNum).Reachable s) :
    s.world.threadNum ∈ Set.Icc 1 20 ∧ s.world.lastEventLoopNo < s.world.threadNum ∧
    (∀ r < s.world.nextRef, (s.world.connection r).loop = .worker (r % s.world.threadNum)) ∧
    ∀ m < s.world.threadNum, ∀ n < s.world.threadNum, s.world.load m ≤ s.world.load n + 1 := by
  have hturn := inTurn_reachable h
  have hbounds := ThreadPoll.start_mem_Icc threadNum
  rw [hturn.threadNum_eq, hturn.lastEventLoopNo]
  refine ⟨hbounds, Nat.mod_lt _ hbounds.1, hturn.loop, fun m hm n hn => ?_⟩
  rw [hturn.load_eq hm, hturn.load_eq hn]
  split <;> split <;> omega

/-- Asked for no threads at all, the server starts five, and three clients go to three of them. -/
theorem balanced_three :
    (runSteps calm (start (ThreadPoll.start 0)) [.connect 5 [], .connect 6 [], .connect 7 []]).world.load
      0 ≤ 1 := by
  have hreach : (configured calm 0).Reachable
      (runSteps calm (start (ThreadPoll.start 0)) [.connect 5 [], .connect 6 [], .connect 7 []]) :=
    TransitionSystem.ReachableUnder.runAll (C := fun _ _ => True) (fun _ _ _ => id) (.init rfl)
      (by decide)
  exact (balanced hreach).2.2.2 0 (by decide) 4 (by decide)

end Process

end Calc24
