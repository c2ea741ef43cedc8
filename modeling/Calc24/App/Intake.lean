import Calc24.App.Chronicle
import Calc24.App.Closing

/-!
# What comes in and what is taken

Every chunk that a thread receives from a client is appended to the client's receive buffer, and
`Calc24Session::onRead` takes packages off it.  This file keeps account of both beside the
chronicle: the bytes that each session has received, and the packages that have been taken.

In every interleaving of the steps of `Process` the packages of a session, followed by what is in
its buffer, are the lines of its stream, however it has been cut into chunks; between two turns
there is no line left in the buffer; and what the chronicle says has been said are the packages that
are no commands (`relayed`).  Together with `heard_eq_said` this follows a message from the socket
of its author to those that it is sent to.
-/

namespace Calc24

open World

/-- The session whose receive buffer may still hold lines. -/
def Stage.holdsInput : Stage → Option Ref
  | .reading r _ => some r
  | .answered r _ => some r
  | .notified r _ => some r
  | .closing r true _ => some r
  | _ => none

namespace World

variable {env : Environment} {cur : LoopId} {n : ℕ} {r t : Ref} {batch : List Ref}
  {w w₁ w' w'' : World} {stage stage' : Stage} {input : Input} {msg buf : Bytes}

/-! ## What happens to receive buffers -/

/-- No receive buffer changes. -/
def KeepsInput (w w' : World) : Prop :=
  ∀ t, (w'.connection t).recvBuf = (w.connection t).recvBuf

lemma KeepsInput.trans (h : KeepsInput w w') (h' : KeepsInput w' w'') : KeepsInput w w'' :=
  fun t => (h' t).trans (h t)

lemma KeepsInput.of_eq (h : w'.connection = w.connection) : KeepsInput w w' := by
  intro t
  rw [h]

/-- A change of one connection that leaves its receive buffer alone. -/
lemma keepsInput_setEndpoint {p : Endpoint Dispatcher}
    (hp : p.connection.recvBuf = (w.connection r).recvBuf) : KeepsInput w (w.setEndpoint r p) := by
  intro t
  by_cases ht : t = r
  · subst ht
    simpa [setEndpoint] using hp
  · simp [setEndpoint, modifyLoop, ht]

/-- A close leaves the receive buffer as it is. -/
lemma keepsInput_onClose : KeepsInput w (w.onClose cur r) := by
  intro t
  rw [onClose_connection]
  by_cases ht : t = r
  · subst ht
    simp [Endpoint.onClose, Endpoint.unregisterAllEvent, endpoint]
  · simp [ht]

/-- A send changes send buffers only. -/
lemma keepsInput_send : KeepsInput w (w.send env cur r buf) := by
  have hflush : KeepsInput w (w.setEndpoint r ((w.endpoint r).sendInternal (.connection r)
      (env.send w.flushes) buf).2) :=
    keepsInput_setEndpoint (Endpoint.sendInternal_same _ _ _ (w.endpoint r)).2
  unfold send
  split
  · unfold sendInternal
    dsimp only
    split
    · exact hflush.trans keepsInput_onClose
    · exact hflush
  · exact KeepsInput.of_eq rfl

/-- A message changes no receive buffer. -/
lemma keepsInput_sendMsg : KeepsInput w (w.sendMsg env cur r msg) :=
  keepsInput_send (w := w.log (.sent r msg))

lemma keepsInput_sendAll {includeSelf : Bool} {id : Int32} {status : SessionStatus} {deskID : Int64}
    (h : w.sendAll env cur msg includeSelf id status deskID = .ok w') : KeepsInput w w' :=
  (sendAll_invariant (I := KeepsInput w) (KeepsInput.of_eq rfl)
    (fun _ _ _ hw₁ _ _ => hw₁.trans keepsInput_sendMsg) h).1

/-- The handling of a package changes no receive buffer; the package has been taken off before. -/
lemma keepsInput_processPackage {package : Bytes} (hanswer : package ≠ answerCmd)
    (h : w.processPackage env cur r package = .ok w') : KeepsInput w w' := by
  unfold processPackage at h
  split at h
  · obtain rfl : w = w' := Except.ok.inj h
    exact KeepsInput.of_eq rfl
  · split at h
    · exact keepsInput_sendAll h
    · rw [processCmd, if_neg hanswer] at h
      split at h
      · obtain rfl := Except.ok.inj h
        exact KeepsInput.of_eq rfl
      · obtain rfl := Except.ok.inj h
        exact keepsInput_sendMsg

/-- The receive buffer of the connection is the new one. -/
lemma setRecvBuf_recvBuf (r : Ref) (recvBuf : ByteBuffer) (w : World) :
    ((w.setRecvBuf r recvBuf).connection r).recvBuf = recvBuf := by
  simp [setRecvBuf, setEndpoint, Endpoint.setRecvBuf]

/-- The other connections are as before. -/
lemma setRecvBuf_connection (ht : t ≠ r) (recvBuf : ByteBuffer) (w : World) :
    (w.setRecvBuf r recvBuf).connection t = w.connection t := by
  simp [setRecvBuf, setEndpoint, ht]

/-- A reminder changes no receive buffer. -/
lemma keepsInput_reminderCallback (timerID : Int64) :
    KeepsInput w (w.reminderCallback env cur r timerID) := by
  unfold reminderCallback
  dsimp only
  split
  · exact keepsInput_sendMsg (w := w.log (.reminder r timerID))
  · refine KeepsInput.of_eq ?_
    unfold removeTimer
    split <;> rfl

/-- A deal changes no receive buffer. -/
lemma keepsInput_checkHandup (h : w.checkHandup env cur = .ok w') : KeepsInput w w' := by
  unfold checkHandup at h
  split at h
  · obtain rfl : w = w' := Except.ok.inj h
    exact KeepsInput.of_eq rfl
  · refine (forEachSession_invariant (w := (w.generateCards env).2.2) (I := KeepsInput w)
      (KeepsInput.of_eq rfl) ?_ h).1
    intro t _ w₁ hw₁ _ _
    split
    · exact (hw₁.trans keepsInput_sendMsg).trans (KeepsInput.of_eq rfl)
    · exact hw₁

/-- A new connection has an empty receive buffer, and no other one changes. -/
lemma recvBuf_onConnected {fd : ℕ} {order : List (Int32 × Ref)}
    (h : (w.onAccept fd).onConnected env .base w.nextRef order = .ok w') (t : Ref) :
    (w'.connection t).recvBuf = if t = w.nextRef then {} else (w.connection t).recvBuf := by
  set cleared := (w.onAccept fd).clearPending with hcleared
  set constructed := cleared.constructSession env w.nextRef with hconstructed
  set welcomed := constructed.sendWelcomeMsg env .base w.nextRef with hwelcomed
  have hclears : Clears (w.onAccept fd) cleared := clears_clearPending _
  have hwelcome : KeepsInput constructed welcomed := keepsInput_sendMsg
  have hnotify : Resets {w.nextRef} welcomed (welcomed.notifyUserToBeReady env .base w.nextRef) :=
    resets_notifyUserToBeReady rfl
  obtain ⟨-, sessions, rfl, -⟩ := emplace_cases h
  have hsame : ((welcomed.notifyUserToBeReady env .base w.nextRef).connection t).recvBuf =
      ((w.onAccept fd).connection t).recvBuf := by
    rw [hnotify.connection, hwelcome t, ← hclears.connection]
    rfl
  refine hsame.trans ?_
  split
  · next heq => rw [heq, onAccept_connection_self]
  · next hne => rw [onAccept_connection fd hne]

/-! ## The steps of a thread -/

/-- What a step of a worker thread does to the receive buffers. -/
inductive Takes (input : Input) (w : World) : Stage → Stage → World → Prop
  /-- A chunk is received. -/
  | chunk (r : Ref) (batch : List Ref) (buf : Bytes) (henabled : (w.connection r).enableRead = true)
      (hrecv : input.recv = .data buf) :
      Takes input w (.dispatch (r :: batch)) (.reading r batch)
        (w.setRecvBuf r ((w.connection r).recvBuf.append buf))
  /-- A package is taken. -/
  | package (r : Ref) (batch : List Ref) {recvBuf : ByteBuffer} {package : Bytes}
      (hnext : w.nextPackage r = (.success, recvBuf, package)) {stage' : Stage} {w' : World}
      (hstage : stage'.holdsInput = some r) (hw : KeepsInput (w.setRecvBuf r recvBuf) w') :
      Takes input w (.reading r batch) stage' w'
  /-- There is no package to take. -/
  | nothing (r : Ref) (batch : List Ref) (hnone : LF ∉ (w.connection r).recvBuf.internalBuf)
      {stage' : Stage} {w' : World} (hw : KeepsInput w w') :
      Takes input w (.reading r batch) stage' w'
  /-- The step does something else. -/
  | other {stage stage' : Stage} {w' : World} (hreader : stage.reader = none)
      (hholds : ∀ r, stage.holdsInput = some r → stage'.holdsInput = some r)
      (hrecv : ∀ r batch buf, stage = .dispatch (r :: batch) → (w.connection r).enableRead = true →
        input.recv ≠ .data buf)
      (hw : KeepsInput w w') : Takes input w stage stage' w'

/-- There is no package where there is no line feed. -/
lemma nextPackage_cases (w : World) (r : Ref) :
    (LF ∉ (w.connection r).recvBuf.internalBuf ∧ (w.nextPackage r).1 ≠ .success) ∨
    ∃ body rest, LF ∉ body ∧ (w.connection r).recvBuf.internalBuf = body ++ LF :: rest ∧
      w.nextPackage r = (.success, { internalBuf := rest }, body ++ [LF]) := by
  rcases Framing.not_mem_or_exists_first LF (w.connection r).recvBuf.internalBuf with
    hno | ⟨body, rest, hbody, hbuf⟩
  · refine Or.inl ⟨hno, ?_⟩
    rw [nextPackage, Calc24Session.decodePackage_of_not_mem _ hno]
    dsimp only
    split <;> simp
  · refine Or.inr ⟨body, rest, hbody, hbuf, ?_⟩
    rw [nextPackage, Calc24Session.decodePackage_frame _ hbuf hbody]

/-- Without a line feed in the buffer there is no package to be taken. -/
lemma nextPackage_ne_success (h : LF ∉ (w.connection r).recvBuf.internalBuf) :
    (w.nextPackage r).1 ≠ .success := by
  rcases nextPackage_cases w r with ⟨-, hfail⟩ | ⟨body, rest, -, hbuf, -⟩
  · exact hfail
  · rw [hbuf] at h
    simp at h

/-- A round of `Calc24Session::onRead`. -/
lemma takes_decode (h : w.decode env n r batch = some (stage', w')) :
    Takes input w (.reading r batch) stage' w' := by
  rcases nextPackage_cases w r with ⟨hnone, hfail⟩ | ⟨body, rest, -, -, hnext⟩
  · refine .nothing r batch hnone ?_
    unfold decode at h
    split at h
    · obtain ⟨-, rfl⟩ := Prod.mk.inj (Option.some.inj h)
      exact KeepsInput.of_eq rfl
    · obtain ⟨-, rfl⟩ := Prod.mk.inj (Option.some.inj h)
      exact keepsInput_onClose
    · next hsuccess => exact absurd (congrArg Prod.fst hsuccess) hfail
  · rw [decode, hnext] at h
    dsimp only at h
    split at h
    · obtain ⟨rfl, rfl⟩ := Prod.mk.inj (Option.some.inj h)
      exact .package r batch hnext rfl keepsInput_sendMsg
    · next hanswer =>
      obtain ⟨w₁, hok, heq⟩ := TransitionSystem.exists_ok_of_toOption_map h
      obtain ⟨rfl, rfl⟩ := Prod.mk.inj heq
      exact .package r batch hnext rfl (keepsInput_processPackage hanswer hok)

/-- A step that takes nothing. -/
lemma Takes.quiet (hreader : stage.reader = none) (hholds : stage.holdsInput = none)
    (hdispatch : ∀ r batch, stage ≠ .dispatch (r :: batch)) (hw : KeepsInput w w') :
    Takes input w stage stage' w' :=
  .other hreader (fun r hr => by rw [hholds] at hr; cases hr)
    (fun r batch _ heq => absurd heq (hdispatch r batch)) hw

/-- What a step of a worker thread takes. -/
lemma takes_work (hidle : ∀ l, (w.loop l).timers.isCheckTimers = false)
    (h : w.work env n input stage = some (stage', w')) : Takes input w stage stage' w' := by
  cases stage with
  | timers =>
    obtain ⟨-, rfl⟩ := Prod.mk.inj (Option.some.inj h)
    refine .quiet rfl rfl (by simp) ?_
    exact (checkAndDoTimers_rule (I := KeepsInput w) _ (hidle _) (KeepsInput.of_eq rfl)
      (fun _ _ hw₁ => hw₁.trans (KeepsInput.of_eq rfl))
      fun _ _ timerID _ hw₁ => hw₁.trans (keepsInput_reminderCallback timerID)).2
  | poll =>
    rw [work] at h
    split at h
    · obtain ⟨-, rfl⟩ := Prod.mk.inj (Option.some.inj h)
      refine .quiet rfl rfl (by simp) ?_
      exact List.foldlRecOn (motive := KeepsInput w) _ _ (KeepsInput.of_eq rfl)
        fun w₁ hw₁ event _ => hw₁.trans (keepsInput_setEndpoint rfl)
    · cases h
  | dispatch batch =>
    cases batch with
    | nil =>
      obtain ⟨-, rfl⟩ := Prod.mk.inj (Option.some.inj h)
      exact .quiet rfl rfl (by simp) (KeepsInput.of_eq rfl)
    | cons r batch =>
      have hreceive : w.receive n r batch input.recv = (stage', w') := Option.some.inj h
      unfold receive at hreceive
      split at hreceive
      · next hdisabled =>
        obtain ⟨rfl, rfl⟩ := Prod.mk.inj hreceive
        refine .other rfl (by simp [Stage.holdsInput]) ?_ (KeepsInput.of_eq rfl)
        rintro t rest buf heq henabled
        obtain ⟨rfl, -⟩ := List.cons.inj (Stage.dispatch.inj heq)
        rw [henabled] at hdisabled
        cases hdisabled
      · next henabled =>
        split at hreceive
        · next hrecv =>
          obtain ⟨rfl, rfl⟩ := Prod.mk.inj hreceive
          refine .other rfl (by simp [Stage.holdsInput]) ?_ keepsInput_onClose
          rintro t rest buf - - hdata
          rw [hdata] at hrecv
          cases hrecv
        · next hrecv =>
          obtain ⟨rfl, rfl⟩ := Prod.mk.inj hreceive
          refine .other rfl (by simp [Stage.holdsInput]) ?_ (KeepsInput.of_eq rfl)
          rintro t rest buf - - hdata
          rw [hdata] at hrecv
          cases hrecv
        · next buf hrecv =>
          obtain ⟨rfl, rfl⟩ := Prod.mk.inj hreceive
          exact .chunk r batch buf (by simpa using henabled) hrecv
  | reading r batch => exact takes_decode h
  | answered r batch =>
    obtain ⟨w₁, hok, heq⟩ := TransitionSystem.exists_ok_of_toOption_map h
    obtain ⟨rfl, rfl⟩ := Prod.mk.inj heq
    exact .other rfl (fun t ht => ht) (by simp) (keepsInput_sendAll hok)
  | notified r batch =>
    obtain ⟨w₁, hok, heq⟩ := TransitionSystem.exists_ok_of_toOption_map h
    obtain ⟨rfl, rfl⟩ := Prod.mk.inj heq
    refine .other rfl (fun t ht => ht) (by simp) (KeepsInput.of_eq ?_)
    exact (resetDesk_cases hok).1.connection
  | closing r eof batch =>
    cases eof with
    | true =>
      obtain ⟨rfl, rfl⟩ := Prod.mk.inj (Option.some.inj h)
      exact .other rfl (fun t ht => ht) (by simp) (KeepsInput.of_eq rfl)
    | false =>
      obtain ⟨-, rfl⟩ := Prod.mk.inj (Option.some.inj h)
      exact .quiet rfl rfl (by simp) (KeepsInput.of_eq rfl)
  | writing r batch =>
    obtain ⟨-, rfl⟩ := Prod.mk.inj (Option.some.inj h)
    have hwrite : KeepsInput w (w.setEndpoint r ((w.endpoint r).onWrite (.connection r)
        (env.send w.flushes))) :=
      keepsInput_setEndpoint (Endpoint.onWrite_same _ _ (w.endpoint r)).2
    exact .quiet rfl rfl (by simp) (hwrite.trans (KeepsInput.of_eq rfl))
  | tasks remaining =>
    cases remaining with
    | nil =>
      obtain ⟨-, rfl⟩ := Prod.mk.inj (Option.some.inj h)
      exact .quiet rfl rfl (by simp) (KeepsInput.of_eq rfl)
    | cons task rest =>
      obtain ⟨-, rfl⟩ := Prod.mk.inj (Option.some.inj h)
      refine .quiet rfl rfl (by simp) ?_
      cases task with
      | send r buf => exact keepsInput_send (w := w.log (.sendTask r))
      | addTimerInternal spTimer =>
        rw [runTask, addTimerInternal, if_pos rfl]
        exact KeepsInput.of_eq rfl
      | removeTimerInternal timerID =>
        rw [runTask, removeTimer, if_pos rfl]
        exact KeepsInput.of_eq rfl

end World

/-! ## All interleavings -/

/-- The chunk that a step receives, and from whom. -/
def Process.chunk (s : Process) : Step → Option (Ref × Bytes)
  | .worker n input =>
    match s.stage n, input.recv with
    | .dispatch (r :: _), .data buf =>
      if (s.world.connection r).enableRead then some (r, buf) else none
    | _, _ => none
  | _ => none

/-- The package that a step takes off a receive buffer, and whose it is. -/
def Process.package (s : Process) : Step → Option (Ref × Bytes)
  | .worker n _ => (s.stage n).reader.bind fun r =>
    match s.world.nextPackage r with
    | (.success, _, package) => some (r, package)
    | _ => none
  | _ => none

/-- A round of `onRead` that does not succeed takes no package. -/
lemma Process.package_of_fail {s : Process} {n : ℕ} {input : Input} {r : Ref} {batch : List Ref}
    (hstage : s.stage n = .reading r batch) (h : (s.world.nextPackage r).1 ≠ .success) :
    s.package (.worker n input) = none := by
  rw [package, hstage]
  simp only [Stage.reader, Option.bind_some]
  split
  · next hsuccess => exact absurd (congrArg Prod.fst hsuccess) h
  · rfl

/-- Only a `::recv` on a connection that may be read brings bytes in. -/
lemma Process.chunk_eq_none {s : Process} {n : ℕ} {input : Input} {stage : Stage}
    (hstage : s.stage n = stage)
    (h : ∀ r batch buf, stage = .dispatch (r :: batch) →
      (s.world.connection r).enableRead = true → input.recv ≠ .data buf) :
    s.chunk (.worker n input) = none := by
  rw [chunk, hstage]
  split
  · next r batch buf hrecv =>
    split
    · next henabled => exact absurd hrecv (h r batch buf rfl henabled)
    · rfl
  · rfl

/-- The chronicle with the chunks received and the packages taken so far, the earliest one first. -/
structure Intake where
  chronicle : Chronicle
  chunks : List (Ref × Bytes)
  packages : List (Ref × Bytes)

namespace Intake

variable {env : Environment} {s s' : Intake} {step : Step} {r : Ref}

/-- Where a step leads, with what comes in and what is taken written down. -/
def next (env : Environment) (s : Intake) (step : Step) : Option Intake :=
  (s.chronicle.next env step).map fun chronicle =>
    { chronicle := chronicle
      chunks := s.chunks ++ (s.chronicle.process.chunk step).toList
      packages := s.packages ++ (s.chronicle.process.package step).toList }

/-- All interleavings of the threads. -/
def system (env : Environment) : TransitionSystem Intake Step where
  init s := (Chronicle.system env).init s.chronicle ∧ s.chunks = [] ∧ s.packages = []
  step s step s' := s.next env step = some s'

/-- What belongs to one session. -/
def ofSession (r : Ref) (entries : List (Ref × Bytes)) : List Bytes :=
  (entries.filter fun entry => entry.1 = r).map Prod.snd

/-- The stream that a session has received. -/
def received (s : Intake) (r : Ref) : Bytes :=
  (ofSession r s.chunks).flatten

/-- What is in the receive buffer of a session. -/
def buffered (s : Intake) (r : Ref) : Bytes :=
  (s.chronicle.process.world.connection r).recvBuf.internalBuf

/-- A package that is passed on. -/
def isChat (entry : Ref × Bytes) : Bool :=
  entry.2.head? ≠ some 33

/-- The entries of a session in two lists, one behind the other. -/
lemma ofSession_append (r : Ref) (l l' : List (Ref × Bytes)) :
    ofSession r (l ++ l') = ofSession r l ++ ofSession r l' := by
  rw [ofSession, List.filter_append, List.map_append]
  rfl

/-- Nothing that has been received is lost, packages are lines, lines wait only for threads that
are about to take them, and what is said is what has been taken. -/
structure Lossless (s : Intake) : Prop where
  sound : s.chronicle.process.Sound
  stream : ∀ r, (ofSession r s.packages).flatten ++ s.buffered r = s.received r
  isLine : ∀ entry ∈ s.packages, IsLine entry.2
  lt : ∀ entry ∈ s.chunks ++ s.packages, entry.1 < s.chronicle.process.world.nextRef
  empty : ∀ r ≥ s.chronicle.process.world.nextRef, s.buffered r = []
  waiting : ∀ r, LF ∈ s.buffered r → ∃ n, (s.chronicle.process.stage n).holdsInput = some r
  said : s.chronicle.said.reverse.map (fun u => (u.id, u.package)) =
    (s.packages.filter isChat).map fun entry =>
      ((s.chronicle.process.world.session entry.1).id, entry.2)

/-- Nothing has come in before the threads start. -/
lemma lossless_init (h : (system env).init s) : Lossless s := by
  obtain ⟨⟨⟨threadNum, -, hprocess⟩, hsaid⟩, hchunks, hpackages⟩ := h
  have hbuffered : ∀ r, s.buffered r = [] := by
    intro r
    rw [buffered, hprocess]
    rfl
  refine ⟨hprocess ▸ Process.sound_start threadNum, fun r => ?_, ?_, ?_, fun r _ => hbuffered r,
    fun r hr => ?_, ?_⟩
  · rw [hbuffered, received, hchunks, hpackages]
    rfl
  · simp [hpackages]
  · simp [hchunks, hpackages]
  · rw [hbuffered] at hr
    exact absurd hr List.not_mem_nil
  · rw [hsaid, hpackages]
    rfl

/-- A step in which nothing comes in and nothing is taken. -/
lemma Lossless.quiet (h : Lossless s) (chronicle : Chronicle) (hsound : chronicle.process.Sound)
    (hbuf : ∀ r, (chronicle.process.world.connection r).recvBuf.internalBuf = s.buffered r)
    (hnext : s.chronicle.process.world.nextRef ≤ chronicle.process.world.nextRef)
    (hid : ∀ r < s.chronicle.process.world.nextRef,
      (chronicle.process.world.session r).id = (s.chronicle.process.world.session r).id)
    (hholds : ∀ n r, LF ∈ s.buffered r → (s.chronicle.process.stage n).holdsInput = some r →
      (chronicle.process.stage n).holdsInput = some r)
    (hsaid : chronicle.said = s.chronicle.said) :
    Lossless { s with chronicle := chronicle } := by
  refine ⟨hsound, fun r => ?_, h.isLine, fun entry hentry => (h.lt entry hentry).trans_le hnext,
    fun r hr => (hbuf r).trans (h.empty r (hnext.trans hr)), fun r hr => ?_, ?_⟩
  · rw [buffered, hbuf]
    exact h.stream r
  · rw [buffered, hbuf] at hr
    obtain ⟨n, hn⟩ := h.waiting r hr
    exact ⟨n, hholds n r hr hn⟩
  · rw [hsaid, h.said]
    refine List.map_congr_left fun entry hentry => ?_
    have hlt := h.lt entry (List.mem_append_right _ (List.mem_filter.mp hentry).1)
    rw [hid entry.1 hlt]

/-- Taking a package says something, if the package is a chat message. -/
lemma utterance_of_package {w : World} {recvBuf : ByteBuffer} {c : UInt8} {package : Bytes}
    (h : w.nextPackage r = (.success, recvBuf, c :: package)) :
    (w.utterance r).toList.map (fun u => (u.id, u.package)) =
      if isChat (r, c :: package) then [((w.session r).id, c :: package)] else [] := by
  by_cases hc : c = 33
  · simp [utterance, h, hc, isChat]
  · simp [utterance, h, hc, isChat]

/-- No package is taken, and nothing is said. -/
lemma utterance_of_fail {w : World} (h : (w.nextPackage r).1 ≠ .success) :
    w.utterance r = none := by
  unfold utterance
  split
  · next hsuccess => exact absurd (congrArg Prod.fst hsuccess) h
  · rfl

/-- A chunk comes in. -/
lemma Lossless.chunk (h : Lossless s) {n : ℕ} {batch : List Ref} {buf : Bytes} {process : Process}
    (hsound : process.Sound) (hstage : s.chronicle.process.stage n = .dispatch (r :: batch))
    (hprocess : process =
      { world := s.chronicle.process.world.setRecvBuf r
          ((s.chronicle.process.world.connection r).recvBuf.append buf)
        stage := Function.update s.chronicle.process.stage n (.reading r batch) }) :
    Lossless { s with
      chronicle := { process := process, said := s.chronicle.said }
      chunks := s.chunks ++ [(r, buf)] } := by
  have hlt := (h.sound.held n r (by simp [hstage, Stage.held])).1
  have hself : (process.world.connection r).recvBuf.internalBuf = s.buffered r ++ buf := by
    rw [hprocess, setRecvBuf_recvBuf, ByteBuffer.append_internalBuf, buffered]
  have hother : ∀ t ≠ r, (process.world.connection t).recvBuf.internalBuf = s.buffered t := by
    intro t ht
    rw [hprocess, setRecvBuf_connection ht, buffered]
  have hnext : process.world.nextRef = s.chronicle.process.world.nextRef := by rw [hprocess]; rfl
  refine ⟨hsound, fun t => ?_, h.isLine, fun entry hentry => ?_, fun t ht => ?_, fun t ht => ?_, ?_⟩
  · simp only [buffered, received, ofSession_append, List.flatten_append]
    have hstream := h.stream t
    by_cases heq : t = r
    · subst heq
      rw [hself, ← List.append_assoc, hstream, received]
      simp [ofSession]
    · rw [hother t heq, hstream, received]
      simp [ofSession, Ne.symm heq]
  · rw [hnext]
    simp only [List.mem_append, List.mem_singleton] at hentry
    rcases hentry with (hold | rfl) | hold
    · exact h.lt entry (List.mem_append_left _ hold)
    · exact hlt
    · exact h.lt entry (List.mem_append_right _ hold)
  · rw [hnext] at ht
    rw [buffered, hother t (hlt.trans_le ht).ne']
    exact h.empty t ht
  · by_cases heq : t = r
    · exact ⟨n, by rw [hprocess, heq]; simp [Stage.holdsInput]⟩
    · simp only [buffered, hother t heq] at ht
      obtain ⟨m, hm⟩ := h.waiting t ht
      have hne : m ≠ n := by
        rintro rfl
        rw [hstage] at hm
        cases hm
      exact ⟨m, by rw [hprocess]; simpa [hne] using hm⟩
  · rw [hprocess]
    exact h.said

/-- A package is taken. -/
lemma Lossless.package (h : Lossless s) {n : ℕ} {batch : List Ref} {recvBuf : ByteBuffer}
    {package : Bytes} {process : Process} (said : List Utterance) (hsound : process.Sound)
    (hreading : s.chronicle.process.stage n = .reading r batch)
    (htaken : s.chronicle.process.world.nextPackage r = (.success, recvBuf, package))
    (hstage : ∀ m, (m = n → (process.stage m).holdsInput = some r) ∧
      (m ≠ n → process.stage m = s.chronicle.process.stage m))
    (hw : KeepsInput (s.chronicle.process.world.setRecvBuf r recvBuf) process.world)
    (hnext : process.world.nextRef = s.chronicle.process.world.nextRef)
    (hid : ∀ t, (process.world.session t).id = (s.chronicle.process.world.session t).id)
    (hsaid : said = (s.chronicle.process.world.utterance r).toList ++ s.chronicle.said) :
    Lossless { s with
      chronicle := { process := process, said := said }
      packages := s.packages ++ [(r, package)] } := by
  obtain ⟨-, hfail⟩ | ⟨body, rest, hbody, hbuf, heq⟩ :=
    nextPackage_cases s.chronicle.process.world r
  · exact absurd (congrArg Prod.fst htaken) hfail
  obtain ⟨rfl, rfl⟩ : recvBuf = { internalBuf := rest } ∧ package = body ++ [LF] := by
    rw [heq] at htaken
    simpa [eq_comm] using htaken
  have hlt := (h.sound.held n r (by simp [hreading, Stage.held])).1
  have hself : (process.world.connection r).recvBuf.internalBuf = rest := by
    rw [hw r, setRecvBuf_recvBuf]
  have hother : ∀ t ≠ r, (process.world.connection t).recvBuf.internalBuf = s.buffered t := by
    intro t ht
    rw [hw t, setRecvBuf_connection ht, buffered]
  refine ⟨hsound, fun t => ?_, ?_, fun entry hentry => ?_, fun t ht => ?_, fun t ht => ?_, ?_⟩
  · simp only [buffered, received, ofSession_append, List.flatten_append]
    have hstream := h.stream t
    by_cases heq : t = r
    · subst heq
      rw [buffered, hbuf] at hstream
      rw [hself, ← received, ← hstream]
      simp [ofSession]
    · rw [hother t heq, ← received, ← hstream]
      simp [ofSession, Ne.symm heq]
  · intro entry hentry
    rcases List.mem_append.mp hentry with hold | hnew
    · exact h.isLine entry hold
    · obtain rfl := List.mem_singleton.mp hnew
      exact ⟨body, hbody, rfl⟩
  · rw [hnext]
    simp only [List.mem_append, List.mem_singleton] at hentry
    rcases hentry with hold | hold | rfl
    · exact h.lt entry (List.mem_append_left _ hold)
    · exact h.lt entry (List.mem_append_right _ hold)
    · exact hlt
  · rw [hnext] at ht
    rw [buffered, hother t (hlt.trans_le ht).ne']
    exact h.empty t ht
  · by_cases heq : t = r
    · exact ⟨n, heq ▸ (hstage n).1 rfl⟩
    · simp only [buffered, hother t heq] at ht
      obtain ⟨m, hm⟩ := h.waiting t ht
      have hne : m ≠ n := by
        rintro rfl
        rw [hreading] at hm
        exact heq (Option.some.inj hm).symm
      exact ⟨m, by rw [(hstage m).2 hne]; exact hm⟩
  · obtain ⟨c, tail, hcons⟩ : ∃ c tail, body ++ [LF] = c :: tail := by
      cases body with
      | nil => exact ⟨LF, [], rfl⟩
      | cons c body => exact ⟨c, body ++ [LF], rfl⟩
    rw [hcons] at htaken ⊢
    have hsays := utterance_of_package htaken
    have hone : (s.chronicle.process.world.utterance r).toList.reverse =
        (s.chronicle.process.world.utterance r).toList := by
      cases s.chronicle.process.world.utterance r <;> rfl
    rw [hsaid, List.reverse_append, List.map_append, hone, hsays, h.said, List.filter_append,
      List.map_append]
    congr 1
    · exact List.map_congr_left fun entry _ => by rw [hid]
    · split <;> simp [*]

/-- Every step keeps account of what comes in and what is taken. -/
lemma Lossless.next (h : Lossless s) (hstep : s.next env step = some s') : Lossless s' := by
  obtain ⟨chronicle, hchronicle, rfl⟩ := Option.map_eq_some_iff.mp hstep
  obtain ⟨process, hprocess, rfl⟩ := Option.map_eq_some_iff.mp hchronicle
  have hsound := h.sound.next hprocess
  rcases Process.next_cases hprocess with ⟨fd, order, w, rfl, hok, rfl⟩ | ⟨w, rfl, hok, rfl⟩ |
    ⟨n, input, stage, w, rfl, -, hwork, rfl⟩
  · have hconnects := connect_cases h.sound.wellFormed hok
    have hquiet := h.quiet ⟨_, s.chronicle.said⟩ hsound (fun t => ?_)
      (hconnects.nextRef ▸ Nat.le_succ _) (fun t ht => by rw [hconnects.session t ht.ne])
      (fun _ _ _ => id) rfl
    · simpa [Process.chunk, Process.package, Process.utterance] using hquiet
    · rw [recvBuf_onConnected hok]
      split
      · next heq => exact (h.empty t heq.ge).symm
      · rfl
  · have haffects := Process.affects_checkHandup hok
    have hquiet := h.quiet ⟨_, s.chronicle.said⟩ hsound
      (fun t => congrArg ByteBuffer.internalBuf (keepsInput_checkHandup hok t)) haffects.nextRef.ge
      (fun t _ => haffects.id t) (fun _ _ _ => id) rfl
    simpa [Process.chunk, Process.package, Process.utterance] using hquiet
  · have hturn := turn_work h.sound.idle
      (fun task htask t ht => (h.sound.remaining n task htask t ht).2) hwork
    have htakes := takes_work h.sound.idle hwork
    generalize hbefore : s.chronicle.process.stage n = before at htakes
    cases htakes with
    | chunk r batch buf henabled hrecv =>
      have hchunk := h.chunk hsound hbefore rfl
      simpa [Process.chunk, Process.package, Process.utterance, hbefore, hrecv, henabled,
        Stage.reader] using hchunk
    | @package r batch recvBuf package htaken stage' w' hstage hw =>
      have htakes := h.package ((s.chronicle.process.world.utterance r).toList ++
        s.chronicle.said) hsound hbefore htaken
        (fun m => ⟨fun hm => by simpa [hm] using hstage, fun hm => by simp [hm]⟩) hw
        hturn.affects.nextRef hturn.affects.id rfl
      simpa [Process.chunk, Process.package, Process.utterance, hbefore, htaken,
        Stage.reader] using htakes
    | nothing r batch hnone hw =>
      have hfail := nextPackage_ne_success hnone
      have hquiet := h.quiet ⟨_, s.chronicle.said⟩ hsound
        (fun t => congrArg ByteBuffer.internalBuf (hw t)) hturn.affects.nextRef.ge
        (fun t _ => hturn.affects.id t) (fun m t ht hholds => ?_) rfl
      · simpa [Process.chunk, Process.utterance, hbefore, Stage.reader,
          utterance_of_fail hfail, Process.package_of_fail hbefore hfail] using hquiet
      · have hne : m ≠ n := by
          rintro rfl
          rw [hbefore] at hholds
          obtain rfl := Option.some.inj hholds
          exact hnone ht
        simpa [hne] using hholds
    | other hreader hholds hrecv hw =>
      have hquiet := h.quiet ⟨_, s.chronicle.said⟩ hsound
        (fun t => congrArg ByteBuffer.internalBuf (hw t)) hturn.affects.nextRef.ge
        (fun t _ => hturn.affects.id t) (fun m t _ hholdsBefore => ?_) rfl
      · simpa [Process.utterance, Process.package, hbefore, hreader,
          Process.chunk_eq_none hbefore hrecv] using hquiet
      · by_cases hm : m = n
        · subst hm
          rw [hbefore] at hholdsBefore
          simpa using hholds t hholdsBefore
        · simpa [hm] using hholdsBefore

/-- Nothing is lost in any reachable state. -/
lemma lossless_reachable (h : (system env).Reachable s) : Lossless s :=
  h.invariant (fun _ => lossless_init) fun _ _ _ hs hstep => hs.next hstep

/-- What has been taken, and what is in the buffer, cut the stream into lines. -/
lemma Lossless.frames_received (h : Lossless s) (r : Ref) :
    Framing.frames LF (s.received r) =
        ofSession r s.packages ++ Framing.frames LF (s.buffered r) ∧
      Framing.residue LF (s.received r) = Framing.residue LF (s.buffered r) := by
  have hlines : ∀ package ∈ ofSession r s.packages, IsLine package := by
    intro package hpackage
    obtain ⟨entry, hentry, rfl⟩ := List.mem_map.mp hpackage
    exact h.isLine entry (List.mem_filter.mp hentry).1
  rw [← h.stream r]
  exact Framing.frames_flatten_append hlines (s.buffered r)

/-- **What is said is what has come in.**  In every interleaving of the steps the packages taken off
a session's receive buffer, followed by the lines in the buffer, are the lines of the stream that
the session has received, and the rest of the buffer is the rest of the stream; when no thread is
handling the session, all lines have been taken.  The utterances of the chronicle are the packages
taken that are no commands, in the order in which they were taken, each with the id of its session.
-/
theorem relayed (h : (system env).Reachable s) :
    (∀ r, Framing.frames LF (s.received r) =
        ofSession r s.packages ++ Framing.frames LF (s.buffered r) ∧
      Framing.residue LF (s.received r) = Framing.residue LF (s.buffered r) ∧
      ((∀ n, (s.chronicle.process.stage n).holdsInput ≠ some r) →
        Framing.frames LF (s.received r) = ofSession r s.packages)) ∧
    s.chronicle.said.reverse.map (fun u => (u.id, u.package)) =
      (s.packages.filter isChat).map fun entry =>
        ((s.chronicle.process.world.session entry.1).id, entry.2) := by
  have hlossless := lossless_reachable h
  refine ⟨fun r => ?_, hlossless.said⟩
  have hcut := hlossless.frames_received r
  refine ⟨hcut.1, hcut.2, fun hidle => ?_⟩
  have hnone : LF ∉ s.buffered r := fun hmem => by
    obtain ⟨n, hn⟩ := hlossless.waiting r hmem
    exact hidle n hn
  rw [hcut.1, Framing.frames_of_not_mem hnone, List.append_nil]

/-- A line of the first client comes in two chunks, and the second one has the start of another
line. -/
def inTwo : List Step :=
  [.connect 5 [], Process.goOn 0, Process.pollRead 0 0, Process.recvText 0 "h"] ++
    List.replicate 7 (Process.goOn 0) ++
    [Process.pollRead 0 0, Process.recvText 0 "i\n!re", Process.goOn 0, Process.goOn 0]

/-- The intake after a list of steps. -/
def runSteps (env : Environment) : Intake → List Step → Intake :=
  TransitionSystem.runAll fun s step => s.next env step

/-- The line is what has been taken. -/
theorem relayed_inTwo :
    Framing.frames LF ((runSteps calm ⟨⟨Process.start 1, []⟩, [], []⟩ inTwo).received 0) =
      [ascii "hi\n"] := by
  have hreach : (system calm).Reachable (runSteps calm ⟨⟨Process.start 1, []⟩, [], []⟩ inTwo) :=
    TransitionSystem.ReachableUnder.runAll (C := fun _ _ => True) (fun _ _ _ => id)
      (.init ⟨⟨⟨1, by decide, rfl⟩, rfl⟩, rfl, rfl⟩) (by decide)
  rw [((relayed hreach).1 0).1]
  decide

end Intake

end Calc24
