import Calc24.App.PackageFraming
import Calc24.Lib.TransitionSystem

/-!
# Broken connections

One connection with its session, through any sequence of read events, write events and messages.
A step is a call of `TCPConnection::onRead`, `onWrite` or `sendInternal`; a read event includes what
the session sends to its own client while it works on the packages that have become complete.

A connection is broken in a step in which the stream ends, the kernel reports an error that is not
retryable, or the unfinished package is too long.  `onRead` and `onWrite` do not close the
connection after such an error, in spite of their comments, and `sendInternal` takes the `0` that
`::send` returns for an empty buffer for the end of the stream.  A run closes the connection in
those steps in which it is broken exactly if no read or write event meets such an error, and
nothing empty is sent on an empty send buffer, unless in a step in which the connection is broken
as well (`closes_iff_broken`).
-/

namespace Calc24

/-- An error that the send and receive loops do not expect. -/
def Errno.isFatal : Errno → Bool
  | .other _ => true
  | _ => false

/-- What `::recv` may return: up to `RECV_BUF_SIZE` bytes, `0` or `-1`. -/
def RecvResult.Possible : RecvResult → Prop
  | .data buf => buf ≠ [] ∧ buf.length ≤ RECV_BUF_SIZE
  | _ => True

/-- The bytes that `::recv` returns. -/
def RecvResult.bytes : RecvResult → Bytes
  | .data buf => buf
  | _ => []

/-- The connection is broken: its stream has ended, or there is an error that is not retryable. -/
def RecvResult.isBroken : RecvResult → Bool
  | .data _ => false
  | .eof => true
  | .error e => e.isFatal

/-- What `::send` may return, call after call, while there are `remaining` bytes to send: `0` if
there are none, and otherwise `-1` or the number of bytes taken, at least one. -/
def SendsPossible : List SendResult → ℕ → Prop
  | [], _ => True
  | .sent n :: answers, remaining =>
    if remaining = 0 then n = 0
    else 1 ≤ n ∧ n ≤ remaining ∧ SendsPossible answers (remaining - n)
  | .error _ :: answers, remaining => 0 < remaining ∧ SendsPossible answers remaining

/-- A call of `::send` reports an error that is not retryable before everything is taken. -/
def fails : List SendResult → ℕ → Bool
  | [], _ => false
  | .sent n :: answers, remaining =>
    if n = 0 then false else if remaining ≤ n then false else fails answers (remaining - n)
  | .error .EINTR :: answers, remaining => fails answers remaining
  | .error .EAGAIN :: _, _ => false
  | .error .EWOULDBLOCK :: _, _ => false
  | .error (.other _) :: _, _ => true

/-- With answers the kernel can give, the loop refuses the bytes after such an error, and where
there are none. -/
lemma refuses_iff {answers : List SendResult} {remaining : ℕ}
    (h : SendsPossible answers remaining) :
    refuses answers remaining = true ↔ remaining = 0 ∨ fails answers remaining = true := by
  induction answers generalizing remaining with
  | nil => simp [refuses, fails]
  | cons answer answers ih =>
    cases answer with
    | sent n =>
      rw [SendsPossible] at h
      by_cases hzero : remaining = 0
      · rw [if_pos hzero] at h
        simp [refuses, hzero, h]
      · rw [if_neg hzero] at h
        obtain ⟨hpos, -, hrest⟩ := h
        have hn : n ≠ 0 := by omega
        by_cases hle : remaining ≤ n
        · simp [refuses, fails, hn, hle, hzero]
        · have hleft : remaining - n ≠ 0 := by omega
          have hnext := ih hrest
          simp only [refuses, fails, hn, if_false, hle, hzero, false_or]
          simpa [hleft] using hnext
    | error e =>
      obtain ⟨hpos, hrest⟩ := h
      have hzero : remaining ≠ 0 := by omega
      cases e with
      | EINTR => exact ih hrest
      | EAGAIN => simp [refuses, fails, hzero]
      | EWOULDBLOCK => simp [refuses, fails, hzero]
      | other code => simp [refuses, fails]

/-- Where there is nothing to send, no call fails. -/
lemma fails_of_nothing {answers : List SendResult} (h : SendsPossible answers 0) :
    fails answers 0 = false := by
  cases answers with
  | nil => rfl
  | cons answer answers =>
    cases answer with
    | sent n =>
      rw [SendsPossible, if_pos rfl] at h
      rw [fails, if_pos h]
    | error e => exact absurd h.1 (lt_irrefl 0)

/-- A message for the client, with the kernel's answers while it is sent. -/
structure ClientMessage where
  buf : Bytes
  answers : List SendResult

/-- A connection in one step: `replies` are the messages that the session will send to its own
client for each of the packages to come, and the ghost `broken` records whether the connection has
turned out to be broken in the step. -/
structure Link (δ : Type*) where
  endpoint : Endpoint δ
  replies : List (List ClientMessage)
  broken : Bool

/-- A call that the loop makes. -/
inductive LinkStep
  | enableReadWrite (read write : Bool)
  | onRead (n : RecvResult) (replies : List (List ClientMessage))
  | onWrite (answers : List SendResult)
  | sendInternal (message : ClientMessage)

namespace Link

variable {δ : Type*} (self : δ)

/-- The bytes that are waiting to be sent. -/
def sendBuf (s : Link δ) : ByteBuffer :=
  s.endpoint.connection.sendBuf

/-- The bytes of an unfinished package. -/
def recvBuf (s : Link δ) : ByteBuffer :=
  s.endpoint.connection.recvBuf

/-- `onClose` has run. -/
def closed (s : Link δ) : Bool :=
  s.endpoint.connection.closed

/-- `TCPConnection::onClose`. -/
def onClose (s : Link δ) : Link δ :=
  { s with endpoint := s.endpoint.onClose self }

/-- `TCPConnection::sendInternal`. -/
def sendInternal (message : ClientMessage) (s : Link δ) : Link δ :=
  let broken := s.broken || fails message.answers (s.sendBuf.append message.buf).remaining
  match s.endpoint.sendInternal self message.answers message.buf with
  | (false, p) => { s with endpoint := p, broken := broken }
  | (true, p) => onClose self { s with endpoint := p, broken := broken }

/-- `processPackage`, as far as the own client is concerned. -/
def processPackage (_package : Bytes) (s : Link δ) : Link δ :=
  match s.replies with
  | [] => s
  | messages :: replies =>
    messages.foldl (fun s message => sendInternal self message s) { s with replies := replies }

/-- The read callback: `Calc24Session::onRead` with `forceClose`. -/
def readCallback (recvBuf : ByteBuffer) (s : Link δ) : ByteBuffer × Link δ :=
  match Calc24Session.onRead (processPackage self) recvBuf s with
  | (.failed, recvBuf, s) => (recvBuf, onClose self { s with broken := true })
  | (_, recvBuf, s) => (recvBuf, s)

/-- `TCPConnection::onRead`. -/
def onRead (n : RecvResult) (s : Link δ) : Link δ :=
  let enableRead := s.endpoint.connection.enableRead
  let (recvBuf, s) := TCPConnection.onRead (onClose self) (readCallback self) enableRead n s.recvBuf
    { s with broken := enableRead && n.isBroken }
  { s with endpoint := s.endpoint.setRecvBuf recvBuf }

/-- `TCPConnection::onWrite`. -/
def onWrite (answers : List SendResult) (s : Link δ) : Link δ :=
  { s with
    endpoint := s.endpoint.onWrite self answers
    broken := s.endpoint.connection.enableWrite && fails answers s.sendBuf.remaining }

/-! ## Steps -/

/-- The answers to a sequence of messages are answers that the kernel can give. -/
def MessagesPossible : List ClientMessage → ByteBuffer → Prop
  | [], _ => True
  | message :: messages, sendBuf =>
    SendsPossible message.answers (sendBuf.append message.buf).remaining ∧
      MessagesPossible messages (flush message.answers (sendBuf.append message.buf)).2

/-- The messages that a read event makes the session send: those for the packages that have become
complete. -/
def sentReplies (s : Link δ) (n : RecvResult) (replies : List (List ClientMessage)) : List ClientMessage :=
  (replies.take (Framing.frames LF (s.recvBuf.internalBuf ++ n.bytes)).length).flatten

/-- The kernel can give these answers. -/
def Possible (s : Link δ) : LinkStep → Prop
  | .enableReadWrite _ _ => True
  | .onRead n replies => n.Possible ∧ MessagesPossible (s.sentReplies n replies) s.sendBuf
  | .onWrite answers => SendsPossible answers s.sendBuf.remaining
  | .sendInternal message =>
    SendsPossible message.answers (s.sendBuf.append message.buf).remaining

/-- One call. -/
def next (s : Link δ) : LinkStep → Link δ
  | .enableReadWrite read write =>
    { s with endpoint := s.endpoint.enableReadWrite read write, broken := false }
  | .onRead n replies => onRead self n { s with replies := replies }
  | .onWrite answers => onWrite self answers s
  | .sendInternal message => sendInternal self message { s with broken := false }

/-- The runs of an open connection, until it is closed. -/
def system : TransitionSystem (Link δ) LinkStep where
  init s := s.closed = false ∧ s.broken = false
  step s l s' := s.closed = false ∧ s.Possible l ∧ s' = next self s l

/-- The connection is closed in a step exactly if it is broken in it. -/
def ClosedIffBroken (s : Link δ) : Prop :=
  s.closed = true ↔ s.broken = true

/-- Something empty is sent on an empty send buffer. -/
def sendsNothing : List ClientMessage → ByteBuffer → Bool
  | [], _ => false
  | message :: messages, sendBuf =>
    (sendBuf.append message.buf).remaining == 0 ||
      sendsNothing messages (flush message.answers (sendBuf.append message.buf)).2

/-- One of the messages meets an error that is not retryable. -/
def messagesFail : List ClientMessage → ByteBuffer → Bool
  | [], _ => false
  | message :: messages, sendBuf =>
    fails message.answers (sendBuf.append message.buf).remaining ||
      messagesFail messages (flush message.answers (sendBuf.append message.buf)).2

/-- The step does not meet an error that is ignored, and nothing empty is sent on an empty send
buffer, unless the connection is broken in the step as well. -/
def NothingOverlooked (s : Link δ) : LinkStep → Prop
  | .enableReadWrite _ _ => True
  | .onRead n replies =>
    s.endpoint.connection.enableRead = true →
      match n with
      | .eof => True
      | .error e => e.isFatal = false
      | .data buf =>
        sendsNothing (s.sentReplies (.data buf) replies) s.sendBuf = true →
          messagesFail (s.sentReplies (.data buf) replies) s.sendBuf = true ∨
            MAX_MSG_LENGTH < (Framing.residue LF (s.recvBuf.internalBuf ++ buf)).length
  | .onWrite answers =>
    s.endpoint.connection.enableWrite = true → fails answers s.sendBuf.remaining = false
  | .sendInternal message => (s.sendBuf.append message.buf).remaining ≠ 0

/-! ## What messages do -/

/-- What is left to send after a sequence of messages. -/
def leftToSend : List ClientMessage → ByteBuffer → ByteBuffer
  | [], sendBuf => sendBuf
  | message :: messages, sendBuf =>
    leftToSend messages (flush message.answers (sendBuf.append message.buf)).2

variable {messages messages' : List ClientMessage} {b : ByteBuffer} {s s' s'' : Link δ}

lemma messagesPossible_append :
    MessagesPossible (messages ++ messages') b ↔
      MessagesPossible messages b ∧ MessagesPossible messages' (leftToSend messages b) := by
  induction messages generalizing b with
  | nil => simp [MessagesPossible, leftToSend]
  | cons message messages ih => simp [MessagesPossible, leftToSend, ih, and_assoc]

lemma sendsNothing_append :
    sendsNothing (messages ++ messages') b =
      (sendsNothing messages b || sendsNothing messages' (leftToSend messages b)) := by
  induction messages generalizing b with
  | nil => simp [sendsNothing, leftToSend]
  | cons message messages ih => simp [sendsNothing, leftToSend, ih, Bool.or_assoc]

lemma messagesFail_append :
    messagesFail (messages ++ messages') b =
      (messagesFail messages b || messagesFail messages' (leftToSend messages b)) := by
  induction messages generalizing b with
  | nil => simp [messagesFail, leftToSend]
  | cons message messages ih => simp [messagesFail, leftToSend, ih, Bool.or_assoc]

lemma leftToSend_append :
    leftToSend (messages ++ messages') b = leftToSend messages' (leftToSend messages b) := by
  induction messages generalizing b with
  | nil => rfl
  | cons message messages ih => exact ih

/-- The effect of a sequence of messages: the connection is closed by an empty one on an empty
buffer and by an error, and broken by an error. -/
structure Sent (messages : List ClientMessage) (s s' : Link δ) : Prop where
  sendBuf : s'.sendBuf = leftToSend messages s.sendBuf
  closed : s'.closed = (s.closed || (sendsNothing messages s.sendBuf || messagesFail messages s.sendBuf))
  broken : s'.broken = (s.broken || messagesFail messages s.sendBuf)

lemma Sent.refl (s : Link δ) : Sent [] s s := by
  constructor <;> simp [leftToSend, sendsNothing, messagesFail]

lemma Sent.trans (h : Sent messages s s') (h' : Sent messages' s' s'') :
    Sent (messages ++ messages') s s'' where
  sendBuf := by rw [h'.sendBuf, h.sendBuf, leftToSend_append]
  closed := by
    rw [h'.closed, h.closed, h.sendBuf, sendsNothing_append, messagesFail_append]
    ac_rfl
  broken := by
    rw [h'.broken, h.broken, h.sendBuf, messagesFail_append, Bool.or_assoc]

/-- The send buffer after a message. -/
lemma sendInternal_sendBuf (answers : List SendResult) (buf : Bytes) (p : Endpoint δ) :
    (p.sendInternal self answers buf).2.connection.sendBuf =
      (flush answers (p.connection.sendBuf.append buf)).2 := by
  unfold Endpoint.sendInternal
  split
  · next h => rw [h]; rfl
  · next h =>
    rw [h]
    unfold Endpoint.registerWriteEvent
    split <;> rfl
  · next h => rw [h]; rfl
  · next h => rw [h]; rfl

/-- One message. -/
lemma sent_sendInternal (message : ClientMessage) (s : Link δ)
    (h : SendsPossible message.answers (s.sendBuf.append message.buf).remaining) :
    Sent [message] s (sendInternal self message s) ∧
      (sendInternal self message s).replies = s.replies := by
  have hcloses := s.endpoint.sendInternal_closes_iff_refuses self message.answers message.buf
  have hsendBuf := sendInternal_sendBuf self message.answers message.buf s.endpoint
  have hclosed := s.endpoint.sendInternal_closed self message.answers message.buf
  rw [← ByteBuffer.remaining_append] at hcloses
  rw [show s.endpoint.connection.sendBuf = s.sendBuf from rfl, refuses_iff h] at hcloses
  simp only [sendInternal]
  cases hsend : s.endpoint.sendInternal self message.answers message.buf with
  | mk closes p =>
    rw [hsend] at hcloses hsendBuf hclosed
    cases closes
    · obtain ⟨hsome, hfine⟩ := not_or.mp (fun h => Bool.false_ne_true (hcloses.mpr h))
      refine ⟨⟨hsendBuf, ?_, ?_⟩, rfl⟩
      · have hnone : (sendsNothing [message] s.sendBuf ||
            messagesFail [message] s.sendBuf) = false := by
          simp only [sendsNothing, messagesFail, Bool.or_false, Bool.or_eq_false_iff,
            beq_eq_false_iff_ne]
          exact ⟨hsome, Bool.eq_false_iff.mpr hfine⟩
        rw [hnone, Bool.or_false]
        exact hclosed
      · simp [messagesFail]
    · refine ⟨⟨hsendBuf, ?_, ?_⟩, rfl⟩
      · have hcause : sendsNothing [message] s.sendBuf = true ∨
            messagesFail [message] s.sendBuf = true := by
          simpa [sendsNothing, messagesFail] using hcloses.mp rfl
        rw [← Bool.or_eq_true] at hcause
        simp only [hcause, Bool.or_true]
        rfl
      · simp [messagesFail, onClose]

/-- Several messages. -/
lemma sent_foldl_sendInternal (messages : List ClientMessage) (s : Link δ)
    (h : MessagesPossible messages s.sendBuf) :
    Sent messages s (messages.foldl (fun s message => sendInternal self message s) s) ∧
      (messages.foldl (fun s message => sendInternal self message s) s).replies = s.replies := by
  induction messages generalizing s with
  | nil => exact ⟨Sent.refl s, rfl⟩
  | cons message messages ih =>
    obtain ⟨hfirst, hrest⟩ := h
    obtain ⟨hsent, hreplies⟩ := sent_sendInternal self message s hfirst
    have hbuf := hsent.sendBuf
    simp only [leftToSend] at hbuf
    obtain ⟨hsent', hreplies'⟩ := ih (sendInternal self message s) (hbuf ▸ hrest)
    exact ⟨hsent.trans hsent', hreplies'.trans hreplies⟩

/-- The packages of a read event: their replies are sent one after another. -/
lemma sent_foldl_processPackage (packages : List Bytes) (s : Link δ)
    (h : MessagesPossible (s.replies.take packages.length).flatten s.sendBuf) :
    Sent (s.replies.take packages.length).flatten s
      (packages.foldl (fun s package => processPackage self package s) s) := by
  induction packages generalizing s with
  | nil => exact Sent.refl s
  | cons package packages ih =>
    rw [List.foldl_cons]
    cases hreplies : s.replies with
    | nil =>
      have hsame : processPackage self package s = s := by
        simp [processPackage, hreplies]
      have hnone : (s.replies.take packages.length).flatten = [] := by
        simp [hreplies]
      have hrest := ih s (by rw [hnone]; trivial)
      rw [hnone] at hrest
      rw [hsame]
      exact hrest
    | cons messages replies =>
      rw [hreplies, List.length_cons, List.take_succ_cons, List.flatten_cons,
        messagesPossible_append] at h
      have hfirst : processPackage self package s =
          messages.foldl (fun s message => sendInternal self message s)
            { s with replies := replies } := by
        simp [processPackage, hreplies]
      obtain ⟨hsent, hleft⟩ := sent_foldl_sendInternal self messages { s with replies := replies } h.1
      have hbuf := hsent.sendBuf
      rw [← hfirst] at hsent hleft hbuf
      have hrest := ih (processPackage self package s) (by rw [hleft, hbuf]; exact h.2)
      rw [hleft] at hrest
      rw [List.length_cons, List.take_succ_cons, List.flatten_cons]
      exact Sent.trans (s := s) ⟨hsent.sendBuf, hsent.closed, hsent.broken⟩ hrest

/-! ## One step -/

/-- The read callback closes the connection if the replies do, or if the unfinished package is too
long. -/
lemma readCallback_spec (recvBuf : ByteBuffer) (s : Link δ) (messages : List ClientMessage)
    (hmessages : messages =
      (s.replies.take (Framing.frames LF recvBuf.internalBuf).length).flatten)
    (h : MessagesPossible messages s.sendBuf) :
    ((readCallback self recvBuf s).2.closed = true ↔
      s.closed = true ∨ sendsNothing messages s.sendBuf = true ∨
        messagesFail messages s.sendBuf = true ∨
        MAX_MSG_LENGTH < (Framing.residue LF recvBuf.internalBuf).length) ∧
    ((readCallback self recvBuf s).2.broken = true ↔
      s.broken = true ∨ messagesFail messages s.sendBuf = true ∨
        MAX_MSG_LENGTH < (Framing.residue LF recvBuf.internalBuf).length) := by
  subst hmessages
  have hsent := sent_foldl_processPackage self (Framing.frames LF recvBuf.internalBuf) s h
  have hloop := Calc24Session.onRead_eq (processPackage self) recvBuf s
  have hclosed := hsent.closed
  have hbroken := hsent.broken
  by_cases hlong : (Framing.residue LF recvBuf.internalBuf).length > MAX_MSG_LENGTH
  · rw [if_pos hlong] at hloop
    have hlong' : MAX_MSG_LENGTH < (Framing.residue LF recvBuf.internalBuf).length := hlong
    have hclosed' : (readCallback self recvBuf s).2.closed = true := by
      rw [readCallback, hloop]
      rfl
    have hbroken' : (readCallback self recvBuf s).2.broken = true := by
      rw [readCallback, hloop]
      rfl
    simp only [hclosed', hbroken', hlong', or_true, true_and]
  · rw [if_neg hlong] at hloop
    have hlong' : ¬ MAX_MSG_LENGTH < (Framing.residue LF recvBuf.internalBuf).length := hlong
    rw [readCallback, hloop]
    simp only [hclosed, hbroken, hlong', or_false, Bool.or_eq_true, true_and]

/-- A read event that brings bytes obeys the law exactly if nothing empty is sent for nothing. -/
lemma closedIffBroken_onRead_data (buf : Bytes) (replies : List (List ClientMessage)) (s : Link δ)
    (hs : s.closed = false) (h : MessagesPossible (s.sentReplies (.data buf) replies) s.sendBuf)
    (henabled : s.endpoint.connection.enableRead = true) :
    ClosedIffBroken (onRead self (.data buf) { s with replies := replies }) ↔
      (sendsNothing (s.sentReplies (.data buf) replies) s.sendBuf = true →
        messagesFail (s.sentReplies (.data buf) replies) s.sendBuf = true ∨
          MAX_MSG_LENGTH < (Framing.residue LF (s.recvBuf.internalBuf ++ buf)).length) := by
  set start : Link δ := { s with replies := replies, broken := false } with hstart
  obtain ⟨hclosed, hbroken⟩ := readCallback_spec self (s.recvBuf.append buf) start
    (s.sentReplies (.data buf) replies) rfl h
  have hopen : start.closed = false := hs
  have hcalls : TCPConnection.onRead (onClose self) (readCallback self)
      s.endpoint.connection.enableRead (.data buf) s.recvBuf
      { s with
        replies := replies
        broken := s.endpoint.connection.enableRead && RecvResult.isBroken (.data buf) } =
      readCallback self (s.recvBuf.append buf) start := by
    rw [henabled]
    rfl
  have hlaw : ClosedIffBroken (onRead self (.data buf) { s with replies := replies }) ↔
      ((readCallback self (s.recvBuf.append buf) start).2.closed = true ↔
        (readCallback self (s.recvBuf.append buf) start).2.broken = true) := by
    rw [← hcalls]
    rfl
  have hintact : start.broken = false := rfl
  have hsendBuf : start.sendBuf = s.sendBuf := rfl
  rw [hlaw, hclosed, hbroken, hopen, hintact, hsendBuf, ByteBuffer.append_internalBuf]
  simp only [Bool.false_eq_true, false_or]
  constructor
  · intro hiff hnothing
    exact hiff.mp (Or.inl hnothing)
  · intro hcause
    constructor
    · rintro (hnothing | hrest)
      · exact hcause hnothing
      · exact hrest
    · exact Or.inr

/-- At the end of the stream the connection is broken and closed. -/
lemma closedIffBroken_onRead_eof (replies : List (List ClientMessage)) (s : Link δ)
    (h : MessagesPossible (s.sentReplies .eof replies) s.sendBuf)
    (henabled : s.endpoint.connection.enableRead = true) :
    ClosedIffBroken (onRead self .eof { s with replies := replies }) := by
  set start : Link δ := onClose self { s with replies := replies, broken := true } with hstart
  obtain ⟨hclosed, hbroken⟩ := readCallback_spec self (s.recvBuf.append []) start
    (s.sentReplies .eof replies) rfl h
  have hcalls : TCPConnection.onRead (onClose self) (readCallback self)
      s.endpoint.connection.enableRead .eof s.recvBuf
      { s with
        replies := replies
        broken := s.endpoint.connection.enableRead && RecvResult.isBroken .eof } =
      readCallback self (s.recvBuf.append []) start := by
    rw [henabled]
    rfl
  have hlaw : ClosedIffBroken (onRead self .eof { s with replies := replies }) ↔
      ((readCallback self (s.recvBuf.append []) start).2.closed = true ↔
        (readCallback self (s.recvBuf.append []) start).2.broken = true) := by
    rw [← hcalls]
    rfl
  rw [hlaw, hclosed, hbroken]
  exact iff_of_true (Or.inl rfl) (Or.inl rfl)

/-- After an error, and where reading is not enabled, nothing is done. -/
lemma onRead_of_error (n : RecvResult) (s : Link δ)
    (h : s.endpoint.connection.enableRead = false ∨ ∃ e, n = .error e) :
    (onRead self n s).closed = s.closed ∧
      (onRead self n s).broken = (s.endpoint.connection.enableRead && n.isBroken) := by
  rcases h with hdisabled | ⟨e, rfl⟩
  · simp only [onRead, TCPConnection.onRead, hdisabled]
    exact ⟨rfl, rfl⟩
  · simp only [onRead, TCPConnection.onRead]
    split
    · exact ⟨rfl, rfl⟩
    · exact ⟨rfl, rfl⟩

/-- A write event does not close the connection. -/
lemma onWrite_closed (answers : List SendResult) (s : Link δ) :
    (onWrite self answers s).closed = s.closed := by
  simp only [onWrite, closed, Endpoint.onWrite]
  split
  · rfl
  · split
    · unfold Endpoint.unregisterWriteEvent
      split <;> rfl
    · rfl

/-- A connection that stays open must not be broken. -/
lemma closedIffBroken_of_open (h : s.closed = false) : ClosedIffBroken s ↔ s.broken = false := by
  rw [ClosedIffBroken, h, Bool.eq_false_iff]
  constructor
  · intro hiff hbroken
    exact Bool.false_ne_true (hiff.mpr hbroken)
  · intro hintact
    exact iff_of_false Bool.false_ne_true hintact

/-- A message obeys the law exactly if there is something to send. -/
lemma closedIffBroken_sendInternal (message : ClientMessage) (s : Link δ) (hs : s.closed = false)
    (h : SendsPossible message.answers (s.sendBuf.append message.buf).remaining) :
    ClosedIffBroken (sendInternal self message { s with broken := false }) ↔
      (s.sendBuf.append message.buf).remaining ≠ 0 := by
  obtain ⟨⟨-, hclosed, hbroken⟩, -⟩ := sent_sendInternal self message { s with broken := false } h
  have hopen : Link.closed { s with broken := false } = false := hs
  rw [ClosedIffBroken, hclosed, hbroken, hopen]
  simp only [sendsNothing, messagesFail, Bool.or_false, Bool.false_or, Bool.or_eq_true,
    beq_iff_eq]
  constructor
  · intro hiff hnothing
    have hfails := hiff.mp (Or.inl hnothing)
    rw [hnothing] at h
    rw [show (Link.sendBuf { s with broken := false }).append message.buf =
      s.sendBuf.append message.buf from rfl, hnothing, fails_of_nothing h] at hfails
    cases hfails
  · intro hsome
    exact ⟨fun hcause => hcause.resolve_left hsome, Or.inr⟩

/-- **A step closes the connection exactly if it is broken in the step, if and only if nothing is
overlooked.** -/
theorem closedIffBroken_next_iff {l : LinkStep} (hs : s.closed = false) (h : s.Possible l) :
    ClosedIffBroken (next self s l) ↔ NothingOverlooked s l := by
  cases l with
  | enableReadWrite read write =>
    have hopen : (next self s (.enableReadWrite read write)).closed = false := hs
    exact iff_of_true ((closedIffBroken_of_open hopen).mpr rfl) trivial
  | onRead n replies =>
    by_cases henabled : s.endpoint.connection.enableRead = true
    · cases n with
      | data buf =>
        have hdata := closedIffBroken_onRead_data self buf replies s hs h.2 henabled
        exact hdata.trans ⟨fun hcause _ => hcause, fun hcause => hcause henabled⟩
      | eof =>
        exact iff_of_true (closedIffBroken_onRead_eof self replies s h.2 henabled) fun _ => trivial
      | error e =>
        obtain ⟨hclosed, hbroken⟩ := onRead_of_error self (.error e) { s with replies := replies }
          (Or.inr ⟨e, rfl⟩)
        have hopen : (onRead self (.error e) { s with replies := replies }).closed = false :=
          hclosed.trans hs
        rw [next, closedIffBroken_of_open hopen, hbroken, henabled]
        exact ⟨fun hfine _ => hfine, fun hfine => hfine henabled⟩
    · have hdisabled : s.endpoint.connection.enableRead = false := Bool.eq_false_iff.mpr henabled
      obtain ⟨hclosed, hbroken⟩ := onRead_of_error self n { s with replies := replies }
        (Or.inl hdisabled)
      have hopen : (onRead self n { s with replies := replies }).closed = false :=
        hclosed.trans hs
      rw [next, closedIffBroken_of_open hopen, hbroken, hdisabled]
      exact iff_of_true rfl fun henabled' => absurd henabled' henabled
  | onWrite answers =>
    have hopen : (onWrite self answers s).closed = false := (onWrite_closed self answers s).trans hs
    rw [next, closedIffBroken_of_open hopen]
    exact Bool.and_eq_false_imp
  | sendInternal message => exact closedIffBroken_sendInternal self message s hs h

/-- **A run closes the connection in those steps in which it is broken exactly if nothing is
overlooked.** -/
theorem closes_iff_broken (start : Link δ) {tr : List (LinkStep × Link δ)}
    (hrun : (system self).Run start tr) (hstart : (system self).init start) :
    (∀ q ∈ tr, ClosedIffBroken q.2) ↔
      TransitionSystem.Guarded NothingOverlooked start tr := by
  refine hrun.forall_iff_guarded (I := fun _ => True) (P := ClosedIffBroken)
    (fun _ _ _ _ _ => trivial) ?_ trivial ((closedIffBroken_of_open hstart.1).mpr hstart.2)
  rintro s l s' - - ⟨hs, hpossible, rfl⟩
  exact closedIffBroken_next_iff self hs hpossible

/-- An open connection that has not been used yet. -/
def fresh (fd : ℕ) (l : LoopId) (epoll : Epoll δ) : Link δ where
  endpoint := { connection := { fd := fd, loop := l }, epoll := epoll }
  replies := []
  broken := false

/-- A message is sent in two parts, `recv` has nothing to return, and the client has gone when the
next message is sent. -/
def twoMessages : List LinkStep :=
  [.enableReadWrite true true, .sendInternal ⟨[97, LF], [.sent 1, .error .EAGAIN]⟩,
    .onWrite [.sent 1], .onRead (.error .EAGAIN) [], .sendInternal ⟨[98, LF], [.error (.other 32)]⟩]

/-- The connection is closed with the last message. -/
theorem closes_iff_broken_two_messages :
    ClosedIffBroken (TransitionSystem.runAll (fun s l => some (next () s l))
      (fresh 5 .base Epoll.empty : Link Unit) twoMessages) := by
  have hfirst : SendsPossible [.sent 1, .error .EAGAIN] 2 := by simp [SendsPossible]
  have hwrite : SendsPossible [.sent 1] 1 := by simp [SendsPossible]
  have hlast : SendsPossible [.error (.other 32)] 2 := by simp [SendsPossible]
  have hsome : (2 : ℕ) ≠ 0 := by decide
  have hrun : (system ()).Run (fresh 5 .base Epoll.empty : Link Unit)
      (TransitionSystem.states (fun s l => some (next () s l)) (fresh 5 .base Epoll.empty)
        twoMessages) :=
    .cons ⟨rfl, trivial, rfl⟩ (.cons ⟨rfl, hfirst, rfl⟩ (.cons ⟨rfl, hwrite, rfl⟩
      (.cons ⟨rfl, ⟨trivial, trivial⟩, rfl⟩ (.cons ⟨rfl, hlast, rfl⟩ (.nil _)))))
  have hall := (closes_iff_broken () (fresh 5 .base Epoll.empty) hrun ⟨rfl, rfl⟩).mpr
    ⟨trivial, hsome, fun _ => rfl, fun _ => rfl, hsome, trivial⟩
  exact hall _ (List.getLast_mem (by simp [TransitionSystem.states, twoMessages]))

/-- A `recv` that fails leaves the connection open. -/
theorem exists_broken_and_open :
    ¬ ∀ (start : Link Unit) (tr : List (LinkStep × Link Unit)), (system ()).init start →
      (system ()).Run start tr → ∀ q ∈ tr, ClosedIffBroken q.2 := by
  intro h
  have hrun : (system ()).Run (fresh 5 .base Epoll.empty : Link Unit)
      (TransitionSystem.states (fun s l => some (next () s l)) (fresh 5 .base Epoll.empty)
        [.enableReadWrite true true, .onRead (.error (.other 104)) []]) :=
    .cons ⟨rfl, trivial, rfl⟩ (.cons ⟨rfl, ⟨trivial, trivial⟩, rfl⟩ (.nil _))
  have hlaw := h _ _ ⟨rfl, rfl⟩ hrun _ (List.mem_cons_of_mem _ List.mem_cons_self)
  exact absurd (hlaw.mpr rfl) (by decide)

end Link

end Calc24
