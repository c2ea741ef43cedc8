import Calc24.App.PackageFraming

/-!
# Receiving in the first version

`Player` (`Calc24v1/Calc24Server/Player.cpp`) receives what its client sends, and the thread of the
client (`TCPServer::clientThreadFunc`) takes the messages off the receive buffer: at most 32 bytes
are read at a time, and after each read `handleClientMsg` is called until it returns an empty
message.  The messages are passed to a function of any other state, which stands for
`sendMsgToOtherClients`.

A message is a line (`handleMessages_eq`).  Both versions of the server therefore get the same
messages out of the same bytes, as long as the second one does not close the connection because a
line is too long (`messages_eq_packages`).
-/

namespace Calc24.V1

/-- The size of the array `clientMsg`. -/
def CLIENT_MSG_SIZE : ℕ := 32

namespace Player

/-! ## The receive buffer -/

/-- `Player::recvData` on the receive buffer: the returned value, and the buffer. -/
def recvData (n : RecvResult) (recvBuf : Bytes) : Bool × Bytes :=
  match n with
  | .eof => (false, recvBuf)
  | .error .EWOULDBLOCK => (true, recvBuf)
  | .error .EAGAIN => (true, recvBuf)
  | .error .EINTR => (true, recvBuf)
  | .error (.other _) => (false, recvBuf)
  | .data clientMsg => (true, recvBuf ++ clientMsg)

/-- The loop of `Player::handleClientMsg` from an index on: the message, which is empty where
there is none, and what is left of the buffer.  The element after the last one of a string is
`0`. -/
def scan (recvBuf : Bytes) (index : ℕ) : Bytes × Bytes :=
  if recvBuf.getD index 0 = LF then (recvBuf.take (index + 1), recvBuf.drop (index + 1))
  else if index + 1 ≥ recvBuf.length then ([], recvBuf)
  else scan recvBuf (index + 1)
termination_by recvBuf.length - index

/-- `Player::handleClientMsg`. -/
def handleClientMsg (recvBuf : Bytes) : Bytes × Bytes :=
  if recvBuf.isEmpty then ([], recvBuf) else scan recvBuf 0

/-- From an element before the first line feed on, the line is found. -/
lemma scan_frame (front rest : Bytes) {body : Bytes} (hbody : LF ∉ body) :
    scan (front ++ body ++ LF :: rest) front.length = (front ++ body ++ [LF], rest) := by
  induction body generalizing front with
  | nil =>
    rw [scan, if_pos (by simp)]
    simp [List.take_append]
  | cons x body ih =>
    rw [List.mem_cons, not_or] at hbody
    have hnext := ih (front ++ [x]) hbody.2
    rw [List.length_append, List.length_singleton] at hnext
    have hx : ¬ (front ++ x :: body ++ LF :: rest).getD front.length 0 = LF := by
      simpa using Ne.symm hbody.1
    have hlen : ¬ front.length + 1 ≥ (front ++ x :: body ++ LF :: rest).length := by
      simp only [List.length_append, List.length_cons]
      omega
    rw [scan, if_neg hx, if_neg hlen]
    simpa using hnext

/-- Without a line feed the scan comes to the last element and finds no message. -/
lemma scan_of_not_mem (front : Bytes) {body : Bytes} (hbody : LF ∉ body) :
    scan (front ++ body) front.length = ([], front ++ body) := by
  induction body generalizing front with
  | nil =>
    have hend : ¬ (front ++ []).getD front.length 0 = LF := by
      simp [LF]
    rw [scan, if_neg hend, if_pos (by simp)]
  | cons x body ih =>
    rw [List.mem_cons, not_or] at hbody
    have hnext := ih (front ++ [x]) hbody.2
    rw [List.length_append, List.length_singleton] at hnext
    have hx : ¬ (front ++ x :: body).getD front.length 0 = LF := by
      simpa using Ne.symm hbody.1
    rw [scan, if_neg hx]
    split
    · rfl
    · simpa using hnext

/-- With a line feed the line that it ends is the message. -/
lemma handleClientMsg_frame (rest : Bytes) {body : Bytes} (hbody : LF ∉ body) :
    handleClientMsg (body ++ LF :: rest) = (body ++ [LF], rest) := by
  have hscan := scan_frame [] rest hbody
  rw [handleClientMsg, if_neg (by simp)]
  exact hscan

/-- Without a line feed there is no message. -/
lemma handleClientMsg_of_not_mem {recvBuf : Bytes} (h : LF ∉ recvBuf) :
    handleClientMsg recvBuf = ([], recvBuf) := by
  have hscan := scan_of_not_mem [] h
  rw [handleClientMsg]
  split
  · rfl
  · exact hscan

/-- A message that is taken leaves a shorter buffer. -/
lemma length_lt_of_message {recvBuf recvBuf' aMsg : Bytes} (hmsg : aMsg ≠ [])
    (h : handleClientMsg recvBuf = (aMsg, recvBuf')) : recvBuf'.length < recvBuf.length := by
  rcases Framing.not_mem_or_exists_first LF recvBuf with hno | ⟨body, rest, hbody, rfl⟩
  · rw [handleClientMsg_of_not_mem hno] at h
    exact absurd (congrArg Prod.fst h).symm hmsg
  · rw [handleClientMsg_frame rest hbody] at h
    obtain ⟨-, rfl⟩ := Prod.mk.inj h
    simp only [List.length_append, List.length_cons]
    omega

end Player

/-! ## The receive loop -/

/-- What the thread of a client works on: the receive buffer of its player and the rest of the
server.  The messages are a ghost. -/
structure Client (σ : Type*) where
  recvBuf : Bytes
  server : σ
  messages : List Bytes

namespace Client

variable {σ : Type*} (sendMsgToOtherClients : Bytes → σ → σ)

/-- A client that has not sent anything. -/
def start (s : σ) : Client σ where
  recvBuf := []
  server := s
  messages := []

/-- The inner loop of `clientThreadFunc`. -/
def handleMessages (c : Client σ) : Client σ :=
  match _h : Player.handleClientMsg c.recvBuf with
  | ([], recvBuf) => { c with recvBuf := recvBuf }
  | (x :: xs, recvBuf) =>
    handleMessages
      { recvBuf := recvBuf
        server := sendMsgToOtherClients (x :: xs) c.server
        messages := c.messages ++ [x :: xs] }
termination_by c.recvBuf.length
decreasing_by exact Player.length_lt_of_message (List.cons_ne_nil x xs) (by assumption)

/-- The part of an iteration of `clientThreadFunc` that receives: the first component says whether
the thread goes on. -/
def receive (n : RecvResult) (c : Client σ) : Bool × Client σ :=
  match Player.recvData n c.recvBuf with
  | (false, recvBuf) => (false, { c with recvBuf := recvBuf })
  | (true, recvBuf) =>
    (true, handleMessages sendMsgToOtherClients { c with recvBuf := recvBuf })

/-- Successive reads. -/
def receiveAll (chunks : List Bytes) (c : Client σ) : Client σ :=
  chunks.foldl (fun c chunk => (receive sendMsgToOtherClients (.data chunk) c).2) c

variable {sendMsgToOtherClients} {c : Client σ}

lemma handleMessages_of_not_mem (h : LF ∉ c.recvBuf) :
    handleMessages sendMsgToOtherClients c = c := by
  have hmsg := Player.handleClientMsg_of_not_mem h
  rw [handleMessages]
  split <;> rename_i heq <;> rw [hmsg] at heq <;> cases heq
  rfl

lemma handleMessages_frame {body rest : Bytes} (hbuf : c.recvBuf = body ++ LF :: rest)
    (hbody : LF ∉ body) :
    handleMessages sendMsgToOtherClients c =
      handleMessages sendMsgToOtherClients
        { recvBuf := rest
          server := sendMsgToOtherClients (body ++ [LF]) c.server
          messages := c.messages ++ [body ++ [LF]] } := by
  have hmsg := Player.handleClientMsg_frame rest hbody
  rw [← hbuf] at hmsg
  rw [handleMessages]
  split <;> rename_i heq <;> rw [hmsg] at heq
  · exact absurd (congrArg Prod.fst heq) (by simp)
  · obtain ⟨hline, rfl⟩ := Prod.mk.inj heq
    rw [hline]

/-- **The inner loop takes the lines off the buffer in order and leaves what follows the last line
feed.** -/
theorem handleMessages_eq (c : Client σ) :
    handleMessages sendMsgToOtherClients c =
      { recvBuf := Framing.residue LF c.recvBuf
        server := (Framing.frames LF c.recvBuf).foldl (fun s m => sendMsgToOtherClients m s) c.server
        messages := c.messages ++ Framing.frames LF c.recvBuf } := by
  obtain ⟨buf, s, messages⟩ := c
  induction buf using Framing.frameInduction LF generalizing s messages with
  | open_ l h =>
    rw [handleMessages_of_not_mem h, Framing.frames_of_not_mem h, Framing.residue_of_not_mem h]
    simp
  | frame body rest h ih =>
    rw [handleMessages_frame rfl h, ih, Framing.frames_append_delimiter h,
      Framing.residue_append_delimiter h]
    simp

variable (sendMsgToOtherClients) in
/-- However the bytes are cut, the messages are the lines among them. -/
lemma receiveAll_spec (chunks : List Bytes) (hbuf : LF ∉ c.recvBuf) :
    (receiveAll sendMsgToOtherClients chunks c).messages =
        c.messages ++ Framing.frames LF (c.recvBuf ++ chunks.flatten) ∧
      (receiveAll sendMsgToOtherClients chunks c).recvBuf =
        Framing.residue LF (c.recvBuf ++ chunks.flatten) := by
  induction chunks generalizing c with
  | nil =>
    simp [receiveAll, Framing.frames_of_not_mem hbuf, Framing.residue_of_not_mem hbuf]
  | cons chunk chunks ih =>
    have hread : (receive sendMsgToOtherClients (.data chunk) c).2 =
        { recvBuf := Framing.residue LF (c.recvBuf ++ chunk)
          server := (Framing.frames LF (c.recvBuf ++ chunk)).foldl
            (fun s m => sendMsgToOtherClients m s) c.server
          messages := c.messages ++ Framing.frames LF (c.recvBuf ++ chunk) } :=
      handleMessages_eq _
    have hrest : LF ∉ (receive sendMsgToOtherClients (.data chunk) c).2.recvBuf := by
      rw [hread]
      exact Framing.not_mem_residue LF _
    obtain ⟨hmessages, hleft⟩ := ih hrest
    rw [hread] at hmessages hleft
    rw [receiveAll, List.foldl_cons, ← receiveAll, hread, List.flatten_cons, ← List.append_assoc,
      Framing.frames_append LF (c.recvBuf ++ chunk), Framing.residue_append LF (c.recvBuf ++ chunk),
      ← List.append_assoc]
    exact ⟨hmessages, hleft⟩

end Client

/-! ## Both versions -/

/-- **Both versions read the same messages.**  If nowhere in the stream more than
`MAX_MSG_LENGTH` bytes follow each other without a line feed, then however the stream is cut for
either version, the first one extracts the messages that the second one hands to `processPackage`,
and the same bytes are left in the receive buffers. -/
theorem messages_eq_packages {σ σ' : Type*} (sendMsgToOtherClients : Bytes → σ → σ)
    (processPackage : Bytes → σ' → σ') (onClose : σ' → σ') (s : σ) (s' : σ') {stream : Bytes}
    (hruns : Framing.RunsAtMost LF MAX_MSG_LENGTH stream) {cs cs' : List Bytes}
    (hcs : Framing.IsChunking CLIENT_MSG_SIZE stream cs)
    (hcs' : Framing.IsChunking RECV_BUF_SIZE stream cs') :
    (Client.receiveAll sendMsgToOtherClients cs (Client.start s)).messages =
        (Reader.receive processPackage onClose cs' (Reader.start s')).state.handed ∧
      (Client.receiveAll sendMsgToOtherClients cs (Client.start s)).recvBuf =
        (Reader.receive processPackage onClose cs' (Reader.start s')).recvBuf.internalBuf := by
  obtain ⟨hmessages, hbuf⟩ :=
    Client.receiveAll_spec sendMsgToOtherClients (c := Client.start s) cs List.not_mem_nil
  have hruns' : Framing.RunsAtMost LF MAX_MSG_LENGTH
      ((Reader.start s').recvBuf.internalBuf ++ cs'.flatten) := by
    rw [hcs'.flatten_eq]
    exact hruns
  obtain ⟨hpackages, hbuf', -⟩ := Reader.receive_of_runsAtMost processPackage onClose cs'
    (r := Reader.start s') rfl List.not_mem_nil hruns'
  rw [hmessages, hbuf, hpackages, hbuf', hcs.flatten_eq, hcs'.flatten_eq]
  exact ⟨rfl, rfl⟩

/-- Two lines and the start of a third, cut in the middle of a line and read at once. -/
theorem messages_eq_packages_two_lines :
    (Client.receiveAll (fun _ s => s) [[97], [LF, 98, LF, 99]] (Client.start ())).messages =
        (Reader.receive (fun _ s => s) id [[97, LF, 98, LF, 99]] (Reader.start ())).state.handed ∧
      (Client.receiveAll (fun _ s => s) [[97], [LF, 98, LF, 99]] (Client.start ())).recvBuf =
        (Reader.receive (fun _ s => s) id [[97, LF, 98, LF, 99]]
          (Reader.start ())).recvBuf.internalBuf :=
  messages_eq_packages (fun _ s => s) (fun _ s => s) id () ()
    (fun run hrun _ => hrun.length_le.trans (by decide))
    ⟨rfl, by decide, by decide⟩ ⟨rfl, by decide, by decide⟩

end Calc24.V1
