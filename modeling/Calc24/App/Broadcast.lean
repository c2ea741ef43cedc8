import Calc24.App.Turns

/-!
# Broadcasts

`sendAll` iterates over `m_sessions` and sends to each session that matches.  A send to a session
of the caller's own loop goes to the kernel at once, and if the kernel refuses it the session is
closed and erased from the map under the iterator.  The map therefore stays what it is throughout
the iteration exactly if the kernel refuses none of the matching sessions of the caller's loop
(`broadcasts_iff`).
-/

namespace Calc24

namespace World

variable {env : Environment} {cur : LoopId} {r t : Ref} {w w₁ w' : World} {msg : Bytes}
  {includeSelf : Bool} {id : Int32} {status : SessionStatus} {deskID : Int64}

/-! ## Walking over the map -/

/-- A loop over the sessions ends without a fault exactly if the map has the same entries at every
point of the iteration. -/
theorem forEachSession_eq_ok_iff {body : Ref → World → World} :
    w.forEachSession body = .ok w' ↔
      (∀ visited rest, w.sessions = visited ++ rest →
        ((visited.map Prod.snd).foldl (fun w r => body r w) w).sessions = w.sessions) ∧
      w' = (w.sessions.map Prod.snd).foldl (fun w r => body r w) w := by
  have hgo : ∀ (entries : List (Int32 × Ref)) (w₁ : World),
      forEachSession.go body entries w₁ = .ok w' ↔
        (∀ visited rest, entries = visited ++ rest →
          ((visited.map Prod.snd).foldl (fun w r => body r w) w₁).sessions = w₁.sessions) ∧
        w' = (entries.map Prod.snd).foldl (fun w r => body r w) w₁ := by
    intro entries
    induction entries with
    | nil =>
      intro w₁
      simp only [forEachSession.go, List.map_nil, List.foldl_nil]
      constructor
      · intro h
        refine ⟨fun visited rest heq => ?_, (Except.ok.inj h).symm⟩
        obtain ⟨rfl, -⟩ := List.append_eq_nil_iff.mp heq.symm
        rfl
      · rintro ⟨-, rfl⟩
        rfl
    | cons entry entries ih =>
      intro w₁
      rw [forEachSession.go, List.map_cons, List.foldl_cons]
      constructor
      · intro h
        split at h
        · next hsame =>
          obtain ⟨hwalk, hend⟩ := (ih _).mp h
          refine ⟨fun visited rest heq => ?_, hend⟩
          cases visited with
          | nil => rfl
          | cons first visited =>
            obtain ⟨rfl, htail⟩ := List.cons.inj heq
            rw [List.map_cons, List.foldl_cons, hwalk visited rest htail, hsame]
        · cases h
      · rintro ⟨hwalk, hend⟩
        have hsame : (body entry.2 w₁).sessions = w₁.sessions := hwalk [entry] entries rfl
        rw [if_pos hsame, ih]
        refine ⟨fun visited rest heq => ?_, hend⟩
        have hnext := hwalk (entry :: visited) rest (by rw [heq, List.cons_append])
        rw [hsame]
        exact hnext
  exact hgo w.sessions w

variable (env cur msg includeSelf id status deskID) in
/-- The body of the loop of `sendAll`. -/
def sendIfRecipient (r : Ref) (w : World) : World :=
  if includeSelf = false ∧ (w.session r).id = id then w
  else if (w.session r).status ≠ status ∨ (w.session r).deskID ≠ deskID then w
  else w.sendMsg env cur r msg

lemma sendIfRecipient_of_recipient (h : Recipient includeSelf id status deskID w r) :
    sendIfRecipient env cur msg includeSelf id status deskID r w = w.sendMsg env cur r msg := by
  obtain ⟨hself, hstatus, hdesk⟩ := h
  rw [sendIfRecipient, if_neg hself, if_neg]
  rintro (hne | hne)
  · exact hne hstatus
  · exact hne hdesk

lemma sendIfRecipient_of_not_recipient (h : ¬ Recipient includeSelf id status deskID w r) :
    sendIfRecipient env cur msg includeSelf id status deskID r w = w := by
  unfold sendIfRecipient
  split
  · rfl
  · next hself =>
    split
    · rfl
    · next hmatch =>
      rw [not_or, not_not, not_not] at hmatch
      exact absurd ⟨hself, hmatch.1, hmatch.2⟩ h

/-- The sessions in the map that match the filter, in the order of the iteration. -/
def recipients (includeSelf : Bool) (id : Int32) (status : SessionStatus) (deskID : Int64)
    (w : World) : List Ref :=
  (w.sessions.map Prod.snd).filter fun r => Recipient includeSelf id status deskID w r

/-- A broadcast that walks over the map as it was: the map has the same entries at every point of
the iteration, and every session that matched at entry is sent the message once. -/
def Broadcasts (env : Environment) (cur : LoopId) (msg : Bytes) (includeSelf : Bool) (id : Int32)
    (status : SessionStatus) (deskID : Int64) (w : World) : Prop :=
  (∀ visited rest, w.sessions = visited ++ rest →
    ((visited.map Prod.snd).foldl
      (fun w r => sendIfRecipient env cur msg includeSelf id status deskID r w) w).sessions =
      w.sessions) ∧
  ∃ w', w.sendAll env cur msg includeSelf id status deskID = .ok w' ∧
    w'.trace = ((w.recipients includeSelf id status deskID).map (.sent · msg)).reverse ++ w.trace

/-- The kernel accepts the message for every matching session of the caller's loop; the `i`-th of
them takes the `i`-th flush from now on. -/
def OwnAccepted (env : Environment) (cur : LoopId) (msg : Bytes) (includeSelf : Bool) (id : Int32)
    (status : SessionStatus) (deskID : Int64) (w : World) : Prop :=
  ∀ i r, ((w.recipients includeSelf id status deskID).filter
    fun r => (w.connection r).loop = cur)[i]? = some r →
    refuses (env.send (w.flushes + i)) ((w.connection r).sendBuf.remaining + msg.length) = false

/-! ## The walk -/

/-- Where the iteration is after the sessions in `visited`, if none of them was refused. -/
structure Walked (visited : List Ref) (w w₁ : World) : Prop where
  touches : Touches {t | t ∈ visited} w w₁
  sessions : w₁.sessions = w.sessions

/-- The iteration looks at the fields that the sessions had at its start. -/
lemma recipient_iff_of_session (h : w₁.session = w.session) :
    Recipient includeSelf id status deskID w₁ r ↔ Recipient includeSelf id status deskID w r := by
  rw [Recipient, Recipient, h]

/-- Nothing happens to a session that does not match. -/
lemma Walked.skip {visited : List Ref} (h : Walked visited w w₁) :
    Walked (visited ++ [r]) w w₁ where
  touches := h.touches.mono fun _ ht => List.mem_append_left _ ht
  sessions := h.sessions

/-- A send that does not change the map takes the iteration one session further. -/
lemma Walked.send {visited : List Ref} (h : Walked visited w w₁)
    (hsessions : (w₁.sendMsg env cur r msg).sessions = w₁.sessions) :
    Walked (visited ++ [r]) w (w₁.sendMsg env cur r msg) where
  touches := (h.touches.mono fun _ ht => List.mem_append_left _ ht).trans
    (touches_sendMsg msg (List.mem_append_right visited (List.mem_singleton_self r)))
  sessions := hsessions.trans h.sessions

/-- Whatever the kernel answers, the messages are recorded in the order of the iteration. -/
lemma trace_foldl_sendIfRecipient (refs : List Ref) (h : w₁.session = w.session) :
    (refs.foldl (fun w r => sendIfRecipient env cur msg includeSelf id status deskID r w) w₁).trace =
      ((refs.filter fun r => Recipient includeSelf id status deskID w r).map
        (.sent · msg)).reverse ++ w₁.trace := by
  induction refs generalizing w₁ with
  | nil => rfl
  | cons r refs ih =>
    rw [List.foldl_cons]
    by_cases hr : Recipient includeSelf id status deskID w r
    · rw [sendIfRecipient_of_recipient ((recipient_iff_of_session h).mpr hr),
        ih ((touches_sendMsg (A := {r}) msg rfl).session.trans h), trace_sendMsg,
        List.filter_cons_of_pos (by simpa using hr)]
      simp
    · rw [sendIfRecipient_of_not_recipient fun hr' => hr ((recipient_iff_of_session h).mp hr'),
        ih h, List.filter_cons_of_neg (by simpa using hr)]

/-- A send to a session of another loop is queued: the map and the kernel are not involved. -/
lemma sendMsg_of_ne (env : Environment) (msg : Bytes) (hr : (w₁.connection r).loop ≠ cur) :
    (w₁.sendMsg env cur r msg).sessions = w₁.sessions ∧
      (w₁.sendMsg env cur r msg).flushes = w₁.flushes := by
  rcases send_cases env cur r msg (w₁.log (.sent r msg)) with
    ⟨-, hqueued⟩ | ⟨hcur, -, -⟩ | ⟨hcur, -, -⟩
  · rw [sendMsg, hqueued]
    exact ⟨rfl, rfl⟩
  · exact absurd hcur.symm hr
  · exact absurd hcur.symm hr

/-- A send to a session of the caller's loop changes the map exactly if the kernel refuses it. -/
lemma sendMsg_of_eq (env : Environment) (msg : Bytes) (hwf : WellFormed w₁)
    (hmem : r ∈ w₁.sessions.map Prod.snd)
    (hr : (w₁.connection r).loop = cur) :
    ((w₁.sendMsg env cur r msg).sessions = w₁.sessions ↔ ¬ Refused env w₁ r msg) ∧
      (¬ Refused env w₁ r msg → (w₁.sendMsg env cur r msg).flushes = w₁.flushes + 1) := by
  rcases send_cases env cur r msg (w₁.log (.sent r msg)) with
    ⟨hcur, -⟩ | ⟨-, haccepted, p, -, -, hflushed⟩ | ⟨-, hrefused, w₂, hflushes, hclose⟩
  · exact absurd hr.symm hcur
  · rw [sendMsg, hflushed]
    exact ⟨⟨fun _ => haccepted, fun _ => rfl⟩, fun _ => rfl⟩
  · have hwf₂ : WellFormed w₂ := (hwf.touches (touches_log (A := {r}) _)).touches
      (hflushes.touches rfl)
    refine ⟨⟨fun hsame => ?_, fun haccepted => absurd hrefused haccepted⟩,
      fun haccepted => absurd hrefused haccepted⟩
    rw [sendMsg, hclose] at hsame
    rw [← hsame] at hmem
    exact absurd hmem hwf₂.not_mem_onClose

/-- The rest of the iteration, from any point that it has reached with the map unchanged. -/
lemma walk_iff (hwf : WellFormed w) {visited rest : List Ref}
    (hrefs : w.sessions.map Prod.snd = visited ++ rest) (h : Walked visited w w₁) :
    (∀ pre suf, rest = pre ++ suf →
      (pre.foldl (fun w r => sendIfRecipient env cur msg includeSelf id status deskID r w)
        w₁).sessions = w.sessions) ↔
    ∀ i r, ((rest.filter fun r => Recipient includeSelf id status deskID w r).filter
      fun r => (w.connection r).loop = cur)[i]? = some r →
      refuses (env.send (w₁.flushes + i))
        ((w.connection r).sendBuf.remaining + msg.length) = false := by
  induction rest generalizing visited w₁ with
  | nil =>
    constructor
    · intro _ i r hr
      simp at hr
    · intro _ pre suf hnil
      obtain ⟨rfl, -⟩ := List.append_eq_nil_iff.mp hnil.symm
      exact h.sessions
  | cons r rest ih =>
    have hrefs' : w.sessions.map Prod.snd = (visited ++ [r]) ++ rest := by
      rw [hrefs, List.append_assoc, List.singleton_append]
    -- the prefixes of the iteration: none, or `r` and a prefix of the rest
    have hpre : (∀ pre suf, r :: rest = pre ++ suf →
        (pre.foldl (fun w r => sendIfRecipient env cur msg includeSelf id status deskID r w)
          w₁).sessions = w.sessions) ↔
        ∀ pre suf, rest = pre ++ suf →
          (pre.foldl (fun w r => sendIfRecipient env cur msg includeSelf id status deskID r w)
            (sendIfRecipient env cur msg includeSelf id status deskID r w₁)).sessions =
            w.sessions := by
      constructor
      · intro hall pre suf heq
        exact hall (r :: pre) suf (by rw [heq, List.cons_append])
      · intro hall pre suf heq
        cases pre with
        | nil => exact h.sessions
        | cons first pre =>
          obtain ⟨rfl, htail⟩ := List.cons.inj heq
          exact hall pre suf htail
    rw [hpre]
    by_cases hrecipient : Recipient includeSelf id status deskID w r
    · rw [sendIfRecipient_of_recipient ((recipient_iff_of_session h.touches.session).mpr hrecipient)]
      by_cases hloop : (w.connection r).loop = cur
      · -- a send to the kernel, which may refuse it
        have hfresh : r ∉ visited := by
          have hnodup := hwf.refs_nodup
          rw [hrefs, List.nodup_append] at hnodup
          exact fun hmem => hnodup.2.2 r hmem r (List.mem_cons_self ..) rfl
        have hconnection : w₁.connection r = w.connection r := h.touches.connection r hfresh
        have hmem : r ∈ w₁.sessions.map Prod.snd := by
          rw [h.sessions, hrefs]
          exact List.mem_append_right _ (List.mem_cons_self ..)
        have hloop₁ : (w₁.connection r).loop = cur := by rw [hconnection, hloop]
        obtain ⟨hsame, hflushes⟩ := sendMsg_of_eq env msg
          (hwf.touches h.touches) hmem hloop₁
        have hrefused : Refused env w₁ r msg ↔
            refuses (env.send w₁.flushes)
              ((w.connection r).sendBuf.remaining + msg.length) = true := by
          rw [Refused, hconnection]
        simp only [List.filter_cons, hrecipient, hloop, decide_true, if_true]
        constructor
        · intro hall
          have haccepted : ¬ Refused env w₁ r msg :=
            hsame.mp ((hall [] rest rfl).trans h.sessions.symm)
          have hrest := (ih hrefs' (h.send (hsame.mpr haccepted))).mp hall
          rw [hflushes haccepted] at hrest
          intro i t ht
          cases i with
          | zero =>
            obtain rfl : r = t := by simpa using ht
            rw [hrefused, Bool.not_eq_true] at haccepted
            exact haccepted
          | succ i =>
            have hnext := hrest i t (by simpa using ht)
            rwa [Nat.add_assoc, Nat.add_comm 1 i] at hnext
        · intro hall
          have haccepted : ¬ Refused env w₁ r msg := by
            rw [hrefused, Bool.not_eq_true]
            exact hall 0 r rfl
          refine (ih hrefs' (h.send (hsame.mpr haccepted))).mpr fun i t ht => ?_
          rw [hflushes haccepted, Nat.add_assoc, Nat.add_comm 1 i]
          exact hall (i + 1) t (by simpa using ht)
      · -- a queued send
        have hloop₁ : (w₁.connection r).loop ≠ cur := by
          rw [h.touches.loop]
          exact hloop
        obtain ⟨hsame, hflushes⟩ := sendMsg_of_ne env msg hloop₁
        have hrest := ih hrefs' (h.send hsame)
        rw [hflushes] at hrest
        rw [hrest]
        simp only [List.filter_cons, hrecipient, hloop, decide_true, decide_false, if_true,
          Bool.false_eq_true, if_false]
    · rw [sendIfRecipient_of_not_recipient (fun hr => hrecipient ((recipient_iff_of_session h.touches.session).mp hr)),
        ih hrefs' (h.skip)]
      simp only [List.filter_cons, hrecipient, decide_false, Bool.false_eq_true, if_false]

/-- In a well-formed world a broadcast walks over an unchanging map exactly if the kernel accepts
it for the matching sessions of the caller's loop. -/
theorem WellFormed.broadcasts_iff_ownAccepted (hwf : WellFormed w) :
    Broadcasts env cur msg includeSelf id status deskID w ↔
      OwnAccepted env cur msg includeSelf id status deskID w := by
  have hwalk : _ ↔ OwnAccepted env cur msg includeSelf id status deskID w :=
    walk_iff hwf (List.nil_append _).symm ⟨Touches.refl _ w, rfl⟩
  -- prefixes of the map and of its list of sessions are the same thing
  have hprefixes : (∀ visited rest, w.sessions = visited ++ rest →
      ((visited.map Prod.snd).foldl
        (fun w r => sendIfRecipient env cur msg includeSelf id status deskID r w) w).sessions =
        w.sessions) ↔
      ∀ pre suf, w.sessions.map Prod.snd = pre ++ suf →
        (pre.foldl (fun w r => sendIfRecipient env cur msg includeSelf id status deskID r w)
          w).sessions = w.sessions := by
    constructor
    · intro h pre suf heq
      obtain ⟨visited, rest, hsplit, rfl, rfl⟩ := List.map_eq_append_iff.mp heq
      exact h visited rest hsplit
    · intro h visited rest heq
      exact h (visited.map Prod.snd) (rest.map Prod.snd) (by rw [heq, List.map_append])
  rw [← hwalk, ← hprefixes, Broadcasts]
  constructor
  · rintro ⟨hunchanged, -⟩
    exact hunchanged
  · intro hunchanged
    refine ⟨hunchanged, _, forEachSession_eq_ok_iff.mpr ⟨hunchanged, rfl⟩, ?_⟩
    exact trace_foldl_sendIfRecipient _ rfl

end World

namespace Process

open World

variable {env : Environment} {s : Process}

/-- **In every reachable state, a broadcast from a worker thread walks over the map of sessions as
it was at its start, and reaches every matching session once, exactly if the kernel refuses the
message for none of the matching sessions of the caller's own loop.** -/
theorem broadcasts_iff (h : (interleaved env).Reachable s) (n : ℕ) (msg : Bytes)
    (includeSelf : Bool) (id : Int32) (status : SessionStatus) (deskID : Int64) :
    Broadcasts env (.worker n) msg includeSelf id status deskID s.world ↔
      OwnAccepted env (.worker n) msg includeSelf id status deskID s.world :=
  (sound_reachable h).wellFormed.broadcasts_iff_ownAccepted

/-- Two clients connect to a server with one worker thread, and the first one says "hi". -/
def chat : List Step :=
  [.connect 5 [], .connect 6 [], goOn 0, pollRead 0 0, recvText 0 "hi\n"]

/-- Where the kernel takes every message, the chat message reaches the other client. -/
theorem broadcasts_chat :
    Broadcasts calm (.worker 0) (msgWithPrefix 1 (ascii "hi\n")) false 1 .IDLE 0
      (runSteps calm (start 1) chat).world := by
  have hreach : (interleaved calm).Reachable (runSteps calm (start 1) chat) :=
    reachableUnder_runSteps (.init ⟨1, by decide, rfl⟩) (by decide)
  refine (broadcasts_iff hreach 0 _ _ _ _ _).mpr fun i r hr => ?_
  have hown : (((runSteps calm (start 1) chat).world.recipients false 1 .IDLE 0).filter
      fun r => ((runSteps calm (start 1) chat).world.connection r).loop = .worker 0) = [1] := by
    decide
  rw [hown] at hr
  cases i with
  | zero =>
    obtain rfl : 1 = r := by simpa using hr
    decide
  | succ i => simp at hr

/-- An environment in which the kernel answers every `::send` with a fatal error. -/
def hostile : Environment :=
  { calm with send := fun _ => [.error (.other 104)] }

/-- If the other client is gone, the chat message erases it from the map under the iterator. -/
theorem exists_broadcast_erases :
    ¬ ∀ env s, (interleaved env).Reachable s → ∀ n msg includeSelf id status deskID,
      Broadcasts env (.worker n) msg includeSelf id status deskID s.world := by
  intro h
  have hreach : (interleaved hostile).Reachable (runSteps hostile (start 1) chat) :=
    reachableUnder_runSteps (.init ⟨1, by decide, rfl⟩) (by decide)
  have hunchanged := (h hostile _ hreach 0 (msgWithPrefix 1 (ascii "hi\n")) false 1 .IDLE 0).1
    (runSteps hostile (start 1) chat).world.sessions [] (List.append_nil _).symm
  exact absurd hunchanged (by decide)

end Process

end Calc24
