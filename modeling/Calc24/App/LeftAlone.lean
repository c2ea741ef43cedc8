import Calc24.App.Closing

/-!
# Closed connections are left alone

A connection is closed at most once as long as nothing is left to do for a thread that is still
reading it: no complete package may remain in its receive buffer, and no rest that is too long.
That holds of every open connection that no thread is reading (`Settled.exhausted`), so `onClose`
at the end of the stream does no harm, although `onRead` goes on to the read callback.  The
three conditions of `NothingAfterClose` are what remains, and they suffice (`closedIsTerminal`).
-/

namespace Calc24

namespace Watched

open World Accepting

variable {env : Environment} {s s' : Watched} {p : Accepting} {n : ℕ} {r : Ref} {w w' : World}
  {stage back : WorkerStage} {move : Move} {step : AcceptingStep} {closeCalls calls : Ref → ℕ}

/-! ## The invariant -/

/-- Where a thread is with the connection that it is closing. -/
def Closes (w : World) (closeCalls : Ref → ℕ) : WorkerStage → Prop
  | .onClose r .unregister back => back.closing = none ∧ (w.connection r).closed = false ∧
      (back.reads = some r → Exhausted (w.connection r).recvBuf)
  | .onClose r .callback back =>
      back.closing = none ∧ (w.connection r).closed = true ∧ closeCalls r = 0
  | .onClose r _ back => back.closing = none ∧ (w.connection r).closed = true
  | _ => True

/-- What holds after every step that leaves closed connections alone. -/
structure Settled (s : Watched) : Prop where
  sound : Sound s.process
  reads : ∀ n r, (s.process.worker n).reads = some r →
    (s.process.world.connection r).closed = true →
      Exhausted (s.process.world.connection r).recvBuf
  closes : ∀ n, Closes s.process.world s.closeCalls (s.process.worker n)
  calls_of_open : ∀ r, (s.process.world.connection r).closed = false → s.closeCalls r = 0
  calls_fresh : ∀ r, s.process.world.nextRef ≤ r → s.closeCalls r = 0
  exhausted : ∀ r, (s.process.world.connection r).closed = false →
    (∀ n, ¬ (s.process.worker n).Busy r) → Exhausted (s.process.world.connection r).recvBuf
  terminal : s.Terminal

/-- Nothing has to be said about a thread that closes nothing. -/
lemma closes_of_closing (h : stage.closing = none) : Closes w closeCalls stage := by
  cases stage with
  | onClose r phase back => cases h
  | _ => trivial

/-- Where a thread is depends only on the connections that it holds pointers to. -/
lemma Closes.congr (h : Closes w closeCalls stage)
    (hsame : ∀ r, stage.Holds r → (w.connection r).Same (w'.connection r))
    (hcalls : ∀ r, stage.Holds r → calls r = closeCalls r) : Closes w' calls stage := by
  cases stage with
  | onClose r phase back =>
    obtain ⟨hclosed, hrecvBuf⟩ := hsame r (Or.inl rfl)
    have hcall := hcalls r (Or.inl rfl)
    cases phase <;> simpa [Closes, hclosed, hrecvBuf, hcall] using h
  | _ => trivial

lemma exhausted_empty : Exhausted {} := by
  constructor
  · exact List.not_mem_nil
  · exact Nat.zero_le _

lemma settled_start (threadNum : ℕ) : Settled (start threadNum) where
  sound := sound_start threadNum
  reads _ _ h := by cases h
  closes _ := trivial
  calls_of_open _ _ := rfl
  calls_fresh _ _ := rfl
  exhausted _ _ _ := exhausted_empty
  terminal := ⟨rfl, fun _ => Nat.zero_le _⟩

/-- Only the thread of its loop reads and closes a connection. -/
lemma Settled.eq_of_busy (h : Settled s) {m : ℕ}
    (hr : (s.process.world.connection r).loop = .worker n)
    (hbusy : (s.process.worker m).Busy r) : m = n := by
  have hloop := (h.sound.holds m r (WorkerStage.holds_of_busy hbusy)).2
  rw [hr] at hloop
  exact (LoopId.worker.inj hloop).symm

/-- An open connection that the thread of its loop is neither reading nor closing. -/
lemma Settled.exhausted_of (h : Settled s)
    (hr : (s.process.world.connection r).loop = .worker n)
    (hopen : (s.process.world.connection r).closed = false)
    (hidle : ¬ (s.process.worker n).Busy r) :
    Exhausted (s.process.world.connection r).recvBuf := by
  refine h.exhausted r hopen fun m hbusy => ?_
  obtain rfl := h.eq_of_busy hr hbusy
  exact hidle hbusy

/-! ## The steps of a worker thread -/

/-- A step of a worker thread keeps the invariant, if it changes other threads' connections in
nothing that counts, and keeps it for the connections of its own loop. -/
lemma Settled.after (h : Settled s)
    (hworks : Works n (s.process.worker n) s.process.world stage w)
    (hother : ∀ r, (s.process.world.connection r).loop ≠ .worker n →
      (s.process.world.connection r).Same (w.connection r))
    (hopen : ∀ r, (w.connection r).closed = false →
      (s.process.world.connection r).closed = false)
    (hcalls : ∀ r, calls r = s.closeCalls r ∨
      stage.closing = some r ∧ (w.connection r).closed = true ∧ calls r ≤ 1)
    (hreads : ∀ r, stage.reads = some r → (w.connection r).closed = true →
      Exhausted (w.connection r).recvBuf)
    (hcloses : Closes w calls stage)
    (hexhausted : ∀ r, (s.process.world.connection r).loop = .worker n →
      (w.connection r).closed = false → ¬ stage.Busy r → Exhausted (w.connection r).recvBuf) :
    Settled { process := s.process.after n (.ok (stage, w))
              closeCalls := calls
              handedAfterClose := s.handedAfterClose } := by
  have hsound : Sound (s.process.after n (.ok (stage, w))) := sound_work h.sound hworks
  have hclosing : ∀ r, stage.closing = some r → On s.process.world (.worker n) r :=
    fun r hr => hworks.holds r (WorkerStage.holds_of_busy (Or.inr hr))
  -- what another thread holds a pointer to belongs to another loop
  have hforeign : ∀ m ≠ n, ∀ r, (s.process.worker m).Holds r →
      (s.process.world.connection r).loop ≠ .worker n := by
    intro m hm r hr hloop
    rw [(h.sound.holds m r hr).2] at hloop
    exact hm (LoopId.worker.inj hloop)
  have hforeignCalls : ∀ m ≠ n, ∀ r, (s.process.worker m).Holds r → calls r = s.closeCalls r := by
    intro m hm r hr
    refine (hcalls r).resolve_right fun hcall => ?_
    exact hforeign m hm r hr (hclosing r hcall.1).2
  refine ⟨hsound, fun m r hr hclosed => ?_, fun m => ?_, fun r hr => ?_, fun r hr => ?_,
    fun r hr hidle => ?_, h.terminal.1, fun r => ?_⟩
  · by_cases hm : m = n
    · subst hm
      exact hreads r (by simpa [Accepting.after] using hr) hclosed
    · have hold : (s.process.worker m).reads = some r := by simpa [Accepting.after, hm] using hr
      obtain ⟨hsame, hrecvBuf⟩ :=
        hother r (hforeign m hm r (WorkerStage.holds_of_reads hold))
      change Exhausted (w.connection r).recvBuf
      rw [hrecvBuf]
      exact h.reads m r hold (hsame ▸ hclosed)
  · by_cases hm : m = n
    · subst hm
      simpa [Accepting.after] using hcloses
    · have hsame := (h.closes m).congr (fun r hr => hother r (hforeign m hm r hr))
        (hforeignCalls m hm)
      simpa [Accepting.after, hm] using hsame
  · rcases hcalls r with hsame | ⟨-, hclosed, -⟩
    · exact hsame.trans (h.calls_of_open r (hopen r hr))
    · have hfalse : (w.connection r).closed = false := hr
      rw [hclosed] at hfalse
      cases hfalse
  · have hfresh : s.process.world.nextRef ≤ r := hworks.affects.nextRef ▸ hr
    rcases hcalls r with hsame | ⟨hclosing', -, -⟩
    · exact hsame.trans (h.calls_fresh r hfresh)
    · exact absurd (hclosing r hclosing').1 (not_lt.mpr hfresh)
  · by_cases hloop : (s.process.world.connection r).loop = .worker n
    · refine hexhausted r hloop hr fun hbusy => hidle n ?_
      simpa [Accepting.after] using hbusy
    · obtain ⟨hsame, hrecvBuf⟩ := hother r hloop
      change Exhausted (w.connection r).recvBuf
      rw [hrecvBuf]
      refine h.exhausted r (hopen r hr) fun m hbusy => ?_
      by_cases hm : m = n
      · subst hm
        exact hloop (h.sound.holds m r (WorkerStage.holds_of_busy hbusy)).2
      · exact hidle m (by simpa [Accepting.after, hm] using hbusy)
  · rcases hcalls r with hsame | ⟨-, -, hle⟩
    · exact hsame.le.trans (h.terminal.2 r)
    · exact hle

/-- A step of a worker thread that closes nothing and leaves the receive buffers as they are. -/
lemma Settled.after_same (h : Settled s)
    (hworks : Works n (s.process.worker n) s.process.world stage w)
    (hsame : ∀ r, (s.process.world.connection r).Same (w.connection r))
    (hcalls : ∀ r, calls r = s.closeCalls r ∨ stage.closing = some r ∧
      (s.process.world.connection r).closed = true ∧ calls r ≤ 1)
    (hreads : ∀ r, stage.reads = some r → (s.process.world.connection r).closed = true →
      Exhausted (s.process.world.connection r).recvBuf)
    (hcloses : Closes s.process.world calls stage)
    (hexhausted : ∀ r, (s.process.world.connection r).closed = false →
      (s.process.worker n).Busy r → ¬ stage.Busy r →
        Exhausted (s.process.world.connection r).recvBuf) :
    Settled { process := s.process.after n (.ok (stage, w))
              closeCalls := calls
              handedAfterClose := s.handedAfterClose } := by
  have hclosed : ∀ r, (w.connection r).closed = (s.process.world.connection r).closed :=
    fun r => (hsame r).1
  have hrecvBuf : ∀ r, (w.connection r).recvBuf = (s.process.world.connection r).recvBuf :=
    fun r => (hsame r).2
  refine h.after hworks (fun r _ => hsame r) (fun r hr => ?_) (fun r => ?_) (fun r hr hr' => ?_)
    (hcloses.congr (fun r _ => hsame r) fun _ _ => rfl) fun r hloop hr hidle => ?_
  · rwa [← hclosed]
  · rw [hclosed]
    exact hcalls r
  · rw [hclosed] at hr'
    rw [hrecvBuf]
    exact hreads r hr hr'
  · rw [hclosed] at hr
    rw [hrecvBuf]
    by_cases hbusy : (s.process.worker n).Busy r
    · exact hexhausted r hr hbusy hidle
    · exact h.exhausted_of hloop hr hbusy

/-- The thread closes nothing, and what it stops reading has nothing left to do. -/
lemma Settled.goOn (h : Settled s)
    (hworks : Works n (s.process.worker n) s.process.world stage w)
    (hsame : ∀ r, (s.process.world.connection r).Same (w.connection r))
    (hclosing : stage.closing = none)
    (hreads : ∀ r, stage.reads = some r → (s.process.worker n).reads = some r)
    (hbusy : ∀ r, (s.process.worker n).Busy r →
      stage.reads = some r ∨ Exhausted (s.process.world.connection r).recvBuf) :
    Settled { process := s.process.after n (.ok (stage, w))
              closeCalls := s.closeCalls
              handedAfterClose := s.handedAfterClose } := by
  refine h.after_same hworks hsame (fun _ => Or.inl rfl) (fun r hr => ?_)
    (closes_of_closing hclosing) fun r _ hr hidle => ?_
  · exact h.reads n r (hreads r hr)
  · exact (hbusy r hr).resolve_left fun hstage => hidle (Or.inl hstage)

/-- The thread is about to close a connection that is open, and of which nothing is left to do if
the thread goes on reading it. -/
lemma Settled.startClose (h : Settled s)
    (hworks : Works n (s.process.worker n) s.process.world (.onClose r .unregister back) w)
    (hsame : ∀ t, (s.process.world.connection t).Same (w.connection t))
    (hclosing : back.closing = none) (hopen : (s.process.world.connection r).closed = false)
    (hexhausted : back.reads = some r → Exhausted (s.process.world.connection r).recvBuf)
    (hreads : ∀ t, back.reads = some t → t = r ∨ (s.process.worker n).reads = some t)
    (hbusy : ∀ t, (s.process.worker n).Busy t → back.reads = some t ∨ t = r) :
    Settled { process := s.process.after n (.ok (.onClose r .unregister back, w))
              closeCalls := s.closeCalls
              handedAfterClose := s.handedAfterClose } := by
  refine h.after_same hworks hsame (fun _ => Or.inl rfl) (fun t ht htclosed => ?_)
    ⟨hclosing, hopen, hexhausted⟩ fun t _ ht hidle => ?_
  · rcases hreads t ht with rfl | hold
    · exact hexhausted ht
    · exact h.reads n t hold htclosed
  · refine absurd ?_ hidle
    exact (hbusy t ht).imp id fun htr => congrArg some htr.symm

/-- A step of a worker thread that changes the receive buffer of a connection of its loop and goes
on reading it. -/
lemma Settled.after_setRecvBuf (h : Settled s) {recvBuf : ByteBuffer}
    (hworks : Works n (s.process.worker n) s.process.world stage
      (s.process.world.setRecvBuf r recvBuf))
    (hloop : (s.process.world.connection r).loop = .worker n)
    (hclosing : stage.closing = none) (hreads : stage.reads = some r)
    (hidle : ∀ t ≠ r, ¬ (s.process.worker n).Busy t)
    (hclosed : (s.process.world.connection r).closed = true → Exhausted recvBuf) :
    Settled { process := s.process.after n (.ok (stage, s.process.world.setRecvBuf r recvBuf))
              closeCalls := s.closeCalls
              handedAfterClose := s.handedAfterClose } := by
  have hself : ((s.process.world.setRecvBuf r recvBuf).connection r).recvBuf = recvBuf := by
    simp [setRecvBuf, setEndpoint, Endpoint.setRecvBuf]
  have hother : ∀ t ≠ r, (s.process.world.setRecvBuf r recvBuf).connection t =
      s.process.world.connection t := by
    intro t ht
    simp [setRecvBuf, setEndpoint, modifyLoop, ht]
  have hopen : ∀ t, ((s.process.world.setRecvBuf r recvBuf).connection t).closed =
      (s.process.world.connection t).closed := setEndpoint_closed rfl
  refine h.after hworks (fun t ht => ?_) (fun t ht => ?_) (fun _ => Or.inl rfl) (fun t ht ht' => ?_)
    (closes_of_closing hclosing) fun t htloop ht htidle => ?_
  · have htr : t ≠ r := by
      rintro rfl
      exact ht hloop
    rw [hother t htr]
    exact .refl _
  · rwa [← hopen]
  · obtain rfl : r = t := Option.some.inj (hreads.symm.trans ht)
    rw [hself]
    exact hclosed ((hopen r).symm.trans ht')
  · have htr : t ≠ r := by
      rintro rfl
      exact htidle (Or.inl hreads)
    rw [hother t htr] at ht ⊢
    exact h.exhausted_of htloop ht (hidle t htr)

/-- The close of a connection that is open. -/
lemma Settled.unregister (h : Settled s) (hstage : s.process.worker n = .onClose r .unregister back)
    (hworks : Works n (s.process.worker n) s.process.world (.onClose r .callback back)
      (s.process.world.setEndpoint r ((s.process.world.endpoint r).onClose (.connection r)))) :
    Settled { process := s.process.after n (.ok (.onClose r .callback back,
                s.process.world.setEndpoint r
                  ((s.process.world.endpoint r).onClose (.connection r))))
              closeCalls := s.closeCalls
              handedAfterClose := s.handedAfterClose } := by
  set w := s.process.world.setEndpoint r ((s.process.world.endpoint r).onClose (.connection r))
    with hw
  have hcloses := h.closes n
  rw [hstage] at hcloses
  obtain ⟨hback, hopen, hexhausted⟩ := hcloses
  have hself : (w.connection r).closed = true := by
    simp [hw, setEndpoint, Endpoint.onClose]
  have hrecvBuf : ∀ t, (w.connection t).recvBuf = (s.process.world.connection t).recvBuf := by
    intro t
    by_cases ht : t = r
    · subst ht
      simp [hw, setEndpoint, Endpoint.onClose, Endpoint.unregisterAllEvent, endpoint]
    · simp [hw, setEndpoint, modifyLoop, ht]
  have hother : ∀ t ≠ r, (w.connection t).closed = (s.process.world.connection t).closed := by
    intro t ht
    simp [hw, setEndpoint, modifyLoop, ht]
  have hbusy : ∀ t, (s.process.worker n).Busy t → (WorkerStage.onClose r .callback back).Busy t := by
    intro t ht
    rwa [hstage] at ht
  have hloop : (s.process.world.connection r).loop = .worker n :=
    (h.sound.holds n r (by rw [hstage]; exact Or.inl rfl)).2
  refine h.after hworks (fun t ht => ?_) (fun t ht => ?_) (fun _ => Or.inl rfl) (fun t ht ht' => ?_)
    ⟨hback, hself, h.calls_of_open r hopen⟩ fun t htloop ht htidle => ?_
  · have htr : t ≠ r := by
      rintro rfl
      exact ht hloop
    exact ⟨hother t htr, hrecvBuf t⟩
  · by_cases htr : t = r
    · rwa [htr]
    · rwa [← hother t htr]
  · rw [hrecvBuf]
    by_cases htr : t = r
    · subst htr
      exact hexhausted ht
    · refine h.reads n t ?_ ((hother t htr).symm.trans ht')
      rw [hstage]
      exact ht
  · have htr : t ≠ r := by
      rintro rfl
      exact htidle (Or.inr rfl)
    rw [hrecvBuf]
    exact h.exhausted_of htloop ((hother t htr).symm.trans ht) fun hold => htidle (hbusy t hold)

/-- A step that calls no close callback leaves their number as it is. -/
lemma callsAfter_of_none (h : s.process.callsClose step = none) :
    s.callsAfter step = s.closeCalls := by
  rw [callsAfter, h]

/-- The calls count once more if the close callback is called. -/
lemma callsAfter_of_some (h : s.process.callsClose step = some r) (t : Ref) :
    s.callsAfter step t = if t = r then s.closeCalls r + 1 else s.closeCalls t := by
  rw [callsAfter, h]
  exact Function.update_apply ..

/-- Packages of open connections are not late. -/
lemma handedAfter_of_open (h : ∀ r, s.process.handsOver step = some r →
    (s.process.world.connection r).closed = false) :
    s.handedAfter step = s.handedAfterClose := by
  unfold handedAfter
  split
  · next r hr => rw [if_neg (by simp [h r hr])]
  · rfl

/-- The next statement of `TCPConnection::onClose`. -/
lemma Settled.close {phase : ClosePhase} {recv : RecvResult} (h : Settled s)
    (hstage : s.process.worker n = .onClose r phase back)
    (hworks : Works n (s.process.worker n) s.process.world stage w)
    (hclose : s.process.close n r back phase = .ok (stage, w)) :
    Settled { process := s.process.after n (.ok (stage, w))
              closeCalls := s.callsAfter (.worker n (.goOn recv))
              handedAfterClose := s.handedAfterClose } := by
  have hcloses := h.closes n
  have hreads := h.reads n
  rw [hstage] at hcloses hreads
  have hcalling : s.process.callsClose (.worker n (.goOn recv)) =
      s.process.calling (.onClose r phase back) (.goOn recv) :=
    congrArg (fun stage => s.process.calling stage (.goOn recv)) hstage
  have hbusy : ∀ t, (s.process.worker n).Busy t → back.reads = some t ∨ r = t := by
    intro t ht
    rw [hstage] at ht
    exact ht.imp_right Option.some.inj
  cases phase with
  | unregister =>
    cases hclose
    rw [callsAfter_of_none hcalling]
    exact h.unregister hstage hworks
  | callback =>
    obtain ⟨hback, hclosed, hzero⟩ := hcloses
    rw [Accepting.close, call] at hclose
    split at hclose
    · next hset =>
      cases hclose
      have hcall : s.process.callsClose (.worker n (.goOn recv)) = some r :=
        hcalling.trans (if_pos hset)
      refine h.after_same hworks (fun t => .refl _) (fun t => ?_) hreads ⟨hback, hclosed⟩
        fun t _ ht htidle => ?_
      · rw [callsAfter_of_some hcall]
        by_cases htr : t = r
        · subst htr
          exact Or.inr ⟨rfl, hclosed, by simp [hzero]⟩
        · exact Or.inl (if_neg htr)
      · exact absurd ((hbusy t ht).imp_right (congrArg some)) htidle
    · cases hclose
  | removeTimer =>
    cases hclose
    rw [callsAfter_of_none hcalling]
    refine h.after_same hworks (fun t => ?_) (fun _ => Or.inl rfl) hreads hcloses
      fun t _ ht htidle => ?_
    · rw [removeTimer_connection]
      exact .refl _
    · exact absurd ((hbusy t ht).imp_right (congrArg some)) htidle
  | onDisconnected =>
    cases hclose
    rw [callsAfter_of_none hcalling]
    obtain ⟨hback, hclosed⟩ := hcloses
    refine h.after_same hworks (fun t => ?_) (fun _ => Or.inl rfl) hreads
      (closes_of_closing hback) fun t htopen ht htidle => ?_
    · rw [onDisconnected_connection]
      exact .refl _
    · rcases hbusy t ht with htreads | rfl
      · exact absurd (Or.inl htreads) htidle
      · rw [hclosed] at htopen
        cases htopen

/-- Every step of a worker thread that leaves closed connections alone. -/
theorem Settled.work (h : Settled s)
    (hturn : ConnectionTurn env s.process n (s.process.worker n) move stage w)
    (hworks : Works n (s.process.worker n) s.process.world stage w)
    (hguard : s.process.NothingAfterClose env (.worker n move)) :
    Settled { process := s.process.after n (.ok (stage, w))
              closeCalls := s.callsAfter (.worker n move)
              handedAfterClose := s.handedAfter (.worker n move) } := by
  obtain ⟨hreceives, hrefusal⟩ := hguard
  have hreads := h.reads n
  have hholds := h.sound.holds n
  have hcalling : ∀ {stage move}, s.process.worker n = stage → stage.closing = none →
      s.process.callsClose (.worker n move) = none :=
    fun hstage hclosing => calling_of_closing (hstage ▸ hclosing)
  have hhanding : s.process.handing (s.process.worker n) move = none →
      s.handedAfter (.worker n move) = s.handedAfterClose := by
    intro hnone
    refine handedAfter_of_open fun r hr => ?_
    cases hnone.symm.trans hr
  have hbusy : ∀ {old}, s.process.worker n = old → ∀ {r}, (s.process.worker n).Busy r →
      old.reads = some r ∨ old.closing = some r := by
    rintro old rfl r hr
    exact hr
  generalize hstage : s.process.worker n = old at hturn hreceives hrefusal hreads hholds hhanding
  cases hturn with
  | ordinary hold hclosing hsame hnone hconnection =>
    rw [callsAfter_of_none (hcalling hstage hold), hhanding hnone]
    refine h.goOn hworks hconnection hclosing (fun r hr => ?_) fun r hr => Or.inl ?_
    · rw [hstage, ← hsame]
      exact hr
    · rw [hsame]
      exact (hbusy hstage hr).resolve_right (by simp [hold])
  | refused hold hclosing hsame hnone hconnection hsending hloop hrefused =>
    rw [callsAfter_of_none (hcalling hstage hold), hhanding hnone]
    simp only [RefusalIsLast, hsending] at hrefusal
    obtain ⟨hopen, hexhausted⟩ := hrefusal hloop hrefused
    refine h.startClose hworks hconnection hclosing hopen (fun hr => hexhausted (hsame ▸ hr))
      (fun r hr => Or.inr ?_) fun r hr => Or.inl ?_
    · rw [hstage, ← hsame]
      exact hr
    · rw [hsame]
      exact (hbusy hstage hr).resolve_right (by simp [hold])
  | @eof r batch henabled =>
    rw [callsAfter_of_none (hcalling hstage rfl), hhanding rfl]
    have hidle : ∀ t, ¬ (s.process.worker n).Busy t :=
      fun t ht => (hbusy hstage ht).elim (by simp [WorkerStage.reads]) (by simp [WorkerStage.closing])
    have hopen : (s.process.world.connection r).closed = false :=
      eq_false_of_ne_true fun hclosed => hreceives hclosed henabled
    refine h.startClose hworks (fun t => .refl _) rfl hopen (fun _ => ?_) (fun t ht => Or.inl ?_)
      fun t ht => absurd ht (hidle t)
    · exact h.exhausted_of (hholds r (List.mem_cons_self ..)).2 hopen (hidle r)
    · exact (Option.some.inj ht).symm
  | @data r batch buf henabled =>
    rw [callsAfter_of_none (hcalling hstage rfl), hhanding rfl]
    refine h.after_setRecvBuf hworks (hholds r (List.mem_cons_self ..)).2 rfl rfl
      (fun t _ ht => ?_) fun hclosed => hreceives hclosed henabled
    exact (hbusy hstage ht).elim (by simp [WorkerStage.reads]) (by simp [WorkerStage.closing])
  | @drained r batch recv hnone hexhausted =>
    rw [callsAfter_of_none (hcalling hstage rfl), hhanding hnone]
    refine h.goOn hworks (fun t => .refl _) rfl (fun t ht => by cases ht) fun t ht => Or.inr ?_
    obtain rfl : r = t := Option.some.inj ((hbusy hstage ht).resolve_right (by simp [WorkerStage.closing]))
    exact hexhausted
  | @tooLong r batch recv hnone hexhausted =>
    rw [callsAfter_of_none (hcalling hstage rfl), hhanding hnone]
    have hopen : (s.process.world.connection r).closed = false :=
      eq_false_of_ne_true fun hclosed => hexhausted (hreads r rfl hclosed)
    refine h.startClose hworks (fun t => .refl _) rfl hopen (fun ht => by cases ht)
      (fun t ht => by cases ht) fun t ht => Or.inr ?_
    exact (Option.some.inj ((hbusy hstage ht).resolve_right (by simp [WorkerStage.closing]))).symm
  | @package r batch recv recvBuf hsome hexhausted =>
    have hopen : (s.process.world.connection r).closed = false :=
      eq_false_of_ne_true fun hclosed => hexhausted (hreads r rfl hclosed)
    have hhanded : s.handedAfter (.worker n (.goOn recv)) = s.handedAfterClose := by
      refine handedAfter_of_open fun t ht => ?_
      have hthis : s.process.handing (s.process.worker n) (.goOn recv) = some t := ht
      rw [hstage, hsome] at hthis
      obtain rfl : r = t := Option.some.inj hthis
      exact hopen
    rw [callsAfter_of_none (hcalling hstage rfl), hhanded]
    refine h.after_setRecvBuf hworks (hholds r (List.mem_cons_self ..)).2 rfl rfl
      (fun t htr ht => ?_) fun hclosed => ?_
    · exact htr (Option.some.inj
        ((hbusy hstage ht).resolve_right (by simp [WorkerStage.closing]))).symm
    · rw [hopen] at hclosed
      cases hclosed
  | close hnext =>
    rw [hhanding rfl]
    exact h.close hstage hworks hnext

/-! ## All steps -/

/-- A step of the base thread changes no connection, or makes a new one. -/
lemma Settled.base (h : Settled s) (hsound : Sound p) (hworker : p.worker = s.process.worker)
    (hconnection : ∀ r, p.world.connection r = s.process.world.connection r ∨
      s.process.world.nextRef ≤ r ∧ Exhausted (p.world.connection r).recvBuf)
    (hnext : s.process.world.nextRef ≤ p.world.nextRef) : Settled { s with process := p } := by
  have hheld : ∀ n r, (s.process.worker n).Holds r →
      p.world.connection r = s.process.world.connection r := by
    intro n r hr
    exact (hconnection r).resolve_right fun hnew =>
      absurd (h.sound.holds n r hr).1 (not_lt.mpr hnew.1)
  refine ⟨hsound, fun n r hr hclosed => ?_, fun n => ?_, fun r hr => ?_, fun r hr => ?_,
    fun r hr hidle => ?_, h.terminal⟩
  · simp only [hworker] at hr
    simp only [hheld n r (WorkerStage.holds_of_reads hr)] at hclosed ⊢
    exact h.reads n r hr hclosed
  · simp only [hworker]
    refine (h.closes n).congr (fun r hr => ?_) fun _ _ => rfl
    rw [hheld n r hr]
    exact .refl _
  · rcases hconnection r with hsame | ⟨hfresh, -⟩
    · exact h.calls_of_open r (hsame ▸ hr)
    · exact h.calls_fresh r hfresh
  · exact h.calls_fresh r (hnext.trans hr)
  · simp only [hworker] at hidle
    rcases hconnection r with hsame | ⟨-, hexhausted⟩
    · have hopen : (p.world.connection r).closed = false := hr
      rw [hsame] at hopen
      simp only [hsame]
      exact h.exhausted r hopen hidle
    · exact hexhausted

/-- Every step that leaves closed connections alone. -/
theorem Settled.next (h : Settled s) (hguard : s.process.NothingAfterClose env step)
    (hstep : s.next env step = some s') : Settled s' := by
  obtain ⟨p, hp, rfl⟩ := Option.map_eq_some_iff.mp hstep
  have hsound : Sound p := h.sound.next hp
  obtain ⟨-, ⟨fd, rfl, -, rfl⟩ | ⟨order, rfl, hconnect⟩ | ⟨w, rfl, -, hok, rfl⟩ |
    ⟨n, move, result, rfl, -, hwork, rfl⟩⟩ := next_cases hp
  · refine h.base hsound rfl (fun r => ?_) (Nat.le_succ _)
    by_cases hr : r = s.process.world.nextRef
    · subst hr
      refine Or.inr ⟨le_rfl, ?_⟩
      rw [onAccept_connection_self]
      exact exhausted_empty
    · exact Or.inl (onAccept_connection fd hr)
  · have hprepares := prepares_connect h.sound hconnect
    exact h.base hsound hprepares.worker (fun r => Or.inl (congrFun hprepares.connection r))
      hprepares.nextRef.ge
  · have hconnection : w.connection = s.process.world.connection :=
      checkHandup_connection (fun t ht => h.sound.pointed.loop t
        (h.sound.wellFormed.owned_lt t (List.mem_append_left _ ht))) hok
    exact h.base hsound rfl (fun r => Or.inl (congrFun hconnection r))
      (Process.affects_checkHandup hok).nextRef.ge
  · cases result with
    | error c =>
      obtain ⟨hcalling, hhanding⟩ := calling_of_error hwork
      have hnone : s.process.callsClose (.worker n move) = none := hcalling
      rw [callsAfter_of_none hnone, handedAfter_of_open fun r hr => by
        cases hhanding.symm.trans hr]
      exact h.base hsound rfl (fun r => Or.inl rfl) le_rfl
    | ok result =>
      exact h.work (turn_of_work hwork)
        (works_work h.sound.wellFormed h.sound.pointed (h.sound.holds n) hwork) hguard

/-- **In a run in which no closed connection of the current batch receives more, no message to a
closed connection is refused, and no refused reply leaves a package behind, a closed connection is
left alone: no package of it is handed over, and its close callback is called only once.** -/
theorem closedIsTerminal (h : (system env).ReachableUnder
    (fun s step => s.process.NothingAfterClose env step) s) : s.Terminal := by
  refine (h.invariant (P := Settled) ?_ fun _ _ _ h hguard hstep => h.next hguard hstep).terminal
  rintro s ⟨threadNum, -, rfl⟩
  exact settled_start threadNum

/-! ## Runs on fixed inputs -/

/-- The process after a list of steps, with one worker thread. -/
def run (env : Environment) (steps : List AcceptingStep) : Watched :=
  TransitionSystem.runAll (next env) (start 1) steps

lemma reachableUnder_run {C : Watched → AcceptingStep → Prop}
    [∀ s step, Decidable (C s step)] {steps : List AcceptingStep}
    (h : TransitionSystem.follows (next env) C (start 1) steps = true) :
    (system env).ReachableUnder C (run env steps) :=
  TransitionSystem.ReachableUnder.runAll (fun _ _ _ => id) (.init ⟨1, by decide, rfl⟩) h

/-- A client connects and hangs up. -/
def hangsUp : List AcceptingStep :=
  [.accept 5] ++ connects 8 ++ receives .eof ++ goesOn 6

/-- The close callback has been called, although `onRead` goes on at the end of the stream. -/
theorem closedIsTerminal_hangsUp : (run calm hangsUp).closeCalls 0 = 1 ∧
    (run calm hangsUp).process.worker 0 = .writing 0 [] ∧ (run calm hangsUp).Terminal :=
  ⟨by decide, by decide, closedIsTerminal (reachableUnder_run (by decide))⟩

/-- The kernel refuses every message. -/
def resetByPeer : Environment :=
  { calm with send := fun _ => [.error (.other 104)] }

/-- Two packages arrive at once, and the reply to the first one is refused: the second one is
handed over after `onClose`. -/
def repliesToReset : List AcceptingStep :=
  [.accept 5] ++ connects 8 ++ receives (.data (ascii "!a\n!b\n")) ++ goesOn 2 ++
    [.worker 0 (.send 0 wrongAnswer)] ++ goesOn 5

/-- A package is handed over after the reply to the package before it has closed the
connection. -/
theorem exists_package_after_close : ¬ ∀ env s, (system env).Reachable s → s.Terminal := by
  intro h
  have hreach : (system resetByPeer).Reachable (run resetByPeer repliesToReset) :=
    reachableUnder_run (by decide)
  have hnone := (h resetByPeer _ hreach).1
  exact absurd hnone (by decide)

end Watched

end Calc24
