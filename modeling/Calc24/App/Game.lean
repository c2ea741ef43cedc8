import Calc24.App.Broadcast
import Calc24.App.Lobby

/-!
# The server plays the game

The threads of the server, with everything that they do to connections, timers and queues, refine
the game of `Lobby` (`refines_lobby`): the players are the registered sessions, and every step of
every interleaving is a move of the game after some players may have left.  The steps are those of
`Process`: the count of the ready players and the deal are one step, so nobody leaves or is put back
to idle in between; `Counting` shows what the moves become when somebody does.  Most steps are no
move at all.  A connect is an arrival, a package that starts with `!ready` makes its sender ready,
the callback that checks for players deals if it finds enough of them, and the last one of the three
steps of a right answer empties the desk.

What is true of tables in the game is therefore true of desks on the server (`desk_of_run`).
-/

namespace Calc24

namespace World

variable {env : Environment} {cur l : LoopId} {n : ℕ} {r t : Ref} {batch : List Ref} {A : Set Ref}
  {w w₁ w' : World} {stage stage' : Stage} {input : Input}

/-- The registered sessions. -/
def players (w : World) : Set Ref :=
  {r | r ∈ w.sessions.map Prod.snd}

/-- The state of the game. -/
def lobby (w : World) : Lobby Ref Int64 where
  players := w.players
  status r := (w.session r).status
  desk r := (w.session r).deskID
  lastDesk := w.deskBaseId

@[simp] lemma lobby_status : w.lobby.status r = (w.session r).status := rfl

@[simp] lemma lobby_desk : w.lobby.desk r = (w.session r).deskID := rfl

/-- Those who have left between two states. -/
def left (w w' : World) : Set Ref :=
  w.players \ w'.players

/-! ## Steps that are no move -/

/-- The game does not see anything but sessions, the map and the desk counter. -/
lemma lobby_eq (hsession : w'.session = w.session) (hsessions : w'.sessions = w.sessions)
    (hdeskBaseId : w'.deskBaseId = w.deskBaseId) : w'.lobby = w.lobby := by
  rw [lobby, lobby, players, players, hsession, hsessions, hdeskBaseId]

/-- If nobody leaves, nobody has left. -/
lemma depart_left_of_players_eq (h : w'.players = w.players) :
    w.lobby.depart (w.left w') = w.lobby := by
  rw [left, h, sdiff_self]
  simp [Lobby.depart]

/-- Sends may close sessions, and nothing else happens in the game. -/
lemma Touches.lobby_eq (h : Touches A w w') : w'.lobby = w.lobby.depart (w.left w') := by
  have hplayers : w'.players ⊆ w.players := fun t ht => (h.sessions.map Prod.snd).subset ht
  refine Lobby.ext (sdiff_sdiff_eq_self hplayers).symm ?_ ?_ h.deskBaseId
  · funext t
    simp [Lobby.depart, h.session]
  · funext t
    simp [Lobby.depart, h.session]

/-! ## The deal -/

/-- The body of the second loop of the callback that checks for players. -/
lemma not_ready_foldl {cards : Bytes} {deskID : Int64} (refs : List Ref) (w : World)
    (ht : t ∈ refs ∨ (w.session t).status ≠ .READY) :
    ((refs.foldl (fun w r => if (w.session r).status = .READY then w.sendCards env cur r cards deskID
      else w) w).session t).status ≠ .READY := by
  induction refs generalizing w with
  | nil => exact ht.resolve_left List.not_mem_nil
  | cons r refs ih =>
    rw [List.foldl_cons]
    apply ih
    refine or_iff_not_imp_left.mpr fun hrest => ?_
    have hother : t ≠ r → (w.session t).status ≠ .READY := fun hne =>
      ht.resolve_left fun hmem => (List.mem_cons.mp hmem).elim hne hrest
    split
    · -- the session that is dealt to is not ready any more, and the others stay as they are
      have hsession : (w.sendMsg env cur r cards).session = w.session :=
        (touches_sendMsg (A := {r}) _ rfl).session
      by_cases hr : t = r
      · subst hr
        simp [sendCards, modifySession]
      · have hsame : (w.sendCards env cur r cards deskID).session t = w.session t := by
          simp only [sendCards, modifySession, Function.update_of_ne hr]
          exact congrFun hsession t
        rw [hsame]
        exact hother hr
    · next hnot =>
      by_cases hr : t = r
      · exact hr ▸ hnot
      · exact hother hr

/-- A deal deals to every registered session that is ready. -/
lemma dealt_of_checkHandup (h : w.checkHandup env cur = .ok w')
    (hmany : REQUIRED_MIN_READY_COUNT ≤ w.readySessionCount) (ht : t ∈ w.players)
    (hready : (w.session t).status = .READY) :
    w'.session t = { w.session t with deskID := w.deskBaseId + 1, status := .IN_GAME } := by
  rcases checkHandup_cases h with ⟨hfew, -⟩ | ⟨-, -, -, hdeals⟩
  · exact absurd hmany (not_le.mpr hfew)
  · rcases hdeals.place t with hsame | ⟨-, -, hdealt⟩
    · rw [checkHandup, if_neg (not_lt.mpr hmany)] at h
      have hend := (forEachSession_eq_ok_iff.mp h).2
      have hnot : (w'.session t).status ≠ .READY := by
        rw [hend]
        exact not_ready_foldl _ _ (Or.inl ht)
      rw [hsame] at hnot
      exact absurd hready hnot
    · exact hdealt

/-- Enough players are at least two. -/
lemma waiting_nontrivial (hwf : WellFormed w)
    (hmany : REQUIRED_MIN_READY_COUNT ≤ w.readySessionCount) : w.lobby.waiting.Nontrivial := by
  rw [readySessionCount, List.countP_eq_length_filter] at hmany
  set ready := w.sessions.filter fun entry => (w.session entry.2).status = .READY with hready
  have hnodup : (ready.map Prod.snd).Nodup :=
    hwf.refs_nodup.sublist (List.filter_sublist.map Prod.snd)
  have hwaiting : ∀ entry ∈ ready, entry.2 ∈ w.lobby.waiting := by
    intro entry hentry
    obtain ⟨hmem, hstatus⟩ := List.mem_filter.mp hentry
    exact ⟨List.mem_map_of_mem hmem, of_decide_eq_true hstatus⟩
  clear_value ready
  match ready, hmany with
  | entry :: entry' :: rest, _ =>
    have hne : entry.2 ≠ entry'.2 := by
      intro heq
      simp [heq] at hnodup
    exact ⟨entry.2, hwaiting entry (by simp), entry'.2, hwaiting entry' (by simp), hne⟩

/-- A deal is a deal. -/
lemma lobby_checkHandup (h : w.checkHandup env cur = .ok w')
    (hmany : REQUIRED_MIN_READY_COUNT ≤ w.readySessionCount) :
    w'.players = w.players ∧ w'.lobby = w.lobby.play .deal := by
  rcases checkHandup_cases h with ⟨hfew, -⟩ | ⟨-, hsessions, hdeskBaseId, hdeals⟩
  · exact absurd hmany (not_le.mpr hfew)
  · have hplayers : w'.players = w.players := by rw [players, hsessions, players]
    -- exactly those who wait change their place
    have hsession : ∀ t, (t ∈ w.lobby.waiting → w'.session t =
        { w.session t with deskID := w.deskBaseId + 1, status := .IN_GAME }) ∧
        (t ∉ w.lobby.waiting → w'.session t = w.session t) := by
      intro t
      refine ⟨fun ht => dealt_of_checkHandup h hmany ht.1 ht.2, fun ht => ?_⟩
      rcases hdeals.place t with hsame | ⟨hmem, hready, -⟩
      · exact hsame
      · exact absurd ⟨hmem, hready⟩ ht
    refine ⟨hplayers, Lobby.ext hplayers ?_ ?_ hdeskBaseId⟩
    · funext t
      simp only [Lobby.play, lobby_status]
      split
      · next ht => rw [(hsession t).1 ht]
      · next ht => rw [(hsession t).2 ht]
    · funext t
      simp only [Lobby.play, lobby_desk]
      split
      · next ht =>
        rw [(hsession t).1 ht]
        rfl
      · next ht => rw [(hsession t).2 ht]

/-! ## The other moves -/

/-- The last part of an answer empties the desk. -/
lemma lobby_resetDesk (h : w.resetDesk env cur r = .ok w') :
    w'.players = w.players ∧ w'.lobby = w.lobby.play (.answer r) := by
  obtain ⟨hresets, hisReset⟩ := resetDesk_cases h
  have hplayers : w'.players = w.players := by rw [players, hresets.sessions, players]
  have hplace : ∀ t, (t ∈ w.lobby.table (w.lobby.desk r) → IsReset w' t) ∧
      (t ∉ w.lobby.table (w.lobby.desk r) → w'.session t = w.session t) :=
    fun t => ⟨fun ht => hisReset t ht.1 ht.2, fun ht => hresets.session t ht⟩
  refine ⟨hplayers, Lobby.ext hplayers ?_ ?_ hresets.deskBaseId⟩
  · funext t
    by_cases ht : t ∈ w.lobby.table (w.lobby.desk r)
    · simp only [Lobby.play, if_pos ht]
      exact ((hplace t).1 ht).2
    · simp only [Lobby.play, if_neg ht, lobby_status]
      rw [(hplace t).2 ht]
  · funext t
    by_cases ht : t ∈ w.lobby.table (w.lobby.desk r)
    · simp only [Lobby.play, if_pos ht]
      exact ((hplace t).1 ht).1
    · simp only [Lobby.play, if_neg ht]
      rw [lobby_desk, (hplace t).2 ht]
      rfl

lemma lobby_ready : (w.modifySession r fun s => { s with status := .READY }).lobby =
    w.lobby.play (.ready r) := by
  refine Lobby.ext rfl ?_ ?_ rfl
  · funext t
    by_cases ht : t = r <;> simp [Lobby.play, modifySession, ht]
  · funext t
    by_cases ht : t = r <;> simp [Lobby.play, modifySession, ht]

/-- The new session is registered. -/
lemma mem_players_connect {fd : ℕ} {order : List (Int32 × Ref)}
    (h : (w.onAccept fd).onConnected env cur r order = .ok w') : r ∈ w'.players := by
  obtain ⟨-, sessions, rfl, hperm⟩ := emplace_cases h
  exact (hperm.map Prod.snd).mem_iff.mpr (List.mem_cons_self ..)

/-- A connect is an arrival. -/
lemma lobby_connect (h : Connects r w w') (hr : r ∈ w'.players) :
    w'.lobby = (w.lobby.depart (w.left w')).play (.join r) := by
  refine Lobby.ext ?_ ?_ ?_ h.deskBaseId
  · have hplayers : w'.players ⊆ insert r w.players := by
      intro t ht
      obtain ⟨entry, hentry, rfl⟩ := List.mem_map.mp ht
      exact (h.sessions entry hentry).imp_right fun hold => List.mem_map_of_mem hold
    change w'.players = insert r (w.players \ (w.players \ w'.players))
    rw [sdiff_sdiff_right_self]
    ext t
    constructor
    · intro ht
      exact (hplayers ht).imp_right fun hold => ⟨hold, ht⟩
    · rintro (rfl | ⟨-, ht⟩)
      · exact hr
      · exact ht
  · funext t
    simp only [Lobby.play, Lobby.depart, lobby_status]
    split
    · next ht => exact ht ▸ h.isReset.2
    · next ht => rw [h.session t ht]
  · funext t
    simp only [Lobby.play, Lobby.depart, lobby_desk]
    split
    · next ht => exact ht ▸ h.isReset.1
    · next ht => rw [h.session t ht]

end World

namespace World

variable {env : Environment} {n : ℕ} {r : Ref} {batch : List Ref} {w w' : World}
  {stage stage' : Stage} {input : Input}

/-- The move that a worker thread makes in the game. -/
def moveOf (w : World) : Stage → GameMove Ref
  | .reading r _ =>
    if (w.nextPackage r).1 = .success ∧ IsReadyCmd (w.nextPackage r).2.2 then .ready r else .pass
  | .notified r _ => .answer r
  | _ => .pass

/-- A step that nobody sees in the game. -/
lemma lobby_eq_depart (hsession : w'.session = w.session) (hsessions : w'.sessions = w.sessions)
    (hdeskBaseId : w'.deskBaseId = w.deskBaseId) : w'.lobby = w.lobby.depart (w.left w') := by
  have hplayers : w'.players = w.players := by rw [players, hsessions, players]
  rw [depart_left_of_players_eq hplayers]
  exact lobby_eq hsession hsessions hdeskBaseId

/-- A round of `Calc24Session::onRead`. -/
lemma lobby_decode (h : w.decode env n r batch = some (stage', w')) :
    w'.lobby = (w.lobby.depart (w.left w')).play (w.moveOf (.reading r batch)) := by
  have hpass : ¬ ((w.nextPackage r).1 = .success ∧ IsReadyCmd (w.nextPackage r).2.2) →
      w'.lobby = w.lobby.depart (w.left w') →
      w'.lobby = (w.lobby.depart (w.left w')).play (w.moveOf (.reading r batch)) := by
    intro hno hlobby
    rw [moveOf, if_neg hno]
    exact hlobby
  unfold decode at h
  split at h
  · next hnext =>
    obtain ⟨-, rfl⟩ := Prod.mk.inj (Option.some.inj h)
    exact hpass (by simp [hnext]) (lobby_eq_depart rfl rfl rfl)
  · next hnext =>
    obtain ⟨-, rfl⟩ := Prod.mk.inj (Option.some.inj h)
    have htouches : Touches {r} w (w.forceClose (.worker n) r) := touches_onClose rfl
    exact hpass (by simp [hnext]) htouches.lobby_eq
  · next recvBuf package hnext =>
    -- the game does not see what is taken off the buffer
    have hreceived : ∀ {A : Set Ref}, Touches A (w.setRecvBuf r recvBuf) w' →
        w'.lobby = w.lobby.depart (w.left w') := fun htouches => htouches.lobby_eq
    dsimp only at h
    split at h
    · next hanswer =>
      subst hanswer
      obtain ⟨-, rfl⟩ := Prod.mk.inj (Option.some.inj h)
      have hno : ¬ IsReadyCmd answerCmd := by decide
      exact hpass (by simp [hnext, hno]) (hreceived (touches_sendMsg (A := {r}) _ rfl))
    · next hanswer =>
      obtain ⟨w₁, hok, heq⟩ := TransitionSystem.exists_ok_of_toOption_map h
      obtain ⟨-, rfl⟩ := Prod.mk.inj heq
      rcases processPackage_cases hok with ⟨-, hno, htouches⟩ | ⟨hready, rfl⟩ | ⟨heq, -⟩
      · exact hpass (by simp [hnext, hno]) (hreceived htouches)
      · have hplayers : ((w.setRecvBuf r recvBuf).modifySession r
            fun s => { s with status := .READY }).players = w.players := rfl
        rw [moveOf, if_pos (by simp [hnext, hready]), depart_left_of_players_eq hplayers]
        exact lobby_ready (w := w.setRecvBuf r recvBuf)
      · exact absurd heq hanswer

/-- A step of a worker thread. -/
lemma lobby_work (hidle : ∀ l, (w.loop l).timers.isCheckTimers = false)
    (h : w.work env n input stage = some (stage', w')) :
    w'.lobby = (w.lobby.depart (w.left w')).play (w.moveOf stage) := by
  cases stage with
  | timers =>
    obtain ⟨-, rfl⟩ := Prod.mk.inj (Option.some.inj h)
    exact (touches_checkAndDoTimers _ (hidle _)).lobby_eq
  | poll =>
    rw [work] at h
    split at h
    · obtain ⟨-, rfl⟩ := Prod.mk.inj (Option.some.inj h)
      have hfold : ∀ w₁ : World, w₁ = input.events.foldl (fun w event => w.enableReadWrite event) w →
          w₁.session = w.session ∧ w₁.sessions = w.sessions ∧ w₁.deskBaseId = w.deskBaseId := by
        rintro w₁ rfl
        exact List.foldlRecOn (motive := fun w₁ : World =>
          w₁.session = w.session ∧ w₁.sessions = w.sessions ∧ w₁.deskBaseId = w.deskBaseId) _ _
          ⟨rfl, rfl, rfl⟩ fun w₁ hw₁ event _ => hw₁
      obtain ⟨hsession, hsessions, hdeskBaseId⟩ := hfold _ rfl
      exact lobby_eq_depart hsession hsessions hdeskBaseId
    · cases h
  | dispatch batch =>
    cases batch with
    | nil =>
      obtain ⟨-, rfl⟩ := Prod.mk.inj (Option.some.inj h)
      exact lobby_eq_depart rfl rfl rfl
    | cons r batch =>
      have hclosed : Touches {r} w (w.onClose (.worker n) r) := touches_onClose rfl
      have hreceive : w.receive n r batch input.recv = (stage', w') := Option.some.inj h
      unfold receive at hreceive
      split at hreceive
      · obtain ⟨-, rfl⟩ := Prod.mk.inj hreceive
        exact lobby_eq_depart rfl rfl rfl
      · split at hreceive
        · obtain ⟨-, rfl⟩ := Prod.mk.inj hreceive
          exact hclosed.lobby_eq
        · obtain ⟨-, rfl⟩ := Prod.mk.inj hreceive
          exact lobby_eq_depart rfl rfl rfl
        · obtain ⟨-, rfl⟩ := Prod.mk.inj hreceive
          exact lobby_eq_depart rfl rfl rfl
  | reading r batch => exact lobby_decode h
  | answered r batch =>
    obtain ⟨w₁, hok, heq⟩ := TransitionSystem.exists_ok_of_toOption_map h
    obtain ⟨-, rfl⟩ := Prod.mk.inj heq
    exact (touches_sendAll hok).1.lobby_eq
  | notified r batch =>
    obtain ⟨w₁, hok, heq⟩ := TransitionSystem.exists_ok_of_toOption_map h
    obtain ⟨-, rfl⟩ := Prod.mk.inj heq
    obtain ⟨hplayers, hlobby⟩ := lobby_resetDesk hok
    rw [depart_left_of_players_eq hplayers]
    exact hlobby
  | closing r eof batch =>
    cases eof with
    | true =>
      obtain ⟨-, rfl⟩ := Prod.mk.inj (Option.some.inj h)
      exact lobby_eq_depart rfl rfl rfl
    | false =>
      obtain ⟨-, rfl⟩ := Prod.mk.inj (Option.some.inj h)
      exact lobby_eq_depart rfl rfl rfl
  | writing r batch =>
    obtain ⟨-, rfl⟩ := Prod.mk.inj (Option.some.inj h)
    exact lobby_eq_depart rfl rfl rfl
  | tasks remaining =>
    cases remaining with
    | nil =>
      obtain ⟨-, rfl⟩ := Prod.mk.inj (Option.some.inj h)
      exact lobby_eq_depart rfl rfl rfl
    | cons task rest =>
      obtain ⟨-, rfl⟩ := Prod.mk.inj (Option.some.inj h)
      cases task with
      | send r buf =>
        have htouches : Touches {r} w (runTask env (.worker n) w (.send r buf)) :=
          (touches_log _).trans (touches_send buf rfl)
        exact htouches.lobby_eq
      | addTimerInternal spTimer =>
        rw [runTask, addTimerInternal, if_pos rfl]
        exact lobby_eq_depart rfl rfl rfl
      | removeTimerInternal timerID =>
        have htouches : Touches ∅ w (runTask env (.worker n) w (.removeTimerInternal timerID)) :=
          touches_removeTimer timerID
        exact htouches.lobby_eq

end World

namespace Process

open World

variable {env : Environment} {s s' : Process} {step : Step} {n : ℕ}

/-- The state of the game. -/
def lobby (s : Process) : Lobby Ref Int64 :=
  s.world.lobby

/-- The move that a step makes in the game. -/
def moveOf (s : Process) : Step → GameMove Ref
  | .connect _ _ => .join s.world.nextRef
  | .checkHandup =>
    if REQUIRED_MIN_READY_COUNT ≤ s.world.readySessionCount then .deal else .pass
  | .worker n _ => s.world.moveOf (s.stage n)

/-- The step of the game that a step stands for: who leaves, and the move. -/
def gameStep (s : Process) (step : Step) (s' : Process) : Set Ref × GameMove Ref :=
  (s.world.left s'.world, s.moveOf step)

/-- **The server refines the game.**  In every interleaving of the steps of the threads, where the
callback that counts and deals is one of them, every step is the step of the game that `gameStep`
names. -/
theorem refines_lobby (env : Environment) :
    (interleaved env).Refines Lobby.system lobby gameStep := by
  constructor
  · rintro s ⟨threadNum, -, rfl⟩
    exact Set.eq_empty_of_forall_notMem fun t => List.not_mem_nil
  · intro s step s' hreach hstep
    have hsound := sound_reachable hreach
    rcases next_cases hstep with ⟨fd, order, w, rfl, hok, rfl⟩ | ⟨w, rfl, hok, rfl⟩ |
      ⟨n, input, stage, w, rfl, -, hwork, rfl⟩
    · refine ⟨?_, lobby_connect (connect_cases hsound.wellFormed hok) (mem_players_connect hok)⟩
      rintro ⟨hplayer, -⟩
      exact absurd (hsound.wellFormed.owned_lt _ (List.mem_append_left _ hplayer)) (lt_irrefl _)
    · by_cases hmany : REQUIRED_MIN_READY_COUNT ≤ s.world.readySessionCount
      · obtain ⟨hplayers, hlobby⟩ := lobby_checkHandup hok hmany
        have hmove : s.moveOf .checkHandup = .deal := if_pos hmany
        have hdepart : s.lobby.depart (s.world.left w) = s.lobby :=
          depart_left_of_players_eq hplayers
        rw [gameStep, hmove]
        refine ⟨?_, ?_⟩
        · simp only [hdepart]
          exact waiting_nontrivial hsound.wellFormed hmany
        · simp only [hdepart]
          exact hlobby
      · have hmove : s.moveOf .checkHandup = .pass := if_neg hmany
        rcases checkHandup_cases hok with ⟨-, rfl⟩ | ⟨hmany', -⟩
        · rw [gameStep, hmove]
          exact ⟨trivial, lobby_eq_depart rfl rfl rfl⟩
        · exact absurd hmany' hmany
    · refine ⟨?_, lobby_work hsound.idle hwork⟩
      cases hstage : s.stage n <;> simp only [gameStep, moveOf, World.moveOf, hstage] <;>
        try trivial
      split <;> trivial

/-- The registered sessions that sit at a desk. -/
def atDesk (d : Int64) (s : Process) : Set Ref :=
  {r | r ∈ s.world.sessions.map Prod.snd ∧ (s.world.session r).deskID = d}

/-- The step does not hand out the desk id. -/
def DealsElsewhere (d : Int64) (s : Process) (step : Step) : Prop :=
  step = .checkHandup → REQUIRED_MIN_READY_COUNT ≤ s.world.readySessionCount →
    s.world.deskBaseId + 1 ≠ d

instance (d : Int64) (s : Process) (step : Step) : Decidable (DealsElsewhere d s step) :=
  inferInstanceAs (Decidable (_ → _ → _))

/-- A step that does not hand out the desk id is not a deal at the desk. -/
lemma DealsElsewhere.keepsDesk {d : Int64} (h : DealsElsewhere d s step) (s' : Process) :
    Lobby.KeepsDesk d s.lobby (s.gameStep step s') := by
  intro hdeal
  cases step with
  | connect fd order => cases hdeal
  | checkHandup =>
    refine h rfl ?_
    by_contra hfew
    rw [gameStep, moveOf, if_neg hfew] at hdeal
    cases hdeal
  | worker n input =>
    simp only [gameStep, moveOf] at hdeal
    cases hstage : s.stage n <;> simp only [World.moveOf, hstage] at hdeal <;> try cases hdeal
    split at hdeal <;> cases hdeal

/-- **A table only loses players.**  In every interleaving of the steps, where a deal is one of
them, for as long as a desk id is not handed out again, nobody joins the sessions that sit at the
desk; and once the answer of one of them has been handled to the end, nobody sits there any more. -/
theorem atDesk_of_run (h : (interleaved env).Reachable s) {d : Int64} (hd : d ≠ 0)
    (hstep : s.next env step = some s') {tr : List (Step × Process)}
    (hrun : (interleaved env).Run s' tr)
    (hguard : TransitionSystem.Guarded (DealsElsewhere d) s ((step, s') :: tr)) :
    (TransitionSystem.last s' tr).atDesk d ⊆ s.atDesk d ∧
      ∀ n input r batch, step = .worker n input → s.stage n = .notified r batch →
        (s.world.session r).deskID = d → (TransitionSystem.last s' tr).atDesk d = ∅ := by
  have hrefines := refines_lobby env
  have hkeeps : TransitionSystem.Guarded (Lobby.KeepsDesk d) s'.lobby
      (TransitionSystem.image lobby gameStep s' tr) :=
    (TransitionSystem.guarded_image s' tr).mpr
      (TransitionSystem.along_of_guarded (fun s step s' hC => hC.keepsDesk s') hguard.2)
  have hlobbyStep := hrefines.step s step s' h hstep
  have hlobbyRun := hrefines.run (h.tail hstep) hrun
  have hlast : (TransitionSystem.last s'.lobby (TransitionSystem.image lobby gameStep s' tr)) =
      (TransitionSystem.last s' tr).lobby := TransitionSystem.last_image s' tr
  constructor
  · have hshrinks := (Lobby.table_subset_of_run hd hlobbyRun hkeeps).trans
      (Lobby.table_subset_of_step hd hlobbyStep (hguard.1.keepsDesk s'))
    rw [hlast] at hshrinks
    exact hshrinks
  · rintro n input r batch rfl hstage hdesk
    have hmove : s.moveOf (.worker n input) = .answer r := by rw [moveOf, hstage]; rfl
    rw [gameStep, hmove] at hlobbyStep
    have hempty := Lobby.table_eq_empty_of_answered hd hlobbyStep hdesk hlobbyRun hkeeps
    rw [hlast] at hempty
    exact hempty

/-- A step that can be taken leads to where executing it leads. -/
lemma next_eq_runSteps (h : (s.next env step).isSome = true) :
    s.next env step = some (runSteps env s [step]) := by
  obtain ⟨s', hs'⟩ := Option.isSome_iff_exists.mp h
  have hrun : runSteps env s [step] = runSteps env s' [] := TransitionSystem.runAll_cons hs'
  rw [hs', hrun]
  rfl

/-- Two players are dealt to, and the first one has answered and the other one has been told. -/
def told : List Step :=
  [.connect 5 [], .connect 6 [],
    goOn 0, pollRead 0 0, recvText 0 "!ready\n!xyz\n", goOn 0,
    goOn 1, pollRead 1 1, recvText 1 "!ready\n", goOn 1, .checkHandup, goOn 0, goOn 0]

/-- The state after the desk has been emptied. -/
def emptied : Process :=
  runSteps calm (runSteps calm (start 2) told) [goOn 0]

/-- When both threads have gone on, nobody sits at the first desk. -/
theorem atDesk_of_run_told :
    (TransitionSystem.last emptied
      (TransitionSystem.states (fun s step => s.next calm step) emptied [goOn 0, goOn 1])).atDesk 1 =
      ∅ := by
  have hreach : (interleaved calm).Reachable (runSteps calm (start 2) told) :=
    reachableUnder_runSteps (.init ⟨2, by decide, rfl⟩) (by decide)
  have hstep : (runSteps calm (start 2) told).next calm (goOn 0) = some emptied :=
    next_eq_runSteps (by decide)
  have hfollows : follows (DealsElsewhere 1) calm emptied [goOn 0, goOn 1] = true := by decide
  obtain ⟨hrun, hguarded⟩ :=
    TransitionSystem.run_states (T := interleaved calm) (fun _ _ _ => id) hfollows
  exact (atDesk_of_run hreach (by decide) hstep hrun ⟨by decide, hguarded⟩).2 0 {} 0 [] rfl
    (by decide) (by decide)

end Process

end Calc24
