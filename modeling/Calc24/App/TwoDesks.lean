import Calc24.App.Table

/-!
# Games at several desks

A right answer ends the game at the desk of the session that gives it.  With a kernel that takes
every message it does nothing else: the registered sessions at the desk are idle and without a
desk afterwards, and every other session has the status and the desk that it had (`EndsDesk`).

Answers of sessions at different desks therefore end one game each, in whatever order they are
processed (`endsDesks_answers`), and two of them commute (`answersCommute`).
-/

namespace Calc24

namespace World

open Tables

variable {env : Environment} {cur : LoopId} {a b r t : Ref} {w w' : World} {refs : List Ref}

/-- The status and the desk of a session. -/
def place (w : World) (r : Ref) : SessionStatus × Int64 :=
  ((w.session r).status, (w.session r).deskID)

/-- The sessions that are registered and sit at the desk of one of `refs`. -/
def SitsWith (refs : List Ref) (w : World) (t : Ref) : Prop :=
  t ∈ w.sessions.map Prod.snd ∧ ∃ r ∈ refs, (w.session t).deskID = (w.session r).deskID

instance (refs : List Ref) (w : World) (t : Ref) : Decidable (SitsWith refs w t) :=
  inferInstanceAs (Decidable (_ ∧ _))

/-- The games at the desks of `refs` have ended, and nothing else has happened to the status and
the desk of any session. -/
structure EndsDesks (refs : List Ref) (w w' : World) : Prop where
  sessions : w'.sessions = w.sessions
  place : ∀ t, w'.place t = if SitsWith refs w t then (.IDLE, 0) else w.place t

variable (env) in
/-- The right answers of some sessions, processed one after another. -/
def answers : World → List Ref → Except Fault World
  | w, [] => .ok w
  | w, r :: refs => do
    let w ← (Operation.package r answerCmd).perform env w
    answers w.settle refs

/-- The right answers of `a` and of `b` can be processed in both orders.  Both give every session
the same status and desk: the registered sessions at the two desks are idle and without a desk, and
all others are as they were. -/
def AnswersCommute (env : Environment) (w : World) (a b : Ref) : Prop :=
  ∃ w₁ w₂, w.answers env [a, b] = .ok w₁ ∧ w.answers env [b, a] = .ok w₂ ∧
    (∀ t, w₁.place t = w₂.place t) ∧
    (∀ t ∈ w.sessions.map Prod.snd,
      (w.session t).deskID = (w.session a).deskID ∨ (w.session t).deskID = (w.session b).deskID →
        w₁.place t = (.IDLE, 0)) ∧
    ∀ t, ¬ (t ∈ w.sessions.map Prod.snd ∧
      ((w.session t).deskID = (w.session a).deskID ∨
        (w.session t).deskID = (w.session b).deskID)) → w₁.place t = w.place t

/-! ## One answer -/

/-- A message that the kernel takes leaves the map as it was. -/
lemma sendMsg_sessions (hsends : SendsSucceed env) {msg : Bytes} (hmsg : 0 < msg.length) :
    (w.sendMsg env cur r msg).sessions = w.sessions := by
  have haccepted : ¬ Refused env (w.log (.sent r msg)) r msg := by
    rw [Refused, Bool.not_eq_true]
    apply hsends
    omega
  rcases send_cases env cur r msg (w.log (.sent r msg)) with
    ⟨-, hqueued⟩ | ⟨-, -, p, -, -, hflushed⟩ | ⟨-, hrefused, -⟩
  · rw [sendMsg, hqueued]
    rfl
  · rw [sendMsg, hflushed]
    rfl
  · exact absurd hrefused haccepted

/-- The package `!xyz` is handled in three parts. -/
lemma processPackage_answerCmd (env : Environment) (cur : LoopId) (r : Ref) (w : World) :
    w.processPackage env cur r answerCmd =
      (w.answer env cur r).notifyOthers env cur r >>= fun w => w.resetDesk env cur r := by
  have hready : ¬ IsReadyCmd answerCmd := by decide
  have hcmd : answerCmd = 33 :: answerCmd.tail := by decide
  rw [hcmd, processPackage, ← hcmd, if_neg (not_not.mpr rfl), processCmd, if_neg hready, if_pos rfl]

/-- A reset of a desk ends the game there. -/
lemma endsDesks_resetDesk (hok : w.resetDesk env cur r = .ok w') : EndsDesks [r] w w' := by
  obtain ⟨hresets, hreset⟩ := resetDesk_cases hok
  refine ⟨hresets.sessions, fun t => ?_⟩
  by_cases ht : SitsWith [r] w t
  · rw [if_pos ht]
    obtain ⟨hmem, r', hr', hdesk⟩ := ht
    rw [List.mem_singleton.mp hr'] at hdesk
    obtain ⟨hdesk', hstatus'⟩ := hreset t hmem hdesk
    rw [place, hdesk', hstatus']
  · rw [if_neg ht, place, hresets.session t, place]
    rintro ⟨hmem, hdesk⟩
    exact ht ⟨hmem, r, List.mem_singleton_self r, hdesk⟩

/-- An answer ends the game at the desk of its sender. -/
lemma endsDesks_answer (hsends : SendsSucceed env) (hwf : WellFormed w) (r : Ref) :
    ∃ w', (Operation.package r answerCmd).perform env w = .ok w' ∧ EndsDesks [r] w w' := by
  set cur := (w.connection r).loop
  set answered := w.answer env cur r with hanswered
  have hreply : Touches {r} w answered := touches_sendMsg _ rfl
  have hreplied : answered.sessions = w.sessions := sendMsg_sessions hsends (by decide)
  have hpos : 0 < notifyOthersGameOverMsg.length := by decide
  obtain ⟨notified, hnotify⟩ : ∃ notified, answered.notifyOthers env cur r = .ok notified := by
    obtain ⟨-, notified, hnotify, -⟩ := (hwf.touches hreply).broadcasts_iff_ownAccepted.mpr
      fun i t _ => hsends _ _ (Nat.lt_add_left _ hpos)
    exact ⟨notified, hnotify⟩
  obtain ⟨hnotified, hsessions⟩ := touches_sendAll hnotify
  obtain ⟨w', hreset⟩ : ∃ w', notified.resetDesk env cur r = .ok w' :=
    ⟨_, resetSessionToIdle_eq_foldl env cur _ notified⟩
  have hends := endsDesks_resetDesk hreset
  have hperform : (Operation.package r answerCmd).perform env w = .ok w' := by
    rw [Operation.perform, processPackage_answerCmd, hnotify]
    exact hreset
  -- neither the map nor a session has changed before the reset
  have hmap : notified.sessions = w.sessions := hsessions.trans hreplied
  have hsession : notified.session = w.session := hnotified.session.trans hreply.session
  refine ⟨w', hperform, hends.sessions.trans hmap, fun t => ?_⟩
  have hsits : SitsWith [r] notified t ↔ SitsWith [r] w t := by
    simp only [SitsWith, hmap, hsession]
  have hplace : notified.place t = w.place t := by
    simp only [place, hsession]
  rw [hends.place t, hplace]
  exact if_congr hsits rfl rfl

/-! ## Several answers -/

lemma EndsDesks.desk (h : EndsDesks refs w w') (ht : ¬ SitsWith refs w t) :
    (w'.session t).deskID = (w.session t).deskID := by
  have hplace := h.place t
  rw [if_neg ht] at hplace
  exact congrArg Prod.snd hplace

/-- The end of one game and then of others. -/
lemma EndsDesks.cons {w₁ w₂ : World} (h : EndsDesks [r] w w₁) (h' : EndsDesks refs w₁ w₂)
    (hother : ∀ r' ∈ refs, (w.session r').deskID ≠ (w.session r).deskID) :
    EndsDesks (r :: refs) w w₂ := by
  -- the senders of the later answers are not at the first desk
  have hsenders : ∀ r' ∈ refs, (w₁.session r').deskID = (w.session r').deskID := by
    intro r' hr'
    apply h.desk
    rintro ⟨-, r'', hr'', hdesk⟩
    rw [List.mem_singleton.mp hr''] at hdesk
    exact hother r' hr' hdesk
  refine ⟨h'.sessions.trans h.sessions, fun t => ?_⟩
  rw [h'.place t]
  by_cases ht : SitsWith [r] w t
  · have hreset : w₁.place t = (.IDLE, 0) := by rw [h.place t, if_pos ht]
    obtain ⟨hmem, r', hr', hdesk⟩ := ht
    rw [List.mem_singleton.mp hr'] at hdesk
    rw [if_pos (show SitsWith (r :: refs) w t from ⟨hmem, r, List.mem_cons_self .., hdesk⟩), hreset,
      ite_self]
  · have hkept : w₁.place t = w.place t := by rw [h.place t, if_neg ht]
    have hiff : SitsWith refs w₁ t ↔ SitsWith (r :: refs) w t := by
      simp only [SitsWith, h.sessions, h.desk ht, List.mem_cons, exists_eq_or_imp]
      constructor
      · rintro ⟨hmem, r', hr', hdesk⟩
        exact ⟨hmem, Or.inr ⟨r', hr', hdesk.trans (hsenders r' hr')⟩⟩
      · rintro ⟨hmem, hdesk | ⟨r', hr', hdesk⟩⟩
        · exact absurd ⟨hmem, r, List.mem_singleton_self r, hdesk⟩ ht
        · exact ⟨hmem, r', hr', hdesk.trans (hsenders r' hr').symm⟩
    rw [hkept]
    exact if_congr hiff rfl rfl

/-- **The answers of sessions at pairwise different desks end the games at these desks, and leave
the status and the desk of every other session as they were.** -/
theorem endsDesks_answers (hsends : SendsSucceed env) (hstable : Stable w) (refs : List Ref)
    (hdesks : (refs.map fun r => (w.session r).deskID).Nodup) :
    ∃ w', w.answers env refs = .ok w' ∧ EndsDesks refs w w' := by
  induction refs generalizing w with
  | nil => exact ⟨w, rfl, rfl, fun t => by simp [SitsWith]⟩
  | cons r refs ih =>
    obtain ⟨hfirst, hrest⟩ := List.nodup_cons.mp hdesks
    have hother : ∀ r' ∈ refs, (w.session r').deskID ≠ (w.session r).deskID :=
      fun r' hr' heq => hfirst (List.mem_map.mpr ⟨r', hr', heq⟩)
    obtain ⟨w₁, hok, hends⟩ := endsDesks_answer hsends hstable.wellFormed r
    have hsettled : EndsDesks [r] w w₁.settle := ⟨hends.sessions, hends.place⟩
    obtain ⟨hwf, hidle⟩ := wellFormed_perform hstable hok
    have hsenders : refs.map (fun r => (w₁.settle.session r).deskID) =
        refs.map fun r => (w.session r).deskID := by
      refine List.map_congr_left fun r' hr' => hsettled.desk ?_
      rintro ⟨-, r'', hr'', hdesk⟩
      rw [List.mem_singleton.mp hr''] at hdesk
      exact hother r' hr' hdesk
    obtain ⟨w', hok', hends'⟩ := ih (stable_settle hwf hidle) (hsenders ▸ hrest)
    refine ⟨w', ?_, hsettled.cons hends' hother⟩
    rw [answers, hok]
    exact hok'

/-- **In every reachable state, and with a kernel that takes every message, right answers of two
sessions at different desks can be processed in either order with the same result: their games
end, and no other session is affected.** -/
theorem answersCommute (hsends : SendsSucceed env) (h : (sequential env).Reachable w)
    (hdesks : (w.session a).deskID ≠ (w.session b).deskID) : AnswersCommute env w a b := by
  have hstable := stable_reachable h
  obtain ⟨w₁, hok₁, hends₁⟩ :=
    endsDesks_answers hsends hstable [a, b] (by simpa using hdesks)
  obtain ⟨w₂, hok₂, hends₂⟩ :=
    endsDesks_answers hsends hstable [b, a] (by simpa using hdesks.symm)
  have hsits : ∀ t, SitsWith [a, b] w t ↔ t ∈ w.sessions.map Prod.snd ∧
      ((w.session t).deskID = (w.session a).deskID ∨
        (w.session t).deskID = (w.session b).deskID) := by
    intro t
    simp [SitsWith]
  have hswap : ∀ t, SitsWith [a, b] w t ↔ SitsWith [b, a] w t := by
    intro t
    simp [SitsWith, or_comm]
  refine ⟨w₁, w₂, hok₁, hok₂, fun t => ?_, fun t hmem hdesk => ?_, fun t ht => ?_⟩
  · rw [hends₁.place, hends₂.place]
    exact if_congr (hswap t) rfl rfl
  · rw [hends₁.place, if_pos ((hsits t).mpr ⟨hmem, hdesk⟩)]
  · rw [hends₁.place, if_neg fun hsit => ht ((hsits t).mp hsit)]

/-- Two games of two players: after the first deal two more clients connect and are dealt to. -/
def twoDesks : List Operation :=
  twoPlayers ++ [.connect 7 [], .connect 8 [], .package 2 (ascii "!ready\n"),
    .package 3 (ascii "!ready\n"), .checkHandup]

/-- The answers of a player at the first desk and of one at the second commute. -/
theorem answersCommute_twoDesks : AnswersCommute calm (runOps calm (start 2) twoDesks) 0 3 :=
  answersCommute calm_sendsSucceed
    (reachableUnder_runOps (C := fun _ _ => True) (.init ⟨2, by decide, rfl⟩) (by decide)) (by decide)

end World

end Calc24
