import Calc24.App.Sequential

/-!
# One reminder for each session

A session asks for a reminder when it connects and whenever it is put back to idle.  The reminder
is taken out when the session closes, or by its own callback when that finds the session playing;
nothing takes it out when the session is put back to idle before that.

`Tidy` is what keeps the reminders in order: every reminder registered with a loop belongs to an
open session of that loop and is the one that the session's `m_timerID` names.  Runs stay tidy as
long as answers only reset sessions whose reminder is gone (`remindersOwned`).
-/

namespace Calc24

namespace World

variable {env : Environment} {cur l : LoopId} {r t : Ref} {A : Set Ref} {w w' : World}

/-- The reminders of a session that are registered with its loop. -/
def reminders (w : World) (r : Ref) : List (Timer TimerTask) :=
  (w.loop (w.connection r).loop).timers.timers.filter fun t => t.timerTask = .reminder r

/-- A registered session has at most one reminder, the one that `m_timerID` names, and a closed
session has none. -/
def RemindersOwned (w : World) : Prop :=
  (∀ entry ∈ w.sessions, (w.reminders entry.2).length ≤ 1 ∧
    ∀ t ∈ w.reminders entry.2, t.id = (w.session entry.2).timerID) ∧
  ∀ r, (w.connection r).closed = true → w.reminders r = []

/-- A right answer resets no session that still has a reminder, unless it is the sender's own
session and the reply closes it; and the counter of timer ids does not wrap around. -/
def KeepsReminders (env : Environment) (w : World) : Operation → Prop
  | .package r p => p = answerCmd →
    (∀ entry ∈ w.sessions, (w.session entry.2).deskID = (w.session r).deskID →
      w.reminders entry.2 = [] ∨ (entry.2 = r ∧ Refused env w r rightAnswer)) ∧
    w.timersConstructed + w.sessions.length < 2 ^ 64
  | .connect _ _ => w.timersConstructed + 1 < 2 ^ 64
  | _ => True

instance (env : Environment) (w : World) (op : Operation) : Decidable (KeepsReminders env w op) :=
  match op with
  | .package r p => inferInstanceAs (Decidable (p = answerCmd →
      (∀ entry ∈ w.sessions, (w.session entry.2).deskID = (w.session r).deskID →
        w.reminders entry.2 = [] ∨ (entry.2 = r ∧ Refused env w r rightAnswer)) ∧
      w.timersConstructed + w.sessions.length < 2 ^ 64))
  | .connect _ _ => inferInstanceAs (Decidable (w.timersConstructed + 1 < 2 ^ 64))
  | .checkHandup => .isTrue trivial
  | .close _ => .isTrue trivial
  | .checkAndDoTimers _ _ => .isTrue trivial
  | .doOtherTask _ => .isTrue trivial

/-! ## Tidy worlds -/

/-- A timer that goes at the end of the pass. -/
def Doomed (timers : LoopTimers TimerTask) (timerID : Int64) : Prop :=
  timers.isCheckTimers = true ∧ timerID ∈ timers.pendingRemoveTimers

/-- Every reminder belongs to the loop and to the session that it reminds, and goes when the
session closes. -/
structure Tidy (w : World) : Prop where
  wellFormed : WellFormed w
  owner : ∀ l, ∀ t ∈ (w.loop l).timers.timers, ∀ r, t.timerTask = .reminder r →
    l = (w.connection r).loop ∧ t.id = (w.session r).timerID ∧ r < w.nextRef ∧
      ((w.connection r).closed = false ∨ Doomed (w.loop l).timers t.id)
  nodup : ∀ l, (w.loop l).timers.ids.Nodup
  issued : ∀ l, ∀ id ∈ (w.loop l).timers.ids, ∃ n ≤ w.timersConstructed, id = Int64.ofNat n
  counter : w.timerBaseId = Int64.ofNat w.timersConstructed
  pendingAdd : ∀ l, (w.loop l).timers.pendingAddTimers = []
  registered : ∀ entry ∈ w.sessions, (w.connection entry.2).closed = false

/-- Outside a pass a tidy world has its reminders in order. -/
theorem Tidy.reminders_owned (h : Tidy w) (hidle : ∀ l, (w.loop l).timers.isCheckTimers = false) :
    RemindersOwned w := by
  have howner : ∀ r, ∀ t ∈ w.reminders r,
      t.id = (w.session r).timerID ∧ (w.connection r).closed = false := by
    intro r t ht
    obtain ⟨hmem, htask⟩ := List.mem_filter.mp ht
    obtain ⟨-, hid, -, hopen⟩ := h.owner _ t hmem r (by simpa using htask)
    refine ⟨hid, hopen.resolve_right fun hdoomed => ?_⟩
    rw [Doomed, hidle] at hdoomed
    exact absurd hdoomed.1 (by simp)
  refine ⟨fun entry _ => ⟨?_, fun t ht => (howner _ t ht).1⟩, fun r hclosed => ?_⟩
  · -- two reminders would have the same id
    have hnodup : ((w.reminders entry.2).map Timer.id).Nodup :=
      (h.nodup _).sublist (List.filter_sublist.map Timer.id)
    by_contra hlen
    have hlen' : 1 < (w.reminders entry.2).length := Nat.not_le.mp hlen
    have h₀ := (howner _ _ (List.getElem_mem (Nat.zero_lt_of_lt hlen'))).1
    have h₁ := (howner _ _ (List.getElem_mem hlen')).1
    rw [List.nodup_iff_injective_get] at hnodup
    have heq := @hnodup ⟨0, by simpa using Nat.zero_lt_of_lt hlen'⟩ ⟨1, by simpa using hlen'⟩
      (by simpa using h₀.trans h₁.symm)
    simp at heq
  · rw [List.eq_nil_iff_forall_not_mem]
    intro t ht
    exact absurd (howner r t ht).2 (by simp [hclosed])

/-! ## Sends -/

/-- Where timers are only taken out a world stays tidy, if every session that closes is
unregistered and its reminders go. -/
lemma Tidy.of_shrinks (h : Tidy w) (hwf : WellFormed w') (hsession : w'.session = w.session)
    (hsessions : w'.sessions.Sublist w.sessions) (hnext : w'.nextRef = w.nextRef)
    (hbase : w'.timerBaseId = w.timerBaseId)
    (hconstructed : w'.timersConstructed = w.timersConstructed)
    (hloop : ∀ r, (w'.connection r).loop = (w.connection r).loop)
    (hshrinks : ∀ l, LoopTimers.Shrinks (w.loop l).timers (w'.loop l).timers)
    (hclosed : ∀ r, (w'.connection r).closed = true → (w.connection r).closed = true ∨
      (r ∉ w'.sessions.map Prod.snd ∧ ∀ l, ∀ t ∈ (w'.loop l).timers.timers,
        t.timerTask = .reminder r → Doomed (w'.loop l).timers t.id)) : Tidy w' where
  wellFormed := hwf
  owner l t ht r hr := by
    obtain ⟨hl, hid, hlt, hopen⟩ := h.owner l t ((hshrinks l).timers.subset ht) r hr
    refine ⟨hl.trans (hloop r).symm, by rw [hsession, hid], by rwa [hnext], ?_⟩
    cases hnow : (w'.connection r).closed with
    | false => exact Or.inl rfl
    | true =>
      refine Or.inr ?_
      rcases hclosed r hnow with hbefore | ⟨-, hgoes⟩
      · obtain ⟨hcheck, hpending⟩ := hopen.resolve_left (by simp [hbefore])
        exact ⟨(hshrinks l).isCheckTimers.trans hcheck,
          (hshrinks l).pendingRemoveTimers hpending⟩
      · exact hgoes l t ht hr
  nodup l := (h.nodup l).sublist ((hshrinks l).timers.map Timer.id)
  issued l id hid := by
    rw [hconstructed]
    exact h.issued l id (((hshrinks l).timers.map Timer.id).subset hid)
  counter := by rw [hbase, hconstructed, h.counter]
  pendingAdd l := (hshrinks l).pendingAddTimers.trans (h.pendingAdd l)
  registered entry hentry := by
    cases hnow : (w'.connection entry.2).closed with
    | false => rfl
    | true =>
      rcases hclosed entry.2 hnow with hbefore | ⟨hnot, -⟩
      · rw [h.registered entry (hsessions.subset hentry)] at hbefore
        cases hbefore
      · exact absurd (List.mem_map_of_mem hentry) hnot

/-- What only takes timers out keeps the reminders tidy, if those of a session that it closes go. -/
lemma Tidy.touches (h : Tidy w) (hw : Touches A w w')
    (hshrinks : ∀ l, LoopTimers.Shrinks (w.loop l).timers (w'.loop l).timers)
    (hclosed : ∀ r, (w'.connection r).closed = true → (w.connection r).closed = true ∨
      (r ∉ w'.sessions.map Prod.snd ∧ ∀ l, ∀ t ∈ (w'.loop l).timers.timers,
        t.timerTask = .reminder r → Doomed (w'.loop l).timers t.id)) : Tidy w' :=
  h.of_shrinks (h.wellFormed.touches hw) hw.session hw.sessions hw.nextRef hw.timerBaseId
    hw.timersConstructed hw.loop hshrinks hclosed

lemma Tidy.log (h : Tidy w) (e : Event) : Tidy (w.log e) :=
  h.touches (touches_log (A := ∅) e) (fun _ => LoopTimers.Shrinks.refl _) fun _ => Or.inl

lemma Tidy.removeTimer (h : Tidy w) (timerID : Int64) : Tidy (w.removeTimer cur l timerID) := by
  refine h.touches (touches_removeTimer (A := ∅) timerID) (fun l' => ?_) fun r hr => ?_
  · rw [removeTimer_timers]
    split
    · exact LoopTimers.shrinks_removeTimerInternal _ _
    · exact LoopTimers.Shrinks.refl _
  · rw [removeTimer_connection] at hr
    exact Or.inl hr

lemma Tidy.flushes (h : Tidy w) (hw : Flushes r w w') : Tidy w' := by
  refine h.touches (hw.touches (A := {r}) rfl) (fun l => ?_) fun t ht => ?_
  · rw [(hw.timers l).1]
    exact LoopTimers.Shrinks.refl _
  · rw [hw.closed t] at ht
    exact Or.inl ht

/-- A session that closes on its own loop takes its reminder along. -/
lemma Tidy.onClose (h : Tidy w) (hcur : cur = (w.connection r).loop) :
    Tidy (w.onClose cur r) := by
  refine h.touches (touches_onClose (A := {r}) rfl) (fun l => ?_) fun t ht => ?_
  · rw [onClose_timers]
    split
    · exact LoopTimers.shrinks_removeTimerInternal _ _
    · exact LoopTimers.Shrinks.refl _
  · by_cases htr : t = r
    · subst htr
      refine Or.inr ⟨h.wellFormed.not_mem_onClose, fun l timer htimer htask => ?_⟩
      rw [onClose_timers] at htimer ⊢
      split at htimer
      · next hl =>
        rw [if_pos hl]
        have hmem := (LoopTimers.shrinks_removeTimerInternal _ _).timers.subset htimer
        have hid := (h.owner l timer hmem t htask).2.1
        obtain ⟨hcheck, hpending⟩ := LoopTimers.pending_of_mem_removeTimerInternal
          (List.nodup_iff_count_le_one.mp (h.nodup l) _) htimer hid
        exact ⟨LoopTimers.removeTimerInternal_isCheckTimers.trans hcheck, hid ▸ hpending⟩
      · next hl => exact absurd ⟨(h.owner l timer htimer t htask).1, hcur⟩ hl
    · refine Or.inl ?_
      rwa [onClose_connection, Function.update_of_ne htr] at ht

/-- A send keeps a world tidy, whatever the kernel answers. -/
lemma Tidy.send (h : Tidy w) (buf : Bytes) : Tidy (w.send env cur r buf) := by
  rcases send_cases env cur r buf w with ⟨-, hqueued⟩ | ⟨-, -, hflushes⟩ | ⟨hcur, -, w₁, hflushes, hclose⟩
  · rw [hqueued]
    refine h.touches (touches_modifyLoop (A := {r}) (List.Subset.refl _) rfl
      ⟨[.send r buf], rfl, by simp⟩ fun _ _ => Or.inl) (fun l => ?_) fun _ => Or.inl
    by_cases hl : l = (w.connection r).loop
    · subst hl
      simpa [modifyLoop, EventLoop.addTask] using LoopTimers.Shrinks.refl _
    · simpa [modifyLoop, hl] using LoopTimers.Shrinks.refl _
  · exact h.flushes hflushes
  · rw [hclose]
    refine (h.flushes hflushes).onClose ?_
    rw [(hflushes.touches (A := {r}) rfl).loop]
    exact hcur

/-- A message keeps the reminders tidy, also where its send fails and closes the session. -/
lemma Tidy.sendMsg (h : Tidy w) (msg : Bytes) : Tidy (w.sendMsg env cur r msg) :=
  (h.log _).send msg

/-- Fields of sessions other than the id and the timer do not matter. -/
lemma Tidy.modifySession (h : Tidy w) {f : Calc24Session → Calc24Session}
    (hid : ∀ s, (f s).id = s.id) (htimer : ∀ s, (f s).timerID = s.timerID) :
    Tidy (w.modifySession r f) := by
  have hsame : ∀ t, ((w.modifySession r f).session t).id = (w.session t).id ∧
      ((w.modifySession r f).session t).timerID = (w.session t).timerID := by
    intro t
    by_cases ht : t = r
    · subst ht
      simpa [World.modifySession] using ⟨hid (w.session t), htimer (w.session t)⟩
    · simp [World.modifySession, ht]
  refine { h with wellFormed := ?_, owner := fun l t ht r' hr' => ?_ }
  · exact h.wellFormed.of_eq (fun t => (hsame t).1) rfl rfl (le_refl _)
  · rw [(hsame r').2]
    exact h.owner l t ht r' hr'

lemma Tidy.sendAll (h : Tidy w) {msg : Bytes} {includeSelf : Bool} {id : Int32}
    {status : SessionStatus} {deskID : Int64}
    (hok : w.sendAll env cur msg includeSelf id status deskID = .ok w') : Tidy w' :=
  (sendAll_invariant h (fun _ _ _ hw₁ _ _ => hw₁.sendMsg msg) hok).1

lemma Tidy.sendCards (h : Tidy w) (cards : Bytes) (deskID : Int64) :
    Tidy (w.sendCards env cur r cards deskID) := by
  have hsent : Tidy ((w.sendMsg env cur r cards).log (.dealt r deskID)) :=
    (h.sendMsg cards).log _
  exact hsent.modifySession (r := r) (f := fun s => { s with deskID := deskID, status := .IN_GAME })
    (fun _ => rfl) (fun _ => rfl)

/-- The deal changes no timer. -/
lemma Tidy.checkHandup (h : Tidy w) (hok : w.checkHandup env cur = .ok w') : Tidy w' := by
  unfold World.checkHandup at hok
  split at hok
  · obtain rfl : w = w' := Except.ok.inj hok
    exact h
  · refine (forEachSession_invariant (w := (w.generateCards env).2.2) (I := Tidy) ?_ ?_ hok).1
    · exact { h with wellFormed := h.wellFormed.of_eq (fun _ => rfl) rfl rfl (le_refl _) }
    · intro r _ w₁ hw₁ _ _
      split
      · exact hw₁.sendCards _ _
      · exact hw₁

/-! ## A pass over the timers -/

/-- A change of the timer members of a loop that keeps the entries and the pending lists. -/
lemma Tidy.modify_timers (h : Tidy w) {f : LoopTimers TimerTask → LoopTimers TimerTask}
    (hf : LoopTimers.Shrinks (w.loop l).timers (f (w.loop l).timers)) :
    Tidy ((loopTimers l).modify f w) := by
  refine h.of_shrinks (h.wellFormed.of_eq (fun _ => rfl) rfl rfl (le_refl _)) rfl
    (List.Sublist.refl _) rfl rfl rfl (fun _ => rfl) (fun l' => ?_) fun _ => Or.inl
  by_cases hl : l' = l
  · subst hl
    simpa [loopTimers_modify, modifyLoop] using hf
  · simpa [loopTimers_modify, modifyLoop, hl] using LoopTimers.Shrinks.refl _

/-- A pass can start: until then nothing waits for its end. -/
lemma Tidy.setIsCheckTimers (h : Tidy w) (hidle : (w.loop l).timers.isCheckTimers = false) :
    Tidy ((loopTimers l).modify (LoopTimers.setIsCheckTimers true) w) := by
  have hloop : ∀ l', (((loopTimers l).modify (LoopTimers.setIsCheckTimers true) w).loop l').timers =
      if l' = l then (w.loop l).timers.setIsCheckTimers true else (w.loop l').timers := by
    intro l'
    by_cases hl : l' = l
    · subst hl
      simp [loopTimers_modify, modifyLoop]
    · simp [loopTimers_modify, modifyLoop, hl]
  refine { h with
    wellFormed := h.wellFormed.of_eq (fun _ => rfl) rfl rfl (le_refl _)
    owner := fun l' t ht r hr => ?_, nodup := fun l' => ?_, issued := fun l' id hid => ?_,
    pendingAdd := fun l' => ?_ }
  · rw [hloop] at ht ⊢
    split at ht
    · next hl =>
      subst hl
      obtain ⟨hl, hid, hlt, hopen⟩ := h.owner l' t ht r hr
      refine ⟨hl, hid, hlt, Or.inl (hopen.resolve_right fun hdoomed => ?_)⟩
      rw [Doomed, hidle] at hdoomed
      exact absurd hdoomed.1 (by simp)
    · next hl =>
      rw [if_neg hl]
      exact h.owner l' t ht r hr
  · rw [hloop]
    split
    · exact h.nodup l
    · exact h.nodup l'
  · rw [hloop] at hid
    split at hid
    · exact h.issued l id hid
    · exact h.issued l' id hid
  · rw [hloop]
    split
    · exact h.pendingAdd l
    · exact h.pendingAdd l'

/-- Applying the pending lists of one loop leaves the rest of the world alone. -/
lemma touches_replayPending (hidle : (w.loop l).timers.isCheckTimers = false) :
    Touches ∅ w ((loopTimers l).replayPending w) ∧
      ∀ l' ≠ l, (((loopTimers l).replayPending w).loop l').timers = (w.loop l').timers := by
  refine (loopTimers l).replayPending_invariant
    (I := fun w₁ => Touches ∅ w w₁ ∧ ∀ l' ≠ l, (w₁.loop l').timers = (w.loop l').timers)
    (fun w₁ hw₁ => (hw₁.1.isCheckTimers l).trans hidle) ?_ ?_ w
    ⟨Touches.refl _ _, fun _ _ => rfl⟩
  · rintro timerID w₁ ⟨htouches, hother⟩
    refine ⟨htouches.trans (touches_modify_timers LoopTimers.entries_removeTimerInternal_subset
      LoopTimers.removeTimerInternal_isCheckTimers), fun l' hl => ?_⟩
    rw [← hother l' hl]
    simp [loopTimers_modify, modifyLoop, hl]
  · rintro spTimer w₁ ⟨htouches, hother⟩ hmem
    refine ⟨htouches.trans (touches_modify_timers (fun t ht => ?_)
      LoopTimers.addTimerInternal_isCheckTimers), fun l' hl => ?_⟩
    · rcases LoopTimers.mem_entries_addTimerInternal.mp ht with ht | rfl
      · exact ht
      · exact List.mem_append_right _ hmem
    · rw [← hother l' hl]
      simp [loopTimers_modify, modifyLoop, hl]

/-- At the end of a pass the doomed timers go. -/
lemma Tidy.endPass (h : Tidy w) :
    Tidy ((loopTimers l).replayPending
      ((loopTimers l).modify (LoopTimers.setIsCheckTimers false) w)) := by
  set stopped := (loopTimers l).modify (LoopTimers.setIsCheckTimers false) w with hstopped
  set ended := (loopTimers l).replayPending stopped with hended
  have hstoppedTimers : (stopped.loop l).timers = (w.loop l).timers.setIsCheckTimers false := by
    simp [hstopped, loopTimers_modify, modifyLoop]
  have hstoppedOther : ∀ l' ≠ l, (stopped.loop l').timers = (w.loop l').timers := by
    intro l' hl
    simp [hstopped, loopTimers_modify, modifyLoop, hl]
  have hidle : (stopped.loop l).timers.isCheckTimers = false := by
    rw [hstoppedTimers]
    rfl
  obtain ⟨htouches, hother⟩ := touches_replayPending hidle
  have hself : (ended.loop l).timers = { (w.loop l).timers.setIsCheckTimers false with
      timers := LoopTimers.removeAll (w.loop l).timers.pendingRemoveTimers
        (w.loop l).timers.timers } := by
    have hget := (loopTimers l).get_replayPending stopped hidle
    simp only [loopTimers_get, hstoppedTimers] at hget
    apply hget.trans
    simp only [LoopTimers.setIsCheckTimers, h.pendingAdd l, List.append_nil]
  have hsub : ∀ l', (ended.loop l').timers.timers.Sublist (w.loop l').timers.timers := by
    intro l'
    by_cases hl : l' = l
    · subst hl
      rw [hself]
      exact LoopTimers.removeAll_sublist _ _
    · rw [hother l' hl, hstoppedOther l' hl]
  refine ⟨?_, fun l' t ht r hr => ?_, fun l' => ?_, fun l' id hid => ?_, ?_, fun l' => ?_,
    fun entry hentry => ?_⟩
  · have hwf : WellFormed stopped := h.wellFormed.of_eq (fun _ => rfl) rfl rfl (le_refl _)
    exact hwf.touches htouches
  · obtain ⟨hl', hid, hlt, hopen⟩ := h.owner l' t ((hsub l').subset ht) r hr
    rw [htouches.connection r (by simp), htouches.session, htouches.nextRef]
    refine ⟨hl', hid, hlt, ?_⟩
    by_cases hl : l' = l
    · subst hl
      refine Or.inl (hopen.resolve_right fun hdoomed => ?_)
      rw [hself] at ht
      have honce := List.nodup_iff_count_le_one.mp (h.nodup l') t.id
      exact LoopTimers.not_mem_removeAll honce hdoomed.2 (List.mem_map_of_mem ht)
    · rw [hother l' hl, hstoppedOther l' hl]
      exact hopen
  · exact (h.nodup l').sublist ((hsub l').map Timer.id)
  · rw [htouches.timersConstructed]
    exact h.issued l' id (((hsub l').map Timer.id).subset hid)
  · rw [htouches.timerBaseId, htouches.timersConstructed]
    exact h.counter
  · by_cases hl : l' = l
    · subst hl
      rw [hself]
      exact h.pendingAdd l'
    · rw [hother l' hl, hstoppedOther l' hl]
      exact h.pendingAdd l'
  · rw [htouches.connection entry.2 (by simp)]
    exact h.registered entry (htouches.sessions.subset hentry)

/-- A pass over the timers of a loop keeps a world tidy. -/
theorem Tidy.checkAndDoTimers (h : Tidy w) (hidle : (w.loop l).timers.isCheckTimers = false)
    (nowMs : ℤ) : Tidy (w.checkAndDoTimers env l nowMs) := by
  apply Tidy.endPass
  refine (loopTimers l).visit_invariant (I := Tidy) ?_ _ _ _ (h.setIsCheckTimers hidle)
  intro i t w₁ hw₁ _ _
  have hadvance := hw₁.modify_timers (l := l) (f := LoopTimers.advance t nowMs)
    ⟨List.Sublist.refl _, rfl, rfl, List.Subset.refl _⟩
  split
  next r _ =>
  unfold reminderCallback
  dsimp only
  split
  · exact (hadvance.log _).sendMsg _
  · exact (hadvance.log _).removeTimer _

end World

end Calc24
