import Calc24.App.Threads

/-!
# What a step of a thread can do

`Affects A w w'` says what may have happened between `w` and `w'` on behalf of the sessions in
`A`: only their fields have changed, only their reminders have been added, and only tasks that
concern them have been queued.  A step of a worker thread affects the sessions that are registered
and those that the thread holds on to, in its batch, in its tasks and in its timers
(`work_affects`); a stage holds only what it held before and what a poll has reported.

`Sound` is what all interleavings keep: the map is well formed, no timer pass is going on between
two steps, and the threads hold on to sessions that have been constructed.
-/

namespace Calc24

/-- A task concerns one session at most. -/
lemma CustomTask.concerns_unique {task : CustomTask} {r t : Ref} (hr : task.Concerns r)
    (ht : task.Concerns t) : r = t := by
  cases task with
  | send r' buf => exact hr.symm.trans ht
  | addTimerInternal spTimer => simpa using hr.symm.trans ht
  | removeTimerInternal timerID => exact hr.elim

namespace World

variable {env : Environment} {cur l : LoopId} {r t : Ref} {A B : Set Ref} {w w' w'' : World}

/-! ## Affecting sessions -/

/-- What happens on behalf of the sessions in `A`. -/
structure Affects (A : Set Ref) (w w' : World) : Prop where
  threadNum : w'.threadNum = w.threadNum
  id : ∀ r, (w'.session r).id = (w.session r).id
  session : ∀ r ∉ A, w'.session r = w.session r
  sessions : w'.sessions.Sublist w.sessions
  owned : w'.owned.Perm w.owned
  nextRef : w'.nextRef = w.nextRef
  loop : ∀ r, (w'.connection r).loop = (w.connection r).loop
  isCheckTimers : ∀ l, (w'.loop l).timers.isCheckTimers = (w.loop l).timers.isCheckTimers
  entries : ∀ l, ∀ t ∈ (w'.loop l).timers.entries, t ∈ (w.loop l).timers.entries ∨
    ∃ r ∈ A, l = (w.connection r).loop ∧ t.timerTask = .reminder r
  tasks : ∀ l, ∀ task ∈ (w'.loop l).customTasks, task ∈ (w.loop l).customTasks ∨
    (∃ r ∈ A, l = (w.connection r).loop ∧ task.Concerns r) ∨
      ∃ timerID, task = .removeTimerInternal timerID

namespace Affects

lemma trans (h : Affects A w w') (h' : Affects A w' w'') : Affects A w w'' where
  threadNum := h'.threadNum.trans h.threadNum
  id r := (h'.id r).trans (h.id r)
  session r hr := (h'.session r hr).trans (h.session r hr)
  sessions := h'.sessions.trans h.sessions
  owned := h'.owned.trans h.owned
  nextRef := h'.nextRef.trans h.nextRef
  loop r := (h'.loop r).trans (h.loop r)
  isCheckTimers l := (h'.isCheckTimers l).trans (h.isCheckTimers l)
  entries l t ht := by
    rcases h'.entries l t ht with ht | ⟨r, hr, hl, htask⟩
    · exact h.entries l t ht
    · exact Or.inr ⟨r, hr, hl.trans (h.loop r), htask⟩
  tasks l task htask := by
    rcases h'.tasks l task htask with htask | ⟨r, hr, hl, htask⟩ | htask
    · exact h.tasks l task htask
    · exact Or.inr (Or.inl ⟨r, hr, hl.trans (h.loop r), htask⟩)
    · exact Or.inr (Or.inr htask)

lemma mono (hAB : A ⊆ B) (h : Affects A w w') : Affects B w w' where
  __ := h
  session r hr := h.session r fun hA => hr (hAB hA)
  entries l t ht := (h.entries l t ht).imp_right fun ⟨r, hr, hnew⟩ => ⟨r, hAB hr, hnew⟩
  tasks l task htask := (h.tasks l task htask).imp_right
    (Or.imp_left fun ⟨r, hr, hnew⟩ => ⟨r, hAB hr, hnew⟩)

end Affects

/-- Sends affect those that they are sent to. -/
lemma Touches.affects (h : Touches A w w') : Affects A w w' where
  threadNum := h.threadNum
  id r := by rw [h.session]
  session r _ := congrFun h.session r
  sessions := h.sessions
  owned := h.owned
  nextRef := h.nextRef
  loop := h.loop
  isCheckTimers := h.isCheckTimers
  entries l t ht := Or.inl (h.entries l ht)
  tasks l task htask := by
    obtain ⟨new, heq, hnew⟩ := h.tasks l
    rw [heq] at htask
    rcases List.mem_append.mp htask with hold | hmem
    · exact Or.inl hold
    · rcases hnew task hmem with hremoval | ⟨r, hr, hl, buf, rfl⟩
      · exact Or.inr (Or.inr hremoval)
      · exact Or.inr (Or.inl ⟨r, hr, hl, rfl⟩)

/-- Resets affect those that are reset. -/
lemma Resets.affects (h : Resets A w w') : Affects A w w' where
  threadNum := h.threadNum
  id := h.id
  session := h.session
  sessions := by rw [h.sessions]
  owned := by rw [World.owned, World.owned, h.sessions, h.pending]
  nextRef := h.nextRef
  loop r := by rw [h.connection]
  isCheckTimers := h.isCheckTimers
  entries l t ht := (h.entries l t ht).imp_right fun ⟨r, hr, hl, htask, _⟩ => ⟨r, hr, hl, htask⟩
  tasks l task htask := by
    obtain ⟨new, heq, hnew⟩ := h.tasks l
    rw [heq] at htask
    rcases List.mem_append.mp htask with hold | hmem
    · exact Or.inl hold
    · obtain ⟨r, hr, hl, t, ht, -, rfl⟩ := hnew task hmem
      exact Or.inr (Or.inl ⟨r, hr, hl, ht⟩)

/-- The deal affects registered sessions. -/
lemma Deals.affects {deskID : Int64} (h : Deals deskID w w') :
    Affects {r | r ∈ w.sessions.map Prod.snd} w w' where
  __ := h.touches.affects
  id r := by
    rcases h.place r with hsame | ⟨-, -, hdealt⟩
    · rw [hsame]
    · rw [hdealt]
  session r hr := by
    rcases h.place r with hsame | ⟨hmem, -, -⟩
    · exact hsame
    · exact absurd hmem hr

/-- A call on a connection that stays within the connection affects no session. -/
lemma affects_setEndpoint {p : Endpoint Dispatcher}
    (hp : Endpoint.Changes (.connection r) (w.endpoint r) p) :
    Affects A w (w.setEndpoint r p) where
  threadNum := rfl
  id _ := rfl
  session _ _ := rfl
  sessions := List.Sublist.refl _
  owned := List.Perm.refl _
  nextRef := rfl
  loop := (touches_setEndpoint (A := {r}) rfl hp).loop
  isCheckTimers l := by rw [(setEndpoint_loop r p w l).1]
  entries l t ht := by
    rw [(setEndpoint_loop r p w l).1] at ht
    exact Or.inl ht
  tasks l task htask := by
    rw [(setEndpoint_loop r p w l).2] at htask
    exact Or.inl htask

lemma Affects.refl (A : Set Ref) (w : World) : Affects A w w :=
  (Touches.refl A w).affects

lemma affects_onWrite (r : Ref) (w : World) : Affects A w (w.onWrite env r) where
  __ := affects_setEndpoint (w := w) (Endpoint.changes_onWrite (.connection r) (w.endpoint r)
    (env.send w.flushes))

/-- A change of a session that leaves its id alone affects it. -/
lemma affects_modifySession {f : Calc24Session → Calc24Session} (hid : ∀ s, (f s).id = s.id)
    (hr : r ∈ A) : Affects A w (w.modifySession r f) where
  __ := Affects.refl A w
  id t := by
    by_cases ht : t = r
    · subst ht
      simpa [modifySession] using hid (w.session t)
    · simp [modifySession, ht]
  session t ht := by
    have hne : t ≠ r := by
      rintro rfl
      exact ht hr
    simp [modifySession, hne]

/-- A change of one loop that adds no timer and no task. -/
lemma affects_modifyLoop {f : EventLoop Dispatcher TimerTask CustomTask →
      EventLoop Dispatcher TimerTask CustomTask}
    (htimers : (f (w.loop l)).timers = (w.loop l).timers)
    (htasks : (f (w.loop l)).customTasks ⊆ (w.loop l).customTasks) :
    Affects A w (w.modifyLoop l f) where
  __ := Affects.refl A w
  isCheckTimers l' := by
    by_cases hl : l' = l
    · subst hl
      simp [modifyLoop, htimers]
    · simp [modifyLoop, hl]
  entries l' t ht := by
    by_cases hl : l' = l
    · subst hl
      exact Or.inl (by simpa [modifyLoop, htimers] using ht)
    · exact Or.inl (by simpa [modifyLoop, hl] using ht)
  tasks l' task htask := by
    by_cases hl : l' = l
    · subst hl
      exact Or.inl (htasks (by simpa [modifyLoop] using htask))
    · exact Or.inl (by simpa [modifyLoop, hl] using htask)

/-- Every package affects its sender and the registered sessions. -/
lemma affects_processPackage {package : Bytes} (hanswer : package ≠ answerCmd)
    (h : w.processPackage env cur r package = .ok w') :
    Affects ({t | t ∈ w.sessions.map Prod.snd} ∪ {r}) w w' := by
  rcases processPackage_cases h with ⟨-, -, hsend⟩ | ⟨-, rfl⟩ | ⟨heq, -⟩
  · exact hsend.affects
  · exact affects_modifySession (fun _ => rfl) (Set.mem_union_right _ rfl)
  · exact absurd heq hanswer

/-- Adding a timer on the thread of its loop. -/
lemma affects_addTimerInternal {spTimer : Timer TimerTask} (hr : spTimer.timerTask = .reminder r)
    (hA : r ∈ A) (hl : l = (w.connection r).loop) : Affects A w (w.addTimerInternal l l spTimer) := by
  have hloop : w.addTimerInternal l l spTimer =
      w.modifyLoop l fun loop => { loop with timers := loop.timers.addTimerInternal spTimer } := by
    rw [addTimerInternal, if_pos rfl, loopTimers_modify]
  rw [hloop]
  refine { Affects.refl A w with
    isCheckTimers := fun l' => ?_, entries := fun l' t ht => ?_, tasks := fun l' task htask => ?_ }
  · by_cases hl : l' = l
    · subst hl
      simp [modifyLoop]
    · simp [modifyLoop, hl]
  · by_cases hl : l' = l
    · subst hl
      have hmem : t ∈ ((w.loop l').timers.addTimerInternal spTimer).entries := by
        simpa [modifyLoop] using ht
      rcases LoopTimers.mem_entries_addTimerInternal.mp hmem with hold | rfl
      · exact Or.inl hold
      · exact Or.inr ⟨r, hA, hl, hr⟩
    · exact Or.inl (by simpa [modifyLoop, hl] using ht)
  · by_cases hl : l' = l
    · subst hl
      exact Or.inl (by simpa [modifyLoop] using htask)
    · exact Or.inl (by simpa [modifyLoop, hl] using htask)

/-- A task affects the session that it concerns, and records at most its own execution. -/
lemma affects_runTask (task : CustomTask)
    (hA : ∀ r, task.Concerns r → r ∈ A ∧ l = (w.connection r).loop) :
    Affects A w (runTask env l w task) ∧ Records (Ordinary A) w (runTask env l w task) := by
  cases task with
  | send r buf =>
    have hr : r ∈ A := (hA r rfl).1
    exact ⟨((touches_log _).trans (touches_send buf hr)).affects,
      Records.of_cons (trace_send r buf (w.log (.sendTask r))) hr⟩
  | addTimerInternal spTimer =>
    obtain ⟨r, hr⟩ : ∃ r, spTimer.timerTask = .reminder r := by
      cases h : spTimer.timerTask with
      | reminder r => exact ⟨r, rfl⟩
    refine ⟨affects_addTimerInternal hr (hA r hr).1 (hA r hr).2, Records.of_trace_eq ?_⟩
    rw [runTask, addTimerInternal, if_pos rfl]
    rfl
  | removeTimerInternal timerID =>
    exact ⟨(touches_removeTimer timerID).affects,
      Records.of_trace_eq (trace_removeTimer l timerID w)⟩

/-- What is affected stays well formed. -/
lemma WellFormed.affects (h : WellFormed w) (hw : Affects A w w') : WellFormed w' :=
  h.of_sublist hw.id hw.sessions hw.owned hw.nextRef.ge

end World

/-! ## The steps of a worker thread -/

/-- The connections that a thread holds on to. -/
def Stage.held : Stage → List Ref
  | .dispatch batch => batch
  | .reading r batch => r :: batch
  | .answered r batch => r :: batch
  | .notified r batch => r :: batch
  | .closing r _ batch => r :: batch
  | .writing _ batch => batch
  | _ => []

/-- The session whose `onRead` is in progress is one that the thread holds on to. -/
lemma Stage.mem_held_of_inProgress {stage : Stage} {r : Ref} (h : stage.inProgress = some r) :
    r ∈ stage.held := by
  cases stage <;> simp_all [inProgress, held]

/-- So is the session whose right answer is being handled. -/
lemma Stage.mem_held_of_answering {stage : Stage} {r : Ref} (h : stage.answering = some r) :
    r ∈ stage.held := by
  cases stage <;> simp_all [answering, held]

namespace World

variable {env : Environment} {n : ℕ} {r t : Ref} {batch : List Ref} {A : Set Ref}
  {w w' w'' : World} {stage stage' : Stage} {input : Input}

/-- The sessions that the next step of a worker thread can affect. -/
def Involved (n : ℕ) (stage : Stage) (w : World) : Set Ref :=
  {t | t ∈ w.sessions.map Prod.snd ∨ t ∈ stage.held ∨
    (∃ task ∈ stage.remainingTasks, task.Concerns t) ∨ t ∈ w.Reminded (.worker n)}

/-- One round of `Calc24Session::onRead`. -/
lemma decode_cases (h : w.decode env n r batch = some (stage', w')) :
    (stage' = .writing r batch ∧ w' = w) ∨
    (stage' = .closing r false batch ∧ w' = w.onClose (.worker n) r) ∨
    (∃ recvBuf, w.nextPackage r = (.success, recvBuf, answerCmd) ∧ stage' = .answered r batch ∧
      w' = (w.setRecvBuf r recvBuf).answer env (.worker n) r) ∨
    (∃ recvBuf package, package ≠ answerCmd ∧ stage' = .reading r batch ∧
      (w.setRecvBuf r recvBuf).processPackage env (.worker n) r package = .ok w') := by
  unfold decode at h
  split at h
  · obtain ⟨rfl, rfl⟩ := Prod.mk.inj (Option.some.inj h)
    exact Or.inl ⟨rfl, rfl⟩
  · obtain ⟨rfl, rfl⟩ := Prod.mk.inj (Option.some.inj h)
    exact Or.inr (Or.inl ⟨rfl, rfl⟩)
  · next recvBuf package hnext =>
    dsimp only at h
    split at h
    · next hanswer =>
      subst hanswer
      obtain ⟨rfl, rfl⟩ := Prod.mk.inj (Option.some.inj h)
      exact Or.inr (Or.inr (Or.inl ⟨recvBuf, hnext, rfl, rfl⟩))
    · next hanswer =>
      obtain ⟨w₁, hok, heq⟩ := TransitionSystem.exists_ok_of_toOption_map h
      obtain ⟨rfl, rfl⟩ := Prod.mk.inj heq
      exact Or.inr (Or.inr (Or.inr ⟨recvBuf, package, hanswer, rfl, hok⟩))

/-- What a step of a worker thread does: whom it affects, what its stage holds afterwards, and
what is recorded. -/
structure Turn (n : ℕ) (stage stage' : Stage) (w w' : World) : Prop where
  affects : Affects (Involved n stage w) w w'
  held : ∀ t ∈ stage'.held, t ∈ stage.held ∨ Reported n w t
  tasks : ∀ task ∈ stage'.remainingTasks,
    task ∈ stage.remainingTasks ∨ task ∈ (w.loop (.worker n)).customTasks
  records : Records (Ordinary (Involved n stage w)) w w' ∨
    ∃ r batch, stage = .reading r batch ∧ stage' = .answered r batch ∧
      w'.trace = .sent r rightAnswer :: w.trace

/-- The registered sessions may be involved in what a thread does. -/
lemma registered_subset_involved : {t | t ∈ w.sessions.map Prod.snd} ⊆ Involved n stage w :=
  fun _ => Or.inl

lemma held_mem_involved (h : r ∈ stage.held) : r ∈ Involved n stage w :=
  Or.inr (Or.inl h)

/-- A step after which the thread holds no more than before, and no tasks. -/
lemma Turn.of_affects (haffects : Affects (Involved n stage w) w w')
    (hheld : stage'.held ⊆ stage.held) (htasks : stage'.remainingTasks = [])
    (hrecords : Records (Ordinary (Involved n stage w)) w w') : Turn n stage stage' w w' where
  affects := haffects
  held _ ht := Or.inl (hheld ht)
  tasks task htask := by
    rw [htasks] at htask
    cases htask
  records := Or.inl hrecords

/-- A step that only moves a thread to its next stage. -/
lemma Turn.of_eq (hheld : stage'.held ⊆ stage.held)
    (htasks : stage'.remainingTasks = []) : Turn n stage stage' w w :=
  Turn.of_affects (Affects.refl _ w) hheld htasks (Records.of_trace_eq rfl)

/-- A round of `Calc24Session::onRead`. -/
lemma turn_decode (h : w.decode env n r batch = some (stage', w')) :
    Turn n (.reading r batch) stage' w w' := by
  have hr : r ∈ Involved n (.reading r batch) w := held_mem_involved (List.mem_cons_self ..)
  have hsingle : ({r} : Set Ref) ⊆ Involved n (.reading r batch) w := by
    rintro t rfl
    exact hr
  rcases decode_cases h with ⟨rfl, rfl⟩ | ⟨rfl, rfl⟩ | ⟨recvBuf, -, rfl, rfl⟩ |
    ⟨recvBuf, package, hanswer, rfl, hok⟩
  · exact Turn.of_eq (List.subset_cons_self _ _) rfl
  · exact Turn.of_affects (touches_onClose hr).affects (List.Subset.refl _) rfl
      (Records.of_trace_eq (trace_onClose r w))
  · refine ⟨(affects_setEndpoint (Endpoint.changes_setRecvBuf _ _ _)).trans
      ((touches_sendMsg (A := {r}) _ rfl).affects.mono hsingle), fun t ht => Or.inl ht, fun _ htask => absurd htask List.not_mem_nil,
      Or.inr ⟨r, batch, rfl, rfl, ?_⟩⟩
    exact trace_sendMsg r rightAnswer _
  · have hinvolved : ({t | t ∈ (w.setRecvBuf r recvBuf).sessions.map Prod.snd} ∪ {r} : Set Ref) ⊆
        Involved n (.reading r batch) w :=
      Set.union_subset (registered_subset_involved (w := w)) hsingle
    refine Turn.of_affects ((affects_setEndpoint (Endpoint.changes_setRecvBuf _ _ _)).trans
      ((affects_processPackage hanswer hok).mono hinvolved)) (List.Subset.refl _) rfl ?_
    have hreceived : Records (Ordinary (Involved n (.reading r batch) w)) w (w.setRecvBuf r recvBuf) :=
      Records.of_trace_eq rfl
    exact hreceived.trans
      ((records_processPackage hanswer hok).mono fun _ => Ordinary.mono hinvolved)

/-- **What every step of a worker thread does.** -/
theorem turn_work (hidle : ∀ l, (w.loop l).timers.isCheckTimers = false)
    (hlocal : ∀ task ∈ stage.remainingTasks, ∀ r, task.Concerns r →
      (w.connection r).loop = .worker n)
    (h : w.work env n input stage = some (stage', w')) : Turn n stage stage' w w' := by
  cases stage with
  | timers =>
    obtain ⟨rfl, rfl⟩ := Prod.mk.inj (Option.some.inj h)
    have hreminded : w.Reminded (.worker n) ⊆ Involved n .timers w :=
      fun _ ht => Or.inr (Or.inr (Or.inr ht))
    exact Turn.of_affects ((touches_checkAndDoTimers _ (hidle _)).affects.mono hreminded)
      (List.Subset.refl _) rfl
      ((records_checkAndDoTimers _ (hidle _)).mono fun _ => Ordinary.mono hreminded)
  | poll =>
    rw [work] at h
    split at h
    · next hreported =>
      obtain ⟨rfl, rfl⟩ := Prod.mk.inj (Option.some.inj h)
      have hfold : Affects (Involved n .poll w) w
          (input.events.foldl (fun w event => w.enableReadWrite event) w) ∧
          (input.events.foldl (fun w event => w.enableReadWrite event) w).trace = w.trace := by
        refine List.foldlRecOn (motive := fun w₁ =>
          Affects (Involved n .poll w) w w₁ ∧ w₁.trace = w.trace) _ _ ⟨Affects.refl _ w, rfl⟩ ?_
        rintro w₁ ⟨haffects, htrace⟩ event -
        exact ⟨haffects.trans (affects_setEndpoint (Endpoint.changes_enableReadWrite _ _ _ _)),
          htrace⟩
      refine ⟨hfold.1, fun t ht => Or.inr ?_, fun _ htask => absurd htask List.not_mem_nil,
        Or.inl (Records.of_trace_eq hfold.2)⟩
      obtain ⟨event, hevent, rfl⟩ := List.mem_map.mp ht
      exact hreported event hevent
    · cases h
  | dispatch batch =>
    cases batch with
    | nil =>
      obtain ⟨rfl, rfl⟩ := Prod.mk.inj (Option.some.inj h)
      exact ⟨affects_modifyLoop rfl (List.nil_subset _), fun _ ht => absurd ht List.not_mem_nil,
        fun _ htask => Or.inr htask, Or.inl (Records.of_trace_eq rfl)⟩
    | cons r batch =>
      have hr : r ∈ Involved n (.dispatch (r :: batch)) w :=
        held_mem_involved (List.mem_cons_self ..)
      have hreceive : w.receive n r batch input.recv = (stage', w') := Option.some.inj h
      unfold receive at hreceive
      split at hreceive
      · obtain ⟨rfl, rfl⟩ := Prod.mk.inj hreceive
        exact Turn.of_eq (List.subset_cons_self _ _) rfl
      · split at hreceive
        · obtain ⟨rfl, rfl⟩ := Prod.mk.inj hreceive
          exact Turn.of_affects (touches_onClose hr).affects (List.Subset.refl _) rfl
            (Records.of_trace_eq (trace_onClose r w))
        · obtain ⟨rfl, rfl⟩ := Prod.mk.inj hreceive
          exact Turn.of_eq (List.subset_cons_self _ _) rfl
        · obtain ⟨rfl, rfl⟩ := Prod.mk.inj hreceive
          exact Turn.of_affects (affects_setEndpoint (Endpoint.changes_setRecvBuf _ _ _))
            (List.Subset.refl _) rfl (Records.of_trace_eq rfl)
  | reading r batch => exact turn_decode h
  | answered r batch =>
    obtain ⟨w₁, hok, heq⟩ := TransitionSystem.exists_ok_of_toOption_map h
    obtain ⟨rfl, rfl⟩ := Prod.mk.inj heq
    exact Turn.of_affects ((touches_sendAll hok).1.affects.mono registered_subset_involved)
      (List.Subset.refl _) rfl ((records_sendAll notifyOthersGameOverMsg_ne hok).mono fun _ =>
        Ordinary.mono registered_subset_involved)
  | notified r batch =>
    obtain ⟨w₁, hok, heq⟩ := TransitionSystem.exists_ok_of_toOption_map h
    obtain ⟨rfl, rfl⟩ := Prod.mk.inj heq
    have hresets := (resetDesk_cases hok).1
    exact Turn.of_affects (hresets.affects.mono fun t ht => Or.inl ht.1) (List.Subset.refl _) rfl
      (Records.of_trace_eq hresets.trace)
  | closing r eof batch =>
    cases eof with
    | true =>
      obtain ⟨rfl, rfl⟩ := Prod.mk.inj (Option.some.inj h)
      exact Turn.of_eq (List.Subset.refl _) rfl
    | false =>
      obtain ⟨rfl, rfl⟩ := Prod.mk.inj (Option.some.inj h)
      exact Turn.of_eq (List.subset_cons_self _ _) rfl
  | writing r batch =>
    obtain ⟨rfl, rfl⟩ := Prod.mk.inj (Option.some.inj h)
    exact Turn.of_affects (affects_onWrite r w) (List.Subset.refl _) rfl (Records.of_trace_eq rfl)
  | tasks remaining =>
    cases remaining with
    | nil =>
      obtain ⟨rfl, rfl⟩ := Prod.mk.inj (Option.some.inj h)
      exact Turn.of_eq (List.Subset.refl _) rfl
    | cons task rest =>
      obtain ⟨rfl, rfl⟩ := Prod.mk.inj (Option.some.inj h)
      have htask : Affects (Involved n (.tasks (task :: rest)) w) w
          (runTask env (.worker n) w task) ∧
          Records (Ordinary (Involved n (.tasks (task :: rest)) w)) w
            (runTask env (.worker n) w task) :=
        affects_runTask task fun r hr =>
          ⟨Or.inr (Or.inr (Or.inl ⟨task, List.mem_cons_self .., hr⟩)),
            (hlocal task (List.mem_cons_self ..) r hr).symm⟩
      exact ⟨htask.1, fun _ ht => absurd ht List.not_mem_nil,
        fun _ htask => Or.inl (List.mem_cons_of_mem _ htask), Or.inl htask.2⟩

end World

/-! ## Interleavings -/

namespace Process

open World

variable {env : Environment} {s s' : Process} {step : Step}

/-- Every step is one of the base loop, which connects or deals, or one of a worker thread. -/
theorem next_cases (h : s.next env step = some s') :
    (∃ fd order w, step = .connect fd order ∧
      (s.world.onAccept fd).onConnected env .base s.world.nextRef order = .ok w ∧
      s' = { s with world := w }) ∨
    (∃ w, step = .checkHandup ∧ s.world.checkHandup env .base = .ok w ∧
      s' = { s with world := w }) ∨
    (∃ n input stage w, step = .worker n input ∧ n < s.world.threadNum ∧
      s.world.work env n input (s.stage n) = some (stage, w) ∧
      s' = { world := w, stage := Function.update s.stage n stage }) := by
  cases step with
  | connect fd order =>
    rw [next] at h
    split at h
    · obtain ⟨w, hok, rfl⟩ := TransitionSystem.exists_ok_of_toOption_map h
      exact Or.inl ⟨fd, order, w, rfl, hok, rfl⟩
    · cases h
  | checkHandup =>
    obtain ⟨w, hok, rfl⟩ := TransitionSystem.exists_ok_of_toOption_map h
    exact Or.inr (Or.inl ⟨w, rfl, hok, rfl⟩)
  | worker n input =>
    rw [next] at h
    split at h
    · next hn =>
      cases hwork : s.world.work env n input (s.stage n) with
      | none => simp [hwork] at h
      | some result =>
        rw [hwork] at h
        exact Or.inr (Or.inr ⟨n, input, result.1, result.2, rfl, hn, hwork,
          (Option.some.inj h).symm⟩)
    · cases h

/-- Between two steps the map is well formed and no timer pass is going on.  What the threads
hold on to are sessions that have been constructed, and everything that is done for a session is
done by the thread of its own loop. -/
structure Sound (s : Process) : Prop where
  wellFormed : WellFormed s.world
  idle : ∀ l, (s.world.loop l).timers.isCheckTimers = false
  held : ∀ n, ∀ t ∈ (s.stage n).held,
    t < s.world.nextRef ∧ (s.world.connection t).loop = .worker n
  remaining : ∀ n, ∀ task ∈ (s.stage n).remainingTasks, ∀ t, task.Concerns t →
    t < s.world.nextRef ∧ (s.world.connection t).loop = .worker n
  entries : ∀ l, ∀ timer ∈ (s.world.loop l).timers.entries, ∀ t, timer.timerTask = .reminder t →
    t < s.world.nextRef ∧ (s.world.connection t).loop = l
  tasks : ∀ l, ∀ task ∈ (s.world.loop l).customTasks, ∀ t, task.Concerns t →
    t < s.world.nextRef ∧ (s.world.connection t).loop = l

lemma sound_start (threadNum : ℕ) : Sound (start threadNum) where
  wellFormed := wellFormed_start threadNum
  idle _ := rfl
  held _ _ ht := absurd ht List.not_mem_nil
  remaining _ _ htask := absurd htask List.not_mem_nil
  entries _ _ ht := absurd ht List.not_mem_nil
  tasks _ _ htask := absurd htask List.not_mem_nil

/-- The deal keeps the map well formed. -/
lemma affects_checkHandup {w w' : World} (h : w.checkHandup env .base = .ok w') :
    Affects {r | r ∈ w.sessions.map Prod.snd} w w' := by
  rcases checkHandup_cases h with ⟨-, rfl⟩ | ⟨-, -, -, hdeals⟩
  · exact Affects.refl _ _
  · exact hdeals.affects

/-- The sessions that a step of a worker thread can affect have been constructed. -/
lemma Sound.involved_lt (h : Sound s) {n : ℕ} {t : Ref}
    (ht : t ∈ Involved n (s.stage n) s.world) : t < s.world.nextRef := by
  rcases ht with hmem | hheld | ⟨task, htask, hconcerns⟩ | ⟨timer, htimer, hreminds⟩
  · exact h.wellFormed.owned_lt t (List.mem_append_left _ hmem)
  · exact (h.held n t hheld).1
  · exact (h.remaining n task htask t hconcerns).1
  · exact (h.entries _ timer htimer t hreminds).1

/-- Affecting constructed sessions keeps timers and tasks where they belong. -/
lemma Sound.affects (h : Sound s) {A : Set Ref} {w : World} (hA : ∀ t ∈ A, t < s.world.nextRef)
    (hw : Affects A s.world w) : Sound { s with world := w } where
  wellFormed := h.wellFormed.affects hw
  idle l := (hw.isCheckTimers l).trans (h.idle l)
  held n t ht := by
    rw [hw.nextRef, hw.loop]
    exact h.held n t ht
  remaining n task htask t ht := by
    rw [hw.nextRef, hw.loop]
    exact h.remaining n task htask t ht
  entries l timer htimer t ht := by
    rw [hw.nextRef, hw.loop]
    rcases hw.entries l timer htimer with hold | ⟨r, hr, hl, hreminds⟩
    · exact h.entries l timer hold t ht
    · obtain rfl : r = t := by simpa using hreminds.symm.trans ht
      exact ⟨hA r hr, hl.symm⟩
  tasks l task htask t ht := by
    rw [hw.nextRef, hw.loop]
    rcases hw.tasks l task htask with hold | ⟨r, hr, hl, hconcerns⟩ | ⟨timerID, rfl⟩
    · exact h.tasks l task hold t ht
    · obtain rfl : r = t := CustomTask.concerns_unique hconcerns ht
      exact ⟨hA r hr, hl.symm⟩
    · exact ht.elim

/-- Every step of a thread keeps the process sound. -/
theorem Sound.next (h : Sound s) (hstep : s.next env step = some s') : Sound s' := by
  rcases next_cases hstep with ⟨fd, order, w, -, hok, rfl⟩ | ⟨w, -, hok, rfl⟩ |
    ⟨n, input, stage, w, -, -, hwork, rfl⟩
  · have hconnects := connect_cases h.wellFormed hok
    have hkeeps : ∀ {t : Ref} {l : LoopId},
        t < s.world.nextRef ∧ (s.world.connection t).loop = l →
        t < w.nextRef ∧ (w.connection t).loop = l := by
      rintro t l ⟨hlt, hl⟩
      rw [hconnects.nextRef, hconnects.loop t hlt.ne]
      exact ⟨hlt.trans (Nat.lt_succ_self _), hl⟩
    have hnew : s.world.nextRef < w.nextRef := by
      rw [hconnects.nextRef]
      exact Nat.lt_succ_self _
    refine ⟨hconnects.wellFormed, fun l => (hconnects.isCheckTimers l).trans (h.idle l),
      fun n t ht => hkeeps (h.held n t ht),
      fun n task htask t ht => hkeeps (h.remaining n task htask t ht),
      fun l timer htimer t ht => ?_, fun l task htask t ht => ?_⟩
    · rcases hconnects.entries l timer htimer with hold | ⟨hl, hreminds, -⟩
      · exact hkeeps (h.entries l timer hold t ht)
      · obtain rfl : s.world.nextRef = t := by simpa using hreminds.symm.trans ht
        exact ⟨hnew, hl.symm⟩
    · rcases hconnects.tasks l task htask with hold | ⟨hl, hconcerns, -⟩ | ⟨timerID, rfl⟩
      · exact hkeeps (h.tasks l task hold t ht)
      · obtain rfl := CustomTask.concerns_unique hconcerns ht
        exact ⟨hnew, hl.symm⟩
      · exact ht.elim
  · exact h.affects (fun t ht => h.wellFormed.owned_lt t (List.mem_append_left _ ht))
      (affects_checkHandup hok)
  · have hturn := turn_work h.idle (fun task htask t ht => (h.remaining n task htask t ht).2) hwork
    have hmoved := h.affects (fun t ht => h.involved_lt ht) hturn.affects
    refine { hmoved with held := fun m t ht => ?_, remaining := fun m task htask t ht => ?_ }
    · by_cases hm : m = n
      · subst hm
        simp only [Function.update_self] at ht
        rw [hturn.affects.nextRef, hturn.affects.loop]
        rcases hturn.held t ht with hbefore | hreported
        · exact h.held m t hbefore
        · exact ⟨hreported.1.1, hreported.2.1⟩
      · simp only [Function.update_of_ne hm] at ht
        exact hmoved.held m t ht
    · by_cases hm : m = n
      · subst hm
        simp only [Function.update_self] at htask
        rw [hturn.affects.nextRef, hturn.affects.loop]
        rcases hturn.tasks task htask with hbefore | hqueued
        · exact h.remaining m task hbefore t ht
        · exact h.tasks _ task hqueued t ht
      · simp only [Function.update_of_ne hm] at htask
        exact hmoved.remaining m task htask t ht

/-- **Every interleaving of the threads keeps the process sound.** -/
theorem sound_reachable (h : (interleaved env).Reachable s) : Sound s := by
  refine h.invariant ?_ fun _ _ _ h hstep => h.next hstep
  rintro s ⟨threadNum, -, rfl⟩
  exact sound_start threadNum

end Process

end Calc24
