import Calc24.App.Delivery
import Calc24.App.Intake

/-!
# From the writer to the reader

What comes in (`Intake`) and what goes out (`Delivery`) are put together here, so that a message can
be followed from the bytes that its author's connection has received to those that the kernel has
accepted for a reader.

In every interleaving of the steps of `Process`, where a package is passed on to its whole audience
in the step that takes it, however the input has been cut into chunks and whatever the kernel
answers, the lines that a client can read are texts of the server and lines that clients have
written, each behind the id of its author; nobody's line is read twice, and the lines of one author
are read in the order in which they were written (`reads_written`).  Between different authors there
is no such order: their messages reach the loop of the reader on different threads.
-/

namespace Calc24

open World

/-- A line that starts as chat messages do. -/
def isChatLine (line : Bytes) : Bool :=
  line.head? = some 99

/-! ## One step -/

/-- What an utterance sends to a session. -/
lemma Utterance.messages_sends (u : Utterance) (r : Ref) :
    messages r u.sends = List.replicate (u.audience.count r) u.message := by
  rw [messages, sends, List.reverse_reverse, List.filterMap_map]
  induction u.audience with
  | nil => rfl
  | cons t audience ih =>
    rw [List.filterMap_cons, ih, List.count_cons]
    by_cases ht : t = r
    · simp [Event.sentTo, ht, List.replicate_succ]
    · simp [Event.sentTo, ht]

namespace Process

variable {env : Environment} {s s' : Process} {step : Step} {t : Ref} {u : Utterance}

/-- The author of what a step says. -/
lemma exists_author (hsound : s.Sound) (h : s.utterance step = some u) :
    ∃ t, s.package step = some (t, u.package) ∧ u.id = (s.world.session t).id ∧
      t < s.world.nextRef ∧ s.world.owner t = step.thread := by
  cases step with
  | connect fd order => cases h
  | checkHandup => cases h
  | worker n input =>
    obtain ⟨t, hreader, hu⟩ := Option.bind_eq_some_iff.mp h
    obtain ⟨recvBuf, c, package, -, hnext, rfl⟩ := utterance_eq_some hu
    have hheld : t ∈ (s.stage n).held := by
      cases hstage : s.stage n <;> rw [hstage] at hreader <;> cases hreader
      exact List.mem_cons_self ..
    refine ⟨t, ?_, rfl, hsound.held n t hheld⟩
    rw [Process.package, hreader, Option.bind_some, hnext]

end Process

/-! ## Runs -/

/-- What comes in and what goes out. -/
structure Relay where
  intake : Intake
  outlet : Ref → Outlet

namespace Relay

variable {env : Environment} {s s' : Relay} {step : Step} {r : Ref}

/-- The server with its threads. -/
def process (s : Relay) : Process :=
  s.intake.chronicle.process

/-- Where a step leads. -/
def next (env : Environment) (s : Relay) (step : Step) : Option Relay :=
  (s.intake.next env step).map fun intake =>
    { intake := intake
      outlet := s.process.deliver env step intake.chronicle.process s.outlet }

/-- All interleavings of the threads. -/
def system (env : Environment) : TransitionSystem Relay Step where
  init s := (Intake.system env).init s.intake ∧ s.outlet = fun _ => {}
  step s step s' := s.next env step = some s'

/-- The message that a line of a client becomes. -/
def message (s : Relay) (entry : Ref × Bytes) : Bytes :=
  msgWithPrefix (s.process.world.session entry.1).id entry.2

/-- The chat packages in whose audience a session was, each with its author. -/
def addressedTo (s : Relay) (r : Ref) : List (Ref × Bytes) :=
  (((s.intake.packages.filter Intake.isChat).zip s.intake.chronicle.said.reverse).filter
    fun entry => r ∈ entry.2.audience).map Prod.fst

/-- What a step does to each of the parts. -/
lemma next_cases (h : s.next env step = some s') :
    s.process.next env step = some s'.process ∧
      s.intake.chronicle.next env step = some s'.intake.chronicle ∧
      s.intake.next env step = some s'.intake ∧
      s'.intake.packages = s.intake.packages ++ (s.process.package step).toList ∧
      s'.intake.chronicle.said = (s.process.utterance step).toList ++ s.intake.chronicle.said ∧
      s'.outlet = s.process.deliver env step s'.process s.outlet := by
  obtain ⟨intake, hintake, rfl⟩ := Option.map_eq_some_iff.mp h
  obtain ⟨chronicle, hchronicle, rfl⟩ := Option.map_eq_some_iff.mp hintake
  obtain ⟨process, hprocess, rfl⟩ := Option.map_eq_some_iff.mp hchronicle
  exact ⟨hprocess, hchronicle, hintake, rfl, rfl, rfl⟩

/-- Each of the two accounts is kept as it is alone. -/
lemma reachable_parts (h : (system env).Reachable s) :
    (Chronicle.system env).Reachable s.intake.chronicle ∧
      (Intake.system env).Reachable s.intake ∧
      (Delivery.system env).Reachable ⟨s.process, s.outlet⟩ := by
  refine h.invariant (P := fun s => (Chronicle.system env).Reachable s.intake.chronicle ∧
    (Intake.system env).Reachable s.intake ∧
    (Delivery.system env).Reachable ⟨s.process, s.outlet⟩) ?_ ?_
  · rintro ⟨intake, outlet⟩ ⟨hinit, rfl⟩
    exact ⟨.of_init hinit.1, .of_init hinit, .of_init ⟨hinit.1.1, rfl⟩⟩
  · rintro s step s' ⟨hchronicle, hintake, hdelivery⟩ hstep
    obtain ⟨hprocess, hsaid, hnext, -, -, houtlet⟩ := next_cases hstep
    refine ⟨hchronicle.tail hsaid, hintake.tail hnext, hdelivery.tail (l := step) ?_⟩
    exact Option.map_eq_some_iff.mpr ⟨s'.process, hprocess, by rw [houtlet]⟩

/-! ## Who has written what a session is sent -/

/-- As many chat packages have been taken as utterances are in the chronicle. -/
lemma length_chats (h : s.intake.Lossless) :
    (s.intake.packages.filter Intake.isChat).length = s.intake.chronicle.said.reverse.length := by
  simpa using (congrArg List.length h.said).symm

/-- A step in which nothing is said. -/
lemma addressedTo_of_quiet (h : s.intake.Lossless) (h' : s'.intake.Lossless)
    (hstep : s.next env step = some s') (hquiet : s.process.utterance step = none) (r : Ref) :
    s'.addressedTo r = s.addressedTo r := by
  obtain ⟨-, -, -, hpackages, hsaid, -⟩ := next_cases hstep
  rw [hquiet, Option.toList_none, List.nil_append] at hsaid
  have hlength := length_chats h'
  rw [hsaid, ← length_chats h, hpackages, List.filter_append, List.length_append] at hlength
  have hnone := List.length_eq_zero_iff.mp (Nat.add_eq_left.mp hlength)
  rw [addressedTo, addressedTo, hsaid, hpackages, List.filter_append, hnone, List.append_nil]

/-- A step in which something is said. -/
lemma addressedTo_of_said (h : s.intake.Lossless) (hstep : s.next env step = some s')
    {u : Utterance} {t : Ref} (hu : s.process.utterance step = some u) (hspoken : u.Spoken)
    (hpackage : s.process.package step = some (t, u.package)) (r : Ref) :
    s'.addressedTo r =
      s.addressedTo r ++ List.replicate (u.audience.count r) (t, u.package) := by
  obtain ⟨-, -, -, hpackages, hsaid, -⟩ := next_cases hstep
  have hchat : Intake.isChat (t, u.package) = true := by
    simpa [Intake.isChat] using hspoken.no_command
  have hcount : List.replicate (u.audience.count r) (t, u.package) =
      (([((t, u.package), u)].filter fun entry => r ∈ entry.2.audience).map Prod.fst) := by
    by_cases hr : r ∈ u.audience
    · simp [hr, List.count_eq_one_of_mem hspoken.nodup hr]
    · simp [hr, List.count_eq_zero.mpr hr]
  rw [hu, Option.toList_some, List.singleton_append] at hsaid
  rw [hpackage, Option.toList_some] at hpackages
  rw [hcount, addressedTo, addressedTo, hsaid, hpackages, List.filter_append, List.reverse_cons,
    List.filter_singleton, hchat, List.zip_append (length_chats h), List.filter_append,
    List.map_append]
  rfl

/-- The chat messages among the calls of `send` for a session are those addressed to it, each of
them sent by the thread of its author. -/
def Attributed (s : Relay) (r : Ref) : Prop :=
  (s.outlet r).calls.filter (fun call => isChatLine call.2) =
    (s.addressedTo r).map fun entry => (s.process.world.owner entry.1, s.message entry)

lemma addressedTo_sublist (h : s.intake.Lossless) (r : Ref) :
    (s.addressedTo r).Sublist (s.intake.packages.filter Intake.isChat) := by
  have hsub := (List.filter_sublist (p := fun entry => decide (r ∈ entry.2.audience))
    (l := (s.intake.packages.filter Intake.isChat).zip s.intake.chronicle.said.reverse)).map
      Prod.fst
  rwa [List.map_fst_zip (length_chats h).le] at hsub

/-- Every step calls for what has just been said, or for texts of the server. -/
lemma Attributed.next (h : s.Attributed r) (hlossless : s.intake.Lossless)
    (hlossless' : s'.intake.Lossless) (hstep : s.next env step = some s') : s'.Attributed r := by
  unfold Attributed at h ⊢
  obtain ⟨hprocess, -, -, -, -, houtlet⟩ := next_cases hstep
  have hsound : s.process.Sound := hlossless.sound
  -- what has been said before keeps its author
  have hkeeps : (s.addressedTo r).map
      (fun entry => (s.process.world.owner entry.1, s.message entry)) =
      (s.addressedTo r).map fun entry => (s'.process.world.owner entry.1, s'.message entry) := by
    refine List.map_congr_left fun entry hentry => ?_
    have hmem := (List.mem_filter.mp ((addressedTo_sublist hlossless r).subset hentry)).1
    have hlt := hlossless.lt entry (List.mem_append_right _ hmem)
    obtain ⟨hid, howner⟩ := Process.keeps_author hsound hprocess hlt
    rw [message, message, hid, howner]
  rcases Process.says_next hsound hprocess with
    ⟨hquiet, new, htrace, hnew⟩ | ⟨u, hu, hspoken, htrace⟩
  · have hnone : ((messages r new).map (Prod.mk step.thread)).filter
        (fun call => isChatLine call.2) = [] := by
      refine List.filter_eq_nil_iff.mpr fun call hcall => ?_
      obtain ⟨msg, hmsg, rfl⟩ := List.mem_map.mp hcall
      have hserver := (hnew _ (mem_messages.mp hmsg)).isChat_eq_false
      simpa [isChatLine, Event.isChat] using hserver
    rw [houtlet, Process.calls_deliver htrace, List.filter_append, hnone, List.append_nil, h,
      hkeeps, addressedTo_of_quiet hlossless hlossless' hstep hquiet]
  · obtain ⟨t, hpackage, hid, hlt, howner⟩ := Process.exists_author hsound hu
    obtain ⟨hid', howner'⟩ := Process.keeps_author hsound hprocess hlt
    have hmessage : s'.message (t, u.package) = u.message := by
      rw [message, hid', ← hid]
      rfl
    have hline : isChatLine u.message = true := by
      simp [isChatLine, Utterance.message, msgWithPrefix, ascii]
    rw [houtlet, Process.calls_deliver htrace, List.filter_append, h, hkeeps, u.messages_sends,
      List.map_replicate, List.filter_replicate, if_pos hline,
      addressedTo_of_said hlossless hstep hu hspoken hpackage, List.map_append,
      List.map_replicate, howner', howner, hmessage]

lemma attributed_reachable (h : (system env).Reachable s) (r : Ref) : s.Attributed r := by
  induction h with
  | init hinit =>
    unfold Attributed addressedTo
    rw [hinit.2, hinit.1.2.2]
    rfl
  | step hs _ hstep ih =>
    exact ih.next (Intake.lossless_reachable (reachable_parts hs).2.1)
      (Intake.lossless_reachable (reachable_parts (TransitionSystem.Reachable.tail hs hstep)).2.1)
      hstep

/-! ## What can be read -/

/-- What is picked out of some entries for a session. -/
lemma ofSession_sublist {l l' : List (Ref × Bytes)} (h : l.Sublist l') (t : Ref) :
    (Intake.ofSession t l).Sublist (Intake.ofSession t l') :=
  (h.filter _).map _

/-- What belongs to a session is found among the entries of its thread. -/
lemma ofSession_of_thread (t : Ref) (entries : List (Ref × Bytes)) (owner : Ref → LoopId) :
    Intake.ofSession t (entries.filter fun entry => owner entry.1 = owner t) =
      Intake.ofSession t entries := by
  rw [Intake.ofSession, Intake.ofSession, List.filter_filter]
  congr 1
  refine List.filter_congr fun entry _ => ?_
  by_cases ht : entry.1 = t <;> simp [ht]

/-- The chat packages of a session are lines of its stream. -/
lemma chats_sublist {intake : Intake} (h : intake.Lossless) (t : Ref) :
    (Intake.ofSession t (intake.packages.filter Intake.isChat)).Sublist
      ((Framing.frames LF (intake.received t)).filter fun line => line.head? ≠ some 33) := by
  have hfilter : Intake.ofSession t (intake.packages.filter Intake.isChat) =
      (Intake.ofSession t intake.packages).filter fun line => line.head? ≠ some 33 := by
    rw [Intake.ofSession, Intake.ofSession, List.filter_map, List.filter_filter, List.filter_filter]
    congr 1
    exact List.filter_congr fun _ _ => Bool.and_comm _ _
  rw [hfilter, (h.frames_received t).1, List.filter_append]
  exact List.sublist_append_left _ _

/-- **What is read is what was written.**  In every interleaving in which a package is passed on in
one step, however the input has been cut into chunks and whatever the kernel answers, a client can
read texts of the server and chat lines; each chat line is one that a client has written, with the
id of its author; what can be read of an author are the first lines that this author has addressed
to the reader; and these are lines of the author's stream that are no commands, each of them once
and in the order in which they were written. -/
theorem reads_written (h : (system env).Reachable s) (r : Ref) :
    (∀ line ∈ Framing.frames LF (s.outlet r).accepted, isChatLine line = false → ServerText line) ∧
    (∃ entries : List (Ref × Bytes),
      (Framing.frames LF (s.outlet r).accepted).filter isChatLine = entries.map s.message ∧
      ∀ t, Intake.ofSession t entries <+: Intake.ofSession t (s.addressedTo r)) ∧
    ∀ t, (Intake.ofSession t (s.addressedTo r)).Sublist
      ((Framing.frames LF (s.intake.received t)).filter fun line => line.head? ≠ some 33) := by
  obtain ⟨hchronicle, hintake, hdelivery⟩ := reachable_parts h
  have hlossless := Intake.lossless_reachable hintake
  have hagrees := (Delivery.agrees_reachable hdelivery).2
  have horder := (hagrees.whole r).inOrder
  obtain ⟨k, hk, hread⟩ := List.prefix_map_iff.mp (Delivery.frames_handled hdelivery r).2
  have hcalls := attributed_reachable h r
  unfold Attributed at hcalls
  refine ⟨fun line hline hserver => ?_, ?_, fun t => ?_⟩
  · rw [hread] at hline
    obtain ⟨x, hx, rfl⟩ := List.mem_map.mp hline
    have hcall := List.mem_map_of_mem (f := Prod.snd)
      (horder.mem_posted (List.mem_append_left _ (hk.subset hx)))
    rw [hagrees.calls, mem_messages] at hcall
    exact (Chronicle.faithful_reachable hchronicle).others r x.2 hcall hserver
  · -- the lines that can be read have their authors, thread by thread
    have hfirst : ∀ thread, Mailbox.sentBy thread (k.filter fun x => isChatLine x.2) <+:
        ((s.addressedTo r).filter fun entry => s.process.world.owner entry.1 = thread).map
          s.message := by
      intro thread
      rw [← Mailbox.sentBy_map thread (fun entry => s.process.world.owner entry.1) s.message,
        ← hcalls, ← Mailbox.filter_sentBy, ← Mailbox.filter_sentBy]
      exact (horder.sentBy_first hk thread).filter _
    obtain ⟨entries, hentries, hsource⟩ := Mailbox.exists_source hfirst
    refine ⟨entries, ?_, fun t => ?_⟩
    · have hlines := congrArg (List.map Prod.snd) hentries
      rw [List.map_map] at hlines
      rw [hread, List.filter_map]
      exact hlines
    · -- an author has only one thread
      have hthread := ((hsource (s.process.world.owner t)).filter
        fun entry => entry.1 = t).map Prod.snd
      have hentriesOf := ofSession_of_thread t entries s.process.world.owner
      have hspokenOf := ofSession_of_thread t (s.addressedTo r) s.process.world.owner
      rw [← hentriesOf, ← hspokenOf]
      exact hthread
  · exact (ofSession_sublist (addressedTo_sublist hlossless r) t).trans (chats_sublist hlossless t)

/-- The outlets and the account of the input after a list of steps. -/
def runSteps (env : Environment) : Relay → List Step → Relay :=
  TransitionSystem.runAll fun s step => s.next env step

/-- Two clients on two loops, of which the first one has said "hi". -/
def hiRelayed : Relay :=
  runSteps calm ⟨⟨⟨Process.start 2, []⟩, [], []⟩, fun _ => {}⟩ Delivery.hiTaken

/-- The second client can read one chat line, and what it can read of the first one is the line that
the first one has written. -/
theorem reads_written_hiRelayed :
    ∃ entries : List (Ref × Bytes),
      [msgWithPrefix 1 (ascii "hi\n")] = entries.map hiRelayed.message ∧
      Intake.ofSession 0 entries <+: [ascii "hi\n"] := by
  have hreach : (system calm).Reachable hiRelayed :=
    TransitionSystem.ReachableUnder.runAll (C := fun _ _ => True) (fun _ _ _ => id)
      (.init ⟨⟨⟨⟨2, by decide, rfl⟩, rfl⟩, rfl, rfl⟩, rfl⟩) (by decide)
  obtain ⟨-, ⟨entries, hread, hfirst⟩, -⟩ := reads_written hreach 1
  have hlines : (Framing.frames LF (hiRelayed.outlet 1).accepted).filter isChatLine =
      [msgWithPrefix 1 (ascii "hi\n")] := by
    decide
  have hwritten : Intake.ofSession 0 (hiRelayed.addressedTo 1) = [ascii "hi\n"] := by
    decide
  refine ⟨entries, ?_, ?_⟩
  · rw [← hread, hlines]
  · rw [← hwritten]
    exact hfirst 0

end Relay

end Calc24
