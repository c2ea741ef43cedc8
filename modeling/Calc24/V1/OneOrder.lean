import Calc24.Lib.Sequencer
import Calc24.V1.Chat

/-!
# One order for the chat

The lock makes a total order broadcast of the chat of the first version: a message gets its number
when the thread of its author takes the lock, and it is sent to the others before the lock is given
back (`Relaying`).  As long as no player who arrives makes `m_players` rehash under the loop
(`NoRehash`), whoever hears two messages therefore hears them in the order in which they were said,
everybody who is in `m_players` when a message is said hears it, and what a client has said are the
lines of what has been received from it (`oneOrder`).
-/

namespace Calc24.V1

open scoped List

namespace Chat

variable {s s' : Chat} {l : ChatStep} {p q : PlayerRef} {aMsg text : Bytes} {order : List ℕ}
  {n number : ℕ} {saying : Saying}

/-! ## Messages under the lock -/

/-- The loop of `sendMsgToOtherClients` on the thread of a client. -/
structure Sending (s : Chat) (p : PlayerRef) : Prop where
  nodup : s.remaining.Nodup
  stored : ∀ clientfd ∈ s.remaining, ∃ q, s.clients.players clientfd = some q
  current : ∃ said aMsg others, s.said = said ++ [⟨p, aMsg, others⟩] ∧
    s.msgWithOwnerInfo = ownerInfo (s.clients.clientfd p) aMsg
  heard : ∀ q, s.said.length - 1 ∈ s.heard q →
    s.clients.players (s.clients.clientfd q) = some q ∧ s.clients.clientfd q ∉ s.remaining

/-- The loop has still to come to a player. -/
def Awaits (s : Chat) (saying : Saying) (q : PlayerRef) : Prop :=
  s.clients.thread saying.author = .sendToOthers ∧
    s.clients.players (s.clients.clientfd q) = some q ∧ s.clients.clientfd q ∈ s.remaining ∧
    s.clients.clientfd q ≠ s.clients.clientfd saying.author

/-- What has been sent, and to whom it has still to be sent. -/
structure Relaying (s : Chat) : Prop where
  keyed : s.clients.Keyed
  distinct : s.clients.Distinct
  ordered : Sequencer.Ordered s.said.length s.heard
  messages : ∀ q number text, .message number text ∈ s.sent q →
    ∃ saying, s.said[number]? = some saying ∧ saying.author < s.clients.joined ∧
      saying.author ≠ q ∧ text <+: ownerInfo (s.clients.clientfd saying.author) saying.aMsg
  complete : ∀ number saying, s.said[number]? = some saying → ∀ q ∈ saying.others,
    number ∈ s.heard q ∨ number + 1 = s.said.length ∧ s.Awaits saying q
  sending : ∀ p, s.clients.thread p = .sendToOthers → s.Sending p

/-- A thread that runs is that of a player who has joined. -/
lemma Relaying.running (h : Relaying s) (hp : s.clients.thread p ≠ .notStarted) :
    p < s.clients.joined := by
  by_contra hle
  exact hp (h.keyed.notStarted p (Or.inl (not_lt.mp hle)))

/-- Players under different keys are different. -/
lemma Relaying.clientfd_ne (h : Relaying s) (hp : s.clients.Held p)
    (hq : s.clients.players (s.clients.clientfd q) = some q) (hne : q ≠ p) :
    s.clients.clientfd q ≠ s.clients.clientfd p :=
  fun heq => hne (h.distinct.eq q p (Or.inr (Or.inr hq)) hp heq)

/-- A step that has nothing to do with the messages of the chat. -/
structure Quiet (s s' : Chat) : Prop where
  clients : s.clients.Quiet s'.clients
  said : s'.said = s.said
  msgWithOwnerInfo : s'.msgWithOwnerInfo = s.msgWithOwnerInfo
  remaining : s'.remaining = s.remaining
  sent : ∀ q, ∃ new, s'.sent q = s.sent q ++ new ∧ ∀ piece ∈ new, piece.number = none

/-- Nobody hears anything in a step without a message. -/
lemma Quiet.heard (h : Quiet s s') : s'.heard = s.heard := by
  funext q
  obtain ⟨new, heq, hnew⟩ := h.sent q
  rw [Chat.heard, heq, List.filterMap_append, List.filterMap_eq_nil_iff.mpr hnew, List.append_nil]
  rfl

lemma Quiet.mem_sent (h : Quiet s s') (hmem : .message number text ∈ s'.sent q) :
    .message number text ∈ s.sent q := by
  obtain ⟨new, heq, hnew⟩ := h.sent q
  rw [heq] at hmem
  rcases List.mem_append.mp hmem with hold | hmem
  · exact hold
  · exact absurd (hnew _ hmem) (by simp [Piece.number])

/-- A step without a message keeps the order of the chat. -/
lemma Relaying.quiet (h : Relaying s) (hw : Quiet s s') (hkeyed : s'.clients.Keyed)
    (hdistinct : s'.clients.Distinct) : Relaying s' := by
  have hfd : ∀ {q}, s.clients.players (s.clients.clientfd q) = some q →
      s'.clients.clientfd q = s.clients.clientfd q := fun hq =>
    hw.clients.clientfd _ (h.keyed.key _ _ hq).2
  refine ⟨hkeyed, hdistinct, ?_, fun q number text hmem => ?_, fun number saying hsaid q hq => ?_,
    fun p hp => ?_⟩
  · rw [hw.said, hw.heard]
    exact h.ordered
  · obtain ⟨saying, hsaid, hlt, hne, hbegins⟩ := h.messages q number text (hw.mem_sent hmem)
    refine ⟨saying, by rw [hw.said, hsaid], hlt.trans_le hw.clients.joined, hne, ?_⟩
    rwa [hw.clients.clientfd _ hlt]
  · rw [hw.said] at hsaid ⊢
    rw [hw.heard]
    refine (h.complete number saying hsaid q hq).imp_right fun ⟨hlast, hauthor, hq', hmem, hne⟩ => ?_
    have hlt := h.running (p := saying.author) (by rw [hauthor]; decide)
    refine ⟨hlast, (hw.clients.sends _).mpr hauthor, ?_, ?_, ?_⟩
    · rw [hfd hq', hw.clients.players _ hauthor]
      exact hq'
    · rwa [hfd hq', hw.remaining]
    · rwa [hfd hq', hw.clients.clientfd _ hlt]
  · have hbefore := (hw.clients.sends p).mp hp
    have hlt := h.running (p := p) (by rw [hbefore]; decide)
    obtain ⟨hnodup, hstored, ⟨said, aMsg, others, hsaid, hmsg⟩, hheard⟩ := h.sending p hbefore
    refine ⟨hw.remaining ▸ hnodup, ?_, ⟨said, aMsg, others, hw.said.trans hsaid, ?_⟩, fun q hq => ?_⟩
    · rw [hw.remaining, hw.clients.players p hbefore]
      exact hstored
    · rw [hw.msgWithOwnerInfo, hmsg, hw.clients.clientfd p hlt]
    · rw [hw.said, hw.heard] at hq
      obtain ⟨hq', hnot⟩ := hheard q hq
      rw [hfd hq', hw.remaining, hw.clients.players p hbefore]
      exact ⟨hq', hnot⟩

/-- A player is stored. -/
lemma Relaying.storePlayer (h : Relaying s) (haccepting : s.clients.accepting = .storePlayer p)
    {clients : Clients} {remaining : List ℕ} (hkeyed : clients.Keyed) (hdistinct : clients.Distinct)
    (hclients : clients = { s.clients with
      accepting := .accept
      players := Function.update s.clients.players (s.clients.clientfd p) (some p) })
    (hremaining : ∀ q, s.clients.thread q = .sendToOthers →
      remaining = s.remaining ∨ remaining.Perm (s.clients.clientfd p :: s.remaining)) :
    Relaying { s with clients := clients, remaining := remaining } := by
  subst hclients
  have hheld : s.clients.Held p := Or.inl (by rw [haccepting]; rfl)
  have hnew := (h.keyed.arriving p (by rw [haccepting]; rfl)).2
  have hfresh : ∀ q, s.clients.players (s.clients.clientfd q) = some q →
      s.clients.clientfd q ≠ s.clients.clientfd p := by
    intro q hq
    refine h.clientfd_ne hheld hq ?_
    rintro rfl
    exact hnew _ hq
  have hkept : ∀ q, s.clients.players (s.clients.clientfd q) = some q →
      Function.update s.clients.players (s.clients.clientfd p) (some p) (s.clients.clientfd q) =
        some q := fun q hq => by rw [Function.update_of_ne (hfresh q hq), hq]
  have hmem : ∀ q, s.clients.thread q = .sendToOthers → ∀ clientfd ∈ remaining,
      clientfd ∈ s.remaining ∨ clientfd = s.clients.clientfd p := by
    intro q hq clientfd hmem
    rcases hremaining q hq with rfl | hperm
    · exact Or.inl hmem
    · exact (List.mem_cons.mp (hperm.mem_iff.mp hmem)).symm
  refine ⟨hkeyed, hdistinct, h.ordered, h.messages, fun number saying hsaid q hq => ?_,
    fun p' hp' => ?_⟩
  · refine (h.complete number saying hsaid q hq).imp_right fun ⟨hlast, hauthor, hq', hawait, hne⟩ => ?_
    refine ⟨hlast, hauthor, hkept q hq', ?_, hne⟩
    rcases hremaining _ hauthor with rfl | hperm
    · exact hawait
    · exact hperm.mem_iff.mpr (List.mem_cons_of_mem _ hawait)
  · obtain ⟨hnodup, hstored, hcurrent, hheard⟩ := h.sending p' hp'
    refine ⟨?_, fun clientfd hclientfd => ?_, hcurrent, fun q hq => ?_⟩
    · rcases hremaining p' hp' with rfl | hperm
      · exact hnodup
      · refine hperm.nodup_iff.mpr (List.nodup_cons.mpr ⟨fun hmem => ?_, hnodup⟩)
        obtain ⟨q, hq⟩ := hstored _ hmem
        have hkey := (h.keyed.key _ _ hq).1
        exact hfresh q (hkey ▸ hq) hkey
    · by_cases hfd : clientfd = s.clients.clientfd p
      · subst hfd
        exact ⟨p, Function.update_self ..⟩
      · obtain ⟨q, hq⟩ := hstored _ ((hmem p' hp' clientfd hclientfd).resolve_right hfd)
        exact ⟨q, (Function.update_of_ne hfd _ _).trans hq⟩
    · obtain ⟨hq', hnot⟩ := hheard q hq
      exact ⟨hkept q hq', fun hin => (hmem p' hp' _ hin).elim hnot (hfresh q hq')⟩

/-- The thread of a client takes the lock with a message. -/
lemma Relaying.lock (h : Relaying s) (hfree : s.clients.mutexForPlayers = none)
    {clients : Clients} (hkeyed : clients.Keyed) (hdistinct : clients.Distinct)
    (hclients : clients =
      { s.clients.go p .sendToOthers with mutexForPlayers := some p })
    (horder : s.IsOrder order) (stage : LoopStage) :
    Relaying { s.goTo p stage with
      clients := clients
      msgWithOwnerInfo := ownerInfo (s.clients.clientfd p) aMsg
      remaining := order
      said := s.said ++ [⟨p, aMsg, s.playersExcept p order⟩] } := by
  subst hclients
  obtain ⟨hnodup, hstored, -⟩ := horder
  have hnobody : ∀ q, s.clients.thread q ≠ .sendToOthers := by
    intro q hq
    have hexcludes := h.keyed.excludes
    rw [hfree] at hexcludes
    exact hexcludes.not_of_free q (Or.inl hq)
  have hlength : (s.said ++ [(⟨p, aMsg, s.playersExcept p order⟩ : Saying)]).length =
      s.said.length + 1 := by simp
  refine ⟨hkeyed, hdistinct, ?_, fun q number text hmem => ?_, fun number saying hsaid q hq => ?_,
    fun q hq => ?_⟩
  · rw [hlength]
    exact h.ordered.number
  · obtain ⟨saying, hsaid, hrest⟩ := h.messages q number text hmem
    refine ⟨saying, ?_, hrest⟩
    rw [List.getElem?_append_left (List.getElem?_eq_some_iff.mp hsaid).1, hsaid]
  · rcases lt_or_ge number s.said.length with hlt | hge
    · rw [List.getElem?_append_left hlt] at hsaid
      refine Or.inl ((h.complete number saying hsaid q hq).resolve_right ?_)
      exact fun hawaits => hnobody _ hawaits.2.1
    · -- the message is the new one
      rw [List.getElem?_append_right hge] at hsaid
      obtain ⟨hzero, hsaying⟩ : number - s.said.length = 0 ∧
          saying = ⟨p, aMsg, s.playersExcept p order⟩ := by
        have hlt := (List.getElem?_eq_some_iff.mp hsaid).1
        have hzero : number - s.said.length = 0 := by simpa using hlt
        rw [hzero] at hsaid
        exact ⟨hzero, (Option.some.inj hsaid).symm⟩
      subst hsaying
      obtain ⟨clientfd, hclientfd, hplayer⟩ := List.mem_filterMap.mp hq
      obtain ⟨hmem, hne⟩ := List.mem_filter.mp hclientfd
      have hkey := (h.keyed.key clientfd q hplayer).1
      subst hkey
      have hother : s.clients.clientfd q ≠ s.clients.clientfd p := by simpa using hne
      refine Or.inr ⟨?_, Function.update_self .., hplayer, hmem, hother⟩
      rw [hlength]
      omega
  · by_cases hqp : q = p
    · subst hqp
      refine ⟨hnodup, fun clientfd hmem => Option.ne_none_iff_exists'.mp (hstored clientfd hmem),
        ⟨s.said, aMsg, _, rfl, rfl⟩, fun t ht => ?_⟩
      rw [hlength, Nat.add_sub_cancel] at ht
      exact absurd (h.ordered.lt t _ ht) (lt_irrefl _)
    · have hbefore : s.clients.thread q = .sendToOthers := by
        rwa [show ({ s.clients.go p .sendToOthers with mutexForPlayers := some p } :
          Clients).thread q = s.clients.thread q from Function.update_of_ne hqp _ _] at hq
      exact absurd hbefore (hnobody q)

/-- The loop does not send to the author. -/
lemma Relaying.skip (h : Relaying s) (hp : s.clients.thread p = .sendToOthers) {remaining : List ℕ}
    (hremaining : s.remaining = s.clients.clientfd p :: remaining) :
    Relaying { s with remaining := remaining } := by
  have hauthor : ∀ q, s.clients.thread q = .sendToOthers → q = p :=
    fun q hq => h.keyed.excludes.eq (Or.inl hq) (Or.inl hp)
  refine ⟨h.keyed, h.distinct, h.ordered, h.messages, fun number saying hsaid q hq => ?_,
    fun q hq => ?_⟩
  · refine (h.complete number saying hsaid q hq).imp_right fun ⟨hlast, hthread, hq', hmem, hne⟩ => ?_
    refine ⟨hlast, hthread, hq', ?_, hne⟩
    rw [hremaining] at hmem
    rw [hauthor _ hthread] at hne
    exact (List.mem_cons.mp hmem).resolve_left hne
  · obtain ⟨hnodup, hstored, hcurrent, hheard⟩ := h.sending q hq
    rw [hremaining] at hnodup hstored
    refine ⟨(List.nodup_cons.mp hnodup).2,
      fun clientfd hmem => hstored _ (List.mem_cons_of_mem _ hmem), hcurrent,
      fun t ht => ⟨(hheard t ht).1, fun hmem => (hheard t ht).2 ?_⟩⟩
    rw [hremaining]
    exact List.mem_cons_of_mem _ hmem

/-- Who is sent a message hears its number last. -/
lemma heard_put_message (s : Chat) (q : PlayerRef) (number : ℕ) (text : Bytes) :
    (s.put q (.message number text)).heard q = s.heard q ++ [number] := by
  simp [heard, put, Piece.number]

lemma heard_put_of_ne (s : Chat) {q t : PlayerRef} (piece : Piece) (ht : t ≠ q) :
    (s.put q piece).heard t = s.heard t := by
  simp [heard, put, ht]

/-- The loop sends to a player. -/
lemma Relaying.send (h : Relaying s) (hp : s.clients.thread p = .sendToOthers) {remaining : List ℕ}
    {clientfd : ℕ} (hremaining : s.remaining = clientfd :: remaining)
    (hother : clientfd ≠ s.clients.clientfd p) (hq : s.clients.players clientfd = some q)
    (hbegins : text <+: s.msgWithOwnerInfo) :
    Relaying { s.put q (.message (s.said.length - 1) text) with remaining := remaining } := by
  obtain ⟨hkey, -⟩ := h.keyed.key clientfd q hq
  subst hkey
  have hauthor : ∀ t, s.clients.thread t = .sendToOthers → t = p :=
    fun t ht => h.keyed.excludes.eq (Or.inl ht) (Or.inl hp)
  obtain ⟨hnodup, hstored, ⟨said, aMsg, others, hsaid, hmsg⟩, hheard⟩ := h.sending p hp
  have hlength : s.said.length = said.length + 1 := by simp [hsaid]
  rw [hremaining] at hnodup hstored hheard
  obtain ⟨hfirst, hrest⟩ := List.nodup_cons.mp hnodup
  set s' := s.put q (.message (s.said.length - 1) text) with hs'
  have hself : s'.heard q = s.heard q ++ [said.length] := by
    rw [hs', heard_put_message, hlength, Nat.add_sub_cancel]
  have hothers : ∀ t ≠ q, s'.heard t = s.heard t := fun t ht => heard_put_of_ne s _ ht
  have hmono : ∀ t, ∀ i ∈ s.heard t, i ∈ s'.heard t := by
    intro t i hi
    by_cases ht : t = q
    · subst ht
      rw [hself]
      exact List.mem_append_left _ hi
    · rwa [hothers t ht]
  have hnot : said.length ∉ s.heard q := by
    intro hmem
    have hlast := (hheard q (by rwa [hlength, Nat.add_sub_cancel])).2
    exact hlast (List.mem_cons_self ..)
  refine ⟨h.keyed, h.distinct, ?_, fun t number piece hmem => ?_,
    fun number saying hnumber t ht => ?_, fun t ht => ?_⟩
  · have hordered := h.ordered
    change Sequencer.Ordered s.said.length s'.heard
    rw [hlength] at hordered ⊢
    exact hordered.hear hnot hself hothers
  · by_cases htq : t = q
    · subst htq
      have hsent : s'.sent t = s.sent t ++ [.message (s.said.length - 1) text] := by
        simp [hs', put]
      rw [show ({ s' with remaining := remaining } : Chat).sent t = s'.sent t from rfl, hsent] at hmem
      rcases List.mem_append.mp hmem with hold | hnew
      · exact h.messages t number piece hold
      · obtain ⟨rfl, rfl⟩ : number = s.said.length - 1 ∧ piece = text := by simpa using hnew
        refine ⟨⟨p, aMsg, others⟩, ?_, h.running (by rw [hp]; decide), ?_, hmsg ▸ hbegins⟩
        · change s.said[s.said.length - 1]? = _
          rw [hlength, Nat.add_sub_cancel, hsaid]
          simp
        · rintro rfl
          exact hother rfl
    · have hsent : s'.sent t = s.sent t := by simp [hs', put, htq]
      rw [show ({ s' with remaining := remaining } : Chat).sent t = s'.sent t from rfl, hsent] at hmem
      exact h.messages t number piece hmem
  · rcases h.complete number saying hnumber t ht with hold | ⟨hlast, hthread, ht', hmem, hne⟩
    · exact Or.inl (hmono t number hold)
    · rw [hremaining] at hmem
      rcases List.mem_cons.mp hmem with hfd | hrest
      · -- it is this player's turn
        rw [hfd, hq] at ht'
        obtain rfl : q = t := Option.some.inj ht'
        refine Or.inl ?_
        change number ∈ s'.heard q
        rw [hself, show number = said.length by omega]
        exact List.mem_append_right _ (List.mem_singleton_self _)
      · exact Or.inr ⟨hlast, hthread, ht', hrest, hne⟩
  · obtain rfl := hauthor t ht
    refine ⟨hrest, fun fd hfd => hstored fd (List.mem_cons_of_mem _ hfd),
      ⟨said, aMsg, others, hsaid, hmsg⟩, fun t' ht' => ?_⟩
    by_cases htq : t' = q
    · subst htq
      exact ⟨hq, hfirst⟩
    · have hbefore : s.said.length - 1 ∈ s.heard t' := hothers t' htq ▸ ht'
      obtain ⟨hplayer, hmem⟩ := hheard t' hbefore
      exact ⟨hplayer, fun hin => hmem (List.mem_cons_of_mem _ hin)⟩

/-! ## Whole runs -/

/-- A step on top of a step of the clients. -/
lemma exists_clients_step {l : ClientsStep} {f : Clients → Chat}
    (h : (s.clients.next l).map f = some s') :
    ∃ clients, Clients.system.step s.clients l clients ∧ s' = f clients := by
  obtain ⟨clients, hnext, rfl⟩ := Option.map_eq_some_iff.mp h
  exact ⟨clients, hnext, rfl⟩

/-- The steps of `Clients` send no message of the chat. -/
lemma Quiet.of_clients (h : s.clients.Quiet s'.clients) (hsaid : s'.said = s.said)
    (hmsg : s'.msgWithOwnerInfo = s.msgWithOwnerInfo) (hremaining : s'.remaining = s.remaining)
    (hsent : s'.sent = s.sent) : Quiet s s' :=
  ⟨h, hsaid, hmsg, hremaining, fun q => ⟨[], by rw [hsent, List.append_nil], by simp⟩⟩

lemma quiet_put {clients : Clients} {piece : Piece} (h : s.clients.Quiet clients)
    (hpiece : piece.number = none) : Quiet s { s.put p piece with clients := clients } := by
  refine ⟨h, rfl, rfl, rfl, fun q => ?_⟩
  by_cases hq : q = p
  · subst hq
    exact ⟨[piece], by simp [put], by simpa using hpiece⟩
  · exact ⟨[], by simp [put, hq], by simp⟩

/-- Every step keeps the order, unless it makes `m_players` rehash under the loop. -/
theorem Relaying.step (h : Relaying s) (hplace : s.NoRehash l) (hstep : system.step s l s') :
    Relaying s' := by
  have hquiet : ∀ {l' clients}, Clients.system.step s.clients l' clients → l' ≠ .storePlayer →
      (∀ p, l' ≠ .lockToSend p) → (∀ p, l' ≠ .unlockSent p) → s.clients.Quiet clients :=
    fun hstep hstore hlock hunlock => Clients.quiet_step h.keyed hstep hstore hlock hunlock
  cases l with
  | clients l' =>
    simp only [system, next] at hstep
    split at hstep
    · cases hstep
    · cases hstep
    · cases hstep
    · cases hstep
    · cases hstep
    · next hstore hwelcome hreceive hlock hunlock =>
      obtain ⟨clients, hclients, rfl⟩ := exists_clients_step hstep
      exact h.quiet (.of_clients (hquiet hclients hstore hlock hunlock) rfl rfl rfl rfl)
        (h.keyed.step hclients) (h.distinct.step hclients)
  | storePlayer insertion =>
    simp only [system, next] at hstep
    split at hstep
    · next p haccepting =>
      obtain ⟨clients, hclients, rfl⟩ := exists_clients_step hstep
      have heq : clients = { s.clients with
          accepting := .accept
          players := Function.update s.clients.players (s.clients.clientfd p) (some p) } := by
        have hnext := hclients
        simp only [Clients.system, Clients.next, haccepting] at hnext
        exact (Option.some.inj hnext).symm
      refine h.storePlayer haccepting (h.keyed.step hclients) (h.distinct.step hclients) heq
        fun q hq => ?_
      cases insertion with
      | inPlace met =>
        cases met with
        | none => exact Or.inl rfl
        | some k =>
          rcases le_or_gt k s.remaining.length with hle | hgt
          · exact Or.inr (List.perm_insertIdx _ _ hle)
          · exact Or.inl (List.insertIdx_of_length_lt hgt)
      | rehash order =>
        -- then nobody is passing a message on
        have hfree : s.clients.mutexForPlayers = none := hplace
        have hheld := h.keyed.excludes q (Or.inl hq)
        rw [hfree] at hheld
        cases hheld
    · cases hstep
  | senWelcomeMsg p sentLength =>
    obtain ⟨-, hstep⟩ := Option.ite_none_right_eq_some.mp hstep
    obtain ⟨clients, hclients, rfl⟩ := exists_clients_step hstep
    exact h.quiet (quiet_put (hquiet hclients (by simp) (by simp) (by simp)) rfl)
      (h.keyed.step hclients) (h.distinct.step hclients)
  | sendCards p cards sentLength =>
    obtain ⟨-, hstep⟩ := Option.ite_none_right_eq_some.mp hstep
    obtain ⟨clients, hclients, rfl⟩ := exists_clients_step hstep
    exact h.quiet (quiet_put (hquiet hclients (by simp) (by simp) (by simp)) rfl)
      (h.keyed.step hclients) (h.distinct.step hclients)
  | recvData p n =>
    obtain ⟨-, hstep⟩ := Option.ite_none_right_eq_some.mp hstep
    obtain ⟨clients, hclients, rfl⟩ := exists_clients_step hstep
    exact h.quiet (.of_clients (hquiet hclients (by simp) (by simp) (by simp)) rfl rfl rfl rfl)
      (h.keyed.step hclients) (h.distinct.step hclients)
  | handleClientMsg p =>
    obtain ⟨-, hstep⟩ := Option.ite_none_right_eq_some.mp hstep
    have hsame : s.clients.Quiet s.clients :=
      ⟨le_refl _, fun _ _ => rfl, fun _ => Iff.rfl, fun _ _ => rfl⟩
    split at hstep <;> obtain rfl := Option.some.inj hstep
    · exact h.quiet (.of_clients hsame rfl rfl rfl rfl) h.keyed h.distinct
    · exact h.quiet (.of_clients hsame rfl rfl rfl rfl) h.keyed h.distinct
  | lock p order =>
    simp only [system, next] at hstep
    split at hstep
    · next aMsg hloop =>
      obtain ⟨horder, hstep⟩ := Option.ite_none_right_eq_some.mp hstep
      obtain ⟨clients, hclients, rfl⟩ := exists_clients_step hstep
      obtain ⟨⟨-, hfree⟩, heq⟩ := Option.ite_none_right_eq_some.mp hclients
      exact h.lock hfree (h.keyed.step hclients) (h.distinct.step hclients)
        (Option.some.inj heq).symm horder _
    · cases hstep
  | sendMsgToClient p sentLength =>
    obtain ⟨hp, hstep⟩ := Option.ite_none_right_eq_some.mp hstep
    split at hstep
    · cases hstep
    · next clientfd remaining hremaining =>
      split at hstep
      · next hself =>
        obtain rfl := Option.some.inj hstep
        exact h.skip hp (hself ▸ hremaining)
      · next hother =>
        split at hstep
        · cases hstep
        · next q hq =>
          obtain ⟨-, hstep⟩ := Option.ite_none_right_eq_some.mp hstep
          obtain rfl := Option.some.inj hstep
          exact h.send hp hremaining hother hq (List.take_prefix _ _)
  | unlock p =>
    obtain ⟨hremaining, hstep⟩ := Option.ite_none_right_eq_some.mp hstep
    obtain ⟨clients, hclients, rfl⟩ := exists_clients_step hstep
    have hkeyed := h.keyed.step hclients
    have hdistinct := h.distinct.step hclients
    obtain ⟨hstage, heq⟩ := Option.ite_none_right_eq_some.mp hclients
    obtain rfl := Option.some.inj heq
    refine ⟨hkeyed, hdistinct, h.ordered, h.messages, fun number saying hsaid q hq => ?_,
      fun q hq => ?_⟩
    · refine Or.inl ((h.complete number saying hsaid q hq).resolve_right fun hawaits => ?_)
      have hmem := hawaits.2.2.2.1
      rw [hremaining] at hmem
      cases hmem
    · -- nobody else holds the lock
      by_cases hqp : q = p
      · subst hqp
        simp [Clients.go] at hq
      · have hbefore : s.clients.thread q = .sendToOthers := by simpa [Clients.go, hqp] using hq
        exact absurd (h.keyed.excludes.eq (Or.inl hbefore) (Or.inl hstage)) hqp

lemma relaying_empty : Relaying empty where
  keyed := Clients.keyed_empty
  distinct := Clients.distinct_of_reachable (.of_init rfl)
  ordered := Sequencer.ordered_nil
  messages _ _ _ hmem := by cases hmem
  complete _ _ hsaid := by cases hsaid
  sending _ hp := by cases hp

/-- The order is kept in all runs without such a step. -/
lemma relaying_of_reachable (h : system.ReachableUnder NoRehash s) : Relaying s := by
  refine h.invariant ?_ fun _ _ _ hs hplace hstep => hs.step hplace hstep
  rintro s rfl
  exact relaying_empty

/-! ## What a client says -/

/-- What a client has said, is about to say, and has not come to yet is what has been received from
it. -/
structure SpeaksFor (s : Chat) (p : PlayerRef) : Prop where
  lines : Framing.frames LF (s.received p) =
    s.saidBy p ++ (s.loop p).pending ++ Framing.frames LF (s.recvBuf p)
  residue : Framing.residue LF (s.received p) = Framing.residue LF (s.recvBuf p)
  read : s.loop p = .recvData → LF ∉ s.recvBuf p

/-- The receive loop of the client stays where it is, and the client says nothing. -/
lemma SpeaksFor.of_eq (h : SpeaksFor s p) (hloop : s'.loop p = s.loop p)
    (hrecvBuf : s'.recvBuf p = s.recvBuf p) (hreceived : s'.received p = s.received p)
    (hsaid : s'.saidBy p = s.saidBy p) : SpeaksFor s' p where
  lines := by rw [hreceived, hsaid, hloop, hrecvBuf, h.lines]
  residue := by rw [hreceived, hrecvBuf, h.residue]
  read hread := by
    rw [hrecvBuf]
    exact h.read (hloop ▸ hread)

/-- What is received is appended to the buffer. -/
lemma recvData_snd (n : RecvResult) (recvBuf : Bytes) :
    (Player.recvData n recvBuf).2 = recvBuf ++ arrived n := by
  cases n with
  | data clientMsg => rfl
  | eof => simp [Player.recvData, arrived]
  | error e => cases e <;> simp [Player.recvData, arrived]

/-- `Player::handleClientMsg` takes the first line off the buffer. -/
lemma handleClientMsg_cases {recvBuf recvBuf' aMsg : Bytes}
    (h : Player.handleClientMsg recvBuf = (aMsg, recvBuf')) :
    (aMsg = [] ∧ recvBuf' = recvBuf ∧ LF ∉ recvBuf) ∨
      (aMsg ≠ [] ∧ Framing.frames LF recvBuf = aMsg :: Framing.frames LF recvBuf' ∧
        Framing.residue LF recvBuf = Framing.residue LF recvBuf') := by
  rcases Framing.not_mem_or_exists_first LF recvBuf with hno | ⟨body, rest, hbody, rfl⟩
  · rw [Player.handleClientMsg_of_not_mem hno] at h
    obtain ⟨rfl, rfl⟩ := Prod.mk.inj h
    exact Or.inl ⟨rfl, rfl, hno⟩
  · rw [Player.handleClientMsg_frame rest hbody] at h
    obtain ⟨rfl, rfl⟩ := Prod.mk.inj h
    exact Or.inr ⟨by simp, Framing.frames_append_delimiter hbody,
      Framing.residue_append_delimiter hbody⟩

/-- One more thing has been said. -/
lemma saidBy_append (s : Chat) (saying : Saying) (p : PlayerRef) :
    ((s.said ++ [saying]).filter fun saying => saying.author = p).map Saying.aMsg =
      s.saidBy p ++ if saying.author = p then [saying.aMsg] else [] := by
  rw [List.filter_append, List.map_append]
  by_cases hp : saying.author = p <;> simp [hp, saidBy]

/-- Every step keeps it. -/
theorem SpeaksFor.step (h : SpeaksFor s p) (hstep : system.step s l s') : SpeaksFor s' p := by
  cases l with
  | clients l' =>
    simp only [system, next] at hstep
    split at hstep
    · cases hstep
    · cases hstep
    · cases hstep
    · cases hstep
    · cases hstep
    · obtain ⟨clients, -, rfl⟩ := exists_clients_step hstep
      exact h.of_eq rfl rfl rfl rfl
  | storePlayer insertion =>
    simp only [system, next] at hstep
    split at hstep
    · obtain ⟨clients, -, rfl⟩ := exists_clients_step hstep
      exact h.of_eq rfl rfl rfl rfl
    · cases hstep
  | senWelcomeMsg q sentLength =>
    obtain ⟨-, hstep⟩ := Option.ite_none_right_eq_some.mp hstep
    obtain ⟨clients, -, rfl⟩ := exists_clients_step hstep
    exact h.of_eq rfl rfl rfl rfl
  | sendCards q cards sentLength =>
    obtain ⟨-, hstep⟩ := Option.ite_none_right_eq_some.mp hstep
    obtain ⟨clients, -, rfl⟩ := exists_clients_step hstep
    exact h.of_eq rfl rfl rfl rfl
  | recvData q n =>
    obtain ⟨⟨hloop, -⟩, hstep⟩ := Option.ite_none_right_eq_some.mp hstep
    obtain ⟨clients, -, rfl⟩ := exists_clients_step hstep
    by_cases hq : p = q
    · subst hq
      have hlines := h.lines
      simp only [hloop, LoopStage.pending, List.append_nil] at hlines
      refine ⟨?_, ?_, fun hread => ?_⟩
      · simp only [goTo, Function.update_self, recvData_snd, LoopStage.pending, List.append_nil]
        rw [Framing.frames_append, hlines, h.residue, Framing.frames_append LF (s.recvBuf p),
          List.append_assoc]
        rfl
      · simp only [Function.update_self, recvData_snd]
        rw [Framing.residue_append, h.residue, ← Framing.residue_append]
      · simp [goTo] at hread
    · exact h.of_eq (by simp [goTo, hq]) (by simp [hq]) (by simp [hq]) rfl
  | handleClientMsg q =>
    obtain ⟨⟨-, hloop⟩, hstep⟩ := Option.ite_none_right_eq_some.mp hstep
    by_cases hq : p = q
    · subst hq
      have hlines := h.lines
      simp only [hloop, LoopStage.pending, List.append_nil] at hlines
      split at hstep
      · next recvBuf hmsg =>
        obtain rfl := Option.some.inj hstep
        rcases handleClientMsg_cases hmsg with ⟨-, rfl, hno⟩ | ⟨hne, -, -⟩
        · refine ⟨?_, ?_, fun _ => ?_⟩
          · simp only [goTo, Function.update_self, LoopStage.pending, List.append_nil]
            exact hlines
          · simp only [Function.update_self]
            exact h.residue
          · simpa using hno
        · exact absurd rfl hne
      · next x xs recvBuf hmsg =>
        obtain rfl := Option.some.inj hstep
        rcases handleClientMsg_cases hmsg with ⟨hnil, -, -⟩ | ⟨-, hframes, hresidue⟩
        · cases hnil
        · refine ⟨?_, ?_, fun hread => ?_⟩
          · simp only [goTo, Function.update_self, LoopStage.pending]
            rw [hframes] at hlines
            rw [hlines, List.append_assoc]
            rfl
          · simp only [Function.update_self]
            rw [← hresidue]
            exact h.residue
          · simp [goTo] at hread
    · split at hstep <;> obtain rfl := Option.some.inj hstep
      · exact h.of_eq (by simp [goTo, hq]) (by simp [hq]) rfl rfl
      · exact h.of_eq (by simp [goTo, hq]) (by simp [hq]) rfl rfl
  | lock q order =>
    simp only [system, next] at hstep
    split at hstep
    · next aMsg hloop =>
      obtain ⟨-, hstep⟩ := Option.ite_none_right_eq_some.mp hstep
      obtain ⟨clients, -, rfl⟩ := exists_clients_step hstep
      by_cases hq : p = q
      · subst hq
        have hlines := h.lines
        rw [hloop] at hlines
        refine ⟨?_, h.residue, fun hread => ?_⟩
        · simp only [saidBy, saidBy_append, goTo, Function.update_self, LoopStage.pending, if_true,
            List.append_nil]
          exact hlines
        · simp [goTo] at hread
      · refine h.of_eq (by simp [goTo, hq]) rfl rfl ?_
        simp only [saidBy, saidBy_append, if_neg (Ne.symm hq), List.append_nil]
    · cases hstep
  | sendMsgToClient q sentLength =>
    obtain ⟨-, hstep⟩ := Option.ite_none_right_eq_some.mp hstep
    split at hstep
    · cases hstep
    · split at hstep
      · obtain rfl := Option.some.inj hstep
        exact h.of_eq rfl rfl rfl rfl
      · split at hstep
        · cases hstep
        · obtain ⟨-, hstep⟩ := Option.ite_none_right_eq_some.mp hstep
          obtain rfl := Option.some.inj hstep
          exact h.of_eq rfl rfl rfl rfl
  | unlock q =>
    obtain ⟨-, hstep⟩ := Option.ite_none_right_eq_some.mp hstep
    obtain ⟨clients, -, rfl⟩ := exists_clients_step hstep
    exact h.of_eq rfl rfl rfl rfl

/-- What a client has said is what has been received from it, in all runs. -/
lemma speaksFor_of_reachable {C : Chat → ChatStep → Prop} (h : system.ReachableUnder C s)
    (p : PlayerRef) : SpeaksFor s p := by
  refine h.invariant (P := fun s => SpeaksFor s p) ?_ fun _ _ _ hs _ hstep => hs.step hstep
  rintro s rfl
  exact ⟨rfl, rfl, fun _ => List.not_mem_nil⟩

/-- A line in the receive buffer is taken off it. -/
lemma step_handleClientMsg {body rest : Bytes} (hp : s.clients.thread p = .receive)
    (hloop : s.loop p = .handleClientMsg) (hbuf : s.recvBuf p = body ++ LF :: rest)
    (hbody : LF ∉ body) :
    system.step s (.handleClientMsg p)
      { s.goTo p (.sendMsgToOtherClients (body ++ [LF])) with
        recvBuf := Function.update s.recvBuf p rest } := by
  have hmsg := Player.handleClientMsg_frame rest hbody
  rw [← hbuf] at hmsg
  simp only [system, next, if_pos (And.intro hp hloop)]
  split <;> rename_i heq <;> rw [hmsg] at heq
  · exact absurd (congrArg Prod.fst heq) (by simp)
  · obtain ⟨hline, rfl⟩ := Prod.mk.inj heq
    rw [hline]

/-! ## One order -/

/-- The chat is a total order broadcast of the lines of the clients. -/
structure OneOrder (s : Chat) : Prop where
  once : ∀ p, (s.heard p).Nodup
  agree : ∀ p q i j, [i, j] <+ s.heard p → i ∈ s.heard q → j ∈ s.heard q → [i, j] <+ s.heard q
  authentic : ∀ q number text, .message number text ∈ s.sent q →
    ∃ saying, s.said[number]? = some saying ∧ saying.author ≠ q ∧
      text <+: ownerInfo (s.clients.clientfd saying.author) saying.aMsg
  complete : ∀ number saying, s.said[number]? = some saying → ∀ q ∈ saying.others,
    number ∈ s.heard q ∨
      number + 1 = s.said.length ∧ s.clients.mutexForPlayers = some saying.author
  lines : ∀ p, Framing.frames LF (s.received p) =
    s.saidBy p ++ (s.loop p).pending ++ Framing.frames LF (s.recvBuf p)

/-- **Everybody hears the chat in the same order.**  In every interleaving of the threads in which
no new player makes `m_players` rehash while a message is being passed on, nobody hears a message
twice or one of its own, what is heard is the beginning of what has been said, any two clients hear
the messages that both hear in the same order, whoever else was in `m_players` when a message was
said hears it before the lock is given back, and what each client has said, or is about to say, are
the lines of what has been received from it, in order. -/
theorem oneOrder (h : system.ReachableUnder NoRehash s) : OneOrder s := by
  have hrelaying := relaying_of_reachable h
  refine ⟨hrelaying.ordered.nodup, fun p q i j => hrelaying.ordered.agree,
    fun q number text hmem => ?_, fun number saying hsaid q hq => ?_,
    fun p => (speaksFor_of_reachable h p).lines⟩
  · obtain ⟨saying, hsaid, -, hne, hbegins⟩ := hrelaying.messages q number text hmem
    exact ⟨saying, hsaid, hne, hbegins⟩
  · refine (hrelaying.complete number saying hsaid q hq).imp_right fun ⟨hlast, hauthor, _⟩ => ?_
    exact ⟨hlast, hrelaying.keyed.excludes _ (Or.inl hauthor)⟩

/-- The arrival of a client. -/
def arrival (clientfd : ℕ) (p : PlayerRef) : List ChatStep :=
  [.clients (.accept clientfd), .clients .startThread, .clients .storeThread,
    .storePlayer (.inPlace none), .senWelcomeMsg p 24]

/-- Two clients have arrived, and the first one has sent a line. -/
def sentLine : Chat :=
  TransitionSystem.runAll next empty
    (arrival 5 0 ++ arrival 6 1 ++ [.recvData 0 (.data (ascii "hi\n"))])

/-- The line has been taken off the buffer. -/
def tookLine : Chat :=
  { sentLine.goTo 0 (.sendMsgToOtherClients (ascii "hi" ++ [LF])) with
    recvBuf := Function.update sentLine.recvBuf 0 [] }

/-- A part of it is sent to the second client. -/
theorem oneOrder_hi :
    OneOrder (TransitionSystem.runAll next tookLine
      [.lock 0 [6, 5], .sendMsgToClient 0 7, .sendMsgToClient 0 0, .unlock 0]) := by
  have hsent : system.ReachableUnder NoRehash sentLine :=
    (TransitionSystem.ReachableUnder.init rfl).runAll (fun _ _ _ h => h) (by decide)
  have htook : system.ReachableUnder NoRehash tookLine :=
    hsent.step (l := .handleClientMsg 0) trivial
      (step_handleClientMsg (by decide) (by decide) (by decide) (by decide))
  exact oneOrder (htook.runAll (fun _ _ _ h => h) (by decide))

/-- A rehash under the loop can bring it to the second client again. -/
example : (TransitionSystem.runAll next tookLine
    [.clients (.accept 7), .clients .startThread, .clients .storeThread, .lock 0 [6, 5],
      .sendMsgToClient 0 7, .storePlayer (.rehash [5, 6, 7]), .sendMsgToClient 0 0,
      .sendMsgToClient 0 7]).heard 1 = [0, 0] := by
  decide

end Chat

end Calc24.V1
