import Mathlib

/-!
# Mailboxes with a direct path

A mailbox belongs to one thread, its owner.  What the owner posts is handled at once; what other
threads post goes into a queue, which the owner takes as a whole and handles message by message.
The two paths can reorder messages of different threads, but not those of one thread: the owner
never has messages in the queue, and every other thread uses nothing else
(`Mailbox.InOrder`, kept by `post`, `take` and `handleNext`).

What the owner has seen of a thread, handled or in its batch, only grows (`seen_post`, `seen_take`),
and if what has been handled is of each thread the first part of what a source says, the source can
be named for each message (`exists_source`).

What comes before what in a mailbox is read off its `contents`, the handled messages followed by
the pending ones.  Only the direct path puts a message in front of others, so it keeps
`Preceded p q`, that every `p` comes after some `q`, where a `q` has been handled already
(`preceded_post`).
-/

/-- In the list every element with `p` comes after some element with `q`. -/
def Preceded {α : Type*} (p q : α → Prop) : List α → Prop
  | [] => True
  | x :: l => ¬ p x ∧ (q x ∨ Preceded p q l)

section Preceded

variable {α β : Type*} {p q : α → Prop} {l l' : List α} {x : α}

/-- Wherever the list is cut before an element with `p`, there is one with `q` in front. -/
lemma preceded_iff :
    Preceded p q l ↔ ∀ before x after, l = before ++ x :: after → p x → ∃ y ∈ before, q y := by
  induction l with
  | nil => simp [Preceded]
  | cons y l ih =>
    rw [Preceded, ih]
    constructor
    · rintro ⟨hy, hl⟩ before x after heq hx
      cases before with
      | nil =>
        obtain ⟨rfl, -⟩ := List.cons.inj heq
        exact absurd hx hy
      | cons z before =>
        obtain ⟨rfl, hrest⟩ := List.cons.inj heq
        rcases hl with hq | hl
        · exact ⟨y, List.mem_cons_self .., hq⟩
        · obtain ⟨u, hu, hqu⟩ := hl before x after hrest hx
          exact ⟨u, List.mem_cons_of_mem _ hu, hqu⟩
    · intro h
      constructor
      · intro hy
        obtain ⟨u, hu, -⟩ := h [] y l rfl hy
        cases hu
      · by_cases hq : q y
        · exact Or.inl hq
        · refine Or.inr fun before x after heq hx => ?_
          obtain ⟨u, hu, hqu⟩ := h (y :: before) x after (by rw [heq, List.cons_append]) hx
          rcases List.mem_cons.mp hu with rfl | hu
          · exact absurd hqu hq
          · exact ⟨u, hu, hqu⟩

/-- An element can be put where a `q` has come before, or where it is no `p` itself. -/
lemma Preceded.insert (h : Preceded p q (l ++ l')) (hx : p x → ∃ y ∈ l, q y) :
    Preceded p q (l ++ x :: l') := by
  induction l with
  | nil =>
    refine ⟨fun hp => ?_, Or.inr h⟩
    obtain ⟨y, hy, -⟩ := hx hp
    cases hy
  | cons z l ih =>
    obtain ⟨hz, hl⟩ := h
    refine ⟨hz, ?_⟩
    by_cases hq : q z
    · exact Or.inl hq
    · refine Or.inr (ih (hl.resolve_left hq) fun hp => ?_)
      obtain ⟨y, hy, hqy⟩ := hx hp
      rcases List.mem_cons.mp hy with rfl | hy
      · exact absurd hqy hq
      · exact ⟨y, hy, hqy⟩

/-- Without an element with `p` there is nothing to show. -/
lemma preceded_of_forall_not (h : ∀ x ∈ l, ¬ p x) : Preceded p q l :=
  preceded_iff.mpr fun before x after heq hx => absurd hx (h x (by simp [heq]))

/-- What comes first is not changed by what follows. -/
lemma Preceded.of_append (h : Preceded p q (l ++ l')) : Preceded p q l := by
  induction l with
  | nil => trivial
  | cons z l ih => exact ⟨h.1, h.2.imp_right ih⟩

/-- The order in what a property and a map pick out of a list. -/
lemma Preceded.filter_map {r : α → Prop} [DecidablePred r] {f : α → β} {p' q' : β → Prop}
    (h : Preceded (fun x => r x ∧ p' (f x)) (fun x => r x ∧ q' (f x)) l) :
    Preceded p' q' ((l.filter r).map f) := by
  induction l with
  | nil => trivial
  | cons z l ih =>
    obtain ⟨hz, hl⟩ := h
    by_cases hr : r z
    · rw [List.filter_cons_of_pos (by simpa using hr), List.map_cons]
      exact ⟨fun hp => hz ⟨hr, hp⟩, hl.imp And.right ih⟩
    · rw [List.filter_cons_of_neg (by simpa using hr)]
      exact ih (hl.resolve_left fun hq => hr hq.1)

end Preceded

/-- The messages of a mailbox, each with the thread that posted it: those that have been handled,
the batch that the owner has taken, and the queue. -/
structure Mailbox (T M : Type*) where
  handled : List (T × M) := []
  batch : List (T × M) := []
  queue : List (T × M) := []
  deriving DecidableEq, Repr

namespace Mailbox

variable {T M : Type*} [DecidableEq T]

/-- The messages of one thread. -/
def sentBy (thread : T) (messages : List (T × M)) : List M :=
  (messages.filter fun x => x.1 = thread).map Prod.snd

/-- What has been posted and not handled yet, in the order in which it will be. -/
def pending (b : Mailbox T M) : List (T × M) :=
  b.batch ++ b.queue

/-- A thread posts a message. -/
def post (owner : T) (x : T × M) (b : Mailbox T M) : Mailbox T M :=
  if x.1 = owner then { b with handled := b.handled ++ [x] }
  else { b with queue := b.queue ++ [x] }

/-- The owner takes the queue. -/
def take (b : Mailbox T M) : Mailbox T M :=
  { b with batch := b.queue, queue := [] }

/-- The owner handles the first message of its batch. -/
def handleNext (b : Mailbox T M) : Mailbox T M :=
  match b.batch with
  | [] => b
  | x :: batch => { b with handled := b.handled ++ [x], batch := batch }

/-- The law of a mailbox with the messages `posted`: the owner has nothing pending, and what of
each thread has been handled or is pending is what it has posted, in order. -/
structure InOrder (owner : T) (posted : List (T × M)) (b : Mailbox T M) : Prop where
  foreign : ∀ x ∈ b.pending, x.1 ≠ owner
  order : ∀ thread, sentBy thread b.handled ++ sentBy thread b.pending = sentBy thread posted

variable {owner : T} {posted : List (T × M)} {b : Mailbox T M}

/-- The messages of a thread in two lists, one behind the other. -/
@[simp] lemma sentBy_append (thread : T) (l l' : List (T × M)) :
    sentBy thread (l ++ l') = sentBy thread l ++ sentBy thread l' := by
  simp [sentBy]

/-- A thread that posted none of some messages. -/
lemma sentBy_eq_nil {thread : T} {l : List (T × M)} (h : ∀ x ∈ l, x.1 ≠ thread) :
    sentBy thread l = [] := by
  rw [sentBy, List.map_eq_nil_iff, List.filter_eq_nil_iff]
  simpa using h

lemma inOrder_empty : InOrder owner [] ({} : Mailbox T M) :=
  ⟨fun _ hx => absurd hx List.not_mem_nil, fun _ => rfl⟩

/-- Posting keeps the law. -/
lemma InOrder.post (h : InOrder owner posted b) (x : T × M) :
    InOrder owner (posted ++ [x]) (b.post owner x) := by
  by_cases hx : x.1 = owner
  · refine ⟨?_, fun thread => ?_⟩
    · rw [Mailbox.post, if_pos hx]
      exact h.foreign
    have horder := h.order thread
    simp only [Mailbox.post, if_pos hx, pending, sentBy_append] at horder ⊢
    by_cases hthread : thread = owner
    · -- nothing of the owner is pending, so its message is the last one
      have hnone := sentBy_eq_nil (hthread ▸ h.foreign)
      simp only [pending, sentBy_append, List.append_eq_nil_iff] at hnone
      simp only [hnone.1, hnone.2, List.append_nil] at horder ⊢
      rw [horder]
    · have hnone : sentBy thread [x] = [] :=
        sentBy_eq_nil fun y hy => by
          rw [List.mem_singleton.mp hy, hx]
          exact Ne.symm hthread
      rw [hnone, List.append_nil, List.append_nil]
      exact horder
  · refine ⟨fun y hy => ?_, fun thread => ?_⟩
    · simp only [Mailbox.post, if_neg hx, pending] at hy
      rw [← List.append_assoc, List.mem_append, List.mem_singleton] at hy
      rcases hy with hy | rfl
      · exact h.foreign y hy
      · exact hx
    · have horder := h.order thread
      simp only [Mailbox.post, if_neg hx, pending, sentBy_append] at horder ⊢
      rw [← horder, List.append_assoc, List.append_assoc]

/-- Taking the queue keeps the law. -/
lemma InOrder.take (h : InOrder owner posted b) (hbatch : b.batch = []) :
    InOrder owner posted b.take := by
  have hpending : b.take.pending = b.pending := by simp [Mailbox.take, pending, hbatch]
  refine ⟨by rw [hpending]; exact h.foreign, fun thread => ?_⟩
  rw [hpending]
  exact h.order thread

/-- Handling a message keeps the law. -/
lemma InOrder.handleNext (h : InOrder owner posted b) : InOrder owner posted b.handleNext := by
  unfold Mailbox.handleNext
  split
  · exact h
  · next x batch hbatch =>
    refine ⟨fun y hy => h.foreign y ?_, fun thread => ?_⟩
    · rw [pending, hbatch]
      exact List.mem_cons_of_mem _ hy
    · have horder := h.order thread
      have hcons : b.pending = [x] ++ (batch ++ b.queue) := by simp [pending, hbatch]
      rw [hcons, sentBy_append] at horder
      simp only [pending, sentBy_append] at horder ⊢
      rw [← horder, List.append_assoc]

/-- What is in the mailbox has been posted. -/
lemma InOrder.mem_posted (h : InOrder owner posted b) {x : T × M}
    (hx : x ∈ b.handled ++ b.pending) : x ∈ posted := by
  have hmem : x.2 ∈ sentBy x.1 (b.handled ++ b.pending) :=
    List.mem_map_of_mem (List.mem_filter.mpr ⟨hx, by simp⟩)
  rw [sentBy_append, h.order] at hmem
  obtain ⟨y, hy, hmsg⟩ := List.mem_map.mp hmem
  obtain ⟨hposted, hthread⟩ := List.mem_filter.mp hy
  obtain rfl : y = x := Prod.ext (of_decide_eq_true hthread) hmsg
  exact hposted

/-- A mailbox to which nothing has been posted is empty. -/
lemma InOrder.eq_empty (h : InOrder owner [] b) : b = {} := by
  have hnil : b.handled ++ b.pending = [] :=
    List.eq_nil_iff_forall_not_mem.mpr fun _ hx => absurd (h.mem_posted hx) List.not_mem_nil
  rw [pending, List.append_eq_nil_iff, List.append_eq_nil_iff] at hnil
  obtain ⟨handled, batch, queue⟩ := b
  obtain ⟨rfl, rfl, rfl⟩ := hnil
  rfl

/-- What of a thread comes first has been posted first. -/
lemma InOrder.sentBy_first (h : InOrder owner posted b) {l : List (T × M)}
    (hl : l <+: b.handled) (thread : T) : sentBy thread l <+: sentBy thread posted := by
  obtain ⟨rest, hrest⟩ := hl
  rw [← h.order, ← hrest, sentBy_append, List.append_assoc]
  exact List.prefix_append _ _

/-- What the owner has seen of a thread: the messages handled and those of the batch. -/
def seen (thread : T) (b : Mailbox T M) : List M :=
  sentBy thread (b.handled ++ b.batch)

/-- Posting takes nothing of what has been seen back. -/
lemma InOrder.seen_post (h : InOrder owner posted b) (x : T × M) (thread : T) :
    b.seen thread <+: (b.post owner x).seen thread := by
  by_cases hx : x.1 = owner
  · simp only [seen, Mailbox.post, if_pos hx, sentBy_append]
    by_cases hthread : x.1 = thread
    · -- nothing of the owner is in the batch
      have hnone : sentBy thread b.batch = [] := sentBy_eq_nil fun y hy => by
        rw [← hthread, hx]
        exact h.foreign y (List.mem_append_left _ hy)
      rw [hnone, List.append_nil, List.append_nil]
      exact List.prefix_append _ _
    · have hnone : sentBy thread [x] = [] :=
        sentBy_eq_nil fun y hy => by rwa [List.mem_singleton.mp hy]
      rw [hnone, List.append_nil]
  · simp only [seen, Mailbox.post, if_neg hx]
    exact List.prefix_refl _

omit [DecidableEq T] in
/-- Handling a message of the batch takes it from there to the ones handled. -/
lemma handleNext_handled_append (b : Mailbox T M) :
    b.handleNext.handled ++ b.handleNext.batch = b.handled ++ b.batch := by
  unfold Mailbox.handleNext
  split
  · rfl
  · next hbatch => simp [hbatch]

/-- Taking the queue takes back nothing of what has been seen. -/
lemma seen_take (hbatch : b.batch = []) (thread : T) : b.seen thread <+: b.take.seen thread := by
  rw [seen, seen, hbatch, List.append_nil, Mailbox.take, sentBy_append]
  exact List.prefix_append _ _

/-- Once the queue has been taken everything that has been posted is seen. -/
lemma InOrder.seen_eq (h : InOrder owner posted b) (hqueue : b.queue = []) (thread : T) :
    b.seen thread = sentBy thread posted := by
  rw [seen, ← h.order, pending, hqueue, List.append_nil, sentBy_append]

/-! ## Where messages come from -/

/-- Some of the messages of a thread. -/
lemma filter_sentBy (thread : T) (p : M → Bool) (l : List (T × M)) :
    (sentBy thread l).filter p = sentBy thread (l.filter fun x => p x.2) := by
  rw [sentBy, sentBy, List.filter_map, List.filter_filter, List.filter_filter]
  congr 1
  exact List.filter_congr fun x _ => Bool.and_comm _ _

/-- The messages of a thread in a list of messages made from other things. -/
lemma sentBy_map {α : Type*} (thread : T) (author : α → T) (msg : α → M) (l : List α) :
    sentBy thread (l.map fun a => (author a, msg a)) =
      (l.filter fun a => author a = thread).map msg := by
  rw [sentBy, List.filter_map, List.map_map]
  rfl

/-- Messages which of each thread are the first ones of a source come from this source. -/
lemma exists_source {α : Type*} {source : List α} {author : α → T} {msg : α → M}
    {l : List (T × M)}
    (h : ∀ thread, sentBy thread l <+: (source.filter fun a => author a = thread).map msg) :
    ∃ entries : List α, l = entries.map (fun a => (author a, msg a)) ∧
      ∀ thread, (entries.filter fun a => author a = thread) <+:
        source.filter fun a => author a = thread := by
  induction l using List.reverseRecOn with
  | nil => exact ⟨[], rfl, fun _ => List.nil_prefix⟩
  | append_singleton l x ih =>
    obtain ⟨c, m⟩ := x
    obtain ⟨entries, rfl, hentries⟩ := ih fun thread => by
      refine List.IsPrefix.trans ?_ (h thread)
      rw [sentBy_append]
      exact List.prefix_append _ _
    -- the next one of the thread is the entry after those that have been found
    obtain ⟨rest, hrest⟩ := hentries c
    have hone : sentBy c [(c, m)] = [m] := by simp [sentBy]
    have hlast := h c
    rw [sentBy_append, sentBy_map, hone, ← hrest, List.map_append,
      List.prefix_append_right_inj] at hlast
    obtain ⟨a, rest, rfl⟩ : ∃ a rest', rest = a :: rest' := by
      cases rest with
      | nil => simp at hlast
      | cons a rest => exact ⟨a, rest, rfl⟩
    obtain rfl : m = msg a := by simpa using hlast
    have hmem : a ∈ source.filter fun a => author a = c := by
      rw [← hrest]
      simp
    obtain rfl : author a = c := of_decide_eq_true (List.mem_filter.mp hmem).2
    refine ⟨entries ++ [a], by simp, fun thread => ?_⟩
    rw [List.filter_append]
    by_cases hthread : author a = thread
    · subst hthread
      rw [← hrest]
      simp
    · simpa [hthread] using hentries thread

/-! ## What comes before what -/

/-- Everything that is in the mailbox, in the order of handling as far as it is known. -/
def contents (b : Mailbox T M) : List (T × M) :=
  b.handled ++ b.pending

/-- A message of another thread comes last. -/
lemma contents_post_of_ne {x : T × M} (hx : x.1 ≠ owner) :
    (b.post owner x).contents = b.contents ++ [x] := by
  simp [Mailbox.post, hx, contents, pending]

/-- A message of the owner overtakes everything that is pending. -/
lemma contents_post_owner {x : T × M} (hx : x.1 = owner) :
    (b.post owner x).contents = b.handled ++ x :: b.pending := by
  simp [Mailbox.post, hx, contents, pending]

omit [DecidableEq T] in
/-- Taking the queue leaves the order of handling as it is. -/
lemma contents_take (hbatch : b.batch = []) : b.take.contents = b.contents := by
  simp [Mailbox.take, contents, pending, hbatch]

omit [DecidableEq T] in
/-- Handling a message leaves the order of handling as it is. -/
lemma contents_handleNext : b.handleNext.contents = b.contents := by
  unfold Mailbox.handleNext
  split
  · rfl
  · next hbatch => simp [contents, pending, hbatch]

/-- A post adds one message and nothing else. -/
lemma mem_contents_post {x y : T × M} :
    y ∈ (b.post owner x).contents ↔ y = x ∨ y ∈ b.contents := by
  by_cases hx : x.1 = owner
  · rw [contents_post_owner hx, contents]
    simp only [List.mem_append, List.mem_cons]
    tauto
  · rw [contents_post_of_ne hx, List.mem_append, List.mem_singleton]
    tauto

/-- A message with `p` can be posted where one with `q` is in the mailbox, and, on the direct
path, has been handled. -/
lemma preceded_post {p q : T × M → Prop} {x : T × M} (h : Preceded p q b.contents)
    (hforeign : p x → ∃ y ∈ b.contents, q y)
    (howner : x.1 = owner → p x → ∃ y ∈ b.handled, q y) :
    Preceded p q (b.post owner x).contents := by
  by_cases hx : x.1 = owner
  · rw [contents_post_owner hx]
    exact h.insert (howner hx)
  · rw [contents_post_of_ne hx]
    apply Preceded.insert
    · rwa [List.append_nil]
    · exact hforeign

end Mailbox
