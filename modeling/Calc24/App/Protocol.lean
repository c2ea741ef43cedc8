import Calc24.App.Texts
import Calc24.Lib.Monitor

/-!
# The protocol of a session

What passes between the server and one client is a list of packages that the server has taken from
the client and of messages that it has sent to it.  `FollowsProtocol` is what the client may expect
of such a list: it is welcomed first, and once; a command that is not `!ready` is answered at once,
and nothing is an answer that has not been asked for; and it gets cards only if it has said that it
is ready since it got cards last.

`Conversation` is an automaton that keeps watch over the list.  What it can read to a point where
no answer is owed follows the protocol (`followsProtocol_of_run`).
-/

namespace Calc24

open World TransitionSystem

/-- What passes between the server and a client. -/
inductive Exchange
  | took (package : Bytes)
  | told (msg : Bytes)
  deriving DecidableEq

/-- The exchange is a message of the server. -/
def Exchange.isTold : Exchange → Bool
  | .took _ => false
  | .told _ => true

/-- What a package is answered with, if it is a command other than `!ready`. -/
def verdict (package : Bytes) : Option Bool :=
  if package.head? ≠ some 33 ∨ IsReadyCmd package then none else some (decide (package = answerCmd))

/-- The answer. -/
def verdictMsg (right : Bool) : Bytes :=
  if right then rightAnswer else wrongAnswer

/-- The message starts like those with cards. -/
def IsCards (msg : Bytes) : Prop :=
  msg.take 15 = ascii "Your cards is: "

instance (msg : Bytes) : Decidable (IsCards msg) :=
  inferInstanceAs (Decidable (_ = _))

/-- The welcome and the answers, each of which has its place. -/
def HasPlace (msg : Bytes) : Prop :=
  msg = welcomeMsg ∨ msg = rightAnswer ∨ msg = wrongAnswer

instance (msg : Bytes) : Decidable (HasPlace msg) :=
  inferInstanceAs (Decidable (_ ∨ _ ∨ _))

/-- The state of a conversation: whether the client has been welcomed, whether it has said that it
is ready since it got cards, and which answer it is owed. -/
inductive Conversation
  | before
  | talking (ready : Bool)
  | owing (right ready : Bool)
  deriving DecidableEq

namespace Conversation

/-- The conversation goes on, if it may go on so. -/
def next : Conversation → Exchange → Option Conversation
  | .before, .told msg => if msg = welcomeMsg then some (.talking false) else none
  | .before, .took _ => none
  | .talking ready, .took package =>
    match verdict package with
    | some right => some (.owing right ready)
    | none => some (.talking (ready || decide (IsReadyCmd package)))
  | .talking ready, .told msg =>
    if IsCards msg then if ready then some (.talking false) else none
    else if HasPlace msg then none
    else some (.talking ready)
  | .owing right ready, .told msg => if msg = verdictMsg right then some (.talking ready) else none
  | .owing _ _, .took _ => none

/-- A conversation from some state on. -/
def run (c : Conversation) (xs : List Exchange) : Option Conversation :=
  xs.foldlM next c

end Conversation

/-- What a client may expect. -/
structure FollowsProtocol (xs : List Exchange) : Prop where
  welcome : xs = [] ∨ ∃ rest, xs = .told welcomeMsg :: rest ∧ .told welcomeMsg ∉ rest
  prompt : ∀ before package after right, xs = before ++ .took package :: after →
    verdict package = some right → ∃ rest, after = .told (verdictMsg right) :: rest
  justified : ∀ before right after, xs = before ++ .told (verdictMsg right) :: after →
    ∃ earlier package, before = earlier ++ [.took package] ∧ verdict package = some right
  consent : ∀ before msg after, xs = before ++ .told msg :: after → IsCards msg →
    ∃ earlier package later, before = earlier ++ .took package :: later ∧ IsReadyCmd package ∧
      ∀ msg', .told msg' ∈ later → ¬ IsCards msg'

/-! ## Texts -/

/-- A verdict is no welcome. -/
lemma verdictMsg_ne_welcomeMsg (right : Bool) : verdictMsg right ≠ welcomeMsg := by
  cases right <;> decide

/-- The two verdicts are different texts. -/
lemma verdictMsg_inj {right right' : Bool} (h : verdictMsg right = verdictMsg right') :
    right = right' := by
  revert h
  cases right <;> cases right' <;> decide

lemma not_isCards_verdictMsg (right : Bool) : ¬ IsCards (verdictMsg right) := by
  cases right <;> decide

lemma not_isCards_welcomeMsg : ¬ IsCards welcomeMsg := by decide

/-- A verdict has its place in the protocol. -/
lemma hasPlace_verdictMsg (right : Bool) : HasPlace (verdictMsg right) := by
  cases right <;> decide

namespace Conversation

variable {c c' : Conversation} {x : Exchange} {xs : List Exchange} {package msg : Bytes}
  {ready right : Bool}

/-! ## Single exchanges -/

/-- A package is taken when no answer is owed. -/
lemma next_took_cases (h : next c (.took package) = some c') : ∃ ready, c = .talking ready ∧
    ((∃ right, verdict package = some right ∧ c' = .owing right ready) ∨
      (verdict package = none ∧ c' = .talking (ready || decide (IsReadyCmd package)))) := by
  cases c with
  | before => cases h
  | talking ready =>
    refine ⟨ready, rfl, ?_⟩
    simp only [next] at h
    split at h
    · next right hverdict => exact Or.inl ⟨right, hverdict, (Option.some.inj h).symm⟩
    · next hverdict => exact Or.inr ⟨hverdict, (Option.some.inj h).symm⟩
  | owing right ready => cases h

/-- A message is the welcome, an answer that is owed, cards for somebody who is ready, or none of
these. -/
lemma next_told_cases (h : next c (.told msg) = some c') :
    (c = .before ∧ msg = welcomeMsg ∧ c' = .talking false) ∨
    (∃ right ready, c = .owing right ready ∧ msg = verdictMsg right ∧ c' = .talking ready) ∨
    (c = .talking true ∧ IsCards msg ∧ c' = .talking false) ∨
    (∃ ready, c = .talking ready ∧ ¬ IsCards msg ∧ ¬ HasPlace msg ∧ c' = .talking ready) := by
  cases c with
  | before =>
    obtain ⟨hmsg, heq⟩ := Option.ite_none_right_eq_some.mp h
    exact Or.inl ⟨rfl, hmsg, (Option.some.inj heq).symm⟩
  | talking ready =>
    simp only [next] at h
    split at h
    · next hcards =>
      obtain ⟨rfl, heq⟩ := Option.ite_none_right_eq_some.mp h
      exact Or.inr (Or.inr (Or.inl ⟨rfl, hcards, (Option.some.inj heq).symm⟩))
    · next hcards =>
      obtain ⟨hmsg, heq⟩ := Option.ite_none_left_eq_some.mp h
      exact Or.inr (Or.inr (Or.inr ⟨ready, rfl, hcards, hmsg, (Option.some.inj heq).symm⟩))
  | owing right ready =>
    obtain ⟨hmsg, heq⟩ := Option.ite_none_right_eq_some.mp h
    exact Or.inr (Or.inl ⟨right, ready, rfl, hmsg, (Option.some.inj heq).symm⟩)

/-- A conversation never begins again. -/
lemma next_ne_before (h : next c x = some c') : c' ≠ .before := by
  cases x with
  | took package =>
    obtain ⟨ready, -, ⟨right, -, rfl⟩ | ⟨-, rfl⟩⟩ := next_took_cases h <;> simp
  | told msg =>
    rcases next_told_cases h with ⟨-, -, rfl⟩ | ⟨right, ready, -, -, rfl⟩ | ⟨-, -, rfl⟩ |
      ⟨ready, -, -, -, rfl⟩ <;> simp

/-! ## Whole conversations -/

/-- A conversation that has begun does not begin again. -/
lemma run_ne_before (hc : c ≠ .before) (h : run c xs = some c') : c' ≠ .before := by
  induction xs generalizing c with
  | nil =>
    obtain rfl := Option.some.inj h
    exact hc
  | cons x xs ih =>
    obtain ⟨c₁, hx, hrest⟩ := Option.bind_eq_some_iff.mp h
    exact ih (next_ne_before hx) hrest

/-- A conversation that has not begun is empty. -/
lemma eq_nil_of_run_before (h : run .before xs = some .before) : xs = [] := by
  cases xs with
  | nil => rfl
  | cons x rest =>
    obtain ⟨c₁, hx, hrest⟩ := Option.bind_eq_some_iff.mp h
    exact absurd rfl (run_ne_before (next_ne_before hx) hrest)

/-- Who has been welcomed is not welcomed again. -/
lemma welcome_notMem (hc : c ≠ .before) (h : run c xs = some c') : .told welcomeMsg ∉ xs := by
  intro hmem
  obtain ⟨before, after, rfl⟩ := List.append_of_mem hmem
  obtain ⟨c₁, c₂, hbefore, hx, -⟩ := foldlM_cut_eq_some.mp h
  rcases next_told_cases hx with ⟨rfl, -, -⟩ | ⟨right, ready, -, hmsg, -⟩ | ⟨-, hcards, -⟩ |
    ⟨ready, -, -, hmsg, -⟩
  · exact run_ne_before hc hbefore rfl
  · exact verdictMsg_ne_welcomeMsg right hmsg.symm
  · exact not_isCards_welcomeMsg hcards
  · exact hmsg (Or.inl rfl)

/-- An answer is owed for the last exchange. -/
lemma exists_of_run_owing (h : run .before xs = some (.owing right ready)) :
    ∃ earlier package, xs = earlier ++ [.took package] ∧ verdict package = some right := by
  rcases List.eq_nil_or_concat xs with rfl | ⟨earlier, x, rfl⟩
  · cases h
  · rw [List.concat_eq_append] at h ⊢
    obtain ⟨c₁, c₂, -, hx, hend⟩ := foldlM_cut_eq_some.mp h
    obtain rfl : c₂ = .owing right ready := Option.some.inj hend
    cases x with
    | took package =>
      obtain ⟨ready', -, ⟨right', hverdict, heq⟩ | ⟨-, heq⟩⟩ := next_took_cases hx
      · obtain ⟨rfl, -⟩ := owing.inj heq
        exact ⟨earlier, package, rfl, hverdict⟩
      · cases heq
    | told msg =>
      rcases next_told_cases hx with ⟨-, -, heq⟩ | ⟨right', ready', -, -, heq⟩ | ⟨-, -, heq⟩ |
        ⟨ready', -, -, -, heq⟩ <;> cases heq

/-- The client has said that it is ready, and has not got cards since. -/
def Ready : Conversation → Prop
  | .talking ready | .owing _ ready => ready = true
  | .before => False

/-- Whoever is ready has said so, and has not got cards since. -/
lemma exists_of_run_ready (h : run .before xs = some c) (hready : c.Ready) :
    ∃ earlier package later, xs = earlier ++ .took package :: later ∧ IsReadyCmd package ∧
      ∀ msg, .told msg ∈ later → ¬ IsCards msg := by
  induction xs using List.reverseRecOn generalizing c with
  | nil =>
    obtain rfl := Option.some.inj h
    exact hready.elim
  | append_singleton xs x ih =>
    obtain ⟨c₁, c₂, hbefore, hx, hend⟩ := foldlM_cut_eq_some.mp h
    obtain rfl : c₂ = c := Option.some.inj hend
    -- if the client was ready before, the last exchange is behind what it said then
    have hbehind : c₁.Ready → (∀ msg, x = .told msg → ¬ IsCards msg) →
        ∃ earlier package later, xs ++ [x] = earlier ++ .took package :: later ∧
          IsReadyCmd package ∧ ∀ msg, .told msg ∈ later → ¬ IsCards msg := by
      intro hready₁ hlast
      obtain ⟨earlier, package, later, rfl, hcmd, hlater⟩ := ih hbefore hready₁
      refine ⟨earlier, package, later ++ [x], by simp, hcmd, fun msg hmsg => ?_⟩
      rcases List.mem_append.mp hmsg with hold | hnew
      · exact hlater msg hold
      · exact hlast msg (List.mem_singleton.mp hnew).symm
    cases x with
    | took package =>
      obtain ⟨ready, rfl, ⟨right, -, rfl⟩ | ⟨-, rfl⟩⟩ := next_took_cases hx
      · exact hbehind hready fun _ heq => by cases heq
      · rcases (Bool.or_eq_true _ _).mp hready with hready₁ | hcmd
        · exact hbehind hready₁ fun _ heq => by cases heq
        · exact ⟨xs, package, [], rfl, of_decide_eq_true hcmd, by simp⟩
    | told msg =>
      rcases next_told_cases hx with ⟨rfl, -, rfl⟩ | ⟨right, ready, rfl, rfl, rfl⟩ |
        ⟨rfl, -, rfl⟩ | ⟨ready, rfl, hcards, -, rfl⟩
      · cases hready
      · exact hbehind hready fun _ heq => (Exchange.told.inj heq) ▸ not_isCards_verdictMsg right
      · cases hready
      · exact hbehind hready fun _ heq => (Exchange.told.inj heq) ▸ hcards

lemma followsProtocol_nil : FollowsProtocol [] where
  welcome := Or.inl rfl
  prompt before package after right heq := by simp at heq
  justified before right after heq := by simp at heq
  consent before msg after heq := by simp at heq

/-- **The automaton accepts nothing but the protocol.** -/
theorem followsProtocol_of_run (h : run .before xs = some (.talking ready)) :
    FollowsProtocol xs where
  welcome := by
    cases xs with
    | nil => exact Or.inl rfl
    | cons x rest =>
      obtain ⟨c₁, hx, hrest⟩ := Option.bind_eq_some_iff.mp h
      cases x with
      | took package => cases hx
      | told msg =>
        obtain ⟨rfl, -⟩ := Option.ite_none_right_eq_some.mp hx
        exact Or.inr ⟨rest, rfl, welcome_notMem (next_ne_before hx) hrest⟩
  prompt before package after right heq hverdict := by
    subst heq
    obtain ⟨c₁, c₂, -, hx, hafter⟩ := foldlM_cut_eq_some.mp h
    obtain ⟨ready', -, ⟨right', hverdict', rfl⟩ | ⟨hnone, -⟩⟩ := next_took_cases hx
    · obtain rfl : right' = right := Option.some.inj (hverdict'.symm.trans hverdict)
      cases after with
      | nil => cases hafter
      | cons y rest =>
        obtain ⟨c₃, hy, -⟩ := Option.bind_eq_some_iff.mp hafter
        cases y with
        | took package' => cases hy
        | told msg =>
          obtain ⟨rfl, -⟩ := Option.ite_none_right_eq_some.mp hy
          exact ⟨rest, rfl⟩
    · rw [hnone] at hverdict
      cases hverdict
  justified before right after heq := by
    subst heq
    obtain ⟨c₁, c₂, hbefore, hx, -⟩ := foldlM_cut_eq_some.mp h
    rcases next_told_cases hx with ⟨-, hmsg, -⟩ | ⟨right', ready', rfl, hmsg, -⟩ |
      ⟨-, hcards, -⟩ | ⟨ready', -, -, hmsg, -⟩
    · exact absurd hmsg (verdictMsg_ne_welcomeMsg right)
    · obtain rfl := verdictMsg_inj hmsg
      exact exists_of_run_owing hbefore
    · exact absurd hcards (not_isCards_verdictMsg right)
    · exact absurd (hasPlace_verdictMsg right) hmsg
  consent before msg after heq hcards := by
    subst heq
    obtain ⟨c₁, c₂, hbefore, hx, -⟩ := foldlM_cut_eq_some.mp h
    rcases next_told_cases hx with ⟨-, rfl, -⟩ | ⟨right, ready', -, rfl, -⟩ | ⟨rfl, -, -⟩ |
      ⟨ready', -, hnot, -, -⟩
    · exact absurd hcards not_isCards_welcomeMsg
    · exact absurd hcards (not_isCards_verdictMsg right)
    · exact exists_of_run_ready hbefore rfl
    · exact absurd hcards hnot

end Conversation

end Calc24
