import Calc24.App.Records

/-!
# The texts of the server

Everything that a session is sent is one line of text: it ends at its only line feed (`IsLine`).
The server's own texts are five fixed ones and the hands that `generateCards` prints
(`ServerText`); a chat message names the id of its author in front of the package
(`msgWithPrefix`).  The two kinds are told apart by their first letters, and a chat message
determines its author and its package (`msgWithPrefix_inj`), although the package is free to
contain a text that looks like another author's prefix.
-/

namespace Calc24

/-- One line: the line feed at its end is the only one. -/
def IsLine (msg : Bytes) : Prop :=
  ∃ body, LF ∉ body ∧ msg = body ++ [LF]

/-! ## ASCII -/

/-- Texts of one-byte characters are determined by their bytes. -/
lemma ascii_inj {s t : String} (hs : ∀ c ∈ s.toList, c.toNat < 256)
    (ht : ∀ c ∈ t.toList, c.toNat < 256) (h : ascii s = ascii t) : s = t := by
  have hback : ∀ {u : String}, (∀ c ∈ u.toList, c.toNat < 256) →
      (ascii u).map (fun b => Char.ofNat b.toNat) = u.toList := by
    intro u hu
    rw [ascii, List.map_map]
    refine (List.map_congr_left fun c hc => ?_).trans (List.map_id _)
    have hbyte : (UInt8.ofNat c.toNat).toNat = c.toNat := Nat.mod_eq_of_lt (hu c hc)
    rw [Function.comp_apply, hbyte, Char.ofNat_toNat, id]
  apply String.toList_injective
  rw [← hback hs, ← hback ht, h]

/-- The characters of a printed number: digits, or a sign. -/
lemma mem_toString_int {i : ℤ} {c : Char} (hc : c ∈ (toString i).toList) :
    c = '-' ∨ c.isDigit = true := by
  have hdigits : ∀ {n : ℕ}, c ∈ n.repr.toList → c.isDigit = true := by
    intro n hn
    rw [Nat.toList_repr] at hn
    exact Nat.isDigit_of_mem_toDigits (by decide) (by decide) hn
  cases i with
  | ofNat n => exact Or.inr (hdigits hc)
  | negSucc n =>
    have hsplit : (toString (Int.negSucc n)).toList = '-' :: (n + 1).repr.toList := by
      change ("-" ++ (n + 1).repr).toList = _
      simp
    rw [hsplit] at hc
    rcases List.mem_cons.mp hc with hsign | hdigit
    · exact Or.inl hsign
    · exact Or.inr (hdigits hdigit)

/-- A printed number has neither a line feed nor a bracket. -/
lemma mem_ascii_toString_int {i : ℤ} {b : UInt8} (hb : b ∈ ascii (toString i)) :
    b = 45 ∨ 48 ≤ b ∧ b ≤ 57 := by
  obtain ⟨c, hc, rfl⟩ := List.mem_map.mp hb
  rcases mem_toString_int hc with rfl | hdigit
  · exact Or.inl (by decide)
  · refine Or.inr ?_
    rw [Char.isDigit, Bool.and_eq_true, decide_eq_true_eq, decide_eq_true_eq] at hdigit
    have hlow : 48 ≤ c.toNat := hdigit.1
    have hhigh : c.toNat ≤ 57 := hdigit.2
    rw [UInt8.le_iff_toNat_le, UInt8.le_iff_toNat_le, UInt8.toNat_ofNat']
    simp
    omega

/-- Different numbers are printed differently. -/
lemma ascii_toString_int_inj {i j : ℤ} (h : ascii (toString i) = ascii (toString j)) : i = j := by
  have hsmall : ∀ {k : ℤ}, ∀ c ∈ (toString k).toList, c.toNat < 256 := by
    intro k c hc
    rcases mem_toString_int hc with rfl | hdigit
    · decide
    · rw [Char.isDigit, Bool.and_eq_true, decide_eq_true_eq, decide_eq_true_eq] at hdigit
      have hhigh : c.toNat ≤ 57 := hdigit.2
      omega
  exact Int.repr_injective (ascii_inj hsmall hsmall h)

namespace World

/-! ## The server's own texts -/

/-- The line that `generateCards` prints for four cards. -/
def cardsLine (card1 card2 card3 card4 : Char) : Bytes :=
  ascii "Your cards is: " ++
    ascii (String.ofList [card1, ' ', card2, ' ', card3, ' ', card4, '\n'])

/-- What the server says itself. -/
def ServerText (msg : Bytes) : Prop :=
  msg ∈ [welcomeMsg, reminderMsg, rightAnswer, notifyOthersGameOverMsg, wrongAnswer] ∨
    ∃ card1 ∈ allCars, ∃ card2 ∈ allCars, ∃ card3 ∈ allCars, ∃ card4 ∈ allCars,
      msg = cardsLine card1 card2 card3 card4

/-- A card is one of those that there are. -/
lemma card_mem_allCars (n : ℕ) : card n ∈ allCars := by
  have hlt : n % allCars.length < allCars.length := Nat.mod_lt _ (by decide)
  rw [card, List.getD_eq_getElem _ _ hlt]
  exact List.getElem_mem hlt

/-- Whatever `rand` returns, the cards are a hand. -/
lemma serverText_generateCards (env : Environment) (w : World) :
    ServerText (w.generateCards env).1 :=
  Or.inr ⟨_, card_mem_allCars _, _, card_mem_allCars _, _, card_mem_allCars _, _,
    card_mem_allCars _, rfl⟩

/-- The texts of the server are lines. -/
lemma ServerText.isLine {msg : Bytes} (h : ServerText msg) : IsLine msg := by
  rcases h with hfixed | ⟨card1, h1, card2, h2, card3, h3, card4, h4, rfl⟩
  · refine ⟨msg.dropLast, ?_⟩
    fin_cases hfixed <;> decide
  · have hcut : cardsLine card1 card2 card3 card4 = ascii "Your cards is: " ++
        ascii (String.ofList [card1, ' ', card2, ' ', card3, ' ', card4]) ++ [LF] := by
      simp only [cardsLine, ascii, String.toList_ofList, List.map_cons, List.map_nil, List.append_assoc]
      rfl
    refine ⟨_, ?_, hcut⟩
    have hcard : ∀ c ∈ allCars, UInt8.ofNat c.toNat ≠ LF := by
      intro c hc
      fin_cases hc <;> decide
    simp only [ascii, String.toList_ofList, List.map_cons, List.map_nil, List.mem_append,
      List.mem_cons, List.not_mem_nil, or_false, not_or]
    refine ⟨by decide, (hcard _ h1).symm, by decide, (hcard _ h2).symm, by decide,
      (hcard _ h3).symm, by decide, (hcard _ h4).symm⟩

/-- The server's texts start with a capital or with `p`. -/
lemma ServerText.head_ne {msg : Bytes} (h : ServerText msg) : msg.head? ≠ some 99 := by
  rcases h with hfixed | ⟨card1, -, card2, -, card3, -, card4, -, rfl⟩
  · fin_cases hfixed <;> decide
  · simp [cardsLine, ascii]

/-! ## Chat messages -/

/-- A chat message in its parts: the id comes before the first `]`. -/
lemma msgWithPrefix_eq (id : Int32) (package : Bytes) :
    msgWithPrefix id package =
      ascii "client[" ++ (ascii (toString id.toInt) ++ 93 :: (ascii " says: " ++ package)) := by
  simp [msgWithPrefix, ascii]

/-- A chat message is not a text of the server. -/
lemma not_serverText_msgWithPrefix (id : Int32) (package : Bytes) :
    ¬ ServerText (msgWithPrefix id package) := by
  intro h
  apply h.head_ne
  simp [msgWithPrefix, ascii]

/-- **A chat message tells who has said what**, even if what was said looks like a prefix. -/
theorem msgWithPrefix_inj {id id' : Int32} {package package' : Bytes} :
    msgWithPrefix id package = msgWithPrefix id' package' ↔ id = id' ∧ package = package' := by
  constructor
  · intro h
    rw [msgWithPrefix_eq, msgWithPrefix_eq] at h
    have hbracket : ∀ i : ℤ, (93 : UInt8) ∉ ascii (toString i) := by
      intro i hmem
      rcases mem_ascii_toString_int hmem with heq | ⟨-, hle⟩
      · exact absurd heq (by decide)
      · exact absurd hle (by decide)
    obtain ⟨hid, hpackage⟩ := Framing.append_delimiter_inj (hbracket _) (hbracket _)
      (List.append_cancel_left h)
    exact ⟨Int32.toInt_inj.mp (ascii_toString_int_inj hid), List.append_cancel_left hpackage⟩
  · rintro ⟨rfl, rfl⟩
    rfl

/-- A line with a prefix is a line. -/
lemma isLine_msgWithPrefix (id : Int32) {package : Bytes} (h : IsLine package) :
    IsLine (msgWithPrefix id package) := by
  obtain ⟨body, hbody, rfl⟩ := h
  refine ⟨msgWithPrefix id body, ?_, by simp [msgWithPrefix]⟩
  have hid : LF ∉ ascii (toString id.toInt) := by
    intro hmem
    rcases mem_ascii_toString_int hmem with heq | ⟨hle, -⟩
    · exact absurd heq (by decide)
    · exact absurd hle (by decide)
  simp only [msgWithPrefix, List.mem_append, not_or]
  exact ⟨⟨⟨by decide, hid⟩, by decide⟩, hbody⟩

end World

end Calc24
