import Blackboard.Proofs.Adjacency
import Blackboard.Proofs.Steps
import Blackboard.Proofs.StoreInvariant

/-!
# Reading back the text of a sentence

A sentence that was read from a text is written and read again. Two texts can run together where
the first reading had kept them apart: `1+2` is the numbers one and two, its text is `12`.

* Nothing else goes wrong: if the terms keep apart, the sentence is read back; and **if what is read
  back equals the sentence, the terms did keep apart** (`Sentence.read_back_iff_keepsApart`).
* For the second half, the tokens that were read back might cover the text in other pieces and
  still have equal values, as `00` has the value of `0`. A weight of texts excludes that: a sign,
  a point, an exponent mark, a blank and the end of a row of digits count. A number weighs least
  where it is written as sentences write it, so pieces of the same values and the same weight have
  the same texts (`eq_map_token`).
-/

namespace Blackboard

/-! ## 1. The weight of a text -/

/-- The weight of a character. -/
def charWeight (c : Char) : Nat :=
  if c = 'e' || c = 'E' then 2 else if c = '+' || c = '.' || isBlank c then 1 else 0

/-- The weight of a text: that of its characters, and one for the end of each row of digits. -/
def weight : List Char → Nat
  | [] => 0
  | c :: cs =>
    charWeight c + (if c.isDigit && !beginsWith Char.isDigit cs then 1 else 0) + weight cs

/-- Whether a row of digits goes on from one text into the next. -/
def digitsMeet (x y : List Char) : Bool :=
  x.getLast?.any Char.isDigit && beginsWith Char.isDigit y

/-- **Where a row of digits goes on into the next text, one end is lost.** -/
theorem weight_append (x y : List Char) :
    weight (x ++ y) + (if digitsMeet x y then 1 else 0) = weight x + weight y := by
  induction x with
  | nil => simp [weight, digitsMeet]
  | cons c x ih =>
    cases x with
    | nil =>
      simp only [List.cons_append, List.nil_append, weight, digitsMeet, List.getLast?_singleton,
        Option.any_some, beginsWith_nil]
      by_cases hc : c.isDigit = true
      · by_cases hy : beginsWith Char.isDigit y = true
        · simp [hc, hy]
          omega
        · simp [hc, hy]
      · simp [hc]
    | cons d x =>
      have hmeet : digitsMeet (c :: d :: x) y = digitsMeet (d :: x) y := by
        rw [digitsMeet, digitsMeet, List.getLast?_cons_cons]
      have hbegins : beginsWith Char.isDigit (d :: x ++ y) = beginsWith Char.isDigit (d :: x) := rfl
      rw [List.cons_append, weight, hbegins, hmeet, weight]
      omega

theorem weight_append_of_apart {x y : List Char} (h : digitsMeet x y = false) :
    weight (x ++ y) = weight x + weight y := by
  have hweight := weight_append x y
  rw [h] at hweight
  exact hweight

theorem charWeight_of_isDigit {c : Char} (h : c.isDigit = true) : charWeight c = 0 := by
  have hother : ∀ d ∈ ['e', 'E', '+', '.'], d.isDigit = false := by
    intro d hd
    fin_cases hd <;> rfl
  have hne : ∀ d ∈ ['e', 'E', '+', '.'], c ≠ d := by
    intro d hd heq
    rw [heq, hother d hd] at h
    cases h
  simp [charWeight, hne, isBlank_of_isDigit h]

theorem one_le_charWeight_of_isBlank {c : Char} (h : isBlank c = true) : 1 ≤ charWeight c := by
  unfold charWeight
  split
  · omega
  · simp [h]

theorem weight_space : weight (Term.word " ").chars = 1 := by
  decide

theorem weight_digits {ds rest : List Char} (hne : ds ≠ []) (hds : ∀ c ∈ ds, c.isDigit = true)
    (hstop : beginsWith Char.isDigit rest = false) : weight (ds ++ rest) = 1 + weight rest := by
  induction ds with
  | nil => exact absurd rfl hne
  | cons c ds ih =>
    have hc := hds c List.mem_cons_self
    rw [List.cons_append, weight, charWeight_of_isDigit hc, hc]
    cases ds with
    | nil => simp [hstop]
    | cons d ds =>
      have hd : beginsWith Char.isDigit (d :: ds ++ rest) = true := hds d (by simp)
      rw [hd, ih (by simp) fun e he => hds e (List.mem_cons_of_mem _ he)]
      simp

/-! ## 2. The weight of a numeral -/

namespace Numeral

/-- No digit stands at the front of a fraction. -/
theorem beginsWith_fractionChars (ds : List Char) {rest : List Char}
    (h : beginsWith Char.isDigit rest = false) :
    beginsWith Char.isDigit (fractionChars ds ++ rest) = false := by
  cases ds with
  | nil => exact h
  | cons _ _ => rfl

section Weight

variable {n : Numeral} (hn : n.WellSpelled)

include hn

/-- A numeral weighs its sign, its row of digits, its fraction and its exponent. -/
theorem weight_chars :
    weight n.chars = (if n.sign = some .plus then 1 else 0) +
      (1 + ((if n.fraction = [] then 0 else 2) + weight n.exponentChars)) := by
  have hends : n.endsBefore [] = true := by simp [endsBefore, Exponent.scan?, fractionDigits]
  obtain ⟨hexp, _, _⟩ := scan?_exponentChars hn hends
  rw [List.append_nil] at hexp
  have hsign : ∀ y, weight (Sign.chars n.sign ++ y) =
      (if n.sign = some .plus then 1 else 0) + weight y := by
    intro y
    cases n.sign with
    | none => simp [Sign.chars]
    | some s => cases s <;> simp [Sign.chars, Sign.char, weight, charWeight, isBlank, Char.isDigit]
  have hfraction : weight (fractionChars n.fraction ++ n.exponentChars) =
      (if n.fraction = [] then 0 else 2) + weight n.exponentChars := by
    cases hfrac : n.fraction with
    | nil => simp [fractionChars]
    | cons d ds =>
      have hpoint : charWeight '.' = 1 := by decide
      have hdigits : weight (d :: ds ++ n.exponentChars) = 1 + weight n.exponentChars :=
        weight_digits (by simp) (fun c hc => hn.fraction c (hfrac ▸ hc)) hexp
      have hnot : Char.isDigit '.' = false := rfl
      have hchars : fractionChars (d :: ds) ++ n.exponentChars =
          '.' :: (d :: ds ++ n.exponentChars) := rfl
      rw [hchars, weight, hpoint, hnot, hdigits, if_neg (List.cons_ne_nil d ds)]
      simp
      omega
  rw [← List.append_nil n.chars, chars_append, List.append_nil, hsign,
    weight_digits hn.nonempty hn.whole (beginsWith_fractionChars _ hexp), hfraction]

theorem weight_exponentChars {e : Exponent} (h : n.exponent = some e) :
    3 ≤ weight n.exponentChars := by
  have he := hn.exponent e h
  have hmark : charWeight e.mark = 2 := by
    rcases he.mark with hmark | hmark <;> simp [charWeight, hmark]
  have hdigits : weight (e.digits ++ []) = 1 + weight [] :=
    weight_digits he.nonempty he.digits rfl
  have htail : 1 ≤ weight (Sign.chars e.sign ++ e.digits) := by
    have happend := weight_append (Sign.chars e.sign) e.digits
    have hmeet : digitsMeet (Sign.chars e.sign) e.digits = false := by
      rcases hs : e.sign with _ | s
      · rfl
      · simp [digitsMeet, Sign.chars, Sign.isDigit_char]
    rw [hmeet] at happend
    rw [List.append_nil] at hdigits
    simp at happend
    omega
  simp only [exponentChars, h, Option.map_some, Option.getD_some, Exponent.chars,
    List.cons_append, weight, hmark]
  omega

/-- A numeral with an exponent weighs more than any without one. -/
theorem four_le_weight_of_exponent {e : Exponent} (h : n.exponent = some e) :
    4 ≤ weight n.chars := by
  have hheavy := weight_exponentChars hn h
  rw [weight_chars hn]
  omega

theorem weight_of_no_exponent (h : n.exponent = none) :
    weight n.chars = (if n.sign = some .plus then 1 else 0) +
      (1 + (if n.fraction = [] then 0 else 2)) := by
  have hlight : weight n.exponentChars = 0 := by
    rw [exponentChars, h]
    rfl
  rw [weight_chars hn, hlight, Nat.add_zero]

end Weight

/-- In its own text a number weighs its row of digits and its fraction. -/
theorem weight_ofNumber {x : Binary64} (h : x.isFinite = true) :
    weight (ofNumber x).chars = 1 + (if (ofNumber x).fraction = [] then 0 else 2) := by
  rw [weight_of_no_exponent (wellSpelled_ofNumber h) (exponent_ofNumber _),
    if_neg (sign_ofNumber _), Nat.zero_add]

/-- **A number weighs least in its own text**, and only such spellings weigh as little that have
    no plus sign, no exponent, and a fraction exactly if its text has one. -/
theorem weight_ofNumber_le {n : Numeral} (hn : n.WellSpelled) (hfinite : n.value.isFinite = true) :
    weight (ofNumber n.value).chars ≤ weight n.chars ∧
      (weight n.chars ≤ weight (ofNumber n.value).chars →
        n.sign ≠ some .plus ∧ n.exponent = none ∧
          (n.fraction = [] ↔ (ofNumber n.value).fraction = [])) := by
  have hself : n.value.equal n.value = true := by
    apply Binary64.equal_self
    cases hv : n.value with
    | nan =>
      rw [hv] at hfinite
      cases hfinite
    | _ => rfl
  have hown := weight_ofNumber hfinite
  cases hexp : n.exponent with
  | some e =>
    have hheavy := four_le_weight_of_exponent hn hexp
    have hlight : weight (ofNumber n.value).chars ≤ 3 := by
      rw [hown]
      split
      · omega
      · omega
    refine ⟨by omega, fun hle => ?_⟩
    exfalso
    omega
  | none =>
    rw [weight_of_no_exponent hn hexp, hown]
    by_cases hfrac : n.fraction = []
    · have hwhole : (ofNumber n.value).fraction = [] := fraction_ofNumber_of_whole hfrac hexp hself
      rw [if_pos hfrac, if_pos hwhole]
      refine ⟨by omega, fun hle => ⟨?_, rfl, iff_of_true hfrac hwhole⟩⟩
      intro hplus
      rw [if_pos hplus] at hle
      omega
    · rw [if_neg hfrac]
      constructor
      · split
        · omega
        · omega
      · intro hle
        by_cases hwhole : (ofNumber n.value).fraction = []
        · rw [if_pos hwhole] at hle
          omega
        · refine ⟨?_, rfl, iff_of_false hfrac hwhole⟩
          intro hplus
          rw [if_pos hplus, if_neg hwhole] at hle
          omega

/-- A minus sign is no digit, so it does not begin a row of digits. -/
theorem minus_ne_append {digits : List Char} (hne : digits ≠ [])
    (hdigits : ∀ c ∈ digits, c.isDigit = true) (tail rest : List Char) :
    '-' :: tail ≠ digits ++ rest := by
  intro heq
  cases digits with
  | nil => exact hne rfl
  | cons d digits =>
    have hd := hdigits d List.mem_cons_self
    rw [← (List.cons.inj heq).1] at hd
    cases hd

/-- Without plus signs, the signs of numerals in the same place agree. -/
theorem sign_eq_of_append_eq {n m : Numeral} (hn : n.WellSpelled) (hm : m.WellSpelled)
    (hnsign : n.sign ≠ some .plus) (hmsign : m.sign ≠ some .plus) {tail tail' : List Char}
    (heq : Sign.chars n.sign ++ (n.whole ++ tail) = Sign.chars m.sign ++ (m.whole ++ tail')) :
    n.sign = m.sign := by
  rcases hs : n.sign with _ | (_ | _) <;> rcases hs' : m.sign with _ | (_ | _)
  · rfl
  · exact absurd hs' hmsign
  · rw [hs, hs'] at heq
    exact absurd heq.symm (minus_ne_append hn.nonempty hn.whole _ _)
  · exact absurd hs hnsign
  · rfl
  · exact absurd hs hnsign
  · rw [hs, hs'] at heq
    exact absurd heq (minus_ne_append hm.nonempty hm.whole _ _)
  · exact absurd hs' hmsign
  · rfl

/-- Rows of digits in the same place are the same if no digit goes on behind either. -/
theorem digits_eq_of_append_eq {ds es rest rest' : List Char} (hds : ∀ c ∈ ds, c.isDigit = true)
    (hes : ∀ c ∈ es, c.isDigit = true) (hrest : beginsWith Char.isDigit rest = false)
    (hrest' : beginsWith Char.isDigit rest' = false) (heq : ds ++ rest = es ++ rest') : ds = es := by
  rw [← takeWhile_append_of_stop hds hrest, heq, takeWhile_append_of_stop hes hrest']

/-- **Numerals in the same place are the same** if they agree about having a fraction, and have
    neither plus signs nor exponents. -/
theorem eq_of_append_eq {n m : Numeral} (hn : n.WellSpelled) (hm : m.WellSpelled)
    (hnsign : n.sign ≠ some .plus) (hmsign : m.sign ≠ some .plus) (hnexp : n.exponent = none)
    (hmexp : m.exponent = none) (hfraction : n.fraction = [] ↔ m.fraction = [])
    {rest rest' : List Char} (hrest : beginsWith Char.isDigit rest = false)
    (hrest' : beginsWith Char.isDigit rest' = false) (heq : n.chars ++ rest = m.chars ++ rest') :
    n = m := by
  have hnchars : n.exponentChars = [] := by rw [exponentChars, hnexp]; rfl
  have hmchars : m.exponentChars = [] := by rw [exponentChars, hmexp]; rfl
  rw [chars_append, chars_append, hnchars, hmchars, List.nil_append, List.nil_append] at heq
  have hsign : n.sign = m.sign := sign_eq_of_append_eq hn hm hnsign hmsign heq
  rw [hsign] at heq
  have hunsigned := List.append_cancel_left heq
  have hwhole : n.whole = m.whole :=
    digits_eq_of_append_eq hn.whole hm.whole (beginsWith_fractionChars n.fraction hrest)
      (beginsWith_fractionChars m.fraction hrest') hunsigned
  rw [hwhole] at hunsigned
  have htail := List.append_cancel_left hunsigned
  have hsame : n.fraction = m.fraction := by
    cases hnf : n.fraction with
    | nil => exact (hfraction.mp hnf).symm
    | cons d ds =>
      cases hmf : m.fraction with
      | nil =>
        rw [hfraction.mpr hmf] at hnf
        cases hnf
      | cons e es =>
        rw [hnf, hmf] at htail
        have hdigits : d :: ds ++ rest = e :: es ++ rest' := (List.cons.inj htail).2
        exact digits_eq_of_append_eq (fun c hc => hn.fraction c (hnf ▸ hc))
          (fun c hc => hm.fraction c (hmf ▸ hc)) hrest hrest' hdigits
  cases n
  cases m
  simp_all

end Numeral

/-! ## 3. The weight of tokens -/

/-- No row of digits goes on from a token into what stands behind it. -/
theorem Token.digitsMeet_of_stands {token : Token} {rest : List Char} (h : token.Stands rest) :
    digitsMeet token.chars rest = false := by
  have hname : beginsWith isNameChar rest = false → digitsMeet token.chars rest = false := by
    intro hstop
    cases rest with
    | nil => simp [digitsMeet]
    | cons c rest =>
      have hc : c.isDigit = false := by
        refine Bool.eq_false_iff.mpr fun hdigit => ?_
        have hstop' : isNameChar c = false := hstop
        rw [isNameChar_of_isDigit hdigit] at hstop'
        cases hstop'
      simp [digitsMeet, hc]
  cases token with
  | identifier name => exact hname h.2
  | keyword k => exact hname h
  | numeral n =>
    have hends := h.2
    simp only [Numeral.endsBefore, Bool.and_eq_true, Bool.not_eq_true'] at hends
    simp [digitsMeet, hends.1]
  | quoted body =>
    have hlast : (Token.quoted body).chars.getLast? = some '"' := List.getLast?_concat
    rw [digitsMeet, hlast]
    rfl
  | «variable» name => exact hname h.2.2
  | wildcard => exact hname h
  | hole => rfl
  | space blanks =>
    obtain ⟨hne, hblanks, _⟩ := h
    have hlast : (Token.space blanks).chars.getLast? = some (blanks.getLast hne) :=
      List.getLast?_eq_some_getLast hne
    have hblank := hblanks _ (List.getLast_mem hne)
    have hdigit : (blanks.getLast hne).isDigit = false := by
      refine Bool.eq_false_iff.mpr fun hdigit => ?_
      rw [isBlank_of_isDigit hdigit] at hblank
      cases hblank
    simp [digitsMeet, hlast, hdigit]
  | word text =>
    cases hlast : text.getLast? with
    | none => simp [digitsMeet, chars, hlast]
    | some c =>
      obtain ⟨u, htext⟩ := List.getLast?_eq_some_iff.mp hlast
      have hnumeral := (unmarked_of_word h htext).numeral
      simp only [beginsNumeral, Bool.or_eq_false_iff] at hnumeral
      simp [digitsMeet, chars, hlast, hnumeral.1]

/-- Equal terms are written as the same token: the two zeros are the only different ones. -/
theorem Term.token_eq_of_equal {a b : Term} (h : a.equal b = true) : a.token = b.token := by
  cases a with
  | literal v =>
    cases b with
    | literal w =>
      cases v with
      | number x =>
        cases w with
        | number y =>
          rcases Binary64.eq_or_isZero_of_equal h with rfl | ⟨hx, hy⟩
          · rfl
          · rw [token, token, Numeral.ofNumber_of_isZero hx, Numeral.ofNumber_of_isZero hy]
        | _ => cases h
      | bool b => cases w <;> simp_all [equal, Literal.equal]
      | string s => cases w <;> simp_all [equal, Literal.equal]
      | null => cases w <;> simp_all [equal, Literal.equal]
    | _ => cases h
  | _ => cases b <;> simp_all [equal]

section One

variable {token : Token} {t : Term} {rest : List Char} (h : token.term = .ok t)
  (hstands : token.Stands rest) (hline : ∀ c ∈ token.chars, c ≠ '\n' ∧ c ≠ '\t')

/-- A string without line feeds and tabs is written as it was read. -/
theorem Token.escape_body {body : List Char}
    (hline : ∀ c ∈ (Token.quoted body).chars, c ≠ '\n' ∧ c ≠ '\t') :
    escape (unescape body) = body :=
  escape_unescape fun c hc => hline c (by simp [chars, hc])

include h hstands hline

/-- **A term weighs no more than the token that it was read from.** -/
theorem Term.weight_le : weight t.chars ≤ weight token.chars := by
  rcases chars_of_read h with hchars | ⟨n, rfl, hfinite, rfl⟩ | ⟨body, rfl, rfl⟩ | ⟨blanks, rfl, rfl⟩
  · rw [hchars]
  · rw [chars_number hfinite]
    exact (Numeral.weight_ofNumber_le hstands.1 hfinite).1
  · simp [chars, string, Literal.chars, Token.chars, Token.escape_body hline]
  · obtain ⟨hne, hblanks, _⟩ := hstands
    cases blanks with
    | nil => exact absurd rfl hne
    | cons c cs =>
      have hc := one_le_charWeight_of_isBlank (hblanks c List.mem_cons_self)
      rw [weight_space, Token.chars, weight]
      omega

/-- **A token of the same weight in the same place is the one that its term is written as.** -/
theorem Term.eq_token_of_weight {rest' : List Char} (heq : token.chars ++ rest = t.chars ++ rest')
    (hweight : weight token.chars ≤ weight t.chars) (hmeet : digitsMeet t.chars rest' = false) :
    token = t.token := by
  cases token with
  | identifier name =>
    cases h
    simp [token]
  | keyword k =>
    cases h
    cases k <;> rfl
  | numeral n =>
    obtain ⟨hfinite, rfl⟩ := Token.term_numeral h
    have hspelled := Numeral.wellSpelled_ofNumber hfinite
    rw [chars_number hfinite] at heq hweight hmeet
    obtain ⟨hsign, hexp, hfraction⟩ := (Numeral.weight_ofNumber_le hstands.1 hfinite).2 hweight
    have hends := hstands.2
    simp only [Numeral.endsBefore, Bool.and_eq_true, Bool.not_eq_true'] at hends
    rw [digitsMeet, Numeral.getLast?_chars hspelled, Bool.true_and] at hmeet
    have hsame := Numeral.eq_of_append_eq hstands.1 hspelled hsign (Numeral.sign_ofNumber _) hexp
      (Numeral.exponent_ofNumber _) hfraction hends.1 hmeet heq
    exact congrArg Token.numeral hsame
  | quoted body =>
    cases h
    simp [token, string, Token.escape_body hline]
  | «variable» name =>
    cases h
    simp [token]
  | wildcard =>
    cases h
    rfl
  | hole =>
    cases h
    rfl
  | space blanks =>
    cases h
    obtain ⟨hne, hblanks, _⟩ := hstands
    cases blanks with
    | nil => exact absurd rfl hne
    | cons c cs =>
      cases cs with
      | nil =>
        have hc : c = ' ' := (List.cons.inj heq).1
        rw [hc]
        rfl
      | cons d cs =>
        have hc := one_le_charWeight_of_isBlank (hblanks c (by simp))
        have hd := one_le_charWeight_of_isBlank (hblanks d (by simp))
        rw [weight_space, Token.chars, weight, weight] at hweight
        omega
  | word text =>
    cases h
    simp [token, Token.word_ne_space hstands]

end One

/-! ## 4. The weight of a sentence -/

section All

variable {ts : List Token} {f : Sentence} (hts : Spells ts f) (htile : Token.Tile ts)
  (hline : ∀ c ∈ Token.spelling ts, c ≠ '\n' ∧ c ≠ '\t')

include hts htile hline

theorem Sentence.weight_le : weight f.chars ≤ weight (Token.spelling ts) := by
  induction hts with
  | nil => exact Nat.le_refl _
  | @cons token t ts f h hts ih =>
    rw [Token.spelling_cons] at hline ⊢
    have hrest := ih htile.2 fun c hc => hline c (List.mem_append_right _ hc)
    have hfirst := Term.weight_le h htile.1 fun c hc => hline c (List.mem_append_left _ hc)
    have happend := weight_append t.chars (Sentence.chars f)
    rw [chars_cons, weight_append_of_apart (Token.digitsMeet_of_stands htile.1)]
    omega

/-- **Tokens that cover the text of their own sentence are the ones that it is written with.** -/
theorem Sentence.eq_map_token (heq : Token.spelling ts = f.chars) : ts = f.map Term.token := by
  induction hts with
  | nil => rfl
  | @cons token t ts f h hts ih =>
    rw [Token.spelling_cons] at hline
    rw [Token.spelling_cons, chars_cons] at heq
    have hfirst : ∀ c ∈ token.chars, c ≠ '\n' ∧ c ≠ '\t' :=
      fun c hc => hline c (List.mem_append_left _ hc)
    have hrest : ∀ c ∈ Token.spelling ts, c ≠ '\n' ∧ c ≠ '\t' :=
      fun c hc => hline c (List.mem_append_right _ hc)
    -- neither the first term nor the others weigh more than their tokens, so all weigh the same
    have hle := Term.weight_le h htile.1 hfirst
    have hle' : weight (Sentence.chars f) ≤ weight (Token.spelling ts) :=
      weight_le hts htile.2 hrest
    have hsum := weight_append_of_apart (Token.digitsMeet_of_stands htile.1)
    have happend := weight_append t.chars (Sentence.chars f)
    rw [← heq, hsum] at happend
    have hmeet : digitsMeet t.chars (Sentence.chars f) = false := by
      refine Bool.eq_false_iff.mpr fun hmeet => ?_
      rw [hmeet, if_pos rfl] at happend
      omega
    have htoken : token = t.token :=
      Term.eq_token_of_weight h htile.1 hfirst heq (by omega) hmeet
    have hsame : token.chars = t.chars := by rw [htoken, Term.chars_token h]
    rw [hsame] at heq
    rw [List.map_cons, ← htoken, ← ih htile.2 hrest (List.append_cancel_left heq)]

end All

/-! ## 5. Reading and writing -/

/-- Nothing is trimmed from a text that has no blanks at its ends. -/
theorem trimBlanks_of_ends {cs : List Char} (hhead : beginsWith isBlank cs = false)
    (hlast : cs.getLast?.any isBlank = false) : trimBlanks cs = cs := by
  have hdrop : ∀ ds : List Char, beginsWith isBlank ds = false → ds.dropWhile isBlank = ds := by
    intro ds hds
    cases ds with
    | nil => rfl
    | cons c ds =>
      have hc : ¬isBlank c = true := by simpa using hds
      rw [List.dropWhile_cons_of_neg hc]
  have hreverse : beginsWith isBlank cs.reverse = false := by
    rw [beginsWith, List.head?_reverse]
    exact hlast
  rw [trimBlanks, hdrop _ hhead, hdrop _ hreverse, List.reverse_reverse]

theorem ends_trimBlanks (cs : List Char) :
    beginsWith isBlank (trimBlanks cs) = false ∧ (trimBlanks cs).getLast?.any isBlank = false := by
  constructor
  · have hprefix : trimBlanks cs <+: cs.dropWhile isBlank := by
      rw [trimBlanks, ← List.reverse_suffix, List.reverse_reverse]
      exact List.dropWhile_suffix _
    obtain ⟨rest, hrest⟩ := hprefix
    cases htrim : trimBlanks cs with
    | nil => rfl
    | cons c ds =>
      have hhead := beginsWith_dropWhile isBlank cs
      rw [← hrest, htrim] at hhead
      exact hhead
  · rw [trimBlanks, List.getLast?_reverse]
    exact beginsWith_dropWhile isBlank _

namespace Sentence

/-- A text is read token by token. -/
theorem parseChars_eq (cs : List Char) :
    parseChars .factOrPattern cs = (Token.ofText (trimBlanks cs)).mapM Token.term := rfl

theorem parse_eq_ok_iff {text : String} {f : Sentence} :
    parse text = .ok f ↔ Spells (Token.ofText (trimBlanks text.toList)) f := by
  rw [Spells, ← mapM_eq_ok_iff]
  rw [parse, parseAs, parseChars_eq]
  cases (Token.ofText (trimBlanks text.toList)).mapM Token.term with
  | ok g =>
    constructor
    · intro h
      cases h
      rfl
    · intro h
      cases h
      rfl
  | error e =>
    constructor
    · intro h
      cases h
    · intro h
      cases h

/-- What terms are written as stands for them again, if it does so for each of them. -/
theorem exists_spells_token {f : Sentence}
    (h : ∀ t ∈ f, ∃ t', t.token.term = .ok t' ∧ t'.equal t = true) :
    ∃ g, Spells (f.map Term.token) g ∧ equal g f = true := by
  induction f with
  | nil => exact ⟨[], .nil, rfl⟩
  | cons t f ih =>
    obtain ⟨t', ht, hequal⟩ := h t List.mem_cons_self
    obtain ⟨g, hg, hequals⟩ := ih fun u hu => h u (List.mem_cons_of_mem _ hu)
    exact ⟨t' :: g, .cons ht hg, by simp [equal, hequal, hequals]⟩

theorem exists_token_of_spells {ts : List Token} {f : Sentence} (hts : Spells ts f) {t : Term}
    (ht : t ∈ f) : ∃ token : Token, token.term = .ok t := by
  induction hts with
  | nil => cases ht
  | cons h _ ih =>
    rcases List.mem_cons.mp ht with rfl | ht
    · exact ⟨_, h⟩
    · exact ih ht

theorem map_token_eq_of_equal {f g : Sentence} (h : equal g f = true) :
    g.map Term.token = f.map Term.token := by
  rw [equal_iff] at h
  induction h with
  | nil => rfl
  | cons hab _ ih => rw [List.map_cons, List.map_cons, Term.token_eq_of_equal hab, ih]

section Read

variable {text : String} {f : Sentence} (hread : parse text = .ok f)

include hread

/-- The tokens that a sentence was read from. -/
theorem exists_tokens : ∃ ts, Spells ts f ∧ Token.Tile ts ∧
    Token.spelling ts = trimBlanks text.toList := by
  obtain ⟨htext, htile⟩ := Token.ofText_eq_iff.mp (rfl : Token.ofText (trimBlanks text.toList) = _)
  exact ⟨_, parse_eq_ok_iff.mp hread, htile, htext.symm⟩

/-- The text of what was read has no blanks at its ends. -/
theorem trimBlanks_chars : trimBlanks f.chars = f.chars := by
  obtain ⟨ts, hts, htile, htext⟩ := exists_tokens hread
  obtain ⟨hhead, hlast⟩ := ends_trimBlanks text.toList
  rw [← htext] at hhead hlast
  apply trimBlanks_of_ends
  · refine Bool.eq_false_iff.mpr fun hblank => ?_
    rw [(heads_of_read hts htile).2 hblank] at hhead
    cases hhead
  · refine Bool.eq_false_iff.mpr fun hblank => ?_
    rw [blank_last_of_read hts htile hblank] at hlast
    cases hlast

/-- A sentence whose terms keep apart is read back. -/
theorem exists_parse_render (hkeeps : f.keepsApart = true) :
    ∃ g, parse f.render = .ok g ∧ equal g f = true := by
  obtain ⟨ts, hts, htile, _⟩ := exists_tokens hread
  have hagain := (tile_token_iff hts htile).mpr hkeeps
  have htokens : Token.ofText f.chars = f.map Term.token := by
    rw [← spelling_token hts]
    exact Token.ofText_spelling hagain
  obtain ⟨g, hg, hequal⟩ := exists_spells_token fun t ht => by
    obtain ⟨token, htoken⟩ := exists_token_of_spells hts ht
    exact Term.term_token htoken
  refine ⟨g, parse_eq_ok_iff.mpr ?_, hequal⟩
  rw [render, String.toList_ofList, trimBlanks_chars hread, htokens]
  exact hg

/-- What is read back keeps apart. -/
theorem keepsApart_of_parse_render {g : Sentence} (hagain : parse f.render = .ok g)
    (hequal : equal g f = true) : f.keepsApart = true := by
  obtain ⟨ts, hts, htile, _⟩ := exists_tokens hread
  obtain ⟨us, hus, htile', htext⟩ := exists_tokens hagain
  rw [render, String.toList_ofList, trimBlanks_chars hread] at htext
  have hline : ∀ c ∈ Token.spelling us, c ≠ '\n' ∧ c ≠ '\t' := by
    rw [htext]
    exact one_line_of_read hts htile
  have hsame := eq_map_token hus htile' hline (by rw [htext, chars_eq_of_equal hequal])
  rw [hsame, map_token_eq_of_equal hequal] at htile'
  exact (tile_token_iff hts htile).mp htile'

end Read

/-- The text of the sentence is read as the sentence again. -/
def ReadsBack (f : Sentence) : Prop := ∃ g, parse f.render = .ok g ∧ equal g f = true

/-- Sentences that are read back from one text are equal. -/
theorem ReadsBack.equal_of_render_eq {f g : Sentence} (hf : f.ReadsBack) (hg : g.ReadsBack)
    (h : f.render = g.render) : equal f g = true := by
  obtain ⟨f', hreadf, hf'⟩ := hf
  obtain ⟨g', hreadg, hg'⟩ := hg
  rw [h, hreadg] at hreadf
  cases hreadf
  exact equal_trans (equal_symm hf') hg'

theorem readsBack_iff {text : String} {f : Sentence} (hread : parse text = .ok f) :
    f.ReadsBack ↔ f.keepsApart = true := by
  constructor
  · intro h
    obtain ⟨g, hagain, hequal⟩ := h
    exact keepsApart_of_parse_render hread hagain hequal
  · exact exists_parse_render hread

/-- **A sentence is read back from its text exactly if its terms keep apart in it**, and the same
    holds for every key under which a store lists the sentence. -/
theorem read_back_iff_keepsApart {text : String} {f : Sentence} (hread : parse text = .ok f) :
    ((∃ g, parse f.render = .ok g ∧ equal g f = true) ↔ f.keepsApart = true) ∧
      ∀ (history : List Store.Command) (key : String) (fact : Fact),
        (Store.empty.after history).get? key = some fact → fact.terms = f →
          ((∃ g, parse key = .ok g ∧ equal g fact.terms = true) ↔ f.keepsApart = true) := by
  refine ⟨readsBack_iff hread, fun history key fact hkey hterms => ?_⟩
  have hsound : Store.Sound (fun _ => True) (Store.empty.after history) :=
    Store.after_sound Store.sound_empty fun _ _ _ _ _ => trivial
  have hrender : fact.key = key := (hsound.get?_eq_some_iff.mp hkey).2
  rw [← hrender, Fact.key, hterms]
  exact readsBack_iff hread

/-- A sentence with a space between its numbers is read back, also from a store. -/
theorem read_back_one_two :
    let f : Sentence := [.number (.ofNat 1), .word " ", .number (.ofNat 2)]
    parse "1   2" = .ok f ∧ f.keepsApart = true ∧
      ((∃ g, parse f.render = .ok g ∧ equal g f = true) ↔ f.keepsApart = true) ∧
      ∀ (history : List Store.Command) (key : String) (fact : Fact),
        (Store.empty.after history).get? key = some fact → fact.terms = f →
          ((∃ g, parse key = .ok g ∧ equal g fact.terms = true) ↔ f.keepsApart = true) := by
  have hread : parse "1   2" = .ok [.number (.ofNat 1), .word " ", .number (.ofNat 2)] := by
    decide +kernel
  exact ⟨hread, by decide +kernel, read_back_iff_keepsApart hread⟩

/-- Without the space, and with a plus sign that the text of a number leaves out, the two numbers
    run together. -/
theorem one_two_run_together :
    let f : Sentence := [.number (.ofNat 1), .number (.ofNat 2)]
    let g : Sentence := [.number (.ofNat 12)]
    parse "1+2" = .ok f ∧ f.isGround = true ∧ f.render = "12" ∧ parse f.render = .ok g ∧
      equal g f = false := by
  decide +kernel

end Sentence

end Blackboard
