import Blackboard.Sentence.Parse
import Blackboard.Proofs.Equality
import Blackboard.Proofs.Escapes
import Blackboard.Proofs.Tokens
import Mathlib.Data.List.Forall2
import Mathlib.Tactic.FinCases

/-!
# Terms next to each other

The text of a sentence is the texts of its terms one after another. This file says when the tokens
of that text are the terms again.

* `Term.token` is the token that a term is written as.
* `Term.endsBefore` says of a term that its text does not go on into what follows:
  a name or a keyword is followed by no letter or digit; a number by no digit, fraction or exponent;
  a word that ends in a sign by no digit; a word with a quotation mark by no other one.
* **The terms of a sentence that was read from a text are the tokens of its own text exactly if
  each of them ends before the next one** (`tile_token_iff`).
-/

namespace Blackboard

/-! ## 1. How a term is written -/

/-- The token that a term is written as. A blob reference is written as a word, but no text is read
    as one. -/
def Term.token : Term → Token
  | .identifier name => .identifier name.toList
  | .word text => if text = " " then .space [' '] else .word text.toList
  | .literal (.bool true) => .keyword .true
  | .literal (.bool false) => .keyword .false
  | .literal (.number x) => .numeral (.ofNumber x)
  | .literal (.string s) => .quoted (escape s.toList)
  | .literal .null => .keyword .null
  | .blobRef id => .word ('@' :: id.toList)
  | .variable name => .variable name.toList
  | .wildcard => .wildcard
  | .hole => .hole

/-- Whether the text of a term ends before what follows it. -/
def Term.endsBefore (rest : List Char) : Term → Bool
  | .identifier _ | .variable _ | .wildcard | .literal (.bool _) | .literal .null =>
    !beginsWith isNameChar rest
  | .literal (.number x) => (Numeral.ofNumber x).endsBefore rest
  | .word text =>
    !(text.toList.getLast?.any isSign && beginsWith Char.isDigit rest) &&
      !(text.toList.contains '"' && rest.contains '"')
  | _ => true

/-- Whether the terms of a sentence stay apart in its text. -/
def Sentence.keepsApart : Sentence → Bool
  | [] => true
  | t :: s => t.endsBefore (chars s) && keepsApart s

/-! ## 2. Terms that were read -/

theorem isFinite_of_equal {x y : Binary64} (h : x.equal y = true) (hx : x.isFinite = true) :
    y.isFinite = true := by
  cases x <;> cases y <;> simp_all [Binary64.equal, Binary64.isFinite]

/-- The number that a numeral stands for. -/
theorem Token.term_numeral {n : Numeral} {t : Term} (h : (Token.numeral n).term = .ok t) :
    n.value.isFinite = true ∧ t = .number n.value := by
  simp only [Token.term] at h
  split at h
  · next hfinite =>
    cases h
    exact ⟨hfinite, rfl⟩
  · cases h

/-- A finite number is written as its numeral. -/
theorem Term.chars_number {x : Binary64} (h : x.isFinite = true) :
    (Term.number x).chars = (Numeral.ofNumber x).chars :=
  (Numeral.chars_ofNumber h).symm

theorem Sentence.chars_cons (t : Term) (f : Sentence) :
    Sentence.chars (t :: f) = t.chars ++ Sentence.chars f :=
  rfl

section Read

variable {token : Token} {t : Term} (h : token.term = .ok t)

include h

theorem Term.chars_token : t.token.chars = t.chars := by
  cases token with
  | identifier name =>
    cases h
    rfl
  | keyword k =>
    cases h
    cases k <;> rfl
  | numeral n =>
    obtain ⟨hfinite, rfl⟩ := Token.term_numeral h
    exact Numeral.chars_ofNumber hfinite
  | quoted body =>
    cases h
    rfl
  | «variable» name =>
    cases h
    rfl
  | wildcard =>
    cases h
    rfl
  | hole =>
    cases h
    rfl
  | space blanks =>
    cases h
    rfl
  | word text =>
    cases h
    simp only [token]
    split
    · next hspace => simp [Token.chars, Term.chars, hspace]
    · rfl

/-- **The token that a term is written as stands for the term again.** -/
theorem Term.term_token : ∃ t', t.token.term = .ok t' ∧ t'.equal t = true := by
  cases token with
  | identifier name =>
    cases h
    exact ⟨_, rfl, by simp [equal]⟩
  | keyword k =>
    cases h
    cases k <;> exact ⟨_, rfl, rfl⟩
  | numeral n =>
    obtain ⟨hfinite, rfl⟩ := Token.term_numeral h
    have hvalue := Numeral.value_ofNumber hfinite
    have hfinite' : (Numeral.ofNumber n.value).value.isFinite = true :=
      isFinite_of_equal (Binary64.equal_symm hvalue) hfinite
    exact ⟨.number (Numeral.ofNumber n.value).value, by simp [token, Token.term, number, hfinite'],
      hvalue⟩
  | quoted body =>
    cases h
    refine ⟨_, rfl, ?_⟩
    simp [equal, Literal.equal, string, unescape_escape (hasEscape_unescape body)]
  | «variable» name =>
    cases h
    exact ⟨_, rfl, by simp [equal]⟩
  | wildcard =>
    cases h
    exact ⟨_, rfl, rfl⟩
  | hole =>
    cases h
    exact ⟨_, rfl, rfl⟩
  | space blanks =>
    cases h
    exact ⟨_, rfl, by simp [equal]⟩
  | word text =>
    cases h
    simp only [token]
    split
    · next hspace => exact ⟨_, rfl, by simp [equal, hspace]⟩
    · exact ⟨_, rfl, by simp [equal]⟩

end Read

/-! ## 3. Characters -/

theorem isNameChar_of_isDigit {c : Char} (h : c.isDigit = true) : isNameChar c = true := by
  simp [isNameChar, Char.isAlphanum, h]

/-- No blank is a letter or a digit. -/
theorem isNameChar_of_isBlank {c : Char} (h : isBlank c = true) : isNameChar c = false := by
  have hcodes : c.toNat ∈ ([0x9, 0xA, 0xB, 0xC, 0xD, 0x20, 0x85, 0xA0, 0x1680, 0x2000, 0x2001,
      0x2002, 0x2003, 0x2004, 0x2005, 0x2006, 0x2007, 0x2008, 0x2009, 0x200A, 0x2028, 0x2029,
      0x202F, 0x205F, 0x3000] : List Nat) := by
    simp only [isBlank, Bool.or_eq_true, Bool.and_eq_true, decide_eq_true_eq, beq_iff_eq] at h
    simp only [List.mem_cons, List.not_mem_nil, or_false]
    omega
  have hnone : ∀ n ∈ ([0x9, 0xA, 0xB, 0xC, 0xD, 0x20, 0x85, 0xA0, 0x1680, 0x2000, 0x2001,
      0x2002, 0x2003, 0x2004, 0x2005, 0x2006, 0x2007, 0x2008, 0x2009, 0x200A, 0x2028, 0x2029,
      0x202F, 0x205F, 0x3000] : List Nat), isNameChar (Char.ofNat n) = false := by
    decide +kernel
  rw [← Char.ofNat_toNat c]
  exact hnone _ hcodes

theorem isBlank_of_isNameChar {c : Char} (h : isNameChar c = true) : isBlank c = false := by
  refine Bool.eq_false_iff.mpr fun hblank => ?_
  rw [isNameChar_of_isBlank hblank] at h
  cases h

theorem ne_of_isBlank {c : Char} (h : isBlank c = false) : c ≠ '\n' ∧ c ≠ '\t' := by
  constructor
  · intro heq
    rw [heq] at h
    cases h
  · intro heq
    rw [heq] at h
    cases h

/-- The characters that numerals are written with. -/
theorem Numeral.of_mem_chars {n : Numeral} (hn : n.WellSpelled) {c : Char} (h : c ∈ n.chars) :
    c.isDigit = true ∨ c ∈ ['+', '-', '.', 'e', 'E'] := by
  have hsign : ∀ s : Option Sign, c ∈ Sign.chars s → c ∈ ['+', '-', '.', 'e', 'E'] := by
    intro s hs
    cases s with
    | none => cases hs
    | some s =>
      rw [List.mem_singleton.mp hs]
      cases s <;> decide
  simp only [chars, List.mem_append] at h
  rcases h with ((h | h) | h) | h
  · exact Or.inr (hsign _ h)
  · exact Or.inl (hn.whole c h)
  · cases hfrac : n.fraction with
    | nil =>
      rw [hfrac] at h
      cases h
    | cons d ds =>
      rw [hfrac] at h
      rcases List.mem_cons.mp h with rfl | h
      · exact Or.inr (by decide)
      · exact Or.inl (hn.fraction c (hfrac ▸ h))
  · cases hexp : n.exponent with
    | none =>
      rw [hexp] at h
      cases h
    | some e =>
      rw [hexp] at h
      have he := hn.exponent e hexp
      simp only [Option.map_some, Option.getD_some, Exponent.chars, List.cons_append,
        List.mem_cons, List.mem_append] at h
      rcases h with rfl | h | h
      · rcases he.mark with h | h <;> simp [h]
      · exact Or.inr (hsign _ h)
      · exact Or.inl (he.digits c h)

/-- No character of a number is a blank. -/
theorem Term.isBlank_of_mem_number {x : Binary64} (hfinite : x.isFinite = true) {c : Char}
    (hc : c ∈ (Term.number x).chars) : isBlank c = false := by
  rw [chars_number hfinite] at hc
  rcases Numeral.of_mem_chars (Numeral.wellSpelled_ofNumber hfinite) hc with hdigit | hmem
  · exact isBlank_of_isDigit hdigit
  · fin_cases hmem <;> rfl

/-- A numeral ends in a digit. -/
theorem Numeral.getLast?_chars {n : Numeral} (hn : n.WellSpelled) :
    n.chars.getLast?.any Char.isDigit = true := by
  have hdigits : ∀ ds : List Char, ds ≠ [] → (∀ c ∈ ds, c.isDigit = true) → ∀ front : List Char,
      (front ++ ds).getLast?.any Char.isDigit = true := by
    intro ds hne hds front
    rw [List.getLast?_append_of_ne_nil _ hne, List.getLast?_eq_some_getLast hne]
    exact hds _ (List.getLast_mem hne)
  cases hexp : n.exponent with
  | some e =>
    have he := hn.exponent e hexp
    have hchars := hdigits e.digits he.nonempty he.digits
      (Sign.chars n.sign ++ n.whole ++ fractionChars n.fraction ++ e.mark :: Sign.chars e.sign)
    simpa [chars, hexp, Exponent.chars] using hchars
  | none =>
    cases hfrac : n.fraction with
    | nil =>
      have hchars := hdigits n.whole hn.nonempty hn.whole (Sign.chars n.sign)
      simpa [chars, hexp, hfrac, fractionChars] using hchars
    | cons d ds =>
      have hchars := hdigits (d :: ds) (by simp) (fun c hc => hn.fraction c (hfrac ▸ hc))
        (Sign.chars n.sign ++ n.whole ++ ['.'])
      simpa [chars, hexp, hfrac, fractionChars] using hchars

/-! ## 4. Words -/

/-- The letters inside a keyword mark nothing. -/
theorem markedAt?_inside_keyword {k : Keyword} {v w : List Char} {c : Char}
    (h : k.chars = v ++ c :: w) (hv : v ≠ []) (cs : List Char) :
    Token.markedAt? (c :: cs) = none := by
  have htail : k.chars.tail = v.tail ++ c :: w := by
    cases v with
    | nil => exact absurd rfl hv
    | cons d v => rw [h]; rfl
  have hmem : c ∈ k.chars.tail := by simp [htail]
  have hletters : ∀ d ∈ k.chars.tail, d ≠ '#' ∧ d ≠ '$' ∧ d ≠ '_' ∧ d ≠ '"' ∧
      isBlank d = false ∧ d.isDigit = false ∧ isSign d = false ∧ ¬(d = 't' ∨ d = 'f' ∨ d = 'n') := by
    intro d hd
    cases k <;> fin_cases hd <;> decide
  obtain ⟨hhash, hdollar, hunder, hquote, hblank, hdigit, hsign, hhead⟩ := hletters c hmem
  exact Token.markedAt?_eq_none_iff.mpr ⟨hhash, hdollar, hunder, hblank,
    by simp [beginsNumeral, hdigit, hsign], Keyword.scan?_eq_none_of_head cs hhead,
    fun h => absurd h hquote⟩

/-- No keyword begins in a word when other text comes behind it: it would have to end in the word,
    or go on into what is marked. -/
theorem scanKeyword_append_eq_none {v rest rest' : List Char}
    (h : Keyword.scan? (v ++ rest) = none) (hv : v ≠ [])
    (hmarked : rest' ≠ [] → (Token.markedAt? rest').isSome = true)
    (hname : beginsWith isNameChar rest = true → beginsWith isNameChar rest' = true) :
    Keyword.scan? (v ++ rest') = none := by
  cases hscan : Keyword.scan? (v ++ rest') with
  | none => rfl
  | some k =>
    exfalso
    obtain ⟨r, hr, hstop⟩ := Keyword.scan?_eq_some_iff.mp hscan
    rcases List.append_eq_append_iff.mp hr with ⟨w, hkeyword, hrest⟩ | ⟨w, hword, hrest⟩
    · cases w with
      | nil =>
        rw [List.append_nil] at hkeyword
        rw [List.nil_append] at hrest
        have hkeep : Keyword.scan? (v ++ rest) = some k := by
          refine Keyword.scan?_eq_some_iff.mpr ⟨rest, by rw [hkeyword], fun hbegins => ?_⟩
          rw [← hrest] at hstop
          exact hstop (hname hbegins)
        rw [h] at hkeep
        cases hkeep
      | cons d w =>
        have hnone := markedAt?_inside_keyword hkeyword hv (w ++ r)
        have hsome := hmarked (by rw [hrest]; simp)
        rw [hrest, List.cons_append, hnone] at hsome
        cases hsome
    · have hkeep : Keyword.scan? (v ++ rest) = some k := by
        refine Keyword.scan?_eq_some_iff.mpr ⟨w ++ rest, ?_, fun hbegins => hstop ?_⟩
        · rw [hword, List.append_assoc]
        · rw [hrest]
          cases w with
          | nil => exact hname hbegins
          | cons d w => exact hbegins
      rw [h] at hkeep
      cases hkeep

/-- Inside a word nothing is marked when other text comes behind it, if that text begins with a
    marked token, does not end a keyword, makes no numeral of a sign and closes no quotation. -/
theorem Token.Unmarked.append {c : Char} {v rest rest' : List Char}
    (h : Unmarked c (v ++ rest)) (hmarked : rest' ≠ [] → (markedAt? rest').isSome = true)
    (hname : beginsWith isNameChar rest = true → beginsWith isNameChar rest' = true)
    (hsign : v = [] → isSign c = true → beginsWith Char.isDigit rest' = false)
    (hquote : c = '"' → '"' ∉ rest') (hline : '\n' ∉ v) : Unmarked c (v ++ rest') := by
  refine ⟨h.hash, h.dollar, h.underscore, h.blank, ?_, ?_, ?_⟩
  · have hnumeral := h.numeral
    simp only [beginsNumeral, Bool.or_eq_false_iff, Bool.and_eq_false_iff] at hnumeral ⊢
    refine ⟨hnumeral.1, ?_⟩
    cases v with
    | nil =>
      cases hc : isSign c with
      | false => exact Or.inl rfl
      | true => exact Or.inr (hsign rfl hc)
    | cons d v => exact hnumeral.2
  · rw [← List.cons_append]
    exact scanKeyword_append_eq_none h.keyword (List.cons_ne_nil _ _) hmarked hname
  · intro hc
    have hopen := h.quote hc
    refine Bool.eq_false_iff.mpr fun hclosed => ?_
    rcases List.mem_append.mp (mem_of_isQuoteClosed hclosed) with hmem | hmem
    · rw [isQuoteClosed_of_mem hmem hline] at hopen
      cases hopen
    · exact absurd hmem (hquote hc)

/-- A character of a word, with what comes behind it, marks nothing. -/
theorem Token.unmarked_of_word {text rest u v : List Char} {c : Char}
    (h : (word text).Stands rest) (htext : text = u ++ c :: v) : Unmarked c (v ++ rest) := by
  have hnone := (wordChars_append_iff.mp h.2).1 u (c :: v) htext (by simp)
  exact markedAt?_eq_none_iff.mp hnone

theorem Token.isBlank_of_mem_word {text rest : List Char} (h : (word text).Stands rest) {c : Char}
    (hc : c ∈ text) : isBlank c = false := by
  obtain ⟨u, v, htext⟩ := List.append_of_mem hc
  exact (unmarked_of_word h htext).blank

theorem Token.word_ne_space {text rest : List Char} (h : (word text).Stands rest) :
    String.ofList text ≠ " " := by
  intro hspace
  have htext : text = [' '] := by rw [← String.toList_ofList (l := text), hspace]; rfl
  have hblank := isBlank_of_mem_word h (c := ' ') (by simp [htext])
  cases hblank

/-- **A word that was read is read again in front of other text**, if that text begins with a marked
    token, does not end a keyword, makes no numeral of a last sign and closes no quotation. -/
theorem Token.word_stands_before {text rest rest' : List Char} (h : (word text).Stands rest)
    (hmarked : rest' ≠ [] → (markedAt? rest').isSome = true)
    (hname : beginsWith isNameChar rest = true → beginsWith isNameChar rest' = true)
    (hsign : text.getLast?.any isSign = false ∨ beginsWith Char.isDigit rest' = false)
    (hquote : text.contains '"' = false ∨ rest'.contains '"' = false) :
    (word text).Stands rest' := by
  refine ⟨h.1, wordChars_append_iff.mpr ⟨fun u v htext hv => ?_, hmarked⟩⟩
  cases v with
  | nil => exact absurd rfl hv
  | cons c v =>
    apply markedAt?_eq_none_iff.mpr
    refine (unmarked_of_word h htext).append hmarked hname ?_ ?_ ?_
    · intro hnil hc
      rcases hsign with hlast | hdigit
      · rw [htext, hnil] at hlast
        simp [hc] at hlast
      · exact hdigit
    · intro hc hmem
      rcases hquote with hword | hrest
      · simp [htext, hc] at hword
      · simp [hmem] at hrest
    · intro hmem
      have hnl := isBlank_of_mem_word h (c := '\n') (by simp [htext, hmem])
      cases hnl

/-- A digit does not follow the sign that a word ends with. -/
theorem Token.sign_of_word {text rest : List Char} (h : (word text).Stands rest)
    (hlast : text.getLast?.any isSign = true) : beginsWith Char.isDigit rest = false := by
  obtain ⟨c, hc, hsign⟩ := (Option.any_eq_true _ _).mp hlast
  obtain ⟨u, htext⟩ := List.getLast?_eq_some_iff.mp hc
  have hnumeral := (unmarked_of_word h htext).numeral
  simp only [beginsNumeral, hsign, List.nil_append, Bool.true_and, Bool.or_eq_false_iff] at hnumeral
  exact hnumeral.2

/-- A quotation mark does not follow on the line of a word with one, which would open a string. -/
theorem Token.quote_of_word {text rest : List Char} (h : (word text).Stands rest)
    (hmem : text.contains '"' = true) (hline : '\n' ∉ rest) : rest.contains '"' = false := by
  obtain ⟨u, v, htext⟩ := List.append_of_mem (List.contains_iff_mem.mp hmem)
  have hopen := (unmarked_of_word h htext).quote rfl
  refine Bool.eq_false_iff.mpr fun hrest => ?_
  have hv : '\n' ∉ v := by
    intro hnl
    have hblank := isBlank_of_mem_word h (c := '\n') (by simp [htext, hnl])
    cases hblank
  have hclosed : isQuoteClosed (v ++ rest ++ []) = true :=
    isQuoteClosed_of_mem (List.mem_append_right _ (List.contains_iff_mem.mp hrest))
      (by simp [hv, hline])
  rw [List.append_nil, hopen] at hclosed
  cases hclosed

/-- What stands between quotation marks does so again when it is escaped anew. -/
theorem Token.isQuotable_escape {body : List Char} (h : ∀ c ∈ body, isQuotable c = true) :
    ∀ c ∈ escape (unescape body), isQuotable c = true := by
  intro c hc
  obtain ⟨hnl, _, hquote⟩ := of_mem_escape hc
  have hne : c ≠ '"' := by
    intro hc
    subst hc
    have hbody := h '"' (quote_mem_of_unescape (hquote rfl))
    cases hbody
  simp [isQuotable, hne, hnl]

/-! ## 5. One term -/

section One

variable {token : Token} {t : Term} {rest : List Char} (h : token.term = .ok t)
  (hstands : token.Stands rest)

include h hstands

/-- **A term that was read is read again in front of other text**, if it ends before that text. The
    two texts behind it may differ, but not in what they begin with. -/
theorem Term.stands_token {rest' : List Char} (hends : t.endsBefore rest' = true)
    (hmarked : token.isMarked = false → rest' ≠ [] → (Token.markedAt? rest').isSome = true)
    (hname : beginsWith isNameChar rest = true → beginsWith isNameChar rest' = true)
    (hblank : beginsWith isBlank rest = false → beginsWith isBlank rest' = false) :
    t.token.Stands rest' := by
  cases token with
  | identifier name =>
    cases h
    have hstop : beginsWith isNameChar rest' = false := by simpa [endsBefore] using hends
    exact ⟨by simpa using hstands.1, hstop⟩
  | keyword k =>
    cases h
    cases k <;> simpa [endsBefore, Keyword.literal, token, Token.Stands] using hends
  | numeral n =>
    obtain ⟨hfinite, rfl⟩ := Token.term_numeral h
    exact ⟨Numeral.wellSpelled_ofNumber hfinite, hends⟩
  | quoted body =>
    cases h
    have hquotable := Token.isQuotable_escape hstands
    intro c hc
    simp only [String.toList_ofList] at hc
    exact hquotable c hc
  | «variable» name =>
    cases h
    have hstop : beginsWith isNameChar rest' = false := by simpa [endsBefore] using hends
    exact ⟨by simpa using hstands.1, by simpa using hstands.2.1, hstop⟩
  | wildcard =>
    cases h
    simpa [endsBefore, token, Token.Stands] using hends
  | hole =>
    cases h
    exact trivial
  | space blanks =>
    cases h
    exact ⟨by simp, by simp [isBlank], hblank hstands.2.2⟩
  | word text =>
    cases h
    simp only [endsBefore, String.toList_ofList, Bool.and_eq_true, Bool.not_eq_true',
      Bool.and_eq_false_iff] at hends
    obtain ⟨hsign, hquote⟩ := hends
    simp only [token, if_neg (Token.word_ne_space hstands), String.toList_ofList]
    exact Token.word_stands_before hstands (hmarked rfl) hname hsign hquote

omit hstands in
/-- A term is written as it was read, but for numbers, strings and blanks. -/
theorem Term.chars_of_read :
    t.chars = token.chars ∨
      (∃ n, token = .numeral n ∧ n.value.isFinite = true ∧ t = .number n.value) ∨
      (∃ body, token = .quoted body ∧ t = .string (String.ofList (unescape body))) ∨
      (∃ blanks, token = .space blanks ∧ t = .word " ") := by
  cases token with
  | identifier name =>
    cases h
    exact Or.inl (by simp [chars, Token.chars])
  | keyword k =>
    cases h
    cases k <;> exact Or.inl rfl
  | numeral n =>
    obtain ⟨hfinite, rfl⟩ := Token.term_numeral h
    exact Or.inr (Or.inl ⟨n, rfl, hfinite, rfl⟩)
  | quoted body =>
    cases h
    exact Or.inr (Or.inr (Or.inl ⟨body, rfl, rfl⟩))
  | «variable» name =>
    cases h
    exact Or.inl (by simp [chars, Token.chars])
  | wildcard =>
    cases h
    exact Or.inl rfl
  | hole =>
    cases h
    exact Or.inl rfl
  | space blanks =>
    cases h
    exact Or.inr (Or.inr (Or.inr ⟨blanks, rfl, rfl⟩))
  | word text =>
    cases h
    exact Or.inl (by simp [chars, Token.chars])

theorem Term.chars_ne_nil_of_read : t.chars ≠ [] := by
  rcases chars_of_read h with hchars | ⟨n, rfl, hfinite, rfl⟩ | ⟨body, rfl, rfl⟩ | ⟨blanks, rfl, rfl⟩
  · rw [hchars]
    exact Token.chars_ne_nil hstands
  · have hlast := Numeral.getLast?_chars (Numeral.wellSpelled_ofNumber hfinite)
    intro hnil
    rw [← chars_number hfinite, hnil] at hlast
    cases hlast
  · exact nofun
  · exact nofun

/-- What began with a letter or a digit is written with one in front. -/
theorem Term.beginsWith_name_of_read (hname : beginsWith isNameChar token.chars = true) :
    beginsWith isNameChar t.chars = true := by
  rcases chars_of_read h with hchars | ⟨n, rfl, hfinite, rfl⟩ | ⟨body, rfl, _⟩ | ⟨blanks, rfl, _⟩
  · rwa [hchars]
  · have hsign : n.sign = none := by
      cases hs : n.sign with
      | none => rfl
      | some s =>
        rw [Token.chars, Numeral.chars, hs] at hname
        cases s <;> cases hname
    have hpositive : n.isNegative = false := by
      rw [Numeral.isNegative, hsign]
      rfl
    have hspelled := Numeral.wellSpelled_ofNumber hfinite
    have hnosign : (Numeral.ofNumber n.value).sign = none := by
      rw [Numeral.value, Binary64.ofDecimal, hpositive, Binary64.ofRank]
      split
      · rw [Numeral.ofNumber, Numeral.sign_ofDecimal]
        rfl
      · rfl
    rw [chars_number hfinite, ← List.append_nil (Numeral.ofNumber n.value).chars,
      Numeral.chars_append, hnosign]
    cases hwhole : (Numeral.ofNumber n.value).whole with
    | nil => exact absurd hwhole hspelled.nonempty
    | cons c cs => exact isNameChar_of_isDigit (hspelled.whole c (by simp [hwhole]))
  · cases hname
  · obtain ⟨hne, hblanks, _⟩ := hstands
    cases blanks with
    | nil => exact absurd rfl hne
    | cons c cs =>
      have hc := isNameChar_of_isBlank (hblanks c List.mem_cons_self)
      have hname' : isNameChar c = true := hname
      rw [hc] at hname'
      cases hname'

/-- What is written with a blank in front began with one, and the same holds for the end. -/
theorem Term.blank_of_read :
    (t.chars.head?.any isBlank = true → token.chars.head?.any isBlank = true) ∧
      (t.chars.getLast?.any isBlank = true → token.chars.getLast?.any isBlank = true) := by
  rcases chars_of_read h with hchars | ⟨n, rfl, hfinite, rfl⟩ | ⟨body, rfl, rfl⟩ | ⟨blanks, rfl, rfl⟩
  · rw [hchars]
    exact ⟨id, id⟩
  · constructor
    · intro hhead
      obtain ⟨c, hc, hblank⟩ := (Option.any_eq_true _ _).mp hhead
      rw [isBlank_of_mem_number hfinite (List.mem_of_head? hc)] at hblank
      cases hblank
    · intro hlast
      obtain ⟨c, hc, hblank⟩ := (Option.any_eq_true _ _).mp hlast
      rw [isBlank_of_mem_number hfinite (List.mem_of_getLast? hc)] at hblank
      cases hblank
  · constructor
    · intro hhead
      cases hhead
    · intro hlast
      simp only [chars, string, Literal.chars] at hlast
      rw [List.getLast?_append_of_ne_nil _ (by simp)] at hlast
      cases hlast
  · obtain ⟨hne, hblanks, _⟩ := hstands
    have hall : ∀ c : Option Char, (∀ d, c = some d → d ∈ blanks) → c ≠ none →
        c.any isBlank = true := by
      intro c hmem hsome
      obtain ⟨d, rfl⟩ := Option.ne_none_iff_exists'.mp hsome
      exact hblanks d (hmem d rfl)
    have hchars : (Token.space blanks).chars ≠ [] := hne
    exact ⟨fun _ => hall _ (fun d hd => List.mem_of_head? hd) (by simpa using hchars),
      fun _ => hall _ (fun d hd => List.mem_of_getLast? hd) (by simpa using hchars)⟩

/-- The text of a term has neither line feeds nor tabs. -/
theorem Term.one_line_of_read {c : Char} (hc : c ∈ t.chars) : c ≠ '\n' ∧ c ≠ '\t' := by
  cases token with
  | identifier name =>
    cases h
    simp only [chars, String.toList_ofList, List.mem_cons] at hc
    rcases hc with rfl | hc
    · decide
    · exact ne_of_isBlank (isBlank_of_isNameChar (hstands.1 c hc))
  | keyword k =>
    cases h
    have hblank : isBlank c = false := by
      cases k <;> fin_cases hc <;> rfl
    exact ne_of_isBlank hblank
  | numeral n =>
    obtain ⟨hfinite, rfl⟩ := Token.term_numeral h
    exact ne_of_isBlank (isBlank_of_mem_number hfinite hc)
  | quoted body =>
    cases h
    simp only [chars, string, Literal.chars, List.cons_append, List.mem_cons, List.mem_append,
      List.not_mem_nil, or_false] at hc
    rcases hc with rfl | hc | rfl
    · decide
    · obtain ⟨hnl, htab, _⟩ := of_mem_escape hc
      exact ⟨hnl, htab⟩
    · decide
  | «variable» name =>
    cases h
    simp only [chars, String.toList_ofList, List.mem_cons] at hc
    rcases hc with rfl | hc
    · decide
    · exact ne_of_isBlank (isBlank_of_isNameChar (hstands.2.1 c hc))
  | wildcard =>
    cases h
    rw [List.mem_singleton.mp hc]
    decide
  | hole =>
    cases h
    rw [List.mem_singleton.mp hc]
    decide
  | space blanks =>
    cases h
    rw [List.mem_singleton.mp hc]
    decide
  | word text =>
    cases h
    simp only [chars, String.toList_ofList] at hc
    exact ne_of_isBlank (Token.isBlank_of_mem_word hstands hc)

end One

/-- **What is read again ends before what follows it**, if all of that is on one line. -/
theorem Term.endsBefore_of_stands {t : Term} {rest : List Char} (h : t.token.Stands rest)
    (hline : '\n' ∉ rest) : t.endsBefore rest = true := by
  cases t with
  | identifier name =>
    have hstop := h.2
    simp [endsBefore, hstop]
  | word text =>
    by_cases hspace : text = " "
    · subst hspace
      have hsign : isSign ' ' = false := rfl
      simp [endsBefore, hsign]
    · simp only [token, if_neg hspace] at h
      simp only [endsBefore, Bool.and_eq_true, Bool.not_eq_true', Bool.and_eq_false_iff]
      constructor
      · cases hlast : text.toList.getLast?.any isSign with
        | false => exact Or.inl rfl
        | true => exact Or.inr (Token.sign_of_word h hlast)
      · cases hmem : text.toList.contains '"' with
        | false => exact Or.inl rfl
        | true => exact Or.inr (Token.quote_of_word h hmem hline)
  | literal value =>
    cases value with
    | bool b =>
      cases b
      · have hstop : beginsWith isNameChar rest = false := h
        simp [endsBefore, hstop]
      · have hstop : beginsWith isNameChar rest = false := h
        simp [endsBefore, hstop]
    | number x => exact h.2
    | string s => rfl
    | null =>
      have hstop : beginsWith isNameChar rest = false := h
      simp [endsBefore, hstop]
  | blobRef id => rfl
  | «variable» name =>
    have hstop := h.2.2
    simp [endsBefore, hstop]
  | wildcard =>
    have hstop : beginsWith isNameChar rest = false := h
    simp [endsBefore, hstop]
  | hole => rfl

/-- A term is written as a marked token if it was read as one. -/
theorem Term.isMarked_token {token : Token} {t : Term} (h : token.term = .ok t)
    (hmarked : token.isMarked = true) : t.token.isMarked = true := by
  cases token with
  | keyword k =>
    cases h
    cases k <;> rfl
  | numeral n =>
    obtain ⟨_, rfl⟩ := Token.term_numeral h
    rfl
  | word text => cases hmarked
  | _ =>
    cases h
    rfl

/-! ## 6. All terms of a sentence -/

/-- Tokens and the terms that they stand for. -/
abbrev Spells (ts : List Token) (f : Sentence) : Prop :=
  List.Forall₂ (fun t a => t.term = .ok a) ts f

section All

variable {ts : List Token} {f : Sentence} (hts : Spells ts f)

include hts

theorem Sentence.spelling_token : Token.spelling (f.map Term.token) = f.chars := by
  induction hts with
  | nil => rfl
  | cons h _ ih =>
    rw [List.map_cons, Token.spelling_cons, Term.chars_token h, ih]
    rfl

variable (htile : Token.Tile ts)

include htile

theorem Sentence.one_line_of_read : ∀ c ∈ f.chars, c ≠ '\n' ∧ c ≠ '\t' := by
  induction hts with
  | nil => exact fun c hc => by cases hc
  | cons h _ ih =>
    intro c hc
    rcases List.mem_append.mp hc with hc | hc
    · exact Term.one_line_of_read h htile.1 hc
    · exact ih htile.2 c hc

/-- A text begins alike before and after it is read, as far as names and blanks go. -/
theorem Sentence.heads_of_read :
    (beginsWith isNameChar (Token.spelling ts) = true → beginsWith isNameChar f.chars = true) ∧
      (beginsWith isBlank f.chars = true → beginsWith isBlank (Token.spelling ts) = true) := by
  cases hts with
  | nil => exact ⟨id, id⟩
  | @cons token t ts f h hts =>
    have hne : token.chars ≠ [] := Token.chars_ne_nil htile.1
    have hne' : t.chars ≠ [] := Term.chars_ne_nil_of_read h htile.1
    rw [Token.spelling_cons, chars_cons, beginsWith_append hne, beginsWith_append hne,
      beginsWith_append hne', beginsWith_append hne']
    exact ⟨Term.beginsWith_name_of_read h htile.1, (Term.blank_of_read h htile.1).1⟩

/-- What is written with a blank at the end was read with one. -/
theorem Sentence.blank_last_of_read (hlast : f.chars.getLast?.any isBlank = true) :
    (Token.spelling ts).getLast?.any isBlank = true := by
  induction hts with
  | nil => exact hlast
  | @cons token t ts f h hts ih =>
    rw [chars_cons] at hlast
    rw [Token.spelling_cons]
    cases hts with
    | nil =>
      rw [Sentence.chars, List.flatMap_nil, List.append_nil] at hlast
      rw [Token.spelling_nil, List.append_nil]
      exact (Term.blank_of_read h htile.1).2 hlast
    | @cons token' t' ts f h' hts =>
      have hne : Token.spelling (token' :: ts) ≠ [] := Token.spelling_ne_nil htile.2
      have hne' : Sentence.chars (t' :: f) ≠ [] := fun hnil =>
        Term.chars_ne_nil_of_read h' htile.2.1 (List.append_eq_nil_iff.mp hnil).1
      rw [List.getLast?_append_of_ne_nil _ hne'] at hlast
      rw [List.getLast?_append_of_ne_nil _ hne]
      exact ih htile.2 hlast

/-- Behind a word there is a marked token, also after the terms are read. -/
theorem Sentence.marked_of_read (hagain : Token.Tile (f.map Term.token))
    (hmarked : Token.spelling ts ≠ [] → (Token.markedAt? (Token.spelling ts)).isSome = true)
    (hne : f.chars ≠ []) : (Token.markedAt? f.chars).isSome = true := by
  rw [← spelling_token hts] at hne ⊢
  cases hts with
  | nil => exact absurd rfl hne
  | @cons token t ts f h hts =>
    rw [Token.spelling_cons] at hmarked
    have hsome := hmarked (Token.spelling_ne_nil htile)
    have htoken := Term.isMarked_token h (Token.isMarked_of_markedAt? htile.1 hsome)
    rw [List.map_cons, Token.spelling_cons, Token.markedAt?_of_stands htoken hagain.1]
    rfl

/-- **The terms of a sentence that was read are the tokens of its own text exactly if each of them
    ends before the next one.** -/
theorem Sentence.tile_token_iff : Token.Tile (f.map Term.token) ↔ f.keepsApart = true := by
  constructor
  · intro hagain
    have hline := one_line_of_read hts htile
    clear htile
    induction hts with
    | nil => rfl
    | @cons token t ts f h hts ih =>
      obtain ⟨hstands, hagain⟩ := hagain
      have hline' : ∀ c ∈ Sentence.chars f, c ≠ '\n' ∧ c ≠ '\t' :=
        fun c hc => hline c (List.mem_append_right _ hc)
      have hstands' : t.token.Stands (Sentence.chars f) := by
        rw [← spelling_token hts]
        exact hstands
      have hends := Term.endsBefore_of_stands hstands' fun hnl => (hline' _ hnl).1 rfl
      simp [keepsApart, hends, ih hagain hline']
  · intro hkeeps
    induction hts with
    | nil => trivial
    | @cons token t ts f h hts ih =>
      simp only [keepsApart, Bool.and_eq_true] at hkeeps
      have hagain := ih htile.2 hkeeps.2
      obtain ⟨hname, hblank⟩ := heads_of_read hts htile.2
      have hnoblank : beginsWith isBlank (Token.spelling ts) = false →
          beginsWith isBlank (Sentence.chars f) = false := by
        intro hstop
        refine Bool.eq_false_iff.mpr fun hbegins => ?_
        rw [hblank hbegins] at hstop
        cases hstop
      refine ⟨?_, hagain⟩
      have hspelling : Token.spelling (f.map Term.token) = Sentence.chars f := spelling_token hts
      rw [hspelling]
      refine Term.stands_token h htile.1 hkeeps.1 (fun hword hne => ?_) hname hnoblank
      cases token with
      | word text =>
        exact marked_of_read hts htile.2 hagain
          (Token.wordChars_append_iff.mp htile.1.2).2 hne
      | _ => cases hword

end All

end Blackboard
