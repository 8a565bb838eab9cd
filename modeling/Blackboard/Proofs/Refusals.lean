import Blackboard.Proofs.Grammar
import Blackboard.Proofs.ReadBack

/-!
# Which texts are refused

Every text is a row of tokens, so no text is refused for its shape: what can be wrong with a text is
a number in it.

* A token stands for a term unless it is a numeral whose value is infinite (`Token.term_eq_error_iff`).
* **A text is refused exactly if there is such a numeral among its tokens, and the refusal names the
  first one** (`Sentence.refused_iff_infinite_numeral`). The tokens are those that the grammar cuts
  the text into, once the blanks around it are gone.
-/

namespace Blackboard

/-! ## 1. Numerals that are too large -/

/-- A numeral is too large if the number nearest to it is infinite. -/
def Numeral.IsTooLarge (n : Numeral) : Prop := ∃ negative, n.value = .infinity negative

/-- A numeral is a finite number or an infinite one, but never none. -/
theorem Numeral.isTooLarge_iff {n : Numeral} : n.IsTooLarge ↔ n.value.isFinite = false := by
  rw [IsTooLarge, value, Binary64.ofDecimal, Binary64.ofRank]
  split
  · constructor
    · rintro ⟨negative, h⟩
      cases h
    · intro h
      cases h
  · exact iff_of_true ⟨_, rfl⟩ rfl

namespace Token

/-- **Only a numeral that is too large stands for no term.** -/
theorem term_eq_error_iff {t : Token} {e : ParseCause} :
    t.term = .error e ↔
      ∃ n : Numeral, t = .numeral n ∧ n.IsTooLarge ∧ e = .outOfRange (String.ofList n.chars) := by
  cases t with
  | numeral n =>
    simp only [term, numeral.injEq, exists_eq_left', Numeral.isTooLarge_iff]
    cases n.value.isFinite with
    | true => simp
    | false => simp [eq_comm]
  | _ => simp [term]

theorem exists_term_iff {t : Token} :
    (∃ a, t.term = .ok a) ↔ ∀ n : Numeral, t = .numeral n → ¬n.IsTooLarge := by
  cases h : t.term with
  | ok a =>
    refine iff_of_true ⟨a, rfl⟩ fun n hn hlarge => ?_
    rw [term_eq_error_iff.mpr ⟨n, hn, hlarge, rfl⟩] at h
    cases h
  | error e =>
    obtain ⟨n, hn, hlarge, -⟩ := term_eq_error_iff.mp h
    exact iff_of_false nofun fun hall => hall n hn hlarge

end Token

/-! ## 2. Texts -/

namespace Sentence

/-- **A text is refused for the first of its numerals that is too large.** -/
theorem parse_eq_error_iff {text : String} {e : Failure} :
    parse text = .error e ↔
      ∃ front n back, Token.ofText (trimBlanks text.toList) = front ++ .numeral n :: back ∧
        (∀ m, .numeral m ∈ front → ¬m.IsTooLarge) ∧ n.IsTooLarge ∧
        e = .parse "fact_or_pattern" text (.outOfRange (String.ofList n.chars)) := by
  have hparse : parse text = .error e ↔
      ∃ cause, (Token.ofText (trimBlanks text.toList)).mapM Token.term = .error cause ∧
        e = .parse "fact_or_pattern" text cause := by
    rw [parse, parseAs, parseChars_eq]
    cases (Token.ofText (trimBlanks text.toList)).mapM Token.term with
    | ok f => simp [Except.mapError]
    | error cause => simp [Except.mapError, EntryRule.name, eq_comm]
  rw [hparse]
  constructor
  · rintro ⟨cause, hcause, rfl⟩
    obtain ⟨front, t, back, htokens, hfront, ht⟩ := mapM_eq_error_iff.mp hcause
    obtain ⟨n, rfl, hlarge, rfl⟩ := Token.term_eq_error_iff.mp ht
    exact ⟨front, n, back, htokens,
      fun m hm => Token.exists_term_iff.mp (hfront _ hm) m rfl, hlarge, rfl⟩
  · rintro ⟨front, n, back, htokens, hfront, hlarge, rfl⟩
    refine ⟨_, mapM_eq_error_iff.mpr ⟨front, .numeral n, back, htokens, fun t ht => ?_,
      Token.term_eq_error_iff.mpr ⟨n, rfl, hlarge, rfl⟩⟩, rfl⟩
    exact Token.exists_term_iff.mpr fun m hm => hfront m (hm ▸ ht)

/-- A text is read exactly if none of its numerals is too large. -/
theorem exists_parse_iff (text : String) :
    (∃ f, parse text = .ok f) ↔
      ∀ n, .numeral n ∈ Token.ofText (trimBlanks text.toList) → ¬n.IsTooLarge := by
  simp only [parse_eq_ok_iff, Spells, ← mapM_eq_ok_iff, exists_mapM_eq_ok_iff,
    Token.exists_term_iff]
  constructor
  · intro h n hn
    exact h _ hn n rfl
  · rintro h t ht n rfl
    exact h n ht

/-- A text is refused exactly if one of its numerals is too large. -/
theorem refused_iff {text : String} :
    (∃ e, parse text = .error e) ↔
      ∃ n, .numeral n ∈ Token.ofText (trimBlanks text.toList) ∧ n.IsTooLarge := by
  have hread := exists_parse_iff text
  cases hparse : parse text with
  | error e =>
    rw [hparse] at hread
    refine iff_of_true ⟨e, rfl⟩ ?_
    by_contra hnone
    obtain ⟨f, hf⟩ := hread.mpr fun n hn hlarge => hnone ⟨n, hn, hlarge⟩
    cases hf
  | ok f =>
    rw [hparse] at hread
    refine iff_of_false nofun ?_
    rintro ⟨n, hn, hlarge⟩
    exact hread.mp ⟨f, rfl⟩ n hn hlarge

/-- **Every text is a row of tokens.** The grammar takes all of it, whatever it is; the pieces it is
    cut into are the tokens that are read, none of them is empty, and together they are the text
    without the blanks around it. The text is refused exactly if one of them is a numeral whose
    value is infinite, and the refusal names the first one. -/
theorem refused_iff_infinite_numeral (text : String) :
    let body := trimBlanks text.toList
    let tokens := Token.ofText body
    (∀ r, Grammar.sentence.Leaves body r ↔ r = some []) ∧
      (∀ pieces left, Grammar.Cuts body pieces left ↔
        pieces = tokens.map (fun t => (t.kind, t.chars)) ∧ left = []) ∧
      (∀ t ∈ tokens, t.chars ≠ []) ∧ tokens.flatMap Token.chars = body ∧
      (∀ rule input, parse text ≠ .error (.parse rule input .mismatch)) ∧
      ((∃ e, parse text = .error e) ↔
        ∃ n, .numeral n ∈ tokens ∧ ∃ negative, n.value = .infinity negative) ∧
      ∀ e, parse text = .error e ↔
        ∃ front n back, tokens = front ++ .numeral n :: back ∧
          (∀ m, .numeral m ∈ front → ∀ negative, m.value ≠ .infinity negative) ∧
          (∃ negative, n.value = .infinity negative) ∧
          e = .parse "fact_or_pattern" text (.outOfRange (String.ofList n.chars)) := by
  obtain ⟨htext, htile⟩ :=
    Token.ofText_eq_iff.mp (rfl : Token.ofText (trimBlanks text.toList) = _)
  refine ⟨fun r => Grammar.sentence_leaves_iff, fun pieces left => Grammar.cuts_iff,
    fun t ht => ?_, htext.symm, fun rule input hmismatch => ?_, refused_iff, fun e => ?_⟩
  · obtain ⟨rest, hstands⟩ := Token.exists_stands_of_mem htile ht
    exact Token.chars_ne_nil hstands
  · obtain ⟨_, _, _, _, _, _, heq⟩ := parse_eq_error_iff.mp hmismatch
    cases heq
  · rw [parse_eq_error_iff]
    simp only [Numeral.IsTooLarge, not_exists]

/-- The first of two numerals that are too large, with a number in front of them. -/
theorem refused_iff_infinite_numeral_second :
    let text := " 1 -2e400 3e400"
    Grammar.sentence.Leaves (trimBlanks text.toList) (some []) ∧
      parse text = .error (.parse "fact_or_pattern" text (.outOfRange "-2e400")) := by
  intro text
  obtain ⟨hleaves, -, -, -, -, -, herror⟩ := refused_iff_infinite_numeral text
  refine ⟨(hleaves _).mpr rfl, (herror _).mpr ⟨[.numeral ⟨none, ['1'], [], none⟩, .space [' ']],
    ⟨some .minus, ['2'], [], some ⟨'e', none, ['4', '0', '0']⟩⟩,
    [.space [' '], .numeral ⟨none, ['3'], [], some ⟨'e', none, ['4', '0', '0']⟩⟩],
    by decide +kernel, fun m hm => ?_, ⟨true, by decide +kernel⟩, by decide +kernel⟩⟩
  obtain rfl : m = ⟨none, ['1'], [], none⟩ := by simpa using hm
  intro negative
  cases negative <;> decide +kernel

end Sentence

end Blackboard
