import Blackboard.Proofs.Separated

/-!
# What sentences look like that were read

Sentences can hold anything once fillers and messages have a hand in them. Those that were read from
a text cannot. This file says what is true of every sentence that a text was read as.

* `Term.FromText` says what the single terms are made of. A token that stands somewhere is a term of
  this kind (`Token.fromText`): words are made of what marks no other token, and no escape is left
  over in a string.
* Tokens go on for as long as they can, so neither two runs of blanks nor two words are neighbours
  (`Sentence.isChain_of_spells`), and the text has no blanks at its ends.
* **The terms of a sentence that was read, their neighbours and its ends** are all as they should be
  (`Sentence.shape_of_parse`).
-/

namespace Blackboard

/-! ## 1. The terms of a text -/

/-- What a term of a text is made of. -/
def Term.FromText : Term → Prop
  | identifier name => ∀ c ∈ name.toList, isLetter c = true ∨ c.isDigit = true
  | word text =>
    text = " " ∨ text ≠ "" ∧ ∀ c ∈ text.toList,
      isBlank c = false ∧ c ≠ '#' ∧ c ≠ '$' ∧ c ≠ '_' ∧ c.isDigit = false
  | literal (.number x) => x.isFinite = true
  | literal (.string s) =>
    '"' ∉ s.toList ∧ ∀ u c v, s.toList = u ++ '\\' :: c :: v → c ≠ 'n' ∧ c ≠ 't'
  | literal (.bool _) | literal .null => True
  | blobRef _ => False
  | .variable name => name ≠ "" ∧ ∀ c ∈ name.toList, isLetter c = true ∨ c.isDigit = true
  | wildcard | hole => True

theorem isNameChar_iff {c : Char} : isNameChar c = true ↔ isLetter c = true ∨ c.isDigit = true := by
  simp only [isNameChar, isLetter, Char.isAlphanum, Bool.or_eq_true]
  tauto

section One

variable {token : Token} {t : Term} {rest : List Char} (h : token.term = .ok t)
  (hstands : token.Stands rest)

include h hstands

/-- **A token that stands somewhere is a term of a text.** -/
theorem Token.fromText : t.FromText := by
  cases token with
  | identifier name =>
    cases h
    intro c hc
    rw [String.toList_ofList] at hc
    exact isNameChar_iff.mp (hstands.1 c hc)
  | keyword k =>
    cases h
    cases k <;> trivial
  | numeral n =>
    obtain ⟨hfinite, rfl⟩ := term_numeral h
    exact hfinite
  | quoted body =>
    cases h
    simp only [Term.string, Term.FromText, String.toList_ofList]
    refine ⟨fun hmem => ?_, hasEscape_eq_false_iff.mp (hasEscape_unescape body)⟩
    have hquotable := hstands _ (quote_mem_of_unescape hmem)
    cases hquotable
  | «variable» name =>
    cases h
    refine ⟨by simpa using hstands.1, fun c hc => ?_⟩
    rw [String.toList_ofList] at hc
    exact isNameChar_iff.mp (hstands.2.1 c hc)
  | wildcard =>
    cases h
    trivial
  | hole =>
    cases h
    trivial
  | space blanks =>
    cases h
    exact Or.inl rfl
  | word text =>
    cases h
    refine Or.inr ⟨by simpa using hstands.1, fun c hc => ?_⟩
    rw [String.toList_ofList] at hc
    obtain ⟨u, v, htext⟩ := List.append_of_mem hc
    have hfree := unmarked_of_word hstands htext
    have hnumeral := hfree.numeral
    rw [beginsNumeral, Bool.or_eq_false_iff] at hnumeral
    exact ⟨hfree.blank, hfree.hash, hfree.dollar, hfree.underscore, hnumeral.1⟩

/-- A space was read from blanks, for no word is made of blanks. -/
theorem Token.eq_space_of_isSpace (hspace : t.isSpace = true) : ∃ blanks, token = .space blanks := by
  cases token with
  | space blanks => exact ⟨blanks, rfl⟩
  | word text =>
    cases h
    exact absurd (beq_iff_eq.mp hspace) (word_ne_space hstands)
  | keyword k =>
    cases h
    cases hspace
  | numeral n =>
    obtain ⟨-, rfl⟩ := term_numeral h
    cases hspace
  | _ =>
    cases h
    cases hspace

omit hstands in
/-- A word of another text was read from a word. -/
theorem Token.eq_word_of_isOther (hother : t.isOther = true) : ∃ text, token = .word text := by
  cases token with
  | word text => exact ⟨text, rfl⟩
  | keyword k =>
    cases h
    cases hother
  | numeral n =>
    obtain ⟨-, rfl⟩ := term_numeral h
    cases hother
  | _ =>
    cases h
    cases hother

end One

/-! ## 2. Neighbours -/

/-- No blanks stand behind blanks. -/
theorem Token.not_space_space {blanks blanks' : List Char} {ts : List Token} :
    ¬Token.Tile (.space blanks :: .space blanks' :: ts) := by
  rintro ⟨⟨-, -, hstop⟩, hstands, -⟩
  rw [spelling_cons, beginsWith_append (chars_ne_nil hstands), chars,
    (blank_ends_of_space hstands).1] at hstop
  cases hstop

/-- No word stands behind a word: it would have gone on. -/
theorem Token.not_word_word {text text' : List Char} {ts : List Token} :
    ¬Token.Tile (.word text :: .word text' :: ts) := by
  rintro ⟨⟨-, hword⟩, htile⟩
  have hmarks := (wordChars_append_iff.mp hword).2 (spelling_ne_nil htile)
  have hmarked := isMarked_of_markedAt? htile.1 hmarks
  cases hmarked

/-- Whether one term can follow another: neither are both spaces, nor are both other words. -/
def Term.Apart (t u : Term) : Prop :=
  ¬(t.isSpace = true ∧ u.isSpace = true) ∧ ¬(t.isOther = true ∧ u.isOther = true)

namespace Sentence

section All

variable {ts : List Token} {f : Sentence} (hts : Spells ts f) (htile : Token.Tile ts)

include hts htile

theorem fromText_of_spells : ∀ t ∈ f, t.FromText := by
  induction hts with
  | nil => exact fun _ ht => absurd ht List.not_mem_nil
  | cons h _ ih =>
    exact List.forall_mem_cons.mpr ⟨Token.fromText h htile.1, ih htile.2⟩

/-- **Neighbours are apart.** -/
theorem isChain_of_spells : f.IsChain Term.Apart := by
  induction hts with
  | nil => exact .nil
  | @cons token t ts f h hts ih =>
    cases hts with
    | nil => exact .singleton t
    | @cons token' t' ts f h' hts =>
      refine .cons_cons ⟨?_, ?_⟩ (ih htile.2)
      · rintro ⟨hspace, hspace'⟩
        obtain ⟨blanks, rfl⟩ := Token.eq_space_of_isSpace h htile.1 hspace
        obtain ⟨blanks', rfl⟩ := Token.eq_space_of_isSpace h' htile.2.1 hspace'
        exact Token.not_space_space htile
      · rintro ⟨hother, hother'⟩
        obtain ⟨text, rfl⟩ := Token.eq_word_of_isOther h hother
        obtain ⟨text', rfl⟩ := Token.eq_word_of_isOther h' hother'
        exact Token.not_word_word htile

/-- No space stands in front of a text that begins with no blank. -/
theorem head_of_spells (hends : beginsWith isBlank (Token.spelling ts) = false) :
    f.head?.any Term.isSpace = false := by
  cases hts with
  | nil => rfl
  | @cons token t ts f h hts =>
    refine Bool.eq_false_iff.mpr fun hspace => ?_
    obtain ⟨blanks, rfl⟩ := Token.eq_space_of_isSpace h htile.1 hspace
    rw [Token.spelling_cons, beginsWith_append (Token.chars_ne_nil htile.1), Token.chars,
      (Token.blank_ends_of_space htile.1).1] at hends
    cases hends

/-- No space stands behind a text that ends in no blank. -/
theorem last_of_spells (hends : (Token.spelling ts).getLast?.any isBlank = false) :
    f.getLast?.any Term.isSpace = false := by
  induction hts with
  | nil => rfl
  | @cons token t ts f h hts ih =>
    cases hts with
    | nil =>
      refine Bool.eq_false_iff.mpr fun hspace => ?_
      obtain ⟨blanks, rfl⟩ := Token.eq_space_of_isSpace h htile.1 hspace
      rw [Token.spelling_cons, Token.spelling_nil, List.append_nil, Token.chars,
        (Token.blank_ends_of_space htile.1).2] at hends
      cases hends
    | @cons token' t' ts f h' hts =>
      rw [Token.spelling_cons,
        List.getLast?_append_of_ne_nil _ (Token.spelling_ne_nil htile.2)] at hends
      rw [List.getLast?_cons_cons]
      exact ih htile.2 hends

end All

/-- **A sentence that was read** has terms of a text only. Its neighbours are apart: of two, not both
    are spaces and not both are other words. It neither begins nor ends with a space. -/
theorem shape_of_parse {text : String} {f : Sentence} (hread : parse text = .ok f) :
    (∀ t ∈ f, t.FromText) ∧ f.IsChain Term.Apart ∧ f.head?.any Term.isSpace = false ∧
      f.getLast?.any Term.isSpace = false := by
  obtain ⟨ts, hts, htile, htext⟩ := exists_tokens hread
  obtain ⟨hhead, hlast⟩ := ends_trimBlanks text.toList
  rw [← htext] at hhead hlast
  exact ⟨fromText_of_spells hts htile, isChain_of_spells hts htile,
    head_of_spells hts htile hhead, last_of_spells hts htile hlast⟩

/-- Some of everything: a name that is empty, a kept backslash in front of an escape, a word that
    begins as a keyword does, and a quotation mark that is never closed. -/
theorem shape_of_parse_everything :
    let f : Sentence := [.identifier "", .word " ", .variable "x", .hole, .wildcard, .word " ",
      .string "a\\\nb", .word "truest", .word " ", .number (.ofNat 15), .literal (.bool true),
      .word "+\""]
    parse "  # $x_$\t \"a\\\\nb\"truest 1.50e1true+\" " = .ok f ∧ (∀ t ∈ f, t.FromText) ∧
      f.IsChain Term.Apart ∧ f.head?.any Term.isSpace = false ∧
      f.getLast?.any Term.isSpace = false := by
  have hread : parse "  # $x_$\t \"a\\\\nb\"truest 1.50e1true+\" " = .ok [.identifier "", .word " ",
      .variable "x", .hole, .wildcard, .word " ", .string "a\\\nb", .word "truest", .word " ",
      .number (.ofNat 15), .literal (.bool true), .word "+\""] := by
    decide +kernel
  exact ⟨hread, shape_of_parse hread⟩

end Sentence

end Blackboard
