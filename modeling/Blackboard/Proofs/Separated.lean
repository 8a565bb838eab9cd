import Blackboard.Proofs.ReadBack

/-!
# Sentences that can be told from their text

A ground sentence need not come from a text: fillers and messages bring terms of any spelling, and
nothing stands between the texts of neighbouring terms. This file says when a sentence is written so
that it can be read again, however it was made: **the text of a separated sentence is read as the
sentence** (`Sentence.parse_render_of_isSeparated`), so separated sentences with the same text are
equal.

A sentence is separated if its terms can be spelled (`Term.isSeparated`) and the text of each of them
ends before the next one. A word is the only term that is not marked by how it begins, so within a
word nothing may look like the beginning of another term.
-/

namespace Blackboard

/-! ## 1. Separated sentences -/

/-- Whether a text is a plain one in front of another: it has no blanks, sigils and digits, and no
    keyword and no numeral begins in it. -/
def isPlain (rest : List Char) : List Char → Bool
  | [] => true
  | c :: cs =>
    !isBlank c && !Token.isSigil c && !c.isDigit && (Keyword.scan? (c :: cs ++ rest)).isNone &&
      (Numeral.scan? (c :: cs ++ rest)).isNone && isPlain rest cs

namespace Term

/-- Whether a term is the word of a single space. -/
def isSpace : Term → Bool
  | word text => text == " "
  | _ => false

/-- Whether a term is a word of another text. -/
def isOther : Term → Bool
  | word text => text != " "
  | _ => false

/-- Whether a term that is followed by a text can be told from it. -/
def isSeparated (rest : List Char) : Term → Bool
  | identifier name => name.toList.all isNameChar && !beginsWith isNameChar rest
  | literal (.bool _) | literal .null => !beginsWith isNameChar rest
  | literal (.number x) =>
    x.isFinite && !beginsWith (fun c => c.isDigit || c == '.' || c == 'e' || c == 'E') rest
  | literal (.string s) => !s.toList.contains '"' && !hasEscape s.toList
  | word text => text == " " || text != "" && isPlain rest text.toList
  | _ => false

end Term

namespace Sentence

/-- Whether every term of a sentence can be told from what follows it, no two spaces and no two other
    words being neighbours. -/
def termsSeparated : Sentence → Bool
  | [] => true
  | t :: s =>
    t.isSeparated (chars s) && !(t.isSpace && s.head?.any Term.isSpace) &&
      !(t.isOther && s.head?.any Term.isOther) && termsSeparated s

/-- Whether a sentence can be told from its text: its terms are separated, and no space stands at
    its ends. -/
def isSeparated (s : Sentence) : Bool :=
  s.termsSeparated && !s.head?.any Term.isSpace && !s.getLast?.any Term.isSpace

end Sentence

/-! ## 2. One term -/

/-- Nothing is marked in a plain text. -/
theorem markedAt?_of_isPlain {text rest u v : List Char} (h : isPlain rest text = true)
    (htext : text = u ++ v) (hv : v ≠ []) : Token.markedAt? (v ++ rest) = none := by
  induction u generalizing text with
  | cons d u ih =>
    subst htext
    simp only [List.cons_append, isPlain, Bool.and_eq_true] at h
    exact ih h.2 rfl
  | nil =>
    cases v with
    | nil => exact absurd rfl hv
    | cons c v =>
      subst htext
      simp only [List.nil_append, isPlain, Bool.and_eq_true, Bool.not_eq_true',
        Option.isNone_iff_eq_none] at h
      obtain ⟨⟨⟨⟨⟨hblank, hsigil⟩, -⟩, hkeyword⟩, hnumeral⟩, -⟩ := h
      exact (Token.markedAt?_eq_none_of_other hsigil).mpr ⟨hkeyword, hnumeral, hblank⟩

/-- No character of a plain text is a blank. -/
theorem isBlank_of_isPlain {text rest : List Char} (h : isPlain rest text = true) {c : Char}
    (hc : c ∈ text) : isBlank c = false := by
  induction text with
  | nil => cases hc
  | cons d text ih =>
    simp only [isPlain, Bool.and_eq_true, Bool.not_eq_true'] at h
    rcases List.mem_cons.mp hc with rfl | hc
    · exact h.1.1.1.1.1
    · exact ih h.2 hc

/-- No blank stands at the ends of a text without blanks. -/
theorem blank_of_no_blanks {cs : List Char} (h : ∀ c ∈ cs, isBlank c = false) :
    beginsWith isBlank cs = false ∧ cs.getLast?.any isBlank = false := by
  rw [beginsWith, Option.any_eq_false, Option.any_eq_false]
  exact ⟨fun c hc => by simp [h c (List.mem_of_head? hc)],
    fun c hc => by simp [h c (List.mem_of_getLast? hc)]⟩

namespace Term

/-- What a separated term can be, with what its text is made of. -/
inductive Separated (rest : List Char) : Term → Prop where
  | identifier {name : String} (hname : ∀ c ∈ name.toList, isNameChar c = true)
      (hstop : beginsWith isNameChar rest = false) : Separated rest (identifier name)
  | space : Separated rest (word " ")
  | other {text : String} (hne : text ≠ "") (hspace : text ≠ " ")
      (hplain : isPlain rest text.toList = true) : Separated rest (word text)
  | keyword (k : Keyword) (hstop : beginsWith isNameChar rest = false) :
      Separated rest (literal k.literal)
  | number {x : Binary64} (hfinite : x.isFinite = true)
      (hstop : (Numeral.ofNumber x).endsBefore rest = true) : Separated rest (number x)
  | string {s : String} (hquote : '"' ∉ s.toList) (hescape : hasEscape s.toList = false) :
      Separated rest (string s)

theorem separated_of_isSeparated {t : Term} {rest : List Char} (h : t.isSeparated rest = true) :
    t.Separated rest := by
  cases t with
  | identifier name =>
    simp only [isSeparated, Bool.and_eq_true, Bool.not_eq_true', List.all_eq_true] at h
    exact .identifier h.1 h.2
  | word text =>
    simp only [isSeparated, Bool.or_eq_true, Bool.and_eq_true, beq_iff_eq, bne_iff_ne] at h
    by_cases hspace : text = " "
    · rw [hspace]
      exact .space
    · obtain ⟨hne, hplain⟩ := h.resolve_left hspace
      exact .other hne hspace hplain
  | literal value =>
    cases value with
    | bool b =>
      have hstop : beginsWith isNameChar rest = false := by simpa [isSeparated] using h
      cases b
      · exact .keyword .false hstop
      · exact .keyword .true hstop
    | number x =>
      simp only [isSeparated, Bool.and_eq_true, Bool.not_eq_true'] at h
      exact .number h.1 (Numeral.endsBefore_of_stop _ h.2)
    | string s =>
      simp only [isSeparated, Bool.and_eq_true, Bool.not_eq_true', List.contains_eq_mem,
        decide_eq_false_iff_not] at h
      exact .string h.1 h.2
    | null =>
      have hstop : beginsWith isNameChar rest = false := by simpa [isSeparated] using h
      exact .keyword .null hstop
  | _ => cases h

theorem token_keyword (k : Keyword) : (literal k.literal).token = .keyword k := by
  cases k <;> rfl

theorem token_space : (word " ").token = .space [' '] := by
  simp [token]

theorem token_other {text : String} (h : text ≠ " ") :
    (word text).token = .word text.toList := by
  simp [token, h]

namespace Separated

variable {t : Term} {rest : List Char} (h : t.Separated rest)

include h

theorem chars_token : t.token.chars = t.chars := by
  cases h with
  | identifier => rfl
  | space => rw [token_space]; rfl
  | other _ hspace => rw [token_other hspace]; rfl
  | keyword k => cases k <;> rfl
  | number hfinite => exact Numeral.chars_ofNumber hfinite
  | string => rfl

/-- The token that a separated term is written as stands for the term again. -/
theorem term_token : ∃ t', t.token.term = .ok t' ∧ t'.equal t = true := by
  cases h with
  | identifier => exact ⟨_, rfl, by simp [equal]⟩
  | space =>
    rw [token_space]
    exact ⟨_, rfl, by simp [equal]⟩
  | other _ hspace =>
    rw [token_other hspace]
    exact ⟨_, rfl, by simp [equal]⟩
  | keyword k =>
    rw [token_keyword]
    exact ⟨_, rfl, by cases k <;> rfl⟩
  | @number x hfinite =>
    have hvalue := Numeral.value_ofNumber hfinite
    have hfinite' := isFinite_of_equal (Binary64.equal_symm hvalue) hfinite
    exact ⟨.number (Numeral.ofNumber x).value, by simp [token, Token.term, Term.number, hfinite'],
      hvalue⟩
  | string _ hescape =>
    exact ⟨_, rfl, by simp [equal, Literal.equal, Term.string, unescape_escape hescape]⟩

/-- A separated term that is no word of its own text is written as a marked token. -/
theorem isMarked (hother : t.isOther = false) : t.token.isMarked = true := by
  cases h with
  | space => rw [token_space]; rfl
  | other _ hspace => simp [isOther, hspace] at hother
  | keyword k => rw [token_keyword]; rfl
  | _ => rfl

/-- **A separated term is the token in front of what follows it**, if a space is followed by no blank
    and another word by a marked token. -/
theorem stands (hblank : t.isSpace = true → beginsWith isBlank rest = false)
    (hmarked : t.isOther = true → rest ≠ [] → (Token.markedAt? rest).isSome = true) :
    t.token.Stands rest := by
  cases h with
  | identifier hname hstop => exact ⟨hname, hstop⟩
  | space =>
    rw [token_space]
    exact ⟨by simp, by simp [isBlank], hblank rfl⟩
  | @other text hne hspace hplain =>
    have hother : (word text).isOther = true := by simpa [isOther] using hspace
    rw [token_other hspace]
    exact ⟨by simpa using hne, Token.wordChars_append_iff.mpr
      ⟨fun u v => markedAt?_of_isPlain hplain, hmarked hother⟩⟩
  | keyword k hstop =>
    rw [token_keyword]
    exact hstop
  | number hfinite hstop => exact ⟨Numeral.wellSpelled_ofNumber hfinite, hstop⟩
  | string hquote =>
    intro c hc
    obtain ⟨hnl, -, hmem⟩ := of_mem_escape hc
    have hne : c ≠ '"' := fun heq => hquote (heq ▸ hmem heq)
    simp [isQuotable, hne, hnl]

theorem chars_ne_nil : t.chars ≠ [] := by
  cases h with
  | identifier => exact List.cons_ne_nil _ _
  | space => exact List.cons_ne_nil _ _
  | other hne => simpa [chars] using hne
  | keyword k => cases k <;> exact List.cons_ne_nil _ _
  | number hfinite =>
    have hlast := Numeral.getLast?_chars (Numeral.wellSpelled_ofNumber hfinite)
    intro hnil
    rw [← chars_number hfinite, hnil] at hlast
    cases hlast
  | string => exact List.cons_ne_nil _ _

/-- At the ends of a separated term stand blanks only if it is a space. -/
theorem blank_ends (hspace : t.isSpace = false) :
    beginsWith isBlank t.chars = false ∧ t.chars.getLast?.any isBlank = false := by
  cases h with
  | identifier hname =>
    refine blank_of_no_blanks fun c hc => ?_
    rcases List.mem_cons.mp hc with rfl | hc
    · rfl
    · exact isBlank_of_isNameChar (hname c hc)
  | space => cases hspace
  | other _ _ hplain => exact blank_of_no_blanks fun c => isBlank_of_isPlain hplain
  | keyword k => cases k <;> exact ⟨rfl, rfl⟩
  | number hfinite => exact blank_of_no_blanks fun c => isBlank_of_mem_number hfinite
  | string =>
    refine ⟨rfl, ?_⟩
    rw [Term.string, chars, Literal.chars, List.getLast?_concat]
    rfl

end Separated

end Term

/-! ## 3. All terms of a sentence -/

namespace Sentence

section All

variable {f : Sentence} (h : f.termsSeparated = true)

include h

theorem separated_of_mem {t : Term} (ht : t ∈ f) : ∃ rest, t.Separated rest := by
  induction f with
  | nil => cases ht
  | cons u f ih =>
    simp only [termsSeparated, Bool.and_eq_true] at h
    rcases List.mem_cons.mp ht with rfl | ht
    · exact ⟨_, Term.separated_of_isSeparated h.1.1.1⟩
    · exact ih h.2 ht

theorem spelling_of_termsSeparated : Token.spelling (f.map Term.token) = f.chars := by
  induction f with
  | nil => rfl
  | cons t f ih =>
    simp only [termsSeparated, Bool.and_eq_true] at h
    rw [List.map_cons, Token.spelling_cons, ih h.2, (Term.separated_of_isSeparated h.1.1.1).chars_token,
      chars_cons]

/-- Behind the first term no blank stands unless the second one is a space. -/
theorem blank_first_of_termsSeparated (hspace : f.head?.any Term.isSpace = false) :
    beginsWith isBlank f.chars = false := by
  cases f with
  | nil => rfl
  | cons t f =>
    simp only [termsSeparated, Bool.and_eq_true] at h
    rw [chars_cons, beginsWith_append (Term.separated_of_isSeparated h.1.1.1).chars_ne_nil]
    exact ((Term.separated_of_isSeparated h.1.1.1).blank_ends hspace).1

theorem blank_last_of_termsSeparated (hspace : f.getLast?.any Term.isSpace = false) :
    f.chars.getLast?.any isBlank = false := by
  induction f with
  | nil => rfl
  | cons t f ih =>
    simp only [termsSeparated, Bool.and_eq_true] at h
    cases f with
    | nil =>
      rw [chars_cons]
      simpa [chars] using ((Term.separated_of_isSeparated h.1.1.1).blank_ends hspace).2
    | cons u f =>
      obtain ⟨rest, hu⟩ := separated_of_mem h.2 List.mem_cons_self
      have hne : Sentence.chars (u :: f) ≠ [] := fun hnil =>
        hu.chars_ne_nil (List.append_eq_nil_iff.mp hnil).1
      rw [List.getLast?_cons_cons] at hspace
      rw [chars_cons, List.getLast?_append_of_ne_nil _ hne]
      exact ih h.2 hspace

/-- **The terms of a separated sentence are the tokens of its text.** -/
theorem tile_of_termsSeparated : Token.Tile (f.map Term.token) := by
  induction f with
  | nil => trivial
  | cons t f ih =>
    simp only [termsSeparated, Bool.and_eq_true, Bool.not_eq_true', Bool.and_eq_false_iff] at h
    obtain ⟨⟨⟨ht, hspaces⟩, hothers⟩, hf⟩ := h
    have htile := ih hf
    refine ⟨?_, htile⟩
    rw [spelling_of_termsSeparated hf]
    refine (Term.separated_of_isSeparated ht).stands (fun hspace => ?_) fun hother hne => ?_
    · exact blank_first_of_termsSeparated hf (hspaces.resolve_left (by simp [hspace]))
    · cases f with
      | nil => exact absurd rfl hne
      | cons u f =>
        have hu : u.isOther = false := hothers.resolve_left (by simp [hother])
        obtain ⟨rest, hsep⟩ := separated_of_mem hf List.mem_cons_self
        have hmarked := Token.markedAt?_of_stands (hsep.isMarked hu) htile.1
        rw [← spelling_of_termsSeparated hf, List.map_cons, Token.spelling_cons, hmarked]
        rfl

end All

/-! ## 4. Reading the text of a sentence -/

theorem readsBack_of_isSeparated {f : Sentence} (h : f.isSeparated = true) : f.ReadsBack := by
  simp only [isSeparated, Bool.and_eq_true, Bool.not_eq_true'] at h
  obtain ⟨⟨hterms, hfirst⟩, hlast⟩ := h
  have htrim : trimBlanks f.chars = f.chars :=
    trimBlanks_of_ends (blank_first_of_termsSeparated hterms hfirst)
      (blank_last_of_termsSeparated hterms hlast)
  have htokens : Token.ofText f.chars = f.map Term.token := by
    rw [← spelling_of_termsSeparated hterms]
    exact Token.ofText_spelling (tile_of_termsSeparated hterms)
  obtain ⟨g, hg, hequal⟩ := exists_spells_token fun t ht => by
    obtain ⟨rest, hsep⟩ := separated_of_mem hterms ht
    exact hsep.term_token
  refine ⟨g, parse_eq_ok_iff.mpr ?_, hequal⟩
  rw [render, String.toList_ofList, htrim, htokens]
  exact hg

/-- What is written so that it can be read again: what is separated, and what was read from a text
    and keeps apart. -/
def IsLegible (f : Sentence) : Prop :=
  f.isSeparated = true ∨ (∃ text, parse text = .ok f) ∧ f.keepsApart = true

theorem readsBack_of_isLegible {f : Sentence} (h : f.IsLegible) : f.ReadsBack := by
  rcases h with hseparated | ⟨⟨text, hread⟩, hkeeps⟩
  · exact readsBack_of_isSeparated hseparated
  · exact exists_parse_render hread hkeeps

/-- **The text of a separated sentence is read as the sentence**, however it was made, and no other
    separated sentence has this text. -/
theorem parse_render_of_isSeparated {f : Sentence} (h : f.isSeparated = true) :
    (∃ g, parse f.render = .ok g ∧ equal g f = true) ∧
      ∀ g : Sentence, g.isSeparated = true → f.render = g.render → equal f g = true :=
  ⟨readsBack_of_isSeparated h, fun _ hg =>
    (readsBack_of_isSeparated h).equal_of_render_eq (readsBack_of_isSeparated hg)⟩

/-- A line feed in a string, words that look like keywords and numbers, and a zero with a sign. -/
theorem parse_render_of_isSeparated_kinds :
    let f : Sentence := [.identifier "", .word " ", .word "nullable+", .word " ",
      .number (.ofRank true 0), .literal .null, .string "a\\b\nc", .word "+", .identifier "x1"]
    let g : Sentence := [.identifier "", .word " ", .word "nullable+", .word " ",
      .number .zero, .literal .null, .string "a\\b\nc", .word "+", .identifier "x1"]
    f.isSeparated = true ∧ g.isSeparated = true ∧ f.render = g.render ∧
      (∃ h, parse f.render = .ok h ∧ equal h f = true) ∧ equal f g = true := by
  intro f g
  have hf : f.isSeparated = true := by decide +kernel
  have hg : g.isSeparated = true := by decide +kernel
  have htext : f.render = g.render := by decide +kernel
  obtain ⟨hread, hsame⟩ := parse_render_of_isSeparated hf
  exact ⟨hf, hg, htext, hread, hsame g hg htext⟩

end Sentence

end Blackboard
