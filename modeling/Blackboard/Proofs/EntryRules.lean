import Blackboard.Proofs.Refusals

/-!
# Entry rules

A text is read as any row of tokens, as a single token or as a single identifier. The last two rules
demand that the text ends behind the first token, the first one goes on for as long as it can. This
file says that they differ in what they admit only.

* A token that covers a whole text is its only token, for the token at the front of a text is the
  same under every rule (`Token.ofText_eq_singleton_iff`). So **a rule gives the tokens of the text
  if it admits them, and refuses the text otherwise** (`EntryRule.tokens_eq_ok_iff`).
* The rules of the grammar, with the end of the text behind them, fail for the same texts
  (`Sentence.parseAs_mismatch_iff`).
* **The narrow rules read those sentences that the wide one reads and that have the right shape**
  (`Sentence.parseAs_agrees`).
-/

namespace Blackboard

/-! ## 1. A token that covers a text -/

namespace Token

/-- **A text has one token exactly if the one at its front covers it.** -/
theorem ofText_eq_singleton_iff {text : List Char} {t : Token} :
    ofText text = [t] ↔ firstAt? text = some t ∧ t.chars.length = text.length := by
  rw [ofText_eq_iff, firstAt?_eq_some_iff]
  constructor
  · rintro ⟨rfl, hstands, -⟩
    exact ⟨⟨[], rfl, hstands⟩, by simp⟩
  · rintro ⟨⟨rest, rfl, hstands⟩, hlen⟩
    have hrest : rest = [] := by simpa using hlen
    subst hrest
    exact ⟨rfl, hstands, trivial⟩

/-- The reader of identifiers gives the token at the front if that is one. -/
theorem identifierAt?_eq_some_iff {text : List Char} {t : Token} :
    identifierAt? text = some t ↔ firstAt? text = some t ∧ ∃ name, t = identifier name := by
  constructor
  · intro h
    have hfirst : firstAt? text = some t := by simp [firstAt?, markedAt?, h]
    cases text with
    | nil => cases h
    | cons c cs =>
      rw [identifierAt?.eq_def] at h
      split at h
      · cases h
        exact ⟨hfirst, _, rfl⟩
      · cases h
  · rintro ⟨hfirst, name, rfl⟩
    obtain ⟨rest, rfl, hname, hstop⟩ := firstAt?_eq_some_iff.mp hfirst
    simp only [chars, List.cons_append, identifierAt?, takeWhile_append_of_stop hname hstop]

end Token

/-! ## 2. What a rule admits -/

namespace EntryRule

/-- The rows of tokens that a text may have under a rule. -/
def Admits : EntryRule → List Token → Prop
  | factOrPattern, _ => True
  | singleTerm, ts => ∃ t, ts = [t]
  | identifierOnly, ts => ∃ name, ts = [.identifier name]

theorem covering_eq_ok_iff {token? : List Char → Option Token} {text : List Char}
    {ts : List Token} :
    covering token? text = .ok ts ↔
      ∃ t, token? text = some t ∧ t.chars.length = text.length ∧ ts = [t] := by
  unfold covering
  cases token? text with
  | none => simp
  | some t =>
    by_cases hlen : t.chars.length = text.length
    · simp [hlen, eq_comm]
    · simp [hlen]

theorem covering_eq_error {token? : List Char → Option Token} {text : List Char} {e : ParseCause}
    (h : covering token? text = .error e) : e = .mismatch := by
  unfold covering at h
  split at h
  · split at h
    · cases h
    · cases h
      rfl
  · cases h
    rfl

/-- **A rule gives the tokens of a text, and only if it admits them.** -/
theorem tokens_eq_ok_iff {rule : EntryRule} {text : List Char} {ts : List Token} :
    rule.tokens text = .ok ts ↔ Token.ofText text = ts ∧ rule.Admits ts := by
  cases rule with
  | factOrPattern => simp [tokens, Admits]
  | singleTerm =>
    rw [tokens, covering_eq_ok_iff]
    constructor
    · rintro ⟨t, hfirst, hlen, rfl⟩
      exact ⟨Token.ofText_eq_singleton_iff.mpr ⟨hfirst, hlen⟩, t, rfl⟩
    · rintro ⟨htext, t, rfl⟩
      obtain ⟨hfirst, hlen⟩ := Token.ofText_eq_singleton_iff.mp htext
      exact ⟨t, hfirst, hlen, rfl⟩
  | identifierOnly =>
    rw [tokens, covering_eq_ok_iff]
    constructor
    · rintro ⟨t, hread, hlen, rfl⟩
      obtain ⟨hfirst, name, rfl⟩ := Token.identifierAt?_eq_some_iff.mp hread
      exact ⟨Token.ofText_eq_singleton_iff.mpr ⟨hfirst, hlen⟩, name, rfl⟩
    · rintro ⟨htext, name, rfl⟩
      obtain ⟨hfirst, hlen⟩ := Token.ofText_eq_singleton_iff.mp htext
      exact ⟨_, Token.identifierAt?_eq_some_iff.mpr ⟨hfirst, name, rfl⟩, hlen, rfl⟩

/-- A rule refuses a text for one reason only: it does not admit its tokens. -/
theorem tokens_eq_error_iff {rule : EntryRule} {text : List Char} {e : ParseCause} :
    rule.tokens text = .error e ↔ e = .mismatch ∧ ¬rule.Admits (Token.ofText text) := by
  have hcause : ∀ e, rule.tokens text = .error e → e = .mismatch := by
    intro e h
    cases rule with
    | factOrPattern => cases h
    | singleTerm => exact covering_eq_error h
    | identifierOnly => exact covering_eq_error h
  constructor
  · intro h
    refine ⟨hcause e h, fun hadmits => ?_⟩
    rw [tokens_eq_ok_iff.mpr ⟨rfl, hadmits⟩] at h
    cases h
  · rintro ⟨rfl, hnot⟩
    cases htokens : rule.tokens text with
    | ok ts =>
      obtain ⟨rfl, hadmits⟩ := tokens_eq_ok_iff.mp htokens
      exact absurd hadmits hnot
    | error e => rw [hcause e htokens]

end EntryRule

/-! ## 3. The rules of the grammar -/

namespace Grammar

/-- The rule of identifiers takes an identifier and fails at every other token. -/
theorem identifier_leaves_of_stands {t : Token} {rest : List Char} (h : t.Stands rest) :
    ((∃ name, t = .identifier name) → identifier.Leaves (t.chars ++ rest) (some rest)) ∧
      ((¬∃ name, t = .identifier name) → identifier.Leaves (t.chars ++ rest) none) := by
  have hfirst := Token.firstAt?_eq_some_iff.mpr ⟨rest, rfl, h⟩
  have hrule : identifier.Leaves (t.chars ++ rest) ((Token.identifierAt? _).map (behind _)) :=
    does_identifier _
  constructor
  · intro hname
    have hbehind : behind (t.chars ++ rest) t = rest := List.drop_left
    rw [Token.identifierAt?_eq_some_iff.mpr ⟨hfirst, hname⟩, Option.map_some, hbehind] at hrule
    exact hrule
  · intro hother
    have hnone : Token.identifierAt? (t.chars ++ rest) = none := by
      refine Option.eq_none_iff_forall_ne_some.mpr fun t' hread => ?_
      obtain ⟨hfirst', hname⟩ := Token.identifierAt?_eq_some_iff.mp hread
      rw [hfirst] at hfirst'
      exact hother (Option.some.inj hfirst' ▸ hname)
    rw [hnone] at hrule
    exact hrule

end Grammar

namespace EntryRule

/-- An expression, and nothing behind it. -/
def whole (a : Peg) : Peg := .seq a (.absent .any)

/-- The rule of the grammar that a text is read with. -/
def peg : EntryRule → Peg
  | factOrPattern => whole (.many Grammar.term)
  | singleTerm => whole Grammar.term
  | identifierOnly => whole Grammar.identifier

section Whole

variable {a : Peg} {t : Token} {ts : List Token}

theorem whole_leaves_nil {text : List Char} (h : a.Leaves text (some [])) :
    (whole a).Leaves text (some []) :=
  .seq h (.absent (.one_fails (by simp)))

/-- Behind its first token a text ends or goes on. -/
theorem whole_leaves_of_tile (htile : Token.Tile (t :: ts))
    (h : a.Leaves (Token.spelling (t :: ts)) (some (Token.spelling ts))) :
    (ts = [] → (whole a).Leaves (Token.spelling (t :: ts)) (some [])) ∧
      (ts ≠ [] → (whole a).Leaves (Token.spelling (t :: ts)) none) := by
  cases ts with
  | nil => exact ⟨fun _ => whole_leaves_nil h, fun hne => absurd rfl hne⟩
  | cons u us =>
    refine ⟨nofun, fun _ => ?_⟩
    cases hrest : Token.spelling (u :: us) with
    | nil => exact absurd hrest (Token.spelling_ne_nil htile.2)
    | cons c cs =>
      rw [hrest] at h
      exact .seq h (.present (.one cs rfl))

end Whole

/-- **A rule of the grammar takes the texts whose tokens are admitted, and fails for all others.** -/
theorem peg_leaves (rule : EntryRule) (text : List Char) :
    (rule.Admits (Token.ofText text) → rule.peg.Leaves text (some [])) ∧
      (¬rule.Admits (Token.ofText text) → rule.peg.Leaves text none) := by
  obtain ⟨ts, rfl, htile⟩ := Token.exists_tile text
  rw [Token.ofText_spelling htile]
  cases rule with
  | factOrPattern =>
    exact ⟨fun _ => whole_leaves_nil (Grammar.many_term_leaves htile), fun h => absurd trivial h⟩
  | singleTerm =>
    cases ts with
    | nil => exact ⟨nofun, fun _ => .seq_fails Grammar.term_fails_nil⟩
    | cons t ts =>
      obtain ⟨hends, hgoes⟩ := whole_leaves_of_tile htile (Grammar.term_leaves_of_stands htile.1)
      constructor
      · rintro ⟨t, hone⟩
        exact hends (List.cons.inj hone).2
      · exact fun hnot => hgoes fun hnil => hnot ⟨t, by rw [hnil]⟩
  | identifierOnly =>
    cases ts with
    | nil => exact ⟨nofun, fun _ => .seq_fails (Grammar.does_identifier [])⟩
    | cons t ts =>
      obtain ⟨htakes, hfails⟩ := Grammar.identifier_leaves_of_stands htile.1
      constructor
      · rintro ⟨name, hone⟩
        obtain ⟨hname, hnil⟩ := List.cons.inj hone
        exact (whole_leaves_of_tile htile (htakes ⟨name, hname⟩)).1 hnil
      · intro hnot
        by_cases hname : ∃ name, t = .identifier name
        · refine (whole_leaves_of_tile htile (htakes hname)).2 fun hnil => hnot ?_
          obtain ⟨name, rfl⟩ := hname
          exact ⟨name, by rw [hnil]⟩
        · exact .seq_fails (hfails hname)

theorem peg_fails_iff {rule : EntryRule} {text : List Char} :
    rule.peg.Leaves text none ↔ ¬rule.Admits (Token.ofText text) := by
  obtain ⟨htakes, hfails⟩ := peg_leaves rule text
  constructor
  · intro h hadmits
    cases h.unique (htakes hadmits)
  · exact hfails

end EntryRule

/-! ## 4. Sentences -/

namespace Sentence

section Texts

variable {rule : EntryRule} {text : String}

/-- If its tokens are admitted, a text is read token by token under every rule. -/
theorem parseAs_of_admits (h : rule.Admits (Token.ofText (trimBlanks text.toList))) :
    parseAs rule text = ((Token.ofText (trimBlanks text.toList)).mapM Token.term).mapError
      (.parse rule.name text) := by
  rw [parseAs, parseChars, EntryRule.tokens_eq_ok_iff.mpr ⟨rfl, h⟩]
  rfl

theorem parseAs_of_not_admits (h : ¬rule.Admits (Token.ofText (trimBlanks text.toList))) :
    parseAs rule text = .error (.parse rule.name text .mismatch) := by
  rw [parseAs, parseChars, EntryRule.tokens_eq_error_iff.mpr ⟨rfl, h⟩]
  rfl

/-- A text is read under a rule exactly if it is read at all and its tokens are admitted. -/
theorem parseAs_eq_ok_iff {f : Sentence} :
    parseAs rule text = .ok f ↔
      parse text = .ok f ∧ rule.Admits (Token.ofText (trimBlanks text.toList)) := by
  have hwide : EntryRule.factOrPattern.Admits (Token.ofText (trimBlanks text.toList)) := trivial
  by_cases hadmits : rule.Admits (Token.ofText (trimBlanks text.toList))
  · rw [parse, parseAs_of_admits hadmits, parseAs_of_admits hwide]
    cases (Token.ofText (trimBlanks text.toList)).mapM Token.term with
    | ok g => simp [Except.mapError, hadmits]
    | error e => simp [Except.mapError]
  · rw [parseAs_of_not_admits hadmits]
    exact iff_of_false (by simp) fun h => hadmits h.2

/-- **A text is refused for its shape exactly if the rule of the grammar fails for it.** A numeral
    that is too large is another reason. -/
theorem parseAs_mismatch_iff :
    parseAs rule text = .error (.parse rule.name text .mismatch) ↔
      rule.peg.Leaves (trimBlanks text.toList) none := by
  rw [EntryRule.peg_fails_iff]
  constructor
  · intro h hadmits
    rw [parseAs_of_admits hadmits] at h
    cases hread : (Token.ofText (trimBlanks text.toList)).mapM Token.term with
    | ok g =>
      rw [hread] at h
      cases h
    | error e =>
      obtain ⟨_, t, _, -, -, ht⟩ := mapM_eq_error_iff.mp hread
      obtain ⟨_, -, -, rfl⟩ := Token.term_eq_error_iff.mp ht
      rw [hread] at h
      cases h
  · exact parseAs_of_not_admits

end Texts

section Shapes

variable {ts : List Token} {f : Sentence} (h : Spells ts f)

include h

theorem admits_singleTerm_iff : EntryRule.singleTerm.Admits ts ↔ f.length = 1 := by
  rw [← h.length_eq, List.length_eq_one_iff]
  rfl

/-- Only an identifier is read as an identifier. -/
theorem admits_identifierOnly_iff :
    EntryRule.identifierOnly.Admits ts ↔ ∃ name, f = [.identifier name] := by
  constructor
  · rintro ⟨name, rfl⟩
    obtain ⟨t, _, ht, hrest, rfl⟩ := List.forall₂_cons_left_iff.mp h
    cases ht
    cases hrest
    exact ⟨_, rfl⟩
  · rintro ⟨name, rfl⟩
    obtain ⟨token, _, ht, hrest, rfl⟩ := List.forall₂_cons_right_iff.mp h
    cases hrest
    cases token with
    | identifier spelled => exact ⟨spelled, rfl⟩
    | numeral n =>
      obtain ⟨-, heq⟩ := Token.term_numeral ht
      cases heq
    | _ => cases ht

end Shapes

/-- **The entry rules agree.** A text is read as a single term exactly if it is read as a sentence of
    one term, and as an identifier exactly if it is read as the sentence of one identifier; what is
    read is the same. -/
theorem parseAs_agrees (text : String) (f : Sentence) :
    (parseAs .singleTerm text = .ok f ↔ parse text = .ok f ∧ f.length = 1) ∧
      (parseAs .identifierOnly text = .ok f ↔
        parse text = .ok f ∧ ∃ name, f = [.identifier name]) := by
  rw [parseAs_eq_ok_iff, parseAs_eq_ok_iff]
  constructor
  · exact and_congr_right fun h => admits_singleTerm_iff (parse_eq_ok_iff.mp h)
  · exact and_congr_right fun h => admits_identifierOnly_iff (parse_eq_ok_iff.mp h)

/-- The first token need not cover the text, and the name of an identifier may be empty. -/
example :
    parseAs .singleTerm "1 2" = .error (.parse "single_term" "1 2" .mismatch) ∧
      parseAs .identifierOnly " # " = .ok [.identifier ""] := by
  decide +kernel

end Sentence

end Blackboard
