import Blackboard.Proofs.Tokens
import Blackboard.Sentence.Grammar

/-!
# The readers and the grammar

The tokens of a text are read by functions, and `Sentence/Grammar` says by rules what they are. This
file says that both agree.

* `Peg.Does` says of an expression that on every text it does what a reader does. There is one lemma
  for each way of making expressions, and one for each rule of the grammar.
* **The token that stands at the front of a text is the one that the first rule that goes through
  takes** (`Grammar.picks_all_iff`). Behind it the rules go on, so **a text is cut into its tokens
  and nothing is left** (`Grammar.cuts_iff`).
* The one rule that looks ahead is that of words: a word ends where another token begins. Where no
  other token begins a word does, so **every text is a row of tokens**
  (`Grammar.sentence_leaves_iff`).
-/

namespace Blackboard

namespace Peg

/-! ## 1. What an expression does -/

/-- An expression leaves one thing of a text, or fails there. -/
theorem Leaves.unique {a : Peg} {text : List Char} {r r' : Option (List Char)}
    (h : a.Leaves text r) (h' : a.Leaves text r') : r = r' := by
  induction h generalizing r' with
  | nothing text =>
    cases h'
    rfl
  | one cs hp =>
    cases h' with
    | one => rfl
    | one_fails hfail => exact absurd hp hfail
  | one_fails hfail =>
    cases h' with
    | one cs hp => exact absurd hp hfail
    | one_fails => rfl
  | seq ha hb iha ihb =>
    cases h' with
    | seq ha' hb' =>
      cases iha ha'
      exact ihb hb'
    | seq_fails ha' => cases iha ha'
  | seq_fails ha iha =>
    cases h' with
    | seq ha' hb' => cases iha ha'
    | seq_fails => rfl
  | first ha iha =>
    cases h' with
    | first ha' => exact iha ha'
    | second ha' hb' => cases iha ha'
  | second ha hb iha ihb =>
    cases h' with
    | first ha' => cases iha ha'
    | second ha' hb' => exact ihb hb'
  | done ha iha =>
    cases h' with
    | done => rfl
    | more ha' hmore' => cases iha ha'
  | more ha hmore iha ihmore =>
    cases h' with
    | done ha' => cases iha ha'
    | more ha' hmore' =>
      cases iha ha'
      exact ihmore hmore'
  | absent ha iha =>
    cases h' with
    | absent => rfl
    | present ha' => cases iha ha'
  | present ha iha =>
    cases h' with
    | absent ha' => cases iha ha'
    | present => rfl

/-- An expression does on every text what a reader does. -/
def Does (a : Peg) (read : List Char → Option (List Char)) : Prop :=
  ∀ text, a.Leaves text (read text)

section Does

variable {a b : Peg} {f g : List Char → Option (List Char)}

theorem Does.congr (h : a.Does f) (hfg : ∀ text, f text = g text) : a.Does g := by
  intro text
  rw [← hfg]
  exact h text

/-- What stands behind a first character of a kind. -/
def behindOne (p : Char → Bool) : List Char → Option (List Char)
  | [] => none
  | c :: cs => if p c then some cs else none

theorem does_one (p : Char → Bool) : (one p).Does (behindOne p) := by
  intro text
  cases text with
  | nil => exact .one_fails (by simp)
  | cons c cs =>
    rw [behindOne]
    split
    · next hc => exact .one cs hc
    · next hc => exact .one_fails hc

theorem does_nothing : nothing.Does some := fun text => .nothing text

theorem Does.seq (ha : a.Does f) (hb : b.Does g) : (seq a b).Does fun t => (f t).bind g := by
  intro text
  dsimp only
  have hfirst := ha text
  cases hf : f text with
  | none =>
    rw [hf] at hfirst
    exact .seq_fails hfirst
  | some rest =>
    rw [hf] at hfirst
    exact .seq hfirst (hb rest)

theorem Does.orElse (ha : a.Does f) (hb : b.Does g) :
    (orElse a b).Does fun t => (f t).or (g t) := by
  intro text
  dsimp only
  have hfirst := ha text
  cases hf : f text with
  | none =>
    rw [hf] at hfirst
    exact .second hfirst (hb text)
  | some rest =>
    rw [hf] at hfirst
    exact .first hfirst

theorem Does.optional (ha : a.Does f) : (optional a).Does fun t => some ((f t).getD t) :=
  (ha.orElse does_nothing).congr fun t => by cases f t <;> rfl

theorem Does.absent (ha : a.Does f) :
    (absent a).Does fun t => if (f t).isSome then none else some t := by
  intro text
  dsimp only
  have hfirst := ha text
  cases hf : f text with
  | none =>
    rw [hf] at hfirst
    exact .absent hfirst
  | some rest =>
    rw [hf] at hfirst
    exact .present hfirst

/-- An expression that takes single characters is repeated up to the first one of another kind. -/
theorem Does.many {p : Char → Bool} (ha : a.Does (behindOne p)) :
    (many a).Does fun t => some (t.dropWhile p) := by
  intro text
  induction text with
  | nil => exact .done (ha [])
  | cons c cs ih =>
    have hfirst := ha (c :: cs)
    rw [behindOne] at hfirst
    dsimp only
    rw [List.dropWhile_cons]
    split
    · next hc =>
      rw [if_pos hc] at hfirst
      exact .more hfirst ih
    · next hc =>
      rw [if_neg hc] at hfirst
      exact .done hfirst

theorem Does.plus {p : Char → Bool} (ha : a.Does (behindOne p)) :
    (plus a).Does fun t => if (t.takeWhile p).isEmpty then none else some (t.dropWhile p) := by
  refine (ha.seq ha.many).congr fun t => ?_
  cases t with
  | nil => rfl
  | cons c cs => by_cases hc : p c = true <;> simp [behindOne, hc]

/-- A character at which another expression fails. -/
theorem Does.unless {p : Char → Bool} (ha : a.Does (behindOne p)) :
    (Peg.seq (Peg.absent a) any).Does (behindOne fun c => !p c) := by
  refine (ha.absent.seq (does_one _)).congr fun t => ?_
  cases t with
  | nil => rfl
  | cons c cs => by_cases hc : p c = true <;> simp [behindOne, hc]

theorem findSome?_cons_eq_or {α β : Type} (f : α → Option β) (a : α) (as : List α) :
    (a :: as).findSome? f = (f a).or (as.findSome? f) := by
  rw [List.findSome?_cons]
  cases f a <;> rfl

theorem Does.firstOf {α : Type} {rule : α → Peg} {read : α → List Char → Option (List Char)}
    {as : List α} (h : ∀ a ∈ as, (rule a).Does (read a)) :
    (firstOf (as.map rule)).Does fun t => as.findSome? fun a => read a t := by
  induction as with
  | nil => exact does_nothing.absent
  | cons a as ih =>
    have hrest := ih fun b hb => h b (List.mem_cons_of_mem _ hb)
    exact ((h a List.mem_cons_self).orElse hrest).congr fun t =>
      (findSome?_cons_eq_or (fun a => read a t) a as).symm

theorem does_literal (cs : List Char) :
    (literal cs).Does fun t => if cs.isPrefixOf t then some (t.drop cs.length) else none := by
  induction cs with
  | nil => exact does_nothing.congr fun t => by simp
  | cons c cs ih =>
    refine ((does_one _).seq ih).congr fun t => ?_
    cases t with
    | nil => rfl
    | cons d t =>
      by_cases hd : d = c
      · simp [behindOne, hd]
      · simp [behindOne, hd, Ne.symm hd]

end Does

end Peg

namespace Grammar

open Peg

/-! ## 2. The rules of numerals -/

theorem does_sign : (optional sign).Does fun t => some (Sign.scan t).2 := by
  refine ((does_one _).orElse (does_one _)).optional.congr fun t => ?_
  cases t with
  | nil => rfl
  | cons c cs =>
    by_cases hplus : c = '+'
    · subst hplus
      rfl
    · by_cases hminus : c = '-'
      · subst hminus
        rfl
      · have hsign : Sign.ofChar? c = none := by simp [Sign.ofChar?]
        simp [behindOne, hplus, hminus, Sign.scan, hsign]

theorem does_digits : digits.Does fun t =>
    if (t.takeWhile Char.isDigit).isEmpty then none else some (t.dropWhile Char.isDigit) :=
  (does_one _).plus

theorem does_fraction : (optional fraction).Does fun t =>
    some (t.drop (Numeral.fractionChars (Numeral.fractionDigits t)).length) := by
  refine ((does_one _).seq does_digits).optional.congr fun t => ?_
  cases t with
  | nil => rfl
  | cons c cs =>
    by_cases hpoint : c = '.'
    · subst hpoint
      have hhead : behindOne (· == '.') ('.' :: cs) = some cs := rfl
      have hdrop := drop_length_takeWhile Char.isDigit cs
      rw [hhead, Option.bind_some, Numeral.fractionDigits]
      cases hrun : cs.takeWhile Char.isDigit with
      | nil => rfl
      | cons d ds =>
        rw [hrun] at hdrop
        simp [Numeral.fractionChars, ← hdrop]
    · simp [behindOne, hpoint, Numeral.fractionDigits_eq_nil cs hpoint, Numeral.fractionChars]

/-- What stands behind a sign and characters of a kind. -/
theorem drop_sign_run (p : Char → Bool) (t : List Char) :
    t.drop ((Sign.chars (Sign.scan t).1).length + ((Sign.scan t).2.takeWhile p).length) =
      (Sign.scan t).2.dropWhile p := by
  rw [← List.drop_drop, Numeral.drop_of_eq_append (Sign.chars_append_scan t).symm,
    drop_length_takeWhile]

theorem does_exponent : exponent.Does fun t =>
    (Exponent.scan? t).map fun e => t.drop e.chars.length := by
  refine (((does_one _).orElse (does_one _)).seq (does_sign.seq does_digits)).congr fun t => ?_
  cases t with
  | nil => rfl
  | cons c cs =>
    by_cases hmark : c = 'e' ∨ c = 'E'
    · have hhead :
          (behindOne (· == 'e') (c :: cs)).or (behindOne (· == 'E') (c :: cs)) = some cs := by
        rcases hmark with rfl | rfl <;> rfl
      have hscan : (c = 'e' || c = 'E') = true := by simpa using hmark
      rw [hhead, Exponent.scan?, if_pos hscan]
      dsimp only [Option.bind_some]
      split
      · rfl
      · simp [Exponent.chars, drop_sign_run]
    · rw [Exponent.scan?_eq_none_of_head cs hmark]
      rw [not_or] at hmark
      simp [behindOne, hmark.1, hmark.2]

theorem does_numeral : numeral.Does fun t =>
    (Numeral.scan? t).map fun n => t.drop n.chars.length := by
  refine (does_sign.seq (does_digits.seq (does_fraction.seq does_exponent.optional))).congr
    fun t => ?_
  dsimp only [Option.bind_some]
  rw [Numeral.scan?]
  dsimp only
  split
  · rfl
  · simp only [Option.bind_some, Option.map_some, Numeral.chars, List.length_append]
    rw [← List.drop_drop, ← List.drop_drop, drop_sign_run, drop_length_takeWhile]
    cases Exponent.scan? _ <;> rfl

/-! ## 3. The rules of the other tokens -/

/-- What stands behind a token that is read at the front of a text. -/
def behind (t : List Char) (token : Token) : List Char := t.drop token.chars.length

theorem does_identifier :
    identifier.Does fun t => (Token.identifierAt? t).map (behind t) := by
  refine ((does_one _).seq (does_one _).many).congr fun t => ?_
  cases t with
  | nil => rfl
  | cons c cs =>
    by_cases hc : c = '#'
    · simp [behindOne, hc, Token.identifierAt?, behind, Token.chars, drop_length_takeWhile]
    · simp [behindOne, hc, Token.identifierAt?]

/-- The keyword at the front of a text, if it is the given one. -/
def keywordAt? (k : Keyword) (t : List Char) : Option Token :=
  if k.begins t then some (.keyword k) else none

theorem does_keyword (k : Keyword) :
    (keyword k).Does fun t => (keywordAt? k t).map (behind t) := by
  refine ((does_literal _).seq (does_one _).absent).congr fun t => ?_
  rw [keywordAt?, Keyword.begins]
  by_cases hk : k.chars.isPrefixOf t = true
  · cases hdrop : t.drop k.chars.length with
    | nil => simp [hk, hdrop, behindOne, behind, Token.chars]
    | cons d ds =>
      by_cases hd : isNameChar d = true
      · simp [hk, behindOne, hd]
      · simp [hk, hdrop, behindOne, behind, Token.chars, hd]
  · simp [hk]

/-- The string at the front of a text. -/
def quotedAt? : List Char → Option Token
  | '"' :: cs => if isQuoteClosed cs then some (.quoted (cs.takeWhile isQuotable)) else none
  | _ => none

theorem does_body : body.Does fun t => some (t.dropWhile isQuotable) := by
  have hends : (orElse (char '"') (char '\n')).Does
      (behindOne fun c => c == '"' || c == '\n') := by
    refine ((does_one _).orElse (does_one _)).congr fun t => ?_
    cases t with
    | nil => rfl
    | cons c cs => by_cases hc : c = '"' <;> simp [behindOne, hc]
  have hquotable : (fun c => !(c == '"' || c == '\n')) = isQuotable := by
    funext c
    simp [isQuotable, bne]
  have hbody := hends.unless.many
  rw [hquotable] at hbody
  exact hbody

theorem does_quoted : quoted.Does fun t => (quotedAt? t).map (behind t) := by
  refine ((does_one _).seq (does_body.seq (does_one _))).congr fun t => ?_
  cases t with
  | nil => rfl
  | cons c cs =>
    by_cases hc : c = '"'
    · subst hc
      rw [quotedAt?, isQuoteClosed]
      have hrest := drop_length_takeWhile isQuotable cs
      cases hdrop : cs.dropWhile isQuotable with
      | nil => simp [behindOne, hdrop]
      | cons d ds =>
        rw [hdrop] at hrest
        by_cases hd : d = '"'
        · have htail : cs.drop ((cs.takeWhile isQuotable).length + 1) = ds := by
            rw [← List.drop_drop, hrest, List.drop_one, List.tail_cons]
          simp [behindOne, hdrop, hd, behind, Token.chars, htail]
        · simp [behindOne, hdrop, hd]
    · simp [behindOne, hc, quotedAt?]

theorem does_variable : namedVariable.Does fun t => (Token.variableAt? t).map (behind t) := by
  refine ((does_one _).seq (does_one _).plus).congr fun t => ?_
  cases t with
  | nil => rfl
  | cons c cs =>
    by_cases hc : c = '$'
    · subst hc
      have hhead : behindOne (· == '$') ('$' :: cs) = some cs := rfl
      rw [hhead, Option.bind_some, Token.variableAt?]
      split
      · rfl
      · simp [behind, Token.chars, drop_length_takeWhile]
    · simp [behindOne, hc, Token.variableAt?]

theorem does_wildcard : wildcard.Does fun t => (Token.wildcardAt? t).map (behind t) := by
  refine (does_one _).congr fun t => ?_
  cases t with
  | nil => rfl
  | cons c cs =>
    by_cases hc : c = '$' <;> simp [behindOne, hc, Token.wildcardAt?, behind, Token.chars]

theorem does_hole : hole.Does fun t => (Token.holeAt? t).map (behind t) := by
  refine (does_one _).congr fun t => ?_
  cases t with
  | nil => rfl
  | cons c cs => by_cases hc : c = '_' <;> simp [behindOne, hc, Token.holeAt?, behind, Token.chars]

theorem does_space : space.Does fun t => (Token.spaceAt? t).map (behind t) := by
  refine (does_one _).plus.congr fun t => ?_
  by_cases hblank : (t.takeWhile isBlank).isEmpty = true
  · simp [Token.spaceAt?, hblank]
  · simp [Token.spaceAt?, hblank, behind, Token.chars, drop_length_takeWhile]

end Grammar

/-! ## 4. The reader of a kind -/

/-- The token of a kind at the front of a text. -/
def Token.Kind.at? : Kind → List Char → Option Token
  | identifier => identifierAt?
  | keyword k => Grammar.keywordAt? k
  | numeral => fun t => (Numeral.scan? t).map .numeral
  | quoted => Grammar.quotedAt?
  | .variable => variableAt?
  | wildcard => wildcardAt?
  | hole => holeAt?
  | space => spaceAt?
  | word => wordAt?

namespace Grammar

open Peg

theorem keywordAt?_eq_none_of_head (k : Keyword) {c : Char} (cs : List Char)
    (h : ¬(c = 't' ∨ c = 'f' ∨ c = 'n')) : keywordAt? k (c :: cs) = none := by
  refine if_neg fun hbegins => ?_
  obtain ⟨rest, hrest, -⟩ := Keyword.begins_iff.mp hbegins
  obtain ⟨d, ds, hd, hhead⟩ := Keyword.head_chars k
  rw [hd] at hrest
  cases hrest
  exact h hhead

theorem keyword_scan?_eq (t : List Char) :
    (Keyword.scan? t).map Token.keyword =
      (keywordAt? .true t).or ((keywordAt? .false t).or (keywordAt? .null t)) := by
  simp only [Keyword.scan?, List.find?, keywordAt?]
  cases Keyword.true.begins t <;> cases Keyword.false.begins t <;>
    cases Keyword.null.begins t <;> rfl

/-- A literal is a keyword, a numeral or a string. -/
theorem literalAt?_eq (t : List Char) :
    Token.literalAt? t = (keywordAt? .true t).or ((keywordAt? .false t).or ((keywordAt? .null t).or
      (((Numeral.scan? t).map .numeral).or (quotedAt? t)))) := by
  cases t with
  | nil => rfl
  | cons c cs =>
    by_cases hc : c = '"'
    · subst hc
      have hkeyword (k : Keyword) := keywordAt?_eq_none_of_head k (c := '"') cs (by decide)
      have hnumeral := Token.numeralAt_eq_none (c := '"') cs rfl rfl
      rw [hkeyword, hkeyword, hkeyword, hnumeral, Token.literalAt?_quoted]
      rfl
    · have hnone : quotedAt? (c :: cs) = none := by simp [quotedAt?, hc]
      have hliteral : Token.literalAt? (c :: cs) =
          ((Keyword.scan? (c :: cs)).map .keyword).or
            ((Numeral.scan? (c :: cs)).map .numeral) := by
        simp [Token.literalAt?, hc]
      rw [hnone, hliteral, keyword_scan?_eq]
      simp only [Option.or_assoc, Option.or_none]

/-- The first token that a reader of some kind gives. -/
theorem markedAt?_eq (t : List Char) :
    Token.markedAt? t = [Token.Kind.identifier, .keyword .true, .keyword .false, .keyword .null,
      .numeral, .quoted, .variable, .wildcard, .hole, .space].findSome? fun k => k.at? t := by
  rw [Token.markedAt?, literalAt?_eq]
  simp [findSome?_cons_eq_or, Token.Kind.at?, Option.or_assoc]

/-- **The token at the front of a text is the first one that a reader of some kind gives.** -/
theorem firstAt?_eq (t : List Char) :
    Token.firstAt? t = Token.Kind.all.findSome? fun k => k.at? t := by
  have hall : Token.Kind.all = [Token.Kind.identifier, .keyword .true, .keyword .false,
      .keyword .null, .numeral, .quoted, .variable, .wildcard, .hole, .space] ++ [.word] := rfl
  rw [Token.firstAt?, markedAt?_eq, hall, List.findSome?_append]
  simp [findSome?_cons_eq_or, Token.Kind.at?]

/-! ## 5. Words -/

/-- What no word has in it is where a marked token begins. -/
theorem does_special :
    ∃ read, special.Does read ∧ ∀ t, (read t).isSome = (Token.markedAt? t).isSome := by
  refine ⟨_, does_identifier.orElse ((does_keyword .true).orElse ((does_keyword .false).orElse
    ((does_keyword .null).orElse (does_numeral.orElse (does_quoted.orElse (does_variable.orElse
      (does_wildcard.orElse (does_hole.orElse ((does_one isBlank).orElse
        does_nothing.absent))))))))), fun t => ?_⟩
  have hspace : (Token.spaceAt? t).isSome = (behindOne isBlank t).isSome := by
    cases t with
    | nil => rfl
    | cons c cs => by_cases hc : isBlank c = true <;> simp [Token.spaceAt?, behindOne, hc]
  rw [markedAt?_eq]
  simp [findSome?_cons_eq_or, Token.Kind.at?, Option.isSome_or, hspace]

/-- A character of a word is one at which no marked token begins. -/
theorem does_word_char : (Peg.seq (Peg.absent special) any).Does fun t =>
    if (Token.markedAt? t).isSome then none else behindOne (fun _ => true) t := by
  obtain ⟨read, hspecial, hread⟩ := does_special
  refine (hspecial.absent.seq (does_one _)).congr fun t => ?_
  rw [hread]
  split
  · rfl
  · rfl

theorem does_word_chars : (many (Peg.seq (Peg.absent special) any)).Does fun t =>
    some (t.drop (Token.wordChars t).length) := by
  intro text
  induction text with
  | nil => exact .done (does_word_char [])
  | cons c cs ih =>
    have hfirst := does_word_char (c :: cs)
    dsimp only at hfirst ⊢
    rw [Token.wordChars]
    split
    · next hmarked =>
      rw [if_pos hmarked] at hfirst
      exact .done hfirst
    · next hmarked =>
      rw [if_neg hmarked] at hfirst
      exact .more hfirst ih

theorem does_word : word.Does fun t => (Token.wordAt? t).map (behind t) := by
  refine (does_word_char.seq does_word_chars).congr fun t => ?_
  cases t with
  | nil => rfl
  | cons c cs =>
    rw [Token.wordAt?, Token.wordChars]
    split
    · rfl
    · simp [behindOne, behind, Token.chars]

/-! ## 6. Cutting a text -/

/-- **A rule takes the token that the reader of its kind gives.** -/
theorem does_rule (k : Token.Kind) : k.rule.Does fun t => (k.at? t).map (behind t) := by
  cases k with
  | identifier => exact does_identifier
  | keyword k => exact does_keyword k
  | numeral =>
    refine does_numeral.congr fun t => ?_
    simp [Token.Kind.at?, behind, Token.chars, Function.comp_def]
  | quoted => exact does_quoted
  | «variable» => exact does_variable
  | wildcard => exact does_wildcard
  | hole => exact does_hole
  | space => exact does_space
  | word => exact does_word

theorem kind_of_at? {k : Token.Kind} {t : List Char} {token : Token} (h : k.at? t = some token) :
    token.kind = k := by
  cases k with
  | identifier =>
    simp only [Token.Kind.at?, Token.identifierAt?] at h
    split at h
    · cases h
      rfl
    · cases h
  | keyword k =>
    simp only [Token.Kind.at?, keywordAt?] at h
    split at h
    · cases h
      rfl
    · cases h
  | numeral =>
    obtain ⟨n, -, rfl⟩ := Option.map_eq_some_iff.mp h
    rfl
  | quoted =>
    simp only [Token.Kind.at?, quotedAt?] at h
    split at h
    · split at h
      · cases h
        rfl
      · cases h
    · cases h
  | «variable» =>
    simp only [Token.Kind.at?, Token.variableAt?] at h
    split at h
    · split at h
      · cases h
      · cases h
        rfl
    · cases h
  | wildcard =>
    simp only [Token.Kind.at?, Token.wildcardAt?] at h
    split at h
    · cases h
      rfl
    · cases h
  | hole =>
    simp only [Token.Kind.at?, Token.holeAt?] at h
    split at h
    · cases h
      rfl
    · cases h
  | space =>
    simp only [Token.Kind.at?, Token.spaceAt?] at h
    split at h
    · cases h
    · cases h
      rfl
  | word =>
    simp only [Token.Kind.at?, Token.wordAt?] at h
    split at h
    · cases h
    · cases h
      rfl

/-- The rules go through in the order of the readers. -/
theorem picks_iff {ks : List Token.Kind} {text rest : List Char} {k : Token.Kind} :
    Picks ks text k rest ↔
      ∃ token, ks.findSome? (fun k => k.at? text) = some token ∧ token.kind = k ∧
        rest = behind text token := by
  induction ks with
  | nil =>
    constructor
    · intro h
      cases h
    · rintro ⟨token, h, -⟩
      cases h
  | cons j ks ih =>
    have hrule : j.rule.Leaves text ((j.at? text).map (behind text)) := does_rule j text
    rw [List.findSome?_cons]
    cases hread : j.at? text with
    | none =>
      rw [hread] at hrule
      rw [← ih]
      constructor
      · intro h
        cases h with
        | here hleaves => cases hleaves.unique hrule
        | later _ hlater => exact hlater
      · exact .later hrule
    | some token =>
      rw [hread] at hrule
      constructor
      · intro h
        cases h with
        | here hleaves =>
          cases hleaves.unique hrule
          exact ⟨token, rfl, kind_of_at? hread, rfl⟩
        | later hfails _ => cases hfails.unique hrule
      · rintro ⟨token', heq, hkind, rfl⟩
        cases heq
        rw [← hkind, kind_of_at? hread]
        exact .here hrule

/-- **The first rule that goes through takes the token that stands at the front.** -/
theorem picks_all_iff {text rest : List Char} {k : Token.Kind} :
    Picks Token.Kind.all text k rest ↔
      ∃ token : Token, token.kind = k ∧ text = token.chars ++ rest ∧ token.Stands rest := by
  rw [picks_iff]
  constructor
  · rintro ⟨token, hfirst, hkind, rfl⟩
    rw [← firstAt?_eq, Token.firstAt?_eq_some_iff] at hfirst
    obtain ⟨rest, rfl, hstands⟩ := hfirst
    have hbehind : behind (token.chars ++ rest) token = rest := List.drop_left
    rw [hbehind]
    exact ⟨token, hkind, rfl, hstands⟩
  · rintro ⟨token, hkind, rfl, hstands⟩
    refine ⟨token, ?_, hkind, List.drop_left.symm⟩
    rw [← firstAt?_eq, Token.firstAt?_eq_some_iff]
    exact ⟨rest, rfl, hstands⟩

/-- **The rules take the token at the front of a text, and fail where there is none.** -/
theorem does_term : term.Does fun t => (Token.firstAt? t).map (behind t) := by
  refine (Does.firstOf fun k _ => does_rule k).congr fun t => ?_
  rw [firstAt?_eq]
  induction Token.Kind.all with
  | nil => rfl
  | cons k ks ih =>
    rw [List.findSome?_cons, List.findSome?_cons, ih]
    cases k.at? t <;> rfl

theorem term_leaves_of_stands {token : Token} {rest : List Char} (h : token.Stands rest) :
    term.Leaves (token.chars ++ rest) (some rest) := by
  have hfirst : Token.firstAt? (token.chars ++ rest) = some token :=
    Token.firstAt?_eq_some_iff.mpr ⟨rest, rfl, h⟩
  have hterm : term.Leaves (token.chars ++ rest) ((Token.firstAt? _).map (behind _)) :=
    does_term _
  have hbehind : behind (token.chars ++ rest) token = rest := List.drop_left
  rw [hfirst, Option.map_some, hbehind] at hterm
  exact hterm

/-- The rules fail at the end of a text only. -/
theorem eq_nil_of_term_fails {text : List Char} (h : term.Leaves text none) : text = [] := by
  by_contra hne
  obtain ⟨token, rest, rfl, hstands⟩ := Token.exists_stands hne
  cases h.unique (term_leaves_of_stands hstands)

theorem term_fails_nil : term.Leaves [] none := does_term []

/-- The pieces of a row of tokens. -/
def pieces (ts : List Token) : List (Token.Kind × List Char) := ts.map fun t => (t.kind, t.chars)

theorem cuts_spelling {ts : List Token} (h : Token.Tile ts) :
    Cuts (Token.spelling ts) (pieces ts) [] := by
  induction ts with
  | nil => exact .done term_fails_nil
  | cons t ts ih => exact .more (picks_all_iff.mpr ⟨t, rfl, rfl, h.1⟩) (ih h.2)

/-- **A text is cut into its tokens, and nothing is left.** -/
theorem cuts_iff {text left : List Char} {ps : List (Token.Kind × List Char)} :
    Cuts text ps left ↔ ps = pieces (Token.ofText text) ∧ left = [] := by
  constructor
  · intro h
    induction h with
    | done hfails =>
      rw [eq_nil_of_term_fails hfails]
      exact ⟨rfl, rfl⟩
    | @more k piece rest _ _ hpicks _ ih =>
      obtain ⟨token, rfl, htext, hstands⟩ := picks_all_iff.mp hpicks
      rw [List.append_cancel_right htext, Token.ofText_append hstands, ih.1]
      exact ⟨rfl, ih.2⟩
  · rintro ⟨rfl, rfl⟩
    obtain ⟨ts, rfl, htile⟩ := Token.exists_tile text
    rw [Token.ofText_spelling htile]
    exact cuts_spelling htile

theorem many_term_leaves {ts : List Token} (h : Token.Tile ts) :
    (many term).Leaves (Token.spelling ts) (some []) := by
  induction ts with
  | nil => exact .done term_fails_nil
  | cons t ts ih => exact .more (term_leaves_of_stands h.1) (ih h.2)

/-- **Every text is a row of tokens.** -/
theorem sentence_leaves_iff {text : List Char} {r : Option (List Char)} :
    sentence.Leaves text r ↔ r = some [] := by
  obtain ⟨ts, rfl, htile⟩ := Token.exists_tile text
  have hwhole : sentence.Leaves (Token.spelling ts) (some []) :=
    .seq (many_term_leaves htile) (.absent (.one_fails (by simp)))
  constructor
  · intro h
    exact h.unique hwhole
  · rintro rfl
    exact hwhole

end Grammar

end Blackboard
