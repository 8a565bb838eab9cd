import Blackboard.Sentence.Token
import Blackboard.Proofs.Numerals

/-!
# Which tokens a text has

The tokens of a text are pieces that cover it, and where a piece ends depends on what follows it.

* `Token.Stands` says of a token and of the text behind it that the token ends there and nowhere
  later. It is the only thing that anything else needs to know about the readers.
* **The token at the front of a text is the one that stands there** (`firstAt?_eq_some_iff`).
* **The tokens of a text are the row of standing tokens that covers it** (`ofText_eq_iff`): there
  is exactly one such row.
-/

namespace Blackboard

/-! ## 1. Keywords and quotes -/

namespace Keyword

theorem begins_iff {k : Keyword} {text : List Char} :
    k.begins text ↔ ∃ rest, text = k.chars ++ rest ∧ ¬beginsWith isNameChar rest := by
  simp only [begins, Bool.and_eq_true, List.isPrefixOf_iff_prefix, Bool.not_eq_true']
  constructor
  · rintro ⟨⟨rest, rfl⟩, hstop⟩
    exact ⟨rest, rfl, by simpa [beginsWith] using hstop⟩
  · rintro ⟨rest, rfl, hstop⟩
    exact ⟨⟨rest, rfl⟩, by simpa [beginsWith] using hstop⟩

/-- No two keywords begin alike. -/
theorem eq_of_begins {k l : Keyword} {text : List Char} (hk : k.begins text)
    (hl : l.begins text) : k = l := by
  obtain ⟨rest, hrest, _⟩ := begins_iff.mp hk
  obtain ⟨rest', hrest', _⟩ := begins_iff.mp hl
  rw [hrest] at hrest'
  have hhead := congrArg List.head? hrest'
  cases k <;> cases l <;> first | rfl | simp [chars] at hhead

theorem begins_of_scan? {text : List Char} {k : Keyword} (h : scan? text = some k) :
    k.begins text := by
  unfold scan? at h
  have hk := List.find?_some h
  exact hk

theorem scan?_eq_some_iff {text : List Char} {k : Keyword} :
    scan? text = some k ↔ ∃ rest, text = k.chars ++ rest ∧ ¬beginsWith isNameChar rest := by
  rw [← begins_iff]
  constructor
  · intro h
    exact begins_of_scan? h
  · intro h
    have hsome : (scan? text).isSome := by
      unfold scan?
      rw [List.find?_isSome]
      exact ⟨k, by cases k <;> simp, h⟩
    obtain ⟨l, hl⟩ := Option.isSome_iff_exists.mp hsome
    rw [hl, eq_of_begins (begins_of_scan? hl) h]

/-- The first letters of the keywords. -/
theorem head_chars (k : Keyword) :
    ∃ c cs, k.chars = c :: cs ∧ (c = 't' ∨ c = 'f' ∨ c = 'n') := by
  cases k with
  | true => exact ⟨'t', _, rfl, Or.inl rfl⟩
  | false => exact ⟨'f', _, rfl, Or.inr (Or.inl rfl)⟩
  | null => exact ⟨'n', _, rfl, Or.inr (Or.inr rfl)⟩

theorem scan?_eq_none_of_head {c : Char} (cs : List Char)
    (h : ¬(c = 't' ∨ c = 'f' ∨ c = 'n')) : scan? (c :: cs) = none := by
  cases hk : scan? (c :: cs) with
  | none => rfl
  | some k =>
    obtain ⟨rest, hrest, _⟩ := scan?_eq_some_iff.mp hk
    obtain ⟨d, ds, hd, hhead⟩ := head_chars k
    rw [hd] at hrest
    cases hrest
    exact absurd hhead h

end Keyword

/-- The characters of a string on its line. -/
def isQuotable (c : Char) : Bool := c != '"' && c != '\n'

/-- Whether what follows a quotation mark has another one on the same line. -/
def isQuoteClosed (cs : List Char) : Bool := beginsWith (· == '"') (cs.dropWhile isQuotable)

theorem mem_of_isQuoteClosed {cs : List Char} (h : isQuoteClosed cs = true) : '"' ∈ cs := by
  rw [isQuoteClosed] at h
  cases hdrop : cs.dropWhile isQuotable with
  | nil =>
    rw [hdrop] at h
    cases h
  | cons c rest =>
    rw [hdrop] at h
    have hc : c = '"' := by simpa using h
    rw [← List.takeWhile_append_dropWhile (p := isQuotable) (l := cs), hdrop, hc]
    simp

theorem isQuoteClosed_of_mem {cs rest : List Char} (h : '"' ∈ cs) (hline : '\n' ∉ cs) :
    isQuoteClosed (cs ++ rest) = true := by
  rw [isQuoteClosed]
  induction cs with
  | nil => cases h
  | cons c cs ih =>
    rw [List.cons_append, List.dropWhile_cons]
    by_cases hc : c = '"'
    · subst hc
      rfl
    · have hquotable : isQuotable c = true := by
        have hnl : c ≠ '\n' := fun hnl => hline (by simp [hnl])
        simp [isQuotable, hc, hnl]
      rw [if_pos hquotable]
      rcases List.mem_cons.mp h with h | h
      · exact absurd h.symm hc
      · exact ih h fun hmem => hline (List.mem_cons_of_mem _ hmem)

theorem drop_length_takeWhile (p : Char → Bool) (cs : List Char) :
    cs.drop (cs.takeWhile p).length = cs.dropWhile p := by
  conv => lhs; arg 2; rw [← List.takeWhile_append_dropWhile (p := p) (l := cs)]
  exact List.drop_left

/-- Whether a numeral begins a text. -/
def beginsNumeral : List Char → Bool
  | [] => false
  | c :: cs => c.isDigit || (isSign c && beginsWith Char.isDigit cs)

theorem Numeral.isSome_scan? (text : List Char) : (scan? text).isSome = beginsNumeral text := by
  have hsome : (scan? text).isSome = beginsWith Char.isDigit (Sign.scan text).2 := by
    simp only [scan?]
    cases (Sign.scan text).2 with
    | nil => rfl
    | cons c cs =>
      cases hc : c.isDigit with
      | true => simp [hc]
      | false => simp [hc]
  rw [hsome]
  cases text with
  | nil => rfl
  | cons c cs =>
    cases hc : Sign.ofChar? c with
    | none =>
      rw [Sign.scan, hc]
      simp [beginsNumeral, isSign, hc]
    | some s =>
      rw [Sign.scan, hc]
      simp [beginsNumeral, isSign, Sign.ofChar?_eq_some hc, Sign.isDigit_char]

theorem isBlank_of_isDigit {c : Char} (h : c.isDigit = true) : isBlank c = false := by
  have hrange : 48 ≤ c.toNat ∧ c.toNat ≤ 57 := by
    simpa [Char.isDigit, UInt32.le_iff_toNat_le] using h
  cases hb : isBlank c with
  | false => rfl
  | true =>
    simp only [isBlank, Bool.or_eq_true, Bool.and_eq_true, decide_eq_true_eq, beq_iff_eq] at hb
    omega

namespace Token

/-! ## 2. What it is for a token to stand somewhere -/

/-- A token ends where the given text begins: it is what is read at the front of its own spelling
    and this text. -/
def Stands : Token → List Char → Prop
  | identifier name, rest => (∀ c ∈ name, isNameChar c = true) ∧ beginsWith isNameChar rest = false
  | keyword _, rest => beginsWith isNameChar rest = false
  | numeral n, rest => n.WellSpelled ∧ n.endsBefore rest = true
  | quoted body, _ => ∀ c ∈ body, isQuotable c = true
  | .variable name, rest =>
    name ≠ [] ∧ (∀ c ∈ name, isNameChar c = true) ∧ beginsWith isNameChar rest = false
  | wildcard, rest => beginsWith isNameChar rest = false
  | hole, _ => True
  | space blanks, rest =>
    blanks ≠ [] ∧ (∀ c ∈ blanks, isBlank c = true) ∧ beginsWith isBlank rest = false
  | word text, rest => text ≠ [] ∧ wordChars (text ++ rest) = text

/-- Whether the token shows what it is by how it begins. -/
def isMarked : Token → Bool
  | word _ => false
  | _ => true

theorem chars_ne_nil {t : Token} {rest : List Char} (h : t.Stands rest) : t.chars ≠ [] := by
  cases t with
  | keyword k => cases k <;> exact List.cons_ne_nil _ _
  | numeral n =>
    intro hnil
    have hwhole := h.1.nonempty
    simp only [chars, Numeral.chars, List.append_eq_nil_iff] at hnil
    exact hwhole hnil.1.1.2
  | space blanks => exact h.1
  | word text => exact h.1
  | _ => exact List.cons_ne_nil _ _

/-- A run of blanks begins and ends with one. -/
theorem blank_ends_of_space {blanks rest : List Char} (h : (space blanks).Stands rest) :
    beginsWith isBlank blanks = true ∧ blanks.getLast?.any isBlank = true := by
  obtain ⟨hne, hblanks, -⟩ := h
  constructor
  · cases blanks with
    | nil => exact absurd rfl hne
    | cons c cs => exact hblanks c List.mem_cons_self
  · rw [List.getLast?_eq_some_getLast hne]
    exact hblanks _ (List.getLast_mem hne)

/-! ## 3. The readers by the first character -/

theorem markedAt?_identifier (cs : List Char) :
    markedAt? ('#' :: cs) = some (identifier (cs.takeWhile isNameChar)) := rfl

theorem markedAt?_hole (cs : List Char) : markedAt? ('_' :: cs) = some hole := rfl

/-- The characters that say by themselves which readers come into question. -/
def isSigil (c : Char) : Bool := c == '#' || c == '"' || c == '$' || c == '_'

theorem eq_of_isSigil {c : Char} (h : isSigil c = true) :
    c = '#' ∨ c = '"' ∨ c = '$' ∨ c = '_' := by
  simp only [isSigil, Bool.or_eq_true, beq_iff_eq, or_assoc] at h
  exact h

theorem isSigil_of_keyword {c : Char} (h : c = 't' ∨ c = 'f' ∨ c = 'n') : isSigil c = false := by
  rcases h with rfl | rfl | rfl
  · rfl
  · rfl
  · rfl

theorem isSigil_of_isBlank {c : Char} (h : isBlank c = true) : isSigil c = false := by
  apply Bool.eq_false_iff.mpr
  intro hsigil
  rcases eq_of_isSigil hsigil with rfl | rfl | rfl | rfl <;> cases h

/-- Behind any other character the readers that go by the first one have nothing to say. -/
theorem markedAt?_other {c : Char} (cs : List Char) (hc : isSigil c = false) :
    markedAt? (c :: cs) = ((keyword <$> Keyword.scan? (c :: cs)) <|>
      (numeral <$> Numeral.scan? (c :: cs)) <|> spaceAt? (c :: cs)) := by
  simp only [isSigil, Bool.or_eq_false_iff, beq_eq_false_iff_ne] at hc
  obtain ⟨⟨⟨hhash, hquote⟩, hdollar⟩, hunder⟩ := hc
  have hidentifier : identifierAt? (c :: cs) = none := by simp [identifierAt?, hhash]
  have hliteral : literalAt? (c :: cs) =
      ((keyword <$> Keyword.scan? (c :: cs)) <|> (numeral <$> Numeral.scan? (c :: cs))) := by
    simp [literalAt?, hquote]
  have hvariable : variableAt? (c :: cs) = none := by simp [variableAt?, hdollar]
  have hwildcard : wildcardAt? (c :: cs) = none := by simp [wildcardAt?, hdollar]
  have hhole : holeAt? (c :: cs) = none := by simp [holeAt?, hunder]
  simp only [markedAt?, hidentifier, hliteral, hvariable, hwildcard, hhole]
  cases Keyword.scan? (c :: cs) <;> cases Numeral.scan? (c :: cs) <;> rfl

theorem numeralAt_eq_none {c : Char} (cs : List Char) (hdigit : c.isDigit = false)
    (hsign : isSign c = false) : Numeral.scan? (c :: cs) = none := by
  rw [← Option.not_isSome_iff_eq_none, Numeral.isSome_scan?]
  simp [beginsNumeral, hdigit, hsign]

theorem markedAt?_variable (cs : List Char) :
    markedAt? ('$' :: cs) = if (cs.takeWhile isNameChar).isEmpty then some wildcard
      else some (.variable (cs.takeWhile isNameChar)) := by
  have hkeyword := Keyword.scan?_eq_none_of_head (c := '$') cs (by decide)
  have hnumeral := numeralAt_eq_none (c := '$') cs rfl rfl
  have hliteral : literalAt? ('$' :: cs) = none := by simp [literalAt?, hkeyword, hnumeral]
  have hidentifier : identifierAt? ('$' :: cs) = none := rfl
  have hwildcard : wildcardAt? ('$' :: cs) = some wildcard := rfl
  rw [markedAt?, hidentifier, hliteral, hwildcard, variableAt?]
  split
  · rfl
  · rfl

theorem literalAt?_quoted (cs : List Char) :
    literalAt? ('"' :: cs) =
      if isQuoteClosed cs then some (quoted (cs.takeWhile isQuotable)) else none := by
  have hclosed : ((cs.drop (cs.takeWhile isQuotable).length).head? = some '"') ↔
      isQuoteClosed cs = true := by
    rw [drop_length_takeWhile, isQuoteClosed]
    cases cs.dropWhile isQuotable with
    | nil => simp
    | cons c rest => simp
  simp only [← hclosed]
  rfl

theorem markedAt?_quoted (cs : List Char) :
    markedAt? ('"' :: cs) =
      if isQuoteClosed cs then some (quoted (cs.takeWhile isQuotable)) else none := by
  have hidentifier : identifierAt? ('"' :: cs) = none := rfl
  rw [markedAt?, hidentifier, literalAt?_quoted]
  split
  · rfl
  · rfl

/-! ## 4. The token that stands at the front -/

theorem exists_of_takeWhile {p : Char → Bool} (cs : List Char) :
    ∃ rest, cs = cs.takeWhile p ++ rest ∧ beginsWith p rest = false :=
  (takeWhile_eq_iff.mp rfl).2

/-- A marked token stands at the front of a text. -/
def Marks (t : Token) (text : List Char) : Prop :=
  t.isMarked = true ∧ ∃ rest, text = t.chars ++ rest ∧ t.Stands rest

theorem marks_quoted {cs : List Char} (hclosed : isQuoteClosed cs = true) :
    (quoted (cs.takeWhile isQuotable)).Marks ('"' :: cs) := by
  rw [isQuoteClosed] at hclosed
  cases hdrop : cs.dropWhile isQuotable with
  | nil =>
    rw [hdrop] at hclosed
    cases hclosed
  | cons d rest =>
    rw [hdrop] at hclosed
    have hd : d = '"' := by simpa using hclosed
    have hcs := List.takeWhile_append_dropWhile (p := isQuotable) (l := cs)
    rw [hdrop, hd] at hcs
    refine ⟨rfl, rest, ?_, fun c hc => List.all_eq_true.mp List.all_takeWhile c hc⟩
    simp only [chars, List.cons_append, List.append_assoc, List.nil_append, hcs]

theorem marks_of_variable {cs : List Char} {t : Token} (h : markedAt? ('$' :: cs) = some t) :
    t.Marks ('$' :: cs) := by
  rw [markedAt?_variable] at h
  obtain ⟨rest, hrest, hstop⟩ := exists_of_takeWhile (p := isNameChar) cs
  split at h
  · next hempty =>
    cases h
    rw [List.isEmpty_iff.mp hempty] at hrest
    exact ⟨rfl, rest, congrArg _ hrest, hstop⟩
  · next hne =>
    cases h
    refine ⟨rfl, rest, congrArg _ hrest, by simpa using hne, fun c hc => ?_, hstop⟩
    exact List.all_eq_true.mp List.all_takeWhile c hc

theorem marks_of_spaceAt? {text : List Char} {t : Token} (h : spaceAt? text = some t) :
    t.Marks text := by
  obtain ⟨rest, hrest, hstop⟩ := exists_of_takeWhile (p := isBlank) text
  simp only [spaceAt?] at h
  split at h
  · cases h
  · next hne =>
    cases h
    refine ⟨rfl, rest, hrest, by simpa using hne, fun c hc => ?_, hstop⟩
    exact List.all_eq_true.mp List.all_takeWhile c hc

theorem marks_of_other {c : Char} {cs : List Char} {t : Token} (hc : isSigil c = false)
    (h : markedAt? (c :: cs) = some t) : t.Marks (c :: cs) := by
  rw [markedAt?_other cs hc] at h
  cases hkeyword : Keyword.scan? (c :: cs) with
  | some k =>
    rw [hkeyword] at h
    cases h
    obtain ⟨rest, hrest, hstop⟩ := Keyword.scan?_eq_some_iff.mp hkeyword
    exact ⟨rfl, rest, hrest, by simpa [Stands] using hstop⟩
  | none =>
    rw [hkeyword] at h
    cases hnumeral : Numeral.scan? (c :: cs) with
    | some n =>
      rw [hnumeral] at h
      cases h
      obtain ⟨hspelled, rest, hrest, hends⟩ := Numeral.scan?_eq_some_iff.mp hnumeral
      exact ⟨rfl, rest, hrest, hspelled, hends⟩
    | none =>
      rw [hnumeral] at h
      exact marks_of_spaceAt? h

/-- **A marked token that is read at the front of a text stands there.** -/
theorem marks_of_markedAt? {text : List Char} {t : Token} (h : markedAt? text = some t) :
    t.Marks text := by
  cases text with
  | nil => cases h
  | cons c cs =>
    cases hc : isSigil c with
    | false => exact marks_of_other hc h
    | true =>
      rcases eq_of_isSigil hc with rfl | rfl | rfl | rfl
      · rw [markedAt?_identifier] at h
        cases h
        obtain ⟨rest, hrest, hstop⟩ := exists_of_takeWhile (p := isNameChar) cs
        refine ⟨rfl, rest, congrArg _ hrest, fun c hc => ?_, hstop⟩
        exact List.all_eq_true.mp List.all_takeWhile c hc
      · rw [markedAt?_quoted] at h
        split at h
        · next hclosed =>
          cases h
          exact marks_quoted hclosed
        · cases h
      · exact marks_of_variable h
      · rw [markedAt?_hole] at h
        cases h
        exact ⟨rfl, cs, rfl, trivial⟩

/-- Characters that begin a numeral. -/
theorem head_of_beginsNumeral {c : Char} {cs : List Char} (h : beginsNumeral (c :: cs) = true) :
    c.isDigit = true ∨ c = '+' ∨ c = '-' := by
  simp only [beginsNumeral, Bool.or_eq_true, Bool.and_eq_true] at h
  rcases h with h | ⟨h, _⟩
  · exact Or.inl h
  · exact Or.inr (Sign.eq_plus_or_minus_of_isSign h)

/-- Neither a sigil nor the first letter of a keyword begins a numeral. -/
theorem isSigil_of_beginsNumeral {c : Char} {cs : List Char} (h : beginsNumeral (c :: cs) = true) :
    isSigil c = false ∧ ¬(c = 't' ∨ c = 'f' ∨ c = 'n') := by
  have hhead := head_of_beginsNumeral h
  constructor
  · apply Bool.eq_false_iff.mpr
    intro hsigil
    rcases eq_of_isSigil hsigil with rfl | rfl | rfl | rfl <;> simp at hhead
  · intro hletter
    rcases hletter with rfl | rfl | rfl <;> simp at hhead

theorem beginsNumeral_of_isBlank {c : Char} (cs : List Char) (h : isBlank c = true) :
    beginsNumeral (c :: cs) = false := by
  apply Bool.eq_false_iff.mpr
  intro hbegins
  rcases head_of_beginsNumeral hbegins with hdigit | rfl | rfl
  · rw [isBlank_of_isDigit hdigit] at h
    cases h
  · cases h
  · cases h

theorem markedAt?_keyword {k : Keyword} {rest : List Char} (h : (keyword k).Stands rest) :
    markedAt? (k.chars ++ rest) = some (keyword k) := by
  have hscan : Keyword.scan? (k.chars ++ rest) = some k :=
    Keyword.scan?_eq_some_iff.mpr ⟨rest, rfl, by simpa [Stands] using h⟩
  obtain ⟨c, cs, hchars, hhead⟩ := Keyword.head_chars k
  rw [hchars, List.cons_append] at hscan
  rw [hchars, List.cons_append, markedAt?_other _ (isSigil_of_keyword hhead), hscan]
  rfl

theorem markedAt?_numeral {n : Numeral} {rest : List Char} (h : (numeral n).Stands rest) :
    markedAt? (n.chars ++ rest) = some (numeral n) := by
  have hscan : Numeral.scan? (n.chars ++ rest) = some n :=
    Numeral.scan?_eq_some_iff.mpr ⟨h.1, rest, rfl, h.2⟩
  have hbegins : beginsNumeral (n.chars ++ rest) = true := by
    rw [← Numeral.isSome_scan?, hscan]
    rfl
  cases htext : n.chars ++ rest with
  | nil =>
    rw [htext] at hbegins
    cases hbegins
  | cons c cs =>
    rw [htext] at hscan hbegins
    obtain ⟨hsigil, hletter⟩ := isSigil_of_beginsNumeral hbegins
    rw [markedAt?_other _ hsigil, Keyword.scan?_eq_none_of_head cs hletter, hscan]
    rfl

theorem markedAt?_closed {body rest : List Char} (h : (quoted body).Stands rest) :
    markedAt? ('"' :: (body ++ '"' :: rest)) = some (quoted body) := by
  have hstop : beginsWith isQuotable ('"' :: rest) = false := rfl
  have hbody : (body ++ '"' :: rest).takeWhile isQuotable = body :=
    takeWhile_append_of_stop h hstop
  have hclosed : isQuoteClosed (body ++ '"' :: rest) = true := by
    rw [isQuoteClosed, ← drop_length_takeWhile, hbody, List.drop_left]
    rfl
  rw [markedAt?_quoted, if_pos hclosed, hbody]

theorem markedAt?_space {blanks rest : List Char} (h : (space blanks).Stands rest) :
    markedAt? (blanks ++ rest) = some (space blanks) := by
  obtain ⟨hne, hblanks, hstop⟩ := h
  cases blanks with
  | nil => exact absurd rfl hne
  | cons c cs =>
    have hc := hblanks c List.mem_cons_self
    have hkeyword := Keyword.scan?_eq_none_of_head (c := c) (cs ++ rest) (by
      intro hletter
      rcases hletter with rfl | rfl | rfl <;> cases hc)
    have hnumeral : Numeral.scan? (c :: (cs ++ rest)) = none := by
      rw [← Option.not_isSome_iff_eq_none, Numeral.isSome_scan?, beginsNumeral_of_isBlank _ hc]
      exact Bool.false_ne_true
    have hrun := takeWhile_append_of_stop hblanks hstop
    rw [List.cons_append] at hrun
    rw [List.cons_append, markedAt?_other _ (isSigil_of_isBlank hc), hkeyword, hnumeral]
    simp [spaceAt?, hrun]

/-- **A marked token that stands at the front of a text is read there.** -/
theorem markedAt?_of_stands {t : Token} {rest : List Char} (hmarked : t.isMarked = true)
    (h : t.Stands rest) : markedAt? (t.chars ++ rest) = some t := by
  cases t with
  | identifier name =>
    simp only [chars, List.cons_append, markedAt?_identifier, takeWhile_append_of_stop h.1 h.2]
  | keyword k => exact markedAt?_keyword h
  | numeral n => exact markedAt?_numeral h
  | quoted body =>
    simp only [chars, List.cons_append, List.append_assoc, List.nil_append]
    exact markedAt?_closed h
  | «variable» name =>
    obtain ⟨hne, hname, hstop⟩ := h
    have hempty : name.isEmpty = false := by simpa using hne
    simp only [chars, List.cons_append, markedAt?_variable, takeWhile_append_of_stop hname hstop,
      hempty, Bool.false_eq_true, if_false]
  | wildcard =>
    have hnone : rest.takeWhile isNameChar = [] :=
      takeWhile_eq_iff.mpr ⟨by simp, rest, rfl, h⟩
    simp [chars, markedAt?_variable, hnone]
  | hole => rfl
  | space blanks => exact markedAt?_space h
  | word text => cases hmarked

/-- What a text must not begin with so that no marked token is in front. -/
structure Unmarked (c : Char) (cs : List Char) : Prop where
  hash : c ≠ '#'
  dollar : c ≠ '$'
  underscore : c ≠ '_'
  blank : isBlank c = false
  numeral : beginsNumeral (c :: cs) = false
  keyword : Keyword.scan? (c :: cs) = none
  quote : c = '"' → isQuoteClosed cs = false

theorem unmarked_iff_of_quote (cs : List Char) :
    Unmarked '"' cs ↔ isQuoteClosed cs = false := by
  constructor
  · intro h
    exact h.quote rfl
  · intro h
    exact ⟨by decide, by decide, by decide, rfl, rfl,
      Keyword.scan?_eq_none_of_head cs (by decide), fun _ => h⟩

theorem markedAt?_eq_none_of_other {c : Char} {cs : List Char} (hc : isSigil c = false) :
    markedAt? (c :: cs) = none ↔
      Keyword.scan? (c :: cs) = none ∧ Numeral.scan? (c :: cs) = none ∧ isBlank c = false := by
  rw [markedAt?_other cs hc]
  cases Keyword.scan? (c :: cs) with
  | some k => simp
  | none =>
    cases Numeral.scan? (c :: cs) with
    | some n => simp
    | none =>
      cases hblank : isBlank c with
      | true => simp [spaceAt?, hblank]
      | false => simp [spaceAt?, hblank]

theorem markedAt?_eq_none_iff {c : Char} {cs : List Char} :
    markedAt? (c :: cs) = none ↔ Unmarked c cs := by
  cases hc : isSigil c with
  | false =>
    have hnumeral : Numeral.scan? (c :: cs) = none ↔ beginsNumeral (c :: cs) = false := by
      rw [← Numeral.isSome_scan?]
      cases Numeral.scan? (c :: cs) <;> simp
    rw [markedAt?_eq_none_of_other hc, hnumeral]
    simp only [isSigil, Bool.or_eq_false_iff, beq_eq_false_iff_ne] at hc
    obtain ⟨⟨⟨hhash, hquote⟩, hdollar⟩, hunder⟩ := hc
    constructor
    · intro h
      obtain ⟨hkeyword, hnum, hblank⟩ := h
      exact ⟨hhash, hdollar, hunder, hblank, hnum, hkeyword, fun heq => absurd heq hquote⟩
    · intro h
      exact ⟨h.keyword, h.numeral, h.blank⟩
  | true =>
    rcases eq_of_isSigil hc with rfl | rfl | rfl | rfl
    · exact iff_of_false (Option.some_ne_none _) fun h => h.hash rfl
    · rw [unmarked_iff_of_quote, markedAt?_quoted]
      cases isQuoteClosed cs with
      | true => simp
      | false => simp
    · refine iff_of_false ?_ fun h => h.dollar rfl
      rw [markedAt?_variable]
      split
      · exact Option.some_ne_none _
      · exact Option.some_ne_none _
    · exact iff_of_false (Option.some_ne_none _) fun h => h.underscore rfl

/-- The characters of a word are those up to the next marked token. -/
theorem exists_of_wordChars (text : List Char) : ∃ rest, text = wordChars text ++ rest := by
  induction text with
  | nil => exact ⟨[], rfl⟩
  | cons c cs ih =>
    unfold wordChars
    split
    · exact ⟨c :: cs, rfl⟩
    · obtain ⟨rest, hrest⟩ := ih
      exact ⟨rest, by rw [List.cons_append, ← hrest]⟩

/-- **A text has the characters of a word in front if no token is marked before their end and one
    is there.** -/
theorem wordChars_append_iff {text rest : List Char} :
    wordChars (text ++ rest) = text ↔
      (∀ u v, text = u ++ v → v ≠ [] → markedAt? (v ++ rest) = none) ∧
        (rest ≠ [] → (markedAt? rest).isSome = true) := by
  induction text with
  | nil =>
    cases rest with
    | nil => simp [wordChars]
    | cons c cs =>
      simp only [List.nil_append, wordChars]
      split
      · next h => simp [h]
      · next h => simp [h]
  | cons c cs ih =>
    simp only [List.cons_append, wordChars]
    constructor
    · intro h
      split at h
      · cases h
      · next hmark =>
        obtain ⟨hnone, hrest⟩ := ih.mp (List.cons.inj h).2
        refine ⟨fun u v huv hv => ?_, hrest⟩
        cases u with
        | nil =>
          rw [List.nil_append] at huv
          rw [← huv]
          simpa using hmark
        | cons d u => exact hnone u v (List.cons.inj huv).2 hv
    · rintro ⟨hnone, hrest⟩
      have hhead := hnone [] (c :: cs) rfl (by simp)
      rw [List.cons_append] at hhead
      rw [hhead]
      have htail := ih.mpr ⟨fun u v huv => hnone (c :: u) v (by rw [huv]; rfl), hrest⟩
      simp [htail]

/-- **The token at the front of a text is the one that stands there.** -/
theorem firstAt?_eq_some_iff {text : List Char} {t : Token} :
    firstAt? text = some t ↔ ∃ rest, text = t.chars ++ rest ∧ t.Stands rest := by
  constructor
  · intro h
    cases hmark : markedAt? text with
    | some t' =>
      have ht : t' = t := by simpa [firstAt?, hmark] using h
      rw [← ht]
      exact (marks_of_markedAt? hmark).2
    | none =>
      simp only [firstAt?, hmark, wordAt?] at h
      split at h
      · cases h
      · next hne =>
        cases h
        obtain ⟨rest, hrest⟩ := exists_of_wordChars text
        exact ⟨rest, hrest, by simpa using hne, by rw [← hrest]⟩
  · rintro ⟨rest, rfl, h⟩
    cases hmarked : t.isMarked with
    | true => simp [firstAt?, markedAt?_of_stands hmarked h]
    | false =>
      cases t with
      | word text =>
        obtain ⟨hne, hword⟩ := h
        have hnone := (wordChars_append_iff.mp hword).1 [] text rfl hne
        simp [firstAt?, chars, hnone, wordAt?, hword, hne]
      | _ => cases hmarked

/-- Only a marked token stands where a marked token is read. -/
theorem isMarked_of_markedAt? {t : Token} {rest : List Char} (h : t.Stands rest)
    (hsome : (markedAt? (t.chars ++ rest)).isSome = true) : t.isMarked = true := by
  obtain ⟨t', ht'⟩ := Option.isSome_iff_exists.mp hsome
  have hfirst : firstAt? (t.chars ++ rest) = some t := firstAt?_eq_some_iff.mpr ⟨rest, rfl, h⟩
  have heq : t' = t := by simpa [firstAt?, ht'] using hfirst
  rw [← heq]
  exact (marks_of_markedAt? ht').1

theorem exists_stands {text : List Char} (h : text ≠ []) :
    ∃ (t : Token) (rest : List Char), text = t.chars ++ rest ∧ t.Stands rest := by
  have hsome : ∃ t, firstAt? text = some t := by
    cases hmark : markedAt? text with
    | some t => exact ⟨t, by simp [firstAt?, hmark]⟩
    | none =>
      cases text with
      | nil => exact absurd rfl h
      | cons c cs => exact ⟨word (wordChars (c :: cs)), by simp [firstAt?, hmark, wordAt?, wordChars]⟩
  obtain ⟨t, ht⟩ := hsome
  exact ⟨t, firstAt?_eq_some_iff.mp ht⟩

/-! ## 5. The tokens of a text -/

/-- The text that tokens spell. -/
def spelling (ts : List Token) : List Char := ts.flatMap chars

@[simp] theorem spelling_nil : spelling [] = [] := rfl

@[simp] theorem spelling_cons (t : Token) (ts : List Token) :
    spelling (t :: ts) = t.chars ++ spelling ts := rfl

/-- Tokens of which every one stands before the spelling of those behind it. -/
def Tile : List Token → Prop
  | [] => True
  | t :: ts => t.Stands (spelling ts) ∧ Tile ts

theorem spelling_ne_nil {t : Token} {ts : List Token} (h : Tile (t :: ts)) :
    spelling (t :: ts) ≠ [] := fun hnil =>
  chars_ne_nil h.1 (List.append_eq_nil_iff.mp hnil).1

theorem exists_stands_of_mem {t : Token} {ts : List Token} (h : Tile ts) (ht : t ∈ ts) :
    ∃ rest, t.Stands rest := by
  induction ts with
  | nil => cases ht
  | cons u ts ih =>
    rcases List.mem_cons.mp ht with rfl | ht
    · exact ⟨_, h.1⟩
    · exact ih h.2 ht

/-- **The first token of a text is the one that stands there, and the others are the tokens of
    what follows.** -/
theorem ofText_append {t : Token} {rest : List Char} (h : t.Stands rest) :
    ofText (t.chars ++ rest) = t :: ofText rest := by
  have hfirst : firstAt? (t.chars ++ rest) = some t := firstAt?_eq_some_iff.mpr ⟨rest, rfl, h⟩
  cases hchars : t.chars with
  | nil => exact absurd hchars (chars_ne_nil h)
  | cons c cs =>
    rw [hchars, List.cons_append] at hfirst
    have hnext : next c (cs ++ rest) = (t, cs.length) := by
      simp [next, hfirst, hchars]
    rw [List.cons_append, ofText, cut_cons, hnext, List.drop_left]
    rfl

theorem ofText_spelling {ts : List Token} (h : Tile ts) : ofText (spelling ts) = ts := by
  induction ts with
  | nil => rfl
  | cons t ts ih => rw [spelling_cons, ofText_append h.1, ih h.2]

theorem exists_tile (text : List Char) : ∃ ts, text = spelling ts ∧ Tile ts := by
  by_cases h : text = []
  · exact ⟨[], h, trivial⟩
  · obtain ⟨t, rest, htext, hstands⟩ := exists_stands h
    have hlen : rest.length < text.length := by
      have := List.length_pos_iff.mpr (chars_ne_nil hstands)
      rw [htext, List.length_append]
      omega
    obtain ⟨ts, hrest, htile⟩ := exists_tile rest
    refine ⟨t :: ts, by rw [spelling_cons, ← hrest, htext], ?_, htile⟩
    rwa [← hrest]
termination_by text.length

/-- **The tokens of a text are the row of standing tokens that covers it.** -/
theorem ofText_eq_iff {text : List Char} {ts : List Token} :
    ofText text = ts ↔ text = spelling ts ∧ Tile ts := by
  obtain ⟨us, rfl, htile⟩ := exists_tile text
  rw [ofText_spelling htile]
  constructor
  · rintro rfl
    exact ⟨rfl, htile⟩
  · rintro ⟨heq, htile'⟩
    rw [← ofText_spelling htile, heq, ofText_spelling htile']

end Token

end Blackboard
