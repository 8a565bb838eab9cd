import Blackboard.Client.Remote
import Blackboard.Proofs.JsonReaders
import Blackboard.Proofs.Numerals

/-!
# JSON texts are read as they were written

The tokens that are found in the text of a value are the tokens of the value
(`Json.ofChars_chars`), so it makes no difference whether a value travels as one or as the other.
That holds of every value whose numbers a text can tell: integers of 64 bits, and finite numbers.

* A finite number is written as a fraction or with an exponent, so it is not mistaken for an
  integer, and what it is written with **has the number itself as its value**, the sign of a zero
  included (`Numeral.value_ofReal`).
* JSON admits no plus sign and no leading zeros, and none is written (`Numeral.IsStrict`).
* Every character of a string is read back from its escape (`Json.stringUnits?_stringChar`).
-/

namespace Blackboard

/-! ## 1. Rounding -/

/-- Rounding knows a fraction in any terms. -/
theorem roundUnits_mul_left (precision num den : Nat) {k : Nat} (hk : 0 < k) :
    roundUnits precision (k * num) (k * den) = roundUnits precision num den := by
  have hless : ∀ a b : Nat, k * a < 2 * (k * b) ↔ a < 2 * b := fun a b => by
    rw [Nat.mul_left_comm, Nat.mul_lt_mul_left hk]
  have hsame : ∀ a b : Nat, 2 * (k * b) = k * a ↔ 2 * b = a := fun a b => by
    rw [Nat.mul_left_comm, Nat.mul_left_cancel_iff hk]
  simp only [roundUnits, Nat.shiftLeft_eq, Nat.mul_assoc, Nat.mul_div_mul_left _ _ hk,
    Nat.mul_mod_mul_left, hless, Bool.beq_eq_decide_eq, hsame]

namespace Binary64

theorem nearestRank_mul_left (num den : Nat) {k : Nat} (hk : 0 < k) :
    nearestRank (k * num) (k * den) = nearestRank num den := by
  rw [nearestRank, nearestRank, Nat.shiftLeft_eq, Nat.shiftLeft_eq, Nat.mul_assoc,
    roundUnits_mul_left _ _ _ hk]

/-- Ten times the digits with one more place behind the point is the same magnitude. -/
theorem rank_tenfold (n : Nat) : Decimal.rank ⟨10 * n, -1⟩ = Decimal.rank ⟨n, 0⟩ := by
  by_cases hzero : n = 0
  · simp [Decimal.rank, hzero]
  · have hne : 10 * n ≠ 0 := by omega
    have htiny : Decimal.isTiny ⟨10 * n, -1⟩ = false := by
      simp only [Decimal.isTiny, decide_eq_false_iff_not]
      omega
    have hhuge : ∀ (m : Nat) (e : Int), e ≤ 0 → Decimal.isHuge ⟨m, e⟩ = false :=
      fun m e he => isHuge_of_le (Int.le_trans he (Int.zero_le_ofNat 400))
    rw [rank_eq_nearestRank hne htiny (hhuge _ _ (by omega)),
      rank_eq_nearestRank hzero (isTiny_of_nonneg (Int.le_refl 0)) (hhuge _ _ (Int.le_refl 0))]
    simpa [Decimal.tenTo] using nearestRank_mul_left n 1 (k := 10) (by omega)

/-- Without digits a number is written as the plain zero. -/
theorem shortest_of_digits (tie : Tie) (rank : Nat) (h : (shortest tie rank).digits = 0) :
    (shortest tie rank).exponent = 0 := by
  have hrank := rank_shortest tie rank
  rw [Decimal.rank, h] at hrank
  obtain rfl : 0 = rank := hrank
  rfl

end Binary64

/-! ## 2. How a number is written in JSON -/

namespace Numeral

/-- What JSON admits of numerals: no plus sign, and no zero in front of other digits. -/
def IsStrict (n : Numeral) : Prop :=
  n.sign ≠ some .plus ∧ (n.whole.head? = some '0' → n.whole.length = 1)

/-- The exponent that is written behind a numeral. -/
def signedExponent (e : Int) : Exponent :=
  ⟨'e', some (if e < 0 then .minus else .plus), Decimal.digitChars e.natAbs⟩

/-- The spelling of a decimal as a fraction, or with an exponent. -/
def ofScaled (sign : Option Sign) (d : Decimal) : Numeral :=
  let ds := Decimal.digitChars d.digits
  let point : Int := ds.length + d.exponent
  if -5 < point && point ≤ 16 then
    if 0 ≤ d.exponent then ⟨sign, ds ++ List.replicate d.exponent.toNat '0', ['0'], none⟩
    else ofDecimal sign d
  else ⟨sign, ds.take 1, ds.drop 1, some (signedExponent (point - 1))⟩

/-- The spelling of a finite number that no integer has. -/
def ofReal : Binary64 → Numeral
  | .finite negative rank =>
    ofScaled (if negative then some .minus else none) (Binary64.shortest .even rank)
  | _ => ⟨none, [], [], none⟩

/-- The spelling of an integer. -/
def ofInt (i : Int) : Numeral :=
  ⟨if i < 0 then some .minus else none, Decimal.digitChars i.natAbs, [], none⟩

theorem chars_signedExponent (e : Int) :
    (signedExponent e).chars = 'e' :: Decimal.signedExponent e := by
  unfold signedExponent Decimal.signedExponent
  split <;> rfl

theorem wellSpelled_signedExponent (e : Int) : (signedExponent e).WellSpelled where
  mark := .inl rfl
  nonempty := Nat.toDigits_ne_nil
  digits _ hc := isDigit_of_mem_digitChars hc

theorem digitsValue_digitChars (n : Nat) : digitsValue (Decimal.digitChars n) = n :=
  Nat.ofDigitChars_ten_toDigits

theorem value_signedExponent (e : Int) : (signedExponent e).value = e := by
  unfold signedExponent Exponent.value
  by_cases he : e < 0
  · simp only [he, if_true, digitsValue_digitChars]
    omega
  · simp only [he, if_false, digitsValue_digitChars, reduceCtorEq, Option.some.injEq]
    omega

/-- No zero stands in front of the digits of a number but the zero itself. -/
theorem head?_digitChars {n : Nat} (h : n ≠ 0) : (Decimal.digitChars n).head? ≠ some '0' := by
  induction n using Nat.strongRecOn with
  | ind n ih =>
    rw [Decimal.digitChars, Nat.toDigits_eq_if (by omega)]
    split
    · next hlt =>
      have hsmall : ∀ m < 10, m ≠ 0 → [m.digitChar].head? ≠ some '0' := by decide
      exact hsmall n hlt h
    · rw [List.head?_append_of_ne_nil _ Nat.toDigits_ne_nil]
      exact ih (n / 10) (by omega) (by omega)

section Scaled

variable (sign : Option Sign) (d : Decimal)

/-- **A decimal has three layouts**: its digits with zeros and a point behind them, its digits with
    a point among them, and one digit with the others behind a point and with an exponent. -/
theorem ofScaled_cases :
    (0 ≤ d.exponent ∧ d.exponent ≤ 16 ∧
        ofScaled sign d = ⟨sign, Decimal.digitChars d.digits ++
          List.replicate d.exponent.toNat '0', ['0'], none⟩ ∧
        d.scaled = Decimal.digitChars d.digits ++ List.replicate d.exponent.toNat '0' ++
          ['.', '0']) ∨
      (d.exponent < 0 ∧ ofScaled sign d = ofDecimal sign d ∧ d.scaled = d.plain) ∨
      ∃ c cs e, Decimal.digitChars d.digits = c :: cs ∧ e - cs.length = d.exponent ∧
        ofScaled sign d = ⟨sign, [c], cs, some (signedExponent e)⟩ ∧
        d.scaled = c :: (fractionChars cs ++ 'e' :: Decimal.signedExponent e) := by
  have hne : Decimal.digitChars d.digits ≠ [] := Nat.toDigits_ne_nil
  obtain ⟨c, cs, hds⟩ := List.exists_cons_of_ne_nil hne
  unfold ofScaled Decimal.scaled
  rw [hds]
  dsimp only
  by_cases hrange : (-5 < ((c :: cs).length + d.exponent : Int) &&
      ((c :: cs).length + d.exponent : Int) ≤ 16) = true
  · rw [if_pos hrange, if_pos hrange]
    by_cases hexp : 0 ≤ d.exponent
    · rw [if_pos hexp, if_pos hexp]
      simp only [Bool.and_eq_true, decide_eq_true_eq] at hrange
      exact .inl ⟨hexp, by omega, rfl, rfl⟩
    · rw [if_neg hexp, if_neg hexp, Decimal.plain, if_neg hexp, hds]
      exact .inr (.inl ⟨Int.not_le.mp hexp, rfl, rfl⟩)
  · rw [if_neg hrange, if_neg hrange]
    refine .inr (.inr ⟨c, cs, _, rfl, ?_, rfl, ?_⟩)
    · rw [List.length_cons]
      omega
    · cases cs <;> rfl

theorem wellSpelled_ofScaled : (ofScaled sign d).WellSpelled := by
  have hdigits : ∀ c ∈ Decimal.digitChars d.digits, c.isDigit = true :=
    fun c hc => isDigit_of_mem_digitChars hc
  rcases ofScaled_cases sign d with ⟨-, -, h, -⟩ | ⟨-, h, -⟩ | ⟨c, cs, e, hds, -, h, -⟩
  · rw [h]
    refine ⟨List.append_ne_nil_of_left_ne_nil Nat.toDigits_ne_nil _, fun c hc => ?_, ?_, nofun⟩
    · rcases List.mem_append.mp hc with hc | hc
      · exact hdigits c hc
      · rw [List.eq_of_mem_replicate hc]
        rfl
    · exact List.forall_mem_singleton.mpr rfl
  · rw [h]
    exact wellSpelled_ofDecimal sign d
  · rw [h]
    rw [hds] at hdigits
    refine ⟨List.cons_ne_nil c [], fun x hx => ?_, fun x hx => ?_, fun x hx => ?_⟩
    · rw [List.mem_singleton.mp hx]
      exact hdigits c List.mem_cons_self
    · exact hdigits x (List.mem_cons_of_mem c hx)
    · cases hx
      exact wellSpelled_signedExponent e

theorem chars_ofScaled : (ofScaled sign d).chars = Sign.chars sign ++ d.scaled := by
  rcases ofScaled_cases sign d with
    ⟨-, -, h, htext⟩ | ⟨-, h, htext⟩ | ⟨c, cs, e, -, -, h, htext⟩
  · rw [h, htext]
    simp [chars, fractionChars]
  · rw [h, htext, chars_ofDecimal]
  · rw [h, htext]
    simp [chars, chars_signedExponent]

/-- What is written as a fraction or with an exponent is not mistaken for an integer. -/
theorem isInteger_ofScaled : (ofScaled sign d).isInteger = false := by
  rcases ofScaled_cases sign d with ⟨-, -, h, -⟩ | ⟨hexp, h, -⟩ | ⟨c, cs, e, -, -, h, -⟩
  · rw [h]
    rfl
  · rw [h]
    simp [isInteger, fraction_ofDecimal_ne_nil sign d hexp]
  · rw [h]
    simp [isInteger]

theorem sign_ofScaled : (ofScaled sign d).sign = sign := by
  rcases ofScaled_cases sign d with ⟨-, -, h, -⟩ | ⟨-, h, -⟩ | ⟨c, cs, e, -, -, h, -⟩
  · rw [h]
  · rw [h, sign_ofDecimal]
  · rw [h]

theorem isStrict_ofScaled (hsign : sign ≠ some .plus) (hzero : d.digits = 0 → d.exponent = 0) :
    (ofScaled sign d).IsStrict := by
  refine ⟨by rwa [sign_ofScaled], ?_⟩
  have hhead : d.digits ≠ 0 → (Decimal.digitChars d.digits).head? ≠ some '0' := head?_digitChars
  have hne : Decimal.digitChars d.digits ≠ [] := Nat.toDigits_ne_nil
  rcases ofScaled_cases sign d with ⟨-, -, h, -⟩ | ⟨hexp, h, -⟩ | ⟨c, cs, e, -, -, h, -⟩
  · rw [h, List.head?_append_of_ne_nil _ hne]
    intro hfirst
    have hdigits : d.digits = 0 := by
      by_contra hdigits
      exact hhead hdigits hfirst
    simp [hdigits, hzero hdigits, Decimal.digitChars]
  · have hdigits : d.digits ≠ 0 := fun hdigits => by
      rw [hzero hdigits] at hexp
      omega
    rw [h, ofDecimal, if_neg (Int.not_le.mpr hexp)]
    intro hfirst
    -- either zeros were put in front, up to one of them before the point, or none was
    by_cases hpad : (Decimal.digitChars d.digits).length ≤ (-d.exponent).toNat
    · simp only [paddedDigits, List.length_take, List.length_append, List.length_replicate]
      omega
    · have hnone : (-d.exponent).toNat + 1 - (Decimal.digitChars d.digits).length = 0 := by omega
      have hpadded : paddedDigits d = Decimal.digitChars d.digits := by
        rw [paddedDigits, hnone]
        rfl
      rw [hpadded, List.head?_take, if_neg (by omega)] at hfirst
      exact absurd hfirst (hhead hdigits)
  · rw [h]
    exact fun _ => rfl

/-- **The spelling of a decimal has the rank of the decimal.** -/
theorem rank_decimal_ofScaled (h : d.exponent ≤ 400) :
    (ofScaled sign d).decimal.rank = d.rank := by
  rcases ofScaled_cases sign d with ⟨hexp, -, hlayout, -⟩ | ⟨-, hlayout, -⟩ |
    ⟨c, cs, e, hds, hshift, hlayout, -⟩
  · have hzeros : List.replicate d.exponent.toNat '0' ++ ['0'] =
        List.replicate (d.exponent.toNat + 1) '0' := List.replicate_succ'.symm
    have hdigits : digitsValue (Decimal.digitChars d.digits ++
        List.replicate d.exponent.toNat '0' ++ ['0']) =
          10 * (d.digits * 10 ^ d.exponent.toNat) := by
      rw [List.append_assoc, hzeros, digitsValue, Nat.ofDigitChars_append,
        Nat.ofDigitChars_replicate_zero, Decimal.digitChars, Nat.ofDigitChars_ten_toDigits]
      ring
    have hdecimal : (ofScaled sign d).decimal = ⟨10 * (d.digits * 10 ^ d.exponent.toNat), -1⟩ := by
      rw [hlayout, decimal, hdigits]
      rfl
    rw [hdecimal, Binary64.rank_tenfold, rank_written_out hexp h]
  · rw [hlayout]
    exact rank_decimal_ofDecimal sign d h
  · have hdecimal : (ofScaled sign d).decimal = d := by
      rw [hlayout, decimal]
      simp only [List.singleton_append, ← hds, digitsValue_digitChars, Option.map_some,
        Option.getD_some, value_signedExponent, hshift]
    rw [hdecimal]

end Scaled

section Real

variable {x : Binary64} (h : x.isFinite = true)

include h

theorem wellSpelled_ofReal : (ofReal x).WellSpelled := by
  cases x with
  | finite negative rank => exact wellSpelled_ofScaled _ _
  | infinity _ => cases h
  | nan => cases h

theorem isStrict_ofReal : (ofReal x).IsStrict := by
  cases x with
  | finite negative rank =>
    refine isStrict_ofScaled _ _ ?_ (Binary64.shortest_of_digits .even rank)
    cases negative <;> decide
  | infinity _ => cases h
  | nan => cases h

theorem isInteger_ofReal : (ofReal x).isInteger = false := by
  cases x with
  | finite negative rank => exact isInteger_ofScaled _ _
  | infinity _ => cases h
  | nan => cases h

theorem chars_ofReal : x.scaledChars? = some (ofReal x).chars := by
  cases x with
  | finite negative rank =>
    rw [ofReal, chars_ofScaled, Binary64.scaledChars?]
    cases negative <;> rfl
  | infinity _ => cases h
  | nan => cases h

/-- **What a number is written with has the number itself as its value.** -/
theorem value_ofReal : (ofReal x).value = x := by
  cases x with
  | finite negative rank =>
    have hexp : (Binary64.shortest .even rank).exponent ≤ 400 :=
      Int.le_trans (Binary64.exponent_shortest_le .even rank.isLt) (by omega)
    rw [value, Binary64.ofDecimal, ofReal, rank_decimal_ofScaled _ _ hexp, Binary64.rank_shortest,
      Binary64.ofRank, dif_pos rank.isLt, isNegative, sign_ofScaled]
    cases negative <;> rfl
  | infinity _ => cases h
  | nan => cases h

end Real

/-! ## 3. Numerals in a JSON text -/

theorem wellSpelled_ofInt (i : Int) : (ofInt i).WellSpelled :=
  ⟨Nat.toDigits_ne_nil, fun _ hc => isDigit_of_mem_digitChars hc, nofun, nofun⟩

theorem isStrict_ofInt (i : Int) : (ofInt i).IsStrict := by
  refine ⟨?_, fun hfirst => ?_⟩
  · show (if i < 0 then some Sign.minus else none) ≠ some .plus
    split <;> simp
  · have hzero : i.natAbs = 0 := by
      by_contra hne
      exact head?_digitChars hne hfirst
    simp [ofInt, hzero, Decimal.digitChars]

end Numeral

namespace Json

/-- A character that may go on with a numeral. -/
def goesOn (c : Char) : Bool := c.isDigit || c == '.' || c == 'e' || c == 'E'

/-- **A strict numeral is read where it is spelled** and nothing goes on with it. -/
theorem numeral?_append {n : Numeral} (hn : n.WellSpelled) (hs : n.IsStrict) {rest : List Char}
    (hstop : beginsWith goesOn rest = false) : numeral? (n.chars ++ rest) = some n := by
  have hbreaks : breaksOff n rest = false := by
    cases rest with
    | nil => rfl
    | cons c cs =>
      simp only [beginsWith_cons, goesOn, Bool.or_eq_false_iff, beq_eq_false_iff_ne] at hstop
      simp [breaksOff, hstop]
  have hstrict : (n.whole.head? != some '0' || n.whole.length = 1) = true := by
    rw [Bool.or_eq_true, bne_iff_ne, decide_eq_true_eq]
    exact Decidable.not_or_of_imp hs.2
  have hplus : (n.sign != some .plus) = true := bne_iff_ne.mpr hs.1
  rw [numeral?, Numeral.scan?_append hn (n.endsBefore_of_stop hstop), Option.filter_some,
    List.drop_left, hbreaks, hstrict, hplus]
  rfl

/-- A strict numeral begins with a minus sign or a digit. -/
theorem exists_chars_eq_cons {n : Numeral} (hn : n.WellSpelled) (hs : n.IsStrict) :
    ∃ c cs, n.chars = c :: cs ∧ (c = '-' ∨ c.isDigit = true) := by
  obtain ⟨d, ds, hwhole⟩ := List.exists_cons_of_ne_nil hn.nonempty
  have hd : d.isDigit = true := hn.whole d (hwhole ▸ List.mem_cons_self)
  cases hsign : n.sign with
  | none => exact ⟨d, _, by rw [Numeral.chars, hsign, hwhole]; rfl, .inr hd⟩
  | some s =>
    cases s with
    | plus => exact absurd hsign hs.1
    | minus => exact ⟨'-', _, by rw [Numeral.chars, hsign]; rfl, .inl rfl⟩

/-- What begins with a minus sign or a digit is a numeral or nothing. -/
theorem nextToken_of_digit {c : Char} (h : c = '-' ∨ c.isDigit = true) (cs : List Char) :
    nextToken c cs =
      match numeral? (c :: cs) with
      | some n => (some (.scalar (.number (.ofNumeral n))), n.chars.length - 1)
      | none => (some .broken, 0) := by
  have hother : ∀ d : Char, d.isDigit = false → d ≠ '-' → c ≠ d := by
    rintro d hd hne rfl
    rcases h with hminus | hdigit
    · exact hne hminus
    · rw [hd] at hdigit
      cases hdigit
  have hgap : isGap c = false := by
    simp [isGap, hother ' ' rfl (by decide), hother '\n' rfl (by decide),
      hother '\t' rfl (by decide), hother '\r' rfl (by decide)]
  have hmark : Token.ofChar? c = none := by
    unfold Token.ofChar?
    split
    · exact absurd rfl (hother '[' rfl (by decide))
    · exact absurd rfl (hother ']' rfl (by decide))
    · exact absurd rfl (hother '\x7b' rfl (by decide))
    · exact absurd rfl (hother '\x7d' rfl (by decide))
    · exact absurd rfl (hother ',' rfl (by decide))
    · exact absurd rfl (hother ':' rfl (by decide))
    · rfl
  unfold nextToken
  simp only [hgap, hmark, if_neg (hother '"' rfl (by decide)), Bool.false_eq_true, if_false]
  split
  · exact absurd rfl (hother 'n' rfl (by decide))
  · exact absurd rfl (hother 't' rfl (by decide))
  · exact absurd rfl (hother 'f' rfl (by decide))
  · rfl

/-! ## 4. Strings in a JSON text -/

/-- An escape of one letter is read as the character that it stands for. -/
theorem stringUnits?_escape {c e : Char} (h : unescapedChar? e = some c) (cs : List Char) :
    stringUnits? ('\\' :: e :: cs) =
      (stringUnits? cs).map fun r => (.char c :: r.1, r.2 + 2) := by
  have hne : e ≠ 'u' := by
    rintro rfl
    cases h
  rw [stringUnits?, h]
  · cases stringUnits? cs <;> rfl
  · simp [hne]

/-- A control character is read from its code. -/
theorem stringUnits?_code {n : Nat} (h : n < 0x20) (cs : List Char) :
    stringUnits? ('\\' :: 'u' :: '0' :: '0' :: hexChar (n / 16) :: hexChar (n % 16) :: cs) =
      (stringUnits? cs).map fun r => (.unit n :: r.1, r.2 + 6) := by
  have hvalue : ∀ n < 0x20, hexValues? ['0', '0', hexChar (n / 16), hexChar (n % 16)] = some n := by
    decide
  rw [stringUnits?, hvalue n h]
  cases stringUnits? cs <;> rfl

/-- Any other character is read as itself. -/
theorem stringUnits?_plain {c : Char} (hquote : c ≠ '"') (hback : c ≠ '\\') (h : ¬ c.toNat < 0x20)
    (cs : List Char) :
    stringUnits? (c :: cs) = (stringUnits? cs).map fun r => (.char c :: r.1, r.2 + 1) := by
  rw [stringUnits?]
  · cases stringUnits? cs <;> simp [h, hback]
  all_goals simp [hquote, hback]

/-- A code below the surrogates is a character by itself. -/
theorem joinUnits_code {n : Nat} (h : n < 0x20) (us : List StringUnit) :
    joinUnits (.unit n :: us) = (Char.ofNat n :: ·) <$> joinUnits us := by
  have hhigh : isHighUnit n = false := by simp [isHighUnit]; omega
  have hlow : isLowUnit n = false := by simp [isLowUnit]; omega
  cases us with
  | nil => simp [joinUnits, hhigh, hlow]
  | cons u us => cases u <;> simp [joinUnits, hhigh, hlow]

/-- **A character is written in one of three ways**: as an escape of one letter, with its code, or
    as it is. -/
theorem stringChar_cases (c : Char) :
    (∃ e, unescapedChar? e = some c ∧ stringChar c = ['\\', e]) ∨
      (c.toNat < 0x20 ∧ stringChar c =
        ['\\', 'u', '0', '0', hexChar (c.toNat / 16), hexChar (c.toNat % 16)]) ∨
      (c ≠ '"' ∧ c ≠ '\\' ∧ ¬ c.toNat < 0x20 ∧ stringChar c = [c]) := by
  have hcode : ∀ n, c.toNat = n → Char.ofNat n = c := by
    rintro _ rfl
    exact Char.ofNat_toNat c
  unfold stringChar
  split
  · next h => exact .inl ⟨'"', by rw [h]; rfl, rfl⟩
  split
  · next h => exact .inl ⟨'\\', by rw [h]; rfl, rfl⟩
  split
  · next h => exact .inl ⟨'n', by rw [h]; rfl, rfl⟩
  split
  · next h => exact .inl ⟨'t', by rw [h]; rfl, rfl⟩
  split
  · next h => exact .inl ⟨'r', by rw [h]; rfl, rfl⟩
  split
  · next h => exact .inl ⟨'b', by rw [← hcode _ h]; rfl, rfl⟩
  split
  · next h => exact .inl ⟨'f', by rw [← hcode _ h]; rfl, rfl⟩
  split
  · next h => exact .inr (.inl ⟨h, rfl⟩)
  · next hquote hback _ _ _ _ _ h => exact .inr (.inr ⟨hquote, hback, h, rfl⟩)

/-- A character is read back from what it is written as. -/
theorem stringUnits?_stringChar (c : Char) (cs : List Char) :
    ∃ u : StringUnit, (∀ us, joinUnits (u :: us) = (c :: ·) <$> joinUnits us) ∧
      stringUnits? (stringChar c ++ cs) =
        (stringUnits? cs).map fun r => (u :: r.1, r.2 + (stringChar c).length) := by
  rcases stringChar_cases c with
    ⟨e, he, hchars⟩ | ⟨hcode, hchars⟩ | ⟨hquote, hback, hplain, hchars⟩
  · rw [hchars]
    exact ⟨.char c, fun _ => rfl, stringUnits?_escape he cs⟩
  · rw [hchars]
    refine ⟨.unit c.toNat, fun us => ?_, stringUnits?_code hcode cs⟩
    rw [joinUnits_code hcode, Char.ofNat_toNat]
  · rw [hchars]
    exact ⟨.char c, fun _ => rfl, stringUnits?_plain hquote hback hplain cs⟩

/-- The units of the text of a string are the characters of the string. -/
theorem exists_stringUnits (body rest : List Char) :
    ∃ us, joinUnits us = some body ∧
      stringUnits? (body.flatMap stringChar ++ '"' :: rest) =
        some (us, (body.flatMap stringChar).length + 1) := by
  induction body with
  | nil => exact ⟨[], rfl, rfl⟩
  | cons c body ih =>
    obtain ⟨us, hus, hread⟩ := ih
    obtain ⟨u, hu, hfirst⟩ := stringUnits?_stringChar c (body.flatMap stringChar ++ '"' :: rest)
    refine ⟨u :: us, ?_, ?_⟩
    · rw [hu, hus]
      rfl
    · rw [List.flatMap_cons, List.append_assoc, hfirst, hread, Option.map_some, List.length_append]
      simp only [Option.some.injEq, Prod.mk.injEq, true_and]
      omega

/-- A string is read where it is written. -/
theorem nextToken_string (s : String) (rest : List Char) :
    nextToken '"' (s.toList.flatMap stringChar ++ '"' :: rest) =
      (some (.scalar (.string s)), (s.toList.flatMap stringChar).length + 1) := by
  obtain ⟨us, hus, hread⟩ := exists_stringUnits s.toList rest
  have htoken : stringToken? (s.toList.flatMap stringChar ++ '"' :: rest) =
      some (.scalar (.string s), (s.toList.flatMap stringChar).length + 1) := by
    simp [stringToken?, hread, hus]
  unfold nextToken
  simp [isGap, Token.ofChar?, htoken]

/-! ## 5. Values in a JSON text -/

mutual

/-- Whether a text can tell all numbers of a value: its integers are of 64 bits, and its other
    numbers are finite. -/
def isExact : Json → Bool
  | .number (.integer i) => Number.fits i
  | .number (.real x) => x.isFinite
  | .array items => itemsExact items
  | .object members => membersExact members
  | .null | .bool _ | .string _ => true

/-- Whether a text can tell all numbers of the items of an array. -/
def itemsExact : List Json → Bool
  | [] => true
  | v :: vs => isExact v && itemsExact vs

/-- Whether a text can tell all numbers of the members of an object. -/
def membersExact : List (String × Json) → Bool
  | [] => true
  | (_, v) :: ms => isExact v && membersExact ms

end

/-- The text is read as the tokens in front of whatever does not go on with a numeral. -/
def Tokenizes (w : List Char) (ts : List Token) : Prop :=
  ∀ rest, beginsWith goesOn rest = false →
    Token.ofChars (w ++ rest) = ts ++ Token.ofChars rest

theorem ofChars_cons {c : Char} {cs : List Char} {t : Token} {k : Nat}
    (h : nextToken c cs = (some t, k)) :
    Token.ofChars (c :: cs) = t :: Token.ofChars (cs.drop k) := by
  rw [Token.ofChars, cut_cons, h]
  rfl

/-- A punctuation character is a token by itself. -/
theorem ofChars_mark {c : Char} {t : Token} (h : Token.ofChar? c = some t) (hgap : isGap c = false)
    (cs : List Char) : Token.ofChars (c :: cs) = t :: Token.ofChars cs := by
  refine ofChars_cons (k := 0) ?_
  unfold nextToken
  simp [hgap, h]

theorem tokenizes_numeral {n : Numeral} (hn : n.WellSpelled) (hs : n.IsStrict) :
    Tokenizes n.chars [.scalar (.number (.ofNumeral n))] := by
  intro rest hstop
  obtain ⟨c, cs, hchars, hc⟩ := exists_chars_eq_cons hn hs
  have hread := numeral?_append hn hs hstop
  rw [hchars, List.cons_append] at hread
  have hnext : nextToken c (cs ++ rest) = (some (.scalar (.number (.ofNumeral n))), cs.length) := by
    rw [nextToken_of_digit hc, hread]
    show (_, n.chars.length - 1) = _
    rw [hchars]
    rfl
  rw [hchars, List.cons_append, ofChars_cons hnext, List.drop_left]
  rfl

/-- An integer of 64 bits is what its spelling stands for. -/
theorem ofNumeral_ofInt {i : Int} (h : Number.fits i = true) :
    Number.ofNumeral (.ofInt i) = .integer i := by
  have hinteger : (Numeral.ofInt i).integer = i := by
    unfold Numeral.ofInt Numeral.integer
    rw [Numeral.digitsValue_digitChars]
    by_cases hneg : i < 0
    · simp only [hneg, if_true, Numeral.isNegative]
      exact (Int.eq_neg_natAbs_of_nonpos (by omega)).symm
    · simp only [hneg, if_false, Numeral.isNegative]
      exact Int.natAbs_of_nonneg (by omega)
  have hzero : ((Numeral.ofInt i).isNegative && i == 0) = false := by
    by_cases hneg : i < 0
    · have hne : i ≠ 0 := by omega
      simp [hne]
    · simp [Numeral.isNegative, Numeral.ofInt, hneg]
  have hisInteger : (Numeral.ofInt i).isInteger = true := rfl
  rw [Number.ofNumeral, hinteger, hisInteger, h, hzero]
  rfl

/-- The text of an exact number is read as the number. -/
theorem tokenizes_number {n : Number} (h : isExact (.number n) = true) :
    Tokenizes n.chars [.scalar (.number n)] := by
  cases n with
  | integer i =>
    have hchars : (Number.integer i).chars = (Numeral.ofInt i).chars := by
      rw [Number.chars, Numeral.ofInt, Numeral.chars]
      split <;> simp [Sign.chars, Sign.char, Numeral.fractionChars]
    rw [hchars, ← ofNumeral_ofInt h]
    exact tokenizes_numeral (Numeral.wellSpelled_ofInt i) (Numeral.isStrict_ofInt i)
  | real x =>
    have hchars : (Number.real x).chars = (Numeral.ofReal x).chars := by
      rw [Number.chars, Numeral.chars_ofReal h]
      rfl
    have hnumber : Number.ofNumeral (.ofReal x) = .real x := by
      rw [Number.ofNumeral, Numeral.isInteger_ofReal h, Numeral.value_ofReal h]
      rfl
    rw [hchars, ← hnumber]
    exact tokenizes_numeral (Numeral.wellSpelled_ofReal h) (Numeral.isStrict_ofReal h)

theorem tokenizes_string (s : String) : Tokenizes (stringChars s) [.scalar (.string s)] := by
  intro rest _
  have htext : stringChars s ++ rest = '"' :: (s.toList.flatMap stringChar ++ '"' :: rest) := by
    simp [stringChars]
  rw [htext, ofChars_cons (nextToken_string s rest), ← List.drop_drop, List.drop_left]
  rfl

theorem Tokenizes.append {w w' : List Char} {ts ts' : List Token} (h : Tokenizes w ts)
    (h' : Tokenizes w' ts')
    (hstop : ∀ rest, beginsWith goesOn rest = false → beginsWith goesOn (w' ++ rest) = false) :
    Tokenizes (w ++ w') (ts ++ ts') := by
  intro rest hrest
  rw [List.append_assoc, h _ (hstop rest hrest), h' rest hrest, List.append_assoc]

/-- Punctuation ends whatever stands before it. -/
theorem Tokenizes.mark {c : Char} {t : Token} (h : Token.ofChar? c = some t)
    (hgap : isGap c = false) {w : List Char} {ts : List Token} (hw : Tokenizes w ts) :
    Tokenizes (c :: w) (t :: ts) := by
  intro rest hrest
  rw [List.cons_append, ofChars_mark h hgap, hw rest hrest]
  rfl

theorem tokenizes_nil : Tokenizes [] [] := fun _ _ => rfl

/-- Pieces with commas between them are read piece by piece. -/
theorem tokenizes_separatedBy {ws : List (List Char)} {tss : List (List Token)}
    (h : List.Forall₂ Tokenizes ws tss) :
    Tokenizes (separatedBy ',' ws) (separatedBy .comma tss) := by
  have hstop : ∀ (ws : List (List Char)) (rest : List Char), beginsWith goesOn rest = false →
      beginsWith goesOn (ws.flatMap (',' :: ·) ++ rest) = false := by
    intro ws rest hrest
    cases ws with
    | nil => exact hrest
    | cons w ws => rfl
  have hrow : ∀ {ws : List (List Char)} {tss : List (List Token)},
      List.Forall₂ Tokenizes ws tss →
        Tokenizes (ws.flatMap (',' :: ·)) (tss.flatMap (.comma :: ·)) := by
    intro ws tss h
    induction h with
    | nil => exact tokenizes_nil
    | cons hw _ ih => exact (hw.mark rfl rfl).append ih (hstop _)
  cases h with
  | nil => exact tokenizes_nil
  | cons hw hws =>
    rw [separatedBy_cons, separatedBy_cons]
    exact hw.append (hrow hws) (hstop _)

/-- What is put between two marks is read between them. -/
theorem Tokenizes.enclosed {c d : Char} {t u : Token} (hc : Token.ofChar? c = some t)
    (hgap : isGap c = false) (hd : Token.ofChar? d = some u) (hgap' : isGap d = false)
    (hends : goesOn d = false) {w : List Char} {ts : List Token} (hw : Tokenizes w ts) :
    Tokenizes (c :: w ++ [d]) (t :: ts ++ [u]) :=
  (hw.mark hc hgap).append (tokenizes_nil.mark hd hgap') fun _ _ => hends

mutual

/-- **The text of an exact value is read as its tokens**, in front of whatever does not go on with a
    numeral. -/
theorem tokenizes_chars : ∀ j : Json, j.isExact = true → Tokenizes j.chars j.tokens
  | .null, _ => fun _ _ => ofChars_cons (k := 3) rfl
  | .bool true, _ => fun _ _ => ofChars_cons (k := 3) rfl
  | .bool false, _ => fun _ _ => ofChars_cons (k := 4) rfl
  | .number _, h => tokenizes_number h
  | .string s, _ => tokenizes_string s
  | .array items, h =>
    (tokenizes_separatedBy (tokenizes_items items h)).enclosed rfl rfl rfl rfl rfl
  | .object members, h =>
    (tokenizes_separatedBy (tokenizes_members members h)).enclosed rfl rfl rfl rfl rfl

theorem tokenizes_items : ∀ vs : List Json, itemsExact vs = true →
    List.Forall₂ Tokenizes (itemsChars vs) (itemsTokens vs)
  | [], _ => .nil
  | v :: vs, h => by
    rw [itemsExact, Bool.and_eq_true] at h
    exact .cons (tokenizes_chars v h.1) (tokenizes_items vs h.2)

theorem tokenizes_members : ∀ ms : List (String × Json), membersExact ms = true →
    List.Forall₂ Tokenizes (membersChars ms) (membersTokens ms)
  | [], _ => .nil
  | (k, v) :: ms, h => by
    rw [membersExact, Bool.and_eq_true] at h
    have hvalue : Tokenizes (':' :: v.chars) (.colon :: v.tokens) :=
      (tokenizes_chars v h.1).mark rfl rfl
    exact .cons ((tokenizes_string k).append hvalue fun _ _ => rfl) (tokenizes_members ms h.2)

end

/-- **The tokens of the text of a value are the tokens of the value.** -/
theorem ofChars_chars {j : Json} (h : j.isExact = true) : Token.ofChars j.chars = j.tokens := by
  have hread := tokenizes_chars j h [] rfl
  rwa [List.append_nil, show Token.ofChars [] = [] from rfl, List.append_nil] at hread

theorem itemsExact_iff {vs : List Json} : itemsExact vs = true ↔ ∀ v ∈ vs, v.isExact = true := by
  induction vs with
  | nil => simp [itemsExact]
  | cons v vs ih => simp [itemsExact, ih]

theorem membersExact_iff {ms : List (String × Json)} :
    membersExact ms = true ↔ ∀ m ∈ ms, m.2.isExact = true := by
  induction ms with
  | nil => simp [membersExact]
  | cons m ms ih => simp [membersExact, ih]

end Json

/-! ## 6. What travels -/

/-- **What is read of the text of an exact value is what the value was sent as.** -/
theorem Payload.ofText_text {j : Json} (h : j.isExact = true) : ofText j.text = ofJson j := by
  rw [ofText, ofJson, Json.text, String.toList_ofList, Json.ofChars_chars h]

theorem Term.isExact_toJson (t : Term) : t.toJson.isExact = true := by
  cases t with
  | literal v =>
    cases v with
    | number x =>
      cases hx : x.isFinite <;>
        simp [toJson, Literal.toJson, hx, Json.isExact, Json.membersExact]
    | _ => rfl
  | _ => rfl

theorem Sentence.isExact_toJson (s : Sentence) : s.toJson.isExact = true := by
  refine Json.itemsExact_iff.mpr fun j hj => ?_
  obtain ⟨t, -, rfl⟩ := List.mem_map.mp hj
  exact t.isExact_toJson

theorem Sentence.isExact_listToJson (ss : List Sentence) : (listToJson ss).isExact = true := by
  refine Json.itemsExact_iff.mpr fun j hj => ?_
  obtain ⟨s, -, rfl⟩ := List.mem_map.mp hj
  exact s.isExact_toJson

theorem FlushRequest.isExact_toJson (r : FlushRequest) : r.toJson.isExact = true := by
  simp [toJson, Json.isExact, Json.membersExact, Sentence.isExact_listToJson]

theorem Bindings.isExact_toJson (b : Bindings) : (Bindings.toJson b).isExact = true := by
  refine Json.membersExact_iff.mpr fun m hm => ?_
  obtain ⟨e, -, rfl⟩ := List.mem_map.mp hm
  exact e.2.isExact_toJson

namespace Server

/-- A request is read as its text is. -/
def Request.ReadsText : Request → Prop
  | .select query => query = .ofText query.text
  | .flush batch => batch = .ofText batch.text
  | .forget _ | .listFacts => True

/-- **What a client sends is read as its text is.** -/
theorem readsText_request (id : String) (call : Call) :
    (RemoteClient.request id call).ReadsText := by
  cases call with
  | apply retractions assertions => exact (Payload.ofText_text (FlushRequest.isExact_toJson _)).symm
  | select patterns => exact (Payload.ofText_text (Sentence.isExact_listToJson _)).symm
  | forgetAbout name => trivial
  | forgetMine => trivial
  | listFacts => trivial

/-- The answer to a result is the value of the result, or the report of a failure. -/
theorem json_respond {α : Type} {toJson : α → Json} {x : Except Failure α} {j : Json}
    (h : (respond toJson x).json = some j) :
    (∃ a, x = .ok a ∧ j = toJson a) ∨ ∃ f, j = (ErrorResponse.ofFailure f).toJson := by
  cases x with
  | ok a => exact .inl ⟨a, rfl, (Option.some.inj h).symm⟩
  | error f => exact .inr ⟨f, (Option.some.inj h).symm⟩

/-- A value with counts is exact, or one of them is past 64 bits. -/
theorem exact_or_counts (n m : Nat) :
    ((FlushResponse.mk okStatus n m).toJson.isExact = true ∧
        (ForgetResponse.mk okStatus n).toJson.isExact = true) ∨ ¬ (n < 2 ^ 64 ∧ m < 2 ^ 64) := by
  by_cases h : n < 2 ^ 64 ∧ m < 2 ^ 64
  · have hfits : ∀ k : Nat, k < 2 ^ 64 → Json.Number.fits k = true := by
      intro k hk
      simp only [Json.Number.fits, Bool.and_eq_true, decide_eq_true_eq]
      omega
    refine .inl ⟨?_, ?_⟩
    · simp [FlushResponse.toJson, Json.isExact, Json.membersExact, Json.ofNat, hfits n h.1,
        hfits m h.2]
    · simp [ForgetResponse.toJson, Json.isExact, Json.membersExact, Json.ofNat, hfits n h.1]
  · exact .inr h

/-- **What a server answers is read as its text is**, unless it counts past 64 bits. -/
theorem readsText_answer {s : Store} {r : Request} {j : Json}
    (h : (answer s r).1.json = some j) :
    Payload.ofText j.text = Payload.ofJson j ∨
      ∃ n m : Nat, ¬ (n < 2 ^ 64 ∧ m < 2 ^ 64) ∧ (j = (FlushResponse.mk okStatus n m).toJson ∨
        j = (ForgetResponse.mk okStatus n).toJson) := by
  have hfailed : ∀ f, Payload.ofText (ErrorResponse.ofFailure f).toJson.text =
      Payload.ofJson (ErrorResponse.ofFailure f).toJson := fun _ => Payload.ofText_text rfl
  cases r with
  | select query =>
    rcases json_respond h with ⟨found, -, rfl⟩ | ⟨f, rfl⟩
    · refine .inl (Payload.ofText_text (Json.itemsExact_iff.mpr fun v hv => ?_))
      obtain ⟨b, -, rfl⟩ := List.mem_map.mp hv
      exact Bindings.isExact_toJson b
    · exact .inl (hfailed f)
  | flush batch =>
    rw [answer] at h
    cases hread : FlushRequest.take batch.tokens with
    | error fault =>
      rw [hread] at h
      cases fault <;> cases h
    | ok read =>
      rw [hread] at h
      rcases json_respond h with ⟨o, -, rfl⟩ | ⟨f, rfl⟩
      · rcases exact_or_counts o.retracted o.asserted with ⟨hexact, -⟩ | hlarge
        · exact .inl (Payload.ofText_text hexact)
        · exact .inr ⟨_, _, hlarge, .inl rfl⟩
      · exact .inl (hfailed f)
  | forget params =>
    obtain rfl := Option.some.inj h
    rcases exact_or_counts _ 0 with ⟨-, hexact⟩ | hlarge
    · exact .inl (Payload.ofText_text hexact)
    · exact .inr ⟨_, 0, hlarge, .inr rfl⟩
  | listFacts =>
    obtain rfl := Option.some.inj h
    refine .inl (Payload.ofText_text (Json.itemsExact_iff.mpr fun v hv => ?_))
    obtain ⟨text, -, rfl⟩ := List.mem_map.mp hv
    rfl

end Server

end Blackboard
