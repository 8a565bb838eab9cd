import Blackboard.Term.Basic
import Blackboard.Proofs.Rounding

/-!
# Numerals in a text

Which numeral is read at the front of a text, and which one a finite number is written with.

* A numeral is read exactly where it is spelled and what follows does not go on with it
  (`Numeral.scan?_eq_some_iff`). A sign, a digit, a point or an exponent that stands behind a
  numeral without belonging to it shows in `Numeral.endsBefore`.
* `Numeral.ofNumber` is the spelling of a finite number: its text is the text of the number
  (`chars_ofNumber`) and **its value is the number** (`value_ofNumber`).
* **A number that has a spelling without fraction and exponent is written without a point**
  (`fraction_ofNumber_of_whole`).
-/

namespace Blackboard

/-! ## 1. Runs of characters -/

/-- Whether a text goes on with a character of a kind. -/
def beginsWith (p : Char → Bool) (cs : List Char) : Bool := cs.head?.any p

@[simp] theorem beginsWith_nil (p : Char → Bool) : beginsWith p [] = false := by
  rw [beginsWith, List.head?_nil, Option.any_none]

@[simp] theorem beginsWith_cons (p : Char → Bool) (c : Char) (cs : List Char) :
    beginsWith p (c :: cs) = p c := rfl

theorem beginsWith_append {p : Char → Bool} {w : List Char} (hw : w ≠ []) (rest : List Char) :
    beginsWith p (w ++ rest) = beginsWith p w := by
  cases w with
  | nil => exact absurd rfl hw
  | cons c w => rfl

theorem beginsWith_dropWhile (p : Char → Bool) (cs : List Char) :
    beginsWith p (cs.dropWhile p) = false := by
  induction cs with
  | nil => rfl
  | cons c cs ih =>
    rw [List.dropWhile_cons]
    split
    · exact ih
    · next h => simpa using h

/-- **The run at the front of a text is the characters of a kind that no further one follows.** -/
theorem takeWhile_eq_iff {p : Char → Bool} {cs w : List Char} :
    cs.takeWhile p = w ↔
      (∀ c ∈ w, p c = true) ∧ ∃ rest, cs = w ++ rest ∧ beginsWith p rest = false := by
  constructor
  · rintro rfl
    exact ⟨fun c hc => List.all_eq_true.mp List.all_takeWhile c hc, cs.dropWhile p,
      List.takeWhile_append_dropWhile.symm, beginsWith_dropWhile p cs⟩
  · rintro ⟨hw, rest, rfl, hrest⟩
    rw [List.takeWhile_append_of_pos hw]
    cases rest with
    | nil => simp
    | cons c rest =>
      have hc : ¬p c = true := by simpa using hrest
      simp [List.takeWhile_cons_of_neg hc]

theorem takeWhile_append_of_stop {p : Char → Bool} {w rest : List Char}
    (hw : ∀ c ∈ w, p c = true) (hrest : beginsWith p rest = false) :
    (w ++ rest).takeWhile p = w :=
  takeWhile_eq_iff.mpr ⟨hw, rest, rfl, hrest⟩

/-! ## 2. Signs and exponents -/

/-- Whether a character is a sign. -/
def isSign (c : Char) : Bool := (Sign.ofChar? c).isSome

namespace Sign

@[simp] theorem ofChar?_char (s : Sign) : ofChar? s.char = some s := by
  cases s <;> rfl

theorem ofChar?_eq_some {c : Char} {s : Sign} (h : ofChar? c = some s) : c = s.char := by
  unfold ofChar? at h
  split at h
  · cases h
    rfl
  · cases h
    rfl
  · cases h

theorem scan_append (s : Option Sign) (rest : List Char)
    (h : s = none → beginsWith isSign rest = false) : scan (chars s ++ rest) = (s, rest) := by
  cases s with
  | some s => simp [chars, scan]
  | none =>
    cases rest with
    | nil => rfl
    | cons c rest =>
      have hc : ofChar? c = none := by simpa [isSign] using h rfl
      simp [chars, scan, hc]

theorem chars_append_scan (text : List Char) : chars (scan text).1 ++ (scan text).2 = text := by
  cases text with
  | nil => rfl
  | cons c cs =>
    cases hc : ofChar? c with
    | some s =>
      rw [scan, hc, ofChar?_eq_some hc]
      rfl
    | none =>
      rw [scan, hc]
      rfl

theorem isDigit_char (s : Sign) : s.char.isDigit = false := by
  cases s <;> rfl

theorem eq_plus_or_minus_of_isSign {c : Char} (h : isSign c = true) : c = '+' ∨ c = '-' := by
  obtain ⟨s, hs⟩ := Option.isSome_iff_exists.mp h
  rw [ofChar?_eq_some hs]
  cases s with
  | plus => exact Or.inl rfl
  | minus => exact Or.inr rfl

end Sign

theorem isSign_of_isDigit {c : Char} (h : c.isDigit = true) : isSign c = false := by
  cases hs : isSign c with
  | false => rfl
  | true =>
    rcases Sign.eq_plus_or_minus_of_isSign hs with rfl | rfl
    · cases h
    · cases h

theorem beginsWith_isSign_of_digits {ds : List Char} (hne : ds ≠ [])
    (hds : ∀ c ∈ ds, c.isDigit = true) (rest : List Char) :
    beginsWith isSign (ds ++ rest) = false := by
  cases ds with
  | nil => exact absurd rfl hne
  | cons c ds => exact isSign_of_isDigit (hds c List.mem_cons_self)

namespace Exponent

/-- An exponent as it can be spelled. -/
structure WellSpelled (e : Exponent) : Prop where
  mark : e.mark = 'e' ∨ e.mark = 'E'
  nonempty : e.digits ≠ []
  digits : ∀ c ∈ e.digits, c.isDigit = true

theorem scan?_eq_some_iff {text : List Char} {e : Exponent} :
    scan? text = some e ↔ e.WellSpelled ∧
      ∃ rest, text = e.chars ++ rest ∧ beginsWith Char.isDigit rest = false := by
  constructor
  · intro h
    cases text with
    | nil => cases h
    | cons c cs =>
      simp only [scan?] at h
      split at h
      · next hmark =>
        obtain ⟨hdigits, rest, hrest, hstop⟩ :=
          takeWhile_eq_iff.mp (rfl : (Sign.scan cs).2.takeWhile Char.isDigit = _)
        split at h
        · cases h
        · next hne =>
          cases h
          refine ⟨⟨by simpa using hmark, by simpa using hne, hdigits⟩, rest, ?_, hstop⟩
          simp only [chars, List.cons_append, List.append_assoc]
          rw [← hrest, Sign.chars_append_scan]
      · cases h
  · rintro ⟨⟨hmark, hne, hdigits⟩, rest, rfl, hstop⟩
    have hscan := Sign.scan_append e.sign (e.digits ++ rest)
      fun _ => beginsWith_isSign_of_digits hne hdigits rest
    have hmark' : (e.mark = 'e' || e.mark = 'E') = true := by simpa using hmark
    simp only [chars, List.cons_append, List.append_assoc, scan?, hmark', if_true, hscan,
      takeWhile_append_of_stop hdigits hstop]
    simp [hne]

/-- An exponent begins with its mark. -/
theorem scan?_eq_none_of_head {c : Char} (cs : List Char) (h : ¬(c = 'e' ∨ c = 'E')) :
    scan? (c :: cs) = none := by
  rw [scan?, if_neg (by simpa using h)]

end Exponent

/-! ## 3. Numerals -/

namespace Numeral

/-- A numeral as it can be spelled. -/
structure WellSpelled (n : Numeral) : Prop where
  nonempty : n.whole ≠ []
  whole : ∀ c ∈ n.whole, c.isDigit = true
  fraction : ∀ c ∈ n.fraction, c.isDigit = true
  exponent : ∀ e, n.exponent = some e → e.WellSpelled

/-- Whether what follows a numeral does not go on with it. -/
def endsBefore (n : Numeral) (rest : List Char) : Bool :=
  !beginsWith Char.isDigit rest &&
    (n.exponent.isSome ||
      ((Exponent.scan? rest).isNone && (!n.fraction.isEmpty || (fractionDigits rest).isEmpty)))

/-- The spelling of the exponent of a numeral, if it has one. -/
def exponentChars (n : Numeral) : List Char := (n.exponent.map Exponent.chars).getD []

theorem chars_append (n : Numeral) (rest : List Char) :
    n.chars ++ rest =
      Sign.chars n.sign ++ (n.whole ++ (fractionChars n.fraction ++ (n.exponentChars ++ rest))) := by
  simp [chars, exponentChars]

theorem fractionDigits_eq_nil {c : Char} (cs : List Char) (h : c ≠ '.') :
    fractionDigits (c :: cs) = [] := by
  unfold fractionDigits
  split
  · next heq =>
    cases heq
    exact absurd rfl h
  · rfl

/-- A numeral ends before what begins with no digit, no point and no exponent mark. -/
theorem endsBefore_of_stop (n : Numeral) {rest : List Char}
    (h : beginsWith (fun c => c.isDigit || c == '.' || c == 'e' || c == 'E') rest = false) :
    n.endsBefore rest = true := by
  cases rest with
  | nil => simp [endsBefore, Exponent.scan?, fractionDigits]
  | cons c cs =>
    simp only [beginsWith_cons, Bool.or_eq_false_iff, beq_eq_false_iff_ne] at h
    obtain ⟨⟨⟨hdigit, hpoint⟩, he⟩, hE⟩ := h
    have hexponent : Exponent.scan? (c :: cs) = none :=
      Exponent.scan?_eq_none_of_head cs (not_or.mpr ⟨he, hE⟩)
    simp [endsBefore, hdigit, hexponent, fractionDigits_eq_nil cs hpoint]

theorem digits_of_fractionDigits (text : List Char) :
    (∀ c ∈ fractionDigits text, c.isDigit = true) ∧
      ∃ rest, text = fractionChars (fractionDigits text) ++ rest ∧
        (fractionDigits text ≠ [] → beginsWith Char.isDigit rest = false) := by
  unfold fractionDigits
  split
  · next cs =>
    obtain ⟨hdigits, rest, hrest, hstop⟩ :=
      takeWhile_eq_iff.mp (rfl : cs.takeWhile Char.isDigit = _)
    refine ⟨hdigits, ?_⟩
    cases hrun : cs.takeWhile Char.isDigit with
    | nil => exact ⟨'.' :: cs, rfl, fun h => absurd rfl h⟩
    | cons d ds => exact ⟨rest, by rw [hrun] at hrest; rw [hrest]; rfl, fun _ => hstop⟩
  · exact ⟨by simp, text, rfl, fun h => absurd rfl h⟩

/-- The fraction is read back. -/
theorem fractionDigits_append {ds rest : List Char} (hds : ∀ c ∈ ds, c.isDigit = true)
    (hstop : ds ≠ [] → beginsWith Char.isDigit rest = false)
    (hnil : ds = [] → fractionDigits rest = []) :
    fractionDigits (fractionChars ds ++ rest) = ds := by
  cases ds with
  | nil => exact hnil rfl
  | cons d ds =>
    have hrest := hstop (by simp)
    exact takeWhile_append_of_stop hds hrest

/-- What stands behind the fraction neither goes on with it nor is mistaken for one, and the
    exponent is read back from it. -/
theorem scan?_exponentChars {n : Numeral} (hn : n.WellSpelled) {rest : List Char}
    (hends : n.endsBefore rest = true) :
    beginsWith Char.isDigit (n.exponentChars ++ rest) = false ∧
      (n.fraction = [] → fractionDigits (n.exponentChars ++ rest) = []) ∧
      Exponent.scan? (n.exponentChars ++ rest) = n.exponent := by
  simp only [endsBefore, Bool.and_eq_true, Bool.not_eq_true', Bool.or_eq_true,
    Option.isNone_iff_eq_none] at hends
  obtain ⟨hdigit, htail⟩ := hends
  cases hexp : n.exponent with
  | none =>
    rw [hexp] at htail
    simp only [exponentChars, hexp, Option.map_none, Option.getD_none, List.nil_append]
    rcases htail with h | ⟨hscan, hpoint⟩
    · cases h
    · refine ⟨hdigit, fun hfrac => ?_, hscan⟩
      rcases hpoint with h | h
      · rw [hfrac] at h
        cases h
      · simpa using h
  | some e =>
    have he := hn.exponent e hexp
    have hscan : Exponent.scan? (e.chars ++ rest) = some e :=
      Exponent.scan?_eq_some_iff.mpr ⟨he, rest, rfl, hdigit⟩
    simp only [exponentChars, hexp, Option.map_some, Option.getD_some]
    refine ⟨?_, fun _ => ?_, hscan⟩
    · rcases he.mark with h | h
      · simp [Exponent.chars, h, Char.isDigit]
      · simp [Exponent.chars, h, Char.isDigit]
    · apply fractionDigits_eq_nil
      rcases he.mark with h | h
      · rw [h]
        decide
      · rw [h]
        decide

theorem drop_of_eq_append {text w rest : List Char} (h : text = w ++ rest) :
    text.drop w.length = rest := by
  rw [h]
  exact List.drop_left

/-- A numeral that is read is spelled where it is read, and what follows does not go on with it. -/
theorem exists_of_scan? {text : List Char} {n : Numeral} (h : scan? text = some n) :
    n.WellSpelled ∧ ∃ rest, text = n.chars ++ rest ∧ n.endsBefore rest = true := by
  simp only [scan?] at h
  obtain ⟨hwhole, rest₁, hrest₁, hstop₁⟩ :=
    takeWhile_eq_iff.mp (rfl : (Sign.scan text).2.takeWhile Char.isDigit = _)
  obtain ⟨hfraction, rest₂, hrest₂, hstop₂⟩ := digits_of_fractionDigits rest₁
  split at h
  · cases h
  · next hne =>
    rw [drop_of_eq_append hrest₁, drop_of_eq_append hrest₂] at h
    cases h
    have htext : text = Sign.chars (Sign.scan text).1 ++
        ((Sign.scan text).2.takeWhile Char.isDigit ++
          (fractionChars (fractionDigits rest₁) ++ rest₂)) := by
      rw [← hrest₂, ← hrest₁, Sign.chars_append_scan]
    cases hexp : Exponent.scan? rest₂ with
    | some e =>
      obtain ⟨hspelled, rest, hrest, hstop⟩ := Exponent.scan?_eq_some_iff.mp hexp
      refine ⟨⟨by simpa using hne, hwhole, hfraction, fun _ h => ?_⟩, rest, ?_, ?_⟩
      · cases h
        exact hspelled
      · rw [chars_append, exponentChars]
        simp only [Option.map_some, Option.getD_some, ← hrest]
        exact htext
      · simp [endsBefore, hstop]
    | none =>
      refine ⟨⟨by simpa using hne, hwhole, hfraction, fun _ h => ?_⟩, rest₂, ?_, ?_⟩
      · cases h
      · rw [chars_append]
        exact htext
      · -- without a fraction, what follows is what stands behind the whole part
        cases hfrac : fractionDigits rest₁ with
        | nil =>
          rw [hfrac] at hrest₂
          have heq : rest₁ = rest₂ := hrest₂
          subst heq
          simp [endsBefore, hstop₁, hexp, hfrac]
        | cons d ds =>
          have hstop := hstop₂ (by simp [hfrac])
          simp [endsBefore, hstop, hexp]

/-- A numeral is read back from its spelling if what follows does not go on with it. -/
theorem scan?_append {n : Numeral} {rest : List Char} (hn : n.WellSpelled)
    (hends : n.endsBefore rest = true) : scan? (n.chars ++ rest) = some n := by
  obtain ⟨hdigit, hpoint, hscan⟩ := scan?_exponentChars hn hends
  have hstop : beginsWith Char.isDigit
      (fractionChars n.fraction ++ (n.exponentChars ++ rest)) = false := by
    cases n.fraction with
    | nil => exact hdigit
    | cons _ _ => rfl
  have hsign := Sign.scan_append n.sign _
    fun _ => beginsWith_isSign_of_digits hn.nonempty hn.whole
      (fractionChars n.fraction ++ (n.exponentChars ++ rest))
  have hfrac := fractionDigits_append hn.fraction (fun _ => hdigit) hpoint
  simp only [chars_append, scan?, hsign, takeWhile_append_of_stop hn.whole hstop, List.drop_left,
    hfrac, hscan]
  simp [hn.nonempty]

/-- **A numeral is read where it is spelled and what follows does not go on with it.** -/
theorem scan?_eq_some_iff {text : List Char} {n : Numeral} :
    scan? text = some n ↔
      n.WellSpelled ∧ ∃ rest, text = n.chars ++ rest ∧ n.endsBefore rest = true := by
  constructor
  · exact exists_of_scan?
  · intro h
    obtain ⟨hn, rest, htext, hends⟩ := h
    rw [htext]
    exact scan?_append hn hends

/-! ## 4. How a number is written -/

/-- The digits of a decimal, with zeros in front so that one stands before the point. -/
def paddedDigits (d : Decimal) : List Char :=
  List.replicate ((-d.exponent).toNat + 1 - (Decimal.digitChars d.digits).length) '0' ++
    Decimal.digitChars d.digits

/-- The spelling of a decimal without an exponent. -/
def ofDecimal (sign : Option Sign) (d : Decimal) : Numeral :=
  if 0 ≤ d.exponent then
    ⟨sign, Decimal.digitChars d.digits ++ List.replicate d.exponent.toNat '0', [], none⟩
  else
    let split := (paddedDigits d).length - (-d.exponent).toNat
    ⟨sign, (paddedDigits d).take split, (paddedDigits d).drop split, none⟩

/-- The spelling that a finite number is written with: zero without a sign. -/
def ofNumber : Binary64 → Numeral
  | .finite negative rank =>
    ofDecimal (if negative && rank.val != 0 then some .minus else none) (Binary64.shortest .up rank)
  | _ => ⟨none, [], [], none⟩

section Decimal

variable (sign : Option Sign) (d : Decimal)

theorem isDigit_of_mem_digitChars {n : Nat} {c : Char} (h : c ∈ Decimal.digitChars n) :
    c.isDigit = true :=
  Nat.isDigit_of_mem_toDigits (by omega) (by omega) h

theorem isDigit_of_mem_paddedDigits {c : Char} (h : c ∈ paddedDigits d) : c.isDigit = true := by
  rcases List.mem_append.mp h with h | h
  · rw [List.eq_of_mem_replicate h]
    rfl
  · exact isDigit_of_mem_digitChars h

theorem lt_length_paddedDigits : (-d.exponent).toNat < (paddedDigits d).length := by
  simp only [paddedDigits, List.length_append, List.length_replicate]
  omega

theorem digitsValue_paddedDigits : digitsValue (paddedDigits d) = d.digits := by
  rw [digitsValue, paddedDigits, Nat.ofDigitChars_append, Nat.ofDigitChars_replicate_zero,
    Nat.mul_zero]
  exact Nat.ofDigitChars_ten_toDigits

@[simp] theorem sign_ofDecimal : (ofDecimal sign d).sign = sign := by
  unfold ofDecimal
  split
  · rfl
  · rfl

@[simp] theorem exponent_ofDecimal : (ofDecimal sign d).exponent = none := by
  unfold ofDecimal
  split
  · rfl
  · rfl

theorem fraction_ofDecimal (h : 0 ≤ d.exponent) : (ofDecimal sign d).fraction = [] := by
  rw [ofDecimal, if_pos h]

theorem fraction_ofDecimal_ne_nil (h : d.exponent < 0) : (ofDecimal sign d).fraction ≠ [] := by
  have hpadded := lt_length_paddedDigits d
  rw [ofDecimal, if_neg (Int.not_le.mpr h)]
  intro hnil
  have hlen := congrArg List.length hnil
  simp only [List.length_drop, List.length_nil] at hlen
  omega

theorem wellSpelled_ofDecimal : (ofDecimal sign d).WellSpelled := by
  have hpadded := lt_length_paddedDigits d
  unfold ofDecimal
  split
  · refine ⟨?_, fun c hc => ?_, nofun, nofun⟩
    · exact List.append_ne_nil_of_left_ne_nil Nat.toDigits_ne_nil _
    · rcases List.mem_append.mp hc with hc | hc
      · exact isDigit_of_mem_digitChars hc
      · rw [List.eq_of_mem_replicate hc]
        rfl
  · refine ⟨?_, fun c hc => ?_, fun c hc => ?_, nofun⟩
    · intro hnil
      have hlen := congrArg List.length hnil
      simp only [List.length_take, List.length_nil] at hlen
      omega
    · exact isDigit_of_mem_paddedDigits d (List.mem_of_mem_take hc)
    · exact isDigit_of_mem_paddedDigits d (List.mem_of_mem_drop hc)

theorem chars_ofDecimal : (ofDecimal sign d).chars = Sign.chars sign ++ d.plain := by
  by_cases h : 0 ≤ d.exponent
  · simp [ofDecimal, h, chars, Decimal.plain, fractionChars]
  · have hdrop := fraction_ofDecimal_ne_nil sign d (Int.not_le.mp h)
    rw [ofDecimal, if_neg h] at hdrop
    have hchars : ∀ ds : List Char, ds ≠ [] → fractionChars ds = '.' :: ds := by
      intro ds hds
      cases ds with
      | nil => exact absurd rfl hds
      | cons d ds => rfl
    simp only [ofDecimal, if_neg h, chars, hchars _ hdrop, Decimal.plain, Decimal.pointed]
    simp [paddedDigits]

/-- A decimal without places behind the point may be written out. -/
theorem rank_written_out {d : Decimal} (hexp : 0 ≤ d.exponent) (h : d.exponent ≤ 400) :
    Decimal.rank ⟨d.digits * 10 ^ d.exponent.toNat, 0⟩ = d.rank := by
  by_cases hzero : d.digits = 0
  · simp [Decimal.rank, hzero]
  · have hne : d.digits * 10 ^ d.exponent.toNat ≠ 0 :=
      Nat.mul_ne_zero hzero (Nat.pow_pos (by omega)).ne'
    have hneg : (-d.exponent).toNat = 0 := by omega
    rw [Binary64.rank_eq_nearestRank hne (Binary64.isTiny_of_nonneg (Int.le_refl 0))
        (Binary64.isHuge_of_le (Int.zero_le_ofNat 400)),
      Binary64.rank_eq_nearestRank hzero (Binary64.isTiny_of_nonneg hexp)
        (Binary64.isHuge_of_le h)]
    simp [Decimal.tenTo, hneg]

/-- The spelling of a decimal has the rank of the decimal. -/
theorem rank_decimal_ofDecimal (h : d.exponent ≤ 400) :
    (ofDecimal sign d).decimal.rank = d.rank := by
  have hpadded := lt_length_paddedDigits d
  by_cases hexp : 0 ≤ d.exponent
  · have hdigits : digitsValue (Decimal.digitChars d.digits ++
        List.replicate d.exponent.toNat '0' ++ []) = d.digits * 10 ^ d.exponent.toNat := by
      rw [List.append_nil, digitsValue, Nat.ofDigitChars_append, Nat.ofDigitChars_replicate_zero,
        Decimal.digitChars, Nat.ofDigitChars_ten_toDigits, Nat.mul_comm]
    have hdecimal : (ofDecimal sign d).decimal = ⟨d.digits * 10 ^ d.exponent.toNat, 0⟩ := by
      rw [ofDecimal, if_pos hexp, decimal, hdigits]
      rfl
    rw [hdecimal, rank_written_out hexp h]
  · have hdecimal : (ofDecimal sign d).decimal = d := by
      rw [ofDecimal, if_neg hexp]
      simp only [decimal, List.take_append_drop, digitsValue_paddedDigits, List.length_drop,
        Option.map_none, Option.getD_none]
      have hlen : (0 : Int) - ((paddedDigits d).length -
          ((paddedDigits d).length - (-d.exponent).toNat) : Nat) = d.exponent := by omega
      rw [hlen]
    rw [hdecimal]

end Decimal

theorem wellSpelled_ofNumber {x : Binary64} (h : x.isFinite = true) :
    (ofNumber x).WellSpelled := by
  cases x with
  | finite negative rank => exact wellSpelled_ofDecimal _ _
  | infinity _ => cases h
  | nan => cases h

theorem exponent_ofNumber (x : Binary64) : (ofNumber x).exponent = none := by
  cases x with
  | finite negative rank => exact exponent_ofDecimal _ _
  | infinity _ => rfl
  | nan => rfl

theorem sign_ofNumber (x : Binary64) : (ofNumber x).sign ≠ some .plus := by
  cases x with
  | finite negative rank =>
    rw [ofNumber, sign_ofDecimal]
    split
    · exact nofun
    · exact nofun
  | infinity _ => exact nofun
  | nan => exact nofun

theorem ofNumber_of_isZero {x : Binary64} (h : x.isZero = true) :
    ofNumber x = ofDecimal none ⟨0, 0⟩ := by
  cases x with
  | finite negative rank =>
    have hzero : rank.val = 0 := by simpa [Binary64.isZero] using h
    simp [ofNumber, hzero, Binary64.shortest]
  | infinity _ => cases h
  | nan => cases h

/-- The spelling of a number is its text. -/
theorem chars_ofNumber {x : Binary64} (h : x.isFinite = true) :
    (ofNumber x).chars = (Literal.number x).chars := by
  cases x with
  | finite negative rank =>
    rw [ofNumber, chars_ofDecimal, Literal.chars]
    by_cases hzero : rank.val = 0
    · have hz : (Binary64.finite negative rank).isZero = true := by simp [Binary64.isZero, hzero]
      rw [if_pos hz, hzero]
      simp [Sign.chars, Binary64.shortest, Decimal.plain, Decimal.digitChars]
    · have hz : (Binary64.finite negative rank).isZero = false := by
        simpa [Binary64.isZero] using hzero
      rw [hz, Binary64.plainChars]
      cases negative with
      | false => simp [Sign.chars, Binary64.signed]
      | true => simp [Sign.chars, Binary64.signed, Sign.char, hzero]
  | infinity _ => cases h
  | nan => cases h

/-- **What a number is written with has the number as its value.** -/
theorem value_ofNumber {x : Binary64} (h : x.isFinite = true) :
    (ofNumber x).value.equal x = true := by
  cases x with
  | finite negative rank =>
    have hexp : (Binary64.shortest .up rank).exponent ≤ 400 :=
      Int.le_trans (Binary64.exponent_shortest_le .up rank.isLt) (by omega)
    rw [value, Binary64.ofDecimal, ofNumber, rank_decimal_ofDecimal _ _ hexp,
      Binary64.rank_shortest, Binary64.ofRank, dif_pos rank.isLt, isNegative, sign_ofDecimal]
    by_cases hzero : rank.val = 0
    · simp [Binary64.equal, hzero, Fin.ext_iff]
    · cases negative with
      | false => simp [Binary64.equal]
      | true => simp [Binary64.equal, hzero]
  | infinity _ => cases h
  | nan => cases h

/-- **A number that can be spelled without fraction and exponent is written without a point.** -/
theorem fraction_ofNumber_of_whole {n : Numeral} {x : Binary64} (hfraction : n.fraction = [])
    (hexponent : n.exponent = none) (h : n.value.equal x = true) :
    (ofNumber x).fraction = [] := by
  have hdecimal : n.decimal = ⟨digitsValue n.whole, 0⟩ := by
    simp [decimal, hfraction, hexponent]
  have hwhole := Binary64.isWhole_rank_natural (digitsValue n.whole)
  rw [value, Binary64.ofDecimal, hdecimal, Binary64.ofRank] at h
  cases x with
  | finite negative rank =>
    split at h
    · next hlimit =>
      simp only [Binary64.equal, Bool.and_eq_true, beq_iff_eq] at h
      have hrank : rank.val = Decimal.rank ⟨digitsValue n.whole, 0⟩ := by rw [← h.1]
      rw [← hrank] at hwhole
      exact fraction_ofDecimal _ _ (Binary64.exponent_shortest_of_whole .up rank.isLt hwhole)
    · cases h
  | infinity _ => rfl
  | nan => rfl

end Numeral

end Blackboard
