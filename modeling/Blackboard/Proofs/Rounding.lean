import Blackboard.Number.Decimal
import Mathlib.Tactic.Ring

/-!
# Rounding and the fewest digits

What is written reads back as the number that was written. This file is about magnitudes; the texts
come in `Proofs/Numerals`.

* Ranks and magnitudes are inverse to each other (`rankOfUnits_units`, `units_rankOfUnits`).
* What is close enough below a magnitude rounds to it (`roundUnits_eq_of_near`).
* **The decimal with the fewest digits has the rank that it was made from** (`rank_shortest`).
* **A whole number is written without a point** (`exponent_shortest_of_whole`): its walk over the
  decimal grids hits before it has gone below the ones, or within the twenty steps that it has.
-/

namespace Blackboard

namespace Binary64

/-! ## 1. Ranks and magnitudes -/

theorem stride_eq : stride = 2 ^ 52 := by decide

theorem log2_mul_two_pow {m : Nat} (k : Nat) (hlow : stride ≤ m) (hhigh : m < 2 * stride) :
    (m * 2 ^ k).log2 = 52 + k := by
  rw [stride_eq] at hlow hhigh
  have hpos : 0 < 2 ^ k := Nat.two_pow_pos k
  have hne : m * 2 ^ k ≠ 0 := Nat.mul_ne_zero (by omega) (by omega)
  rw [Nat.log2_eq_iff hne]
  constructor
  · rw [Nat.pow_add]
    exact Nat.mul_le_mul_right _ hlow
  · have heq : 2 ^ (52 + k + 1) = 2 * 2 ^ 52 * 2 ^ k := by ring
    rw [heq]
    exact (Nat.mul_lt_mul_right hpos).mpr hhigh

theorem units_eq {rank : Nat} (h : 2 * stride ≤ rank) :
    units rank = (stride + rank % stride) * 2 ^ (rank / stride - 1) := by
  rw [units, if_neg (by omega), Nat.shiftLeft_eq]

theorem rankOfUnits_eq {m k : Nat} (hlow : stride ≤ m) (hhigh : m < 2 * stride) (hk : 0 < k) :
    rankOfUnits (m * 2 ^ k) = k * stride + m := by
  have hlarge : 2 * stride ≤ m * 2 ^ k := by
    have htwo : 2 ≤ 2 ^ k := by
      calc 2 = 2 ^ 1 := rfl
        _ ≤ 2 ^ k := Nat.pow_le_pow_right (by omega) hk
    calc 2 * stride ≤ 2 * m := by omega
      _ ≤ 2 ^ k * m := Nat.mul_le_mul_right _ htwo
      _ = m * 2 ^ k := Nat.mul_comm _ _
  rw [rankOfUnits, if_neg (by omega), log2_mul_two_pow k hlow hhigh, Nat.shiftRight_eq_div_pow]
  have hk' : 52 + k - 52 = k := by omega
  rw [hk', Nat.mul_div_cancel _ (Nat.two_pow_pos k)]

theorem rankOfUnits_units (rank : Nat) : rankOfUnits (units rank) = rank := by
  by_cases h : rank < 2 * stride
  · rw [units, if_pos h, rankOfUnits, if_pos h]
  · have hstride : 0 < stride := by decide
    have hdiv : 2 ≤ rank / stride := (Nat.le_div_iff_mul_le hstride).mpr (by omega)
    have hmod : rank % stride < stride := Nat.mod_lt _ hstride
    have hsum : stride * (rank / stride) + rank % stride = rank := Nat.div_add_mod _ _
    rw [units_eq (by omega), rankOfUnits_eq (by omega) (by omega) (by omega)]
    obtain ⟨k, hk⟩ : ∃ k, rank / stride = k + 1 := ⟨rank / stride - 1, by omega⟩
    rw [hk] at hsum ⊢
    rw [Nat.add_sub_cancel]
    have hexp : stride * (k + 1) = k * stride + stride := by ring
    omega

/-- Whether a number of units has few enough binary digits for a magnitude. -/
def Fits (n : Nat) : Prop := 2 ^ (n.log2 - 52) ∣ n

theorem units_rankOfUnits {n : Nat} (h : Fits n) : units (rankOfUnits n) = n := by
  by_cases hsmall : n < 2 * stride
  · rw [rankOfUnits, if_pos hsmall, units, if_pos hsmall]
  · have hne : n ≠ 0 := by
      have : 0 < stride := by decide
      omega
    have hlog : 53 ≤ n.log2 := (Nat.le_log2 hne).mpr (by rw [stride_eq] at hsmall; omega)
    obtain ⟨k, hk⟩ : ∃ k, n.log2 = 52 + k := ⟨n.log2 - 52, by omega⟩
    obtain ⟨m, hm⟩ := h
    have hk' : 52 + k - 52 = k := by omega
    rw [hk, hk', Nat.mul_comm] at hm
    -- the digits before the trailing zeros are a full row of 53
    have hbounds := (Nat.log2_eq_iff hne).mp hk
    rw [hm] at hbounds
    have hpos : 0 < 2 ^ k := Nat.two_pow_pos k
    have hlow : stride ≤ m := by
      rw [stride_eq]
      have h₁ := hbounds.1
      rw [Nat.pow_add] at h₁
      exact Nat.le_of_mul_le_mul_right h₁ hpos
    have hhigh : m < 2 * stride := by
      rw [stride_eq]
      have h₂ := hbounds.2
      have heq : 2 ^ (52 + k + 1) = 2 * 2 ^ 52 * 2 ^ k := by ring
      rw [heq] at h₂
      exact Nat.lt_of_mul_lt_mul_right h₂
    rw [hm, rankOfUnits_eq hlow hhigh (by omega)]
    obtain ⟨j, hj⟩ : ∃ j, m = stride + j := ⟨m - stride, by omega⟩
    have hrank : k * stride + m = j + stride * (k + 1) := by rw [hj]; ring
    have hstride : 0 < stride := by decide
    have hmod : (j + stride * (k + 1)) % stride = j := by
      rw [Nat.add_mul_mod_self_left, Nat.mod_eq_of_lt (by omega)]
    have hdiv : (j + stride * (k + 1)) / stride = k + 1 := by
      rw [Nat.add_mul_div_left _ _ hstride, Nat.div_eq_of_lt (by omega), Nat.zero_add]
    have hlarge : 2 * stride ≤ j + stride * (k + 1) := by
      calc 2 * stride = stride * (1 + 1) := by ring
        _ ≤ stride * (k + 1) := Nat.mul_le_mul_left _ (by omega)
        _ ≤ j + stride * (k + 1) := Nat.le_add_left _ _
    rw [hrank, units_eq hlarge, hmod, hdiv, ← hj]
    rfl

theorem fits_units (rank : Nat) : Fits (units rank) := by
  by_cases h : rank < 2 * stride
  · have hunits : units rank = rank := by rw [units, if_pos h]
    have hlog : (units rank).log2 - 52 = 0 := by
      rw [hunits]
      by_cases hz : rank = 0
      · subst hz; decide
      · have : rank.log2 < 53 := (Nat.log2_lt hz).mpr (by rw [stride_eq] at h; omega)
        omega
    rw [Fits, hlog]
    exact Nat.one_dvd _
  · have hmod : rank % stride < stride := Nat.mod_lt _ (by decide)
    rw [Fits, units_eq (by omega), log2_mul_two_pow _ (by omega) (by omega)]
    exact ⟨_, by rw [Nat.add_sub_cancel_left, Nat.mul_comm]⟩

theorem units_ne_zero {rank : Nat} (h : rank ≠ 0) : units rank ≠ 0 := by
  intro hz
  apply h
  rw [← rankOfUnits_units rank, hz]
  decide

end Binary64

/-! ## 2. Rounding -/

/-- What is at most half a step below a multiple of the step is rounded to it. -/
theorem roundUnits_eq_of_near {precision num den m s : Nat} (hden : 0 < den)
    (hs : (num / den).log2 + 1 - precision = s) (hle : num ≤ m * (den * 2 ^ s))
    (hnear : 2 * (m * (den * 2 ^ s) - num) < den * 2 ^ s) :
    roundUnits precision num den = m * 2 ^ s := by
  have hstep : 0 < den * 2 ^ s := Nat.mul_pos hden (Nat.two_pow_pos s)
  simp only [roundUnits, hs, Nat.shiftLeft_eq]
  generalize den * 2 ^ s = step at *
  rcases Nat.eq_or_lt_of_le hle with heq | hlt
  · have hlow : num / step = m := by rw [heq, Nat.mul_div_cancel _ hstep]
    have hrest : num % step = 0 := by rw [heq, Nat.mul_mod_left]
    have hup : ¬step = 0 := by omega
    simp [hlow, hrest, Ne.symm hup]
  · obtain ⟨l, rfl⟩ : ∃ l, m = l + 1 := ⟨m - 1, by
      rcases Nat.eq_zero_or_pos m with rfl | hm
      · omega
      · omega⟩
    have hmul : (l + 1) * step = l * step + step := by ring
    have hnum : num = (num - l * step) + l * step := by omega
    have hlow : num / step = l := by
      rw [hnum, Nat.add_mul_div_right _ _ hstep, Nat.div_eq_of_lt (by omega), Nat.zero_add]
    have hrest : num % step = num - l * step := by
      rw [hnum, Nat.add_mul_mod_self_right, Nat.mod_eq_of_lt (by omega)]
      omega
    have hup : step < 2 * (num - l * step) := by omega
    simp [hlow, hrest, hup]

/-- What has few enough digits is not changed by rounding. -/
theorem roundUnits_of_fits {n den : Nat} (hden : 0 < den) (h : Binary64.Fits n) :
    roundUnits 53 (n * den) den = n := by
  obtain ⟨m, hm⟩ := h
  have hquot : n * den / den = n := Nat.mul_div_cancel _ hden
  have hshift : n.log2 + 1 - 53 = n.log2 - 52 := by omega
  have hprod : n * den = m * (den * 2 ^ (n.log2 - 52)) := by
    calc n * den = 2 ^ (n.log2 - 52) * m * den := by rw [← hm]
      _ = m * (den * 2 ^ (n.log2 - 52)) := by ring
  rw [roundUnits_eq_of_near hden (by rw [hquot, hshift]) (Nat.le_of_eq hprod)
    (by rw [hprod, Nat.sub_self]; exact Nat.mul_pos hden (Nat.two_pow_pos _)), Nat.mul_comm, ← hm]

/-- Every rounded number has few enough digits. -/
theorem fits_roundUnits (num den : Nat) : Binary64.Fits (roundUnits 53 num den) := by
  have hfits : ∀ {m : Nat} (s : Nat), m ≤ 2 ^ 53 → Binary64.Fits (m * 2 ^ s) := by
    intro m s hm
    rcases Nat.eq_or_lt_of_le hm with rfl | hlt
    · rw [Binary64.Fits, ← Nat.pow_add, Nat.log2_two_pow]
      exact Nat.pow_dvd_pow 2 (by omega)
    · rcases Nat.eq_zero_or_pos m with rfl | hpos
      · rw [Nat.zero_mul]
        exact Nat.dvd_zero _
      · have hne : m * 2 ^ s ≠ 0 := Nat.mul_ne_zero (by omega) (Nat.two_pow_pos s).ne'
        have hlog : (m * 2 ^ s).log2 < 53 + s := by
          rw [Nat.log2_lt hne, Nat.pow_add]
          exact (Nat.mul_lt_mul_right (Nat.two_pow_pos s)).mpr hlt
        exact Nat.dvd_trans (Nat.pow_dvd_pow 2 (by omega)) (Nat.dvd_mul_left _ _)
  have hlow : num / (den * 2 ^ ((num / den).log2 + 1 - 53)) < 2 ^ 53 := by
    rw [← Nat.div_div_eq_div_mul, Nat.div_lt_iff_lt_mul (Nat.two_pow_pos _), ← Nat.pow_add]
    exact Nat.lt_of_lt_of_le Nat.lt_log2_self (Nat.pow_le_pow_right (by omega) (by omega))
  simp only [roundUnits, Nat.shiftLeft_eq]
  split
  · exact hfits _ hlow
  · exact hfits _ (Nat.le_of_lt hlow)

/-- What is less than a quarter of a step below a magnitude is rounded to it, also at the lower end
    of a row of 53 digits, where the steps below are half as wide. -/
theorem roundUnits_of_close {n m k : Nat} (hlow : Binary64.stride ≤ m)
    (hhigh : m < 2 * Binary64.stride) (hk : 0 < k) (hle : n ≤ m * 2 ^ k)
    (hclose : 4 * (m * 2 ^ k - n) < 2 ^ k) : roundUnits 53 n 1 = m * 2 ^ k := by
  rw [Binary64.stride_eq] at hlow hhigh
  have hpos : 0 < 2 ^ k := Nat.two_pow_pos k
  by_cases hn : 2 ^ (52 + k) ≤ n
  · have hne : n ≠ 0 := by have := Nat.two_pow_pos (52 + k); omega
    have hhigh' : n < 2 ^ (52 + k + 1) := by
      calc n ≤ m * 2 ^ k := hle
        _ < 2 * 2 ^ 52 * 2 ^ k := (Nat.mul_lt_mul_right hpos).mpr hhigh
        _ = 2 ^ (52 + k + 1) := by ring
    have hlog : n.log2 = 52 + k := (Nat.log2_eq_iff hne).mpr ⟨hn, hhigh'⟩
    apply roundUnits_eq_of_near (by omega)
    · rw [Nat.div_one, hlog]
      omega
    · rwa [Nat.one_mul]
    · rw [Nat.one_mul]
      omega
  · -- the magnitude is the first of its row, so the step below it is half as wide
    have hm : m = 2 ^ 52 := by
      by_contra hne
      have h₁ : (2 ^ 52 + 1) * 2 ^ k ≤ m * 2 ^ k := Nat.mul_le_mul_right _ (by omega)
      have h₂ : (2 ^ 52 + 1) * 2 ^ k = 2 ^ (52 + k) + 2 ^ k := by ring
      omega
    obtain ⟨j, rfl⟩ : ∃ j, k = j + 1 := ⟨k - 1, by omega⟩
    have hpowj : 0 < 2 ^ j := Nat.two_pow_pos j
    have hdouble : 2 ^ (j + 1) = 2 * 2 ^ j := by ring
    have hrow : 2 ^ (52 + (j + 1)) = 2 ^ 53 * 2 ^ j := by ring
    have hprod : m * 2 ^ (j + 1) = 2 ^ 53 * 2 ^ j := by rw [hm]; ring
    have hhalf : 2 ^ (52 + j) = 2 ^ 52 * 2 ^ j := by ring
    rw [hprod] at hle hclose ⊢
    have hlarge : 2 ^ (52 + j) ≤ n := by omega
    have hlog : n.log2 = 52 + j := by
      rw [Nat.log2_eq_iff (by omega)]
      exact ⟨hlarge, by rw [Nat.add_assoc]; omega⟩
    apply roundUnits_eq_of_near (by omega)
    · rw [Nat.div_one, hlog]
      omega
    · rwa [Nat.one_mul]
    · rw [Nat.one_mul]
      omega

namespace Binary64

/-! ## 3. Reading back what was written -/

/-- A decimal that is neither absurdly large nor absurdly small is rounded to the nearest rank. -/
theorem rank_eq_nearestRank {d : Decimal} (hdigits : d.digits ≠ 0) (htiny : d.isTiny = false)
    (hhuge : d.isHuge = false) :
    d.rank = nearestRank (d.digits * Decimal.tenTo d.exponent) (Decimal.tenTo (-d.exponent)) := by
  simp [Decimal.rank, hdigits, htiny, hhuge]

theorem isTiny_of_nonneg {d : Decimal} (h : 0 ≤ d.exponent) : d.isTiny = false := by
  simp only [Decimal.isTiny, decide_eq_false_iff_not]
  omega

theorem isHuge_of_le {d : Decimal} (h : d.exponent ≤ 400) : d.isHuge = false := by
  have : ¬400 < d.exponent := by omega
  simp [Decimal.isHuge, this]

/-- Magnitudes that are written as they are read back as they are. -/
theorem nearestRank_units (rank : Nat) {num den : Nat} (hden : 0 < den)
    (h : num * 2 ^ unitExponent = units rank * den) : nearestRank num den = rank := by
  rw [nearestRank, Nat.shiftLeft_eq, h, roundUnits_of_fits hden (fits_units rank),
    rankOfUnits_units]

theorem rank_exact {rank : Nat} (h : rank ≠ 0) : (exact rank).rank = rank := by
  have hunits : 0 < units rank := Nat.pos_of_ne_zero (units_ne_zero h)
  have hexp : (exact rank).exponent = -(unitExponent : Int) := rfl
  have hdig : (exact rank).digits = units rank * 5 ^ unitExponent := by
    simp only [exact, Nat.pow_eq]
  have hlarge : 2 ^ unitExponent ≤ (exact rank).digits := by
    rw [hdig]
    have hfive : (2 : Nat) ≤ 5 := by decide
    calc 2 ^ unitExponent ≤ 5 ^ unitExponent := Nat.pow_le_pow_left hfive unitExponent
      _ = 1 * 5 ^ unitExponent := by rw [Nat.one_mul]
      _ ≤ units rank * 5 ^ unitExponent := Nat.mul_le_mul_right _ hunits
  have hdigits : (exact rank).digits ≠ 0 :=
    Nat.ne_of_gt (Nat.lt_of_lt_of_le (Nat.two_pow_pos _) hlarge)
  have hlog : unitExponent ≤ (exact rank).digits.log2 := (Nat.le_log2 hdigits).mpr hlarge
  have htiny : (exact rank).isTiny = false := by
    simp only [Decimal.isTiny, decide_eq_false_iff_not, hexp]
    omega
  rw [rank_eq_nearestRank hdigits htiny (isHuge_of_le (by omega))]
  apply nearestRank_units
  · exact Nat.pow_pos (by omega)
  · have hten : Decimal.tenTo (-(exact rank).exponent) = 10 ^ unitExponent := rfl
    have hone : Decimal.tenTo (exact rank).exponent = 1 := rfl
    rw [hten, hone, hdig, Nat.mul_one, Nat.mul_assoc, ← Nat.mul_pow]

/-- The decimal below a magnitude on a grid. -/
def below (rank : Nat) (grid : Int) : Decimal :=
  ⟨units rank * Decimal.tenTo (-grid) / (Decimal.tenTo grid <<< unitExponent), grid⟩

theorem of_onGrid? {tie : Tie} {rank : Nat} {grid : Int} {d : Decimal}
    (h : onGrid? tie rank grid = some d) : d.rank = rank ∧ d.exponent = grid := by
  simp only [onGrid?] at h
  split at h
  · next hhit =>
    cases h
    simp only [Bool.and_eq_true, beq_iff_eq] at hhit
    exact ⟨hhit.1, rfl⟩
  · split at h
    · next hhit =>
      cases h
      exact ⟨by simpa using hhit, rfl⟩
    · cases h

theorem isSome_onGrid? (tie : Tie) {rank : Nat} {grid : Int}
    (h : (below rank grid).rank = rank) : (onGrid? tie rank grid).isSome = true := by
  simp only [below] at h
  simp only [onGrid?, h]
  split
  · rfl
  · split
    · rfl
    · simp_all

theorem rank_firstOnGrids (tie : Tie) {rank : Nat} (h : rank ≠ 0) (steps : Nat) (grid : Int) :
    (firstOnGrids tie rank steps grid).rank = rank := by
  induction steps generalizing grid with
  | zero => exact rank_exact h
  | succ steps ih =>
    unfold firstOnGrids
    split
    · next d hd => exact (of_onGrid? hd).1
    · exact ih (grid - 1)

/-- **What is written with the fewest digits reads back.** -/
theorem rank_shortest (tie : Tie) (rank : Nat) : (shortest tie rank).rank = rank := by
  unfold shortest
  split
  · next h =>
    subst h
    rfl
  · next h => exact rank_firstOnGrids tie h _ _

/-! ## 4. Whole numbers -/

/-- Whether a magnitude is a whole number. -/
def IsWhole (rank : Nat) : Prop := 2 ^ unitExponent ∣ units rank

/-- The walk stops at a grid that hits, at the latest. -/
theorem exponent_firstOnGrids_of_hit (tie : Tie) {rank k : Nat} {grid : Int}
    (h : (onGrid? tie rank (grid - k)).isSome = true) {steps : Nat} (hk : k < steps) :
    grid - k ≤ (firstOnGrids tie rank steps grid).exponent := by
  induction steps generalizing grid k with
  | zero => omega
  | succ steps ih =>
    unfold firstOnGrids
    split
    · next d hd =>
      rw [(of_onGrid? hd).2]
      omega
    · next hnone =>
      cases k with
      | zero =>
        rw [Int.natCast_zero, Int.sub_zero, hnone] at h
        cases h
      | succ k =>
        have hgrid : grid - (k + 1 : Nat) = grid - 1 - k := by omega
        rw [hgrid] at h ⊢
        exact ih h (by omega)

/-- No walk ends on a grid above the one where it began. -/
theorem exponent_firstOnGrids_le (tie : Tie) (rank steps : Nat) (grid : Int) :
    (firstOnGrids tie rank steps grid).exponent ≤ max grid 0 := by
  induction steps generalizing grid with
  | zero =>
    have hexp : (exact rank).exponent = -1074 := rfl
    unfold firstOnGrids
    omega
  | succ steps ih =>
    unfold firstOnGrids
    split
    · next d hd =>
      rw [(of_onGrid? hd).2]
      omega
    · have := ih (grid - 1)
      omega

theorem log2_units_lt {rank : Nat} (h : rank < rankLimit) : (units rank).log2 < 2098 := by
  by_cases hsmall : rank < 2 * stride
  · rw [units, if_pos hsmall]
    by_cases hz : rank = 0
    · subst hz
      decide
    · rw [stride_eq] at hsmall
      have : rank.log2 < 53 := (Nat.log2_lt hz).mpr (by omega)
      omega
  · have hmod : rank % stride < stride := Nat.mod_lt _ (by decide)
    have hlimit : rankLimit = 2047 * stride := by decide
    have hdiv : rank / stride < 2047 := (Nat.div_lt_iff_lt_mul (by decide)).mpr (by omega)
    rw [units_eq (by omega), log2_mul_two_pow _ (by omega) (by omega)]
    omega

theorem gridAbove_le {rank : Nat} (h : rank < rankLimit) : gridAbove rank ≤ 310 := by
  have := log2_units_lt h
  have hexp : (unitExponent : Int) = 1074 := rfl
  unfold gridAbove
  omega

theorem exponent_shortest_le (tie : Tie) {rank : Nat} (h : rank < rankLimit) :
    (shortest tie rank).exponent ≤ 310 := by
  unfold shortest
  split
  · decide
  · have := exponent_firstOnGrids_le tie rank 20 (gridAbove rank)
    have := gridAbove_le h
    omega

/-- Rounding a whole number to a magnitude leaves it whole. -/
theorem isWhole_rank_natural (n : Nat) : IsWhole (Decimal.rank ⟨n, 0⟩) := by
  by_cases hzero : n = 0
  · subst hzero
    exact Nat.dvd_zero _
  · rw [rank_eq_nearestRank hzero (isTiny_of_nonneg (Int.le_refl 0))
      (isHuge_of_le (Int.zero_le_ofNat 400))]
    have hone : n * Decimal.tenTo 0 = n := Nat.mul_one n
    have hden : Decimal.tenTo (-0) = 1 := rfl
    rw [hone, hden, IsWhole, nearestRank, units_rankOfUnits (fits_roundUnits _ _),
      Nat.shiftLeft_eq]
    by_cases hshift : (n * 2 ^ unitExponent).log2 - 52 ≤ unitExponent
    · -- so few digits that nothing is rounded
      have hfits : Fits (n * 2 ^ unitExponent) :=
        Nat.dvd_trans (Nat.pow_dvd_pow 2 hshift) (Nat.dvd_mul_left _ _)
      have hround := roundUnits_of_fits Nat.one_pos hfits
      rw [Nat.mul_one] at hround
      rw [hround]
      exact Nat.dvd_mul_left _ _
    · have hdvd : 2 ^ unitExponent ∣ 2 ^ ((n * 2 ^ unitExponent / 1).log2 + 1 - 53) := by
        rw [Nat.div_one]
        exact Nat.pow_dvd_pow 2 (by omega)
      simp only [roundUnits, Nat.shiftLeft_eq _ ((_ : Nat) + 1 - 53)]
      exact Nat.dvd_trans hdvd (Nat.dvd_mul_left _ _)

/-- Twenty grids are enough for the large numbers: the last of them is finer than a quarter of the
    step between magnitudes. -/
theorem ten_pow_le_two_pow : ∀ e < 1024, 10 ^ (e * 30103 / 100000 - 17) ≤ 2 ^ (e - 54) := by
  decide +kernel

/-- A whole number is hit on the grid of the ones. -/
theorem rank_below_zero {rank : Nat} (h : rank ≠ 0) (hwhole : IsWhole rank) :
    (below rank 0).rank = rank := by
  obtain ⟨q, hq⟩ := hwhole
  have hpow : 0 < 2 ^ unitExponent := Nat.two_pow_pos _
  have hone : Decimal.tenTo 0 = 1 := rfl
  have hbelow : below rank 0 = ⟨q, 0⟩ := by
    rw [below, Int.neg_zero, hone, hq, Nat.mul_one, Nat.shiftLeft_eq, Nat.one_mul,
      Nat.mul_div_cancel_left _ hpow]
  have hne : q ≠ 0 := by
    rintro rfl
    rw [Nat.mul_zero] at hq
    exact units_ne_zero h hq
  rw [hbelow, rank_eq_nearestRank hne (isTiny_of_nonneg (Int.le_refl 0))
    (isHuge_of_le (Int.zero_le_ofNat 400)), Int.neg_zero, hone, Nat.mul_one]
  apply nearestRank_units rank Nat.one_pos
  rw [hq, Nat.mul_one, Nat.mul_comm]

/-- On a grid that is fine enough, the decimal below a magnitude is rounded to it. -/
theorem rank_below_of_close {rank g : Nat} (hg : g ≤ 400) (hlarge : 2 * stride ≤ rank)
    (hfine : 4 * (10 ^ g * 2 ^ unitExponent) ≤ 2 ^ (rank / stride - 1)) :
    (below rank g).rank = rank := by
  let step := 10 ^ g * 2 ^ unitExponent
  have hstep : 0 < step := Nat.mul_pos (Nat.pow_pos (by omega)) (Nat.two_pow_pos _)
  have hstride : 0 < stride := by decide
  have hdiv : 2 ≤ rank / stride := (Nat.le_div_iff_mul_le hstride).mpr hlarge
  have hmod : rank % stride < stride := Nat.mod_lt _ hstride
  have hunits := units_eq hlarge
  have hbelow : below rank g = ⟨units rank / step, g⟩ := by
    have hten : Decimal.tenTo (g : Int) = 10 ^ g := rfl
    have hone : Decimal.tenTo (-(g : Int)) = 1 := by
      have : (-(g : Int)).toNat = 0 := by omega
      rw [Decimal.tenTo, this]
    rw [below, hten, hone, Nat.mul_one, Nat.shiftLeft_eq]
  have hstepunits : step ≤ units rank := by
    have h₁ : 2 ^ (rank / stride - 1) ≤ units rank := by
      rw [hunits]
      exact Nat.le_mul_of_pos_left _ (by omega)
    have h₂ : 4 * step ≤ 2 ^ (rank / stride - 1) := hfine
    omega
  have hdigits : units rank / step ≠ 0 := Nat.ne_of_gt (Nat.div_pos hstepunits hstep)
  rw [hbelow, rank_eq_nearestRank hdigits (isTiny_of_nonneg (Int.natCast_nonneg g))
    (isHuge_of_le (by simpa using hg))]
  have hten : units rank / step * Decimal.tenTo g = units rank / step * 10 ^ g := rfl
  have hone : Decimal.tenTo (-(g : Int)) = 1 := by
    have : (-(g : Int)).toNat = 0 := by omega
    rw [Decimal.tenTo, this]
  have hsum : step * (units rank / step) + units rank % step = units rank := Nat.div_add_mod _ _
  have hrest : units rank % step < step := Nat.mod_lt _ hstep
  have hnum : units rank / step * 10 ^ g * 2 ^ unitExponent = step * (units rank / step) := by
    rw [Nat.mul_assoc, Nat.mul_comm]
  rw [hten, hone, nearestRank, Nat.shiftLeft_eq, hnum]
  have hround : roundUnits 53 (step * (units rank / step)) 1 = units rank := by
    rw [hunits] at hsum hrest ⊢
    have hfine' : 4 * step ≤ 2 ^ (rank / stride - 1) := hfine
    exact roundUnits_of_close (by omega) (by omega) (by omega) (by omega) (by omega)
  rw [hround, rankOfUnits_units]

/-- A number of `unitExponent + e` bits lies close enough below a multiple of ten to the power of its
    digits less seventeen. -/
theorem isSome_onGrid?_of_log2 (tie : Tie) {rank e : Nat} (hne : units rank ≠ 0)
    (hlog : (units rank).log2 = unitExponent + e) (he : e ≤ 1023)
    (hmany : 20 ≤ e * 30103 / 100000 + 2) :
    (onGrid? tie rank ((e * 30103 / 100000 - 17 : Nat) : Int)).isSome = true := by
  have hexp : unitExponent = 1074 := rfl
  have hlarge : 2 * stride ≤ rank := by
    by_contra hsmall
    rw [units, if_pos (by omega)] at hlog hne
    have hbits : rank.log2 < 53 := (Nat.log2_lt hne).mpr (by rw [stride_eq] at hsmall; omega)
    omega
  have hmod : rank % stride < stride := Nat.mod_lt _ (by decide)
  have hrow : rank / stride - 1 = e + 1022 := by
    have hunits := log2_mul_two_pow (m := stride + rank % stride) (rank / stride - 1)
      (by omega) (by omega)
    rw [← units_eq hlarge, hlog] at hunits
    omega
  have hsum : 2 + (e - 54 + unitExponent) = e + 1022 := by omega
  have hfine : 4 * (10 ^ (e * 30103 / 100000 - 17) * 2 ^ unitExponent) ≤
      2 ^ (rank / stride - 1) := by
    calc 4 * (10 ^ (e * 30103 / 100000 - 17) * 2 ^ unitExponent)
        ≤ 4 * (2 ^ (e - 54) * 2 ^ unitExponent) :=
          Nat.mul_le_mul_left _ (Nat.mul_le_mul_right _ (ten_pow_le_two_pow e (by omega)))
      _ = 2 ^ (2 + (e - 54 + unitExponent)) := by rw [Nat.pow_add, Nat.pow_add]
      _ = 2 ^ (rank / stride - 1) := by rw [hrow, hsum]
  exact isSome_onGrid? tie (rank_below_of_close (by omega) hlarge hfine)

/-- **A whole number is written without a point.** -/
theorem exponent_shortest_of_whole (tie : Tie) {rank : Nat} (hlimit : rank < rankLimit)
    (hwhole : IsWhole rank) : 0 ≤ (shortest tie rank).exponent := by
  unfold shortest
  split
  · decide
  · next h =>
    have hne := units_ne_zero h
    have hpow : 2 ^ unitExponent ≤ units rank := Nat.le_of_dvd (Nat.pos_of_ne_zero hne) hwhole
    have hlog : unitExponent ≤ (units rank).log2 := (Nat.le_log2 hne).mpr hpow
    have hlog' := log2_units_lt hlimit
    have hexp : unitExponent = 1074 := rfl
    obtain ⟨e, he⟩ : ∃ e, (units rank).log2 = unitExponent + e := ⟨_, (Nat.add_sub_of_le hlog).symm⟩
    have hgrid : gridAbove rank = ((e * 30103 / 100000 + 2 : Nat) : Int) := by
      unfold gridAbove
      rw [he]
      push_cast
      omega
    by_cases hfew : e * 30103 / 100000 + 2 < 20
    · have hhit : (onGrid? tie rank (gridAbove rank - (e * 30103 / 100000 + 2 : Nat))).isSome =
          true := by
        rw [hgrid, Int.sub_self]
        exact isSome_onGrid? tie (rank_below_zero h hwhole)
      have hle := exponent_firstOnGrids_of_hit tie hhit hfew
      omega
    · have hhit : (onGrid? tie rank (gridAbove rank - (19 : Nat))).isSome = true := by
        have hlast : gridAbove rank - (19 : Nat) = ((e * 30103 / 100000 - 17 : Nat) : Int) := by
          rw [hgrid]
          omega
        rw [hlast]
        exact isSome_onGrid?_of_log2 tie hne he (by omega) (by omega)
      have hle := exponent_firstOnGrids_of_hit tie hhit (show 19 < 20 by omega)
      omega

end Binary64

end Blackboard
