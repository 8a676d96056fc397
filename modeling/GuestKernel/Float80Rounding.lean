import GuestKernel.Float80
import Mathlib.Data.Nat.Log

namespace GuestKernel

/-!
# What rounding leaves canonical

A number is canonical when its integer bit is set exactly where its exponent is
not that of a denormal.  `u128_normalize_round` leaves such numbers, except
where it meets a zero that it takes for a normal number, and where it rounds a
denormal up to the smallest normal number without giving it its exponent.
-/

namespace Float80

/-- An encoding that the arithmetic may return. -/
structure Canonical (f : Float80) : Prop where
  integerBit : f.integerBit = true ↔ f.exp ≠ expDenormal
  zero : f.signif = 0 → f.exp = expDenormal
  special : f.exp = expSpecial → f.isInf = true ∨ f.isNan = true

theorem integerBit_iff
    (f : Float80) :
    f.integerBit = true ↔ 2 ^ 63 ≤ f.signif.toNat := by
  unfold integerBit
  have isMsb : f.signif.getLsbD 63 = f.signif.msb :=
    (BitVec.msb_eq_getLsbD_last f.signif).symm
  rw [isMsb, BitVec.msb_eq_decide, decide_eq_true_iff]

theorem isSupported_iff
    (f : Float80) :
    f.isSupported = true ↔ (2 ^ 63 ≤ f.signif.toNat ↔ f.exp ≠ expDenormal) := by
  rw [← integerBit_iff]
  unfold isSupported
  by_cases isDenormal : f.exp = expDenormal
  · simp [isDenormal]
  · rw [if_neg isDenormal]
    exact ⟨fun isSet => ⟨fun _ => isDenormal, fun _ => isSet⟩,
      fun supported => supported.mpr isDenormal⟩

/-- Canonical numbers are the ones that `f80_is_supported` accepts. -/
theorem canonical_iff
    (f : Float80) :
    f.Canonical ↔ f.isSupported = true := by
  rw [isSupported_iff]
  constructor
  · intro canonical
    rw [← integerBit_iff]
    exact canonical.integerBit
  · intro supported
    constructor
    case integerBit =>
      rw [integerBit_iff]
      exact supported
    case zero =>
      intro isZero
      by_contra notDenormal
      have large := supported.mpr notDenormal
      rw [isZero] at large
      exact absurd large (by decide)
    case special =>
      intro isSpecial
      unfold isInf isNan
      rw [isSpecial]
      by_cases noFraction : f.fraction = 0
      · exact .inl (by simp [noFraction])
      · exact .inr (by simp [noFraction])

theorem isSupported_of_denormal
    {f : Float80}
    (isDenormal : f.exp = expDenormal) :
    f.isSupported = true ↔ f.signif.toNat < 2 ^ 63 := by
  rw [isSupported_iff, isDenormal]
  simp

theorem ne_denormal_of_lt
    {exp other : BitVec 15}
    (above : other.toNat < exp.toNat) :
    exp ≠ expDenormal := by
  rintro rfl
  exact Nat.not_lt_zero _ above

theorem isSupported_of_normal
    {f : Float80}
    (isNormal : f.exp ≠ expDenormal) :
    f.isSupported = true ↔ 2 ^ 63 ≤ f.signif.toNat := by
  rw [isSupported_iff]
  exact ⟨fun supported => supported.mpr isNormal,
    fun large => ⟨fun _ => isNormal, fun _ => large⟩⟩

end Float80

/-- The leading zeros of 64 bits. -/
theorem clz64_eq
    {x : BitVec 64}
    (nonzero : x ≠ 0) :
    2 ^ 63 ≤ x.toNat * 2 ^ clz64 x ∧ x.toNat * 2 ^ clz64 x < 2 ^ 64 ∧
      clz64 x ≤ 63 := by
  have isPos : x.toNat ≠ 0 := by
    intro isZero
    exact nonzero (BitVec.eq_of_toNat_eq (by rw [isZero]; rfl))
  have small : x.toNat.log2 < 64 := (Nat.log2_lt isPos).mpr x.isLt
  have low := Nat.log2_self_le isPos
  have high : x.toNat < 2 ^ (x.toNat.log2 + 1) := Nat.lt_log2_self
  have power : 2 ^ x.toNat.log2 * 2 ^ (63 - x.toNat.log2) = 2 ^ 63 := by
    rw [← Nat.pow_add]
    congr 1
    omega
  have isClz : clz64 x = 63 - x.toNat.log2 := by
    unfold clz64
    rw [if_neg nonzero]
  rw [isClz]
  refine ⟨?_, ?_, Nat.sub_le _ _⟩
  · rw [← power]
    exact Nat.mul_le_mul_right _ low
  · have above := Nat.mul_lt_mul_of_pos_right high
      (Nat.two_pow_pos (63 - x.toNat.log2))
    rw [Nat.pow_succ, Nat.mul_assoc, Nat.mul_comm 2, ← Nat.mul_assoc,
      power] at above
    exact above

/-- The leading zeros of 128 bits. -/
theorem u128Clz_eq
    {x : Nat}
    (nonzero : x ≠ 0)
    (fits : x < 2 ^ 128) :
    2 ^ 127 ≤ x * 2 ^ u128Clz x ∧ x * 2 ^ u128Clz x < 2 ^ 128 ∧
      u128Clz x ≤ 127 := by
  unfold u128Clz
  by_cases isHigh : x / 2 ^ 64 ≠ 0
  · rw [if_pos isHigh]
    have isHighPart : (BitVec.ofNat 64 (x / 2 ^ 64)).toNat = x / 2 ^ 64 := by
      rw [BitVec.toNat_ofNat]
      omega
    have notZero : BitVec.ofNat 64 (x / 2 ^ 64) ≠ 0 := by
      intro isZero
      rw [isZero] at isHighPart
      exact isHigh isHighPart.symm
    obtain ⟨low, high, small⟩ := clz64_eq notZero
    rw [isHighPart] at low high
    generalize clz64 (BitVec.ofNat 64 (x / 2 ^ 64)) = zeros at low high small ⊢
    have split := Nat.div_add_mod x (2 ^ 64)
    have rest := Nat.mod_lt x (Nat.two_pow_pos 64)
    refine ⟨?_, ?_, by omega⟩
    · have scaled : x / 2 ^ 64 * 2 ^ 64 * 2 ^ zeros ≤ x * 2 ^ zeros :=
        Nat.mul_le_mul_right _ (Nat.div_mul_le_self x _)
      have isScaled :
          x / 2 ^ 64 * 2 ^ 64 * 2 ^ zeros = x / 2 ^ 64 * 2 ^ zeros * 2 ^ 64 :=
        Nat.mul_right_comm _ _ _
      omega
    · have below : x < (x / 2 ^ 64 + 1) * 2 ^ 64 := by omega
      have scaled := Nat.mul_lt_mul_of_pos_right below (Nat.two_pow_pos zeros)
      have isScaled :
          (x / 2 ^ 64 + 1) * 2 ^ 64 * 2 ^ zeros =
            (x / 2 ^ 64 * 2 ^ zeros + 2 ^ zeros) * 2 ^ 64 := by
        rw [Nat.mul_right_comm, Nat.add_mul, Nat.one_mul]
      have fitsToo : x / 2 ^ 64 * 2 ^ zeros + 2 ^ zeros ≤ 2 ^ 64 := by
        have isPower : 2 ^ 64 = 2 ^ (64 - zeros) * 2 ^ zeros := by
          rw [← Nat.pow_add]
          congr 1
          omega
        rw [isPower] at high ⊢
        have fewer := Nat.lt_of_mul_lt_mul_right high
        rw [← Nat.succ_mul]
        exact Nat.mul_le_mul_right _ fewer
      omega
  · have isLow : x < 2 ^ 64 := by
      have noHigh := not_not.mp isHigh
      omega
    rw [if_neg isHigh, if_pos nonzero]
    have isLowPart : (BitVec.ofNat 64 x).toNat = x := by
      rw [BitVec.toNat_ofNat]
      omega
    have notZero : BitVec.ofNat 64 x ≠ 0 := by
      intro isZero
      rw [isZero] at isLowPart
      exact nonzero isLowPart.symm
    obtain ⟨low, high, small⟩ := clz64_eq notZero
    rw [isLowPart] at low high
    have isShift : x * 2 ^ (64 + clz64 (BitVec.ofNat 64 x)) =
        x * 2 ^ clz64 (BitVec.ofNat 64 x) * 2 ^ 64 := by
      rw [Nat.add_comm, Nat.pow_add, Nat.mul_assoc]
    rw [isShift]
    omega

section Shifts

variable {mode : RoundingMode} {sign : Bool} {i shift : Nat}

/-- A shift rounds to one of the two nearest numbers. -/
theorem u128ShiftRightRound_bounds
    (mode : RoundingMode)
    (i shift : Nat)
    (sign : Bool)
    (fits : i < 2 ^ 128) :
    i / 2 ^ shift ≤ u128ShiftRightRound mode i shift sign ∧
      u128ShiftRightRound mode i shift sign ≤ i / 2 ^ shift + 1 := by
  unfold u128ShiftRightRound
  by_cases noShift : shift = 0
  · rw [if_pos noShift, noShift]
    omega
  rw [if_neg noShift]
  by_cases isFar : 127 < shift
  · have isZero : i / 2 ^ shift = 0 :=
      Nat.div_eq_of_lt
        (Nat.lt_of_lt_of_le fits (Nat.pow_le_pow_right (by decide) isFar))
    rw [if_pos isFar, isZero]
    split <;> omega
  rw [if_neg isFar]
  dsimp only
  repeat' split
  all_goals omega

/-- A shift of a number that it does not cut is exact. -/
theorem u128ShiftRightRound_exact
    (mode : RoundingMode)
    (sign : Bool)
    (near : shift ≤ 127)
    (divides : i % 2 ^ shift = 0) :
    u128ShiftRightRound mode i shift sign = i / 2 ^ shift := by
  unfold u128ShiftRightRound
  by_cases noShift : shift = 0
  · rw [if_pos noShift, noShift, Nat.pow_zero, Nat.div_one]
  have isPower : 2 ^ shift = 2 ^ (shift - 1) * 2 := by
    rw [← Nat.pow_succ]
    congr 1
    omega
  rw [isPower] at divides
  have noRest : i % 2 ^ (shift - 1) = 0 := by
    rw [← Nat.mod_mul_right_mod i (2 ^ (shift - 1)) 2, divides, Nat.zero_mod]
  have noGuard : i / 2 ^ (shift - 1) % 2 = 0 := by
    rw [← Nat.mod_mul_right_div_self, divides, Nat.zero_div]
  rw [if_neg noShift, if_neg (by omega), noRest, noGuard]
  rfl

/-- The last shift, of a denormal, reaches the integer bit. -/
theorem u128ShiftRightRound_reaches_iff
    (below : i < 2 ^ 127) :
    2 ^ 63 ≤ u128ShiftRightRound mode i 64 sign ↔
      if roundAwayFromZero mode sign then
        2 ^ 127 - 2 ^ 64 < i
      else
        mode = .toNearest ∧ 2 ^ 127 - 2 ^ 63 ≤ i := by
  unfold u128ShiftRightRound
  rw [if_neg (by decide), if_neg (by decide)]
  dsimp only
  by_cases isAway : roundAwayFromZero mode sign = true
  · rw [if_pos isAway, if_pos isAway]
    split <;> omega
  · rw [if_neg isAway, if_neg isAway]
    by_cases isNearest : mode = .toNearest
    · simp only [isNearest, true_and]
      repeat' split
      all_goals omega
    · simp only [isNearest, false_and, if_false, iff_false]
      split <;> omega

end Shifts

theorem exponent_bounds :
    bias80 = 16383 ∧ expMin = -16382 ∧ expMax = 16383 :=
  ⟨rfl, rfl, rfl⟩

theorem toNat_bias
    {exp : Int}
    (above : expMin ≤ exp)
    (below : exp ≤ expMax + 1) :
    ((bias exp).toNat : Int) = exp + bias80 := by
  obtain ⟨isBias, isMin, isMax⟩ := exponent_bounds
  unfold bias
  rw [BitVec.toNat_ofInt]
  omega

/-- A denormal that is rounded is canonical when it stays below the bit. -/
theorem roundSignif_denormal
    {mode : RoundingMode}
    {sign : Bool}
    {aligned : Nat}
    (small : aligned ≤ 2 ^ 127) :
    (roundSignif mode aligned (-bias80) sign).isSupported = true ↔
      ¬2 ^ 63 ≤ u128ShiftRightRound mode aligned 64 sign := by
  have bounds := u128ShiftRightRound_bounds mode aligned 64 sign (by omega)
  have noCarry : u128ShiftRightRound mode aligned 64 sign / 2 ^ 64 = 0 := by
    omega
  have isDenormal : bias (-bias80) = expDenormal := rfl
  unfold roundSignif
  dsimp only
  rw [if_neg (by rw [noCarry]; exact fun no => no rfl),
    Float80.isSupported_of_denormal isDenormal, BitVec.toNat_ofNat]
  omega

/-- A normal number stays one. -/
theorem roundSignif_normal
    {signif : Nat}
    {exp : Int}
    (mode : RoundingMode)
    (sign : Bool)
    (isNormal : 2 ^ 127 ≤ signif)
    (fits : signif < 2 ^ 128)
    (above : expMin ≤ exp)
    (below : exp ≤ expMax) :
    let f := roundSignif mode signif exp sign
    f.sign = sign ∧ 2 ^ 63 ≤ f.signif.toNat ∧
      exp + bias80 ≤ f.exp.toNat ∧ f.exp.toNat ≤ exp + bias80 + 1 := by
  obtain ⟨isBias, isMin, isMax⟩ := exponent_bounds
  have bounds := u128ShiftRightRound_bounds mode signif 64 sign fits
  have isExp := toNat_bias above (by omega)
  unfold roundSignif
  dsimp only
  generalize u128ShiftRightRound mode signif 64 sign = rounded at bounds ⊢
  by_cases noCarry : rounded / 2 ^ 64 = 0
  · rw [if_neg (by rw [noCarry]; exact fun no => no rfl)]
    dsimp only
    rw [BitVec.toNat_ofNat]
    exact ⟨rfl, by omega, by omega, by omega⟩
  · rw [if_pos noCarry]
    dsimp only
    rw [BitVec.toNat_ofNat, BitVec.toNat_add]
    have isOne : (1 : BitVec 15).toNat = 1 := rfl
    rw [isOne]
    exact ⟨rfl, by omega, by omega, by omega⟩

theorem Float80.isSupported_of_large
    {f : Float80}
    (large : 2 ^ 63 ≤ f.signif.toNat)
    (positive : 1 ≤ f.exp.toNat) :
    f.isSupported = true := by
  rw [isSupported_of_normal]
  · exact large
  · intro isDenormal
    rw [isDenormal] at positive
    exact absurd positive (by decide)

/--
The significands and exponents that are rounded to an encoding that is not
canonical: a zero with the exponent of a normal number, or a number below the
smallest normal one that is rounded up to it.
-/
def Misrounds
    (mode : RoundingMode) (signif : Nat) (exp : Int) (sign : Bool) : Prop :=
  let doubled := signif * 2 ^ (exp - expMin + 1).toNat
  (signif = 0 ∧ expMin + 128 ≤ exp ∧ exp ≤ expMax + 128) ∨
    (expMin - 1 ≤ exp ∧ doubled < 2 ^ 128 ∧
      if roundAwayFromZero mode sign then
        2 ^ 128 - 2 ^ 65 < doubled
      else
        mode = .toNearest ∧ 2 ^ 128 - 2 ^ 64 - 1 ≤ doubled)

section Normalizing

variable {mode : RoundingMode} {sign : Bool} {signif : Nat} {exp : Int}

/-- Whether a number is rounded wrongly depends on its double. -/
theorem misrounds_iff
    (nonzero : signif ≠ 0)
    (above : expMin - 1 ≤ exp)
    (below : signif * 2 ^ (exp - expMin + 1).toNat < 2 ^ 128) :
    Misrounds mode signif exp sign ↔
      if roundAwayFromZero mode sign then
        2 ^ 128 - 2 ^ 65 < signif * 2 ^ (exp - expMin + 1).toNat
      else
        mode = .toNearest ∧
          2 ^ 128 - 2 ^ 64 - 1 ≤ signif * 2 ^ (exp - expMin + 1).toNat := by
  constructor
  · rintro (⟨isZero, _⟩ | ⟨_, _, isReached⟩)
    · exact (nonzero isZero).elim
    · exact isReached
  · intro isReached
    exact .inr ⟨above, below, isReached⟩

theorem not_misrounds_of_large
    (nonzero : signif ≠ 0)
    (large : 2 ^ 128 ≤ signif * 2 ^ (exp - expMin + 1).toNat) :
    ¬Misrounds mode signif exp sign := by
  rintro (⟨isZero, _⟩ | ⟨_, below, _⟩)
  · exact nonzero isZero
  · omega

theorem not_misrounds_of_multiple
    {count : Nat}
    (nonzero : signif ≠ 0)
    (multiple : signif * 2 ^ (exp - expMin + 1).toNat = count * 2 ^ 65) :
    ¬Misrounds mode signif exp sign := by
  rintro (⟨isZero, _⟩ | ⟨_, below, isReached⟩)
  · exact nonzero isZero
  · rw [multiple] at below isReached
    split at isReached <;> omega

theorem reaches_iff_doubled
    {aligned : Nat}
    (below : aligned * 2 < 2 ^ 128) :
    2 ^ 63 ≤ u128ShiftRightRound mode aligned 64 sign ↔
      if roundAwayFromZero mode sign then
        2 ^ 128 - 2 ^ 65 < aligned * 2
      else
        mode = .toNearest ∧ 2 ^ 128 - 2 ^ 64 - 1 ≤ aligned * 2 := by
  rw [u128ShiftRightRound_reaches_iff (by omega)]
  split
  · omega
  · exact and_congr_right fun _ => by omega

theorem u128ShiftRightRound_one
    (mode : RoundingMode)
    (i : Nat)
    (sign : Bool) :
    u128ShiftRightRound mode i 1 sign =
      if roundAwayFromZero mode sign then
        (i + 1) / 2
      else if mode = .toNearest then
        (i + i / 2 % 2) / 2
      else
        i / 2 := by
  unfold u128ShiftRightRound
  rw [if_neg (by decide), if_neg (by decide)]
  dsimp only
  rw [Nat.sub_self, Nat.pow_zero, Nat.div_one, Nat.mod_one, Nat.zero_mod,
    Nat.pow_one]
  by_cases isEven : i % 2 = 0
  · rw [if_pos ⟨isEven, rfl⟩]
    repeat' split
    all_goals omega
  · have isOdd : i % 2 = 1 := by omega
    rw [if_neg (by omega)]
    by_cases isAway : roundAwayFromZero mode sign = true
    · rw [if_pos isAway, if_pos isAway]
      omega
    · rw [if_neg isAway, if_neg isAway]
      by_cases isNearest : mode = .toNearest
      · rw [if_pos ⟨isNearest, isOdd⟩, if_pos isNearest,
          if_neg (fun no => no rfl)]
        split <;> omega
      · rw [if_neg (fun both => isNearest both.1), if_neg isNearest]

/-- A zero is canonical unless its exponent is taken for a normal number's. -/
theorem u128NormalizeRound_zero_iff :
    (u128NormalizeRound mode 0 exp sign).isSupported = true ↔
      ¬(expMin + 128 ≤ exp ∧ exp ≤ expMax + 128) := by
  obtain ⟨isBias, isMin, isMax⟩ := exponent_bounds
  have isClz : u128Clz 0 = 128 := rfl
  have noBits : ∀ shift, u128ShiftRightRound mode 0 shift sign = 0 := by
    intro shift
    by_cases near : shift ≤ 127
    · rw [u128ShiftRightRound_exact mode sign near (Nat.zero_mod _),
        Nat.zero_div]
    · unfold u128ShiftRightRound
      rw [if_neg (by omega), if_pos (by omega)]
      simp
  unfold u128NormalizeRound
  dsimp only
  rw [isClz, noBits, Nat.zero_mul, Nat.zero_mul, Nat.zero_mod, ite_self]
  by_cases isLow : exp - (128 : Nat) < expMin
  · rw [if_pos isLow, roundSignif_denormal (by omega), noBits]
    omega
  rw [if_neg isLow]
  by_cases isHigh : expMax < exp - (128 : Nat)
  · rw [if_pos isHigh, if_neg (by omega)]
    split
    · exact iff_of_true (by cases sign <;> decide) (by omega)
    · exact iff_of_true (by cases sign <;> decide) (by omega)
  · rw [if_neg isHigh]
    have above : expMin ≤ exp - (128 : Nat) := by omega
    have isExp := toNat_bias above (by omega)
    have notDenormal : bias (exp - (128 : Nat)) ≠ expDenormal := by
      intro isDenormal
      have isZero : expDenormal.toNat = 0 := rfl
      rw [isDenormal, isZero] at isExp
      omega
    refine iff_of_false ?_ (by omega)
    unfold roundSignif
    dsimp only
    rw [noBits, Nat.zero_div, if_neg (fun no => no rfl),
      Float80.isSupported_of_normal notDenormal]
    dsimp only
    decide

theorem u128NormalizeRound_normal
    (nonzero : signif ≠ 0)
    (fits : signif < 2 ^ 128)
    (above : expMin ≤ exp - u128Clz signif)
    (below : exp - u128Clz signif ≤ expMax) :
    u128NormalizeRound mode signif exp sign =
      roundSignif mode (signif * 2 ^ u128Clz signif) (exp - u128Clz signif)
        sign := by
  obtain ⟨_, noLoss, _⟩ := u128Clz_eq nonzero fits
  unfold u128NormalizeRound
  dsimp only
  rw [if_neg (by omega), if_neg (by omega), Nat.mod_eq_of_lt noLoss]

theorem u128NormalizeRound_overflow
    (isLarge : expMax < exp - u128Clz signif) :
    (u128NormalizeRound mode signif exp sign).isSupported = true := by
  obtain ⟨isBias, isMin, isMax⟩ := exponent_bounds
  unfold u128NormalizeRound
  dsimp only
  rw [if_neg (by omega), if_pos isLarge]
  split
  · cases sign <;> decide
  split
  · cases sign <;> decide
  · cases sign <;> decide

/-- A number that is shifted by one place before its last shift. -/
theorem twiceRounded_iff
    (fits : signif < 2 ^ 128) :
    2 ^ 63 ≤
        u128ShiftRightRound mode (u128ShiftRightRound mode signif 1 sign) 64
          sign ↔
      if roundAwayFromZero mode sign then
        2 ^ 128 - 2 ^ 65 < signif
      else
        mode = .toNearest ∧ 2 ^ 128 - 2 ^ 64 - 1 ≤ signif := by
  have isHalf := u128ShiftRightRound_one mode signif sign
  have bounds := u128ShiftRightRound_bounds mode signif 1 sign fits
  generalize u128ShiftRightRound mode signif 1 sign = half at bounds isHalf ⊢
  have reaches :
      2 ^ 63 ≤ u128ShiftRightRound mode half 64 sign ↔
        half = 2 ^ 127 ∨
          if roundAwayFromZero mode sign then
            2 ^ 127 - 2 ^ 64 < half
          else
            mode = .toNearest ∧ 2 ^ 127 - 2 ^ 63 ≤ half := by
    by_cases isFull : half = 2 ^ 127
    · have final := u128ShiftRightRound_bounds mode half 64 sign (by omega)
      exact iff_of_true (by omega) (.inl isFull)
    · rw [u128ShiftRightRound_reaches_iff (by omega), or_iff_right isFull]
  rw [reaches]
  by_cases isAway : roundAwayFromZero mode sign = true
  · rw [if_pos isAway] at isHalf ⊢
    rw [if_pos isAway]
    omega
  · rw [if_neg isAway] at isHalf ⊢
    rw [if_neg isAway]
    by_cases isNearest : mode = .toNearest
    · rw [if_pos isNearest] at isHalf
      rw [and_iff_right isNearest, and_iff_right isNearest]
      rcases Nat.mod_two_eq_zero_or_one (signif / 2) with isEven | isOdd
      · omega
      · omega
    · rw [if_neg isNearest] at isHalf
      refine iff_of_false ?_ fun both => isNearest both.1
      rintro (isFull | both)
      · omega
      · exact isNearest both.1

/-- A denormal is canonical unless it is rounded up to the integer bit. -/
theorem u128NormalizeRound_denormal_iff
    (nonzero : signif ≠ 0)
    (fits : signif < 2 ^ 128)
    (isSmall : exp - u128Clz signif < expMin) :
    (u128NormalizeRound mode signif exp sign).isSupported = true ↔
      ¬Misrounds mode signif exp sign := by
  obtain ⟨isBias, isMin, isMax⟩ := exponent_bounds
  obtain ⟨topBit, noLoss, small⟩ := u128Clz_eq nonzero fits
  unfold u128NormalizeRound
  dsimp only
  rw [if_pos isSmall]
  by_cases isAbove : expMin < exp
  · -- The significand is shifted left, and nothing is lost yet.
    rw [if_pos isAbove]
    have isDouble :
        signif * 2 ^ (exp - expMin + 1).toNat =
          signif * 2 ^ (exp - expMin).toNat * 2 := by
      rw [Nat.mul_assoc, ← Nat.pow_succ]
      congr 2
      omega
    have below : signif * 2 ^ (exp - expMin + 1).toNat < 2 ^ 128 := by
      refine Nat.lt_of_le_of_lt (Nat.mul_le_mul_left _ ?_) noLoss
      exact Nat.pow_le_pow_right (by decide) (by omega)
    rw [misrounds_iff nonzero (by omega) below, isDouble]
    rw [isDouble] at below
    rw [Nat.mod_eq_of_lt (by omega), roundSignif_denormal (by omega),
      reaches_iff_doubled below]
  rw [if_neg isAbove]
  by_cases isMinimal : exp = expMin
  · have noShift : (expMin - exp).toNat = 0 := by omega
    have isOne : (exp - expMin + 1).toNat = 1 := by omega
    have isDouble : signif * 2 ^ (exp - expMin + 1).toNat = signif * 2 := by
      rw [isOne, Nat.pow_one]
    have below : signif * 2 ^ (exp - expMin + 1).toNat < 2 ^ 128 := by
      refine Nat.lt_of_le_of_lt (Nat.mul_le_mul_left _ ?_) noLoss
      exact Nat.pow_le_pow_right (by decide) (by omega)
    rw [misrounds_iff nonzero (by omega) below, isDouble]
    rw [isDouble] at below
    have same : u128ShiftRightRound mode signif 0 sign = signif := rfl
    rw [noShift, same, roundSignif_denormal (by omega),
      reaches_iff_doubled below]
  by_cases isNext : exp = expMin - 1
  · -- The significand is shifted by one place, and rounded twice.
    have oneShift : (expMin - exp).toNat = 1 := by omega
    have noDouble : signif * 2 ^ (exp - expMin + 1).toNat = signif := by
      rw [show (exp - expMin + 1).toNat = 0 by omega, Nat.pow_zero, Nat.mul_one]
    have isHalf := u128ShiftRightRound_one mode signif sign
    have bounds := u128ShiftRightRound_bounds mode signif 1 sign fits
    rw [misrounds_iff nonzero (by omega) (by rw [noDouble]; exact fits),
      noDouble, oneShift, roundSignif_denormal (by omega)]
    exact not_congr (twiceRounded_iff fits)
  · -- So far below, the rounding stays far from the integer bit.
    have far : 2 ^ 2 ≤ 2 ^ (expMin - exp).toNat :=
      Nat.pow_le_pow_right (by decide) (by omega)
    have quarter : signif / 2 ^ (expMin - exp).toNat ≤ signif / 2 ^ 2 :=
      Nat.div_le_div_left far (by decide)
    have bounds := u128ShiftRightRound_bounds mode signif
      (expMin - exp).toNat sign fits
    rw [roundSignif_denormal (by omega)]
    have final := u128ShiftRightRound_bounds mode
      (u128ShiftRightRound mode signif (expMin - exp).toNat sign) 64 sign
      (by omega)
    refine iff_of_true (by omega) ?_
    rintro (⟨isZero, _⟩ | ⟨above, _⟩)
    · exact nonzero isZero
    · omega

/-- Which numbers are canonical after `u128_normalize_round`. -/
theorem u128NormalizeRound_isSupported_iff
    (fits : signif < 2 ^ 128) :
    (u128NormalizeRound mode signif exp sign).isSupported = true ↔
      ¬Misrounds mode signif exp sign := by
  obtain ⟨isBias, isMin, isMax⟩ := exponent_bounds
  by_cases isZero : signif = 0
  · rw [isZero, u128NormalizeRound_zero_iff]
    unfold Misrounds
    dsimp only
    rw [Nat.zero_mul]
    have notReached :
        ¬if roundAwayFromZero mode sign then 2 ^ 128 - 2 ^ 65 < 0
          else mode = .toNearest ∧ 2 ^ 128 - 2 ^ 64 - 1 ≤ 0 := by
      split <;> omega
    simp only [notReached, and_false, or_false, true_and]
  · by_cases isSmall : exp - u128Clz signif < expMin
    · exact u128NormalizeRound_denormal_iff isZero fits isSmall
    · obtain ⟨topBit, noLoss, small⟩ := u128Clz_eq isZero fits
      have notMisrounded : ¬Misrounds mode signif exp sign := by
        unfold Misrounds
        dsimp only
        have large :
            2 ^ 128 ≤ signif * 2 ^ (exp - expMin + 1).toNat := by
          have scaled :
              signif * 2 ^ (u128Clz signif + 1) ≤
                signif * 2 ^ (exp - expMin + 1).toNat :=
            Nat.mul_le_mul_left _
              (Nat.pow_le_pow_right (by decide) (by omega))
          rw [Nat.pow_succ, ← Nat.mul_assoc] at scaled
          omega
        rintro (⟨isNone, _⟩ | ⟨_, below, _⟩)
        · exact isZero isNone
        · omega
      refine iff_of_true ?_ notMisrounded
      by_cases isLarge : expMax < exp - u128Clz signif
      · exact u128NormalizeRound_overflow isLarge
      · rw [u128NormalizeRound_normal isZero fits (by omega) (by omega)]
        have aboveMin : expMin ≤ exp - u128Clz signif := by omega
        obtain ⟨_, large, positive, _⟩ :=
          roundSignif_normal mode sign topBit noLoss aboveMin (by omega)
        exact Float80.isSupported_of_large large (by omega)

end Normalizing

end GuestKernel
