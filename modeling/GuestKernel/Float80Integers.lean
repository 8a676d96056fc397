import GuestKernel.Float80Order
import Mathlib.Data.Rat.Floor

namespace GuestKernel

/-!
# Numbers as integers

`f80_to_int` reinterprets the significand once its unit is one.  It does not look
at the top bit of a number that needs no shift.
-/

/-- The integer that a number is rounded to. -/
def RoundingMode.round (mode : RoundingMode) (q : ℚ) : Int :=
  match mode with
  | .down => ⌊q⌋
  | .up => ⌈q⌉
  | .chop => if q < 0 then ⌈q⌉ else ⌊q⌋
  | .toNearest =>
    if q - ⌊q⌋ < 1 / 2 ∨ q - ⌊q⌋ = 1 / 2 ∧ ⌊q⌋ % 2 = 0 then
      ⌊q⌋
    else
      ⌊q⌋ + 1

section Rounding

variable {mode : RoundingMode} {sign : Bool} {i half : Nat}

theorem round_intCast
    (mode : RoundingMode)
    (n : Int) :
    mode.round n = n := by
  cases mode <;> simp [RoundingMode.round]

/-- The mode that rounds a number as the other one rounds its negation. -/
def RoundingMode.mirrored : RoundingMode → RoundingMode
  | .down => .up
  | .up => .down
  | mode => mode

theorem round_neg
    (mode : RoundingMode)
    (q : ℚ) :
    mode.round (-q) = -mode.mirrored.round q := by
  cases mode with
  | down => exact Int.floor_neg
  | up => exact Int.ceil_neg
  | chop =>
    change (if -q < 0 then ⌈-q⌉ else ⌊-q⌋) = -if q < 0 then ⌈q⌉ else ⌊q⌋
    rw [Int.ceil_neg, Int.floor_neg]
    rcases lt_trichotomy q 0 with negative | isZero | positive
    · rw [if_neg (by linarith), if_pos negative]
    · rw [isZero]
      decide
    · rw [if_pos (by linarith), if_neg (by linarith)]
  | toNearest =>
    change RoundingMode.toNearest.round (-q) = -RoundingMode.toNearest.round q
    have atLeast := Int.floor_le q
    have below := Int.lt_floor_add_one q
    by_cases whole : q = ⌊q⌋
    · rw [whole, ← Int.cast_neg, round_intCast, round_intCast]
    · have above := lt_of_le_of_ne' atLeast whole
      have isFloor : ⌊-q⌋ = -⌊q⌋ - 1 :=
        Int.floor_eq_iff.mpr
          ⟨by push_cast; linarith, by push_cast; linarith⟩
      unfold RoundingMode.round
      dsimp only
      rw [isFloor]
      generalize ⌊q⌋ = n at above below
      push_cast
      split_ifs with first second second
      · rcases first with less | ⟨_, isEven⟩
        · rcases second with less | ⟨same, _⟩
          · linarith
          · linarith
        · rcases second with less | ⟨_, isEven⟩
          · linarith
          · omega
      · omega
      · omega
      · rw [not_or, not_and] at first second
        have isHalf : q - n = 1 / 2 := by linarith
        have isOdd := second.2 isHalf
        have isOddToo := first.2 (by linarith)
        omega

theorem round_quotient
    (mode : RoundingMode)
    (i : Nat)
    (positive : 0 < half) :
    let rest := i % (half * 2)
    let quotient := i / (half * 2)
    mode.round (i / (half * 2 : Nat)) =
      if rest ≠ 0 ∧ (mode = .up ∨ mode = .toNearest ∧
          (half < rest ∨ rest = half ∧ quotient % 2 = 1)) then
        (quotient : Int) + 1
      else
        quotient := by
  dsimp only
  have isSum := Nat.div_add_mod i (half * 2)
  have below := Nat.mod_lt i (Nat.mul_pos positive (by decide : 0 < 2))
  generalize i / (half * 2) = quotient at isSum ⊢
  generalize i % (half * 2) = rest at isSum below ⊢
  have wide : (0 : ℚ) < (half * 2 : Nat) := by
    exact_mod_cast Nat.mul_pos positive (by decide)
  have isValue :
      (i : ℚ) / (half * 2 : Nat) = quotient + rest / (half * 2 : Nat) := by
    rw [← isSum]
    push_cast
    field_simp
  have notNegative : (0 : ℚ) ≤ rest / (half * 2 : Nat) :=
    div_nonneg (Nat.cast_nonneg _) wide.le
  have lessThanOne : (rest : ℚ) / (half * 2 : Nat) < 1 := by
    rw [div_lt_one wide]
    exact_mod_cast below
  have isNone : (rest : ℚ) / (half * 2 : Nat) = 0 ↔ rest = 0 := by
    rw [div_eq_zero_iff, or_iff_left wide.ne', Nat.cast_eq_zero]
  have isBelow : (rest : ℚ) / (half * 2 : Nat) < 1 / 2 ↔ rest < half := by
    rw [div_lt_div_iff₀ wide (by decide)]
    norm_cast
    omega
  have isHalf : (rest : ℚ) / (half * 2 : Nat) = 1 / 2 ↔ rest = half := by
    rw [div_eq_div_iff wide.ne' (by decide)]
    norm_cast
    omega
  rw [isValue]
  generalize (rest : ℚ) / (half * 2 : Nat) = part at *
  have isFloor : ⌊(quotient : ℚ) + part⌋ = quotient :=
    Int.floor_eq_iff.mpr ⟨by push_cast; linarith, by push_cast; linarith⟩
  have notBelow : ¬(quotient : ℚ) + part < 0 := by
    have notNegative : (0 : ℚ) ≤ quotient := Nat.cast_nonneg _
    linarith
  unfold RoundingMode.round
  cases mode with
  | down => simp [isFloor]
  | up =>
    by_cases noRest : rest = 0
    · simp [noRest, isNone.mpr noRest]
    · have above := notNegative.lt_of_ne' (noRest ∘ isNone.mp)
      have isCeil : ⌈(quotient : ℚ) + part⌉ = quotient + 1 :=
        Int.ceil_eq_iff.mpr ⟨by push_cast; linarith, by push_cast; linarith⟩
      simp [noRest, isCeil]
  | chop => simp [isFloor, notBelow]
  | toNearest =>
    dsimp only
    rw [isFloor, Int.cast_natCast, add_sub_cancel_left]
    simp only [isBelow, isHalf, reduceCtorEq, false_or, true_and]
    split_ifs <;> omega

/-- The bits that are shifted out are all looked at. -/
theorem u128ShiftRightRound_round
    {i : Nat}
    (mode : RoundingMode)
    (shift : Nat)
    (sign : Bool)
    (small : i < 2 ^ 64 ∨ shift ≤ 65) :
    ((if sign then -1 else 1 : Int) * u128ShiftRightRound mode i shift sign : Int) =
      mode.round ((if sign then -1 else 1 : Int) * (i / 2 ^ shift)) := by
  have isSigned :
      mode.round ((if sign then -1 else 1 : Int) * (i / 2 ^ shift)) =
        (if sign then -1 else 1) *
          (if sign then mode.mirrored else mode).round (i / 2 ^ shift) := by
    cases sign
    · simp
    · simp [← round_neg]
  have isAway :
      roundAwayFromZero mode sign = true ↔
        (if sign then mode.mirrored else mode) = .up := by
    unfold roundAwayFromZero RoundingMode.mirrored
    cases sign <;> cases mode <;> decide
  have isNearest :
      mode = .toNearest ↔ (if sign then mode.mirrored else mode) = .toNearest := by
    unfold RoundingMode.mirrored
    cases sign <;> cases mode <;> decide
  rw [isSigned]
  congr 1
  generalize (if sign then mode.mirrored else mode) = effective at *
  cases shift with
  | zero =>
    rw [pow_zero, div_one]
    exact (round_intCast effective i).symm
  | succ before =>
    have positive := Nat.two_pow_pos before
    have isQuotient := round_quotient effective i positive
    have isPower : (2 : ℚ) ^ (before + 1) = (2 ^ before * 2 : Nat) := by
      rw [pow_succ]
      norm_cast
    have isRest :
        i % 2 ^ (before + 1) =
          i % 2 ^ before + 2 ^ before * (i / 2 ^ before % 2) := by
      rw [Nat.pow_succ, Nat.mod_mul]
    have below := Nat.mod_lt i positive
    rw [isPower, isQuotient, ← Nat.pow_succ]
    simp only [← isAway, ← isNearest]
    unfold u128ShiftRightRound
    rw [if_neg (Nat.succ_ne_zero before)]
    by_cases isFar : 127 < before + 1
    · have isTiny : i < 2 ^ before :=
        Nat.lt_of_lt_of_le (small.resolve_right (by omega))
          (Nat.pow_le_pow_right (by decide) (by omega))
      have isDouble : 2 ^ (before + 1) = 2 ^ before * 2 := Nat.pow_succ 2 before
      rw [if_pos isFar, Nat.mod_eq_of_lt (by omega : i < 2 ^ (before + 1)),
        Nat.div_eq_of_lt (by omega : i < 2 ^ (before + 1))]
      by_cases isAway : roundAwayFromZero mode sign = true
      · by_cases noBits : i = 0
        · simp [isAway, noBits]
        · simp [isAway, noBits]
      · simp [isAway]
        omega
    · have kept : i % 2 ^ before % 2 ^ 64 = i % 2 ^ before := by
        refine Nat.mod_eq_of_lt ?_
        rcases small with small | near
        · exact Nat.lt_of_le_of_lt (Nat.mod_le _ _) small
        · exact Nat.lt_of_lt_of_le below
            (Nat.pow_le_pow_right (by decide) (by omega))
      have bit := Nat.mod_lt (i / 2 ^ before) (by decide : 0 < 2)
      rw [if_neg isFar]
      dsimp only
      rw [Nat.add_sub_cancel, kept, isRest]
      generalize i / 2 ^ (before + 1) = quotient
      generalize i % 2 ^ before = low at below ⊢
      generalize 2 ^ before = half at below positive bit ⊢
      generalize i / half % 2 = guard at bit ⊢
      clear isRest isQuotient isPower kept
      rcases (by omega : guard = 0 ∨ guard = 1) with noGuard | isGuard
      · have isBelow : ¬half < low := by omega
        have notHalf : low ≠ half := by omega
        by_cases isAway : roundAwayFromZero mode sign = true
        · simp [noGuard, isAway, isBelow, notHalf]
        · simp [noGuard, isAway, isBelow, notHalf]
      · have someRest : low + half ≠ 0 := by omega
        by_cases isAway : roundAwayFromZero mode sign = true
        · simp [isGuard, isAway]
          omega
        · by_cases isNearest : mode = .toNearest
          · simp only [isAway]
            simp [isGuard, isNearest, Nat.pos_iff_ne_zero]
            split_ifs <;> omega
          · simp [isGuard, isAway, isNearest]

end Rounding

open Float80

section Integers

variable {mode : RoundingMode} {f : Float80}

/-- The integer in 64 bits, or the indefinite one. -/
def toIndefinite (n : Int) : BitVec 64 :=
  if -2 ^ 63 ≤ n ∧ n < 2 ^ 63 then BitVec.ofInt 64 n else BitVec.intMin 64

/-- The number rounded to an integer of 64 bits. -/
def Float80.roundedInt (mode : RoundingMode) (f : Float80) : BitVec 64 :=
  if f.isInf || f.isNan then
    BitVec.intMin 64
  else
    toIndefinite (mode.round f.value)

theorem value_of_scale
    (power : Nat)
    (scale : unbiasDenormal f.exp - 63 = power) :
    f.value = (f.signFactor * (f.signif.toNat * 2 ^ power : Nat) : Int) := by
  unfold value
  rw [scale, zpow_natCast]
  push_cast
  ring

theorem value_of_shift
    (shift : Nat)
    (isShift : unbiasDenormal f.exp - 63 = -shift) :
    f.value = f.signFactor * (f.signif.toNat / 2 ^ shift) := by
  unfold value
  rw [isShift, zpow_neg, zpow_natCast]
  ring

theorem toIndefinite_small
    {n : Nat}
    (sign : Bool)
    (small : n ≤ 2 ^ 63) :
    toIndefinite ((if sign then -1 else 1) * n) =
      if sign then -BitVec.ofNat 64 n else BitVec.ofNat 64 n := by
  unfold toIndefinite
  apply BitVec.eq_of_toNat_eq
  cases sign
  · by_cases isTop : n = 2 ^ 63
    · rw [isTop]
      rfl
    · rw [if_pos (by simp; omega)]
      simp
  · rw [if_pos (by simp; omega)]
    simp [BitVec.toNat_ofInt]
    omega

/-- A number above the integers of 64 bits is not rounded to one. -/
theorem toIndefinite_large
    {n : Nat}
    (sign : Bool)
    (large : 2 ^ 63 < n) :
    toIndefinite ((if sign then -1 else 1) * n) = BitVec.intMin 64 := by
  unfold toIndefinite
  rw [if_neg]
  cases sign <;> simp <;> omega

theorem shiftToUnit_round
    (mode : RoundingMode)
    (below : f.exp.toNat ≤ 16446) :
    f.signFactor *
        u128ShiftRightRound mode f.signif.toNat (16446 - f.exp.toNat) f.sign =
      mode.round f.value := by
  obtain ⟨isBias, isMin, isMax⟩ := exponent_bounds
  have isRounded := fun shift =>
    u128ShiftRightRound_round mode shift f.sign (.inl f.signif.isLt)
  by_cases isDenormal : f.exp = expDenormal
  · have isExp := (unbiasDenormal_eq f).1 isDenormal
    have isZero : f.exp.toNat = 0 := by
      rw [isDenormal]
      rfl
    rw [isZero, value_of_shift 16445 (by omega)]
    exact isRounded 16445
  · have isExp := ((unbiasDenormal_eq f).2 isDenormal).1
    rw [value_of_shift (16446 - f.exp.toNat) (by omega)]
    exact isRounded _

/--
The conversion to an integer is right unless the unit of the number is one, and
its significand is not that of a power of two.
-/
theorem f80ToInt_iff
    (mode : RoundingMode)
    (supported : f.isSupported = true) :
    f80ToInt mode f = f.roundedInt mode ↔
      ¬(f.exp = bias 63 ∧ f.signif ≠ 0x8000000000000000) := by
  obtain ⟨isBias, isMin, isMax⟩ := exponent_bounds
  have isUnit : (bias 63).toNat = 16446 := rfl
  have fits := f.signif.isLt
  have isFactor : f.signFactor = if f.sign then -1 else 1 := rfl
  have topBit : f.exp ≠ expDenormal → 2 ^ 63 ≤ f.signif.toNat := fun isNormal =>
    (isSupported_of_normal isNormal).mp supported
  unfold f80ToInt
  rw [supported, if_neg (by decide)]
  by_cases isAbove : bias 63 < f.exp
  · have above : 16446 < f.exp.toNat := isAbove
    have isNormal : f.exp ≠ expDenormal := by
      intro isDenormal
      rw [isDenormal] at above
      exact absurd above (by decide)
    have isExp := ((unbiasDenormal_eq f).2 isNormal).1
    rw [if_pos isAbove, iff_true_right (fun both => by
      rw [both.1] at above
      exact absurd above (Nat.lt_irrefl _))]
    unfold roundedInt
    split
    · rfl
    · have power : 0 < (unbiasDenormal f.exp - 63).toNat := by omega
      have twice := Nat.mul_le_mul (topBit isNormal)
        (Nat.pow_le_pow_right (by decide : 0 < 2) power)
      rw [value_of_scale (unbiasDenormal f.exp - 63).toNat (by omega),
        round_intCast, isFactor, toIndefinite_large _ (by omega)]
  · have below : f.exp.toNat ≤ 16446 := Nat.le_of_not_lt isAbove
    have notSpecial : (f.isInf || f.isNan) = false := by
      have finite : f.IsFinite := by
        intro isSpecial
        rw [isSpecial] at below
        exact absurd below (by decide)
      rw [finite.notInf, finite.notNan]
      rfl
    have isRounded := shiftToUnit_round mode below
    unfold roundedInt shiftRight
    dsimp only
    rw [if_neg isAbove, if_neg (Bool.eq_false_iff.mp notSpecial), isUnit,
      ← isRounded, isFactor]
    by_cases small :
        u128ShiftRightRound mode f.signif.toNat (16446 - f.exp.toNat) f.sign ≤
          2 ^ 63
    · rw [toIndefinite_small f.sign small, iff_true_left rfl]
      rintro ⟨isSame, notPower⟩
      have isExp : f.exp.toNat = 16446 := by
        rw [isSame]
        exact isUnit
      rw [isExp] at small
      have isTop : f.signif.toNat = 2 ^ 63 :=
        Nat.le_antisymm small (topBit (by rw [isSame]; decide))
      exact notPower (BitVec.eq_of_toNat_eq isTop)
    · have isUnitExp : f.exp.toNat = 16446 := by
        have bounds := u128ShiftRightRound_bounds mode f.signif.toNat
          (16446 - f.exp.toNat) f.sign (by omega)
        by_contra notSame
        have halved : f.signif.toNat / 2 ^ (16446 - f.exp.toNat) ≤
            f.signif.toNat / 2 ^ 1 :=
          Nat.div_le_div_left
            (Nat.pow_le_pow_right (by decide) (by omega)) (by decide)
        omega
      have isSame : f.exp = bias 63 := BitVec.eq_of_toNat_eq isUnitExp
      have isWhole :
          u128ShiftRightRound mode f.signif.toNat (16446 - f.exp.toNat) f.sign =
            f.signif.toNat := by
        rw [isUnitExp]
        rfl
      rw [isWhole] at small ⊢
      rw [toIndefinite_large f.sign (Nat.lt_of_not_le small),
        BitVec.ofNat_toNat, BitVec.setWidth_eq]
      have notPower : f.signif ≠ 0x8000000000000000 := by
        intro isPower
        rw [isPower] at small
        exact small (by decide)
      have notNegated : -f.signif ≠ BitVec.intMin 64 := by
        intro isMin
        have isPower := congrArg BitVec.toNat isMin
        rw [BitVec.toNat_neg, BitVec.toNat_intMin] at isPower
        omega
      refine iff_of_false ?_ fun both => both ⟨isSame, notPower⟩
      split
      · exact notNegated
      · exact notPower

/-- An integer is converted, and comes back. -/
theorem f80ToInt_fromInt
    (mode : RoundingMode)
    (i : BitVec 64) :
    f80ToInt mode (f80FromInt i) = i := by
  obtain ⟨isBias, isMin, isMax⟩ := exponent_bounds
  by_cases isZero : i = 0
  · rw [isZero]
    cases mode <;> rfl
  have isUnit : (bias 63).toNat = 16446 := rfl
  generalize isMagnitude : (if i.msb then -i else i) = magnitude
  have nonzero : magnitude ≠ 0 := by
    rw [← isMagnitude]
    split
    · exact fun noBits => isZero (BitVec.neg_eq_zero_iff.mp noBits)
    · exact isZero
  have atMost : magnitude.toNat ≤ 2 ^ 63 := by
    rw [← isMagnitude]
    split
    case isTrue negative =>
      have topBit := BitVec.msb_eq_true_iff_two_mul_ge.mp negative
      rw [BitVec.toNat_neg]
      omega
    case isFalse positive =>
      have noTopBit := BitVec.msb_eq_false_iff_two_mul_lt.mp
        (Bool.eq_false_iff.mpr positive)
      omega
  have isNormalized :
      f80FromInt i = f80Normalize ⟨magnitude, bias 63, i.msb⟩ := by
    unfold f80FromInt
    rw [if_neg isZero, ← isMagnitude]
    cases i.msb <;> rfl
  have supported := f80FromInt_isSupported i
  obtain ⟨topBit, noLoss, few⟩ := clz64_eq nonzero
  obtain ⟨isSign, isSignif, isExp⟩ :=
    f80Normalize_shifted (f := ⟨magnitude, bias 63, i.msb⟩) nonzero
      (by dsimp only; omega)
  rw [← isNormalized] at isSign isSignif isExp
  dsimp only at isSign isSignif isExp
  generalize f80FromInt i = f at supported isSign isSignif isExp ⊢
  have isNormal : f.exp ≠ expDenormal := by
    intro isDenormal
    rw [isDenormal, isUnit] at isExp
    have noExp : expDenormal.toNat = 0 := rfl
    omega
  have finite : f.IsFinite := by
    intro isSpecial
    rw [isSpecial, isUnit] at isExp
    have topExp : expSpecial.toNat = 32767 := rfl
    omega
  have isRight :
      ¬(f.exp = bias 63 ∧ f.signif ≠ 0x8000000000000000) := by
    rintro ⟨isSame, notPower⟩
    rw [isSame, isUnit] at isExp
    have noZeros : clz64 magnitude = 0 := by omega
    rw [noZeros] at topBit isSignif
    have isTop : f.signif.toNat = 2 ^ 63 := by omega
    exact notPower (BitVec.eq_of_toNat_eq isTop)
  have isValue : f.value = (f.signFactor * magnitude.toNat : Int) := by
    have isExponent := ((unbiasDenormal_eq f).2 isNormal).1
    rw [value_of_shift (clz64 magnitude) (by omega), isSignif]
    push_cast
    rw [mul_div_cancel_right₀ _ (pow_ne_zero _ (by decide))]
  rw [(f80ToInt_iff mode supported).mpr isRight]
  unfold roundedInt
  rw [finite.notInf, finite.notNan, isValue, round_intCast]
  unfold signFactor
  rw [isSign, toIndefinite_small i.msb atMost, BitVec.ofNat_toNat,
    BitVec.setWidth_eq, ← isMagnitude]
  cases i.msb
  · rfl
  · exact BitVec.neg_neg

/--
The conversion to an integer is right unless the unit of the number is one, and
its significand is not that of a power of two; an integer that was converted
comes back.
-/
theorem f80_to_int_honest_iff
    (mode : RoundingMode)
    (f : Float80)
    (i : BitVec 64) :
    (f.isSupported = true →
        (f80ToInt mode f = f.roundedInt mode ↔
          ¬(f.exp = bias 63 ∧ f.signif ≠ 0x8000000000000000))) ∧
      f80ToInt mode (f80FromInt i) = i :=
  ⟨f80ToInt_iff mode, f80ToInt_fromInt mode i⟩

/-- The value 2 ^ 63 + 1 is taken for a negative integer. -/
theorem f80_to_int_wraps :
    let f : Float80 := ⟨0x8000000000000001, bias 63, false⟩
    f.isSupported = true ∧ f80ToInt .toNearest f ≠ f.roundedInt .toNearest := by
  refine ⟨by decide, ?_⟩
  rw [Ne, f80ToInt_iff .toNearest (by decide)]
  decide

/-- One and a half is rounded to the even integer. -/
theorem one_and_half_to_int :
    let f : Float80 := ⟨0xc000000000000000, bias 0, false⟩
    f80ToInt .toNearest f = f.roundedInt .toNearest :=
  ((f80_to_int_honest_iff .toNearest ⟨0xc000000000000000, bias 0, false⟩ 0).1
    (by decide)).mpr (by decide)

end Integers

end GuestKernel
