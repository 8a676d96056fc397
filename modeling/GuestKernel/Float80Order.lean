import GuestKernel.Float80Sqrt
import Mathlib.Algebra.Order.Field.Basic
import Mathlib.Algebra.Order.Field.Rat
import Mathlib.Algebra.Order.GroupWithZero.WithZero
import Mathlib.Data.Rat.Cast.Order
import Mathlib.Order.WithBot
import Mathlib.Tactic.Ring

namespace GuestKernel
open Bool (and_eq_true not_eq_true)
open BitVec (eq_of_toNat_eq)

/-!
# The order of 80-bit numbers

The comparisons look at the sign of a difference that is rounded.  Whatever the
mode, it is that of the exact difference, and only an exact zero is rounded to a
zero.  But a difference that is rounded up to the integer bit fails the
assertion of `f80_add`, and then there is no answer.
-/

/-- `f80_lt`. -/
def f80Lt (mode : RoundingMode) (a b : Float80) : Option Bool :=
  if f80Uncomparable a b then
    some false
  else if a.isInf && b.isInf && a.sign == b.sign then
    some false
  else if a.isZero && b.isZero then
    some false
  else
    (f80AddAsserted mode a (f80Neg b)).map fun diff =>
      diff.sign && !diff.isZero

/-- `f80_lte`. -/
def f80Lte (mode : RoundingMode) (a b : Float80) : Option Bool :=
  (f80Lt mode a b).map fun less => less || f80Eq a b

/-- `f80_gt`. -/
def f80Gt (mode : RoundingMode) (a b : Float80) : Option Bool :=
  (f80Lte mode a b).map fun lessOrEqual => !lessOrEqual

namespace Float80

variable {a b f : Float80}

/-- The sign as a factor. -/
def signFactor (f : Float80) : Int :=
  if f.sign then -1 else 1

/-- The value of a finite number. -/
def value (f : Float80) : ℚ :=
  f.signFactor * f.signif.toNat * 2 ^ (unbiasDenormal f.exp - 63)

/-- The value of a number that is no NaN. -/
def extended (f : Float80) : WithBot (WithTop ℚ) :=
  if f.isInf then
    if f.sign then ⊥ else ((⊤ : WithTop ℚ) : WithBot (WithTop ℚ))
  else
    ((f.value : WithTop ℚ) : WithBot (WithTop ℚ))

/-- The magnitude in units of the least denormal. -/
def magnitude (f : Float80) : Nat :=
  f.signif.toNat * 2 ^ (f.exp.toNat - 1)

/-- The number in units of the least denormal. -/
def units (f : Float80) : Int :=
  f.signFactor * f.magnitude

/-- The magnitude that an infinity has as an encoding. -/
def infMagnitude : Nat :=
  2 ^ 63 * 2 ^ (expSpecial.toNat - 1)

theorem value_eq
    (f : Float80) :
    f.value = f.units * 2 ^ (expMin - 63) := by
  have isExp :
      unbiasDenormal f.exp - 63 =
        ((f.exp.toNat - 1 : Nat) : Int) + (expMin - 63) := by
    by_cases isDenormal : f.exp = expDenormal
    · have isMin := (unbiasDenormal_eq f).1 isDenormal
      have isZero : f.exp.toNat = 0 := by
        rw [isDenormal]
        rfl
      omega
    · obtain ⟨isExp, positive⟩ := (unbiasDenormal_eq f).2 isDenormal
      omega
  unfold value units magnitude
  rw [isExp, zpow_add₀ (by decide), zpow_natCast]
  push_cast
  ring

theorem magnitude_of_inf
    (infinite : f.isInf = true)
    (supported : f.isSupported = true) :
    f.magnitude = infMagnitude := by
  have isSpecial := (special_iff f).mpr (.inl infinite)
  have large := (isSupported_of_normal (by rw [isSpecial]; decide)).mp supported
  have noFraction : f.fraction = 0 := by
    rw [isInf, and_eq_true, beq_iff_eq, beq_iff_eq] at infinite
    exact infinite.2
  have fits := f.signif.isLt
  have isSignif : f.signif.toNat = 2 ^ 63 := by
    unfold fraction at noFraction
    omega
  unfold magnitude infMagnitude
  rw [isSignif, isSpecial]

theorem magnitude_of_finite
    (finite : f.IsFinite) :
    f.magnitude < infMagnitude := by
  have fits := f.exp.isLt
  have isTop : expSpecial.toNat = 0x7fff := rfl
  have notSpecial : f.exp.toNat ≠ 0x7fff := fun isSpecial =>
    finite (eq_of_toNat_eq isSpecial)
  have below : f.exp.toNat - 1 + 1 ≤ expSpecial.toNat - 1 := by omega
  calc
    f.magnitude < 2 ^ 64 * 2 ^ (f.exp.toNat - 1) :=
      Nat.mul_lt_mul_of_pos_right f.signif.isLt (Nat.two_pow_pos _)
    _ = 2 ^ 63 * 2 ^ (f.exp.toNat - 1 + 1) := by
      rw [Nat.pow_succ 2 (f.exp.toNat - 1), Nat.pow_succ 2 63]
      ring
    _ ≤ infMagnitude :=
      Nat.mul_le_mul_left _ (Nat.pow_le_pow_right (by decide) below)

theorem magnitude_eq_zero_iff
    (supported : f.isSupported = true) :
    f.magnitude = 0 ↔ f.isZero = true := by
  unfold magnitude isZero
  rw [Nat.mul_eq_zero, or_iff_left (Nat.two_pow_pos _).ne', and_eq_true,
    beq_iff_eq, beq_iff_eq]
  constructor
  · intro noBits
    have isZero : f.signif = 0 := eq_of_toNat_eq noBits
    exact ⟨((canonical_iff f).mpr supported).zero isZero, isZero⟩
  · rintro ⟨_, isZero⟩
    rw [isZero]
    rfl

/-- The units of numbers are ordered as their values are. -/
theorem extended_lt_iff
    (aSupported : a.isSupported = true)
    (bSupported : b.isSupported = true)
    (aNotNan : a.isNan = false)
    (bNotNan : b.isNan = false) :
    a.extended < b.extended ↔ a.units < b.units := by
  have positive : (0 : ℚ) < 2 ^ (expMin - 63) := zpow_pos (by decide) _
  have large : ∀ f : Float80, f.isSupported = true → f.isNan = false →
      f.isInf = true ∧ f.magnitude = infMagnitude ∨
        f.isInf = false ∧ f.magnitude < infMagnitude := by
    intro f supported notNan
    cases isInf : f.isInf with
    | true =>
      exact .inl ⟨rfl, magnitude_of_inf isInf supported⟩
    | false =>
      exact .inr ⟨rfl, magnitude_of_finite (isFinite_of_not isInf notNan)⟩
  have aboveZero : 0 < infMagnitude :=
    Nat.mul_pos (by decide) (Nat.two_pow_pos _)
  -- Simp must not compute it.
  generalize infMagnitude = top at large aboveZero
  unfold extended
  rcases large a aSupported aNotNan with ⟨aInf, aLarge⟩ | ⟨aFinite, aSmall⟩
  · rcases large b bSupported bNotNan with ⟨bInf, bLarge⟩ | ⟨bFinite, bSmall⟩
    · unfold units signFactor
      rw [aInf, bInf, aLarge, bLarge]
      cases a.sign <;> cases b.sign <;> simp
      omega
    · unfold units signFactor
      rw [aInf, bFinite, aLarge]
      cases a.sign <;> cases b.sign <;> simp <;> omega
  · rcases large b bSupported bNotNan with ⟨bInf, bLarge⟩ | ⟨bFinite, bSmall⟩
    · unfold units signFactor
      have belowTop :
          ((a.value : WithTop ℚ) : WithBot (WithTop ℚ)) < ⊤ :=
        WithBot.coe_lt_coe.mpr (WithTop.coe_lt_top _)
      rw [aFinite, bInf, bLarge]
      cases a.sign <;> cases b.sign <;> simp [belowTop] <;> omega
    · rw [aFinite, bFinite, if_neg (by decide), if_neg (by decide),
        WithBot.coe_lt_coe, WithTop.coe_lt_coe, value_eq, value_eq,
        mul_lt_mul_iff_of_pos_right positive, Int.cast_lt]

end Float80

open Float80

section Differences

variable {mode : RoundingMode} {a b : Float80}

/-- The result is a negative number. -/
def Float80.IsBelow (f : Float80) : Bool :=
  f.sign && !f.isZero

/-- A number of at least one unit is not rounded to zero. -/
theorem u128NormalizeRound_nonzero
    {signif : Nat}
    {exp : Int}
    {sign : Bool}
    (fits : signif < 2 ^ 128)
    (above : expMin ≤ exp)
    (atLeast : 2 ^ 64 ≤ signif * 2 ^ (exp - expMin).toNat) :
    (u128NormalizeRound mode signif exp sign).isZero = false := by
  have nonzero : signif ≠ 0 := by
    intro isZero
    rw [isZero, Nat.zero_mul] at atLeast
    omega
  have ofSignif : ∀ f : Float80, f.signif.toNat ≠ 0 → f.isZero = false := by
    intro f someBits
    have notZero : f.signif ≠ 0 := fun isZero => someBits (by rw [isZero]; rfl)
    rw [isZero, Bool.and_eq_false_iff]
    exact .inr (beq_false_of_ne notZero)
  obtain ⟨topBit, noLoss, _⟩ := u128Clz_eq nonzero fits
  by_cases isSmall : exp - u128Clz signif < expMin
  · have power :
        signif * 2 ^ (exp - expMin).toNat ≤
          signif * 2 ^ (u128Clz signif - 1) :=
      Nat.mul_le_mul_left _ (Nat.pow_le_pow_right (by decide) (by omega))
    have halved :
        signif * 2 ^ (u128Clz signif - 1) * 2 =
          signif * 2 ^ u128Clz signif := by
      rw [Nat.mul_assoc, ← Nat.pow_succ]
      congr 2
      omega
    have aligned :
        (if expMin < exp then signif * 2 ^ (exp - expMin).toNat % 2 ^ 128
          else u128ShiftRightRound mode signif (expMin - exp).toNat sign) =
          signif * 2 ^ (exp - expMin).toNat := by
      split
      · exact Nat.mod_eq_of_lt (by omega)
      · have isMin : exp = expMin := by omega
        rw [isMin, Int.sub_self]
        exact (Nat.mul_one signif).symm
    unfold u128NormalizeRound
    dsimp only
    rw [if_pos isSmall, aligned]
    generalize signif * 2 ^ (exp - expMin).toNat = count at *
    have bounds := u128ShiftRightRound_bounds mode count 64 sign (by omega)
    refine ofSignif _ ?_
    unfold roundSignif
    dsimp only
    rw [if_neg (by omega), BitVec.toNat_ofNat]
    omega
  · by_cases isLarge : expMax < exp - u128Clz signif
    · unfold u128NormalizeRound
      dsimp only
      rw [if_neg isSmall, if_pos isLarge]
      repeat' split
      all_goals rfl
    · rw [u128NormalizeRound_normal nonzero fits (by omega) (by omega)]
      have stillAbove : expMin ≤ exp - u128Clz signif := by omega
      have isNormal :=
        roundSignif_normal mode sign topBit noLoss stillAbove (by omega)
      exact ofSignif _ (by omega)

/-- The order of the magnitudes of operands in the order of their exponents. -/
theorem magnitude_lt_of_exp
    (aSupported : a.isSupported = true)
    (bSupported : b.isSupported = true)
    (above : b.exp.toNat < a.exp.toNat) :
    b.magnitude < a.magnitude := by
  have aNormal := ne_denormal_of_lt above
  have aLarge := (isSupported_of_normal aNormal).mp aSupported
  have bFits := b.signif.isLt
  unfold magnitude
  by_cases bDenormal : b.exp = expDenormal
  · have bSmall := (isSupported_of_denormal bDenormal).mp bSupported
    have isZero : b.exp.toNat = 0 := by
      rw [bDenormal]
      rfl
    have positive := Nat.two_pow_pos (a.exp.toNat - 1)
    have atLeast := Nat.mul_le_mul_left a.signif.toNat positive
    rw [isZero, Nat.zero_sub, Nat.pow_zero]
    omega
  · have bPositive := ((unbiasDenormal_eq b).2 bDenormal).2
    calc
      b.signif.toNat * 2 ^ (b.exp.toNat - 1) <
          2 ^ 63 * 2 * 2 ^ (b.exp.toNat - 1) :=
        Nat.mul_lt_mul_of_pos_right bFits (Nat.two_pow_pos _)
      _ = 2 ^ 63 * 2 ^ (b.exp.toNat - 1 + 1) := by
        rw [Nat.pow_succ 2 (b.exp.toNat - 1)]
        ring
      _ ≤ 2 ^ 63 * 2 ^ (a.exp.toNat - 1) :=
        Nat.mul_le_mul_left _ (Nat.pow_le_pow_right (by decide) (by omega))
      _ ≤ a.signif.toNat * 2 ^ (a.exp.toNat - 1) :=
        Nat.mul_le_mul_right _ aLarge

theorem unbiasDenormal_above
    (f : Float80) :
    expMin ≤ unbiasDenormal f.exp ∧
      (unbiasDenormal f.exp - expMin).toNat = f.exp.toNat - 1 := by
  obtain ⟨ifDenormal, ifNormal⟩ := unbiasDenormal_eq f
  by_cases isDenormal : f.exp = expDenormal
  · have isMin := ifDenormal isDenormal
    have isZero : f.exp.toNat = 0 := by
      rw [isDenormal]
      rfl
    omega
  · have isExp := ifNormal isDenormal
    omega

/-- Operands with the same sign have a sum that is not zero. -/
theorem addMagnitudes_nonzero
    {bSignif : Nat}
    {flipped : Bool}
    (aSupported : a.isSupported = true)
    (notBoth : 2 ^ 64 ≤ a.signif.toNat * 2 ^ 64 + bSignif) :
    (addMagnitudes mode a (a.signif.toNat * 2 ^ 64) bSignif flipped).isZero =
      false := by
  have aFits := a.signif.isLt
  have above := (unbiasDenormal_above a).1
  have atLeast : ∀ signif power, 2 ^ 64 ≤ signif →
      2 ^ 64 ≤ signif * 2 ^ power := fun signif power large =>
    Nat.le_trans large (Nat.le_mul_of_pos_right _ (Nat.two_pow_pos power))
  unfold addMagnitudes
  dsimp only
  split
  case isTrue infinite =>
    have topBit :=
      (topBit_of_normal aSupported
        (by rw [(special_iff a).mpr (.inl infinite)]; decide)).1
    refine u128NormalizeRound_nonzero ?_ above
      (atLeast _ _ (Nat.le_trans (by decide) topBit))
    omega
  split
  case isTrue =>
    have bounds := u128ShiftRightRound_bounds mode
      ((a.signif.toNat * 2 ^ 64 + bSignif) % 2 ^ 128) 1 false
      (Nat.mod_lt _ (by decide))
    have topBit :
        2 ^ 127 ≤
          u128ShiftRightRound mode
              ((a.signif.toNat * 2 ^ 64 + bSignif) % 2 ^ 128) 1 false |||
            2 ^ 127 :=
      Nat.right_le_or
    exact u128NormalizeRound_nonzero
      (Nat.or_lt_two_pow (by omega)
        (Nat.pow_lt_pow_right (by decide) (by decide)))
      (Int.le_trans above (Int.le_add_one (Int.le_refl _)))
      (atLeast _ _ (by omega))
  case isFalse =>
    exact u128NormalizeRound_nonzero (by omega) above (atLeast _ _ notBoth)

/-- The smaller operand is shifted below the larger one. -/
theorem subtrahend_below
    (mode : RoundingMode)
    (aSupported : a.isSupported = true)
    (bSupported : b.isSupported = true)
    (above : b.exp.toNat < a.exp.toNat) :
    let shifted :=
      u128ShiftRightRound mode (b.signif.toNat * 2 ^ 64)
        (a.exp.toNat - b.exp.toNat) b.sign
    let subtrahend :=
      if mode = .chop ∧ shifted = 0 ∧ b.signif ≠ 0 then 1 else shifted
    subtrahend < a.signif.toNat * 2 ^ 64 ∧
      2 ^ 64 ≤
        (a.signif.toNat * 2 ^ 64 - subtrahend) * 2 ^ (a.exp.toNat - 1) := by
  have bFits := b.signif.isLt
  have aNormal := ne_denormal_of_lt above
  have topBit := (topBit_of_normal aSupported aNormal).1
  have atLeast : ∀ difference, 2 ^ 64 ≤ difference →
      2 ^ 64 ≤ difference * 2 ^ (a.exp.toNat - 1) := fun difference large =>
    Nat.le_trans large (Nat.le_mul_of_pos_right _ (Nat.two_pow_pos _))
  dsimp only
  by_cases near : a.exp.toNat - b.exp.toNat ≤ 64
  · rw [shiftedOperand_near mode b.sign b.signif.toNat near, if_neg ?_]
    · by_cases bDenormal : b.exp = expDenormal
      · have bSmall := (isSupported_of_denormal bDenormal).mp bSupported
        have bounded := Nat.mul_le_mul_left b.signif.toNat
          (Nat.pow_le_pow_right (by decide : 0 < 2)
            (by omega : 64 - (a.exp.toNat - b.exp.toNat) ≤ 63))
        exact ⟨by omega, atLeast _ (by omega)⟩
      · have bPositive := ((unbiasDenormal_eq b).2 bDenormal).2
        have isDoubled :=
          nearDifference_doubled a.signif.toNat b.signif.toNat
            (b.exp.toNat - 1) near
        rw [show a.exp.toNat - b.exp.toNat + (b.exp.toNat - 1) =
          a.exp.toNat - 1 by omega] at isDoubled
        have twice := Nat.mul_le_mul_left a.signif.toNat
          (Nat.pow_le_pow_right (by decide : 0 < 2)
            (by omega : 1 ≤ a.exp.toNat - b.exp.toNat))
        have large :
            1 * 2 ^ 64 ≤
              (a.signif.toNat * 2 ^ (a.exp.toNat - b.exp.toNat) -
                b.signif.toNat) * 2 ^ (64 + (b.exp.toNat - 1)) :=
          Nat.mul_le_mul (by omega)
            (Nat.pow_le_pow_right (by decide) (Nat.le_add_right _ _))
        rw [← isDoubled, Nat.one_mul] at large
        refine ⟨Nat.lt_of_not_le fun notBelow => ?_, large⟩
        rw [Nat.sub_eq_zero_of_le notBelow, Nat.zero_mul] at large
        omega
    · rintro ⟨_, noBits, nonzero⟩
      rcases Nat.mul_eq_zero.mp noBits with isZero | noPower
      · exact nonzero (eq_of_toNat_eq isZero)
      · exact absurd noPower (Nat.two_pow_pos _).ne'
  · have isFar := shiftedOperand_far mode b.sign b.signif (Nat.lt_of_not_le near)
    generalize u128ShiftRightRound mode (b.signif.toNat * 2 ^ 64)
      (a.exp.toNat - b.exp.toNat) b.sign = shifted at isFar ⊢
    split
    · exact ⟨by omega, atLeast _ (by omega)⟩
    · exact ⟨by omega, atLeast _ (by omega)⟩

/-- A difference is negative where the second number is larger. -/
theorem units_add_neg_iff
    (differ : b.sign ≠ a.sign) :
    a.units + b.units < 0 ↔
      if a.sign then b.magnitude < a.magnitude
      else a.magnitude < b.magnitude := by
  unfold units signFactor
  cases aSign : a.sign <;> cases bSign : b.sign <;> simp_all

/-- A difference is a zero, or rounded with its sign. -/
theorem difference_below_iff
    {aSignif signif : Nat}
    {exp : Int}
    {sign : Bool}
    (fits : signif < 2 ^ 128)
    (above : expMin ≤ exp)
    (atLeast : signif ≠ 0 → 2 ^ 64 ≤ signif * 2 ^ (exp - expMin).toNat) :
    (if signif = 0 ∧ aSignif ≠ 0 ∧ mode = .down then
        { Float80.zero with sign := true }
      else if signif = 0 then .zero
      else u128NormalizeRound mode signif exp sign).IsBelow = true ↔
      signif ≠ 0 ∧ sign = true := by
  by_cases isZero : signif = 0
  · refine iff_of_false ?_ fun both => both.1 isZero
    split
    · decide
    · decide
  · rw [if_neg (fun all => isZero all.1), if_neg isZero, IsBelow,
      u128NormalizeRound_sign,
      u128NormalizeRound_nonzero fits above (atLeast isZero)]
    simp [isZero]

/-- Magnitudes are subtracted with the right sign. -/
theorem subMagnitudes_below_zero_iff
    (aSupported : a.isSupported = true)
    (bSupported : b.isSupported = true)
    (ordered : b.exp.toNat ≤ a.exp.toNat)
    (notBothInf : ¬(a.isInf = true ∧ b.isInf = true))
    (sameClass : a.exp = b.exp → a.isInf = b.isInf)
    (differ : b.sign ≠ a.sign) :
    (subMagnitudes mode a b (a.signif.toNat * 2 ^ 64)
        (u128ShiftRightRound mode (b.signif.toNat * 2 ^ 64)
          (a.exp.toNat - b.exp.toNat) b.sign) a.sign).IsBelow = true ↔
      a.units + b.units < 0 := by
  have aFits := a.signif.isLt
  have bFits := b.signif.isLt
  obtain ⟨aboveMin, isPower⟩ := unbiasDenormal_above a
  rw [units_add_neg_iff differ]
  unfold subMagnitudes
  dsimp only
  rw [if_neg (by rw [and_eq_true]; exact notBothInf)]
  by_cases isEqual : a.exp = b.exp
  · have notInf : a.isInf = false := by
      rw [← not_eq_true]
      exact fun isInf => notBothInf ⟨isInf, sameClass isEqual ▸ isInf⟩
    have noShift : a.exp.toNat - b.exp.toNat = 0 := by rw [isEqual, Nat.sub_self]
    have notLost :
        ¬(mode = .chop ∧ b.signif.toNat * 2 ^ 64 = 0 ∧ b.signif ≠ 0) := by
      rintro ⟨_, noBits, nonzero⟩
      have isZero : b.signif.toNat = 0 := by omega
      exact nonzero (eq_of_toNat_eq isZero)
    have isShifted :
        u128ShiftRightRound mode (b.signif.toNat * 2 ^ 64) 0 b.sign =
          b.signif.toNat * 2 ^ 64 := rfl
    have positive := Nat.two_pow_pos (a.exp.toNat - 1)
    rw [noShift, isShifted, notInf, if_neg notLost,
      if_neg Bool.false_ne_true, difference_below_iff ?_ aboveMin ?_]
    · unfold magnitude
      rw [← isEqual, Nat.mul_lt_mul_right positive,
        Nat.mul_lt_mul_right positive]
      cases a.sign
      · simp
        split <;> omega
      · simp
        split <;> omega
    · split <;> omega
    · intro nonzero
      refine Nat.le_trans ?_ (Nat.le_mul_of_pos_right _ (Nat.two_pow_pos _))
      by_cases less : b.signif.toNat * 2 ^ 64 ≤ a.signif.toNat * 2 ^ 64
      · rw [if_pos less] at nonzero ⊢
        omega
      · rw [if_neg less] at nonzero ⊢
        omega
  · have above : b.exp.toNat < a.exp.toNat :=
      Nat.lt_of_le_of_ne ordered fun same =>
        isEqual (eq_of_toNat_eq same.symm)
    have isLess := magnitude_lt_of_exp aSupported bSupported above
    obtain ⟨below, large⟩ :=
      subtrahend_below mode aSupported bSupported above
    rw [← isPower] at large
    generalize u128ShiftRightRound mode (b.signif.toNat * 2 ^ 64)
      (a.exp.toNat - b.exp.toNat) b.sign = shifted at below large ⊢
    generalize
      (if mode = .chop ∧ shifted = 0 ∧ b.signif ≠ 0 then 1 else shifted) =
        subtrahend at below large ⊢
    generalize isTaken : (if a.isInf then 0 else subtrahend) = taken
    have atMost : taken ≤ subtrahend := by
      rw [← isTaken]
      split <;> omega
    have muchLeft :
        2 ^ 64 ≤
          (a.signif.toNat * 2 ^ 64 - taken) *
            2 ^ (unbiasDenormal a.exp - expMin).toNat :=
      Nat.le_trans large (Nat.mul_le_mul_right _ (Nat.sub_le_sub_left atMost _))
    have isDifference :
        (if taken ≤ a.signif.toNat * 2 ^ 64 then
            a.signif.toNat * 2 ^ 64 - taken
          else taken - a.signif.toNat * 2 ^ 64) =
          a.signif.toNat * 2 ^ 64 - taken :=
      if_pos (by omega)
    rw [isDifference, difference_below_iff (by omega) aboveMin
      (fun _ => muchLeft), decide_eq_false (by omega), Bool.false_xor]
    cases a.sign
    · simp
      omega
    · simp
      omega

/-- The sign of a rounded sum is that of the exact one. -/
theorem addOrdered_below_iff
    (aSupported : a.isSupported = true)
    (bSupported : b.isSupported = true)
    (ordered : b.exp.toNat ≤ a.exp.toNat)
    (sameClass : a.exp = b.exp → a.isInf = b.isInf)
    (notBoth : ¬(a.isZero = true ∧ b.isZero = true))
    (isValid : ¬(a.isInf = true ∧ b.isInf = true ∧ b.sign ≠ a.sign)) :
    (addOrdered mode a b).IsBelow = true ↔ a.units + b.units < 0 := by
  unfold addOrdered
  dsimp only
  by_cases sameSign : b.sign = a.sign
  · rw [← magnitude_eq_zero_iff aSupported, ← magnitude_eq_zero_iff bSupported]
      at notBoth
    rw [if_pos sameSign, IsBelow, addMagnitudes_nonzero aSupported ?_,
      addMagnitudes_sign]
    · unfold units signFactor
      rw [sameSign]
      cases a.sign <;> simp <;> omega
    · by_cases aBits : a.signif.toNat = 0
      · have isZero : a.signif = 0 := eq_of_toNat_eq aBits
        have aDenormal := ((canonical_iff a).mpr aSupported).zero isZero
        have expZero : a.exp.toNat = 0 := by
          rw [aDenormal]
          rfl
        have noShift : a.exp.toNat - b.exp.toNat = 0 := by omega
        have isShifted :
            u128ShiftRightRound mode (b.signif.toNat * 2 ^ 64) 0 b.sign =
              b.signif.toNat * 2 ^ 64 := rfl
        rw [noShift, isShifted]
        have bBits : b.signif.toNat ≠ 0 := by
          intro noBits
          refine notBoth ⟨?_, ?_⟩
          · unfold magnitude
            rw [aBits, Nat.zero_mul]
          · unfold magnitude
            rw [noBits, Nat.zero_mul]
        omega
      · omega
  · rw [if_neg sameSign]
    exact subMagnitudes_below_zero_iff aSupported bSupported ordered
      (fun both => isValid ⟨both.1, both.2, sameSign⟩) sameClass sameSign

end Differences

section Comparisons

variable {a b : Float80}

/-- The order of numbers that are not both zeros or equal infinities. -/
theorem f80Sub_below_iff
    {mode : RoundingMode}
    (aSupported : a.isSupported = true)
    (bSupported : b.isSupported = true)
    (aNotNan : a.isNan = false)
    (bNotNan : b.isNan = false)
    (notBoth : ¬(a.isZero = true ∧ b.isZero = true))
    (notSame : ¬(a.isInf = true ∧ b.isInf = true ∧ a.sign = b.sign)) :
    (f80Sub mode a b).IsBelow = true ↔ a.units < b.units := by
  have negated : (f80Neg b).units = -b.units := by
    unfold units signFactor f80Neg magnitude
    cases b.sign <;> simp
  have sameClass : a.exp = b.exp → a.isInf = b.isInf := by
    intro sameExp
    cases aInf : a.isInf <;> cases bInf : b.isInf
    · rfl
    · have isSpecial := (special_iff b).mpr (.inl bInf)
      rw [← sameExp] at isSpecial
      exact absurd isSpecial (isFinite_of_not aInf aNotNan)
    · have isSpecial := (special_iff a).mpr (.inl aInf)
      rw [sameExp] at isSpecial
      exact absurd isSpecial (isFinite_of_not bInf bNotNan)
    · rfl
  have differs :
      a.isInf = true ∧ b.isInf = true → (!b.sign) = a.sign := by
    intro both
    have different : a.sign ≠ b.sign := fun same =>
      notSame ⟨both.1, both.2, same⟩
    cases aSign : a.sign <;> cases bSign : b.sign <;> simp_all
  have noNan : handleNans a (f80Neg b) = none := by
    have isNegated : (f80Neg b).isNan = false := bNotNan
    have stillSupported : (f80Neg b).isSupported = true := bSupported
    unfold handleNans
    rw [aSupported, stillSupported, aNotNan, isNegated]
    rfl
  have isLess : a.units < b.units ↔ a.units + (f80Neg b).units < 0 := by
    rw [negated]
    omega
  unfold f80Sub f80Add
  rw [noNan, isLess]
  dsimp only
  split
  case isTrue swapped =>
    have above : a.exp.toNat < b.exp.toNat := swapped
    rw [Int.add_comm]
    exact addOrdered_below_iff (a := f80Neg b) bSupported aSupported
      (Nat.le_of_lt above) (fun same => (sameClass same.symm).symm)
      (fun both => notBoth both.symm)
      fun invalid => invalid.2.2 (differs ⟨invalid.2.1, invalid.1⟩).symm
  case isFalse swapped =>
    have above : b.exp.toNat ≤ a.exp.toNat := Nat.le_of_not_lt swapped
    exact addOrdered_below_iff (b := f80Neg b) aSupported bSupported above
      sameClass notBoth
      fun invalid => invalid.2.2 (differs ⟨invalid.1, invalid.2.1⟩)

/-- The assertion of `f80_add` fails in `f80_lt`. -/
def LtAborts (mode : RoundingMode) (a b : Float80) : Prop :=
  f80Uncomparable a b = false ∧ AddMisrounds mode a (f80Neg b)

theorem f80Uncomparable_eq_false_iff :
    f80Uncomparable a b = false ↔
      (a.isSupported = true ∧ b.isSupported = true) ∧
        a.isNan = false ∧ b.isNan = false := by
  simp only [f80Uncomparable, Bool.or_eq_false_iff, Bool.not_eq_false',
    and_assoc]

/-- A difference that is misrounded is of a normal and a denormal number. -/
theorem LtAborts.special
    {mode : RoundingMode}
    (aborts : LtAborts mode a b) :
    ¬(a.isInf = true ∧ b.isInf = true) ∧
      ¬(a.isZero = true ∧ b.isZero = true) := by
  have noZero : ∀ f : Float80, f.exp = 1 → f.isZero = false := by
    intro f isLeast
    rw [isZero, isLeast]
    rfl
  have noInf : ∀ f : Float80, f.exp = 1 → f.isInf = false := by
    intro f isLeast
    rw [isInf, isLeast]
    rfl
  obtain ⟨_, _, cancels | cancels⟩ := aborts
  · refine ⟨fun both => ?_, fun both => ?_⟩
    · exact absurd both.1 (by rw [noInf a cancels.1]; decide)
    · exact absurd both.1 (by rw [noZero a cancels.1]; decide)
  · refine ⟨fun both => ?_, fun both => ?_⟩
    · exact absurd both.2 (by rw [noInf b cancels.1]; decide)
    · exact absurd both.2 (by rw [noZero b cancels.1]; decide)

theorem not_ltAborts_of_special
    {mode : RoundingMode}
    (special :
      a.isInf = true ∧ b.isInf = true ∨ a.isZero = true ∧ b.isZero = true) :
    ¬LtAborts mode a b :=
  fun aborts => special.elim aborts.special.1 aborts.special.2

/-- `f80_lt` answers by the values, unless it aborts. -/
theorem f80Lt_spec
    (mode : RoundingMode)
    (aSupported : a.isSupported = true)
    (bSupported : b.isSupported = true)
    (aNotNan : a.isNan = false)
    (bNotNan : b.isNan = false) :
    (LtAborts mode a b ∧ f80Lt mode a b = none) ∨
      ¬LtAborts mode a b ∧
        ∃ less,
          f80Lt mode a b = some less ∧
            (less = true ↔ a.extended < b.extended) := by
  have comparable : f80Uncomparable a b = false :=
    f80Uncomparable_eq_false_iff.mpr
      ⟨⟨aSupported, bSupported⟩, aNotNan, bNotNan⟩
  rw [extended_lt_iff aSupported bSupported aNotNan bNotNan]
  unfold f80Lt
  rw [comparable, if_neg Bool.false_ne_true]
  split
  case isTrue sameInf =>
    simp only [and_eq_true, beq_iff_eq] at sameInf
    obtain ⟨⟨aInf, bInf⟩, sameSign⟩ := sameInf
    refine .inr ⟨not_ltAborts_of_special (.inl ⟨aInf, bInf⟩), false, rfl, ?_⟩
    unfold units signFactor
    rw [magnitude_of_inf aInf aSupported, magnitude_of_inf bInf bSupported,
      sameSign]
    generalize infMagnitude = top
    simp
  case isFalse notSame =>
    split
    case isTrue bothZero =>
      rw [and_eq_true] at bothZero
      refine .inr ⟨not_ltAborts_of_special (.inr bothZero), false, rfl, ?_⟩
      rw [← magnitude_eq_zero_iff aSupported,
        ← magnitude_eq_zero_iff bSupported] at bothZero
      unfold units
      rw [bothZero.1, bothZero.2]
      simp
    case isFalse notBoth =>
      simp only [and_eq_true, beq_iff_eq] at notSame notBoth
      have isSupported :=
        @f80Sub_isSupported_iff mode a b aSupported bSupported
      have below :=
        @f80Sub_below_iff a b mode aSupported bSupported aNotNan bNotNan
          notBoth fun same => notSame ⟨⟨same.1, same.2.1⟩, same.2.2⟩
      unfold f80Sub at isSupported below
      unfold f80AddAsserted LtAborts
      rw [and_iff_right comparable]
      by_cases misrounds : AddMisrounds mode a (f80Neg b)
      · refine .inl ⟨misrounds, ?_⟩
        rw [if_neg fun supported => isSupported.mp supported misrounds]
        rfl
      · refine .inr ⟨misrounds, _, ?_, below⟩
        rw [if_pos (isSupported.mpr misrounds)]
        rfl

theorem units_eq_iff
    (aSupported : a.isSupported = true)
    (bSupported : b.isSupported = true)
    (nonzero : a.isZero = false) :
    a.units = b.units ↔ a.sign = b.sign ∧ a.exp = b.exp ∧ a.signif = b.signif := by
  have positive : a.magnitude ≠ 0 := by
    rw [Ne, magnitude_eq_zero_iff aSupported, nonzero]
    decide
  constructor
  · intro same
    have both : a.sign = b.sign ∧ a.magnitude = b.magnitude := by
      unfold units signFactor at same
      cases aSign : a.sign <;> cases bSign : b.sign <;> simp_all
    have sameExp : a.exp = b.exp := by
      apply eq_of_toNat_eq
      rcases Nat.lt_trichotomy a.exp.toNat b.exp.toNat with below | same | above
      · exact absurd both.2
          (magnitude_lt_of_exp bSupported aSupported below).ne
      · exact same
      · exact absurd both.2
          (magnitude_lt_of_exp aSupported bSupported above).ne'
    refine ⟨both.1, sameExp, eq_of_toNat_eq ?_⟩
    have sameMagnitude := both.2
    unfold magnitude at sameMagnitude
    rw [sameExp] at sameMagnitude
    exact Nat.eq_of_mul_eq_mul_right (Nat.two_pow_pos _) sameMagnitude
  · rintro ⟨sameSign, sameExp, sameSignif⟩
    unfold units signFactor magnitude
    rw [sameSign, sameExp, sameSignif]

theorem f80Eq_iff
    (aSupported : a.isSupported = true)
    (bSupported : b.isSupported = true)
    (aNotNan : a.isNan = false)
    (bNotNan : b.isNan = false) :
    f80Eq a b = true ↔ a.extended = b.extended := by
  have byUnits : a.extended = b.extended ↔ a.units = b.units := by
    rw [le_antisymm_iff, le_antisymm_iff, ← not_lt, ← not_lt,
      extended_lt_iff bSupported aSupported bNotNan aNotNan,
      extended_lt_iff aSupported bSupported aNotNan bNotNan, not_lt, not_lt]
  rw [byUnits]
  unfold f80Eq f80Uncomparable
  rw [aSupported, bSupported, aNotNan, bNotNan, if_neg (by decide)]
  split
  case isTrue aZero =>
    have noMagnitude := (magnitude_eq_zero_iff aSupported).mpr aZero
    have noUnits : a.units = 0 := by
      unfold units
      rw [noMagnitude]
      exact Int.mul_zero _
    have bUnits : b.units = 0 ↔ b.magnitude = 0 := by
      unfold units signFactor
      cases b.sign <;> simp
    rw [isZero, and_eq_true, beq_iff_eq, beq_iff_eq] at aZero
    rw [noUnits, aZero.1, aZero.2, eq_comm (a := (0 : Int)), bUnits,
      magnitude_eq_zero_iff bSupported, isZero, and_eq_true,
      and_eq_true, beq_iff_eq, beq_iff_eq, beq_iff_eq, beq_iff_eq]
    exact and_congr eq_comm eq_comm
  case isFalse aNonzero =>
    rw [units_eq_iff aSupported bSupported (not_eq_true _ ▸ aNonzero)]
    simp only [and_eq_true, beq_iff_eq, and_assoc]

/-- The three comparisons are those of the values, and one of them holds. -/
def ComparesValues (mode : RoundingMode) (a b : Float80) : Prop :=
  ∃ less greater,
    f80Lt mode a b = some less ∧ f80Gt mode a b = some greater ∧
      (less = true ↔ a.extended < b.extended) ∧
      (f80Eq a b = true ↔ a.extended = b.extended) ∧
      (greater = true ↔ b.extended < a.extended) ∧
      (less = true ∧ f80Eq a b = false ∧ greater = false ∨
        less = false ∧ f80Eq a b = true ∧ greater = false ∨
        less = false ∧ f80Eq a b = false ∧ greater = true)

theorem comparesValues_of_not_aborts
    {mode : RoundingMode}
    {less : Bool}
    (aSupported : a.isSupported = true)
    (bSupported : b.isSupported = true)
    (aNotNan : a.isNan = false)
    (bNotNan : b.isNan = false)
    (isAnswer : f80Lt mode a b = some less)
    (isLess : less = true ↔ a.extended < b.extended) :
    ComparesValues mode a b := by
  have isEqual := f80Eq_iff aSupported bSupported aNotNan bNotNan
  have isGreater :
      (!(less || f80Eq a b)) = true ↔ b.extended < a.extended := by
    rw [Bool.not_eq_true', Bool.or_eq_false_iff, ← not_eq_true,
      ← not_eq_true, isLess, isEqual, not_lt, and_comm, lt_iff_le_and_ne,
      and_comm, ne_comm]
  refine ⟨less, _, isAnswer, ?_, isLess, isEqual, isGreater, ?_⟩
  · rw [f80Gt, f80Lte, isAnswer]
    rfl
  · simp only [← not_eq_true, isLess, isEqual, isGreater]
    rcases lt_trichotomy a.extended b.extended with below | same | above
    · exact .inl ⟨below, below.ne, below.asymm⟩
    · rw [same]
      exact .inr (.inl ⟨lt_irrefl _, rfl, lt_irrefl _⟩)
    · exact .inr (.inr ⟨above.asymm, above.ne', above⟩)

/--
The comparisons of numbers that are no NaNs are those of their values exactly
when the difference is not rounded up to the integer bit; and they are the same
in all modes exactly when no mode does that.
-/
theorem f80_comparisons_iff
    (mode : RoundingMode)
    (aSupported : a.isSupported = true)
    (bSupported : b.isSupported = true)
    (aNotNan : a.isNan = false)
    (bNotNan : b.isNan = false) :
    (ComparesValues mode a b ↔ ¬AddMisrounds mode a (f80Neg b)) ∧
      ((∀ other, f80Lt other a b = f80Lt mode a b) ↔
        ∀ other, ¬AddMisrounds other a (f80Neg b)) := by
  have spec : ∀ mode,
      (AddMisrounds mode a (f80Neg b) ∧ f80Lt mode a b = none) ∨
        ¬AddMisrounds mode a (f80Neg b) ∧
          ∃ less,
            f80Lt mode a b = some less ∧
              (less = true ↔ a.extended < b.extended) := by
    intro mode
    have either := f80Lt_spec mode aSupported bSupported aNotNan bNotNan
    unfold LtAborts at either
    rwa [and_iff_right (f80Uncomparable_eq_false_iff.mpr
      ⟨⟨aSupported, bSupported⟩, aNotNan, bNotNan⟩)] at either
  constructor
  · rcases spec mode with ⟨misrounds, noAnswer⟩ | ⟨rounds, less, isAnswer, isLess⟩
    · refine iff_of_false ?_ (not_not.mpr misrounds)
      rintro ⟨less, _, isAnswer, _⟩
      cases noAnswer.symm.trans isAnswer
    · exact iff_of_true
        (comparesValues_of_not_aborts aSupported bSupported aNotNan bNotNan
          isAnswer isLess) rounds
  · constructor
    · intro same other misrounds
      have noChop : ¬AddMisrounds .chop a (f80Neg b) := by
        rintro ⟨_, ⟨_, _, _, isMode⟩ | ⟨_, _, _, isMode⟩⟩ <;>
          simp [roundAwayFromZero] at isMode
      rcases spec .chop with ⟨chopped, _⟩ | ⟨_, less, isAnswer, _⟩
      · exact noChop chopped
      · rcases spec other with ⟨_, noAnswer⟩ | ⟨rounds, _⟩
        · rw [same other, ← same .chop, isAnswer] at noAnswer
          cases noAnswer
        · exact rounds misrounds
    · intro rounds other
      rcases spec other with ⟨misrounds, _⟩ | ⟨_, less, isAnswer, isLess⟩
      · exact absurd misrounds (rounds other)
      rcases spec mode with ⟨misrounds, _⟩ | ⟨_, this, isThis, thisLess⟩
      · exact absurd misrounds (rounds mode)
      rw [isAnswer, isThis, Option.some.injEq, Bool.eq_iff_iff, isLess,
        thisLess]

/-- The least normal number and a denormal above one are ordered. -/
theorem denormal_below_normal :
    ComparesValues .toNearest ⟨0x8000000000000000, 1, false⟩
      ⟨2, 0, false⟩ :=
  (f80_comparisons_iff .toNearest (by decide) (by decide) (by decide)
    (by decide)).1.mpr (by
      rintro ⟨_, ⟨_, _, same, _⟩ | ⟨_, isDenormal, _⟩⟩
      · exact absurd same (by decide)
      · exact absurd isDenormal (by decide))

/-- Comparing the least normal number with the least denormal aborts. -/
theorem least_normal_aborts :
    f80Lt .toNearest ⟨0x8000000000000000, 1, false⟩ ⟨1, 0, false⟩ = none ∧
      ¬ComparesValues .toNearest ⟨0x8000000000000000, 1, false⟩
        ⟨1, 0, false⟩ := by
  have aborts :
      f80Lt .toNearest ⟨0x8000000000000000, 1, false⟩ ⟨1, 0, false⟩ =
        none := by
    decide
  refine ⟨aborts, ?_⟩
  rintro ⟨less, _, isAnswer, _⟩
  cases aborts.symm.trans isAnswer

end Comparisons

end GuestKernel
