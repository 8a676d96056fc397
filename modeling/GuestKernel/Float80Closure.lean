import GuestKernel.Float80Rounding

namespace GuestKernel

/-!
# The arithmetic on canonical numbers

For canonical operands, the conversions, the rounding to an integer and the
square root return canonical numbers; addition, multiplication, division and
scaling do so unless the number they round is one of those that
`u128_normalize_round` gets wrong.
-/

/-- A call of the arithmetic, with its operands. -/
inductive FloatOp where
  | add (a b : Float80)
  | sub (a b : Float80)
  | mul (a b : Float80)
  | div (a b : Float80)
  | round (f : Float80)
  | scale (x : Float80) (exp : Int)
  | sqrt (x : Float80)
  | fromInt (i : BitVec 64)
  | fromDouble (d : BitVec 64)
  deriving Repr, DecidableEq

namespace FloatOp

/-- What a call returns. -/
def run (mode : RoundingMode) : FloatOp → Float80
  | .add a b => f80Add mode a b
  | .sub a b => f80Sub mode a b
  | .mul a b => f80Mul mode a b
  | .div a b => f80Div mode a b
  | .round f => f80Round mode f
  | .scale x exp => f80Scale mode x exp
  | .sqrt x => f80Sqrt mode x
  | .fromInt i => f80FromInt i
  | .fromDouble d => f80FromDouble d

/-- The 80-bit operands of a call. -/
def operands : FloatOp → List Float80
  | .add a b | .sub a b | .mul a b | .div a b => [a, b]
  | .round f => [f]
  | .scale x _ => [x]
  | .sqrt x => [x]
  | .fromInt _ | .fromDouble _ => []

end FloatOp

/-- Neither an infinity nor a NaN. -/
def Float80.IsFinite (f : Float80) : Prop :=
  f.exp ≠ expSpecial

/--
The least normal exponent and a denormal that has one bit more than twice the
fraction: the denormal is shifted by one place too many, and the difference is
rounded up to the integer bit.
-/
def CancelsToBoundary
    (mode : RoundingMode) (normal denormal : Float80) : Prop :=
  normal.exp = 1 ∧ denormal.exp = expDenormal ∧
    denormal.signif.toNat + 2 ^ 64 = 2 * normal.signif.toNat + 1 ∧
    (mode = .toNearest ∨ roundAwayFromZero mode normal.sign = true)

/-- The sums that are rounded to an encoding that is not canonical. -/
def AddMisrounds (mode : RoundingMode) (a b : Float80) : Prop :=
  a.sign ≠ b.sign ∧ (CancelsToBoundary mode a b ∨ CancelsToBoundary mode b a)

/-- The calls that return an encoding that is not canonical. -/
def FloatOp.Misencodes (mode : RoundingMode) : FloatOp → Prop
  | .add a b => AddMisrounds mode a b
  | .sub a b => AddMisrounds mode a (f80Neg b)
  | .mul a b =>
    a.IsFinite ∧ b.IsFinite ∧
      Misrounds mode (a.signif.toNat * b.signif.toNat)
        (unbiasDenormal a.exp + unbiasDenormal b.exp + 1) (a.sign ^^ b.sign)
  | .div a b =>
    a.IsFinite ∧ b.IsFinite ∧ b.isZero = false ∧
      Misrounds mode (divSignif a b).1 (divSignif a b).2 (a.sign ^^ b.sign)
  | .scale x exp =>
    x.isNan = false ∧
      Misrounds mode (x.signif.toNat * 2 ^ 64) (unbias x.exp + exp) x.sign
  | .round _ | .sqrt _ | .fromInt _ | .fromDouble _ => False

namespace Float80

variable {a b f : Float80}

theorem special_iff
    (f : Float80) :
    f.exp = expSpecial ↔ f.isInf = true ∨ f.isNan = true := by
  unfold isInf isNan
  by_cases isSpecial : f.exp = expSpecial
  · by_cases noFraction : f.fraction = 0
    · simp [isSpecial, noFraction]
    · simp [isSpecial, noFraction]
  · have notSpecial : (f.exp == expSpecial) = false :=
      beq_eq_false_iff_ne.mpr isSpecial
    rw [notSpecial]
    simp only [Bool.false_and, Bool.false_eq_true, or_self, iff_false]
    exact isSpecial

/-- What is returned for a NaN, and when. -/
theorem handleNans_cases
    (aSupported : a.isSupported = true)
    (bSupported : b.isSupported = true) :
    (∃ f, handleNans a b = some f ∧ f.isSupported = true ∧
        (a.isNan = true ∨ b.isNan = true)) ∨
      handleNans a b = none ∧ a.isNan = false ∧ b.isNan = false := by
  unfold handleNans
  rw [aSupported, bSupported]
  cases aNan : a.isNan with
  | true =>
    refine .inl ?_
    cases bNan : b.isNan && a.sign && !b.sign with
    | true =>
      refine ⟨b, ?_, bSupported, .inl rfl⟩
      simp only [Bool.not_true, Bool.or_self, Bool.true_and, bNan]
      rfl
    | false =>
      refine ⟨a, ?_, aSupported, .inl rfl⟩
      simp only [Bool.not_true, Bool.or_self, Bool.true_and, bNan]
      rfl
  | false =>
    cases bNan : b.isNan with
    | true => exact .inl ⟨b, rfl, bSupported, .inr rfl⟩
    | false => exact .inr ⟨rfl, rfl, rfl⟩

/-- An operation returns a NaN at once, and computes what is left otherwise. -/
theorem handleNans_isSupported_iff
    {rest : Float80}
    {wrong : Prop}
    (aSupported : a.isSupported = true)
    (bSupported : b.isSupported = true)
    (ofNan : a.isNan = true ∨ b.isNan = true → ¬wrong)
    (ofNone :
      a.isNan = false → b.isNan = false →
        (rest.isSupported = true ↔ ¬wrong)) :
    (match handleNans a b with
      | some nan => nan
      | none => rest).isSupported = true ↔ ¬wrong := by
  rcases handleNans_cases aSupported bSupported with
    ⟨f, isNan, supported, someNan⟩ | ⟨noNan, aNotNan, bNotNan⟩
  · rw [isNan]
    exact iff_of_true supported (ofNan someNan)
  · rw [noNan]
    exact ofNone aNotNan bNotNan

theorem inf_isSupported
    (sign : Bool) :
    ({ inf with sign := sign } : Float80).isSupported = true := by
  cases sign <;> decide

theorem zero_isSupported
    (sign : Bool) :
    ({ zero with sign := sign } : Float80).isSupported = true := by
  cases sign <;> decide

theorem nan_isSupported
    (sign : Bool) :
    ({ nan with sign := sign } : Float80).isSupported = true := by
  cases sign <;> decide

theorem IsFinite.notInf
    (finite : f.IsFinite) :
    f.isInf = false := by
  rw [← Bool.not_eq_true]
  exact fun isInf => finite ((special_iff f).mpr (.inl isInf))

theorem IsFinite.notNan
    (finite : f.IsFinite) :
    f.isNan = false := by
  rw [← Bool.not_eq_true]
  exact fun isNan => finite ((special_iff f).mpr (.inr isNan))

theorem IsFinite.noNan
    (aFinite : a.IsFinite)
    (bFinite : b.IsFinite) :
    ¬(a.isNan = true ∨ b.isNan = true) := by
  rw [aFinite.notNan, bFinite.notNan]
  decide

theorem isFinite_of_not
    (notInf : f.isInf = false)
    (notNan : f.isNan = false) :
    f.IsFinite := by
  intro isSpecial
  rcases (special_iff f).mp isSpecial with isInf | isNan
  · rw [isInf] at notInf
    cases notInf
  · rw [isNan] at notNan
    cases notNan

end Float80

open Float80

section Operations

variable {mode : RoundingMode} {a b f x : Float80}

/-- A significand that can be shifted up to its top bit. -/
theorem f80Normalize_shifted
    (nonzero : f.signif ≠ 0)
    (room : clz64 f.signif < f.exp.toNat) :
    (f80Normalize f).sign = f.sign ∧
      (f80Normalize f).signif.toNat = f.signif.toNat * 2 ^ clz64 f.signif ∧
      (f80Normalize f).exp.toNat = f.exp.toNat - clz64 f.signif := by
  obtain ⟨topBit, noLoss, small⟩ := clz64_eq nonzero
  have notDenormal : f.exp ≠ expDenormal := by
    intro isDenormal
    rw [isDenormal] at room
    exact absurd room (Nat.not_lt_zero _)
  unfold f80Normalize shiftLeft
  dsimp only
  rw [if_neg notDenormal, if_neg (by omega)]
  refine ⟨rfl, ?_, ?_⟩
  · rw [BitVec.toNat_shiftLeft, Nat.shiftLeft_eq, Nat.mod_eq_of_lt noLoss]
  · have fits := f.exp.isLt
    rw [BitVec.toNat_sub, BitVec.toNat_ofNat]
    omega

theorem f80Normalize_isSupported
    (nonzero : f.signif ≠ 0)
    (room : clz64 f.signif < f.exp.toNat) :
    (f80Normalize f).isSupported = true := by
  obtain ⟨_, isSignif, isExp⟩ := f80Normalize_shifted nonzero room
  refine isSupported_of_large ?_ ?_
  · rw [isSignif]
    exact (clz64_eq nonzero).1
  · omega

/-- An integer is converted to a canonical number. -/
theorem f80FromInt_isSupported
    (i : BitVec 64) :
    (f80FromInt i).isSupported = true := by
  by_cases isZero : i = 0
  · rw [isZero]
    decide
  · have isExp : (bias 63).toNat = 16446 := rfl
    have room : ∀ signif : BitVec 64, signif ≠ 0 → clz64 signif < 16446 := by
      intro signif nonzero
      have small := (clz64_eq nonzero).2.2
      omega
    unfold f80FromInt
    dsimp only
    rw [if_neg isZero]
    split
    · have nonzero : -i ≠ 0 := by
        intro noNegative
        exact isZero (BitVec.neg_eq_zero_iff.mp noNegative)
      refine f80Normalize_isSupported nonzero ?_
      dsimp only
      rw [isExp]
      exact room _ nonzero
    · refine f80Normalize_isSupported isZero ?_
      dsimp only
      rw [isExp]
      exact room _ isZero

/-- A number is rounded to an integer that is canonical. -/
theorem f80Round_isSupported
    (supported : f.isSupported = true) :
    (f80Round mode f).isSupported = true := by
  obtain ⟨isBias, _, _⟩ := exponent_bounds
  unfold f80Round
  dsimp only
  rw [supported]
  by_cases noBits : 63 - unbias f.exp ≤ 0
  · rw [if_neg (by simp), if_pos noBits]
    exact supported
  rw [if_neg (by simp), if_neg noBits]
  have fits := f.exp.isLt
  have signifFits := f.signif.isLt
  unfold unbias at noBits ⊢
  have isExp :
      (f.exp + BitVec.ofNat 15 (63 - ((f.exp.toNat : Int) - bias80)).toNat).toNat
        = 16446 := by
    rw [BitVec.toNat_add, BitVec.toNat_ofNat]
    omega
  unfold shiftRight
  dsimp only
  generalize u128ShiftRightRound mode f.signif.toNat
    (63 - ((f.exp.toNat : Int) - bias80)).toNat f.sign = rounded
  split
  · next isZero =>
      rw [isSupported_of_denormal rfl]
      dsimp only
      rw [isZero]
      decide
  · next nonzero =>
      refine f80Normalize_isSupported nonzero ?_
      dsimp only
      rw [isExp]
      have small := (clz64_eq nonzero).2.2
      omega

/-- The bits of a `double` are converted to a canonical number. -/
theorem f80FromDouble_isSupported
    (d : BitVec 64) :
    (f80FromDouble d).isSupported = true := by
  unfold f80FromDouble
  dsimp only
  generalize d.extractLsb' 0 52 = signif
  generalize d.extractLsb' 52 11 = exp
  have expFits := exp.isLt
  have signifFits := signif.isLt
  have isWide :
      (signif.setWidth 64 <<< 11 : BitVec 64).toNat = signif.toNat * 2 ^ 11 := by
    rw [BitVec.toNat_shiftLeft, BitVec.toNat_setWidth, Nat.shiftLeft_eq]
    omega
  by_cases isDenormal : exp = 0
  · have notSpecial : exp ≠ 0x7ff := by
      rw [isDenormal]
      decide
    rw [if_neg notSpecial, if_pos isDenormal, if_neg (fun no => no isDenormal)]
    by_cases isZero : signif = 0
    · rw [if_pos isZero, isZero]
      unfold f80Normalize
      rw [if_pos rfl, isSupported_of_denormal rfl]
      dsimp only
      decide
    · rw [if_neg isZero]
      have nonzero : (signif.setWidth 64 <<< 11 : BitVec 64) ≠ 0 := by
        intro noBits
        rw [noBits] at isWide
        have isNone : signif.toNat = 0 := by
          have zeroBits : (0 : BitVec 64).toNat = 0 := rfl
          omega
        exact isZero (BitVec.eq_of_toNat_eq (by rw [isNone]; rfl))
      refine f80Normalize_isSupported nonzero ?_
      dsimp only
      have isExp : (bias (1 - 0x3ff)).toNat = 15361 := rfl
      have small := (clz64_eq nonzero).2.2
      omega
  · rw [if_pos isDenormal, if_neg isDenormal]
    have nonzero :
        (signif.setWidth 64 <<< 11 ||| 0x8000000000000000 : BitVec 64) ≠ 0 := by
      intro noBits
      have noTop := congrArg BitVec.toNat noBits
      rw [BitVec.toNat_or] at noTop
      have top :
          (0x8000000000000000 : BitVec 64).toNat ≤
            (signif.setWidth 64 <<< 11 : BitVec 64).toNat |||
              (0x8000000000000000 : BitVec 64).toNat :=
        Nat.right_le_or
      rw [noTop] at top
      exact absurd top (by decide)
    have small := (clz64_eq nonzero).2.2
    refine f80Normalize_isSupported nonzero (Nat.lt_of_le_of_lt small ?_)
    dsimp only
    split
    · decide
    · obtain ⟨isBias, isMin, isMax⟩ := exponent_bounds
      have notZero : exp.toNat ≠ 0 := by
        intro isZero
        exact isDenormal (BitVec.eq_of_toNat_eq (by rw [isZero]; rfl))
      have isExp : ((bias (exp.toNat - 0x3ff)).toNat : Int) = _ :=
        toNat_bias (by omega) (by omega)
      omega

/-- A product is canonical unless it is rounded wrongly. -/
theorem f80Mul_isSupported_iff
    (aSupported : a.isSupported = true)
    (bSupported : b.isSupported = true) :
    (f80Mul mode a b).isSupported = true ↔
      ¬FloatOp.Misencodes mode (.mul a b) := by
  unfold f80Mul FloatOp.Misencodes
  refine handleNans_isSupported_iff aSupported bSupported
    (fun someNan wrong => wrong.1.noNan wrong.2.1 someNan) ?_
  intro aNotNan bNotNan
  dsimp only
  by_cases someInf : (a.isInf || b.isInf) = true
  · rw [if_pos someInf]
    refine iff_of_true ?_ ?_
    · split
      · decide
      · exact inf_isSupported _
    · rintro ⟨aFinite, bFinite, _⟩
      rw [aFinite.notInf, bFinite.notInf] at someInf
      cases someInf
  · rw [if_neg someInf]
    rw [Bool.not_eq_true, Bool.or_eq_false_iff] at someInf
    have fits : a.signif.toNat * b.signif.toNat < 2 ^ 128 := by
      have aFits := a.signif.isLt
      have bFits := b.signif.isLt
      calc
        a.signif.toNat * b.signif.toNat < 2 ^ 64 * 2 ^ 64 :=
          Nat.mul_lt_mul'' aFits bFits
        _ = 2 ^ 128 := by decide
    rw [u128NormalizeRound_isSupported_iff fits,
      and_iff_right (isFinite_of_not someInf.1 aNotNan),
      and_iff_right (isFinite_of_not someInf.2 bNotNan)]

/-- The quotient that is rounded has 128 bits. -/
theorem divSignif_fits
    (a b : Float80) :
    (divSignif a b).1 < 2 ^ 128 := by
  unfold divSignif
  dsimp only
  have aFits := a.signif.isLt
  have quotientFits :
      ∀ divisor, a.signif.toNat * 2 ^ 64 / divisor < 2 ^ 128 := by
    intro divisor
    have smaller := Nat.div_le_self (a.signif.toNat * 2 ^ 64) divisor
    omega
  split
  · refine Nat.or_lt_two_pow (Nat.mod_lt _ (by decide)) ?_
    exact Nat.lt_of_le_of_lt (Nat.div_le_self _ _) (Nat.mod_lt _ (by decide))
  · exact quotientFits _

/-- A quotient is canonical unless it is rounded wrongly. -/
theorem f80Div_isSupported_iff
    (aSupported : a.isSupported = true)
    (bSupported : b.isSupported = true) :
    (f80Div mode a b).isSupported = true ↔
      ¬FloatOp.Misencodes mode (.div a b) := by
  unfold f80Div FloatOp.Misencodes
  refine handleNans_isSupported_iff aSupported bSupported
    (fun someNan wrong => wrong.1.noNan wrong.2.1 someNan) ?_
  intro aNotNan bNotNan
  dsimp only
  by_cases aInf : a.isInf = true
  · rw [if_pos aInf]
    refine iff_of_true ?_ ?_
    · split
      · decide
      · exact inf_isSupported _
    · rintro ⟨aFinite, _⟩
      rw [aFinite.notInf] at aInf
      cases aInf
  rw [if_neg aInf]
  by_cases bInf : b.isInf = true
  · rw [if_pos bInf]
    refine iff_of_true (zero_isSupported _) ?_
    rintro ⟨_, bFinite, _⟩
    rw [bFinite.notInf] at bInf
    cases bInf
  rw [if_neg bInf]
  by_cases bZero : b.isZero = true
  · rw [if_pos bZero]
    refine iff_of_true ?_ ?_
    · split
      · exact nan_isSupported _
      · exact inf_isSupported _
    · rintro ⟨_, _, notZero, _⟩
      rw [bZero] at notZero
      cases notZero
  rw [if_neg bZero]
  rw [Bool.not_eq_true] at aInf bInf bZero
  rw [u128NormalizeRound_isSupported_iff (divSignif_fits a b),
    and_iff_right (isFinite_of_not aInf aNotNan),
    and_iff_right (isFinite_of_not bInf bNotNan), and_iff_right bZero]

variable {bSignif signif aSignif shift : Nat} {flipped sign : Bool} {exp : Int}

/-- A scaled number is canonical unless it is rounded wrongly. -/
theorem f80Scale_isSupported_iff
    (supported : x.isSupported = true) :
    (f80Scale mode x exp).isSupported = true ↔
      ¬FloatOp.Misencodes mode (.scale x exp) := by
  unfold f80Scale FloatOp.Misencodes
  have xFits := x.signif.isLt
  dsimp only
  by_cases isNan : x.isNan = true
  · rw [if_pos (by rw [isNan, Bool.or_true])]
    refine iff_of_true (by decide) ?_
    rintro ⟨notNan, _⟩
    rw [isNan] at notNan
    cases notNan
  · rw [Bool.not_eq_true] at isNan
    rw [if_neg (by rw [isNan, supported]; decide),
      u128NormalizeRound_isSupported_iff (by omega), and_iff_right isNan]

/-- The exponent of a number above the smallest one, counted from it. -/
theorem unbiasDenormal_eq
    (f : Float80) :
    (f.exp = expDenormal → unbiasDenormal f.exp - expMin = 0) ∧
      (f.exp ≠ expDenormal →
        unbiasDenormal f.exp - expMin + 1 = f.exp.toNat ∧ 1 ≤ f.exp.toNat) := by
  obtain ⟨isBias, isMin, isMax⟩ := exponent_bounds
  constructor
  · intro isDenormal
    unfold unbiasDenormal
    rw [if_pos isDenormal, Int.sub_self]
  · intro notDenormal
    have positive : f.exp.toNat ≠ 0 := by
      intro isZero
      exact notDenormal (BitVec.eq_of_toNat_eq (by rw [isZero]; rfl))
    unfold unbiasDenormal unbias
    rw [if_neg notDenormal]
    exact ⟨by omega, by omega⟩

theorem not_misrounds_of_top
    (topBit : 2 ^ 127 ≤ signif)
    (above : expMin ≤ exp) :
    ¬Misrounds mode signif exp sign := by
  refine not_misrounds_of_large (by omega) ?_
  have twice : 2 ^ 1 ≤ 2 ^ (exp - expMin + 1).toNat :=
    Nat.pow_le_pow_right (by decide) (by omega)
  calc
    2 ^ 128 = 2 ^ 127 * 2 ^ 1 := by decide
    _ ≤ signif * 2 ^ (exp - expMin + 1).toNat := Nat.mul_le_mul topBit twice

/-- A number of 64 bits with the exponent of an operand is rounded rightly. -/
theorem not_misrounds_of_operand
    {count : Nat}
    (f : Float80) :
    ¬Misrounds mode (count * 2 ^ 64) (unbiasDenormal f.exp) sign ∨
      count = 0 := by
  by_cases isZero : count = 0
  · exact .inr isZero
  refine .inl ?_
  obtain ⟨ifDenormal, ifNormal⟩ := unbiasDenormal_eq f
  have isSuccessor :
      ∃ shift, (unbiasDenormal f.exp - expMin + 1).toNat = shift + 1 := by
    by_cases isDenormal : f.exp = expDenormal
    · exact ⟨0, by have isMin := ifDenormal isDenormal; omega⟩
    · obtain ⟨isExp, positive⟩ := ifNormal isDenormal
      exact ⟨f.exp.toNat - 1, by omega⟩
  obtain ⟨shift, isShift⟩ := isSuccessor
  have multiple :
      count * 2 ^ 64 * 2 ^ (unbiasDenormal f.exp - expMin + 1).toNat =
        count * 2 ^ shift * 2 ^ 65 := by
    rw [isShift, Nat.pow_succ]
    calc
      count * 2 ^ 64 * (2 ^ shift * 2) = count * 2 ^ shift * (2 ^ 64 * 2) :=
        Nat.mul_mul_mul_comm _ _ _ _
      _ = count * 2 ^ shift * 2 ^ 65 := by rw [← Nat.pow_succ]
  exact not_misrounds_of_multiple (Nat.mul_ne_zero isZero (by decide)) multiple

theorem topBit_of_normal
    (supported : f.isSupported = true)
    (isNormal : f.exp ≠ expDenormal) :
    2 ^ 127 ≤ f.signif.toNat * 2 ^ 64 ∧ expMin ≤ unbiasDenormal f.exp := by
  have large := (isSupported_of_normal isNormal).mp supported
  obtain ⟨isExp, positive⟩ := (unbiasDenormal_eq f).2 isNormal
  exact ⟨by omega, by omega⟩

/-- A sum of numbers with the same sign is canonical. -/
theorem addMagnitudes_isSupported
    (supported : a.isSupported = true)
    (bFits : bSignif < 2 ^ 128)
    (bDenormal :
      a.exp = expDenormal → ∃ count, count < 2 ^ 63 ∧ bSignif = count * 2 ^ 64) :
    (addMagnitudes mode a (a.signif.toNat * 2 ^ 64) bSignif
      flipped).isSupported = true := by
  have aFits := a.signif.isLt
  unfold addMagnitudes
  dsimp only
  by_cases isDenormal : a.exp = expDenormal
  · obtain ⟨count, small, rfl⟩ := bDenormal isDenormal
    have notInf : a.isInf = false := by
      unfold isInf
      rw [isDenormal]
      rfl
    have aSmall := (isSupported_of_denormal isDenormal).mp supported
    have sumSmall : a.signif.toNat + count < 2 ^ 64 := by omega
    have fits : (a.signif.toNat + count) * 2 ^ 64 < 2 ^ 128 :=
      Nat.mul_lt_mul_of_pos_right sumSmall (by decide)
    rw [← Nat.add_mul, if_neg (by rw [notInf]; decide),
      if_neg (Nat.not_le_of_lt fits),
      u128NormalizeRound_isSupported_iff fits]
    rcases not_misrounds_of_operand a with rightly | isZero
    · exact rightly
    · rw [isZero, Nat.zero_mul, ← u128NormalizeRound_isSupported_iff (by omega),
        u128NormalizeRound_zero_iff]
      have isMin := (unbiasDenormal_eq a).1 isDenormal
      omega
  · obtain ⟨topBit, above⟩ := topBit_of_normal supported isDenormal
    by_cases aInf : a.isInf = true
    · rw [if_pos aInf, u128NormalizeRound_isSupported_iff (by omega)]
      exact not_misrounds_of_top topBit above
    rw [if_neg aInf]
    by_cases overflows : 2 ^ 128 ≤ a.signif.toNat * 2 ^ 64 + bSignif
    · rw [if_pos overflows]
      have bounds := u128ShiftRightRound_bounds mode
        ((a.signif.toNat * 2 ^ 64 + bSignif) % 2 ^ 128) 1 false
        (Nat.mod_lt _ (by decide))
      rw [u128NormalizeRound_isSupported_iff
        (Nat.or_lt_two_pow (by omega)
          (Nat.pow_lt_pow_right (by decide) (by decide)))]
      exact not_misrounds_of_top Nat.right_le_or (by omega)
    · have stillTop : 2 ^ 127 ≤ a.signif.toNat * 2 ^ 64 + bSignif :=
        Nat.le_add_right_of_le topBit
      rw [if_neg overflows,
        u128NormalizeRound_isSupported_iff (Nat.lt_of_not_le overflows)]
      exact not_misrounds_of_top stillTop above

/-- A difference is zero, or rounded. -/
theorem difference_isSupported_iff
    {exp : Int}
    (fits : signif < 2 ^ 128) :
    (if signif = 0 ∧ aSignif ≠ 0 ∧ mode = .down then
        { Float80.zero with sign := true }
      else if signif = 0 then .zero
      else u128NormalizeRound mode signif exp sign).isSupported = true ↔
      (signif ≠ 0 → ¬Misrounds mode signif exp sign) := by
  by_cases isZero : signif = 0
  · refine iff_of_true ?_ fun nonzero => (nonzero isZero).elim
    split
    · decide
    · decide
  · rw [if_neg (fun all => isZero all.1), if_neg isZero,
      u128NormalizeRound_isSupported_iff fits]
    exact ⟨fun rightly _ => rightly, fun rightly => rightly isZero⟩

theorem shiftedOperand_near
    (mode : RoundingMode)
    (sign : Bool)
    (count : Nat)
    (near : shift ≤ 64) :
    u128ShiftRightRound mode (count * 2 ^ 64) shift sign =
      count * 2 ^ (64 - shift) := by
  have isPower : 2 ^ 64 = 2 ^ (64 - shift) * 2 ^ shift := by
    rw [← Nat.pow_add, Nat.sub_add_cancel near]
  have isProduct : count * 2 ^ 64 = count * 2 ^ (64 - shift) * 2 ^ shift := by
    rw [Nat.mul_assoc, ← isPower]
  rw [isProduct, u128ShiftRightRound_exact mode sign (by omega)
    (Nat.mul_mod_left _ _), Nat.mul_div_cancel _ (Nat.two_pow_pos shift)]

/-- The difference of close numbers, counted from the least exponent. -/
theorem nearDifference_doubled
    (aCount bCount exp : Nat)
    (near : shift ≤ 64) :
    (aCount * 2 ^ 64 - bCount * 2 ^ (64 - shift)) * 2 ^ (shift + exp) =
      (aCount * 2 ^ shift - bCount) * 2 ^ (64 + exp) := by
  have isFirst :
      aCount * 2 ^ 64 * 2 ^ (shift + exp) =
        aCount * 2 ^ shift * 2 ^ (64 + exp) := by
    rw [Nat.mul_assoc, Nat.mul_assoc, ← Nat.pow_add, ← Nat.pow_add]
    congr 2
    omega
  have isSecond :
      bCount * 2 ^ (64 - shift) * 2 ^ (shift + exp) =
        bCount * 2 ^ (64 + exp) := by
    rw [Nat.mul_assoc, ← Nat.pow_add]
    congr 2
    omega
  rw [Nat.sub_mul, isFirst, isSecond, ← Nat.sub_mul]

/-- Numbers whose exponents are close are only wrong next to a denormal. -/
theorem nearDifference_misrounds_iff
    (aSupported : a.isSupported = true)
    (bSupported : b.isSupported = true)
    (above : b.exp.toNat < a.exp.toNat)
    (near : a.exp.toNat - b.exp.toNat ≤ 64) :
    Misrounds mode
        (a.signif.toNat * 2 ^ 64 -
          b.signif.toNat * 2 ^ (64 - (a.exp.toNat - b.exp.toNat)))
        (unbiasDenormal a.exp) a.sign ↔
      CancelsToBoundary mode a b := by
  have aFits := a.signif.isLt
  have bFits := b.signif.isLt
  have aNormal := ne_denormal_of_lt above
  have aLarge := (isSupported_of_normal aNormal).mp aSupported
  obtain ⟨isExp, positive⟩ := (unbiasDenormal_eq a).2 aNormal
  have isShift :
      (unbiasDenormal a.exp - expMin + 1).toNat =
        a.exp.toNat - b.exp.toNat + b.exp.toNat := by
    omega
  have isDoubled :=
    nearDifference_doubled a.signif.toNat b.signif.toNat b.exp.toNat near
  rw [← isShift] at isDoubled
  generalize isRest : a.exp.toNat - b.exp.toNat = shift
    at near isDoubled isShift ⊢
  have twice : 2 ^ 1 ≤ 2 ^ shift :=
    Nat.pow_le_pow_right (by decide) (by omega)
  have atLeast : a.signif.toNat * 2 ^ 1 ≤ a.signif.toNat * 2 ^ shift :=
    Nat.mul_le_mul_left _ twice
  have nonzero :
      a.signif.toNat * 2 ^ 64 - b.signif.toNat * 2 ^ (64 - shift) ≠ 0 := by
    intro isZero
    rw [isZero, Nat.zero_mul] at isDoubled
    have positivePower := Nat.two_pow_pos (64 + b.exp.toNat)
    rcases Nat.mul_eq_zero.mp isDoubled.symm with noRest | noPower
    · omega
    · omega
  by_cases bDenormal : b.exp = expDenormal
  · have isZero : b.exp.toNat = 0 := by
      rw [bDenormal]
      rfl
    have bSmall := (isSupported_of_denormal bDenormal).mp bSupported
    rw [isZero, Nat.add_zero] at isDoubled isShift
    have isNext :
        a.exp = 1 ↔ shift = 1 := by
      rw [← BitVec.toNat_inj]
      have isOne : (1 : BitVec 15).toNat = 1 := rfl
      omega
    unfold CancelsToBoundary
    rw [isNext, and_iff_right bDenormal]
    by_cases isOne : shift = 1
    · rw [isOne, Nat.pow_one] at isDoubled
      rw [isOne] at nonzero ⊢
      by_cases below :
          (a.signif.toNat * 2 - b.signif.toNat) * 2 ^ 64 < 2 ^ 128
      · rw [misrounds_iff nonzero (by omega) (by rw [isDoubled]; exact below),
          isDoubled, and_iff_right rfl]
        cases isAway : roundAwayFromZero mode a.sign with
        | true =>
          simp only [if_true, or_true, and_true]
          omega
        | false =>
          simp only [Bool.false_eq_true, if_false, or_false]
          rw [and_comm]
          exact and_congr_left fun _ => by omega
      · refine iff_of_false ?_ ?_
        · exact not_misrounds_of_large nonzero (by rw [isDoubled]; omega)
        · rintro ⟨_, isBoundary, _⟩
          omega
    · refine iff_of_false ?_ fun cancels => isOne cancels.1
      have fourTimes : 2 ^ 2 ≤ 2 ^ shift :=
        Nat.pow_le_pow_right (by decide) (by omega)
      have muchLarger : a.signif.toNat * 2 ^ 2 ≤ a.signif.toNat * 2 ^ shift :=
        Nat.mul_le_mul_left _ fourTimes
      refine not_misrounds_of_large nonzero ?_
      rw [isDoubled]
      omega
  · have bPositive := ((unbiasDenormal_eq b).2 bDenormal).2
    refine iff_of_false ?_ fun cancels => bDenormal cancels.2.1
    have isPower :
        2 ^ (64 + b.exp.toNat) = 2 ^ (b.exp.toNat - 1) * 2 ^ 65 := by
      rw [← Nat.pow_add]
      congr 1
      omega
    rw [isPower, ← Nat.mul_assoc] at isDoubled
    exact not_misrounds_of_multiple nonzero isDoubled

/-- A finite number minus another, whose significand was shifted. -/
theorem subMagnitudes_finite_iff
    {subtrahend : Nat}
    (notInf : a.isInf = false)
    (isSubtrahend :
      (if mode = .chop ∧ bSignif = 0 ∧ b.signif ≠ 0 then 1 else bSignif) =
        subtrahend)
    (isDifference :
      (if subtrahend ≤ aSignif then aSignif - subtrahend
        else subtrahend - aSignif) = signif)
    (fits : signif < 2 ^ 128) :
    (subMagnitudes mode a b aSignif bSignif flipped).isSupported = true ↔
      (signif ≠ 0 →
        ¬Misrounds mode signif (unbiasDenormal a.exp)
          (decide (aSignif < subtrahend) ^^ flipped)) := by
  unfold subMagnitudes
  dsimp only
  rw [notInf, Bool.false_and, if_neg Bool.false_ne_true,
    if_neg Bool.false_ne_true, isSubtrahend, isDifference]
  exact difference_isSupported_iff fits

/-- The same, where the second number is smaller. -/
theorem subMagnitudes_below_iff
    {subtrahend : Nat}
    (notInf : a.isInf = false)
    (isSubtrahend :
      (if mode = .chop ∧ bSignif = 0 ∧ b.signif ≠ 0 then 1 else bSignif) =
        subtrahend)
    (aFits : aSignif < 2 ^ 128)
    (below : subtrahend ≤ aSignif) :
    (subMagnitudes mode a b aSignif bSignif flipped).isSupported = true ↔
      (aSignif - subtrahend ≠ 0 →
        ¬Misrounds mode (aSignif - subtrahend) (unbiasDenormal a.exp)
          flipped) := by
  rw [subMagnitudes_finite_iff notInf isSubtrahend (if_pos below)
    (Nat.lt_of_le_of_lt (Nat.sub_le _ _) aFits),
    decide_eq_false (Nat.not_lt_of_le below), Bool.false_xor]

/-- An infinity minus a number. -/
theorem subMagnitudes_inf
    (supported : a.isSupported = true)
    (isInf : a.isInf = true) :
    (subMagnitudes mode a b (a.signif.toNat * 2 ^ 64) bSignif
      flipped).isSupported = true := by
  have aFits := a.signif.isLt
  have isSpecial := (special_iff a).mpr (.inl isInf)
  have isNormal : a.exp ≠ expDenormal := by
    rw [isSpecial]
    decide
  obtain ⟨topBit, above⟩ := topBit_of_normal supported isNormal
  unfold subMagnitudes
  dsimp only
  rw [isInf, Bool.true_and, if_pos rfl, if_pos (Nat.zero_le _), Nat.sub_zero]
  split
  · decide
  · rw [difference_isSupported_iff (by omega)]
    exact fun _ => not_misrounds_of_top topBit above

theorem shiftedOperand_far
    (mode : RoundingMode)
    (sign : Bool)
    (signif : BitVec 64)
    (far : 64 < shift) :
    u128ShiftRightRound mode (signif.toNat * 2 ^ 64) shift sign ≤ 2 ^ 63 := by
  have fits := signif.isLt
  have bounds := u128ShiftRightRound_bounds mode (signif.toNat * 2 ^ 64) shift
    sign (by omega)
  have smaller :
      signif.toNat * 2 ^ 64 / 2 ^ shift ≤ signif.toNat * 2 ^ 64 / 2 ^ 65 :=
    Nat.div_le_div_left (Nat.pow_le_pow_right (by decide) far) (by decide)
  omega

/-- A difference is canonical unless it is rounded up to the integer bit. -/
theorem subMagnitudes_isSupported_iff
    (aSupported : a.isSupported = true)
    (bSupported : b.isSupported = true)
    (ordered : b.exp.toNat ≤ a.exp.toNat) :
    (subMagnitudes mode a b (a.signif.toNat * 2 ^ 64)
        (u128ShiftRightRound mode (b.signif.toNat * 2 ^ 64)
          (a.exp.toNat - b.exp.toNat) b.sign)
        a.sign).isSupported = true ↔
      ¬CancelsToBoundary mode a b := by
  have aFits := a.signif.isLt
  have bFits := b.signif.isLt
  have isNext :
      CancelsToBoundary mode a b → a.exp.toNat = 1 ∧ b.exp.toNat = 0 := by
    rintro ⟨isOne, isDenormal, _⟩
    rw [isOne, isDenormal]
    exact ⟨rfl, rfl⟩
  by_cases isInf : a.isInf = true
  · refine iff_of_true (subMagnitudes_inf aSupported isInf) ?_
    rintro ⟨isOne, _⟩
    have isSpecial := (special_iff a).mpr (.inl isInf)
    rw [isOne] at isSpecial
    exact absurd isSpecial (by decide)
  rw [Bool.not_eq_true] at isInf
  by_cases near : a.exp.toNat - b.exp.toNat ≤ 64
  · have isShifted := shiftedOperand_near mode b.sign b.signif.toNat near
    rw [isShifted]
    have isSubtrahend :
        (if mode = .chop ∧
            b.signif.toNat * 2 ^ (64 - (a.exp.toNat - b.exp.toNat)) = 0 ∧
              b.signif ≠ 0 then 1
          else b.signif.toNat * 2 ^ (64 - (a.exp.toNat - b.exp.toNat))) =
          b.signif.toNat * 2 ^ (64 - (a.exp.toNat - b.exp.toNat)) := by
      refine if_neg ?_
      rintro ⟨_, noBits, nonzero⟩
      rcases Nat.mul_eq_zero.mp noBits with isZero | noPower
      · exact nonzero (BitVec.eq_of_toNat_eq (by rw [isZero]; rfl))
      · exact absurd noPower (Nat.two_pow_pos _).ne'
    by_cases noShift : a.exp.toNat - b.exp.toNat = 0
    · rw [noShift, Nat.sub_zero] at isSubtrahend ⊢
      have isDifference :
          (if b.signif.toNat * 2 ^ 64 ≤ a.signif.toNat * 2 ^ 64 then
              a.signif.toNat * 2 ^ 64 - b.signif.toNat * 2 ^ 64
            else b.signif.toNat * 2 ^ 64 - a.signif.toNat * 2 ^ 64) =
            (a.signif.toNat - b.signif.toNat +
              (b.signif.toNat - a.signif.toNat)) * 2 ^ 64 := by
        split <;> omega
      rw [subMagnitudes_finite_iff isInf isSubtrahend isDifference (by omega)]
      refine iff_of_true ?_ fun cancels => by
        have both := isNext cancels
        omega
      intro nonzero
      refine (not_misrounds_of_operand a).resolve_right fun isZero => ?_
      rw [isZero, Nat.zero_mul] at nonzero
      exact nonzero rfl
    · have above : b.exp.toNat < a.exp.toNat := by omega
      have aNormal := ne_denormal_of_lt above
      have topBit := (topBit_of_normal aSupported aNormal).1
      have below :
          b.signif.toNat * 2 ^ (64 - (a.exp.toNat - b.exp.toNat)) <
            a.signif.toNat * 2 ^ 64 := by
        have half : 2 ^ (64 - (a.exp.toNat - b.exp.toNat)) ≤ 2 ^ 63 :=
          Nat.pow_le_pow_right (by decide) (by omega)
        have bounded := Nat.mul_le_mul_left b.signif.toNat half
        omega
      rw [subMagnitudes_below_iff isInf isSubtrahend (by omega)
        (Nat.le_of_lt below)]
      rw [nearDifference_misrounds_iff aSupported bSupported above near]
      exact ⟨fun rightly => rightly (by omega), fun rightly _ => rightly⟩
  · -- The smaller operand is rounded to next to nothing.
    have isFar := shiftedOperand_far mode b.sign b.signif (Nat.lt_of_not_le near)
    have aNormal : a.exp ≠ expDenormal := by
      intro isDenormal
      rw [isDenormal] at near
      exact near (Nat.le_trans (Nat.sub_le _ _) (by decide))
    obtain ⟨topBit, _⟩ := topBit_of_normal aSupported aNormal
    obtain ⟨isExp, _⟩ := (unbiasDenormal_eq a).2 aNormal
    refine iff_of_true ?_ fun cancels => by
      have both := isNext cancels
      omega
    generalize u128ShiftRightRound mode (b.signif.toNat * 2 ^ 64)
      (a.exp.toNat - b.exp.toNat) b.sign = shifted at isFar ⊢
    have small :
        (if mode = .chop ∧ shifted = 0 ∧ b.signif ≠ 0 then 1 else shifted) ≤
          2 ^ 63 := by
      split
      · decide
      · exact isFar
    generalize isSubtrahend :
      (if mode = .chop ∧ shifted = 0 ∧ b.signif ≠ 0 then 1 else shifted) =
        subtrahend at small
    have below : subtrahend ≤ a.signif.toNat * 2 ^ 64 := by omega
    rw [subMagnitudes_below_iff isInf isSubtrahend (by omega) below]
    intro nonzero
    refine not_misrounds_of_large nonzero ?_
    have fourTimes : 2 ^ 2 ≤ 2 ^ (unbiasDenormal a.exp - expMin + 1).toNat :=
      Nat.pow_le_pow_right (by decide) (by omega)
    have quarter : 2 ^ 126 ≤ a.signif.toNat * 2 ^ 64 - subtrahend := by omega
    calc
      2 ^ 128 = 2 ^ 126 * 2 ^ 2 := by decide
      _ ≤ _ := Nat.mul_le_mul quarter fourTimes

theorem CancelsToBoundary.exps
    (cancels : CancelsToBoundary mode a b) :
    a.exp.toNat = 1 ∧ b.exp.toNat = 0 ∧ a.IsFinite ∧ b.IsFinite := by
  obtain ⟨isOne, isDenormal, _⟩ := cancels
  unfold IsFinite
  rw [isOne, isDenormal]
  decide

theorem shiftedOperand_fits
    (mode : RoundingMode)
    (sign : Bool)
    (signif : BitVec 64)
    (shift : Nat) :
    u128ShiftRightRound mode (signif.toNat * 2 ^ 64) shift sign < 2 ^ 128 := by
  have fits := signif.isLt
  by_cases near : shift ≤ 64
  · rw [shiftedOperand_near mode sign _ near]
    have bounded := Nat.mul_le_mul_left signif.toNat
      (Nat.pow_le_pow_right (by decide : 0 < 2) (Nat.sub_le 64 shift))
    omega
  · have isFar := shiftedOperand_far mode sign signif (Nat.lt_of_not_le near)
    omega

/-- A sum of numbers in the order of their exponents. -/
theorem addOrdered_isSupported_iff
    (aSupported : a.isSupported = true)
    (bSupported : b.isSupported = true)
    (ordered : b.exp.toNat ≤ a.exp.toNat) :
    (addOrdered mode a b).isSupported = true ↔
      ¬(a.sign ≠ b.sign ∧ CancelsToBoundary mode a b) := by
  unfold addOrdered
  dsimp only
  by_cases sameSign : b.sign = a.sign
  · rw [if_pos sameSign]
    refine iff_of_true ?_ fun both => both.1 sameSign.symm
    refine addMagnitudes_isSupported aSupported
      (shiftedOperand_fits mode b.sign b.signif _) fun aDenormal => ?_
    have isZero : expDenormal.toNat = 0 := rfl
    rw [aDenormal, isZero] at ordered ⊢
    have bDenormal : b.exp = expDenormal :=
      BitVec.eq_of_toNat_eq (Nat.le_zero.mp ordered)
    refine ⟨b.signif.toNat,
      (isSupported_of_denormal bDenormal).mp bSupported, ?_⟩
    rw [Nat.zero_sub]
    rfl
  · rw [if_neg sameSign,
      subMagnitudes_isSupported_iff aSupported bSupported ordered,
      and_iff_right (Ne.symm sameSign)]

/-- A sum is canonical unless it is rounded up to the integer bit. -/
theorem f80Add_isSupported_iff
    (aSupported : a.isSupported = true)
    (bSupported : b.isSupported = true) :
    (f80Add mode a b).isSupported = true ↔
      ¬FloatOp.Misencodes mode (.add a b) := by
  unfold f80Add FloatOp.Misencodes AddMisrounds
  refine handleNans_isSupported_iff aSupported bSupported ?_ ?_
  · rintro someNan ⟨_, cancels | cancels⟩
    · obtain ⟨_, _, aFinite, bFinite⟩ := cancels.exps
      exact aFinite.noNan bFinite someNan
    · obtain ⟨_, _, bFinite, aFinite⟩ := cancels.exps
      exact aFinite.noNan bFinite someNan
  intro _ _
  dsimp only
  by_cases swapped : a.exp < b.exp
  · have above : a.exp.toNat < b.exp.toNat := swapped
    rw [if_pos swapped,
      addOrdered_isSupported_iff bSupported aSupported (Nat.le_of_lt above),
      or_iff_right fun cancels => by
        have both := cancels.exps
        omega,
      ne_comm]
  · have above : b.exp.toNat ≤ a.exp.toNat := Nat.le_of_not_lt swapped
    rw [if_neg swapped, addOrdered_isSupported_iff aSupported bSupported above,
      or_iff_left fun cancels => by
        have both := cancels.exps
        omega]

theorem f80Neg_isSupported
    (f : Float80) :
    (f80Neg f).isSupported = f.isSupported :=
  rfl

theorem f80Sub_isSupported_iff
    (aSupported : a.isSupported = true)
    (bSupported : b.isSupported = true) :
    (f80Sub mode a b).isSupported = true ↔
      ¬FloatOp.Misencodes mode (.sub a b) :=
  f80Add_isSupported_iff aSupported (by rw [f80Neg_isSupported, bSupported])

end Operations

end GuestKernel
