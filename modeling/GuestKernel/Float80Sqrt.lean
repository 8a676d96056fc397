import GuestKernel.Float80Closure

namespace GuestKernel

/-!
# The square root, and closure

Each round of `f80_sqrt` halves the sum of the guess and of the number divided
by the guess.  Halving goes wrong only next to the least normal number, and one
of the two is always far above it.  With the other operations, this says exactly
when the arithmetic returns a canonical number.
-/

open Float80

section Roots

variable {mode : RoundingMode} {a b f x guess : Float80}

theorem u128NormalizeRound_sign
    (mode : RoundingMode)
    (signif : Nat)
    (exp : Int)
    (sign : Bool) :
    (u128NormalizeRound mode signif exp sign).sign = sign := by
  unfold u128NormalizeRound roundSignif
  dsimp only
  repeat' split
  all_goals rfl

/-- A number with its top bit keeps at least its exponent. -/
theorem u128NormalizeRound_exp
    {signif : Nat}
    {exp : Int}
    {sign : Bool}
    (topBit : 2 ^ 127 ≤ signif)
    (fits : signif < 2 ^ 128)
    (above : expMin < exp) :
    2 ≤ (u128NormalizeRound mode signif exp sign).exp.toNat := by
  obtain ⟨isBias, isMin, isMax⟩ := exponent_bounds
  have nonzero : signif ≠ 0 := (Nat.lt_of_lt_of_le (by decide) topBit).ne'
  have noZeros : u128Clz signif = 0 := by
    have noLoss := (u128Clz_eq nonzero fits).2.1
    by_contra someZeros
    have twice : 2 ^ 1 ≤ 2 ^ u128Clz signif :=
      Nat.pow_le_pow_right (by decide) (Nat.one_le_iff_ne_zero.mpr someZeros)
    have doubled := Nat.mul_le_mul topBit twice
    omega
  by_cases overflows : expMax < exp
  · unfold u128NormalizeRound
    dsimp only
    rw [noZeros, if_neg (by omega), if_pos (by omega)]
    repeat' split
    all_goals
      dsimp only
      decide
  · have noChange : exp - (0 : Nat) = exp := by omega
    rw [u128NormalizeRound_normal nonzero fits (by omega) (by omega), noZeros,
      Nat.pow_zero, Nat.mul_one, noChange]
    obtain ⟨_, _, isLow, _⟩ :=
      roundSignif_normal mode sign topBit fits (Int.le_of_lt above) (by omega)
    omega

/-- The number that is returned at once is a NaN. -/
theorem handleNans_some
    (returned : handleNans a b = some f) :
    f.exp = expSpecial ∧ (a.sign = false → b.sign = false → f.sign = false) := by
  have ofNan : ∀ g : Float80, g.isNan = true → g.exp = expSpecial :=
    fun g isNan => (special_iff g).mpr (.inr isNan)
  unfold handleNans at returned
  split at returned
  · cases returned
    exact ⟨rfl, fun _ _ => rfl⟩
  split at returned
  · next bothNan =>
      cases returned
      simp only [Bool.and_eq_true] at bothNan
      exact ⟨ofNan b bothNan.1.1.2, fun _ positive => positive⟩
  split at returned
  · next aNan =>
      cases returned
      exact ⟨ofNan a aNan, fun positive _ => positive⟩
  split at returned
  · next bNan =>
      cases returned
      exact ⟨ofNan b bNan, fun _ positive => positive⟩
  · cases returned

/-- Nothing is returned at once for supported operands that are no NaNs. -/
theorem handleNans_none
    (none : handleNans a b = none) :
    a.isSupported = true ∧ b.isSupported = true ∧ a.isNan = false ∧
      b.isNan = false := by
  unfold handleNans at none
  split at none
  · cases none
  next supported =>
  split at none
  · cases none
  split at none
  · cases none
  next aNotNan =>
  split at none
  · cases none
  next bNotNan =>
  rw [Bool.not_eq_true] at aNotNan bNotNan supported
  rw [Bool.or_eq_false_iff, Bool.not_eq_false', Bool.not_eq_false'] at supported
  exact ⟨supported.1, supported.2, aNotNan, bNotNan⟩

theorem f80Div_positive
    (aPositive : a.sign = false)
    (bPositive : b.sign = false) :
    (f80Div mode a b).sign = false := by
  unfold f80Div
  cases nans : handleNans a b with
  | some f => exact (handleNans_some nans).2 aPositive bPositive
  | none =>
    dsimp only
    rw [aPositive, bPositive, Bool.xor_self]
    repeat' split
    all_goals first | rfl | exact u128NormalizeRound_sign _ _ _ _

theorem addOrdered_positive
    (aPositive : a.sign = false)
    (bPositive : b.sign = false) :
    addOrdered mode a b =
      addMagnitudes mode a (a.signif.toNat * 2 ^ 64)
        (u128ShiftRightRound mode (b.signif.toNat * 2 ^ 64)
          (a.exp.toNat - b.exp.toNat) false) false := by
  unfold addOrdered
  dsimp only
  rw [aPositive, bPositive, if_pos rfl]

theorem addMagnitudes_sign
    {aSignif bSignif : Nat}
    {flipped : Bool} :
    (addMagnitudes mode a aSignif bSignif flipped).sign = flipped := by
  unfold addMagnitudes
  dsimp only
  repeat' split
  all_goals exact u128NormalizeRound_sign _ _ _ _

theorem f80Add_positive
    (aPositive : a.sign = false)
    (bPositive : b.sign = false) :
    (f80Add mode a b).sign = false := by
  unfold f80Add
  cases nans : handleNans a b with
  | some f => exact (handleNans_some nans).2 aPositive bPositive
  | none =>
    dsimp only
    split
    · rw [addOrdered_positive bPositive aPositive]
      exact addMagnitudes_sign
    · rw [addOrdered_positive aPositive bPositive]
      exact addMagnitudes_sign

theorem expMin_lt_of_two_le
    (above : 2 ≤ f.exp.toNat) :
    f.exp ≠ expDenormal ∧ expMin < unbiasDenormal f.exp := by
  have notDenormal : f.exp ≠ expDenormal := by
    intro isDenormal
    rw [isDenormal] at above
    exact absurd above (by decide)
  obtain ⟨isExp, _⟩ := (unbiasDenormal_eq f).2 notDenormal
  exact ⟨notDenormal, by omega⟩

/-- A sum of significands keeps at least the exponent. -/
theorem addMagnitudes_exp
    {bSignif : Nat}
    {flipped : Bool}
    (supported : a.isSupported = true)
    (above : 2 ≤ a.exp.toNat) :
    2 ≤ (addMagnitudes mode a (a.signif.toNat * 2 ^ 64) bSignif
      flipped).exp.toNat := by
  have fits := a.signif.isLt
  obtain ⟨notDenormal, aboveMin⟩ := expMin_lt_of_two_le above
  obtain ⟨topBit, _⟩ := topBit_of_normal supported notDenormal
  unfold addMagnitudes
  dsimp only
  split
  · exact u128NormalizeRound_exp topBit (by omega) aboveMin
  split
  · have bounds := u128ShiftRightRound_bounds mode
      ((a.signif.toNat * 2 ^ 64 + bSignif) % 2 ^ 128) 1 false
      (Nat.mod_lt _ (by decide))
    refine u128NormalizeRound_exp Nat.right_le_or
      (Nat.or_lt_two_pow (by omega)
        (Nat.pow_lt_pow_right (by decide) (by decide))) (by omega)
  · next noOverflow =>
      exact u128NormalizeRound_exp (Nat.le_add_right_of_le topBit)
        (Nat.lt_of_not_le noOverflow) aboveMin

/-- A sum of positive numbers keeps at least the larger exponent. -/
theorem f80Add_exp
    (aPositive : a.sign = false)
    (bPositive : b.sign = false)
    (above : 2 ≤ a.exp.toNat ∨ 2 ≤ b.exp.toNat) :
    2 ≤ (f80Add mode a b).exp.toNat := by
  unfold f80Add
  cases nans : handleNans a b with
  | some f =>
    dsimp only
    rw [(handleNans_some nans).1]
    decide
  | none =>
    obtain ⟨aSupported, bSupported, _⟩ := handleNans_none nans
    dsimp only
    split
    · next swapped =>
        have ordered : a.exp.toNat < b.exp.toNat := swapped
        rw [addOrdered_positive bPositive aPositive]
        exact addMagnitudes_exp bSupported (by omega)
    · next inOrder =>
        have ordered : b.exp.toNat ≤ a.exp.toNat := Nat.le_of_not_lt inOrder
        rw [addOrdered_positive aPositive bPositive]
        exact addMagnitudes_exp aSupported (by omega)

theorem ctz64_isSet
    {x : BitVec 64}
    (nonzero : x ≠ 0) :
    ctz64 x < 64 ∧ x.getLsbD (ctz64 x) = true :=
  ⟨BitVec.ctz_lt_iff_ne_zero.mpr nonzero,
    BitVec.getLsbD_true_ctz_of_ne_zero nonzero⟩

/-- A quotient of a normal number has its top bit, and loses few places. -/
theorem divSignif_top
    (aTop : 2 ^ 63 ≤ a.signif.toNat)
    (bNonzero : b.signif ≠ 0) :
    2 ^ 127 ≤ (divSignif a b).1 ∧
      ∃ zeros : Nat, zeros ≤ 64 ∧
      (divSignif a b).2 =
        unbiasDenormal a.exp - unbiasDenormal b.exp + 63 - ctz64 b.signif -
          zeros ∧
      (b.signif.toNat = 2 ^ ctz64 b.signif → zeros = 0) := by
  have aFits := a.signif.isLt
  have bFits := b.signif.isLt
  have divisorPositive : 1 ≤ b.signif.toNat / 2 ^ ctz64 b.signif :=
    (Nat.one_le_div_iff (Nat.two_pow_pos _)).mpr
      (BitVec.two_pow_ctz_le_toNat_of_ne_zero bNonzero)
  have divisorIsOne :
      b.signif.toNat = 2 ^ ctz64 b.signif →
        b.signif.toNat / 2 ^ ctz64 b.signif = 1 := by
    intro isPower
    rw [isPower]
    exact Nat.div_self (Nat.two_pow_pos _)
  have divisorSmall : b.signif.toNat / 2 ^ ctz64 b.signif < 2 ^ 64 :=
    Nat.lt_of_le_of_lt (Nat.div_le_self _ _) bFits
  unfold divSignif
  dsimp only
  generalize b.signif.toNat / 2 ^ ctz64 b.signif = divisor
    at divisorPositive divisorIsOne divisorSmall ⊢
  have quotientLarge : 2 ^ 63 ≤ a.signif.toNat * 2 ^ 64 / divisor := by
    rw [Nat.le_div_iff_mul_le divisorPositive]
    exact Nat.mul_le_mul aTop (Nat.le_of_lt divisorSmall)
  have quotientFits : a.signif.toNat * 2 ^ 64 / divisor < 2 ^ 128 := by
    have smaller := Nat.div_le_self (a.signif.toNat * 2 ^ 64) divisor
    omega
  have nonzero : a.signif.toNat * 2 ^ 64 / divisor ≠ 0 := by omega
  obtain ⟨topBit, noLoss, small⟩ := u128Clz_eq nonzero quotientFits
  rw [if_pos nonzero, if_pos nonzero, Nat.mod_eq_of_lt noLoss]
  have bounded : ∀ low places : Nat,
      low ≤ a.signif.toNat * 2 ^ 64 / divisor → 2 ^ 128 ≤ low * 2 ^ places →
      u128Clz (a.signif.toNat * 2 ^ 64 / divisor) < places := by
    intro low places isLow overflows
    by_contra notBelow
    have scaled := Nat.mul_le_mul isLow
      (Nat.pow_le_pow_right (by decide : 0 < 2) (Nat.le_of_not_lt notBelow))
    omega
  refine ⟨Nat.le_trans topBit Nat.left_le_or, _, ?_, rfl, ?_⟩
  · exact Nat.le_of_lt_succ (bounded (2 ^ 63) 65 quotientLarge (by decide))
  · intro isPower
    refine Nat.lt_one_iff.mp (bounded (2 ^ 127) 1 ?_ (by decide))
    rw [divisorIsOne isPower, Nat.div_one]
    omega

/-- A normal number over one of the least numbers is far above them. -/
theorem f80Div_exp
    (xNormal : x.exp ≠ expDenormal)
    (isLeast : guess.exp.toNat ≤ 1) :
    2 ≤ (f80Div mode x guess).exp.toNat := by
  obtain ⟨isBias, isMin, isMax⟩ := exponent_bounds
  unfold f80Div
  cases nans : handleNans x guess with
  | some f =>
    dsimp only
    rw [(handleNans_some nans).1]
    decide
  | none =>
    obtain ⟨xSupported, guessSupported, _⟩ := handleNans_none nans
    have guessFinite : guess.IsFinite := by
      intro isSpecial
      rw [isSpecial] at isLeast
      exact absurd isLeast (by decide)
    have xLarge := (isSupported_of_normal xNormal).mp xSupported
    dsimp only
    rw [guessFinite.notInf]
    split
    · rw [if_neg Bool.false_ne_true]
      dsimp only
      decide
    split
    · contradiction
    split
    · have xNotZero : x.isZero = false := by
        unfold isZero
        rw [beq_eq_false_iff_ne.mpr xNormal, Bool.false_and]
      rw [xNotZero, if_neg Bool.false_ne_true]
      dsimp only
      decide
    · next notZero =>
        have nonzero : guess.signif ≠ 0 := by
          intro noBits
          refine notZero ?_
          unfold isZero
          by_cases isDenormal : guess.exp = expDenormal
          · rw [isDenormal, noBits]
            rfl
          · have large := (isSupported_of_normal isDenormal).mp guessSupported
            rw [noBits] at large
            exact absurd large (by decide)
        obtain ⟨topBit, zeros, few, isExp, _⟩ := divSignif_top xLarge nonzero
        have fewTrailing := (ctz64_isSet nonzero).1
        have isSmallest : unbiasDenormal guess.exp = expMin := by
          obtain ⟨ifDenormal, ifNormal⟩ := unbiasDenormal_eq guess
          by_cases isDenormal : guess.exp = expDenormal
          · have none := ifDenormal isDenormal
            omega
          · have one := ifNormal isDenormal
            omega
        have aboveMin := (unbiasDenormal_eq x).2 xNormal
        exact u128NormalizeRound_exp topBit (divSignif_fits x guess) (by omega)

theorem f80FromInt_two :
    f80FromInt 2 = ⟨0x8000000000000000, 0x4000, false⟩ := by
  decide

theorem ctz64_two :
    ctz64 0x8000000000000000 = 63 := by
  have onlyBit :
      ∀ i < 64, (0x8000000000000000 : BitVec 64).getLsbD i = true → i = 63 := by
    decide
  obtain ⟨below, isSet⟩ :=
    ctz64_isSet (x := 0x8000000000000000) (by decide)
  exact onlyBit _ below isSet

/-- Half of a number above the least normal ones is canonical. -/
theorem half_isSupported
    (above : 2 ≤ f.exp.toNat) :
    (f80Div mode f (f80FromInt 2)).isSupported = true := by
  rw [f80FromInt_two]
  by_cases supported : f.isSupported = true
  · rw [f80Div_isSupported_iff supported (by decide)]
    rintro ⟨_, _, _, misrounded⟩
    obtain ⟨notDenormal, aboveMin⟩ := expMin_lt_of_two_le above
    obtain ⟨topBit, zeros, _, isExp, ifPower⟩ :=
      divSignif_top
        (b := ⟨0x8000000000000000, 0x4000, false⟩)
        ((isSupported_of_normal notDenormal).mp supported) (by decide)
    have noZeros := ifPower (by rw [ctz64_two]; decide)
    have isOne : unbiasDenormal 0x4000 = 1 := by decide
    rw [ctz64_two, isOne, noZeros] at isExp
    exact not_misrounds_of_top topBit (by omega) misrounded
  · have isUnsupported :
        handleNans f ⟨0x8000000000000000, 0x4000, false⟩ = some .nan := by
      unfold handleNans
      rw [Bool.not_eq_true] at supported
      rw [supported]
      rfl
    unfold f80Div
    rw [isUnsupported]
    dsimp only
    decide

/-- The guesses that the rounds go through for a number that is not small. -/
structure Guess (guess : Float80) : Prop where
  supported : guess.isSupported = true
  positive : guess.sign = false

theorem sqrtRound_guess
    (xNormal : x.exp ≠ expDenormal)
    (xPositive : x.sign = false)
    (isGuess : Guess guess) :
    Guess (sqrtRound mode x guess) := by
  have quotientPositive : (f80Div mode x guess).sign = false :=
    f80Div_positive xPositive isGuess.positive
  have twoPositive : (f80FromInt 2).sign = false := by decide
  -- A guess that is tiny has a quotient that is not.
  have oneIsAbove : 2 ≤ guess.exp.toNat ∨ 2 ≤ (f80Div mode x guess).exp.toNat := by
    by_cases isLeast : guess.exp.toNat ≤ 1
    · exact .inr (f80Div_exp xNormal isLeast)
    · exact .inl (Nat.lt_of_not_le isLeast)
  constructor
  case supported =>
    exact half_isSupported
      (f80Add_exp isGuess.positive quotientPositive oneIsAbove)
  case positive =>
    exact f80Div_positive (f80Add_positive isGuess.positive quotientPositive)
      twoPositive

theorem sqrtLoop_guess
    (xNormal : x.exp ≠ expDenormal)
    (xPositive : x.sign = false)
    (rounds : Nat)
    (isGuess : Guess guess) :
    Guess (sqrtLoop mode x guess rounds) := by
  induction rounds generalizing guess with
  | zero => exact sqrtRound_guess xNormal xPositive isGuess
  | succ rounds inductionHypothesis =>
    have next : Guess (sqrtRound mode x guess) :=
      sqrtRound_guess xNormal xPositive isGuess
    unfold sqrtLoop
    split
    · exact next
    · exact inductionHypothesis next

/-- A guess that is no number stays none. -/
theorem sqrtRound_nan
    (xSupported : x.isSupported = true)
    (xNotNan : x.isNan = false)
    (noNumber : guess.isSupported = false ∨ guess = nan) :
    sqrtRound mode x guess = nan := by
  have quotient : f80Div mode x guess = nan := by
    have nans : handleNans x guess = some nan := by
      unfold handleNans
      rcases noNumber with unsupported | rfl
      · rw [unsupported]
        simp
      · rw [xSupported, xNotNan]
        rfl
    unfold f80Div
    rw [nans]
  have sum : f80Add mode guess nan = nan := by
    have nans : handleNans guess nan = some nan := by
      rcases noNumber with unsupported | rfl
      · unfold handleNans
        rw [unsupported]
        rfl
      · decide
    unfold f80Add
    rw [nans]
  have half : handleNans nan (f80FromInt 2) = some nan := by decide
  unfold sqrtRound
  rw [quotient, sum]
  unfold f80Div
  rw [half]

theorem sqrtLoop_nan
    (xSupported : x.isSupported = true)
    (xNotNan : x.isNan = false)
    (rounds : Nat)
    (noNumber : guess.isSupported = false ∨ guess = nan) :
    sqrtLoop mode x guess rounds = nan := by
  induction rounds generalizing guess with
  | zero => exact sqrtRound_nan xSupported xNotNan noNumber
  | succ rounds inductionHypothesis =>
    unfold sqrtLoop
    rw [sqrtRound_nan xSupported xNotNan noNumber]
    split
    · rfl
    · exact inductionHypothesis (.inr rfl)

theorem firstGuess_exp
    (exp : BitVec 15) :
    bias ((unbias exp).tdiv 2) ≠ expDenormal := by
  obtain ⟨isBias, isMin, isMax⟩ := exponent_bounds
  have fits := exp.isLt
  intro isDenormal
  have isHalf : ((unbias exp).tdiv 2).natAbs = (unbias exp).natAbs / 2 :=
    Int.natAbs_tdiv _ _
  have small : (unbias exp).natAbs ≤ 16384 := by
    unfold unbias
    omega
  have above : expMin ≤ (unbias exp).tdiv 2 := by omega
  have isExp := toNat_bias above (by omega)
  have isZero : expDenormal.toNat = 0 := rfl
  rw [isDenormal, isZero] at isExp
  omega

theorem f80Sqrt_isSupported
    (supported : x.isSupported = true) :
    (f80Sqrt mode x).isSupported = true := by
  unfold f80Sqrt
  split
  · exact supported
  split
  · decide
  next isPositive =>
  rw [Bool.not_eq_true, Bool.or_eq_false_iff] at isPositive
  have notDenormal := firstGuess_exp x.exp
  by_cases isDenormal : x.exp = expDenormal
  · have unsupported :
        ({ x with exp := bias ((unbias x.exp).tdiv 2) } :
          Float80).isSupported = false := by
      have small := (isSupported_of_denormal isDenormal).mp supported
      rw [← Bool.not_eq_true, isSupported_of_normal notDenormal]
      exact Nat.not_le_of_lt small
    rw [sqrtLoop_nan supported isPositive.1 100 (.inl unsupported)]
    decide
  · refine (sqrtLoop_guess isDenormal isPositive.2 100 ?_).supported
    refine ⟨?_, isPositive.2⟩
    rw [isSupported_of_normal notDenormal]
    exact (isSupported_of_normal isDenormal).mp supported

end Roots

/--
For canonical operands, a call returns a canonical number exactly when it is not
one of those that are rounded wrongly.
-/
theorem FloatOp.canonical_run_iff
    (mode : RoundingMode)
    (op : FloatOp)
    (canonicalOperands : ∀ f ∈ op.operands, f.Canonical) :
    (op.run mode).Canonical ↔ ¬op.Misencodes mode := by
  have supported : ∀ f ∈ op.operands, f.isSupported = true :=
    fun f isOperand => (canonical_iff f).mp (canonicalOperands f isOperand)
  rw [canonical_iff]
  cases op with
  | add a b =>
    exact f80Add_isSupported_iff (supported a (by simp [operands]))
      (supported b (by simp [operands]))
  | sub a b =>
    exact f80Sub_isSupported_iff (supported a (by simp [operands]))
      (supported b (by simp [operands]))
  | mul a b =>
    exact f80Mul_isSupported_iff (supported a (by simp [operands]))
      (supported b (by simp [operands]))
  | div a b =>
    exact f80Div_isSupported_iff (supported a (by simp [operands]))
      (supported b (by simp [operands]))
  | scale x exp =>
    exact f80Scale_isSupported_iff (supported x (by simp [operands]))
  | round f =>
    exact iff_of_true (f80Round_isSupported (supported f (by simp [operands])))
      id
  | sqrt x =>
    exact iff_of_true (f80Sqrt_isSupported (supported x (by simp [operands])))
      id
  | fromInt i => exact iff_of_true (f80FromInt_isSupported i) id
  | fromDouble d => exact iff_of_true (f80FromDouble_isSupported d) id

/-- One times one is canonical, as the operands are. -/
theorem FloatOp.canonical_run_one :
    let one : Float80 := ⟨0x8000000000000000, 0x3fff, false⟩
    (FloatOp.mul one one).run .toNearest = one ∧
      ((FloatOp.run .toNearest (.mul one one)).Canonical ↔
        ¬FloatOp.Misencodes .toNearest (.mul one one)) := by
  intro one
  have oneCanonical : one.Canonical := (canonical_iff one).mpr (by decide)
  refine ⟨by decide, FloatOp.canonical_run_iff .toNearest (.mul one one) ?_⟩
  intro f isOperand
  simp only [FloatOp.operands, List.mem_cons, List.not_mem_nil, or_false,
    or_self] at isOperand
  rw [isOperand]
  exact oneCanonical

/--
A product of zero that has the exponent of a normal number, and a difference
that is rounded up to the integer bit under the exponent of a denormal.
-/
theorem FloatOp.canonical_run_fails :
    let large : Float80 := ⟨0x8000000000000000, 0x3fff + 127, false⟩
    let product := FloatOp.mul .zero large
    let least : Float80 := ⟨0x8000000000000000, 1, false⟩
    let denormal : Float80 := ⟨1, 0, false⟩
    let difference := FloatOp.sub least denormal
    ((∀ f ∈ product.operands, f.Canonical) ∧
        product.run .toNearest = ⟨0, 1, false⟩ ∧
          ¬(product.run .toNearest).Canonical) ∧
      (∀ f ∈ difference.operands, f.Canonical) ∧
        difference.run .toNearest = ⟨0x8000000000000000, 0, false⟩ ∧
        ¬(difference.run .toNearest).Canonical := by
  simp only [canonical_iff]
  decide

end GuestKernel
