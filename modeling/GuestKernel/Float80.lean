import Mathlib.Data.Nat.Bitwise

namespace GuestKernel

/-!
# 80-bit floating point numbers

The arithmetic of `emu/float80.c`.  A significand has an explicit integer bit; an
exponent is stored with a bias.  `uint128_t` is a natural number that is cut to
128 bits wherever it is shifted left, and an `int` exponent is an integer.  The
rounding mode is the thread-local `f80_rounding_mode`, passed along.

Assertions are left out, but for the one at the end of `f80_add`, which fails
for some operands: `f80AddAsserted` is the call with it.
-/

/-- `enum f80_rounding_mode`. -/
inductive RoundingMode where
  | toNearest
  | down
  | up
  | chop
  deriving Repr, DecidableEq

/-- The mode that two bits stand for. -/
def RoundingMode.ofBits (bits : BitVec 2) : RoundingMode :=
  if bits = 0 then .toNearest
  else if bits = 1 then .down
  else if bits = 2 then .up
  else .chop

/-- `float80`. -/
structure Float80 where
  signif : BitVec 64
  exp : BitVec 15
  sign : Bool
  deriving Repr, DecidableEq

/-- `BIAS80`. -/
abbrev bias80 : Int := 0x3fff

/-- `unbias(EXP_MAX)`. -/
abbrev expMax : Int := 0x7ffe - bias80

/-- `unbias(EXP_MIN)`. -/
abbrev expMin : Int := 0x0001 - bias80

/-- `EXP_SPECIAL`. -/
abbrev expSpecial : BitVec 15 := 0x7fff

/-- `EXP_DENORMAL`. -/
abbrev expDenormal : BitVec 15 := 0

/-- `bias`, into the field it is stored in. -/
def bias (exp : Int) : BitVec 15 :=
  BitVec.ofInt 15 (exp + bias80)

/-- `unbias`. -/
def unbias (exp : BitVec 15) : Int :=
  exp.toNat - bias80

/-- `unbias_denormal`. -/
def unbiasDenormal (exp : BitVec 15) : Int :=
  if exp = expDenormal then expMin else unbias exp

/-- `round_away_from_zero`. -/
def roundAwayFromZero (mode : RoundingMode) (sign : Bool) : Bool :=
  (mode == .up && !sign) || (mode == .down && sign)

/-- `u128_shift_right_round`; `rest` has 64 bits only. -/
def u128ShiftRightRound
    (mode : RoundingMode) (i shift : Nat) (sign : Bool) : Nat :=
  if shift = 0 then
    i
  else if 127 < shift then
    if roundAwayFromZero mode sign && i != 0 then 1 else 0
  else
    let guard := i / 2 ^ (shift - 1) % 2
    let rest := i % 2 ^ (shift - 1) % 2 ^ 64
    let shifted := i / 2 ^ shift
    if guard = 0 ∧ rest = 0 then
      shifted
    else if roundAwayFromZero mode sign then
      shifted + 1
    else if mode = .toNearest ∧ guard = 1 then
      if rest ≠ 0 then
        shifted + 1
      else if shifted % 2 = 1 then
        shifted + 1
      else
        shifted
    else
      shifted

/-- `__builtin_clzl`, and 64 for zero. -/
def clz64 (x : BitVec 64) : Nat :=
  if x = 0 then 64 else 63 - x.toNat.log2

/-- `__builtin_ctzl`. -/
def ctz64 (x : BitVec 64) : Nat :=
  x.ctz.toNat

/-- `u128_clz`. -/
def u128Clz (x : Nat) : Nat :=
  if x / 2 ^ 64 ≠ 0 then
    clz64 (BitVec.ofNat 64 (x / 2 ^ 64))
  else if x ≠ 0 then
    64 + clz64 (BitVec.ofNat 64 x)
  else
    128

namespace Float80

/-- `f80_shift_left`. -/
def shiftLeft (f : Float80) (shift : Nat) : Float80 :=
  { f with
    signif := f.signif <<< shift
    exp := f.exp - BitVec.ofNat 15 shift }

/-- `f80_shift_right`. -/
def shiftRight (mode : RoundingMode) (f : Float80) (shift : Nat) : Float80 :=
  { f with
    signif :=
      BitVec.ofNat 64 (u128ShiftRightRound mode f.signif.toNat shift f.sign)
    exp := f.exp + BitVec.ofNat 15 shift }

/-- The integer bit of the significand. -/
def integerBit (f : Float80) : Bool :=
  f.signif.getLsbD 63

/-- `f80_is_supported`. -/
def isSupported (f : Float80) : Bool :=
  if f.exp = expDenormal then !f.integerBit else f.integerBit

/-- The bits of the significand below the integer bit. -/
def fraction (f : Float80) : Nat :=
  f.signif.toNat % 2 ^ 63

/-- `f80_isnan`. -/
def isNan (f : Float80) : Bool :=
  f.exp == expSpecial && f.fraction != 0

/-- `f80_isinf`. -/
def isInf (f : Float80) : Bool :=
  f.exp == expSpecial && f.fraction == 0

/-- `f80_iszero`. -/
def isZero (f : Float80) : Bool :=
  f.exp == expDenormal && f.signif == 0

/-- `F80_NAN`. -/
def nan : Float80 := ⟨0xc000000000000000, expSpecial, false⟩

/-- `F80_INF`. -/
def inf : Float80 := ⟨0x8000000000000000, expSpecial, false⟩

/-- `(float80) {0}`. -/
def zero : Float80 := ⟨0, 0, false⟩

end Float80

/-- `f80_normalize`. -/
def f80Normalize (f : Float80) : Float80 :=
  if f.exp = expDenormal then
    f
  else
    let shift := clz64 f.signif
    if (f.exp.toNat : Int) - shift < 1 then
      { f.shiftLeft (f.exp.toNat - 1) with exp := expDenormal }
    else
      f.shiftLeft shift

/-- The last part of `u128_normalize_round`, from `// and round`. -/
def roundSignif
    (mode : RoundingMode) (signif : Nat) (exp : Int) (sign : Bool) : Float80 :=
  let rounded := u128ShiftRightRound mode signif 64 sign
  if rounded / 2 ^ 64 ≠ 0 then
    ⟨BitVec.ofNat 64 (rounded / 2), bias exp + 1, sign⟩
  else
    ⟨BitVec.ofNat 64 rounded, bias exp, sign⟩

/-- `u128_normalize_round`. -/
def u128NormalizeRound
    (mode : RoundingMode) (signif : Nat) (exp : Int) (sign : Bool) : Float80 :=
  let shift := u128Clz signif
  if exp - shift < expMin then
    let aligned :=
      if expMin < exp then
        signif * 2 ^ (exp - expMin).toNat % 2 ^ 128
      else
        u128ShiftRightRound mode signif (expMin - exp).toNat sign
    roundSignif mode aligned (-bias80) sign
  else if expMax < exp - shift then
    if signif = 2 ^ 127 then
      { Float80.inf with sign := sign }
    else if (mode = .up ∧ sign) ∨ (mode = .down ∧ !sign) ∨ mode = .chop then
      ⟨BitVec.allOnes 64, 0x7ffe, sign⟩
    else
      { Float80.inf with sign := sign }
  else
    roundSignif mode (signif * 2 ^ shift % 2 ^ 128) (exp - shift) sign

/-- `f80_from_int`. -/
def f80FromInt (i : BitVec 64) : Float80 :=
  let exp : BitVec 15 := if i = 0 then 0 else bias 63
  if i.msb then
    f80Normalize ⟨-i, exp, true⟩
  else
    f80Normalize ⟨i, exp, false⟩

/-- `f80_to_int`. -/
def f80ToInt (mode : RoundingMode) (f : Float80) : BitVec 64 :=
  if !f.isSupported then
    BitVec.intMin 64
  else if bias 63 < f.exp then
    BitVec.intMin 64
  else
    let shifted := f.shiftRight mode ((bias 63).toNat - f.exp.toNat)
    if shifted.sign then -shifted.signif else shifted.signif

/-- `f80_from_double`, of the bits of the `double`. -/
def f80FromDouble (d : BitVec 64) : Float80 :=
  let signif := d.extractLsb' 0 52
  let exp := d.extractLsb' 52 11
  let wide : BitVec 64 := signif.setWidth 64 <<< 11
  f80Normalize
    { exp :=
        if exp = 0x7ff then
          expSpecial
        else if exp = 0 then
          if signif = 0 then 0 else bias (1 - 0x3ff)
        else
          bias (exp.toNat - 0x3ff)
      signif := if exp ≠ 0 then wide ||| 0x8000000000000000 else wide
      sign := d.msb }

/-- `f80_round`. -/
def f80Round (mode : RoundingMode) (f : Float80) : Float80 :=
  if !f.isSupported then
    .nan
  else
    let bitsToClear := 63 - unbias f.exp
    if bitsToClear ≤ 0 then
      f
    else
      let shifted := f.shiftRight mode bitsToClear.toNat
      if shifted.signif = 0 then
        { shifted with exp := expDenormal }
      else
        f80Normalize shifted

/-- `f80_neg`. -/
def f80Neg (f : Float80) : Float80 :=
  { f with sign := !f.sign }

/-- `handle_nans`: the number that is returned at once, if any. -/
def handleNans (a b : Float80) : Option Float80 :=
  if !a.isSupported || !b.isSupported then some .nan
  else if a.isNan && b.isNan && a.sign && !b.sign then some b
  else if a.isNan then some a
  else if b.isNan then some b
  else none

/-- The addition of `f80_add`; `flipped` says that the signs were changed. -/
def addMagnitudes
    (mode : RoundingMode) (a : Float80) (aSignif bSignif : Nat)
    (flipped : Bool) : Float80 :=
  let exp := unbiasDenormal a.exp
  if a.isInf then
    u128NormalizeRound mode aSignif exp flipped
  else if 2 ^ 128 ≤ aSignif + bSignif then
    let sum := (aSignif + bSignif) % 2 ^ 128
    u128NormalizeRound mode (u128ShiftRightRound mode sum 1 false ||| 2 ^ 127)
      (exp + 1) flipped
  else
    u128NormalizeRound mode (aSignif + bSignif) exp flipped

/-- The subtraction of `f80_add`. -/
def subMagnitudes
    (mode : RoundingMode) (a b : Float80) (aSignif bSignif : Nat)
    (flipped : Bool) : Float80 :=
  if a.isInf && b.isInf then
    .nan
  else
    let bSignif :=
      if mode = .chop ∧ bSignif = 0 ∧ b.signif ≠ 0 then 1 else bSignif
    let bSignif := if a.isInf then 0 else bSignif
    let sign := decide (aSignif < bSignif)
    let signif :=
      if bSignif ≤ aSignif then aSignif - bSignif else bSignif - aSignif
    if signif = 0 ∧ aSignif ≠ 0 ∧ mode = .down then
      { Float80.zero with sign := true }
    else if signif = 0 then
      .zero
    else
      u128NormalizeRound mode signif (unbiasDenormal a.exp) (sign ^^ flipped)

/-- `f80_add`, of operands in the order of their exponents. -/
def addOrdered (mode : RoundingMode) (a b : Float80) : Float80 :=
  let flipped := a.sign
  let aSignif := a.signif.toNat * 2 ^ 64
  -- the sign of b is flipped twice here
  let bSignif :=
    u128ShiftRightRound mode (b.signif.toNat * 2 ^ 64)
      (a.exp.toNat - b.exp.toNat) b.sign
  if b.sign = flipped then
    addMagnitudes mode a aSignif bSignif flipped
  else
    subMagnitudes mode a b aSignif bSignif flipped

/-- `f80_add`. -/
def f80Add (mode : RoundingMode) (a b : Float80) : Float80 :=
  match handleNans a b with
  | some nan => nan
  | none => if a.exp < b.exp then addOrdered mode b a else addOrdered mode a b

/-- `f80_add` with its assertion; what it returns before that is supported. -/
def f80AddAsserted (mode : RoundingMode) (a b : Float80) : Option Float80 :=
  if (f80Add mode a b).isSupported then some (f80Add mode a b) else none

/-- `f80_sub`. -/
def f80Sub (mode : RoundingMode) (a b : Float80) : Float80 :=
  f80Add mode a (f80Neg b)

/-- `f80_mul`. -/
def f80Mul (mode : RoundingMode) (a b : Float80) : Float80 :=
  match handleNans a b with
  | some nan => nan
  | none =>
    let sign := a.sign ^^ b.sign
    if a.isInf || b.isInf then
      if a.isZero || b.isZero then
        .nan
      else
        { Float80.inf with sign := sign }
    else
      u128NormalizeRound mode (a.signif.toNat * b.signif.toNat)
        (unbiasDenormal a.exp + unbiasDenormal b.exp + 1) sign

/-- The quotient of `f80_div` in 128 bits, and its exponent. -/
def divSignif (a b : Float80) : Nat × Int :=
  let trailing := ctz64 b.signif
  let divisor := b.signif.toNat / 2 ^ trailing
  let dividend := a.signif.toNat * 2 ^ 64
  let signif := dividend / divisor
  let remainder := dividend % divisor
  let extraBits := if signif ≠ 0 then u128Clz signif else 0
  let extended :=
    if signif ≠ 0 then
      (signif * 2 ^ extraBits % 2 ^ 128) |||
        (remainder * 2 ^ extraBits % 2 ^ 128 / divisor)
    else
      signif
  (extended,
    unbiasDenormal a.exp - unbiasDenormal b.exp + 63 - trailing - extraBits)

/-- `f80_div`. -/
def f80Div (mode : RoundingMode) (a b : Float80) : Float80 :=
  match handleNans a b with
  | some nan => nan
  | none =>
    let sign := a.sign ^^ b.sign
    if a.isInf then
      if b.isInf then .nan else { Float80.inf with sign := sign }
    else if b.isInf then
      { Float80.zero with sign := sign }
    else if b.isZero then
      if a.isZero then
        { Float80.nan with sign := sign }
      else
        { Float80.inf with sign := sign }
    else
      u128NormalizeRound mode (divSignif a b).1 (divSignif a b).2 sign

/-- `f80_uncomparable`. -/
def f80Uncomparable (a b : Float80) : Bool :=
  !a.isSupported || !b.isSupported || a.isNan || b.isNan

/-- `f80_eq`; the sign of `b` is cleared where `a` is zero. -/
def f80Eq (a b : Float80) : Bool :=
  if f80Uncomparable a b then
    false
  else if a.isZero then
    a.exp == b.exp && a.signif == b.signif
  else
    a.sign == b.sign && a.exp == b.exp && a.signif == b.signif

/-- One round of Newton's method in `f80_sqrt`. -/
def sqrtRound (mode : RoundingMode) (x guess : Float80) : Float80 :=
  f80Div mode (f80Add mode guess (f80Div mode x guess)) (f80FromInt 2)

/-- The loop of `f80_sqrt`, with the rounds that are left. -/
def sqrtLoop (mode : RoundingMode) (x guess : Float80) : Nat → Float80
  | 0 => sqrtRound mode x guess
  | rounds + 1 =>
    if f80Eq (sqrtRound mode x guess) guess then
      sqrtRound mode x guess
    else
      sqrtLoop mode x (sqrtRound mode x guess) rounds

/-- `f80_sqrt`. -/
def f80Sqrt (mode : RoundingMode) (x : Float80) : Float80 :=
  if x.isZero then
    x
  else if x.isNan || x.sign then
    .nan
  else
    sqrtLoop mode x { x with exp := bias ((unbias x.exp).tdiv 2) } 100

/-- `f80_scale`. -/
def f80Scale (mode : RoundingMode) (x : Float80) (scale : Int) : Float80 :=
  if !x.isSupported || x.isNan then
    .nan
  else
    u128NormalizeRound mode (x.signif.toNat * 2 ^ 64) (unbias x.exp + scale)
      x.sign

/-- `f80_mod`, and the rounding mode that it leaves. -/
def f80Mod
    (mode : RoundingMode) (x y : Float80) : Float80 × RoundingMode :=
  let quotient := f80Div mode x y
  let oldMode := mode
  let mode := RoundingMode.chop
  let quotient := f80Round mode quotient
  let mode := oldMode
  (f80Sub mode x (f80Mul mode quotient y), mode)

end GuestKernel
