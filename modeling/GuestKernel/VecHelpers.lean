import GuestKernel.Lanes

namespace GuestKernel

/-!
# The packed helpers of SSE and MMX

`emu/vec.c` and `emu/mmx.c`: the helpers with a source and a destination
register, of 128 bits for SSE and of 64 bits for MMX.  They get pointers into
the registers of the guest, and the generator passes one pointer twice where an
instruction names one register twice.  Arithmetic on `float` and `double` is
the host's; here it is any functions on their bits.
-/

/-- What the host computes on floating-point numbers, given by their bits. -/
structure HostFloats where
  add64 : BitVec 64 → BitVec 64 → BitVec 64
  sub64 : BitVec 64 → BitVec 64 → BitVec 64
  mul64 : BitVec 64 → BitVec 64 → BitVec 64
  add32 : BitVec 32 → BitVec 32 → BitVec 32
  sub32 : BitVec 32 → BitVec 32 → BitVec 32
  mul32 : BitVec 32 → BitVec 32 → BitVec 32
  eq64 : BitVec 64 → BitVec 64 → Bool
  lt64 : BitVec 64 → BitVec 64 → Bool
  le64 : BitVec 64 → BitVec 64 → Bool
  isNan64 : BitVec 64 → Bool
  isNan32 : BitVec 32 → Bool
  doubleToInt : BitVec 64 → BitVec 32
  floatToInt : BitVec 32 → BitVec 32
  intToDouble : BitVec 32 → BitVec 64
  intToFloat : BitVec 32 → BitVec 32
  doubleToFloat : BitVec 64 → BitVec 32
  floatToDouble : BitVec 32 → BitVec 64

variable {Name : Type} [DecidableEq Name] {w : Nat}

/-- `u8[i]`. -/
abbrev u8 (register : BitVec w) (i : Nat) : BitVec 8 :=
  lane 8 register i

/-- `u16[i]`. -/
abbrev u16 (register : BitVec w) (i : Nat) : BitVec 16 :=
  lane 16 register i

/-- `u32[i]`, `f32[i]` and `dw[i]`. -/
abbrev u32 (register : BitVec w) (i : Nat) : BitVec 32 :=
  lane 32 register i

/-- `qw[i]` and `f64[i]`. -/
abbrev qw (register : BitVec w) (i : Nat) : BitVec 64 :=
  lane 64 register i

/-- An assignment to a field of the destination. -/
def store
    {size : Nat}
    (regs : Name → BitVec w)
    (dst : Name)
    (i : Nat)
    (value : BitVec size) : Name → BitVec w :=
  Function.update regs dst (setLane (regs dst) i value)

/-- `satsw`, with the comparisons of `int32_t`. -/
def satsw (dw : BitVec 32) : BitVec 32 :=
  if (0xff80#32).slt dw then dw &&& 0xff#32
  else if (0x7fff#32).slt dw then 0x80#32
  else if (0x7f#32).slt dw then 0x7f#32
  else dw

/-- `satud`. -/
def satud (dw : BitVec 32) : BitVec 32 :=
  if dw > 0xffff8000#32 then dw &&& 0xffff#32
  else if dw > 0x7fffffff#32 then 0x8000#32
  else if dw > 0x7fff#32 then 0x7fff#32
  else dw

/-- `satub`. -/
def satub (dw : BitVec 32) : BitVec 32 :=
  if dw ≥ 0x8000#32 then 0#32
  else if dw > 0xff#32 then 0xff#32
  else dw

/-- `satsb`. -/
def satsb (dw : BitVec 32) : BitVec 32 :=
  if dw > 0xffffff80#32 then dw &&& 0xff#32
  else if dw > 0x7fffffff#32 then 0x80#32
  else if dw > 0x7f#32 then 0x7f#32
  else dw

/-- `_SHIFT`. -/
def shiftBy
    (op : {size : Nat} → BitVec size → Nat → BitVec size)
    (size : Nat)
    (amount : BitVec 8)
    (d : BitVec w) : BitVec w :=
  if amount.toNat > size - 1 then
    0#w
  else
    forLanes (w / size)
      (fun i d => setLane d i (op (lane size d i) amount.toNat)) d

/-- `VEC_SSE_SHIFT` and `VEC_MMX_SHIFT`: the amount is the first byte. -/
def vecShift
    (op : {size : Nat} → BitVec size → Nat → BitVec size)
    (size : Nat) : Operation Name w :=
  snapshot fun s d => shiftBy op size (u8 s 0) d

/-- `VEC_SSE_OP` and `VEC_MMX_OP`, and `_VEC_SSE_CMP` and `_VEC_MMX_CMP`. -/
def vecOp
    (size : Nat)
    (op : BitVec size → BitVec size → BitVec size) : Operation Name w :=
  snapshot fun s d =>
    forLanes (w / size)
      (fun i d => setLane d i (op (lane size d i) (lane size s i))) d

/-- `relop` with `? ~0 : 0`. -/
def compareLanes
    {size : Nat}
    (relop : BitVec size → BitVec size → Bool)
    (d s : BitVec size) : BitVec size :=
  if relop d s then BitVec.allOnes size else BitVec.ofNat size 0

def vecShiftrW128 : Operation Name 128 := vecShift (· >>> ·) 16
def vecShiftrD128 : Operation Name 128 := vecShift (· >>> ·) 32
def vecShiftrQ128 : Operation Name 128 := vecShift (· >>> ·) 64

def vecShiftlW128 : Operation Name 128 := vecShift (· <<< ·) 16
def vecShiftlD128 : Operation Name 128 := vecShift (· <<< ·) 32
def vecShiftlQ128 : Operation Name 128 := vecShift (· <<< ·) 64

def vecCompareEqb128 : Operation Name 128 := vecOp 8 (compareLanes (· == ·))
def vecCompareEqw128 : Operation Name 128 := vecOp 16 (compareLanes (· == ·))
def vecCompareEqd128 : Operation Name 128 := vecOp 32 (compareLanes (· == ·))

def vecComparesGtb128 : Operation Name 128 :=
  vecOp 8 (compareLanes fun d s => s.slt d)
def vecComparesGtw128 : Operation Name 128 :=
  vecOp 16 (compareLanes fun d s => s.slt d)
def vecComparesGtd128 : Operation Name 128 :=
  vecOp 32 (compareLanes fun d s => s.slt d)

def vecAddB128 : Operation Name 128 := vecOp 8 (· + ·)
def vecAddW128 : Operation Name 128 := vecOp 16 (· + ·)
def vecAddD128 : Operation Name 128 := vecOp 32 (· + ·)
def vecAddQ128 : Operation Name 128 := vecOp 64 (· + ·)

def vecSubB128 : Operation Name 128 := vecOp 8 (· - ·)
def vecSubW128 : Operation Name 128 := vecOp 16 (· - ·)
def vecSubD128 : Operation Name 128 := vecOp 32 (· - ·)
def vecSubQ128 : Operation Name 128 := vecOp 64 (· - ·)

def vecAndDq128 : Operation Name 128 := vecOp 128 (· &&& ·)
def vecOrDq128 : Operation Name 128 := vecOp 128 (· ||| ·)
def vecXorDq128 : Operation Name 128 := vecOp 128 (· ^^^ ·)

/-- `dst[i] = f(dst[i], src[i])` for every lane. -/
def laneLoop
    (size n : Nat)
    (f : BitVec size → BitVec size → BitVec size) : Operation Name w :=
  fun regs src dst =>
    forLanes n
      (fun i regs =>
        store regs dst i (f (lane size (regs dst) i) (lane size (regs src) i)))
      regs

/-- An arithmetic shift; one that is too far leaves copies of the sign. -/
def shiftSigned {size : Nat} (value : BitVec size) (amount : BitVec 8) :
    BitVec size :=
  if amount.toNat > size - 1 then
    if value.msb then BitVec.allOnes size else BitVec.ofNat size 0
  else
    value.sshiftRight amount.toNat

/-- `vec_shiftrs_w128` and `vec_shiftrs_d128`; the amount is read first. -/
def vecShiftrs (size n : Nat) : Operation Name w :=
  fun regs src dst =>
    let amount := u8 (regs src) 0
    forLanes n
      (fun i regs =>
        store regs dst i (shiftSigned (lane size (regs dst) i) amount))
      regs

def vecShiftrsW128 : Operation Name 128 := vecShiftrs 16 8
def vecShiftrsD128 : Operation Name 128 := vecShiftrs 32 4

/-- `sum > max ? max : sum`. -/
def addUnsigned {size : Nat} (d s : BitVec size) : BitVec size :=
  let sum : Int := d.toNat + s.toNat
  if sum > (BitVec.allOnes size).toNat then BitVec.allOnes size
  else BitVec.ofInt size sum

/-- `difference < 0 ? 0 : difference`. -/
def subUnsigned {size : Nat} (d s : BitVec size) : BitVec size :=
  let difference : Int := (d.toNat : Int) - s.toNat
  if difference < 0 then BitVec.ofNat size 0 else BitVec.ofInt size difference

def vecAddusB128 : Operation Name 128 := laneLoop 8 16 addUnsigned
def vecAddusW128 : Operation Name 128 := laneLoop 16 8 addUnsigned
def vecAddssB128 : Operation Name 128 :=
  laneLoop 8 16 fun d s =>
    (satsb (d.signExtend 32 + s.signExtend 32)).setWidth 8
def vecAddssW128 : Operation Name 128 :=
  laneLoop 16 8 fun d s =>
    (satud (d.signExtend 32 + s.signExtend 32)).setWidth 16

def vecSubusB128 : Operation Name 128 := laneLoop 8 16 subUnsigned
def vecSubusW128 : Operation Name 128 := laneLoop 16 8 subUnsigned
def vecSubssB128 : Operation Name 128 :=
  laneLoop 8 16 fun d s =>
    (satsb (d.signExtend 32 - s.signExtend 32)).setWidth 8
def vecSubssW128 : Operation Name 128 :=
  laneLoop 16 8 fun d s =>
    (satud (d.signExtend 32 - s.signExtend 32)).setWidth 16

/-- `vec_andn128`, which names its two lanes. -/
def vecAndn128 : Operation Name 128 := laneLoop 64 2 fun d s => ~~~d &&& s

def vecMinUb128 : Operation Name 128 :=
  laneLoop 8 16 fun d s => if s < d then s else d
def vecMaxUb128 : Operation Name 128 :=
  laneLoop 8 16 fun d s => if s > d then s else d
def vecMinsW128 : Operation Name 128 :=
  laneLoop 16 8 fun d s => if d.slt s then d else s
def vecMaxsW128 : Operation Name 128 :=
  laneLoop 16 8 fun d s => if s.slt d then d else s

/-- `(1 + d + s) >> 1` as `int`. -/
def average {size : Nat} (d s : BitVec size) : BitVec size :=
  BitVec.ofNat size ((1 + d.toNat + s.toNat) >>> 1)

def vecAvgB128 : Operation Name 128 := laneLoop 8 16 average
def vecAvgW128 : Operation Name 128 := laneLoop 16 8 average

/-- `(res >> 16) & 0xffff`. -/
def highHalf (res : BitVec 32) : BitVec 16 :=
  (res >>> 16 &&& 0xffff#32).setWidth 16

/-- The high half of a signed product. -/
def mulSignedHigh (d s : BitVec 16) : BitVec 16 :=
  highHalf (d.signExtend 32 * s.signExtend 32)

def vecMull128 : Operation Name 128 := laneLoop 16 8 (· * ·)
def vecMulu128 : Operation Name 128 := laneLoop 16 8 mulSignedHigh
def vecMuluu128 : Operation Name 128 :=
  laneLoop 16 8 fun d s => highHalf (d.setWidth 32 * s.setWidth 32)

/-- The sum of two signed products, at the pair of words `i`. -/
def maddPair (d s : BitVec w) (i : Nat) : BitVec 32 :=
  (u16 d (2 * i)).signExtend 32 * (u16 s (2 * i)).signExtend 32 +
    (u16 d (2 * i + 1)).signExtend 32 * (u16 s (2 * i + 1)).signExtend 32

/-- `vec_madd_d128`. -/
def vecMaddD128 : Operation Name 128 :=
  fun regs src dst =>
    let regs := store regs dst 0 (maddPair (regs dst) (regs src) 0)
    let regs := store regs dst 1 (maddPair (regs dst) (regs src) 1)
    let regs := store regs dst 2 (maddPair (regs dst) (regs src) 2)
    store regs dst 3 (maddPair (regs dst) (regs src) 3)

/-- The absolute difference of the bytes `i`, added to a sum. -/
def addDifference (d s : BitVec w) (i : Nat) (sum : BitVec 32) : BitVec 32 :=
  let difference : Int := ((u8 d i).toNat : Int) - (u8 s i).toNat
  sum + if difference < 0 then -BitVec.ofInt 32 difference
    else BitVec.ofInt 32 difference

/-- `vec_sumabs_w128`. -/
def vecSumabsW128 : Operation Name 128 :=
  fun regs src dst =>
    let sums :=
      forLanes 8
        (fun i (sums : BitVec 32 × BitVec 32) =>
          (addDifference (regs dst) (regs src) (i + 0) sums.1,
            addDifference (regs dst) (regs src) (i + 8) sums.2))
        (0#32, 0#32)
    let regs := store regs dst 0 sums.1
    let regs := store regs dst 2 sums.2
    let regs := store regs dst 3 0#32
    store regs dst 1 0#32

/-- `vec_mulu_dq128`. -/
def vecMuluDq128 : Operation Name 128 :=
  fun regs src dst =>
    let regs :=
      store regs dst 0
        ((u32 (regs src) 0).setWidth 64 * (u32 (regs dst) 0).setWidth 64)
    store regs dst 1
      ((u32 (regs src) 2).setWidth 64 * (u32 (regs dst) 2).setWidth 64)

section Floats

variable (floats : HostFloats)

/-- `cmpd`. -/
def cmpd (type : BitVec 8) (a b : BitVec 64) : Bool :=
  let res :=
    match type.toNat % 4 with
    | 0 => floats.eq64 a b
    | 1 => floats.lt64 a b
    | 2 => floats.le64 a b
    | _ => floats.isNan64 a || floats.isNan64 b
  if type.toNat ≥ 4 then !res else res

def vecAddP64 : Operation Name 128 := laneLoop 64 2 floats.add64
def vecAddP32 : Operation Name 128 := laneLoop 32 4 floats.add32
def vecSubP64 : Operation Name 128 := laneLoop 64 2 floats.sub64
def vecSubP32 : Operation Name 128 := laneLoop 32 4 floats.sub32
def vecMulP64 : Operation Name 128 := laneLoop 64 2 floats.mul64
def vecMulP32 : Operation Name 128 := laneLoop 32 4 floats.mul32

/-- `vec_fcmp_p64`. -/
def vecFcmpP64 (type : BitVec 8) : Operation Name 128 :=
  laneLoop 64 2 (compareLanes (cmpd floats type))

/-- `INT32_MIN`. -/
def int32Min : BitVec 32 :=
  0x80000000#32

/-- `vec_cvtsd2ss64`; a NaN becomes `INT32_MIN` as a `float`. -/
def vecCvtsd2ss64 : Operation Name 128 :=
  fun regs src dst =>
    store regs dst 0
      (if floats.isNan64 (qw (regs src) 0) then floats.intToFloat int32Min
        else floats.doubleToFloat (qw (regs src) 0))

/-- `vec_cvtss2sd32`. -/
def vecCvtss2sd32 : Operation Name 128 :=
  fun regs src dst =>
    store regs dst 0
      (if floats.isNan32 (u32 (regs src) 0) then floats.intToDouble int32Min
        else floats.floatToDouble (u32 (regs src) 0))

/-- `vec_cvtdq2pd64`. -/
def vecCvtdq2pd64 : Operation Name 128 :=
  fun regs src dst =>
    let low := u32 (regs src) 0
    let high := u32 (regs src) 1
    let regs := store regs dst 0 (floats.intToDouble low)
    store regs dst 1 (floats.intToDouble high)

/-- `vec_cvttpd2dq64`; the `memset` comes last. -/
def vecCvttpd2dq64 : Operation Name 128 :=
  fun regs src dst =>
    let regs :=
      forLanes 2
        (fun i regs =>
          store regs dst i
            (if floats.isNan64 (qw (regs src) i) then int32Min
              else floats.doubleToInt (qw (regs src) i)))
        regs
    store regs dst 1 0#64

/-- `vec_cvttps2dq32`; the `memset` has no bytes left. -/
def vecCvttps2dq32 : Operation Name 128 :=
  laneLoop 32 4 fun _ s =>
    if floats.isNan32 s then int32Min else floats.floatToInt s

end Floats

/-- The loop of `vec_unpackl_bw128` and `vec_unpackl_w128`. -/
def unpackLow (size n : Nat) : Operation Name w :=
  fun regs src dst =>
    forLanesDown n
      (fun i regs =>
        let regs := store regs dst (i * 2 + 1) (lane size (regs src) i)
        store regs dst (i * 2) (lane size (regs dst) i))
      regs

/-- The loop of `vec_unpackh_bw128` and `vec_unpackh_w128`. -/
def unpackHigh (size n : Nat) : Operation Name w :=
  fun regs src dst =>
    forLanes n
      (fun i regs =>
        let regs := store regs dst (2 * i + 0) (lane size (regs dst) (i + n))
        store regs dst (2 * i + 1) (lane size (regs src) (i + n)))
      regs

def vecUnpacklBw128 : Operation Name 128 := unpackLow 8 8
def vecUnpacklW128 : Operation Name 128 := unpackLow 16 4

/-- `vec_unpackl_dq128`. -/
def vecUnpacklDq128 : Operation Name 128 :=
  fun regs src dst =>
    let regs := store regs dst 3 (u32 (regs src) 1)
    let regs := store regs dst 2 (u32 (regs dst) 1)
    store regs dst 1 (u32 (regs src) 0)

/-- `vec_unpackl_qdq128`. -/
def vecUnpacklQdq128 : Operation Name 128 :=
  fun regs src dst => store regs dst 1 (qw (regs src) 0)

/-- `vec_unpackl_ps128`. -/
def vecUnpacklPs128 : Operation Name 128 :=
  fun regs src dst =>
    let source := regs src
    let target := regs dst
    let regs := store regs dst 2 (u32 target 1)
    let regs := store regs dst 1 (u32 source 0)
    store regs dst 3 (u32 source 1)

/-- `vec_unpackl_pd128`. -/
def vecUnpacklPd128 : Operation Name 128 :=
  fun regs src dst => store regs dst 1 (qw (regs src) 0)

def vecUnpackhBw128 : Operation Name 128 := unpackHigh 8 8
def vecUnpackhW128 : Operation Name 128 := unpackHigh 16 4

/-- `vec_unpackh_d128`. -/
def vecUnpackhD128 : Operation Name 128 :=
  fun regs src dst =>
    let regs := store regs dst 0 (u32 (regs dst) 2)
    let regs := store regs dst 1 (u32 (regs src) 2)
    let regs := store regs dst 2 (u32 (regs dst) 3)
    store regs dst 3 (u32 (regs src) 3)

/-- `vec_unpackh_dq128`. -/
def vecUnpackhDq128 : Operation Name 128 :=
  fun regs src dst =>
    let regs := store regs dst 0 (qw (regs dst) 1)
    store regs dst 1 (qw (regs src) 1)

/-- `vec_unpackh_ps128`: the body of `vec_unpackh_d128`. -/
def vecUnpackhPs128 : Operation Name 128 := vecUnpackhD128

/-- `vec_unpackh_pd128`: the body of `vec_unpackh_dq128`. -/
def vecUnpackhPd128 : Operation Name 128 := vecUnpackhDq128

/-- Four words from `i` on, saturated to the bytes of one `u32`. -/
def packWords (sat : BitVec 32 → BitVec 32) (register : BitVec w) (i : Nat) :
    BitVec 32 :=
  sat ((u16 register i).setWidth 32) <<< 0x00 |||
    sat ((u16 register (i + 1)).setWidth 32) <<< 0x08 |||
    sat ((u16 register (i + 2)).setWidth 32) <<< 0x10 |||
    sat ((u16 register (i + 3)).setWidth 32) <<< 0x18

/-- The body of `vec_packss_w128` and `vec_packsu_w128`. -/
def packFromWords (sat : BitVec 32 → BitVec 32) : Operation Name 128 :=
  fun regs src dst =>
    let regs := store regs dst 0 (packWords sat (regs dst) 0)
    let regs := store regs dst 1 (packWords sat (regs dst) 4)
    let regs := store regs dst 2 (packWords sat (regs src) 0)
    store regs dst 3 (packWords sat (regs src) 4)

def vecPackssW128 : Operation Name 128 := packFromWords satsw
def vecPacksuW128 : Operation Name 128 := packFromWords satub

/-- Two doublewords from `i` on, saturated to the words of one `u32`. -/
def packDwords (register : BitVec w) (i : Nat) : BitVec 32 :=
  satud (u32 register i) ||| satud (u32 register (i + 1)) <<< 16

/-- `vec_packss_d128`. -/
def vecPackssD128 : Operation Name 128 :=
  fun regs src dst =>
    let regs := store regs dst 0 (packDwords (regs dst) 0)
    let regs := store regs dst 1 (packDwords (regs dst) 2)
    let regs := store regs dst 2 (packDwords (regs src) 0)
    store regs dst 3 (packDwords (regs src) 2)

section Shuffles

variable (encoding : BitVec 8)

/-- `vec_shuffle_lw128`. -/
def vecShuffleLw128 : Operation Name 128 :=
  fun regs src dst =>
    let srcCopy := regs src
    let regs :=
      forLanes 4
        (fun i regs =>
          store regs dst i (u16 srcCopy ((encoding.toNat >>> (i * 2)) % 4)))
        regs
    store regs dst 1 (qw (regs src) 1)

/-- Two words of the high half. -/
def shuffledWords (srcCopy : BitVec w) (first second : Nat) : BitVec 32 :=
  (u16 srcCopy ((encoding.toNat >>> first &&& 3) ||| 4)).setWidth 32 |||
    (u16 srcCopy ((encoding.toNat >>> second &&& 3) ||| 4)).setWidth 32 <<< 16

/-- `vec_shuffle_hw128`. -/
def vecShuffleHw128 : Operation Name 128 :=
  fun regs src dst =>
    let srcCopy := regs src
    let regs := store regs dst 0 (qw (regs src) 0)
    let regs := store regs dst 2 (shuffledWords encoding srcCopy 0 2)
    store regs dst 3 (shuffledWords encoding srcCopy 4 6)

/-- `vec_shuffle_d128`. -/
def vecShuffleD128 : Operation Name 128 :=
  fun regs src dst =>
    let srcCopy := regs src
    forLanes 4
      (fun i regs =>
        store regs dst i (u32 srcCopy ((encoding.toNat >>> (i * 2)) % 4)))
      regs

/-- `vec_shuffle_ps128`. -/
def vecShufflePs128 : Operation Name 128 :=
  fun regs src dst =>
    let source := regs src
    let target := regs dst
    let regs := store regs dst 0 (u32 target (encoding.toNat >>> 0 &&& 3))
    let regs := store regs dst 1 (u32 target (encoding.toNat >>> 2 &&& 3))
    let regs := store regs dst 2 (u32 source (encoding.toNat >>> 4 &&& 3))
    store regs dst 3 (u32 source (encoding.toNat >>> 6 &&& 3))

/-- `vec_shuffle_pd128`. -/
def vecShufflePd128 : Operation Name 128 :=
  fun regs src dst =>
    let source := regs src
    let target := regs dst
    let regs := store regs dst 0 (qw target (encoding.toNat >>> 0 &&& 1))
    store regs dst 1 (qw source (encoding.toNat >>> 1 &&& 1))

end Shuffles

def vecAddB64 : Operation Name 64 := vecOp 8 (· + ·)
def vecAddW64 : Operation Name 64 := vecOp 16 (· + ·)
def vecAddD64 : Operation Name 64 := vecOp 32 (· + ·)
def vecAddQ64 : Operation Name 64 := vecOp 64 (· + ·)

def vecSubB64 : Operation Name 64 := vecOp 8 (· - ·)
def vecSubW64 : Operation Name 64 := vecOp 16 (· - ·)
def vecSubD64 : Operation Name 64 := vecOp 32 (· - ·)
def vecSubQ64 : Operation Name 64 := vecOp 64 (· - ·)

def vecAndQ64 : Operation Name 64 := vecOp 64 (· &&& ·)
def vecOrQ64 : Operation Name 64 := vecOp 64 (· ||| ·)
def vecXorQ64 : Operation Name 64 := vecOp 64 (· ^^^ ·)

def vecCompareEqb64 : Operation Name 64 := vecOp 8 (compareLanes (· == ·))
def vecCompareEqw64 : Operation Name 64 := vecOp 16 (compareLanes (· == ·))
def vecCompareEqd64 : Operation Name 64 := vecOp 32 (compareLanes (· == ·))

def vecComparesGtb64 : Operation Name 64 :=
  vecOp 8 (compareLanes fun d s => s.slt d)
def vecComparesGtw64 : Operation Name 64 :=
  vecOp 16 (compareLanes fun d s => s.slt d)
def vecComparesGtd64 : Operation Name 64 :=
  vecOp 32 (compareLanes fun d s => s.slt d)

def vecShiftrW64 : Operation Name 64 := vecShift (· >>> ·) 16
def vecShiftrD64 : Operation Name 64 := vecShift (· >>> ·) 32
def vecShiftrQ64 : Operation Name 64 := vecShift (· >>> ·) 64

def vecShiftlW64 : Operation Name 64 := vecShift (· <<< ·) 16
def vecShiftlD64 : Operation Name 64 := vecShift (· <<< ·) 32
def vecShiftlQ64 : Operation Name 64 := vecShift (· <<< ·) 64

/-- `vec_shiftrs_w64` and `vec_shiftrs_d64`, which shift a copy. -/
def vecShiftrsCopy (size : Nat) : Operation Name 64 :=
  snapshot fun s d =>
    forLanes (64 / size)
      (fun i d => setLane d i (shiftSigned (lane size d i) (u8 s 0))) d

def vecShiftrsW64 : Operation Name 64 := vecShiftrsCopy 16
def vecShiftrsD64 : Operation Name 64 := vecShiftrsCopy 32

def vecMulu64 : Operation Name 64 := vecOp 16 mulSignedHigh
def vecMull64 : Operation Name 64 := vecOp 16 (· * ·)

/-- `vec_mulu_dq64`. -/
def vecMuluDq64 : Operation Name 64 :=
  fun regs src dst =>
    store regs dst 0
      ((u32 (regs src) 0).setWidth 64 * (u32 (regs dst) 0).setWidth 64)

/-- `vec_unpackl_dq64`. -/
def vecUnpacklDq64 : Operation Name 64 :=
  fun regs src dst => store regs dst 1 (u32 (regs src) 0)

/-- `vec_shuffle_w64`. -/
def vecShuffleW64 (encoding : BitVec 8) : Operation Name 64 :=
  snapshot fun s d =>
    forLanes 4
      (fun i d => setLane d i (u16 s ((encoding.toNat >>> (2 * i)) % 4))) d

end GuestKernel
