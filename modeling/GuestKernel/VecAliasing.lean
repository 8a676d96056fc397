import GuestKernel.VecHelpers
import Mathlib.Algebra.GroupWithZero.Nat

namespace GuestKernel
open List Function

/-!
# One register as source and destination

Most helpers read what they need of the source before they overwrite it, and
are sequences of writes that read ahead.  The packing helpers overwrite the
low half of the destination before they read the source.
-/

variable {Name : Type} [DecidableEq Name] {w : Nat}

/-- An operation that is a sequence of writes that read ahead. -/
theorem aliasFree_of_writes
    {op : Operation Name w}
    (writes : BitVec w → BitVec w → List (RangeWrite w))
    (areWrites : op = inPlace writes)
    (readAhead :
      ∀ source target, (writes source target).Pairwise RangeWrite.Spares) :
    AliasFree op :=
  areWrites ▸ inPlace_aliasFree readAhead

/-- A shift reads its amount first. -/
theorem vecShift_aliasFree
    (op : {size : Nat} → BitVec size → Nat → BitVec size)
    (size : Nat) :
    AliasFree (vecShift op size : Operation Name w) :=
  snapshot_aliasFree _

/-- Lane by lane, each lane is read before it is written. -/
theorem vecOp_aliasFree
    (size : Nat)
    (op : BitVec size → BitVec size → BitVec size) :
    AliasFree (vecOp size op : Operation Name w) :=
  snapshot_aliasFree _

theorem vecShiftrsCopy_aliasFree
    (size : Nat) :
    AliasFree (vecShiftrsCopy size : Operation Name 64) :=
  snapshot_aliasFree _

theorem vecShuffleW64_aliasFree
    (encoding : BitVec 8) :
    AliasFree (vecShuffleW64 encoding : Operation Name 64) :=
  snapshot_aliasFree _

/-- A loop over the lanes reads each lane just before it writes it. -/
theorem laneLoop_aliasFree
    (size n : Nat)
    (f : BitVec size → BitVec size → BitVec size) :
    AliasFree (laneLoop size n f : Operation Name w) := by
  have asWrites :
      (laneLoop size n f : Operation Name w) =
        inPlace fun _ _ =>
          (List.range n).map fun i =>
            ⟨size * i, size, size * i, size,
              fun d s => f (lane size d i) s⟩ := by
    funext regs src dst
    unfold laneLoop forLanes inPlace
    rw [foldl_map]
    rfl
  rw [asWrites]
  refine inPlace_aliasFree fun _ _ => ?_
  rw [pairwise_map]
  refine pairwise_lt_range.imp ?_
  intro i j isBefore
  have isBelow : size * i + size ≤ size * j := by
    rw [← Nat.mul_succ]
    exact Nat.mul_le_mul_left _ isBefore
  exact .inl isBelow

/-- A shift in place reads the amount first, and then only what it shifts. -/
theorem vecShiftrs_aliasFree
    (size n : Nat) :
    AliasFree (vecShiftrs size n : Operation Name w) := by
  have asWrites :
      (vecShiftrs size n : Operation Name w) =
        inPlace fun source _ =>
          (List.range n).map fun i =>
            ⟨size * i, size, 0, 0,
              fun d _ => shiftSigned (lane size d i) (u8 source 0)⟩ := by
    funext regs src dst
    unfold vecShiftrs forLanes inPlace
    rw [foldl_map]
    rfl
  rw [asWrites]
  refine inPlace_aliasFree fun _ _ => ?_
  rw [pairwise_map]
  exact pairwise_lt_range.imp fun _ => .inr (Nat.zero_le _)

/-- The lanes are written from the last to the first. -/
theorem unpackLow_asWrites
    (size n : Nat) :
    (unpackLow size n : Operation Name w) =
      inPlace fun _ _ =>
        (List.range n).reverse.flatMap fun i =>
          [⟨size * (i * 2 + 1), size, size * i, size, fun _ s => s⟩,
            ⟨size * (i * 2), size, 0, 0, fun d _ => lane size d i⟩] := by
  funext regs src dst
  unfold unpackLow forLanesDown inPlace
  rw [foldl_flatMap]
  rfl

/-- The lanes are written from the first to the last. -/
theorem unpackHigh_asWrites
    (size n : Nat) :
    (unpackHigh size n : Operation Name w) =
      inPlace fun _ _ =>
        (List.range n).flatMap fun i =>
          [⟨size * (2 * i + 0), size, 0, 0, fun d _ => lane size d (i + n)⟩,
            ⟨size * (2 * i + 1), size, size * (i + n), size,
              fun _ s => s⟩] := by
  funext regs src dst
  unfold unpackHigh forLanes inPlace
  rw [foldl_flatMap]
  rfl

theorem vecUnpacklBw128_aliasFree :
    AliasFree (vecUnpacklBw128 : Operation Name 128) :=
  aliasFree_of_writes _ (unpackLow_asWrites _ _) fun _ _ => by decide

theorem vecUnpacklW128_aliasFree :
    AliasFree (vecUnpacklW128 : Operation Name 128) :=
  aliasFree_of_writes _ (unpackLow_asWrites _ _) fun _ _ => by decide

theorem vecUnpackhBw128_aliasFree :
    AliasFree (vecUnpackhBw128 : Operation Name 128) :=
  aliasFree_of_writes _ (unpackHigh_asWrites _ _) fun _ _ => by decide

theorem vecUnpackhW128_aliasFree :
    AliasFree (vecUnpackhW128 : Operation Name 128) :=
  aliasFree_of_writes _ (unpackHigh_asWrites _ _) fun _ _ => by decide

/-- A single store reads all before it writes. -/
theorem store_aliasFree
    {size : Nat}
    (i : Nat)
    (value : BitVec w → BitVec w → BitVec size) :
    AliasFree (fun regs src dst =>
      store regs dst i (value (regs src) (regs dst)) : Operation Name w) :=
  snapshot_aliasFree fun s d => setLane d i (value s d)

theorem vecUnpacklQdq128_aliasFree :
    AliasFree (vecUnpacklQdq128 : Operation Name 128) :=
  store_aliasFree 1 fun s _ => qw s 0

theorem vecUnpacklDq64_aliasFree :
    AliasFree (vecUnpacklDq64 : Operation Name 64) :=
  store_aliasFree 1 fun s _ => u32 s 0

theorem vecMuluDq64_aliasFree :
    AliasFree (vecMuluDq64 : Operation Name 64) :=
  store_aliasFree 0 fun s d =>
    (u32 s 0).setWidth 64 * (u32 d 0).setWidth 64

theorem vecUnpackhD128_aliasFree :
    AliasFree (vecUnpackhD128 : Operation Name 128) :=
  aliasFree_of_writes
    (fun _ _ =>
      [⟨0, 32, 0, 0, fun d _ => u32 d 2⟩, ⟨32, 32, 64, 32, fun _ s => s⟩,
        ⟨64, 32, 0, 0, fun d _ => u32 d 3⟩,
        ⟨96, 32, 96, 32, fun _ s => s⟩])
    rfl fun _ _ => by decide

theorem vecUnpackhDq128_aliasFree :
    AliasFree (vecUnpackhDq128 : Operation Name 128) :=
  aliasFree_of_writes
    (fun _ _ =>
      [⟨0, 64, 0, 0, fun d _ => qw d 1⟩,
        ⟨64, 64, 64, 64, fun _ s => s⟩])
    rfl fun _ _ => by decide

theorem vecUnpacklDq128_aliasFree :
    AliasFree (vecUnpacklDq128 : Operation Name 128) :=
  aliasFree_of_writes
    (fun _ _ =>
      [⟨96, 32, 32, 32, fun _ s => s⟩, ⟨64, 32, 0, 0, fun d _ => u32 d 1⟩,
        ⟨32, 32, 0, 32, fun _ s => s⟩])
    rfl fun _ _ => by decide

/-- Writes that read nothing of the source spare it. -/
theorem spares_of_unread
    {writes : List (RangeWrite w)}
    (unread : ∀ write ∈ writes, write.readLo = 0 ∧ write.readLen = 0) :
    writes.Pairwise RangeWrite.Spares := by
  rw [pairwise_iff_forall_sublist]
  intro earlier later areWrites
  obtain ⟨atZero, isEmpty⟩ :=
    unread later (areWrites.subset (mem_cons_of_mem _ (by simp)))
  refine .inr ?_
  rw [atZero, isEmpty]
  exact Nat.zero_le _

theorem vecUnpacklPs128_aliasFree :
    AliasFree (vecUnpacklPs128 : Operation Name 128) :=
  aliasFree_of_writes
    (fun source target =>
      [⟨64, 32, 0, 0, fun _ _ => u32 target 1⟩,
        ⟨32, 32, 0, 0, fun _ _ => u32 source 0⟩,
        ⟨96, 32, 0, 0, fun _ _ => u32 source 1⟩])
    rfl fun _ _ => spares_of_unread (by simp)

theorem vecSumabsW128_aliasFree :
    AliasFree (vecSumabsW128 : Operation Name 128) :=
  aliasFree_of_writes
    (fun source target =>
      let sums :=
        forLanes 8
          (fun i (sums : BitVec 32 × BitVec 32) =>
            (addDifference target source (i + 0) sums.1,
              addDifference target source (i + 8) sums.2))
          (0#32, 0#32)
      [⟨0, 32, 0, 0, fun _ _ => sums.1⟩, ⟨64, 32, 0, 0, fun _ _ => sums.2⟩,
        ⟨96, 32, 0, 0, fun _ _ => 0#32⟩,
        ⟨32, 32, 0, 0, fun _ _ => 0#32⟩])
    rfl fun _ _ => spares_of_unread (by simp)

/-- A lane of a lane is a lane of the register. -/
theorem lane_lane
    {outer inner count : Nat}
    (isSize : outer = inner * count)
    (register : BitVec w)
    {i j : Nat}
    (inLane : j < count) :
    lane inner (lane outer register i) j =
      lane inner register (i * count + j) := by
  have fits : inner * j + inner ≤ outer := by
    rw [isSize, ← Nat.mul_succ]
    exact Nat.mul_le_mul_left _ inLane
  unfold lane
  rw [extractLsb'_extractLsb' register fits, isSize, Nat.mul_add,
    Nat.mul_assoc, Nat.mul_comm count i]

theorem maddPair_eq
    (d s : BitVec w)
    (i : Nat) :
    maddPair d s i =
      (u16 d (2 * i)).signExtend 32 * (u16 (u32 s i) 0).signExtend 32 +
        (u16 d (2 * i + 1)).signExtend 32 *
          (u16 (u32 s i) 1).signExtend 32 := by
  have isSize : 32 = 16 * 2 := rfl
  have first := lane_lane isSize s (i := i) (by decide : 0 < 2)
  have second := lane_lane isSize s (i := i) (by decide : 1 < 2)
  rw [Nat.add_zero] at first
  unfold maddPair
  rw [u16, u16, u16, u16, u16, u16, first, second, Nat.mul_comm 2 i]

theorem vecMaddD128_aliasFree :
    AliasFree (vecMaddD128 : Operation Name 128) := by
  have asWrites :
      (vecMaddD128 : Operation Name 128) =
        inPlace fun _ _ =>
          (List.range 4).map fun i =>
            ⟨32 * i, 32, 32 * i, 32, fun d s =>
              (u16 d (2 * i)).signExtend 32 * (u16 s 0).signExtend 32 +
                (u16 d (2 * i + 1)).signExtend 32 *
                  (u16 s 1).signExtend 32⟩ := by
    funext regs src dst
    unfold vecMaddD128
    simp only [maddPair_eq]
    rfl
  rw [asWrites]
  exact inPlace_aliasFree fun _ _ => by decide

theorem vecMuluDq128_aliasFree :
    AliasFree (vecMuluDq128 : Operation Name 128) :=
  aliasFree_of_writes
    (fun _ _ =>
      [⟨0, 64, 0, 32, fun d s =>
          s.setWidth 64 * (u32 d 0).setWidth 64⟩,
        ⟨64, 64, 64, 32, fun d s =>
          s.setWidth 64 * (u32 d 2).setWidth 64⟩])
    rfl fun _ _ => by decide

theorem vecCvtsd2ss64_aliasFree
    (floats : HostFloats) :
    AliasFree (vecCvtsd2ss64 floats : Operation Name 128) :=
  store_aliasFree 0 fun s _ =>
    if floats.isNan64 (qw s 0) then floats.intToFloat int32Min
    else floats.doubleToFloat (qw s 0)

theorem vecCvtss2sd32_aliasFree
    (floats : HostFloats) :
    AliasFree (vecCvtss2sd32 floats : Operation Name 128) :=
  store_aliasFree 0 fun s _ =>
    if floats.isNan32 (u32 s 0) then floats.intToDouble int32Min
    else floats.floatToDouble (u32 s 0)

theorem vecCvtdq2pd64_aliasFree
    (floats : HostFloats) :
    AliasFree (vecCvtdq2pd64 floats : Operation Name 128) :=
  aliasFree_of_writes
    (fun source _ =>
      [⟨0, 64, 0, 0, fun _ _ => floats.intToDouble (u32 source 0)⟩,
        ⟨64, 64, 0, 0, fun _ _ => floats.intToDouble (u32 source 1)⟩])
    rfl fun _ _ => spares_of_unread (by simp)

theorem vecCvttpd2dq64_aliasFree
    (floats : HostFloats) :
    AliasFree (vecCvttpd2dq64 floats : Operation Name 128) :=
  aliasFree_of_writes
    (fun _ _ =>
      [⟨0, 32, 0, 64, fun _ s =>
          if floats.isNan64 s then int32Min else floats.doubleToInt s⟩,
        ⟨32, 32, 64, 64, fun _ s =>
          if floats.isNan64 s then int32Min else floats.doubleToInt s⟩,
        ⟨64, 64, 0, 0, fun _ _ => 0#64⟩])
    rfl fun _ _ => by simp [RangeWrite.Spares]

theorem vecShuffleLw128_aliasFree
    (encoding : BitVec 8) :
    AliasFree (vecShuffleLw128 encoding : Operation Name 128) := by
  have asWrites :
      (vecShuffleLw128 encoding : Operation Name 128) =
        inPlace fun source _ =>
          ((List.range 4).map fun i =>
            ⟨16 * i, 16, 0, 0, fun _ _ =>
              u16 source ((encoding.toNat >>> (i * 2)) % 4)⟩) ++
            [⟨64, 64, 64, 64, fun _ s => s⟩] := rfl
  rw [asWrites]
  exact inPlace_aliasFree fun _ _ => by
    simp [RangeWrite.Spares, range_succ]

theorem vecShuffleHw128_aliasFree
    (encoding : BitVec 8) :
    AliasFree (vecShuffleHw128 encoding : Operation Name 128) :=
  aliasFree_of_writes
    (fun source _ =>
      [⟨0, 64, 0, 0, fun _ _ => qw source 0⟩,
        ⟨64, 32, 0, 0, fun _ _ => shuffledWords encoding source 0 2⟩,
        ⟨96, 32, 0, 0, fun _ _ => shuffledWords encoding source 4 6⟩])
    rfl fun _ _ => spares_of_unread (by simp)

theorem vecShuffleD128_aliasFree
    (encoding : BitVec 8) :
    AliasFree (vecShuffleD128 encoding : Operation Name 128) :=
  aliasFree_of_writes
    (fun source _ =>
      (List.range 4).map fun i =>
        ⟨32 * i, 32, 0, 0, fun _ _ =>
          u32 source ((encoding.toNat >>> (i * 2)) % 4)⟩)
    rfl fun _ _ => spares_of_unread (by simp)

theorem vecShufflePs128_aliasFree
    (encoding : BitVec 8) :
    AliasFree (vecShufflePs128 encoding : Operation Name 128) :=
  aliasFree_of_writes
    (fun source target =>
      [⟨0, 32, 0, 0, fun _ _ => u32 target (encoding.toNat >>> 0 &&& 3)⟩,
        ⟨32, 32, 0, 0, fun _ _ => u32 target (encoding.toNat >>> 2 &&& 3)⟩,
        ⟨64, 32, 0, 0, fun _ _ => u32 source (encoding.toNat >>> 4 &&& 3)⟩,
        ⟨96, 32, 0, 0, fun _ _ =>
          u32 source (encoding.toNat >>> 6 &&& 3)⟩])
    rfl fun _ _ => spares_of_unread (by simp)

theorem vecShufflePd128_aliasFree
    (encoding : BitVec 8) :
    AliasFree (vecShufflePd128 encoding : Operation Name 128) :=
  aliasFree_of_writes
    (fun source target =>
      [⟨0, 64, 0, 0, fun _ _ => qw target (encoding.toNat >>> 0 &&& 1)⟩,
        ⟨64, 64, 0, 0, fun _ _ =>
          qw source (encoding.toNat >>> 1 &&& 1)⟩])
    rfl fun _ _ => spares_of_unread (by simp)

theorem toNat_or_shiftLeft
    {low high : BitVec 32}
    {amount : Nat}
    (lowFits : low.toNat < 2 ^ amount)
    (highFits : high.toNat * 2 ^ amount < 2 ^ 32) :
    (low ||| high <<< amount).toNat = low.toNat + high.toNat * 2 ^ amount := by
  rw [BitVec.toNat_or, BitVec.toNat_shiftLeft, Nat.shiftLeft_eq,
    Nat.mod_eq_of_lt highFits, Nat.or_comm, ← Nat.shiftLeft_eq,
    ← Nat.shiftLeft_add_eq_or_of_lt lowFits, Nat.add_comm]

/-- Four bytes in a doubleword. -/
def fourBytes (first second third fourth : BitVec 32) : BitVec 32 :=
  first <<< 0x00 ||| second <<< 0x08 ||| third <<< 0x10 ||| fourth <<< 0x18

/-- Two bytes as a word that was read. -/
def twoBytes (first second : BitVec 32) : BitVec 32 :=
  first ||| second <<< 8

section Bytes

variable {first second third fourth : BitVec 32}

section

variable
  (firstByte : first.toNat < 2 ^ 8)
  (secondByte : second.toNat < 2 ^ 8)
  (thirdByte : third.toNat < 2 ^ 8)
  (fourthByte : fourth.toNat < 2 ^ 8)
include firstByte secondByte thirdByte fourthByte

theorem toNat_fourBytes :
    (fourBytes first second third fourth).toNat =
      first.toNat + second.toNat * 2 ^ 8 + third.toNat * 2 ^ 16 +
        fourth.toNat * 2 ^ 24 := by
  have two :
      (first <<< 0x00 ||| second <<< 0x08).toNat =
        first.toNat + second.toNat * 2 ^ 8 := by
    rw [BitVec.shiftLeft_zero, toNat_or_shiftLeft firstByte (by omega)]
  have three :
      (first <<< 0x00 ||| second <<< 0x08 ||| third <<< 0x10).toNat =
        first.toNat + second.toNat * 2 ^ 8 + third.toNat * 2 ^ 16 := by
    rw [toNat_or_shiftLeft (by omega) (by omega), two]
  unfold fourBytes
  rw [toNat_or_shiftLeft (by omega) (by omega), three]

theorem u16_fourBytes :
    (u16 (fourBytes first second third fourth) 0).setWidth 32 =
        twoBytes first second ∧
      (u16 (fourBytes first second third fourth) 1).setWidth 32 =
        twoBytes third fourth := by
  have whole := toNat_fourBytes firstByte secondByte thirdByte fourthByte
  constructor
  · apply BitVec.eq_of_toNat_eq
    unfold twoBytes
    rw [BitVec.toNat_setWidth, u16, lane, BitVec.extractLsb'_toNat, whole,
      toNat_or_shiftLeft firstByte (by omega), Nat.shiftRight_eq_div_pow]
    omega
  · apply BitVec.eq_of_toNat_eq
    unfold twoBytes
    rw [BitVec.toNat_setWidth, u16, lane, BitVec.extractLsb'_toNat, whole,
      toNat_or_shiftLeft thirdByte (by omega), Nat.shiftRight_eq_div_pow]
    omega

end

variable {otherFirst otherSecond : BitVec 32}

/-- Four bytes are known from their doubleword. -/
theorem fourBytes_inj
    {otherThird otherFourth : BitVec 32}
    (areBytes :
      first.toNat < 2 ^ 8 ∧ second.toNat < 2 ^ 8 ∧
        third.toNat < 2 ^ 8 ∧ fourth.toNat < 2 ^ 8)
    (areOtherBytes :
      otherFirst.toNat < 2 ^ 8 ∧ otherSecond.toNat < 2 ^ 8 ∧
        otherThird.toNat < 2 ^ 8 ∧ otherFourth.toNat < 2 ^ 8) :
    fourBytes first second third fourth =
        fourBytes otherFirst otherSecond otherThird otherFourth ↔
      first = otherFirst ∧ second = otherSecond ∧
        third = otherThird ∧ fourth = otherFourth := by
  obtain ⟨firstByte, secondByte, thirdByte, fourthByte⟩ := areBytes
  obtain ⟨otherFirstByte, otherSecondByte, otherThirdByte, otherFourthByte⟩ :=
    areOtherBytes
  constructor
  · intro same
    have sameNumber := congrArg BitVec.toNat same
    rw [toNat_fourBytes firstByte secondByte thirdByte fourthByte,
      toNat_fourBytes otherFirstByte otherSecondByte otherThirdByte
        otherFourthByte] at sameNumber
    refine ⟨?_, ?_, ?_, ?_⟩ <;>
      · apply BitVec.eq_of_toNat_eq
        omega
  · rintro ⟨rfl, rfl, rfl, rfl⟩
    rfl

/-- Two words are known from their doubleword, and are its halves. -/
theorem words_inj
    (areWords : first.toNat < 2 ^ 16 ∧ second.toNat < 2 ^ 16)
    (areOtherWords : otherFirst.toNat < 2 ^ 16 ∧ otherSecond.toNat < 2 ^ 16) :
    first ||| second <<< 16 = otherFirst ||| otherSecond <<< 16 ↔
      first = otherFirst ∧ second = otherSecond := by
  constructor
  · intro same
    have sameNumber := congrArg BitVec.toNat same
    rw [toNat_or_shiftLeft areWords.1 (by omega),
      toNat_or_shiftLeft areOtherWords.1 (by omega)] at sameNumber
    constructor <;>
      · apply BitVec.eq_of_toNat_eq
        omega
  · rintro ⟨rfl, rfl⟩
    rfl

end Bytes

theorem slt_setWidth_iff
    {bound : BitVec 32}
    (word : BitVec 16)
    (small : bound.toNat < 2 ^ 31) :
    bound.slt (word.setWidth 32) = true ↔ bound.toNat < word.toNat := by
  have isWord : (word.setWidth 32).toNat = word.toNat := by
    rw [BitVec.toNat_setWidth]
    omega
  rw [BitVec.slt_iff_toInt_lt, BitVec.toInt_eq_toNat_of_lt (by omega),
    BitVec.toInt_eq_toNat_of_lt (by omega), Int.ofNat_lt, isWord]

/-- A saturated word fits a byte. -/
theorem satsw_isByte
    (word : BitVec 16) :
    (satsw (word.setWidth 32)).toNat < 2 ^ 8 := by
  have isWord : (word.setWidth 32).toNat = word.toNat := by
    rw [BitVec.toNat_setWidth]
    omega
  unfold satsw
  split
  · rw [BitVec.toNat_and]
    exact Nat.lt_of_le_of_lt Nat.and_le_right (by decide)
  split
  · decide
  split
  · decide
  case isFalse isSmall =>
    rw [slt_setWidth_iff word (by decide)] at isSmall
    have bound : (0x7f#32).toNat = 0x7f := rfl
    omega

theorem satub_isByte
    (word : BitVec 16) :
    (satub (word.setWidth 32)).toNat < 2 ^ 8 := by
  unfold satub
  split
  · decide
  split
  · decide
  case isFalse isSmall =>
    rw [gt_iff_lt, BitVec.lt_def] at isSmall
    have bound : (0xff#32).toNat = 0xff := rfl
    omega

/-- A saturated doubleword fits a word. -/
theorem satud_isWord
    (dw : BitVec 32) :
    (satud dw).toNat < 2 ^ 16 := by
  unfold satud
  split
  · rw [BitVec.toNat_and]
    exact Nat.lt_of_le_of_lt Nat.and_le_right (by decide)
  split
  · decide
  split
  · decide
  case isFalse isSmall =>
    rw [gt_iff_lt, BitVec.lt_def] at isSmall
    have bound : (0x7fff#32).toNat = 0x7fff := rfl
    omega

section Packing

variable {sat : BitVec 32 → BitVec 32}

/-- A word of a register, saturated. -/
def packedByte (sat : BitVec 32 → BitVec 32) (register : BitVec w) (i : Nat) :
    BitVec 32 :=
  sat ((u16 register i).setWidth 32)

/-- The word that two saturated words leave in the low half. -/
def packedPair (sat : BitVec 32 → BitVec 32) (register : BitVec w) (i : Nat) :
    BitVec 32 :=
  twoBytes (packedByte sat register (2 * i)) (packedByte sat register (2 * i + 1))

/--
What a register must hold to be packed with itself: the words that are read
back from the low half saturate to the bytes of the words before.
-/
structure PackWordsSafe
    (sat : BitVec 32 → BitVec 32)
    (register : BitVec w) : Prop where
  low : ∀ i < 4, sat (packedPair sat register i) = packedByte sat register i
  high :
    ∀ i < 2, sat (packedPair sat register i) = packedByte sat register (i + 4)

/-- The same for doublewords. -/
structure PackDwordsSafe (register : BitVec w) : Prop where
  low :
    satud (packDwords register 0) = satud (u32 register 0) ∧
      satud (packDwords register 2) = satud (u32 register 1)
  high : satud (packDwords register 0) = satud (u32 register 2)

/-- Packed words agree exactly if their bytes do. -/
theorem packWords_eq_iff
    (isByte : ∀ word : BitVec 16, (sat (word.setWidth 32)).toNat < 2 ^ 8)
    (register other : BitVec w)
    (i j : Nat) :
    packWords sat register i = packWords sat other j ↔
      packedByte sat register i = packedByte sat other j ∧
        packedByte sat register (i + 1) = packedByte sat other (j + 1) ∧
        packedByte sat register (i + 2) = packedByte sat other (j + 2) ∧
        packedByte sat register (i + 3) = packedByte sat other (j + 3) :=
  fourBytes_inj ⟨isByte _, isByte _, isByte _, isByte _⟩
    ⟨isByte _, isByte _, isByte _, isByte _⟩

variable {j i : Nat} {regs : Name → BitVec 128}

theorem u16_eq
    (register : BitVec w)
    (i : Nat)
    (inLane : j < 2) :
    u16 register (i * 2 + j) = u16 (u32 register i) j := by
  have isSize : 32 = 16 * 2 := rfl
  exact (lane_lane isSize register inLane).symm

/-- The halves of packed words are pairs of bytes. -/
theorem u16_packWords
    (isByte : ∀ word : BitVec 16, (sat (word.setWidth 32)).toNat < 2 ^ 8)
    (register : BitVec w)
    (i : Nat) :
    (u16 (packWords sat register (2 * i)) 0).setWidth 32 =
        packedPair sat register i ∧
      (u16 (packWords sat register (2 * i)) 1).setWidth 32 =
        packedPair sat register (i + 1) :=
  u16_fourBytes (isByte _) (isByte _) (isByte _) (isByte _)

/-- Registers that differ in the last two doublewords. -/
theorem setLane_high_inj
    {register : BitVec 128}
    {third fourth otherThird otherFourth : BitVec 32} :
    setLane (setLane register 2 third) 3 fourth =
        setLane (setLane register 2 otherThird) 3 otherFourth ↔
      third = otherThird ∧ fourth = otherFourth := by
  have third_eq :
      ∀ third fourth : BitVec 32,
        lane 32 (setLane (setLane register 2 third) 3 fourth) 2 = third := by
    intro third fourth
    rw [lane_setLane_of_ne (by decide), lane_setLane_self _ _ (by decide)]
  have fourth_eq :
      ∀ third fourth : BitVec 32,
        lane 32 (setLane (setLane register 2 third) 3 fourth) 3 = fourth := by
    intro third fourth
    rw [lane_setLane_self _ _ (by decide)]
  constructor
  · intro same
    have sameThird := congrArg (fun value => lane 32 value 2) same
    have sameFourth := congrArg (fun value => lane 32 value 3) same
    rw [third_eq, third_eq] at sameThird
    rw [fourth_eq, fourth_eq] at sameFourth
    exact ⟨sameThird, sameFourth⟩
  · rintro ⟨rfl, rfl⟩
    rfl

theorem u16_setLane_of_ne
    (apart : j / 2 ≠ i)
    (register : BitVec w)
    (value : BitVec 32) :
    u16 (setLane register i value) j = u16 register j := by
  have split : j = j / 2 * 2 + j % 2 := by omega
  have inLane : j % 2 < 2 := Nat.mod_lt _ (by decide)
  rw [split, u16_eq _ _ inLane, u16_eq _ _ inLane]
  unfold u32
  rw [lane_setLane_of_ne apart]

theorem u16_setLane_self
    (inLane : j < 2)
    (register : BitVec w)
    (value : BitVec 32)
    (inRegister : 32 * (i + 1) ≤ w) :
    u16 (setLane register i value) (i * 2 + j) = u16 value j := by
  rw [u16_eq _ _ inLane]
  unfold u32
  rw [lane_setLane_self _ _ inRegister]

/-- The low half after packing, with what is there in the upper half. -/
def packedLow (sat : BitVec 32 → BitVec 32) (register : BitVec 128) :
    BitVec 128 :=
  setLane (setLane register 0 (packWords sat register 0)) 1
    (packWords sat register 4)

theorem packWords_setLane_of_ne
    (apart : j / 2 ≠ i ∧ (j + 1) / 2 ≠ i ∧ (j + 2) / 2 ≠ i ∧ (j + 3) / 2 ≠ i)
    (register : BitVec w)
    (value : BitVec 32) :
    packWords sat (setLane register i value) j = packWords sat register j := by
  obtain ⟨first, second, third, fourth⟩ := apart
  unfold packWords
  rw [u16_setLane_of_ne first, u16_setLane_of_ne second,
    u16_setLane_of_ne third, u16_setLane_of_ne fourth]

section

variable (isByte : ∀ word : BitVec 16, (sat (word.setWidth 32)).toNat < 2 ^ 8)
include isByte

/-- The bytes that packing the packed half gives. -/
theorem packedByte_packedLow
    (register : BitVec 128)
    (isLow : i < 4) :
    packedByte sat (packedLow sat register) i =
      sat (packedPair sat register i) := by
  unfold packedByte packedLow
  have first := u16_packWords isByte register 0
  have second := u16_packWords isByte register 2
  rcases (by omega : i = 0 * 2 + 0 ∨ i = 0 * 2 + 1 ∨ i = 1 * 2 + 0 ∨
    i = 1 * 2 + 1) with rfl | rfl | rfl | rfl
  · rw [u16_setLane_of_ne (by decide),
      u16_setLane_self (by decide) _ _ (by decide)]
    exact congrArg sat first.1
  · rw [u16_setLane_of_ne (by decide),
      u16_setLane_self (by decide) _ _ (by decide)]
    exact congrArg sat first.2
  · rw [u16_setLane_self (by decide) _ _ (by decide)]
    exact congrArg sat second.1
  · rw [u16_setLane_self (by decide) _ _ (by decide)]
    exact congrArg sat second.2

/-- The third doubleword is right when the low half reads back right. -/
theorem packWords_low_iff
    (register : BitVec 128) :
    packWords sat (packedLow sat register) 0 = packWords sat register 0 ↔
      ∀ i < 4,
        sat (packedPair sat register i) = packedByte sat register i := by
  rw [packWords_eq_iff isByte,
    packedByte_packedLow isByte register (by decide),
    packedByte_packedLow isByte register (by decide),
    packedByte_packedLow isByte register (by decide),
    packedByte_packedLow isByte register (by decide)]
  constructor
  · rintro ⟨first, second, third, fourth⟩ i isLow
    rcases (by omega : i = 0 ∨ i = 1 ∨ i = 2 ∨ i = 3) with
      rfl | rfl | rfl | rfl
    · exact first
    · exact second
    · exact third
    · exact fourth
  · intro same
    exact ⟨same 0 (by decide), same 1 (by decide), same 2 (by decide),
      same 3 (by decide)⟩

/-- The fourth doubleword, when the third one is right. -/
theorem packWords_high_iff
    (register : BitVec 128) :
    packWords sat
        (setLane (packedLow sat register) 2 (packWords sat register 0)) 4 =
        packWords sat register 4 ↔
      ∀ i < 2,
        sat (packedPair sat register i) =
          packedByte sat register (i + 4) := by
  have pairs := u16_packWords isByte register 0
  have first :
      packedByte sat
        (setLane (packedLow sat register) 2 (packWords sat register 0)) 4 =
          sat (packedPair sat register 0) := by
    unfold packedByte
    rw [show 4 = 2 * 2 + 0 from rfl,
      u16_setLane_self (by decide) _ _ (by decide)]
    exact congrArg sat pairs.1
  have second :
      packedByte sat
        (setLane (packedLow sat register) 2 (packWords sat register 0)) 5 =
          sat (packedPair sat register 1) := by
    unfold packedByte
    rw [show 5 = 2 * 2 + 1 from rfl,
      u16_setLane_self (by decide) _ _ (by decide)]
    exact congrArg sat pairs.2
  have others :
      ∀ i, i / 2 = 3 →
        packedByte sat
          (setLane (packedLow sat register) 2 (packWords sat register 0)) i =
            packedByte sat register i := by
    intro i isLast
    unfold packedByte packedLow
    rw [u16_setLane_of_ne (by omega), u16_setLane_of_ne (by omega),
      u16_setLane_of_ne (by omega)]
  rw [packWords_eq_iff isByte, first, second, others 6 (by decide),
    others 7 (by decide)]
  constructor
  · rintro ⟨sameFirst, sameSecond, _, _⟩ i isLow
    rcases (by omega : i = 0 ∨ i = 1) with rfl | rfl
    · exact sameFirst
    · exact sameSecond
  · intro same
    exact ⟨same 0 (by decide), same 1 (by decide), rfl, rfl⟩

/-- A register packed with itself is right exactly when it reads back right. -/
theorem packFromWords_aliased_iff
    {register spare : Name}
    (elsewhere : spare ≠ register) :
    aliased (packFromWords sat) regs register =
        copied (packFromWords sat) regs register spare ↔
      PackWordsSafe sat (regs register) := by
  have secondDoubleword :
      packWords sat
          (setLane (regs register) 0 (packWords sat (regs register) 0)) 4 =
        packWords sat (regs register) 4 :=
    packWords_setLane_of_ne (by decide) _ _
  have isAliased :
      aliased (packFromWords sat) regs register =
        setLane
          (setLane (packedLow sat (regs register)) 2
            (packWords sat (packedLow sat (regs register)) 0))
          3
          (packWords sat
            (setLane (packedLow sat (regs register)) 2
              (packWords sat (packedLow sat (regs register)) 0)) 4) := by
    simp only [aliased, packFromWords, store, update_self,
      secondDoubleword, packedLow]
  have isCopied :
      copied (packFromWords sat) regs register spare =
        setLane
          (setLane (packedLow sat (regs register)) 2
            (packWords sat (regs register) 0))
          3 (packWords sat (regs register) 4) := by
    simp only [copied, packFromWords, store, update_self,
      update_of_ne elsewhere, update_of_ne elsewhere.symm,
      secondDoubleword, packedLow]
  rw [isAliased, isCopied, setLane_high_inj]
  constructor
  · rintro ⟨third, fourth⟩
    rw [third] at fourth
    exact ⟨(packWords_low_iff isByte _).mp third,
      (packWords_high_iff isByte _).mp fourth⟩
  · intro safe
    have third := (packWords_low_iff isByte _).mpr safe.low
    refine ⟨third, ?_⟩
    rw [third]
    exact (packWords_high_iff isByte _).mpr safe.high

end

/-- The same for doublewords. -/
theorem vecPackssD128_aliased_iff
    {register spare : Name}
    (elsewhere : spare ≠ register) :
    aliased vecPackssD128 regs register =
        copied vecPackssD128 regs register spare ↔
      PackDwordsSafe (regs register) := by
  have isAliased :
      aliased vecPackssD128 regs register =
        setLane
          (setLane
            (setLane
              (setLane (regs register) 0 (packDwords (regs register) 0))
              1 (packDwords (regs register) 2))
            2
            (satud (packDwords (regs register) 0) |||
              satud (packDwords (regs register) 2) <<< 16))
          3
          (satud
              (satud (packDwords (regs register) 0) |||
                satud (packDwords (regs register) 2) <<< 16) |||
            satud (u32 (regs register) 3) <<< 16) := by
    simp (disch := decide) only [aliased, vecPackssD128, store,
      update_self, packDwords, u32, lane_setLane_of_ne,
      lane_setLane_self]
  have isCopied :
      copied vecPackssD128 regs register spare =
        setLane
          (setLane
            (setLane
              (setLane (regs register) 0 (packDwords (regs register) 0))
              1 (packDwords (regs register) 2))
            2 (packDwords (regs register) 0))
          3 (packDwords (regs register) 2) := by
    simp (disch := decide) only [copied, vecPackssD128, store,
      update_self, update_of_ne elsewhere,
      update_of_ne elsewhere.symm, packDwords, u32,
      lane_setLane_of_ne]
  have words := satud_isWord
  rw [isAliased, isCopied, setLane_high_inj]
  constructor
  · rintro ⟨third, fourth⟩
    rw [third] at fourth
    exact ⟨(words_inj ⟨words _, words _⟩ ⟨words _, words _⟩).mp third,
      ((words_inj ⟨words _, words _⟩ ⟨words _, words _⟩).mp fourth).1⟩
  · intro safe
    have third :=
      (words_inj ⟨words _, words _⟩ ⟨words _, words _⟩).mpr safe.low
    refine ⟨third, ?_⟩
    rw [third]
    exact (words_inj ⟨words _, words _⟩ ⟨words _, words _⟩).mpr
      ⟨safe.high, rfl⟩

end Packing

/-- The helpers of `emu/vec.c`, without the packing ones. -/
def sseHelpers (floats : HostFloats) (immediate : BitVec 8) :
    List (Operation Name 128) :=
  [vecShiftrW128, vecShiftrD128, vecShiftrQ128,
    vecShiftlW128, vecShiftlD128, vecShiftlQ128,
    vecCompareEqb128, vecCompareEqw128, vecCompareEqd128,
    vecComparesGtb128, vecComparesGtw128, vecComparesGtd128,
    vecAddB128, vecAddW128, vecAddD128, vecAddQ128,
    vecSubB128, vecSubW128, vecSubD128, vecSubQ128,
    vecAndDq128, vecOrDq128, vecXorDq128,
    vecShiftrsW128, vecShiftrsD128,
    vecAddusB128, vecAddusW128, vecAddssB128, vecAddssW128,
    vecSubusB128, vecSubusW128, vecSubssB128, vecSubssW128,
    vecMaddD128, vecSumabsW128, vecMuluDq128, vecAndn128,
    vecMinUb128, vecMaxUb128, vecMinsW128, vecMaxsW128,
    vecAddP64 floats, vecAddP32 floats, vecSubP64 floats, vecSubP32 floats,
    vecMulP64 floats, vecMulP32 floats, vecFcmpP64 floats immediate,
    vecCvtsd2ss64 floats, vecCvtss2sd32 floats, vecCvtdq2pd64 floats,
    vecCvttpd2dq64 floats, vecCvttps2dq32 floats,
    vecUnpacklBw128, vecUnpacklW128, vecUnpacklDq128, vecUnpacklQdq128,
    vecUnpacklPs128, vecUnpacklPd128,
    vecUnpackhBw128, vecUnpackhW128, vecUnpackhD128, vecUnpackhDq128,
    vecUnpackhPs128, vecUnpackhPd128,
    vecShuffleLw128 immediate, vecShuffleHw128 immediate,
    vecShuffleD128 immediate, vecShufflePs128 immediate,
    vecShufflePd128 immediate,
    vecAvgB128, vecAvgW128, vecMull128, vecMulu128, vecMuluu128]

/-- The helpers of `emu/mmx.c`. -/
def mmxHelpers (immediate : BitVec 8) : List (Operation Name 64) :=
  [vecAddB64, vecAddW64, vecAddD64, vecAddQ64,
    vecSubB64, vecSubW64, vecSubD64, vecSubQ64,
    vecAndQ64, vecOrQ64, vecXorQ64,
    vecCompareEqb64, vecCompareEqw64, vecCompareEqd64,
    vecComparesGtb64, vecComparesGtw64, vecComparesGtd64,
    vecShiftrW64, vecShiftrD64, vecShiftrQ64,
    vecShiftlW64, vecShiftlD64, vecShiftlQ64,
    vecShiftrsW64, vecShiftrsD64,
    vecMulu64, vecMull64, vecMuluDq64, vecUnpacklDq64,
    vecShuffleW64 immediate]

/-- The packing helpers, with what they need of a register that is both. -/
def packHelpers : List (Operation Name 128 × (BitVec 128 → Prop)) :=
  [(vecPackssW128, PackWordsSafe satsw), (vecPacksuW128, PackWordsSafe satub),
    (vecPackssD128, PackDwordsSafe)]

/-- A source that is the destination need not be copied, except for packing. -/
theorem sseHelpers_aliasFree
    (floats : HostFloats)
    (immediate : BitVec 8) :
    ∀ helper ∈ (sseHelpers floats immediate : List (Operation Name 128)),
      AliasFree helper := by
  simp only [sseHelpers, forall_mem_cons]
  refine ⟨vecShift_aliasFree _ _, vecShift_aliasFree _ _,
    vecShift_aliasFree _ _, vecShift_aliasFree _ _, vecShift_aliasFree _ _,
    vecShift_aliasFree _ _, vecOp_aliasFree _ _, vecOp_aliasFree _ _,
    vecOp_aliasFree _ _, vecOp_aliasFree _ _, vecOp_aliasFree _ _,
    vecOp_aliasFree _ _, vecOp_aliasFree _ _, vecOp_aliasFree _ _,
    vecOp_aliasFree _ _, vecOp_aliasFree _ _, vecOp_aliasFree _ _,
    vecOp_aliasFree _ _, vecOp_aliasFree _ _, vecOp_aliasFree _ _,
    vecOp_aliasFree _ _, vecOp_aliasFree _ _, vecOp_aliasFree _ _,
    vecShiftrs_aliasFree _ _, vecShiftrs_aliasFree _ _,
    laneLoop_aliasFree _ _ _, laneLoop_aliasFree _ _ _,
    laneLoop_aliasFree _ _ _, laneLoop_aliasFree _ _ _,
    laneLoop_aliasFree _ _ _, laneLoop_aliasFree _ _ _,
    laneLoop_aliasFree _ _ _, laneLoop_aliasFree _ _ _, vecMaddD128_aliasFree,
    vecSumabsW128_aliasFree, vecMuluDq128_aliasFree, laneLoop_aliasFree _ _ _,
    laneLoop_aliasFree _ _ _, laneLoop_aliasFree _ _ _,
    laneLoop_aliasFree _ _ _, laneLoop_aliasFree _ _ _,
    laneLoop_aliasFree _ _ _, laneLoop_aliasFree _ _ _,
    laneLoop_aliasFree _ _ _, laneLoop_aliasFree _ _ _,
    laneLoop_aliasFree _ _ _, laneLoop_aliasFree _ _ _,
    laneLoop_aliasFree _ _ _, vecCvtsd2ss64_aliasFree _, vecCvtss2sd32_aliasFree _,
    vecCvtdq2pd64_aliasFree _, vecCvttpd2dq64_aliasFree _,
    laneLoop_aliasFree _ _ _, vecUnpacklBw128_aliasFree,
    vecUnpacklW128_aliasFree, vecUnpacklDq128_aliasFree,
    vecUnpacklQdq128_aliasFree, vecUnpacklPs128_aliasFree,
    vecUnpacklQdq128_aliasFree, vecUnpackhBw128_aliasFree,
    vecUnpackhW128_aliasFree, vecUnpackhD128_aliasFree,
    vecUnpackhDq128_aliasFree, vecUnpackhD128_aliasFree,
    vecUnpackhDq128_aliasFree, vecShuffleLw128_aliasFree _,
    vecShuffleHw128_aliasFree _, vecShuffleD128_aliasFree _,
    vecShufflePs128_aliasFree _, vecShufflePd128_aliasFree _,
    laneLoop_aliasFree _ _ _, laneLoop_aliasFree _ _ _,
    laneLoop_aliasFree _ _ _, laneLoop_aliasFree _ _ _,
    laneLoop_aliasFree _ _ _, ?_⟩
  intro helper isHelper
  cases isHelper

/-- No helper of MMX needs a copy. -/
theorem mmxHelpers_aliasFree
    (immediate : BitVec 8) :
    ∀ helper ∈ (mmxHelpers immediate : List (Operation Name 64)),
      AliasFree helper := by
  simp only [mmxHelpers, forall_mem_cons]
  refine ⟨vecOp_aliasFree _ _, vecOp_aliasFree _ _, vecOp_aliasFree _ _,
    vecOp_aliasFree _ _, vecOp_aliasFree _ _, vecOp_aliasFree _ _,
    vecOp_aliasFree _ _, vecOp_aliasFree _ _, vecOp_aliasFree _ _,
    vecOp_aliasFree _ _, vecOp_aliasFree _ _, vecOp_aliasFree _ _,
    vecOp_aliasFree _ _, vecOp_aliasFree _ _, vecOp_aliasFree _ _,
    vecOp_aliasFree _ _, vecOp_aliasFree _ _, vecShift_aliasFree _ _,
    vecShift_aliasFree _ _, vecShift_aliasFree _ _, vecShift_aliasFree _ _,
    vecShift_aliasFree _ _, vecShift_aliasFree _ _,
    vecShiftrsCopy_aliasFree _, vecShiftrsCopy_aliasFree _,
    vecOp_aliasFree _ _, vecOp_aliasFree _ _, vecMuluDq64_aliasFree,
    vecUnpacklDq64_aliasFree, vecShuffleW64_aliasFree _, ?_⟩
  intro helper isHelper
  cases isHelper

/-- What the packing helpers need of a register that is both. -/
theorem packHelpers_aliased_iff :
    ∀ pack ∈ (packHelpers : List (Operation Name 128 × (BitVec 128 → Prop))),
      ∀ regs register spare, spare ≠ register →
      (aliased pack.1 regs register = copied pack.1 regs register spare ↔
        pack.2 (regs register)) := by
  simp only [packHelpers, forall_mem_cons]
  refine ⟨?_, ?_, ?_, ?_⟩
  · intro regs register spare elsewhere
    exact packFromWords_aliased_iff satsw_isByte elsewhere
  · intro regs register spare elsewhere
    exact packFromWords_aliased_iff satub_isByte elsewhere
  · intro regs register spare elsewhere
    exact vecPackssD128_aliased_iff elsewhere
  · intro pack isPack
    cases isPack

/-- One register as source and destination, for every packed helper. -/
theorem packed_aliased_eq_copied_iff
    (floats : HostFloats)
    (immediate : BitVec 8) :
    (∀ helper ∈ (sseHelpers floats immediate : List (Operation Name 128)),
      ∀ regs register spare, spare ≠ register →
      aliased helper regs register = copied helper regs register spare) ∧
    (∀ helper ∈ (mmxHelpers immediate : List (Operation Name 64)),
      ∀ regs register spare, spare ≠ register →
      aliased helper regs register = copied helper regs register spare) ∧
    (∀ pack ∈ (packHelpers : List (Operation Name 128 × (BitVec 128 → Prop))),
      ∀ regs register spare, spare ≠ register →
      (aliased pack.1 regs register = copied pack.1 regs register spare ↔
        pack.2 (regs register))) :=
  ⟨sseHelpers_aliasFree floats immediate, mmxHelpers_aliasFree immediate,
    packHelpers_aliased_iff⟩

/-- Floating point that computes nothing. -/
def noFloats : HostFloats where
  add64 := fun a _ => a
  sub64 := fun a _ => a
  mul64 := fun a _ => a
  add32 := fun a _ => a
  sub32 := fun a _ => a
  mul32 := fun a _ => a
  eq64 := fun _ _ => false
  lt64 := fun _ _ => false
  le64 := fun _ _ => false
  isNan64 := fun _ => false
  isNan32 := fun _ => false
  doubleToInt := fun _ => 0#32
  floatToInt := fun a => a
  intToDouble := fun _ => 0#64
  intToFloat := fun a => a
  doubleToFloat := fun _ => 0#32
  floatToDouble := fun _ => 0#64

/-- A register of words that all saturate may be packed with itself. -/
theorem packed_aliased_eq_copied_of_saturated :
    aliased vecPackssW128
        (fun _ : Bool => 0x08000700060005000400030002000100#128) true =
      copied vecPackssW128
        (fun _ : Bool => 0x08000700060005000400030002000100#128) true
        false := by
  have onPacks := (packed_aliased_eq_copied_iff noFloats 0#8).2.2
    (vecPackssW128, PackWordsSafe satsw) (mem_cons_self ..)
    (fun _ : Bool => 0x08000700060005000400030002000100#128) true false
    (by decide)
  exact onPacks.mpr ⟨by decide, by decide⟩

/-- `packsswb %xmm0, %xmm0` of the words 1 and 2. -/
theorem packssw_aliased_differs :
    aliased vecPackssW128 (fun _ : Bool => 0x00020001#128) true =
        0x0000007f0000007f0000000000000201#128 ∧
      copied vecPackssW128 (fun _ : Bool => 0x00020001#128) true false =
        0x00000000000002010000000000000201#128 ∧
      aliased vecPackssW128 (fun _ : Bool => 0x00020001#128) true ≠
        copied vecPackssW128 (fun _ : Bool => 0x00020001#128) true false := by
  decide

end GuestKernel
