import GuestKernel.VecHelpers

namespace GuestKernel
open List Function

/-!
# Packed shifts

The shifts by a register of `emu/vec.c` and `emu/mmx.c`.  The count is the low
quadword of the source; the helpers keep its first byte.
-/

variable {w size n : Nat}

/-- A loop that replaces every lane replaces each lane once. -/
theorem lane_forLanes
    (f : BitVec size → BitVec size)
    (d : BitVec w)
    (inRegister : size * n ≤ w) :
    ∀ i,
      lane size (forLanes n (fun i d => setLane d i (f (lane size d i))) d) i =
        if i < n then f (lane size d i) else lane size d i := by
  induction n with
  | zero =>
    intro i
    rfl
  | succ n inductionHypothesis =>
    intro i
    have before := inductionHypothesis (by rw [Nat.mul_succ] at inRegister; omega)
    unfold forLanes at before ⊢
    rw [range_succ, foldl_append, foldl_cons, foldl_nil]
    by_cases isLast : i = n
    · subst isLast
      rw [lane_setLane_self _ _ inRegister, before, if_neg (Nat.lt_irrefl i),
        if_pos (Nat.lt_succ_self i)]
    · rw [lane_setLane_of_ne isLast, before]
      have same : i < n ↔ i < n + 1 := by omega
      simp only [same]

/-- A loop of stores works on the destination alone. -/
theorem forLanes_store
    {Name : Type}
    [DecidableEq Name]
    (f : BitVec size → BitVec size)
    (dst : Name)
    (regs : Name → BitVec w) :
    forLanes n
        (fun i regs => store regs dst i (f (lane size (regs dst) i))) regs dst =
      forLanes n (fun i d => setLane d i (f (lane size d i))) (regs dst) := by
  induction n with
  | zero => rfl
  | succ n inductionHypothesis =>
    unfold forLanes at inductionHypothesis ⊢
    rw [range_succ, foldl_append, foldl_append]
    simp only [foldl_cons, foldl_nil, store, update_self]
    rw [← inductionHypothesis]
    rfl

/-- The three shifts. -/
inductive ShiftKind where
  | right
  | left
  | signedRight
  deriving DecidableEq

namespace ShiftKind

/-- A lane shifted by a count of any size. -/
def shift (kind : ShiftKind) (value : BitVec size) (count : Nat) :
    BitVec size :=
  match kind with
  | .right => value >>> count
  | .left => value <<< count
  | .signedRight => value.sshiftRight count

/-- The bits that this shift keeps are what a shift out of the lane leaves. -/
def Clears (kind : ShiftKind) (value : BitVec size) (count : Nat) : Prop :=
  match kind with
  | .right => ∀ bit, count ≤ bit → value.getLsbD bit = false
  | .left => ∀ bit, bit + count < size → value.getLsbD bit = false
  | .signedRight =>
    ∀ bit, count ≤ bit → bit < size → value.getLsbD bit = value.msb

/-- A shift by less agrees with a shift out of the lane on no other values. -/
theorem shift_eq_iff
    {count far : Nat}
    (kind : ShiftKind)
    (value : BitVec size)
    (isFar : size ≤ far) :
    kind.shift value count = kind.shift value far ↔
      kind.Clears value count := by
  have bits (x y : BitVec size) :
      x = y ↔ ∀ bit, bit < size → x.getLsbD bit = y.getLsbD bit :=
    ⟨fun same _ _ => same ▸ rfl, BitVec.eq_of_getLsbD_eq⟩
  unfold shift Clears
  rw [bits]
  cases kind with
  | right =>
    simp only [BitVec.getLsbD_ushiftRight]
    constructor
    · intro same bit isKept
      by_cases inLane : bit < size
      · have read := same (bit - count) (by omega)
        rw [Nat.add_sub_cancel' isKept] at read
        rw [read, BitVec.getLsbD_of_ge _ _ (by omega)]
      · exact BitVec.getLsbD_of_ge _ _ (by omega)
    · intro clears bit inLane
      rw [clears _ (Nat.le_add_right ..), BitVec.getLsbD_of_ge _ _ (by omega)]
  | left =>
    simp only [BitVec.getLsbD_shiftLeft]
    constructor
    · intro same bit isKept
      have read := same (bit + count) isKept
      simpa [isKept, show bit + count < far by omega] using read
    · intro clears bit inLane
      by_cases isKept : count ≤ bit
      · simp [clears (bit - count) (by omega), show bit < far by omega]
      · simp [show bit < count by omega, show bit < far by omega]
  | signedRight =>
    have read (count bit : Nat) (inLane : bit < size) :
        (value.sshiftRight count).getLsbD bit =
          if count + bit < size then value.getLsbD (count + bit)
          else value.msb := by
      rw [BitVec.getLsbD_sshiftRight, decide_eq_false (Nat.not_le.mpr inLane)]
      rfl
    constructor
    · intro same bit isKept inLane
      have inner : bit - count < size := by omega
      have sameBit := same (bit - count) inner
      rwa [read _ _ inner, read _ _ inner, Nat.add_sub_cancel' isKept,
        if_pos inLane, if_neg (by omega)] at sameBit
    · intro clears bit inLane
      rw [read _ _ inLane, read _ _ inLane, if_neg (by omega : ¬far + bit < size)]
      split
      case isTrue isKept => exact clears _ (Nat.le_add_right ..) isKept
      case isFalse => rfl

/-- All shifts out of the lane are one. -/
theorem shift_far
    {count far : Nat}
    (kind : ShiftKind)
    (value : BitVec size)
    (isOut : size ≤ count)
    (isFar : size ≤ far) :
    kind.shift value count = kind.shift value far := by
  refine (kind.shift_eq_iff value isFar).mpr ?_
  unfold Clears
  cases kind with
  | right =>
    intro bit isKept
    exact BitVec.getLsbD_of_ge _ _ (by omega)
  | left =>
    intro bit isKept
    omega
  | signedRight =>
    intro bit isKept inLane
    omega

end ShiftKind

/-- The helpers that shift lanes by a register. -/
inductive PackedShift {Name : Type} [DecidableEq Name] :
    ShiftKind → Nat → (w : Nat) → Operation Name w → Prop
  | shiftrW128 : PackedShift .right 16 128 vecShiftrW128
  | shiftrD128 : PackedShift .right 32 128 vecShiftrD128
  | shiftrQ128 : PackedShift .right 64 128 vecShiftrQ128
  | shiftlW128 : PackedShift .left 16 128 vecShiftlW128
  | shiftlD128 : PackedShift .left 32 128 vecShiftlD128
  | shiftlQ128 : PackedShift .left 64 128 vecShiftlQ128
  | shiftrsW128 : PackedShift .signedRight 16 128 vecShiftrsW128
  | shiftrsD128 : PackedShift .signedRight 32 128 vecShiftrsD128
  | shiftrW64 : PackedShift .right 16 64 vecShiftrW64
  | shiftrD64 : PackedShift .right 32 64 vecShiftrD64
  | shiftrQ64 : PackedShift .right 64 64 vecShiftrQ64
  | shiftlW64 : PackedShift .left 16 64 vecShiftlW64
  | shiftlD64 : PackedShift .left 32 64 vecShiftlD64
  | shiftlQ64 : PackedShift .left 64 64 vecShiftlQ64
  | shiftrsW64 : PackedShift .signedRight 16 64 vecShiftrsW64
  | shiftrsD64 : PackedShift .signedRight 32 64 vecShiftrsD64

section Helpers

variable {Name : Type} [DecidableEq Name]

theorem shiftSigned_eq
    (positive : 0 < size)
    (value : BitVec size)
    (amount : BitVec 8) :
    shiftSigned value amount =
      ShiftKind.signedRight.shift value amount.toNat := by
  unfold shiftSigned ShiftKind.shift
  split
  case isFalse => rfl
  case isTrue isOut =>
    apply BitVec.eq_of_getLsbD_eq
    intro bit inLane
    rw [BitVec.getLsbD_sshiftRight]
    cases value.msb <;>
      simp [inLane, show ¬amount.toNat + bit < size by omega]

/-- `VEC_SSE_SHIFT` and `VEC_MMX_SHIFT` shift by the first byte. -/
theorem lane_vecShift
    {kind : ShiftKind}
    {op : {size : Nat} → BitVec size → Nat → BitVec size}
    {i : Nat}
    (isOp : ∀ value : BitVec size, ∀ count, op value count = kind.shift value count)
    (isLogical : kind ≠ .signedRight)
    (inRegister : size * (w / size) ≤ w)
    (regs : Name → BitVec w)
    (src dst : Name)
    (isLane : i < w / size) :
    lane size (vecShift op size regs src dst dst) i =
      kind.shift (lane size (regs dst) i) (u8 (regs src) 0).toNat := by
  unfold vecShift snapshot shiftBy
  rw [update_self]
  dsimp only
  split
  case isTrue isOut =>
    have isFar : size ≤ (u8 (regs src) 0).toNat := by omega
    have noLane : lane size (0#w) i = 0 := BitVec.extractLsb'_zero
    rw [noLane]
    cases kind with
    | right => exact (BitVec.ushiftRight_eq_zero isFar).symm
    | left => exact (BitVec.shiftLeft_eq_zero isFar).symm
    | signedRight => exact absurd rfl isLogical
  case isFalse =>
    rw [lane_forLanes (fun x => op x (u8 (regs src) 0).toNat) _ inRegister,
      if_pos isLane, isOp]

/-- The arithmetic shifts do so too. -/
theorem lane_shiftSigned
    {n i : Nat}
    (positive : 0 < size)
    (inRegister : size * n ≤ w)
    (amount : BitVec 8)
    (d : BitVec w)
    (isLane : i < n) :
    lane size
        (forLanes n
          (fun i d => setLane d i (shiftSigned (lane size d i) amount)) d) i =
      ShiftKind.signedRight.shift (lane size d i) amount.toNat := by
  rw [lane_forLanes (fun x => shiftSigned x amount) _ inRegister,
    if_pos isLane, shiftSigned_eq positive]

theorem lane_vecShiftrs
    {n i : Nat}
    (positive : 0 < size)
    (inRegister : size * n ≤ w)
    (regs : Name → BitVec w)
    (src dst : Name)
    (isLane : i < n) :
    lane size (vecShiftrs size n regs src dst dst) i =
      ShiftKind.signedRight.shift (lane size (regs dst) i)
        (u8 (regs src) 0).toNat := by
  unfold vecShiftrs
  rw [forLanes_store (fun x => shiftSigned x (u8 (regs src) 0)),
    lane_shiftSigned positive inRegister _ _ isLane]

theorem lane_vecShiftrsCopy
    {i : Nat}
    (positive : 0 < size)
    (inRegister : size * (64 / size) ≤ 64)
    (regs : Name → BitVec 64)
    (src dst : Name)
    (isLane : i < 64 / size) :
    lane size (vecShiftrsCopy size regs src dst dst) i =
      ShiftKind.signedRight.shift (lane size (regs dst) i)
        (u8 (regs src) 0).toNat := by
  unfold vecShiftrsCopy snapshot
  rw [update_self, lane_shiftSigned positive inRegister _ _ isLane]

/-- What a helper leaves in a lane, by the first byte of the source. -/
theorem PackedShift.lane_run
    {kind : ShiftKind}
    {helper : Operation Name w}
    {i : Nat}
    (isHelper : PackedShift kind size w helper)
    (regs : Name → BitVec w)
    (src dst : Name)
    (isLane : i < w / size) :
    lane size (helper regs src dst dst) i =
      kind.shift (lane size (regs dst) i) (u8 (regs src) 0).toNat := by
  cases isHelper with
  | shiftrsW128 | shiftrsD128 =>
    exact lane_vecShiftrs (by decide) (by decide) regs src dst isLane
  | shiftrsW64 | shiftrsD64 =>
    exact lane_vecShiftrsCopy (by decide) (by decide) regs src dst isLane
  | _ =>
    exact lane_vecShift (fun _ _ => rfl) (by decide) (by decide) regs src dst
      isLane

/--
A helper shifts all lanes by the count if and only if the count fits in a byte,
its first byte is a shift out of the lane as well, or no lane shows the
difference.
-/
theorem packed_shift_iff
    {kind : ShiftKind}
    {helper : Operation Name w}
    (isHelper : PackedShift kind size w helper)
    (regs : Name → BitVec w)
    (src dst : Name) :
    (∀ i, i < w / size →
      lane size (helper regs src dst dst) i =
        kind.shift (lane size (regs dst) i) (qw (regs src) 0).toNat) ↔
      (qw (regs src) 0).toNat < 256 ∨
        size ≤ (qw (regs src) 0).toNat % 256 ∨
        ∀ i, i < w / size →
          kind.Clears (lane size (regs dst) i)
            ((qw (regs src) 0).toNat % 256) := by
  have byte :
      (u8 (regs src) 0).toNat = (qw (regs src) 0).toNat % 256 := by
    simp [lane, BitVec.extractLsb'_toNat]
  have narrow : size ≤ 64 := by
    cases isHelper <;> decide
  generalize (qw (regs src) 0).toNat = count at byte ⊢
  have run (i : Nat) (isLane : i < w / size) :
      (lane size (helper regs src dst dst) i =
          kind.shift (lane size (regs dst) i) count) ↔
        kind.shift (lane size (regs dst) i) (count % 256) =
          kind.shift (lane size (regs dst) i) count := by
    rw [isHelper.lane_run regs src dst isLane, byte]
  rw [forall₂_congr run]
  by_cases fits : count < 256
  · simp [fits, Nat.mod_eq_of_lt fits]
  by_cases isOut : size ≤ count % 256
  · simp only [isOut, true_or, or_true, iff_true]
    intro i isLane
    exact kind.shift_far _ isOut (by omega)
  · simp only [fits, isOut, false_or]
    exact forall₂_congr fun i isLane => kind.shift_eq_iff _ (by omega)

end Helpers

/-- A shift of words by three. -/
theorem packed_shift_three :
    (∀ i, i < 128 / 16 →
      lane 16
          (vecShiftrW128 (fun (source : Bool) => cond source 3 80) true false
            false) i =
        ShiftKind.right.shift (lane 16 (80 : BitVec 128) i) 3) ∧
      (lane 16 (80 : BitVec 128) 0).toNat = 80 :=
  ⟨(packed_shift_iff .shiftrW128 (fun source => cond source 3 80) true
    false).mpr (.inl (by decide)), by decide⟩

/-- A shift of words by 256 leaves them as they were. -/
theorem packed_shift_wraps :
    ¬∀ i, i < 128 / 16 →
      lane 16
          (vecShiftrW128 (fun (source : Bool) => cond source 256 80) true false
            false) i =
        ShiftKind.right.shift (lane 16 (80 : BitVec 128) i) 256 := by
  intro shifts
  exact absurd (shifts 0 (by decide)) (by decide)

end GuestKernel
