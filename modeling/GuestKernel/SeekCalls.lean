import GuestKernel.FlockRanges
import Mathlib.Algebra.GroupWithZero.Nat
import Mathlib.Algebra.Ring.Int.Defs

namespace GuestKernel

/-!
# Seeking

`fs/generic.c`: `generic_seek`; the `lseek` of the file systems; and the two
calls of `kernel/fs.c`, which differ in the widths of the offset and of the
result.
-/

/-- `off_t_`. -/
abbrev OffT := { value : Int // IsOffT value }

namespace OffT

/-- `__builtin_add_overflow`; `none` is an overflow. -/
def add (left right : OffT) : Option OffT :=
  if fits : IsOffT (left.val + right.val) then
    some ⟨left.val + right.val, fits⟩
  else
    none

/-- The conversion of a number of 64 bits. -/
def ofInt (value : Int) : OffT :=
  ⟨value.bmod (2 ^ 64), by
    have low := @Int.le_bmod value (2 ^ 64) (by decide)
    have high := @Int.bmod_lt value (2 ^ 64) (by decide)
    have isMax := offTMax_eq
    constructor <;> omega⟩

/-- The conversion of a `dword_t`. -/
def ofDword (word : BitVec 32) : OffT :=
  ⟨word.toNat, by
    have bound := word.isLt
    have isMax := offTMax_eq
    constructor <;> omega⟩

theorem ofInt_eq (value : Int) : (ofInt value).val = value.bmod (2 ^ 64) :=
  rfl

theorem ofInt_val
    {value : Int}
    (fits : IsOffT value) :
    (ofInt value).val = value := by
  obtain ⟨low, high⟩ := fits
  have isMax := offTMax_eq
  refine Int.bmod_eq_of_le ?_ ?_ <;> omega

theorem ofInt_of_above
    {value : Int}
    (above : offTMax < value)
    (below : value < 2 ^ 64) :
    (ofInt value).val < 0 := by
  have isMax := offTMax_eq
  have wraps :
      (value - (2 ^ 64 : Nat)).bmod (2 ^ 64) = value - (2 ^ 64 : Nat) := by
    refine Int.bmod_eq_of_le ?_ ?_ <;> omega
  rw [ofInt_eq, ← Int.sub_bmod_right, wraps]
  omega

end OffT

/-- The size of a file in memory. -/
abbrev FileSize := { size : Nat // (size : Int) ≤ offTMax }

/--
The `lseek` of a descriptor and what it finds: `generic_seek` with the size of
the file, after the refresh of `fs/proc.c` if there is one; that of the host,
on a directory or another file; and the one of `fs/mem.c`, which does nothing.
-/
inductive SeekOps where
  | generic (size : Except Errno FileSize)
  | host (isDir seekable : Bool) (size : FileSize)
  | null
  deriving DecidableEq

/-- A descriptor: its operation, or null, and its position. -/
structure SeekFd where
  lseek : Option SeekOps
  offset : OffT
  deriving DecidableEq

/-- `LSEEK_SET`, `LSEEK_CUR` and `LSEEK_END`: what an offset counts from. -/
def seekBase (offset : OffT) (size : FileSize) : Nat → Option Int
  | 0 => some 0
  | 1 => some offset.val
  | 2 => some size.val
  | _ => none

/-- `generic_seek`, with the offset it leaves. -/
def genericSeek
    (offset off : OffT) (whence : Nat) (size : FileSize) :
    Except Errno OffT :=
  if whence = 0 then
    .ok off
  else if whence = 1 then
    match offset.add off with
    | none => .error .inval
    | some newOff => if newOff.val < 0 then .error .inval else .ok newOff
  else if whence = 2 then
    -- the sum is a `size_t`
    let newOff := OffT.ofInt (size.val + off.val)
    if newOff.val < 0 then .error .inval else .ok newOff
  else
    .error .inval

/-- `lseek` of the host on a file that can seek. -/
def hostLseek
    (offset off : OffT) (whence : Nat) (size : FileSize) :
    Except Errno OffT :=
  match seekBase offset size whence with
  | none => .error .inval
  | some base =>
    if base + off.val < 0 then
      .error .inval
    else if fits : IsOffT (base + off.val) then
      .ok ⟨base + off.val, fits⟩
    else
      .error .overflow

/-- `fd->ops->lseek`: the position it leaves and returns, or an error. -/
def SeekOps.seek
    (ops : SeekOps) (offset off : OffT) (whence : Nat) : Except Errno OffT :=
  match ops with
  | .generic (.error err) => .error err
  | .generic (.ok size) => genericSeek offset off whence size
  | .host isDir seekable size =>
    if isDir ∧ whence = 0 then
      -- `realfs_seekdir`
      .ok off
    else if 2 < whence then
      .error .inval
    else if seekable then
      hostLseek offset off whence size
    else
      .error .spipe
  | .null => .ok ⟨0, isOffT_zero⟩

/-- The position that a seek leaves. -/
def SeekOps.moved
    (ops : SeekOps) (offset off : OffT) (whence : Nat) : OffT :=
  match ops with
  | .null => offset
  | _ =>
    match ops.seek offset off whence with
    | .error _ => offset
    | .ok position => position

/-- An error code, or a negative position that is taken for one. -/
inductive SeekError where
  | code (err : Errno)
  | negative (position : OffT)
  deriving DecidableEq

/-- What a call returns or writes, and the descriptor after it. -/
structure SeekOutcome where
  result : Except SeekError OffT
  fd : Option SeekFd

/-- `sys__llseek`; `faults` tells whether the result cannot be written. -/
def sysLlseek
    (fd : Option SeekFd)
    (offHigh offLow : BitVec 32)
    (whence : Nat)
    (faults : Bool) : SeekOutcome :=
  match fd with
  | none => ⟨.error (.code .badf), none⟩
  | some file =>
    match file.lseek with
    | none => ⟨.error (.code .spipe), some file⟩
    | some ops =>
      let off := OffT.ofInt (offHigh.toNat * 2 ^ 32 + offLow.toNat)
      let next := { file with offset := ops.moved file.offset off whence }
      match ops.seek file.offset off whence with
      | .error err => ⟨.error (.code err), some next⟩
      | .ok res =>
        if res.val < 0 then
          ⟨.error (.negative res), some next⟩
        else if faults then
          ⟨.error (.code .fault), some next⟩
        else
          ⟨.ok res, some next⟩

/-- `sys_lseek`. -/
def sysLseek
    (fd : Option SeekFd) (off : BitVec 32) (whence : Nat) : SeekOutcome :=
  match fd with
  | none => ⟨.error (.code .badf), none⟩
  | some file =>
    match file.lseek with
    | none => ⟨.error (.code .spipe), some file⟩
    | some ops =>
      let off := OffT.ofDword off
      let next := { file with offset := ops.moved file.offset off whence }
      match ops.seek file.offset off whence with
      | .error _ =>
        -- no error code is equal to its low half
        ⟨.error (.code .overflow), some next⟩
      | .ok res =>
        if 0 ≤ res.val ∧ res.val < 2 ^ 32 then
          ⟨.ok res, some next⟩
        else
          ⟨.error (.code .overflow), some next⟩

theorem OffT.add_eq_some
    {left right sum : OffT} :
    left.add right = some sum ↔ sum.val = left.val + right.val := by
  unfold add
  constructor
  · intro isSum
    split at isSum
    · exact congrArg Subtype.val (Option.some.inj isSum).symm
    · cases isSum
  · intro same
    rw [dif_pos (same ▸ sum.property)]
    exact congrArg some (Subtype.ext same.symm)

theorem OffT.add_eq_none
    {left right : OffT} :
    left.add right = none ↔ ¬IsOffT (left.val + right.val) := by
  unfold add
  split
  · rename_i fits
    exact iff_of_false nofun (not_not.mpr fits)
  · rename_i beyond
    exact iff_of_true rfl beyond

/-- The answer of `generic_seek` for a new position that did not overflow. -/
private theorem moves_or_refuses
    {newOff : OffT}
    {target : Int}
    (same : newOff.val = target)
    (bounded : newOff.val ≤ offTMax) :
    (∀ position : OffT,
        (if newOff.val < 0 then .error .inval else .ok newOff :
            Except Errno OffT) = .ok position ↔
          0 ≤ position.val ∧ position.val = target) ∧
      (¬(0 ≤ target ∧ target ≤ offTMax) →
        (if newOff.val < 0 then .error .inval else .ok newOff :
          Except Errno OffT) = .error .inval) := by
  by_cases negative : newOff.val < 0
  · rw [if_pos negative]
    refine ⟨fun position => iff_of_false nofun ?_, fun _ => rfl⟩
    omega
  · rw [if_neg negative]
    refine ⟨fun position => ⟨fun isPosition => ?_, fun isPosition => ?_⟩,
      fun outside => ?_⟩
    · cases isPosition
      omega
    · exact congrArg Except.ok (Subtype.ext (by omega))
    · omega

/--
Apart from `LSEEK_SET`, `generic_seek` moves to the base and the offset if that
is a position, and refuses otherwise.
-/
theorem genericSeek_eq
    {offset off : OffT}
    {whence : Nat}
    {size : FileSize}
    {base : Int}
    (isBase : seekBase offset size whence = some base)
    (notSet : whence ≠ 0) :
    (∀ position : OffT,
        genericSeek offset off whence size = .ok position ↔
          0 ≤ position.val ∧ position.val = base + off.val) ∧
      (¬(0 ≤ base + off.val ∧ base + off.val ≤ offTMax) →
        genericSeek offset off whence size = .error .inval) := by
  have isMax := offTMax_eq
  obtain ⟨offLow, offHigh⟩ := off.property
  match whence, notSet with
  | 1, _ =>
    cases isBase
    show
      (∀ position : OffT,
          (match offset.add off with
            | none => Except.error Errno.inval
            | some newOff =>
              if newOff.val < 0 then .error .inval else .ok newOff) =
              .ok position ↔
            0 ≤ position.val ∧ position.val = offset.val + off.val) ∧
        (_ →
          (match offset.add off with
            | none => Except.error Errno.inval
            | some newOff =>
              if newOff.val < 0 then .error .inval else .ok newOff) =
              .error .inval)
    cases sum : offset.add off with
    | none =>
      have beyond := OffT.add_eq_none.mp sum
      refine ⟨fun position => iff_of_false nofun ?_, fun _ => rfl⟩
      rintro ⟨_, same⟩
      exact beyond (same ▸ position.property)
    | some newOff =>
      have same := OffT.add_eq_some.mp sum
      obtain ⟨newLow, newHigh⟩ := newOff.property
      exact moves_or_refuses same newHigh
  | 2, _ =>
    cases isBase
    have sizeHigh := size.property
    by_cases fits : IsOffT (size.val + off.val)
    · exact moves_or_refuses (OffT.ofInt_val fits)
        (OffT.ofInt (size.val + off.val)).property.2
    · -- a sum above the range is negative as an `off_t_`
      have above : offTMax < size.val + off.val := by
        unfold IsOffT at fits
        omega
      have negative := OffT.ofInt_of_above above (by omega)
      have refuses :
          genericSeek offset off 2 size = .error .inval :=
        if_pos negative
      rw [refuses]
      refine ⟨fun position => iff_of_false nofun ?_, fun _ => rfl⟩
      have high := position.property.2
      omega
  | whence + 3, _ =>
    cases isBase

end GuestKernel
