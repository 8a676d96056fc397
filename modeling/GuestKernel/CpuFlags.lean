import Mathlib.Data.BitVec

namespace GuestKernel

/-!
# Registers and flags

The part of `struct cpu_state` that a signal saves (`emu/cpu.h`).  The carry
and overflow flags live in bytes of their own, and four more flags may have to
be computed from the last result and operands; `collapse_flags` puts all of
them into `eflags`.
-/

/-- The general registers. -/
structure Regs where
  eax : BitVec 32
  ecx : BitVec 32
  edx : BitVec 32
  ebx : BitVec 32
  esp : BitVec 32
  ebp : BitVec 32
  esi : BitVec 32
  edi : BitVec 32
  deriving Repr, DecidableEq

/-- `struct cpu_state`; the last four say which flags are computed. -/
structure CpuState where
  regs : Regs
  eip : BitVec 32
  eflags : BitVec 32
  cf : BitVec 8
  of : BitVec 8
  res : BitVec 32
  op1 : BitVec 32
  op2 : BitVec 32
  trapno : BitVec 32
  segfaultAddr : BitVec 32
  pfRes : Bool
  zfRes : Bool
  sfRes : Bool
  afOps : Bool
  deriving Repr, DecidableEq

/-- Write one bit of `eflags`. -/
def setFlag (flags : BitVec 32) (index : Nat) (bit : Bool) : BitVec 32 :=
  if bit then
    flags ||| BitVec.twoPow 32 index
  else
    flags &&& ~~~BitVec.twoPow 32 index

theorem getLsbD_setFlag
    {index : Nat}
    (inside : index < 32)
    (flags : BitVec 32)
    (bit : Bool)
    (other : Nat) :
    (setFlag flags index bit).getLsbD other =
      if other = index then bit else flags.getLsbD other := by
  unfold setFlag
  cases bit with
  | false =>
    rw [if_neg Bool.false_ne_true, BitVec.getLsbD_and, BitVec.getLsbD_not,
      BitVec.getLsbD_twoPow]
    by_cases same : other = index
    · subst same
      simp
    · by_cases within : other < 32
      · simp [same, Ne.symm same, within]
      · simp [same, BitVec.getLsbD_of_ge flags other (by omega)]
  | true =>
    rw [if_pos rfl, BitVec.getLsbD_or, BitVec.getLsbD_twoPow]
    by_cases same : other = index
    · subst same
      simp [inside]
    · simp [same, Ne.symm same]

namespace CpuState

/-- `__builtin_parity` of a byte. -/
def parity (byte : BitVec 8) : Bool :=
  (List.range 8).foldl (fun odd index => odd ^^ byte.getLsbD index) false

/-- `ZF`. -/
def zf (cpu : CpuState) : Bool :=
  if cpu.zfRes then decide (cpu.res = 0) else cpu.eflags.getLsbD 6

/-- `SF`. -/
def sf (cpu : CpuState) : Bool :=
  if cpu.sfRes then decide (cpu.res.toInt < 0) else cpu.eflags.getLsbD 7

/-- `PF`. -/
def pf (cpu : CpuState) : Bool :=
  if cpu.pfRes then !parity (cpu.res.setWidth 8) else cpu.eflags.getLsbD 2

/-- `AF`. -/
def af (cpu : CpuState) : Bool :=
  if cpu.afOps then (cpu.op1 ^^^ cpu.op2 ^^^ cpu.res).getLsbD 4
  else cpu.eflags.getLsbD 4

/-- The flag with this index as the next instruction sees it. -/
def flag (cpu : CpuState) (index : Nat) : Bool :=
  if index = 0 then decide (cpu.cf ≠ 0)
  else if index = 2 then cpu.pf
  else if index = 4 then cpu.af
  else if index = 6 then cpu.zf
  else if index = 7 then cpu.sf
  else if index = 11 then decide (cpu.of ≠ 0)
  else cpu.eflags.getLsbD index

/-- `collapse_flags`. -/
def collapseFlags (cpu : CpuState) : CpuState :=
  let flags := setFlag cpu.eflags 6 cpu.zf
  let flags := setFlag flags 7 cpu.sf
  let flags := setFlag flags 2 cpu.pf
  let flags := setFlag flags 11 (cpu.of.getLsbD 0)
  let flags := setFlag flags 0 (cpu.cf.getLsbD 0)
  let flags := setFlag flags 4 cpu.af
  let flags := setFlag flags 1 true
  let flags := setFlag flags 3 false
  let flags := setFlag flags 5 false
  { cpu with
    eflags := setFlag flags 9 true
    zfRes := false
    sfRes := false
    pfRes := false
    afOps := false }

/-- `USE_FLAGS`: AC, RF, OF, DF, TF, SF, ZF, AF, PF and CF. -/
def useFlags : BitVec 32 :=
  0b1010000110111010101#32

theorem index_of_useFlags :
    ∀ index, useFlags.getLsbD index = true →
      index = 0 ∨ index = 11 ∨
        (index ≠ 0 ∧ index ≠ 11 ∧ index ≠ 1 ∧ index ≠ 3 ∧ index ≠ 5 ∧
          index ≠ 9) := by
  intro index isUsed
  have inside : index < 32 := BitVec.lt_of_getLsbD isUsed
  revert isUsed
  revert index
  decide

/-- `collapse_flags` writes what an instruction would see. -/
theorem getLsbD_collapseFlags
    {index : Nat}
    (cpu : CpuState)
    (isUsed : useFlags.getLsbD index = true)
    (notCarry : index ≠ 0)
    (notOverflow : index ≠ 11) :
    cpu.collapseFlags.eflags.getLsbD index = cpu.flag index := by
  obtain same | same | ⟨_, _, notOne, notThree, notFive, notNine⟩ :=
    index_of_useFlags index isUsed
  · exact (notCarry same).elim
  · exact (notOverflow same).elim
  unfold collapseFlags flag
  simp only [getLsbD_setFlag (show (9 : Nat) < 32 by decide),
    getLsbD_setFlag (show (5 : Nat) < 32 by decide),
    getLsbD_setFlag (show (3 : Nat) < 32 by decide),
    getLsbD_setFlag (show (1 : Nat) < 32 by decide),
    getLsbD_setFlag (show (4 : Nat) < 32 by decide),
    getLsbD_setFlag (show (0 : Nat) < 32 by decide),
    getLsbD_setFlag (show (11 : Nat) < 32 by decide),
    getLsbD_setFlag (show (2 : Nat) < 32 by decide),
    getLsbD_setFlag (show (7 : Nat) < 32 by decide),
    getLsbD_setFlag (show (6 : Nat) < 32 by decide),
    notCarry, notOverflow, notOne, notThree, notFive, notNine, ↓reduceIte]
  by_cases isPf : index = 2
  · subst isPf
    rfl
  by_cases isAf : index = 4
  · subst isAf
    rfl
  by_cases isZf : index = 6
  · subst isZf
    rfl
  by_cases isSf : index = 7
  · subst isSf
    rfl
  simp only [isPf, isAf, isZf, isSf, ↓reduceIte]

end CpuState

end GuestKernel
