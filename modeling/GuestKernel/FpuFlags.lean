import GuestKernel.CpuFlags
import GuestKernel.Float80Order
import GuestKernel.FpuControl

namespace GuestKernel

/-!
# Floating point and the flags

The helpers of `emu/fpu.c` and `emu/vec.c` that use `eflags`, and those that
set the condition bits of the status word.  A flag is a stored bit, or it is
computed from the last result.  A comparison in which the assertion of `f80_add`
fails does not return.
-/

/-- The registers that the helpers use. -/
structure FloatCpu where
  flags : CpuState
  fpu : FpuState

/-- The conditions of `FCMOVcc`. -/
inductive MoveCond where
  | b | e | be | u | nb | ne | nbe | nu

/-- The types of the host's numbers. -/
inductive HostFloat where
  | float | double

namespace HostFloat

/-- The number of bits, the first of which is the sign. -/
def bits : HostFloat → Nat
  | float => 32
  | double => 64

/-- The encoding of the positive infinity. -/
def infinity : HostFloat → Nat
  | float => 0x7f800000
  | double => 0x7ff0000000000000

variable (kind : HostFloat) (x y : BitVec kind.bits)

/-- The encoding without its sign. -/
def magnitude : Nat :=
  x.toNat % 2 ^ (kind.bits - 1)

/-- `isnan`. -/
def isNan : Bool :=
  decide (kind.infinity < kind.magnitude x)

/-- The place of a number in their order; both zeros have the same. -/
def place : Int :=
  if x.msb then -kind.magnitude x else kind.magnitude x

/-- `==`. -/
def eq : Bool :=
  !kind.isNan x && !kind.isNan y && kind.place x == kind.place y

/-- `>`. -/
def gt : Bool :=
  !kind.isNan x && !kind.isNan y && decide (kind.place y < kind.place x)

end HostFloat

/-- The helpers. -/
inductive FloatHelper where
  | cmov (cond : MoveCond) (i : BitVec 3)
  | comi (i : BitVec 3)
  | ucomi (kind : HostFloat) (src dst : BitVec kind.bits)
  | clex
  | compare (x : Float80)
  | xam
  | load (f : Float80)
  | st (i : BitVec 3)

/-- A condition for some flags. -/
def MoveCond.holds (cf zf pf : Bool) : MoveCond → Bool
  | .b => cf
  | .e => zf
  | .be => cf || zf
  | .u => pf
  | .nb => !cf
  | .ne => !zf
  | .nbe => !(cf || zf)
  | .nu => !pf

/-- Assign to the bits `zf` and `pf`, which are no longer computed, and `cf`. -/
def CpuState.compared (flags : CpuState) (zf pf cf : Bool) : CpuState :=
  { flags with
    zfRes := false
    pfRes := false
    eflags := setFlag (setFlag flags.eflags 6 zf) 2 pf
    cf := if cf then 1 else 0 }

namespace FpuState

/-- Assign to one bit of the status word. -/
def setStatus (cpu : FpuState) (index : Nat) (bit : Bool) : FpuState :=
  { cpu with
    fsw :=
      if bit then cpu.fsw ||| BitVec.twoPow 16 index
      else cpu.fsw &&& ~~~BitVec.twoPow 16 index }

/-- `c0`, `c1`, `c2` and `c3`. -/
def setConditions (cpu : FpuState) (c0 c1 c2 c3 : Bool) : FpuState :=
  (((cpu.setStatus 8 c0).setStatus 9 c1).setStatus 10 c2).setStatus 14 c3

/-- `fpu_compare`. -/
def fpuCompare (mode : RoundingMode) (cpu : FpuState) (x : Float80) :
    Option FpuState :=
  let unordered := f80Uncomparable (cpu.st 0) x
  (f80Lt mode (cpu.st 0) x).map fun less =>
    cpu.setConditions (less || unordered) false unordered
      (f80Eq (cpu.st 0) x || unordered)

/-- `fpu_xam`. -/
def fpuXam (cpu : FpuState) : FpuState :=
  let f := cpu.st 0
  let outflags : BitVec 3 :=
    if !f.isSupported then 0b000
    else if f.isNan then 0b001
    else if f.isInf then 0b011
    else if f.isZero then 0b100
    else if f.exp = expDenormal then 0b110
    else 0b010
  cpu.setConditions (outflags.getLsbD 0) f.sign (outflags.getLsbD 1)
    (outflags.getLsbD 2)

/-- `fpush`. -/
def fpush (cpu : FpuState) (f : Float80) : FpuState :=
  let fsw := (cpu.fsw &&& 0xc7ff) ||| ((cpu.top - 1).setWidth 16 <<< 11)
  { cpu with fsw := fsw }.setSt 0 f

end FpuState

namespace FloatCpu

/-- `FCMOVcc`, which goes by the stored bits. -/
def fpuCmov (cpu : FloatCpu) (cond : MoveCond) (i : BitVec 3) : FloatCpu :=
  if cond.holds (decide (cpu.flags.cf ≠ 0)) (cpu.flags.eflags.getLsbD 6)
      (cpu.flags.eflags.getLsbD 2) then
    { cpu with fpu := cpu.fpu.setSt 0 (cpu.fpu.st i) }
  else
    cpu

/-- `fpu_comparei`. -/
def fpuComparei (mode : RoundingMode) (cpu : FloatCpu) (x : Float80) :
    Option FloatCpu :=
  let unordered := f80Uncomparable (cpu.fpu.st 0) x
  (f80Lt mode (cpu.fpu.st 0) x).map fun less =>
    { cpu with
      flags :=
        cpu.flags.compared (f80Eq (cpu.fpu.st 0) x || unordered) unordered
          (less || unordered) }

/-- The flags that `vec_single_ucomi32` leaves for a result. -/
def ucomiFlags (flags : CpuState) (equal greater unordered : Bool) : CpuState :=
  let flags :=
    flags.compared (equal || unordered) unordered (greater || unordered)
  { flags with
    of := 0
    eflags := setFlag (setFlag flags.eflags 7 false) 4 false
    sfRes := false }

/-- `vec_single_ucomi32` and `vec_single_ucomi64`. -/
def vecSingleUcomi
    (cpu : FloatCpu) (kind : HostFloat) (src dst : BitVec kind.bits) :
    FloatCpu :=
  { cpu with
    flags :=
      ucomiFlags cpu.flags (kind.eq src dst) (kind.gt src dst)
        (kind.isNan src || kind.isNan dst) }

/-- `fpu_clex`; its `sf` is the one of `eflags`. -/
def fpuClex (cpu : FloatCpu) : FloatCpu where
  flags := { cpu.flags with eflags := setFlag cpu.flags.eflags 7 false }
  fpu := { cpu.fpu with fsw := cpu.fpu.fsw &&& 0x7f40 }

/-- One helper, if it returns. -/
def run (mode : RoundingMode) (cpu : FloatCpu) : FloatHelper → Option FloatCpu
  | .cmov cond i => some (cpu.fpuCmov cond i)
  | .comi i => cpu.fpuComparei mode (cpu.fpu.st i)
  | .ucomi kind src dst => some (cpu.vecSingleUcomi kind src dst)
  | .clex => some cpu.fpuClex
  | .compare x =>
    (cpu.fpu.fpuCompare mode x).map fun fpu => { cpu with fpu := fpu }
  | .xam => some { cpu with fpu := cpu.fpu.fpuXam }
  | .load f => some { cpu with fpu := cpu.fpu.fpush f }
  | .st i => some { cpu with fpu := cpu.fpu.setSt i (cpu.fpu.st 0) }

/-- A comparison decides `ZF`, `PF` and `CF` and clears `OF`, `SF` and `AF`. -/
def Compares (flags : CpuState) (equal less unordered : Prop) : Prop :=
  (flags.flag 6 = true ↔ unordered ∨ equal) ∧
    (flags.flag 2 = true ↔ unordered) ∧
    (flags.flag 0 = true ↔ unordered ∨ less) ∧
    flags.flag 11 = false ∧ flags.flag 7 = false ∧ flags.flag 4 = false

/-- What a helper is to do with the flags as an instruction sees them. -/
def Does (cpu : FloatCpu) (helper : FloatHelper) (next : FloatCpu) : Prop :=
  match helper with
  | .cmov cond i =>
    next =
      if cond.holds (cpu.flags.flag 0) (cpu.flags.flag 6) (cpu.flags.flag 2) then
        { cpu with fpu := cpu.fpu.setSt 0 (cpu.fpu.st i) }
      else
        cpu
  | .comi i =>
    Compares next.flags
      ((cpu.fpu.st 0).extended = (cpu.fpu.st i).extended)
      ((cpu.fpu.st 0).extended < (cpu.fpu.st i).extended)
      (f80Uncomparable (cpu.fpu.st 0) (cpu.fpu.st i) = true)
  | .ucomi kind src dst =>
    Compares next.flags (kind.eq src dst = true) (kind.gt src dst = true)
      ((kind.isNan src || kind.isNan dst) = true)
  | _ => ∀ index, next.flags.flag index = cpu.flags.flag index

/-- A helper returns and does that. -/
def Meets (mode : RoundingMode) (cpu : FloatCpu) (helper : FloatHelper) :
    Prop :=
  ∃ next, cpu.run mode helper = some next ∧ cpu.Does helper next

/-- The stored bits that a condition reads are those of the flags. -/
def ReadsRight (flags : CpuState) : MoveCond → Prop
  | .b | .nb => True
  | .e | .ne => flags.eflags.getLsbD 6 = flags.flag 6
  | .be | .nbe => flags.cf = 0 → flags.eflags.getLsbD 6 = flags.flag 6
  | .u | .nu => flags.eflags.getLsbD 2 = flags.flag 2

/-- The states in which a helper does that. -/
def IsRight (mode : RoundingMode) (cpu : FloatCpu) : FloatHelper → Prop
  | .cmov cond i =>
    ReadsRight cpu.flags cond ∨ cpu.fpu.st i = cpu.fpu.st 0
  | .comi i =>
    ¬LtAborts mode (cpu.fpu.st 0) (cpu.fpu.st i) ∧
      cpu.flags.flag 11 = false ∧ cpu.flags.flag 7 = false ∧
      cpu.flags.flag 4 = false
  | .ucomi .. =>
    cpu.flags.afOps = true →
      (cpu.flags.op1 ^^^ cpu.flags.op2 ^^^ cpu.flags.res).getLsbD 4 = false
  | .clex => cpu.flags.sfRes = false → cpu.flags.eflags.getLsbD 7 = false
  | .compare x => ¬LtAborts mode (cpu.fpu.st 0) x
  | _ => True

end FloatCpu

theorem CpuState.flag_compared
    (flags : CpuState)
    (zf pf cf : Bool)
    (index : Nat) :
    (flags.compared zf pf cf).flag index =
      if index = 0 then cf
      else if index = 2 then pf
      else if index = 6 then zf
      else flags.flag index := by
  have carry : decide ((if cf then 1 else 0 : BitVec 8) ≠ 0) = cf := by
    cases cf <;> rfl
  unfold compared flag CpuState.zf sf CpuState.pf af
  simp only [getLsbD_setFlag (show 6 < 32 by decide),
    getLsbD_setFlag (show 2 < 32 by decide), carry]
  split_ifs <;> simp_all

/-- Unordered numbers count as less and as equal. -/
theorem compares_or_uncomparable (mode : RoundingMode) (a b : Float80) :
    (LtAborts mode a b ∧ f80Lt mode a b = none) ∨
      ¬LtAborts mode a b ∧
        ∃ less,
          f80Lt mode a b = some less ∧
            ((less || f80Uncomparable a b) = true ↔
              f80Uncomparable a b = true ∨ a.extended < b.extended) ∧
            ((f80Eq a b || f80Uncomparable a b) = true ↔
              f80Uncomparable a b = true ∨ a.extended = b.extended) := by
  cases compares : f80Uncomparable a b with
  | true =>
    refine .inr ⟨fun aborts => ?_, false, if_pos compares, ?_, ?_⟩
    · cases compares.symm.trans aborts.1
    · simp
    · simp
  | false =>
    obtain ⟨⟨aSupported, bSupported⟩, aNotNan, bNotNan⟩ :=
      f80Uncomparable_eq_false_iff.mp compares
    have isEqual := f80Eq_iff aSupported bSupported aNotNan bNotNan
    rcases f80Lt_spec mode aSupported bSupported aNotNan bNotNan with
      aborted | ⟨goesOn, less, isAnswer, isLess⟩
    · exact .inl aborted
    · exact .inr ⟨goesOn, less, isAnswer, by simpa using isLess,
        by simpa using isEqual⟩

namespace FloatCpu

/-- The stored bits decide a condition as the flags do where they are read
right. -/
theorem holds_stored_iff (flags : CpuState) (cond : MoveCond) :
    cond.holds (decide (flags.cf ≠ 0)) (flags.eflags.getLsbD 6)
        (flags.eflags.getLsbD 2) =
      cond.holds (flags.flag 0) (flags.flag 6) (flags.flag 2) ↔
        ReadsRight flags cond := by
  have carry : flags.flag 0 = decide (flags.cf ≠ 0) := rfl
  unfold MoveCond.holds ReadsRight
  rw [carry]
  by_cases noCarry : flags.cf = 0
  · cases cond <;> simp [noCarry]
  · rw [decide_eq_true noCarry]
    cases cond <;> simp [show ¬flags.cf = 0#8 from noCarry]

/-- `af` is all that may be left of the last operation. -/
theorem compares_ucomiFlags_iff
    (flags : CpuState)
    (equal greater unordered : Bool) :
    Compares (ucomiFlags flags equal greater unordered) (equal = true)
        (greater = true) (unordered = true) ↔
      (flags.afOps = true →
        (flags.op1 ^^^ flags.op2 ^^^ flags.res).getLsbD 4 = false) := by
  unfold Compares
  simp only [ucomiFlags, CpuState.compared, CpuState.flag,
    CpuState.zf, CpuState.pf, CpuState.sf, CpuState.af,
    getLsbD_setFlag (show 7 < 32 by decide),
    getLsbD_setFlag (show 6 < 32 by decide),
    getLsbD_setFlag (show 4 < 32 by decide),
    getLsbD_setFlag (show 2 < 32 by decide), Nat.reduceEqDiff,
    OfNat.ofNat_ne_zero, ↓reduceIte]
  cases flags.afOps <;> cases equal <;> cases greater <;>
    cases unordered <;> simp

/-- Every helper does right by the flags in these states and in no others. -/
theorem float_helpers_meet_iff
    (mode : RoundingMode)
    (cpu : FloatCpu)
    (helper : FloatHelper) :
    cpu.Meets mode helper ↔ cpu.IsRight mode helper := by
  have ofReturn :
      ∀ {next : FloatCpu} {goal : Prop},
        cpu.run mode helper = some next →
        (cpu.Does helper next ↔ goal) →
        (cpu.Meets mode helper ↔ goal) := by
    intro next goal returns does
    refine Iff.trans ⟨?_, fun done => ⟨next, returns, done⟩⟩ does
    rintro ⟨other, isOther, done⟩
    cases returns.symm.trans isOther
    exact done
  cases helper with
  | cmov cond i =>
    refine ofReturn rfl ?_
    have copies :
        ({ cpu with fpu := cpu.fpu.setSt 0 (cpu.fpu.st i) } : FloatCpu) = cpu ↔
          cpu.fpu.st i = cpu.fpu.st 0 := by
      obtain ⟨flags, fp, fsw, fcw⟩ := cpu
      simp [FpuState.setSt, FpuState.st, FpuState.top]
    change _ = _ ↔ ReadsRight cpu.flags cond ∨ _
    rw [← holds_stored_iff, ← copies]
    dsimp only [fpuCmov]
    generalize cond.holds _ _ _ = stored
    generalize cond.holds _ _ _ = seen
    cases stored <;> cases seen <;> simp [eq_comm]
  | comi i =>
    rcases compares_or_uncomparable mode (cpu.fpu.st 0) (cpu.fpu.st i) with
      ⟨aborts, noAnswer⟩ | ⟨goesOn, less, isAnswer, isLess, isEqual⟩
    · refine iff_of_false ?_ fun right => right.1 aborts
      rintro ⟨next, returns, _⟩
      rw [run, fpuComparei, noAnswer] at returns
      cases returns
    · refine ofReturn (Option.map_eq_some_iff.mpr ⟨less, isAnswer, rfl⟩)
        (Iff.trans ?_ (and_iff_right goesOn).symm)
      unfold Does Compares
      simp only [CpuState.flag_compared, Nat.reduceEqDiff,
        OfNat.ofNat_ne_zero, ↓reduceIte]
      exact ⟨fun meets => meets.2.2.2,
        fun clear => ⟨isEqual, trivial, isLess, clear⟩⟩
  | ucomi kind src dst =>
    exact ofReturn rfl (compares_ucomiFlags_iff ..)
  | clex =>
    refine ofReturn rfl ?_
    unfold Does IsRight
    simp only [fpuClex, CpuState.flag, CpuState.zf, CpuState.pf,
      CpuState.sf, CpuState.af, getLsbD_setFlag (show 7 < 32 by decide)]
    constructor
    · intro same notComputed
      simpa [notComputed] using (same 7).symm
    · intro clear index
      by_cases isSign : index = 7
      · subst isSign
        cases computed : cpu.flags.sfRes with
        | true => rfl
        | false => exact (clear computed).symm
      · simp only [isSign, Nat.reduceEqDiff, ↓reduceIte]
        rfl
  | compare x =>
    rcases compares_or_uncomparable mode (cpu.fpu.st 0) x with
      ⟨aborts, noAnswer⟩ | ⟨goesOn, less, isAnswer, _⟩
    · refine iff_of_false ?_ fun right => right aborts
      rintro ⟨next, returns, _⟩
      rw [run, FpuState.fpuCompare, noAnswer] at returns
      cases returns
    · have returns :
          cpu.run mode (.compare x) =
            some
              { cpu with
                fpu :=
                  cpu.fpu.setConditions
                    (less || f80Uncomparable (cpu.fpu.st 0) x) false
                    (f80Uncomparable (cpu.fpu.st 0) x)
                    (f80Eq (cpu.fpu.st 0) x ||
                      f80Uncomparable (cpu.fpu.st 0) x) } := by
        rw [run, FpuState.fpuCompare, isAnswer]
        rfl
      exact ofReturn returns (iff_of_true (fun _ => rfl) goesOn)
  | xam | load f | st i =>
    exact ofReturn rfl (iff_of_true (fun _ => rfl) trivial)

/-- A state after an instruction that set `SF` in `eflags`. -/
def signed : FloatCpu where
  flags := ⟨⟨0, 0, 0, 0, 0, 0, 0, 0⟩, 0, 0x80, 0, 0, 0, 0, 0, 0, 0, false, false,
    false, false⟩
  fpu := ⟨fun _ => .zero, 0, 0⟩

/-- `fpu_clex` clears it. -/
theorem signed_clex :
    ¬signed.Meets .toNearest .clex ∧
      signed.flags.flag 7 = true ∧
      (signed.run .toNearest .clex).map (fun next => next.flags.flag 7) =
        some false := by
  refine ⟨?_, by decide, rfl⟩
  rintro ⟨next, returns, same⟩
  cases returns
  exact absurd (same 7) (by decide)

end FloatCpu

end GuestKernel
