import GuestKernel.CpuFlags
import GuestKernel.Errno
import Mathlib.Data.List.Nodup

namespace GuestKernel

/-!
# The registers of a stopped child

`PTRACE_GETREGS` and `PTRACE_PEEKUSER` copy `eflags` as it is stored, and
`PTRACE_SETREGS` stores it, while the flags that count are in bytes of their own
or still to be computed from the last result.
-/

/-- The child's `struct cpu_state`, with the one segment register it has. -/
structure TracedCpu extends CpuState where
  gs : BitVec 16
  deriving Repr, DecidableEq

/-- `struct user_regs_struct_`. -/
structure UserRegs where
  ebx : BitVec 32
  ecx : BitVec 32
  edx : BitVec 32
  esi : BitVec 32
  edi : BitVec 32
  ebp : BitVec 32
  eax : BitVec 32
  xds : BitVec 32
  xes : BitVec 32
  xfs : BitVec 32
  xgs : BitVec 32
  origEax : BitVec 32
  eip : BitVec 32
  xcs : BitVec 32
  eflags : BitVec 32
  esp : BitVec 32
  xss : BitVec 32
  deriving Repr, DecidableEq

/-- `{}`. -/
def UserRegs.zero : UserRegs :=
  ⟨0, 0, 0, 0, 0, 0, 0, 0, 0, 0, 0, 0, 0, 0, 0, 0, 0⟩

/-- The words of the structure. -/
def UserRegs.words (userRegs : UserRegs) : List (BitVec 32) :=
  [userRegs.ebx, userRegs.ecx, userRegs.edx, userRegs.esi, userRegs.edi,
    userRegs.ebp, userRegs.eax, userRegs.xds, userRegs.xes, userRegs.xfs,
    userRegs.xgs, userRegs.origEax, userRegs.eip, userRegs.xcs,
    userRegs.eflags, userRegs.esp, userRegs.xss]

/-- A word of `struct user_`, whose padding is zero. -/
def UserRegs.word (userRegs : UserRegs) (index : Nat) : BitVec 32 :=
  userRegs.words.getD index 0

/-- `get_user_regs`. -/
def getUserRegs (cpu : TracedCpu) (userRegs : UserRegs) : UserRegs :=
  { userRegs with
    ebx := cpu.regs.ebx
    ecx := cpu.regs.ecx
    edx := cpu.regs.edx
    esi := cpu.regs.esi
    edi := cpu.regs.edi
    ebp := cpu.regs.ebp
    eax := cpu.regs.eax
    origEax := cpu.regs.eax
    eip := cpu.eip
    eflags := cpu.eflags
    esp := cpu.regs.esp }

/-- `set_user_regs`. -/
def setUserRegs (cpu : TracedCpu) (userRegs : UserRegs) : TracedCpu :=
  { cpu with
    regs :=
      { ebx := userRegs.ebx
        ecx := userRegs.ecx
        edx := userRegs.edx
        esi := userRegs.esi
        edi := userRegs.edi
        ebp := userRegs.ebp
        eax := userRegs.eax
        esp := userRegs.esp }
    eip := userRegs.eip
    eflags := userRegs.eflags }

/-- A child of the tracer. -/
structure Traced where
  pid : BitVec 32
  stopped : Bool
  cpu : TracedCpu
  deriving Repr, DecidableEq

/-- `current->children`, each with a pid of its own. -/
structure TraceWorld where
  children : List Traced
  distinct : (children.map Traced.pid).Nodup

/-- What the tracer's memory answers to `user_put` and `user_get`. -/
structure TracerMemory where
  writable : BitVec 32 → Nat → Bool
  userRegs : BitVec 32 → Option UserRegs

/-- The requests that are about registers. -/
inductive PtraceRequest where
  | peekuser
  | getregs
  | setregs
  deriving Repr, DecidableEq

/-- What a call stores at `data`. -/
inductive PtraceStored where
  | nothing
  | word (peek : BitVec 32)
  | regs (userRegs : UserRegs)
  deriving Repr, DecidableEq

namespace TraceWorld

/-- `find_child`. -/
def findChild (world : TraceWorld) (pid : BitVec 32) : Option Traced :=
  world.children.find? fun child => child.pid == pid && child.stopped

/-- `child->cpu` of the child with this pid. -/
def setCpu
    (world : TraceWorld) (pid : BitVec 32) (cpu : TracedCpu) :
    TraceWorld where
  children :=
    world.children.map fun child =>
      if child.pid = pid then { child with cpu := cpu } else child
  distinct := by
    have samePid :
        (Traced.pid ∘ fun child : Traced =>
            if child.pid = pid then { child with cpu := cpu } else child) =
          Traced.pid := by
      funext child
      rw [Function.comp_apply]
      split <;> rfl
    rw [List.map_map, samePid]
    exact world.distinct

/-- `sys_ptrace`, for these requests. -/
def sysPtrace
    (world : TraceWorld) (memory : TracerMemory)
    (request : PtraceRequest) (pid addr data : BitVec 32) :
    Except Errno PtraceStored × TraceWorld :=
  match world.findChild pid with
  | none => (.error .perm, world)
  | some child =>
    match request with
    | .peekuser =>
      let userRegs := getUserRegs child.cpu .zero
      if addr &&& 3 ≠ 0 ∨ 288#32 ≤ addr then
        (.error .io, world)
      else if memory.writable data 4 then
        (.ok (.word (userRegs.word (addr.toNat / 4))), world)
      else
        (.error .fault, world)
    | .getregs =>
      if memory.writable data 68 then
        (.ok (.regs (getUserRegs child.cpu .zero)), world)
      else
        (.error .fault, world)
    | .setregs =>
      match memory.userRegs data with
      | none => (.error .fault, world)
      | some userRegs =>
        (.ok .nothing,
          world.setCpu pid (setUserRegs child.cpu userRegs))

end TraceWorld

/-- A word of `struct user_` is what the CPU has for it. -/
def TracedCpu.HasWord
    (cpu : TracedCpu) (index : Nat) (word : BitVec 32) : Prop :=
  match index with
  | 0 => word = cpu.regs.ebx
  | 1 => word = cpu.regs.ecx
  | 2 => word = cpu.regs.edx
  | 3 => word = cpu.regs.esi
  | 4 => word = cpu.regs.edi
  | 5 => word = cpu.regs.ebp
  | 6 => word = cpu.regs.eax
  | 10 => word = cpu.gs.setWidth 32
  | 12 => word = cpu.eip
  | 14 =>
    ∀ index,
      CpuState.useFlags.getLsbD index = true →
      word.getLsbD index = cpu.flag index
  | 15 => word = cpu.regs.esp
  | _ => True

/-- The registers and flags are those that the next instruction sees. -/
def TracedCpu.Has (cpu : TracedCpu) (userRegs : UserRegs) : Prop :=
  ∀ index, cpu.HasWord index (userRegs.word index)

/-- `PTRACE_GETREGS` stores nothing but what the CPU has. -/
def TraceWorld.GetsRegs
    (world : TraceWorld) (pid : BitVec 32) (cpu : TracedCpu) : Prop :=
  ∀ memory addr data userRegs next,
    world.sysPtrace memory .getregs pid addr data =
        (.ok (.regs userRegs), next) →
      cpu.Has userRegs

/-- `PTRACE_PEEKUSER` stores nothing but what the CPU has. -/
def TraceWorld.PeeksUser
    (world : TraceWorld) (pid : BitVec 32) (cpu : TracedCpu) : Prop :=
  ∀ memory addr data peek next,
    world.sysPtrace memory .peekuser pid addr data =
        (.ok (.word peek), next) →
      cpu.HasWord (addr.toNat / 4) peek

/--
After `PTRACE_SETREGS` the child has these registers and flags, and
`PTRACE_GETREGS` stores them.
-/
def TraceWorld.SetsRegs
    (world : TraceWorld) (pid : BitVec 32) (userRegs : UserRegs) : Prop :=
  ∀ memory addr data,
    memory.userRegs data = some userRegs →
    ∃ next after,
      world.sysPtrace memory .setregs pid addr data =
          (.ok .nothing, next) ∧
        next.findChild pid = some after ∧
          after.cpu.Has userRegs ∧
          ∀ memory addr data stored last,
            next.sysPtrace memory .getregs pid addr data =
                (.ok (.regs stored), last) →
              stored = userRegs

/-- Writing back what was read changes nothing. -/
def TraceWorld.RestoresRegs (world : TraceWorld) (pid : BitVec 32) : Prop :=
  ∀ memory addr data userRegs next later other place,
    world.sysPtrace memory .getregs pid addr data =
        (.ok (.regs userRegs), next) →
      later.userRegs place = some userRegs →
        next.sysPtrace later .setregs pid other place = (.ok .nothing, world)

/--
Flags that are stored in a word of `eflags` as they count: the bytes of carry
and overflow, and every flag that is still to be computed, agree with it.
-/
structure CpuState.StoresFlags
    (cpu : CpuState) (eflags : BitVec 32) : Prop where
  carry : eflags.getLsbD 0 = decide (cpu.cf ≠ 0)
  overflow : eflags.getLsbD 11 = decide (cpu.of ≠ 0)
  parity :
    cpu.pfRes = true →
      eflags.getLsbD 2 = !CpuState.parity (cpu.res.setWidth 8)
  auxiliary :
    cpu.afOps = true →
      eflags.getLsbD 4 = (cpu.op1 ^^^ cpu.op2 ^^^ cpu.res).getLsbD 4
  zero : cpu.zfRes = true → eflags.getLsbD 6 = decide (cpu.res = 0)
  sign : cpu.sfRes = true → eflags.getLsbD 7 = decide (cpu.res.toInt < 0)

/-- The fields that `set_user_regs` leaves out have no value of their own. -/
structure UserRegs.Plain (userRegs : UserRegs) : Prop where
  xds : userRegs.xds = 0
  xes : userRegs.xes = 0
  xfs : userRegs.xfs = 0
  xgs : userRegs.xgs = 0
  origEax : userRegs.origEax = userRegs.eax
  xcs : userRegs.xcs = 0
  xss : userRegs.xss = 0

variable
  {world : TraceWorld}
  {pid : BitVec 32}
  {child : Traced}
  {cpu : TracedCpu}
  {userRegs : UserRegs}

/-- A word of `eflags` that is stored is seen as it counts. -/
theorem CpuState.flag_eq_iff_storesFlags (cpu : CpuState) :
    (∀ index,
        CpuState.useFlags.getLsbD index = true →
        cpu.eflags.getLsbD index = cpu.flag index) ↔
      cpu.StoresFlags cpu.eflags := by
  constructor
  · intro same
    refine ⟨same 0 (by decide), same 11 (by decide), ?_, ?_, ?_, ?_⟩
    · intro pending
      exact (same 2 (by decide)).trans (if_pos pending)
    · intro pending
      exact (same 4 (by decide)).trans (if_pos pending)
    · intro pending
      exact (same 6 (by decide)).trans (if_pos pending)
    · intro pending
      exact (same 7 (by decide)).trans (if_pos pending)
  · intro stores index _
    unfold CpuState.flag
    split
    · rename_i isCarry
      exact isCarry ▸ stores.carry
    split
    · rename_i isParity
      subst isParity
      unfold CpuState.pf
      split
      · exact stores.parity ‹_›
      · rfl
    split
    · rename_i isAuxiliary
      subst isAuxiliary
      unfold CpuState.af
      split
      · exact stores.auxiliary ‹_›
      · rfl
    split
    · rename_i isZero
      subst isZero
      unfold CpuState.zf
      split
      · exact stores.zero ‹_›
      · rfl
    split
    · rename_i isSign
      subst isSign
      unfold CpuState.sf
      split
      · exact stores.sign ‹_›
      · rfl
    split
    · rename_i isOverflow
      exact isOverflow ▸ stores.overflow
    · rfl

theorem zero_eq_setWidth_iff (gs : BitVec 16) :
    0#32 = gs.setWidth 32 ↔ gs = 0 := by
  constructor
  · intro isZero
    have same := congrArg BitVec.toNat isZero
    rw [BitVec.toNat_setWidth] at same
    have small := gs.isLt
    have isNothing : gs.toNat = 0 := by
      simp only [BitVec.toNat_ofNat] at same
      omega
    exact BitVec.eq_of_toNat_eq isNothing
  · rintro rfl
    rfl

/-- The words that mean something, one by one. -/
theorem TracedCpu.has_iff :
    cpu.Has userRegs ↔
      (userRegs.ebx = cpu.regs.ebx ∧ userRegs.ecx = cpu.regs.ecx ∧
          userRegs.edx = cpu.regs.edx ∧ userRegs.esi = cpu.regs.esi ∧
          userRegs.edi = cpu.regs.edi ∧ userRegs.ebp = cpu.regs.ebp ∧
          userRegs.eax = cpu.regs.eax ∧ userRegs.eip = cpu.eip ∧
          userRegs.esp = cpu.regs.esp) ∧
        userRegs.xgs = cpu.gs.setWidth 32 ∧
          ∀ index,
            CpuState.useFlags.getLsbD index = true →
            userRegs.eflags.getLsbD index = cpu.flag index := by
  constructor
  · intro has
    exact ⟨⟨has 0, has 1, has 2, has 3, has 4, has 5, has 6, has 12, has 15⟩,
      has 10, has 14⟩
  · rintro ⟨⟨ebx, ecx, edx, esi, edi, ebp, eax, eip, esp⟩, gs, flags⟩ index
    unfold TracedCpu.HasWord
    split
    · exact ebx
    · exact ecx
    · exact edx
    · exact esi
    · exact edi
    · exact ebp
    · exact eax
    · exact gs
    · exact eip
    · exact flags
    · exact esp
    · trivial

theorem TracedCpu.has_getUserRegs_iff :
    cpu.Has (getUserRegs cpu .zero) ↔
      cpu.gs = 0 ∧ cpu.StoresFlags cpu.eflags := by
  rw [TracedCpu.has_iff, ← zero_eq_setWidth_iff,
    ← CpuState.flag_eq_iff_storesFlags]
  exact and_iff_right ⟨rfl, rfl, rfl, rfl, rfl, rfl, rfl, rfl, rfl⟩

theorem TracedCpu.has_setUserRegs_iff :
    (setUserRegs cpu userRegs).Has userRegs ↔
      userRegs.xgs = cpu.gs.setWidth 32 ∧
        cpu.StoresFlags userRegs.eflags := by
  have stores :
      (setUserRegs cpu userRegs).StoresFlags userRegs.eflags ↔
        cpu.StoresFlags userRegs.eflags :=
    ⟨fun ⟨carry, overflow, parity, auxiliary, zero, sign⟩ =>
      ⟨carry, overflow, parity, auxiliary, zero, sign⟩,
      fun ⟨carry, overflow, parity, auxiliary, zero, sign⟩ =>
        ⟨carry, overflow, parity, auxiliary, zero, sign⟩⟩
  rw [TracedCpu.has_iff, ← stores]
  have flags :=
    CpuState.flag_eq_iff_storesFlags
      (setUserRegs cpu userRegs).toCpuState
  exact (and_iff_right ⟨rfl, rfl, rfl, rfl, rfl, rfl, rfl, rfl, rfl⟩).trans
    (and_congr_right fun _ => flags)

/-- Getting what was set gives it back. -/
theorem getUserRegs_setUserRegs_iff :
    getUserRegs (setUserRegs cpu userRegs) .zero = userRegs ↔
      userRegs.Plain := by
  constructor
  · intro same
    have field {β : Type} (part : UserRegs → β) :=
      congrArg part same
    exact ⟨(field UserRegs.xds).symm, (field UserRegs.xes).symm,
      (field UserRegs.xfs).symm, (field UserRegs.xgs).symm,
      (field UserRegs.origEax).symm, (field UserRegs.xcs).symm,
      (field UserRegs.xss).symm⟩
  · rintro ⟨xds, xes, xfs, xgs, origEax, xcs, xss⟩
    cases userRegs
    cases xds
    cases xes
    cases xfs
    cases xgs
    cases origEax
    cases xcs
    cases xss
    rfl

theorem setUserRegs_getUserRegs (cpu : TracedCpu) :
    setUserRegs cpu (getUserRegs cpu .zero) = cpu :=
  rfl

section

variable (found : world.findChild pid = some child)
include found

theorem TraceWorld.findChild_spec :
    child ∈ world.children ∧ child.pid = pid ∧ child.stopped = true := by
  have matching := List.find?_some found
  rw [Bool.and_eq_true, beq_iff_eq] at matching
  exact ⟨List.mem_of_find?_eq_some found, matching⟩

/-- It is found again with the registers it was given. -/
theorem TraceWorld.findChild_setCpu
    (cpu : TracedCpu) :
    (world.setCpu pid cpu).findChild pid =
      some { child with cpu := cpu } := by
  obtain ⟨_, isPid, _⟩ := world.findChild_spec found
  unfold TraceWorld.findChild TraceWorld.setCpu at *
  rw [List.find?_map]
  have sameTest :
      ((fun child : Traced => child.pid == pid && child.stopped) ∘
          fun child : Traced =>
            if child.pid = pid then { child with cpu := cpu } else child) =
        fun child => child.pid == pid && child.stopped := by
    funext child
    rw [Function.comp_apply]
    split <;> rfl
  rw [sameTest, found, Option.map_some, if_pos isPid]

/-- A child that is given the registers it has stays as it is. -/
theorem TraceWorld.setCpu_self :
    world.setCpu pid child.cpu = world := by
  obtain ⟨member, isPid, _⟩ := world.findChild_spec found
  obtain ⟨children, distinct⟩ := world
  unfold TraceWorld.setCpu
  congr 1
  refine (List.map_congr_left fun other isChild => ?_).trans
    (List.map_id children)
  split
  · rename_i isOther
    have same : other = child :=
      List.inj_on_of_nodup_map distinct isChild member
        (isOther.trans isPid.symm)
    rw [same]
    rfl
  · rfl

/-- A tracer that can read and write everything. -/
def openMemory (userRegs : UserRegs) : TracerMemory where
  writable _ _ := true
  userRegs _ := some userRegs

/-- `PTRACE_GETREGS` tells the truth exactly if nothing is pending. -/
theorem TraceWorld.getsRegs_iff :
    world.GetsRegs pid child.cpu ↔
      child.cpu.gs = 0 ∧ child.cpu.StoresFlags child.cpu.eflags := by
  rw [← TracedCpu.has_getUserRegs_iff]
  constructor
  · intro gets
    refine gets (openMemory .zero) 0 0 _ world ?_
    simp only [TraceWorld.sysPtrace, found, openMemory, if_true]
  · intro has memory addr data userRegs next call
    simp only [TraceWorld.sysPtrace, found] at call
    split at call
    · cases call
      exact has
    · cases call

end

private theorem word_address
    {index : Nat}
    (inside : index < 17) :
    ¬(BitVec.ofNat 32 (4 * index) &&& 3 ≠ 0 ∨
        288#32 ≤ BitVec.ofNat 32 (4 * index)) ∧
      (BitVec.ofNat 32 (4 * index)).toNat / 4 = index := by
  revert index
  decide

/-- `PTRACE_PEEKUSER` does so in the same states. -/
theorem TraceWorld.peeksUser_iff
    (found : world.findChild pid = some child) :
    world.PeeksUser pid child.cpu ↔
      child.cpu.gs = 0 ∧ child.cpu.StoresFlags child.cpu.eflags := by
  rw [← TracedCpu.has_getUserRegs_iff]
  constructor
  · intro peeks index
    by_cases inside : index < 17
    · obtain ⟨isAligned, isIndex⟩ := word_address inside
      have word :=
        peeks (openMemory .zero) (BitVec.ofNat 32 (4 * index)) 0
          ((getUserRegs child.cpu .zero).word index) world (by
            simp only [TraceWorld.sysPtrace, found, openMemory, if_true,
              if_neg isAligned, isIndex])
      rwa [isIndex] at word
    · unfold TracedCpu.HasWord
      split <;> first
        | omega
        | trivial
  · intro has memory addr data peek next call
    simp only [TraceWorld.sysPtrace, found] at call
    split at call
    · cases call
    split at call
    · cases call
      exact has _
    · cases call

/-- When `PTRACE_SETREGS` gives the child what it is asked to. -/
theorem TraceWorld.setsRegs_iff
    (found : world.findChild pid = some child) :
    world.SetsRegs pid userRegs ↔
      child.cpu.gs = 0 ∧ userRegs.Plain ∧
        child.cpu.StoresFlags userRegs.eflags := by
  have isSet :
      ∀ (memory : TracerMemory) addr data,
        memory.userRegs data = some userRegs →
        world.sysPtrace memory .setregs pid addr data =
          (.ok .nothing,
            world.setCpu pid (setUserRegs child.cpu userRegs)) := by
    intro memory addr data read
    simp only [TraceWorld.sysPtrace, found, read]
  have again :=
    world.findChild_setCpu found (setUserRegs child.cpu userRegs)
  constructor
  · intro sets
    obtain ⟨next, after, call, isAfter, has, gets⟩ :=
      sets (openMemory userRegs) 0 0 rfl
    cases (isSet (openMemory userRegs) 0 0 rfl).symm.trans call
    cases again.symm.trans isAfter
    have plain : userRegs.Plain := by
      refine (@getUserRegs_setUserRegs_iff child.cpu userRegs).mp ?_
      refine gets (openMemory userRegs) 0 0 _
        (world.setCpu pid (setUserRegs child.cpu userRegs)) ?_
      simp only [TraceWorld.sysPtrace, again, openMemory, if_true]
    obtain ⟨isGs, stores⟩ := TracedCpu.has_setUserRegs_iff.mp has
    rw [plain.xgs] at isGs
    exact ⟨(zero_eq_setWidth_iff _).mp isGs, plain, stores⟩
  · rintro ⟨noGs, plain, stores⟩ memory addr data read
    refine ⟨_, _, isSet memory addr data read, again, ?_, ?_⟩
    · refine TracedCpu.has_setUserRegs_iff.mpr ⟨?_, stores⟩
      rw [plain.xgs, noGs]
      rfl
    · intro memory addr data stored last call
      simp only [TraceWorld.sysPtrace, again] at call
      split at call
      · cases call
        exact getUserRegs_setUserRegs_iff.mpr plain
      · cases call

theorem TraceWorld.restoresRegs
    (found : world.findChild pid = some child) :
    world.RestoresRegs pid := by
  intro memory addr data userRegs next later other place gets read
  simp only [TraceWorld.sysPtrace, found] at gets
  split at gets
  · cases gets
    simp only [TraceWorld.sysPtrace, found, read, setUserRegs_getUserRegs,
      world.setCpu_self found]
  · cases gets

/--
For a stopped child in any state: its registers and flags are reported, or set,
as they count exactly if none of its flags differs from the word of `eflags`
that is copied; writing back what was read is always harmless.
-/
theorem ptrace_registers_iff
    (found : world.findChild pid = some child) :
    (world.GetsRegs pid child.cpu ↔
        child.cpu.gs = 0 ∧ child.cpu.StoresFlags child.cpu.eflags) ∧
      (world.PeeksUser pid child.cpu ↔
          child.cpu.gs = 0 ∧ child.cpu.StoresFlags child.cpu.eflags) ∧
        (∀ userRegs,
          world.SetsRegs pid userRegs ↔
            child.cpu.gs = 0 ∧ userRegs.Plain ∧
              child.cpu.StoresFlags userRegs.eflags) ∧
          world.RestoresRegs pid :=
  ⟨world.getsRegs_iff found, world.peeksUser_iff found,
    fun _ => world.setsRegs_iff found, world.restoresRegs found⟩

/-- A child that has just compared two equal numbers: ZF is pending. -/
def comparedChild : Traced where
  pid := 2
  stopped := true
  cpu :=
    { regs := ⟨7, 0, 0, 0, 0, 0, 0, 0⟩
      eip := 0x08048000
      eflags := 0x202
      cf := 0
      of := 0
      res := 0
      op1 := 7
      op2 := 7
      trapno := 0
      segfaultAddr := 0
      pfRes := true
      zfRes := true
      sfRes := true
      afOps := true
      gs := 0 }

/-- Its tracer. -/
def tracer (child : Traced) : TraceWorld where
  children := [child]
  distinct := List.nodup_singleton _

/-- The same child with its flags in place. -/
def settledChild : Traced :=
  { comparedChild with
    cpu :=
      { comparedChild.cpu with
        eflags := 0x246
        pfRes := false
        zfRes := false
        sfRes := false
        afOps := false } }

/-- With nothing pending the registers are reported as they count. -/
theorem settled_child_reports :
    (tracer settledChild).findChild 2 = some settledChild ∧
      (tracer settledChild).GetsRegs 2 settledChild.cpu := by
  have found : (tracer settledChild).findChild 2 = some settledChild := rfl
  refine ⟨found, (ptrace_registers_iff found).1.mpr ⟨rfl, ?_⟩⟩
  exact ⟨by decide, by decide, nofun, nofun, nofun, nofun⟩

/--
A child that has compared two equal numbers has ZF, but it is reported as
clear; and a debugger that sets the flags to 0 does not clear it.
-/
theorem pending_flag_is_not_reported :
    (tracer comparedChild).findChild 2 = some comparedChild ∧
      comparedChild.cpu.flag 6 = true ∧
      ∃ userRegs,
        ((tracer comparedChild).sysPtrace (openMemory .zero) .getregs 2 0
              0).1 =
            .ok (.regs userRegs) ∧
          userRegs.eflags.getLsbD 6 = false ∧
            (setUserRegs comparedChild.cpu .zero).flag 6 = true :=
  ⟨rfl, rfl, _, rfl, rfl, rfl⟩

end GuestKernel
