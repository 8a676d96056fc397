import GuestKernel.Float80
import GuestKernel.Machine
import Mathlib.Logic.Function.Basic

namespace GuestKernel
open Function

/-!
# The control word and the rounding mode

The rounding control of `emu/fpu.c`.  The control word is part of the registers
of a task; the rounding mode that the arithmetic goes by is a variable of the
host thread that runs the task.  Every task has a host thread of its own, so
tasks take their steps in any order.
-/

/-- The x87 registers of `struct cpu_state`. -/
structure FpuState where
  fp : BitVec 3 → Float80
  fsw : BitVec 16
  fcw : BitVec 16

/-- `rc` of a control word. -/
def roundingControl (fcw : BitVec 16) : RoundingMode :=
  .ofBits (fcw.extractLsb' 10 2)

namespace FpuState

/-- `top` of the status word. -/
def top (cpu : FpuState) : BitVec 3 :=
  cpu.fsw.extractLsb' 11 3

/-- `ST(i)`. -/
def st (cpu : FpuState) (i : BitVec 3) : Float80 :=
  cpu.fp (cpu.top + i)

/-- Assign to `ST(i)`. -/
def setSt (cpu : FpuState) (i : BitVec 3) (f : Float80) : FpuState :=
  { cpu with fp := update cpu.fp (cpu.top + i) f }

end FpuState

/-- The two words of `struct fpu_env32` that are read back. -/
structure FpuEnv where
  control : BitVec 32
  status : BitVec 32

/-- A task, and `f80_rounding_mode` of its host thread. -/
structure FpuTask where
  cpu : FpuState
  roundingMode : RoundingMode

namespace FpuTask

/-- `fpu_ldcw16`. -/
def fpuLdcw16 (task : FpuTask) (i : BitVec 16) : FpuTask where
  cpu := { task.cpu with fcw := i }
  roundingMode := roundingControl i

/-- `fpu_ldenv32`. -/
def fpuLdenv32 (task : FpuTask) (env : FpuEnv) : FpuTask :=
  { task with
    cpu :=
      { task.cpu with
        fcw := env.control.setWidth 16
        fsw := env.status.setWidth 16 } }

/-- `fpu_restore32`. -/
def fpuRestore32
    (task : FpuTask) (env : FpuEnv) (regs : BitVec 3 → Float80) : FpuTask :=
  let task := task.fpuLdenv32 env
  { task with
    cpu := { task.cpu with fp := fun i => regs (i - task.cpu.top) } }

/-- `fpu_scale`. -/
def fpuScale (task : FpuTask) : FpuTask :=
  let oldMode := task.roundingMode
  let task := { task with roundingMode := RoundingMode.chop }
  let scale := (f80ToInt task.roundingMode (task.cpu.st 1)).setWidth 32
  let task := { task with roundingMode := oldMode }
  { task with
    cpu := task.cpu.setSt 0
      (f80Scale task.roundingMode (task.cpu.st 0) scale.toInt) }

/-- `fpu_prem`, which clears `c2`. -/
def fpuPrem (task : FpuTask) : FpuTask :=
  let (rest, mode) :=
    f80Mod task.roundingMode (task.cpu.st 0) (task.cpu.st 1)
  let cpu := task.cpu.setSt 0 rest
  { roundingMode := mode
    cpu := { cpu with fsw := cpu.fsw &&& 0xfbff } }

/-- `elf_exec`. -/
def elfExec (task : FpuTask) : FpuTask :=
  { task with cpu := { task.cpu with fcw := 0x37f } }

/-- The child of `task_create_`, on the new thread of `task_start`. -/
def forked (parent : FpuTask) : FpuTask where
  cpu := parent.cpu
  roundingMode := .ofBits 0

/-- The first task; nothing is set yet. -/
def first : FpuTask where
  cpu := { fp := fun _ => .zero, fsw := 0, fcw := 0 }
  roundingMode := .ofBits 0

/-- The next instruction rounds the way the control word says. -/
def RoundsByControl (task : FpuTask) : Prop :=
  task.roundingMode = roundingControl task.cpu.fcw

instance (task : FpuTask) : Decidable task.RoundsByControl :=
  inferInstanceAs (Decidable (_ = _))

end FpuTask

/-- All tasks. -/
structure FpuWorld where
  tasks : Nat → Option FpuTask

/-- Steps of one task. -/
inductive FpuStep where
  | fldcw (task : Nat) (control : BitVec 16)
  | fldenv (task : Nat) (env : FpuEnv)
  | frstor (task : Nat) (env : FpuEnv) (regs : BitVec 3 → Float80)
  | fscale (task : Nat)
  | fprem (task : Nat)
  | exec (task : Nat)
  | fork (parent child : Nat)

namespace FpuWorld

/-- One task, before its first `exec`. -/
def boot : FpuWorld where
  tasks := update (fun _ => none) 1 (some .first)

/-- Put a task in its place. -/
def setTask (world : FpuWorld) (id : Nat) (task : FpuTask) : FpuWorld where
  tasks := update world.tasks id (some task)

/-- One step. -/
def run (world : FpuWorld) : FpuStep → Option FpuWorld
  | .fldcw id control =>
    (world.tasks id).map fun task =>
      world.setTask id (task.fpuLdcw16 control)
  | .fldenv id env =>
    (world.tasks id).map fun task => world.setTask id (task.fpuLdenv32 env)
  | .frstor id env regs =>
    (world.tasks id).map fun task =>
      world.setTask id (task.fpuRestore32 env regs)
  | .fscale id =>
    (world.tasks id).map fun task => world.setTask id task.fpuScale
  | .fprem id =>
    (world.tasks id).map fun task => world.setTask id task.fpuPrem
  | .exec id =>
    (world.tasks id).map fun task => world.setTask id task.elfExec
  | .fork parent child =>
    match world.tasks child with
    | some _ => none
    | none =>
      (world.tasks parent).map fun task =>
        world.setTask child task.forked

/-- Every task rounds by its own control word. -/
def RoundsByControl (world : FpuWorld) : Prop :=
  ∀ id task, world.tasks id = some task → task.RoundsByControl

/-- The rounding mode of a task's host thread. -/
def HasMode (world : FpuWorld) (id : Nat) (mode : RoundingMode) : Prop :=
  ∀ task, world.tasks id = some task → task.roundingMode = mode

end FpuWorld

/-- The machine of all tasks. -/
def fpuMachine : Machine FpuWorld FpuStep where
  initial world := world = .boot
  step world action next := world.run action = some next

/--
The steps that leave the mode as the control word says: `fldenv` and `frstor`
load the rounding control of the thread's mode, `exec` finds the thread rounding
to nearest, and a task that forks has a control word that says so.
-/
def FpuWorld.KeepsMode (world : FpuWorld) : FpuStep → Prop
  | .fldenv id env =>
    world.HasMode id (roundingControl (env.control.setWidth 16))
  | .frstor id env _ =>
    world.HasMode id (roundingControl (env.control.setWidth 16))
  | .exec id => world.HasMode id .toNearest
  | .fork parent _ =>
    ∀ task, world.tasks parent = some task →
      roundingControl task.cpu.fcw = .toNearest
  | _ => True

/-- The machine with these steps only. -/
def keptModeMachine : Machine FpuWorld FpuStep :=
  fpuMachine.restrict FpuWorld.KeepsMode

namespace FpuTask

theorem roundsByControl_fpuLdcw16
    (task : FpuTask)
    (control : BitVec 16) :
    (task.fpuLdcw16 control).RoundsByControl :=
  rfl

variable {task : FpuTask}

theorem roundsByControl_fpuScale_iff :
    task.fpuScale.RoundsByControl ↔ task.RoundsByControl :=
  Iff.rfl

theorem roundsByControl_fpuPrem_iff :
    task.fpuPrem.RoundsByControl ↔ task.RoundsByControl :=
  Iff.rfl

theorem roundsByControl_fpuLdenv32_iff
    {env : FpuEnv} :
    (task.fpuLdenv32 env).RoundsByControl ↔
      task.roundingMode = roundingControl (env.control.setWidth 16) :=
  Iff.rfl

theorem roundsByControl_fpuRestore32_iff
    {env : FpuEnv}
    {regs : BitVec 3 → Float80} :
    (task.fpuRestore32 env regs).RoundsByControl ↔
      task.roundingMode = roundingControl (env.control.setWidth 16) :=
  Iff.rfl

theorem roundsByControl_elfExec_iff :
    task.elfExec.RoundsByControl ↔ task.roundingMode = .toNearest := by
  have nearest : roundingControl 0x37f = .toNearest := by decide
  rw [RoundsByControl, elfExec, nearest]

theorem roundsByControl_forked_iff
    {parent : FpuTask} :
    parent.forked.RoundsByControl ↔
      roundingControl parent.cpu.fcw = .toNearest :=
  ⟨fun rounds => rounds.symm, fun rounds => rounds.symm⟩

end FpuTask

namespace FpuWorld

variable {world : FpuWorld} {id : Nat} {task : FpuTask}

theorem tasks_setTask_self :
    (world.setTask id task).tasks id = some task :=
  update_self _ _ _

theorem tasks_setTask_of_ne
    {other : Nat}
    (isOther : other ≠ id) :
    (world.setTask id task).tasks other = world.tasks other :=
  update_of_ne isOther _ _

theorem roundsByControl_setTask_iff
    (rounds : world.RoundsByControl) :
    (world.setTask id task).RoundsByControl ↔ task.RoundsByControl := by
  constructor
  · intro after
    exact after id task tasks_setTask_self
  · intro obeys other found holds
    by_cases same : other = id
    · subst same
      rw [tasks_setTask_self] at holds
      cases holds
      exact obeys
    · rw [tasks_setTask_of_ne same] at holds
      exact rounds other found holds

/-- A step keeps the law exactly if it is one of the steps that keep the mode. -/
theorem roundsByControl_run_iff
    {next : FpuWorld}
    {action : FpuStep}
    (rounds : world.RoundsByControl)
    (step : world.run action = some next) :
    next.RoundsByControl ↔ world.KeepsMode action := by
  have ofTask : ∀ {id : Nat} {P : FpuTask → Prop} {change : FpuTask → FpuTask},
      ((world.tasks id).map fun task => world.setTask id (change task)) =
        some next →
      (∀ task, world.tasks id = some task →
        ((change task).RoundsByControl ↔ P task)) →
      (next.RoundsByControl ↔
        ∀ task, world.tasks id = some task → P task) := by
    intro id P change moved meaning
    obtain ⟨task, isTask, rfl⟩ := Option.map_eq_some_iff.mp moved
    rw [roundsByControl_setTask_iff rounds, meaning task isTask]
    constructor
    · intro holds other isOther
      rw [isTask] at isOther
      cases isOther
      exact holds
    · intro holds
      exact holds task isTask
  cases action with
  | fldcw id control =>
    have always := ofTask (P := fun _ => True) step
      fun task _ => iff_of_true (task.roundsByControl_fpuLdcw16 control)
        trivial
    exact always.trans ⟨fun _ => trivial, fun _ _ _ => trivial⟩
  | fldenv id env =>
    exact ofTask step fun task _ => FpuTask.roundsByControl_fpuLdenv32_iff
  | frstor id env regs =>
    exact ofTask step fun task _ => FpuTask.roundsByControl_fpuRestore32_iff
  | fscale id =>
    have always := ofTask (P := fun _ => True) step
      fun task isTask => iff_of_true
        (FpuTask.roundsByControl_fpuScale_iff.mpr (rounds id task isTask))
        trivial
    exact always.trans ⟨fun _ => trivial, fun _ _ _ => trivial⟩
  | fprem id =>
    have always := ofTask (P := fun _ => True) step
      fun task isTask => iff_of_true
        (FpuTask.roundsByControl_fpuPrem_iff.mpr (rounds id task isTask))
        trivial
    exact always.trans ⟨fun _ => trivial, fun _ _ _ => trivial⟩
  | exec id =>
    exact ofTask step fun task _ => FpuTask.roundsByControl_elfExec_iff
  | fork parent child =>
    simp only [run] at step
    split at step
    · cases step
    · obtain ⟨task, isTask, rfl⟩ := Option.map_eq_some_iff.mp step
      rw [roundsByControl_setTask_iff rounds,
        FpuTask.roundsByControl_forked_iff]
      constructor
      · intro holds other isOther
        rw [isTask] at isOther
        cases isOther
        exact holds
      · intro holds
        exact holds task isTask

theorem roundsByControl_boot : boot.RoundsByControl := by
  intro id task isTask
  by_cases first : id = 1
  · subst first
    cases isTask
    rfl
  · simp only [boot] at isTask
    rw [update_of_ne first] at isTask
    cases isTask

/-- In a run of steps that keep the mode, every task rounds as it says. -/
theorem tasks_round_by_control
    {world : FpuWorld}
    (reachable : keptModeMachine.Reachable world) :
    world.RoundsByControl := by
  refine reachable.invariant ?_ ?_
  · rintro world rfl
    exact roundsByControl_boot
  · intro world action next rounds step
    exact (roundsByControl_run_iff rounds step.2).mpr step.1

/-- `fldcw` to chop, then `fldenv` of the same control word. -/
theorem loaded_environment_is_obeyed :
    ∃ world : FpuWorld,
      world.HasMode 1 .chop ∧ world.RoundsByControl := by
  have start : keptModeMachine.Reachable boot := .initial rfl
  have chopped :=
    start.step (a := FpuStep.fldcw 1 0xf7f) ⟨trivial, rfl⟩
  have loaded :=
    chopped.step (a := FpuStep.fldenv 1 ⟨0xf7f, 0⟩)
      ⟨by
        intro task isTask
        cases isTask
        decide, rfl⟩
  refine ⟨_, ?_, tasks_round_by_control loaded⟩
  intro task isTask
  cases isTask
  decide

/-- `fldenv` of a control word that says chop; the thread rounds to nearest. -/
theorem loaded_environment_is_not_obeyed :
    ¬∀ world, fpuMachine.Reachable world → world.RoundsByControl := by
  intro always
  have start : fpuMachine.Reachable boot := .initial rfl
  have loaded :=
    start.step (a := FpuStep.fldenv 1 ⟨0xf7f, 0⟩) rfl
  have obeyed := always _ loaded 1 _ rfl
  exact absurd obeyed (by decide)

end FpuWorld

end GuestKernel
