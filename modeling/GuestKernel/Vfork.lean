import GuestKernel.Machine
import Mathlib.Logic.Function.Basic

namespace GuestKernel

/-!
# The vfork handshake

`sys_clone` with `CLONE_VFORK` and `vfork_notify`, as it is called by `exec` and
by `do_exit`.  The `struct vfork_info` lies on the stack of the parent and is
reached through the task of the child; `pids_lock` keeps reapers away from a
child until its exit has told the parent.
-/

/-- One task that was cloned. -/
abbrev ChildId := Nat

/-- Who holds a lock of the handshake. -/
inductive VforkSide where
  | parent
  | child
  deriving Repr, DecidableEq

/-- Where the parent is in `sys_clone`. -/
inductive VforkParent where
  /-- At `lock(&vfork.lock)`. -/
  | enter
  /-- At `while (!vfork.done)`. -/
  | check
  /-- In `wait_for_ignore_signals`. -/
  | wait
  /-- At `unlock(&vfork.lock)`. -/
  | leave
  /-- At `lock(&task->general_lock)`. -/
  | toClear
  /-- At `task->vfork = NULL`. -/
  | clearing
  /-- At `unlock(&task->general_lock)`. -/
  | cleared
  /-- At `cond_destroy(&vfork.cond)`. -/
  | destroy
  | returned
  deriving Repr, DecidableEq

/-- Where the child is; a flag tells an exit from an exec. -/
inductive VforkChild where
  | running
  /-- At `lock(&task->general_lock)` of `vfork_notify`. -/
  | notify (exits : Bool)
  /-- At `if (task->vfork)`. -/
  | look (exits : Bool)
  /-- At `lock(&task->vfork->lock)`. -/
  | toInfo (exits : Bool)
  /-- At `task->vfork->done = true`. -/
  | inInfo (exits : Bool)
  /-- At `unlock(&task->vfork->lock)`. -/
  | told (exits : Bool)
  /-- At `unlock(&task->general_lock)`. -/
  | unlock (exits : Bool)
  /-- Behind `vfork_notify` in `do_exit`. -/
  | exited
  | gone
  deriving Repr, DecidableEq

/-- A cloned task and the call that cloned it. -/
structure VforkTask where
  created : Bool := false
  /-- Cloned with `CLONE_VFORK`. -/
  isVfork : Bool := false
  /-- Cloned with `CLONE_THREAD`. -/
  isThread : Bool := false
  parent : VforkParent := .returned
  child : VforkChild := .running
  /-- `task->vfork` is not NULL. -/
  vfork : Bool := false
  generalLock : Option VforkSide := none
  infoLock : Option VforkSide := none
  /-- `vfork.done`. -/
  done : Bool := false
  /-- The child has exec'd or is exiting. -/
  left : Bool := false
  zombie : Bool := false
  /-- `task_destroy` was called. -/
  freed : Bool := false
  deriving Repr, DecidableEq

/-- The tasks, and the child that holds `pids_lock` in `do_exit`. -/
structure VforkWorld where
  tasks : ChildId → VforkTask
  pidsLock : Option ChildId

/-- Steps, each of one child or of its parent. -/
inductive VforkStep where
  /-- `sys_clone` up to `task_start`. -/
  | clone (child : ChildId) (isVfork isThread : Bool)
  /-- The parent goes on in `sys_clone`. -/
  | parent (child : ChildId)
  /-- `did_exec = true`. -/
  | exec (child : ChildId)
  /-- `do_exit` up to `vfork_notify`; the group may have other threads. -/
  | exit (child : ChildId) (isLast : Bool)
  /-- The child goes on in `vfork_notify`. -/
  | notify (child : ChildId)
  /-- `do_exit` of a leader releases `pids_lock`. -/
  | release (child : ChildId)
  /-- `do_exit` of another thread destroys its task. -/
  | destroy (child : ChildId)
  /-- The last thread of a group exits after its leader. -/
  | groupDies (child : ChildId)
  /-- `reap_if_zombie`, by a thread that waits for the child. -/
  | reap (child : ChildId)

namespace VforkTask

/-- One step of the parent. -/
def parentStep (task : VforkTask) : Option VforkTask :=
  match task.parent with
  | .enter | .wait =>
    if task.infoLock = none then
      some { task with infoLock := some .parent, parent := .check }
    else
      none
  | .check =>
    if task.done then
      some { task with parent := .leave }
    else
      some { task with infoLock := none, parent := .wait }
  | .leave => some { task with infoLock := none, parent := .toClear }
  | .toClear =>
    if task.generalLock = none then
      some { task with generalLock := some .parent, parent := .clearing }
    else
      none
  | .clearing => some { task with vfork := false, parent := .cleared }
  | .cleared => some { task with generalLock := none, parent := .destroy }
  | .destroy => some { task with parent := .returned }
  | .returned => none

/-- One step of `vfork_notify`. -/
def notifyStep (task : VforkTask) : Option VforkTask :=
  match task.child with
  | .notify exits =>
    if task.generalLock = none then
      some { task with generalLock := some .child, child := .look exits }
    else
      none
  | .look exits =>
    some
      { task with
        child := if task.vfork then .toInfo exits else .unlock exits }
  | .toInfo exits =>
    if task.infoLock = none then
      some { task with infoLock := some .child, child := .inInfo exits }
    else
      none
  | .inInfo exits => some { task with done := true, child := .told exits }
  | .told exits =>
    some { task with infoLock := none, child := .unlock exits }
  | .unlock exits =>
    some
      { task with
        generalLock := none
        child := if exits then .exited else .running }
  | _ => none

/-- The parent's next step follows the pointer to the task. -/
def parentUsesTask (task : VforkTask) : Bool :=
  task.parent = .toClear || task.parent = .clearing || task.parent = .cleared

/-- The child's next step follows `task->vfork`. -/
def childUsesInfo (task : VforkTask) : Bool :=
  match task.child with
  | .toInfo _ | .inInfo _ | .told _ => true
  | _ => false

/-- The child is in `do_exit` with `pids_lock` held. -/
def isExiting (task : VforkTask) : Bool :=
  match task.child with
  | .notify exits | .look exits | .toInfo exits | .inInfo exits | .told exits
  | .unlock exits => exits
  | .exited => true
  | _ => false

end VforkTask

namespace VforkWorld

/-- Before any clone. -/
def empty : VforkWorld where
  tasks := fun _ => {}
  pidsLock := none

/-- Change one task. -/
def setTask (world : VforkWorld) (child : ChildId) (task : VforkTask) :
    VforkWorld :=
  { world with tasks := Function.update world.tasks child task }

/-- One step. -/
def run (world : VforkWorld) : VforkStep → Option VforkWorld
  | .clone child isVfork isThread =>
    if (world.tasks child).created then
      none
    else
      some
        (world.setTask child
          { created := true
            isVfork := isVfork
            isThread := isThread
            parent := if isVfork then .enter else .returned
            vfork := isVfork })
  | .parent child =>
    (world.tasks child).parentStep.map (world.setTask child)
  | .exec child =>
    let task := world.tasks child
    if task.created && task.child = .running then
      some
        (world.setTask child
          { task with left := true, child := .notify false })
    else
      none
  | .exit child isLast =>
    let task := world.tasks child
    if (task.created && task.child = .running) && world.pidsLock = none then
      some
        { world.setTask child
            { task with
              left := true
              zombie := isLast && !task.isThread
              child := .notify true } with
          pidsLock := some child }
    else
      none
  | .notify child =>
    (world.tasks child).notifyStep.map (world.setTask child)
  | .release child =>
    let task := world.tasks child
    if task.child = .exited && !task.isThread then
      some
        { world.setTask child { task with child := .gone } with
          pidsLock := none }
    else
      none
  | .destroy child =>
    let task := world.tasks child
    if task.child = .exited && task.isThread then
      some
        { world.setTask child { task with child := .gone, freed := true } with
          pidsLock := none }
    else
      none
  | .groupDies child =>
    let task := world.tasks child
    if task.child = .gone && !(task.isThread || task.zombie) then
      some (world.setTask child { task with zombie := true })
    else
      none
  | .reap child =>
    let task := world.tasks child
    if (task.zombie && !task.freed) && world.pidsLock = none then
      some (world.setTask child { task with freed := true })
    else
      none

/-- The task whose memory a step uses. -/
def usedTask (world : VforkWorld) : VforkStep → Option ChildId
  | .clone _ _ _ => none
  | .parent child =>
    if (world.tasks child).parentUsesTask then some child else none
  | .exec child | .exit child _ | .notify child | .release child
  | .destroy child | .groupDies child | .reap child => some child

/-- The child whose step uses the `vfork_info` of its parent. -/
def usedInfo (world : VforkWorld) : VforkStep → Option ChildId
  | .notify child =>
    if (world.tasks child).childUsesInfo then some child else none
  | _ => none

end VforkWorld

/-- Any number of handshakes at once. -/
def vforkMachine : Machine VforkWorld VforkStep where
  initial world := world = VforkWorld.empty
  step world action next := world.run action = some next

/--
The parent is past its last use of the task whenever the task is destroyed: by
a waiter, or by the exit of a child that is a thread of its group.
-/
def AfterHandshake (world : VforkWorld) : VforkStep → Prop
  | .reap child | .destroy child =>
    (world.tasks child).parent = .destroy ∨
      (world.tasks child).parent = .returned
  | _ => True

/-- The machine with these steps only. -/
def handshakeMachine : Machine VforkWorld VforkStep :=
  vforkMachine.restrict AfterHandshake

/--
The law of the handshake: `clone` has returned only after the child has exec'd
or is exiting, no step uses a task that was destroyed, and none uses the
`vfork_info` of a call that has returned.
-/
structure VforkLaw (world : VforkWorld) : Prop where
  waits :
    ∀ child,
      (world.tasks child).isVfork = true →
      (world.tasks child).parent = .returned →
      (world.tasks child).left = true
  task :
    ∀ action next child,
      world.run action = some next → world.usedTask action = some child →
      (world.tasks child).freed = false
  info :
    ∀ action next child,
      world.run action = some next → world.usedInfo action = some child →
      (world.tasks child).parent ≠ .returned

end GuestKernel
