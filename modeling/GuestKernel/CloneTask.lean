import GuestKernel.ProcTable
import Mathlib.Data.BitVec

namespace GuestKernel

/-!
# Cloning a task

`sys_clone` with `copy_task` and its ladder of error labels.  What the copies
of tables and the stores to user memory return is given as an argument: they
do not touch the process table themselves.
-/

/-- `CSIGNAL_`. -/
def csignal : BitVec 32 := 0x000000ff#32

/-- `CLONE_VM_`. -/
def cloneVm : BitVec 32 := 0x00000100#32

/-- `CLONE_FS_`. -/
def cloneFs : BitVec 32 := 0x00000200#32

/-- `CLONE_FILES_`. -/
def cloneFiles : BitVec 32 := 0x00000400#32

/-- `CLONE_SIGHAND_`. -/
def cloneSighand : BitVec 32 := 0x00000800#32

/-- `CLONE_VFORK_`. -/
def cloneVfork : BitVec 32 := 0x00004000#32

/-- `CLONE_THREAD_`. -/
def cloneThread : BitVec 32 := 0x00010000#32

/-- `CLONE_SYSVSEM_`. -/
def cloneSysvsem : BitVec 32 := 0x00040000#32

/-- `CLONE_SETTLS_`. -/
def cloneSettls : BitVec 32 := 0x00080000#32

/-- `CLONE_PARENT_SETTID_`. -/
def cloneParentSettid : BitVec 32 := 0x00100000#32

/-- `CLONE_CHILD_CLEARTID_`. -/
def cloneChildCleartid : BitVec 32 := 0x00200000#32

/-- `CLONE_DETACHED_`. -/
def cloneDetached : BitVec 32 := 0x00400000#32

/-- `CLONE_CHILD_SETTID_`. -/
def cloneChildSettid : BitVec 32 := 0x01000000#32

/-- `IMPLEMENTED_FLAGS`. -/
def implementedFlags : BitVec 32 :=
  cloneVm ||| cloneFiles ||| cloneFs ||| cloneSighand ||| cloneSysvsem |||
    cloneVfork ||| cloneThread ||| cloneSettls ||| cloneChildSettid |||
    cloneParentSettid ||| cloneChildCleartid ||| cloneDetached

/-- `flags & mask`. -/
def hasCloneFlag (flags mask : BitVec 32) : Bool :=
  decide (flags &&& mask ≠ 0)

/-- The checks of `sys_clone`. -/
def cloneFlagsError (flags : BitVec 32) : Option Errno :=
  if flags &&& ~~~csignal &&& ~~~implementedFlags ≠ 0 then some .inval
  else if hasCloneFlag flags cloneSighand ∧ ¬ hasCloneFlag flags cloneVm then
    some .inval
  else if
      hasCloneFlag flags cloneThread ∧ ¬ hasCloneFlag flags cloneSighand then
    some .inval
  else none

/-- Which allocations succeed: the task and the tables that are copied. -/
structure CloneCopies where
  task : Bool
  files : Bool
  fs : Bool
  sighand : Bool
  deriving Repr, DecidableEq

/-- Which stores succeed: `task_set_thread_area` and the two thread ids. -/
structure CloneStores where
  tls : Bool
  childTid : Bool
  parentTid : Bool
  deriving Repr, DecidableEq

namespace ProcTable

/-- Share a table with the task that calls, or copy it. -/
def shareOrCopy
    (w : ProcTable)
    (task : Nat)
    (kind : SharedKind)
    (isShared : Bool) : ProcTable :=
  if isShared then w.retain kind ((w.tasks task).shared kind)
  else w.copyShared task kind

/-- Give the table of a task back. -/
def giveBack (w : ProcTable) (task : Nat) (kind : SharedKind) : ProcTable :=
  w.release kind ((w.tasks task).shared kind)

/-- `copy_task` up to the copy of `sighand`, with its error labels. -/
def copyTables
    (w : ProcTable)
    (task : Nat)
    (flags : BitVec 32)
    (copies : CloneCopies) : Option Errno × ProcTable :=
  let w := w.shareOrCopy task .mm (hasCloneFlag flags cloneVm)
  if (hasCloneFlag flags cloneFiles || copies.files) = false then
    (some .nomem, w.giveBack task .mm)
  else
    let w := w.shareOrCopy task .files (hasCloneFlag flags cloneFiles)
    if (hasCloneFlag flags cloneFs || copies.fs) = false then
      (some .nomem, (w.giveBack task .files).giveBack task .mm)
    else
      let w := w.shareOrCopy task .fs (hasCloneFlag flags cloneFs)
      if (hasCloneFlag flags cloneSighand || copies.sighand) = false then
        (some .nomem,
          ((w.giveBack task .fs).giveBack task .files).giveBack task .mm)
      else
        (none, w.shareOrCopy task .sighand (hasCloneFlag flags cloneSighand))

/-- `tgroup_copy`. -/
def tgroupCopy (w : ProcTable) (oldGroup : Nat) : ProcTable :=
  let group := w.nextGroup
  let w := { w with nextGroup := group + 1 }
  let w := w.setGroup group { w.groups oldGroup with
    live := true
    threads := [] }
  let w := { w with
    pids := fun id =>
      { w.pids id with
        pgroup := insertAfter oldGroup group (w.pids id).pgroup
        session := insertAfter oldGroup group (w.pids id).session } }
  match (w.groups group).tty with
  | none => w
  | some tty =>
    w.setTty tty { w.ttys tty with refcount := (w.ttys tty).refcount + 1 }

/-- A group of its own for a task. -/
def leadGroup (w : ProcTable) (task : Nat) : ProcTable :=
  let group := w.nextGroup
  let w := w.tgroupCopy (w.tasks task).group
  let w := w.setGroup group { w.groups group with leader := task }
  w.setTask task { w.tasks task with
    group := group
    tgid := (w.tasks task).pid }

/-- `list_add(&task->group->threads, &task->group_links)`. -/
def enterThreads (w : ProcTable) (task : Nat) : ProcTable :=
  let group := (w.tasks task).group
  w.setGroup group { w.groups group with
    threads := task :: (w.groups group).threads }

/-- The part of `copy_task` under `pids_lock`. -/
def joinGroup (w : ProcTable) (task : Nat) (flags : BitVec 32) : ProcTable :=
  let w := if hasCloneFlag flags cloneThread then w else w.leadGroup task
  w.enterThreads task

/-- Whether one of the stores that the flags ask for fails. -/
def storesFail (flags : BitVec 32) (stores : CloneStores) : Bool :=
  (hasCloneFlag flags cloneSettls && !stores.tls) ||
    (hasCloneFlag flags cloneChildSettid && !stores.childTid) ||
      (hasCloneFlag flags cloneParentSettid && !stores.parentTid)

/-- `fail_free_sighand` and the labels after it. -/
def giveAllBack (w : ProcTable) (task : Nat) : ProcTable :=
  (((w.giveBack task .sighand).giveBack task .fs).giveBack task
    .files).giveBack task .mm

/-- `copy_task`. -/
def copyTask
    (w : ProcTable)
    (task : Nat)
    (flags : BitVec 32)
    (copies : CloneCopies)
    (stores : CloneStores) : Option Errno × ProcTable :=
  match w.copyTables task flags copies with
  | (some err, w) => (some err, w)
  | (none, w) =>
    let w := w.joinGroup task flags
    if storesFail flags stores then (some .fault, w.giveAllBack task)
    else (none, w)

/-- `sys_clone`, with the pid of the new task. -/
def sysClone
    (w : ProcTable)
    (current : Nat)
    (flags : BitVec 32)
    (copies : CloneCopies)
    (stores : CloneStores) : Except ProcTrap (Except Errno Nat × ProcTable) :=
  match cloneFlagsError flags with
  | some err => .ok (.error err, w)
  | none => do
      match ← w.taskCreate current copies.task with
      | (none, w) => .ok (.error .nomem, w)
      | (some task, w) =>
        match w.copyTask task flags copies stores with
        | (some err, w) => .ok (.error err, ← w.taskDestroy task)
        | (none, w) => .ok (.ok (w.tasks task).pid, w)

end ProcTable

end GuestKernel
