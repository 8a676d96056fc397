import GuestKernel.Errno
import GuestKernel.KernelNumbers
import Mathlib.Data.List.Basic
import Mathlib.Logic.Function.Basic

namespace GuestKernel
open Function

/-!
# The process table

The tables of `kernel/task.c` with the tasks, thread groups and terminals they
refer to, and the operations on them: pid lookup, creation and destruction of
tasks, leaving a session, exit and reaping.

Tasks and groups are named by the order of their allocation; what is freed
keeps its number and its bytes, so a stale pointer can be told apart.  A
doubly linked list is the list of its elements in order.
-/

/-- `struct pid`. -/
structure PidEntry where
  task : Option Nat
  session : List Nat
  pgroup : List Nat
  deriving Repr, DecidableEq

/-- `pid_empty`. -/
def PidEntry.isEmpty (entry : PidEntry) : Bool :=
  entry.task.isNone && entry.session.isEmpty && entry.pgroup.isEmpty

/-- The counted structures a task points to. -/
inductive SharedKind where
  | mm
  | files
  | fs
  | sighand
  deriving Repr, DecidableEq

/-- `struct task`; a structure it shares is a number, `0` for no pointer. -/
structure ProcTask where
  live : Bool
  pid : Nat
  tgid : Nat
  group : Nat
  parent : Option Nat
  children : List Nat
  exiting : Bool
  zombie : Bool
  shared : SharedKind → Nat

/-- `(struct task) {}`. -/
def ProcTask.zero : ProcTask where
  live := false
  pid := 0
  tgid := 0
  group := 0
  parent := none
  children := []
  exiting := false
  zombie := false
  shared := fun _ => 0

/-- `struct tgroup`. -/
structure ProcGroup where
  live : Bool
  threads : List Nat
  leader : Nat
  sid : Nat
  pgid : Nat
  tty : Option Nat
  deriving Repr, DecidableEq

/-- `(struct tgroup) {}`. -/
def ProcGroup.zero : ProcGroup where
  live := false
  threads := []
  leader := 0
  sid := 0
  pgid := 0
  tty := none

/-- `struct tty`; `fds` is the length of its list of open descriptors. -/
structure ProcTty where
  refcount : Nat
  session : Nat
  fgGroup : Nat
  fds : Nat
  deriving Repr, DecidableEq

/-- A terminal after `tty_alloc`. -/
def ProcTty.zero : ProcTty where
  refcount := 0
  session := 0
  fgGroup := 0
  fds := 0

/--
All tables.  `pidsLocked` says that `pids_lock` was never given back, and
`next…` is what the allocator hands out next.
-/
structure ProcTable where
  pids : Nat → PidEntry
  curPid : Nat
  pidsLocked : Bool
  tasks : Nat → ProcTask
  groups : Nat → ProcGroup
  ttys : Nat → ProcTty
  refs : SharedKind → Nat → Nat
  nextTask : Nat
  nextGroup : Nat
  nextShared : Nat

/-- Why an operation has no result. -/
inductive ProcTrap where
  | outOfBounds
  | nullPointer
  | noPid
  deriving Repr, DecidableEq

namespace ProcTable

/-- The table after `become_first_process`. -/
def boot : ProcTable where
  pids := fun id => if id = 1 then ⟨some 0, [0], [0]⟩ else ⟨none, [], []⟩
  curPid := 1
  pidsLocked := false
  tasks := fun id =>
    if id = 0 then
      { ProcTask.zero with
        live := true
        pid := 1
        tgid := 1
        shared := fun _ => 1 }
    else .zero
  groups := fun id =>
    if id = 0 then
      { ProcGroup.zero with
        live := true
        threads := [0]
        sid := 1
        pgid := 1 }
    else .zero
  ttys := fun _ => .zero
  refs := fun _ id => if id = 1 then 1 else 0
  nextTask := 1
  nextGroup := 1
  nextShared := 2

/-- `pid_get`; the array has `MAX_PID + 1` entries. -/
def pidGet (w : ProcTable) (id : Nat) : Except ProcTrap (Option PidEntry) :=
  if maxPid + 1 < id then
    .ok none
  else if maxPid < id then
    .error .outOfBounds
  else if (w.pids id).isEmpty then
    .ok none
  else
    .ok (some (w.pids id))

/-- A lookup whose result is used unchecked. -/
def pidDeref (w : ProcTable) (id : Nat) : Except ProcTrap PidEntry := do
  match ← w.pidGet id with
  | none => .error .nullPointer
  | some entry => .ok entry

/-- `pid_get_task_zombie`. -/
def pidGetTaskZombie (w : ProcTable) (id : Nat) :
    Except ProcTrap (Option Nat) := do
  match ← w.pidGet id with
  | none => .ok none
  | some entry => .ok entry.task

/-- `pid_get_task`. -/
def pidGetTask (w : ProcTable) (id : Nat) : Except ProcTrap (Option Nat) := do
  match ← w.pidGetTaskZombie id with
  | none => .ok none
  | some task => .ok (if (w.tasks task).zombie then none else some task)

/-- Write a task. -/
def setTask (w : ProcTable) (id : Nat) (task : ProcTask) : ProcTable :=
  { w with tasks := update w.tasks id task }

/-- Write a group. -/
def setGroup (w : ProcTable) (id : Nat) (group : ProcGroup) : ProcTable :=
  { w with groups := update w.groups id group }

/-- Write a terminal. -/
def setTty (w : ProcTable) (id : Nat) (tty : ProcTty) : ProcTable :=
  { w with ttys := update w.ttys id tty }

/-- Write the task of a pid entry. -/
def setPidTask (w : ProcTable) (id : Nat) (task : Option Nat) : ProcTable :=
  { w with
    pids := update w.pids id { w.pids id with task := task } }

/-- Take a task out of the children list it is in. -/
def unlinkSibling (w : ProcTable) (task : Nat) : ProcTable :=
  { w with
    tasks := fun id =>
      { w.tasks id with children := (w.tasks id).children.erase task } }

/-- Take a group out of the session list it is in. -/
def unlinkSession (w : ProcTable) (group : Nat) : ProcTable :=
  { w with
    pids := fun id =>
      { w.pids id with session := (w.pids id).session.erase group } }

/-- Take a group out of the process group list it is in. -/
def unlinkPgroup (w : ProcTable) (group : Nat) : ProcTable :=
  { w with
    pids := fun id =>
      { w.pids id with pgroup := (w.pids id).pgroup.erase group } }

/-- `list_add(after, item)` in the list that holds the first. -/
def insertAfter (after item : Nat) : List Nat → List Nat
  | [] => []
  | first :: rest =>
    if first = after then first :: item :: rest
    else first :: insertAfter after item rest

/-- One reference more. -/
def retain (w : ProcTable) (kind : SharedKind) (id : Nat) : ProcTable :=
  { w with
    refs := update w.refs kind
        (update (w.refs kind) id (w.refs kind id + 1)) }

/-- One reference less. -/
def release (w : ProcTable) (kind : SharedKind) (id : Nat) : ProcTable :=
  { w with
    refs := update w.refs kind
        (update (w.refs kind) id (w.refs kind id - 1)) }

/-- A structure of its own for a task, with one reference. -/
def copyShared (w : ProcTable) (task : Nat) (kind : SharedKind) : ProcTable :=
  let id := w.nextShared
  let w := { w with
    nextShared := id + 1
    refs := update w.refs kind
      (update (w.refs kind) id 1) }
  w.setTask task { w.tasks task with
    shared := update (w.tasks task).shared kind id }

/-- The search of `task_create_`; the fuel is the number of pids. -/
def nextPid (pids : Nat → PidEntry) (cur : Nat) : Nat → Option Nat
  | 0 => none
  | fuel + 1 =>
    let cur := if maxPid < cur + 1 then 1 else cur + 1
    if (pids cur).isEmpty then some cur else nextPid pids cur fuel

/-- The part of `task_create_` that enters the new task at its pid. -/
def addTask (w : ProcTable) (parent pid : Nat) : ProcTable :=
  let task := w.nextTask
  let w := { w with nextTask := task + 1 }
  let w := w.setTask task { w.tasks parent with
    live := true
    pid := pid
    parent := some parent
    children := [] }
  let w := w.setPidTask pid (some task)
  w.setTask parent { w.tasks parent with
    children := task :: (w.tasks parent).children }

/--
`task_create_`; `allocated` is whether `malloc` succeeds.  If it fails the
function returns without giving `pids_lock` back.
-/
def taskCreate
    (w : ProcTable)
    (parent : Nat)
    (allocated : Bool) : Except ProcTrap (Option Nat × ProcTable) :=
  match nextPid w.pids w.curPid maxPid with
  | none => .error .noPid
  | some pid =>
    let w := { w with curPid := pid }
    if allocated then .ok (some w.nextTask, w.addTask parent pid)
    else .ok (none, { w with pidsLocked := true })

/-- `task_destroy`. -/
def taskDestroy (w : ProcTable) (task : Nat) : Except ProcTrap ProcTable := do
  let w := w.unlinkSibling task
  let _ ← w.pidDeref (w.tasks task).pid
  let w := w.setPidTask (w.tasks task).pid none
  .ok (w.setTask task { w.tasks task with live := false })

/-- `tty_release`. -/
def ttyRelease (w : ProcTable) (tty : Nat) : ProcTable :=
  let count := (w.ttys tty).refcount - 1
  if count = 0 then w.setTty tty .zero
  else w.setTty tty { w.ttys tty with refcount := count }

/-- `task_leave_session`. -/
def taskLeaveSession (w : ProcTable) (task : Nat) :
    Except ProcTrap ProcTable := do
  let group := (w.tasks task).group
  let w := w.unlinkSession group
  match (w.groups group).tty with
  | none => .ok w
  | some tty =>
    let entry ← w.pidDeref (w.groups group).sid
    let w :=
      if entry.session = [] then
        w.setTty tty { w.ttys tty with session := 0 }
      else
        w
    let w := w.ttyRelease tty
    .ok (w.setGroup group { w.groups group with tty := none })

/-- `find_new_parent`. -/
def findNewParent (w : ProcTable) (task : Nat) :
    Except ProcTrap (Option Nat) :=
  match
    (w.groups (w.tasks task).group).threads.find? fun thread =>
      !(w.tasks thread).exiting with
  | some thread => .ok (some thread)
  | none => w.pidGetTask 1

/-- Hand one child to a new parent. -/
def moveChild (newParent : Nat) (w : ProcTable) (child : Nat) : ProcTable :=
  let w := w.setTask child { w.tasks child with parent := some newParent }
  let w := w.unlinkSibling child
  w.setTask newParent { w.tasks newParent with
    children := child :: (w.tasks newParent).children }

/-- The loop of `do_exit` over the children. -/
def reparentChildren (w : ProcTable) (task : Nat) :
    Except ProcTrap ProcTable := do
  match ← w.findNewParent task with
  | some newParent =>
    .ok ((w.tasks task).children.foldl (moveChild newParent) w)
  | none =>
    if (w.tasks task).children = [] then .ok w else .error .nullPointer

/-- `exit_tgroup`, with whether the group is dead. -/
def exitTgroup (w : ProcTable) (task : Nat) : Bool × ProcTable :=
  let group := (w.tasks task).group
  let threads := (w.groups group).threads.erase task
  (threads.isEmpty,
    w.setGroup group { w.groups group with threads := threads })

/-- The end of `do_exit`. -/
def finishExit (w : ProcTable) (task : Nat) : Except ProcTrap ProcTable :=
  if task ≠ (w.groups (w.tasks task).group).leader then w.taskDestroy task
  else .ok w

/-- What `do_exit` gives back before it takes `pids_lock`, and `sighand`. -/
def releaseAll (w : ProcTable) (task : Nat) : ProcTable :=
  let shared := (w.tasks task).shared
  let w :=
    [SharedKind.mm, .files, .fs, .sighand].foldl
      (fun w kind => w.release kind (shared kind)) w
  w.setTask task { w.tasks task with shared := fun _ => 0 }

/--
`do_exit` up to `halt_system`, which it calls if the task is the last one of
init; the flag says so.
-/
def doExit (w : ProcTable) (current : Nat) :
    Except ProcTrap (Bool × ProcTable) := do
  let w := w.releaseAll current
  let w := w.setTask current { w.tasks current with exiting := true }
  let leader := (w.groups (w.tasks current).group).leader
  let w ← w.reparentChildren current
  let (isDead, w) := w.exitTgroup current
  if isDead = false then
    .ok (false, ← w.finishExit current)
  else
    match (w.tasks leader).parent with
    | none => .ok (true, w)
    | some _ =>
      let w := w.setTask leader { w.tasks leader with zombie := true }
      .ok (false, ← w.finishExit current)

/-- `reap_if_zombie`, without or with `WNOWAIT_`. -/
def reapIfZombie (w : ProcTable) (task : Nat) (noWait : Bool) :
    Except ProcTrap (Bool × ProcTable) := do
  if (w.tasks task).zombie = false then
    .ok (false, w)
  else if noWait then
    .ok (true, w)
  else
    let group := (w.tasks task).group
    let w ← w.taskLeaveSession task
    let w := w.unlinkPgroup group
    let w := w.setGroup group { w.groups group with live := false }
    .ok (true, ← w.taskDestroy task)

/-- The child that `do_wait` looks at for a pid. -/
def waitedPid (w : ProcTable) (current id : Nat) :
    Except ProcTrap (Option Nat) := do
  match ← w.pidGetTaskZombie id with
  | none => .ok none
  | some task =>
    match (w.tasks task).parent with
    | none => .ok none
    | some parent =>
      if (w.tasks parent).group ≠ (w.tasks current).group then .ok none
      else .ok (some (w.groups (w.tasks task).group).leader)

end ProcTable

end GuestKernel
