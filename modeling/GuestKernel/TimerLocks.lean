import GuestKernel.KernelNumbers
import GuestKernel.Machine
import GuestKernel.WaitGraph
import Mathlib.Logic.Function.Basic

namespace GuestKernel
open Function

/-!
# The locks of timers, groups and descriptors

The order in which the timer callbacks, `timerfd_settime`, `timerfd_read`,
`timer_settime`, `timer_delete`, `setitimer`, `exit_group` and `do_exit` take
`fd->lock`, `group->lock`, `pids_lock` and `timer->lock`.  A call is the list of
its locks and unlocks, and each of them is a step of its own.

A condition wait is an unlock, and then the same call once more, and so is the
sleep of `timer_thread`; `do_exit_group` goes on with `do_exit`, which is a call
of its own here.
-/

/-- A thread of the host. -/
abbrev HostThread := Nat

/-- A timer of a thread group. -/
inductive GroupTimer where
  | itimer
  | posix (index : Nat)
  deriving Repr, DecidableEq

/-- A `struct timer`, named by its owner. -/
inductive TimerName where
  | timerfd (fd : FdId)
  | ofGroup (group : Nat) (which : GroupTimer)
  deriving Repr, DecidableEq

/-- One lock. -/
inductive GuestLock where
  | fd (fd : FdId)
  | group (group : Nat)
  | pids
  | timer (timer : TimerName)
  deriving Repr, DecidableEq

/-- The lock of a timer of a group. -/
abbrev GuestLock.ofGroup (group : Nat) (which : GroupTimer) : GuestLock :=
  .timer (.ofGroup group which)

/-- What a task waits in, among the waits that have one of these locks. -/
inductive WaitPlace where
  /-- `timerfd_read` or an `eventfd`. -/
  | descriptor (fd : FdId)
  /-- A stopped task. -/
  | stopped
  /-- `do_wait`. -/
  | child
  deriving Repr, DecidableEq

/-- `waiting_lock` of a task of the group. -/
def WaitPlace.lock (group : Nat) : WaitPlace → GuestLock
  | descriptor fd => .fd fd
  | stopped => .group group
  | child => .pids

/-- What a thread does with its locks, one step each. -/
inductive LockOp where
  | lock (lock : GuestLock)
  | unlock (lock : GuestLock)
  /--
  `deliver_signal` wakes a task of the group out of what it waits in: it tries
  `waiting_lock` until it has it, or the task waits no more.
  -/
  | wake (group : Nat) (waiting : Option WaitPlace)
  deriving Repr, DecidableEq

/-- A lock, what is done under it, and the unlock. -/
def locked (lock : GuestLock) (inside : List LockOp) : List LockOp :=
  .lock lock :: (inside ++ [.unlock lock])

/-- A signal, and how it finds its target. -/
structure SentSignal where
  waiting : Option WaitPlace
  /-- It is `SIGCONT` or `SIGKILL`. -/
  stops : Bool
  deriving Repr, DecidableEq

/-- `send_signal` to a task of a group. -/
def SentSignal.sendSignal (group : Nat) (signal : SentSignal) : List LockOp :=
  .wake group signal.waiting ::
    if signal.stops then locked (.group group) [] else []

/-- The callback of a timer, with the signal that it sends if it sends one. -/
def timerCallback (signal : SentSignal) : TimerName → List LockOp
  | .timerfd fd => locked (.fd fd) []
  -- `SIGALRM`
  | .ofGroup group .itimer =>
    SentSignal.sendSignal group { signal with stops := false }
  | .ofGroup group (.posix _) => locked .pids (signal.sendSignal group)

/-- What the last thread of a group does after `exit_tgroup`. -/
inductive GroupEnd where
  | notifies (parent : Option (Nat × SentSignal))
  /-- `halt_system`, with the tasks that are signalled in each state. -/
  | halts (states : List (List (Nat × Option WaitPlace)))
  deriving Repr

/-- The locks of it, with `pids_lock` held. -/
def GroupEnd.ops : GroupEnd → List LockOp
  | notifies parent =>
    parent.toList.flatMap fun (group, signal) => signal.sendSignal group
  | halts states =>
    states.flatMap fun tasks =>
      tasks.map (fun (group, waiting) => .wake group waiting) ++
        [.unlock .pids, .lock .pids]

/-- The calls, and the timer threads. -/
inductive LockCall where
  /-- `timer_thread` between two sleeps, with the signals of its callbacks. -/
  | expire (timer : TimerName) (signals : List SentSignal)
  | timerfdSettime (fd : FdId)
  | timerfdRead (fd : FdId)
  | timerSettime (group index : Nat)
  | timerDelete (group index : Nat)
  | setitimer (group : Nat)
  /-- `do_exit_group`, with what the threads of the group wait in. -/
  | exitGroup (group : Nat) (waiting : List (Option WaitPlace))
  /--
  `do_exit`, with the groups of the signalled children, and for the last thread
  of a group whether there is an `itimer` and what follows.
  -/
  | exit (group : Nat) (children : List (Nat × SentSignal))
      (last : Option (Bool × GroupEnd))

/-- The locks and unlocks of a call. -/
def LockCall.ops : LockCall → List LockOp
  | expire timer signals =>
    locked (.timer timer)
      (signals.flatMap fun signal => timerCallback signal timer)
  | timerfdSettime fd => locked (.fd fd) (locked (.timer (.timerfd fd)) [])
  | timerfdRead fd => locked (.fd fd) []
  | timerSettime group index | timerDelete group index =>
    locked (.group group) (locked (.ofGroup group (.posix index)) [])
  | setitimer group =>
    locked (.group group) (locked (.ofGroup group .itimer) [])
  | exitGroup group waiting =>
    locked .pids (locked (.group group) (waiting.map (.wake group)))
  | exit group children last =>
    locked (.group group) [] ++
      locked .pids
        (children.flatMap (fun (child, signal) => signal.sendSignal child) ++
          last.toList.flatMap fun (hasItimer, after) =>
            (if hasItimer then locked (.ofGroup group .itimer) [] else []) ++
              after.ops)

/-- The locks that a thread holds, the last one first, and what is left. -/
structure LockThread where
  held : List GuestLock
  ops : List LockOp

namespace LockThread

/-- The lock that a thread waits for or is about to take. -/
def wants (thread : LockThread) : Option GuestLock :=
  match thread.ops with
  | .lock lock :: _ => some lock
  | .wake group (some waiting) :: _ =>
    -- `mine`: the sender has the lock of the waiting task itself.
    if waiting.lock group ∈ thread.held then
      none
    else
      some (waiting.lock group)
  | _ => none

/-- The lock is taken. -/
def take (thread : LockThread) (lock : GuestLock) : LockThread where
  held := lock :: thread.held
  ops :=
    match thread.ops with
    | .wake _ _ :: rest => .unlock lock :: rest
    | ops => ops.tail

end LockThread

/-- All threads, and who holds which lock. -/
structure LockWorld where
  threads : HostThread → LockThread
  holder : GuestLock → Option HostThread

/-- Steps of one thread. -/
inductive LockStep where
  | begin (thread : HostThread) (call : LockCall)
  /-- A lock that is free is taken, by `lock` or by `trylock`. -/
  | lock (thread : HostThread)
  | unlock (thread : HostThread)
  /-- The task to wake does not wait, or the lock is held already. -/
  | woken (thread : HostThread)
  /-- `trylock` fails; the task may wait in something else by now. -/
  | retry (thread : HostThread) (waiting : Option WaitPlace)

/-- The thread that moves. -/
def LockStep.thread : LockStep → HostThread
  | begin thread _ | lock thread | unlock thread | woken thread
  | retry thread _ => thread

namespace LockWorld

/-- Nothing runs. -/
def idle : LockWorld where
  threads := fun _ => ⟨[], []⟩
  holder := fun _ => none

/-- Move one thread. -/
def move (world : LockWorld) (thread : HostThread) (next : LockThread) :
    LockWorld :=
  { world with threads := update world.threads thread next }

/-- One step. -/
def run (world : LockWorld) : LockStep → Option LockWorld
  | .begin thread call =>
    match (world.threads thread).ops with
    | [] => some (world.move thread ⟨[], call.ops⟩)
    | _ => none
  | .lock thread =>
    match (world.threads thread).wants with
    | some lock =>
      if world.holder lock = none then
        some
          { world.move thread ((world.threads thread).take lock) with
            holder := update world.holder lock (some thread) }
      else
        none
    | none => none
  | .unlock thread =>
    match (world.threads thread).ops with
    | .unlock lock :: rest =>
      some
        { world.move thread ⟨(world.threads thread).held.tail, rest⟩ with
          holder := update world.holder lock none }
    | _ => none
  | .woken thread =>
    match (world.threads thread).ops, (world.threads thread).wants with
    | .wake _ _ :: rest, none =>
      some (world.move thread ⟨(world.threads thread).held, rest⟩)
    | _, _ => none
  | .retry thread waiting =>
    match (world.threads thread).ops, (world.threads thread).wants with
    | .wake group _ :: rest, some lock =>
      if world.holder lock = none then
        none
      else
        some
          (world.move thread
            ⟨(world.threads thread).held, .wake group waiting :: rest⟩)
    | _, _ => none

/-- The lock that a thread of this world wants. -/
def wants (world : LockWorld) (thread : HostThread) : Option GuestLock :=
  (world.threads thread).wants

/-- A cycle of threads, each holding a lock that the next one waits for. -/
def Deadlocked (world : LockWorld) : Prop :=
  WaitGraph.Deadlocked world.wants world.holder

/-- Some thread holds the first lock and waits for the second. -/
def Waits (world : LockWorld) (holds wanted : GuestLock) : Prop :=
  ∃ thread,
    holds ∈ (world.threads thread).held ∧ world.wants thread = some wanted

/-- The callback of a timer waits for `pids_lock` or for the group. -/
def CallbackWaits (world : LockWorld) (group : Nat) (which : GroupTimer) :
    Prop :=
  world.Waits (.ofGroup group which) .pids ∨
    world.Waits (.ofGroup group which) (.group group)

/-- A call holds the group and waits for its timer. -/
def CallWaits (world : LockWorld) (group : Nat) (which : GroupTimer) : Prop :=
  world.Waits (.group group) (.ofGroup group which)

/-- A thread with `pids_lock` held waits for the group. -/
def Between (world : LockWorld) (group : Nat) : Prop :=
  world.Waits .pids (.group group)

/--
When a thread can come to wait for a lock without crossing the others.  The
callback of a `timerfd` and a `timerfd_settime` that holds the descriptor do not
wait for each other's lock, nor do the callback of an `itimer` and a `setitimer`;
the last thread of a group frees the `itimer` while its callback waits for
neither `pids_lock` nor the group.  While a thread with `pids_lock` waits for a
group, no timer of the group has a callback that waits for `pids_lock` or the
group, and a call with the group that waits for the timer.
-/
def Clear (world : LockWorld) (held : List GuestLock) : GuestLock → Prop
  | .fd fd =>
    .timer (.timerfd fd) ∈ held →
      ¬world.Waits (.fd fd) (.timer (.timerfd fd))
  | .timer (.timerfd fd) =>
    .fd fd ∈ held → ¬world.Waits (.timer (.timerfd fd)) (.fd fd)
  | .timer (.ofGroup group which) =>
    (.pids ∈ held → ¬world.CallbackWaits group which) ∧
      (.group group ∈ held →
        (which = .itimer → ¬world.Waits (.ofGroup group which) (.group group)) ∧
          (world.Between group → ¬world.CallbackWaits group which))
  | .group group =>
    (∀ which, .ofGroup group which ∈ held →
        ¬world.CallWaits group which ∧
          ¬world.Waits .pids (.ofGroup group which)) ∧
      (.pids ∈ held →
        ∀ which, world.CallWaits group which →
          ¬world.CallbackWaits group which)
  | .pids =>
    ∀ group which, .ofGroup group which ∈ held →
      ¬world.Waits .pids (.ofGroup group which) ∧
        (world.Between group → ¬world.CallWaits group which)

end LockWorld

/-- Any number of threads. -/
def timerLockMachine : Machine LockWorld LockStep where
  initial world := world = LockWorld.idle
  step world action next := world.run action = some next

/-- A step after which its thread waits for no lock by crossing another one. -/
def DoesNotCross (world : LockWorld) (step : LockStep) : Prop :=
  ∀ next lock,
    world.run step = some next → next.wants step.thread = some lock →
    world.Clear (next.threads step.thread).held lock

/-- The machine with these steps only. -/
def uncrossedMachine : Machine LockWorld LockStep :=
  timerLockMachine.restrict DoesNotCross

end GuestKernel
