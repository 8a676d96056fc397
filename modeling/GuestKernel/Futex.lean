import GuestKernel.Errno
import GuestKernel.KernelNumbers
import Mathlib.Logic.Function.Basic

namespace GuestKernel
open Function

/-!
# Futexes

`kernel/futex.c`: a futex is found by its address space and address in a hash
table, counts the references to it and queues its waiters.  Every operation
runs under `futex_lock`, which only a sleeping waiter gives up; a waiter that
has been woken is off the queue and keeps its reference until it runs again.

Pointers are numbers.  `none` is the use of freed memory or a failed
assertion.
-/

/-- The identity of an allocated `struct futex`. -/
abbrev FutexId := Nat

/-- `struct futex`; `mem` is the address of its `struct mem`. -/
structure Futex where
  refcount : Nat
  mem : Nat
  addr : Nat
  queue : List Pid
  deriving Repr, DecidableEq

/-- `struct futex_wait` of a waiter; `cond` is whether it was notified. -/
structure FutexWait where
  cond : Bool
  futex : FutexId
  bitset : Nat
  deriving Repr, DecidableEq

/-- All futexes, their hash buckets, and the waits on the tasks' stacks. -/
structure FutexTable where
  futexes : FutexId → Option Futex
  hash : Nat → List FutexId
  waits : Pid → Option FutexWait

/-- `FUTEX_REQUEUE_`. -/
abbrev futexRequeue : Nat := 3

/-- The bucket of a futex. -/
def futexHash (mem addr : Nat) : Nat :=
  (addr ^^^ mem) % 2 ^ 12

namespace FutexTable

/-- Write to a futex. -/
def modify
    (table : FutexTable)
    (id : FutexId)
    (change : Futex → Futex) : FutexTable :=
  { table with
    futexes := fun other =>
      (table.futexes other).map fun futex =>
        if other = id then change futex else futex }

/-- `list_remove` on the queue link of a wait, in whichever queue it is. -/
def unlink (table : FutexTable) (task : Pid) : FutexTable :=
  { table with
    futexes := fun id =>
      (table.futexes id).map fun futex =>
        { futex with queue := futex.queue.erase task } }

/-- Write the wait of a task. -/
def setWait
    (table : FutexTable)
    (task : Pid)
    (wait : Option FutexWait) : FutexTable :=
  { table with waits := update table.waits task wait }

/-- `list_add_tail` on the queue of a futex. -/
def enqueue (table : FutexTable) (id : FutexId) (task : Pid) : FutexTable :=
  table.modify id fun futex => { futex with queue := futex.queue ++ [task] }

/-- Add one to the reference count of a futex. -/
def retain (table : FutexTable) (id : FutexId) : FutexTable :=
  table.modify id fun futex =>
    { futex with refcount := incremented futex.refcount }

/-- Take one from the reference count of a futex. -/
def unretain (table : FutexTable) (id : FutexId) : FutexTable :=
  table.modify id fun futex =>
    { futex with refcount := decremented futex.refcount }

/-- `list_remove` from the hash chain and `free`. -/
def free (table : FutexTable) (id : FutexId) (futex : Futex) : FutexTable :=
  let bucket := futexHash futex.mem futex.addr
  { table with
    futexes := update table.futexes id none
    hash := update table.hash bucket
      ((table.hash bucket).erase id) }

/-- The futex the search in a bucket compares with. -/
def isAt (table : FutexTable) (mem addr : Nat) (id : FutexId) : Bool :=
  (table.futexes id).any fun futex => futex.addr = addr ∧ futex.mem = mem

/-- `futex_get_unlocked`; `allocated` is what `malloc` returns. -/
def getUnlocked
    (table : FutexTable)
    (mem addr : Nat)
    (allocated : Option FutexId) : FutexTable × Option FutexId :=
  let bucket := futexHash mem addr
  match (table.hash bucket).find? (table.isAt mem addr) with
  | some id => (table.retain id, some id)
  | none =>
    match allocated with
    | none => (table, none)
    | some id =>
      ({ table with
        futexes := update table.futexes id
          (some { refcount := 1, mem := mem, addr := addr, queue := [] })
        hash := update table.hash bucket
          (id :: table.hash bucket) },
        some id)

/-- `futex_put_unlocked`. -/
def putUnlocked (table : FutexTable) (id : FutexId) : Option FutexTable := do
  let futex ← table.futexes id
  if decremented futex.refcount = 0 then
    if futex.queue = [] then
      pure (table.free id futex)
    else
      none
  else
    pure (table.unretain id)

/-- What a futex call does: it returns, or its task sleeps in it. -/
inductive CallResult where
  | returns (value : Except Errno Nat)
  | sleeps

/--
`futex_wait` up to `wait_for`; `loaded` is what `futex_load` reads at the
address, `none` for a fault.
-/
def waitStart
    (table : FutexTable)
    (task : Pid)
    (mem addr : Nat)
    (loaded : Option Nat)
    (val bitset : Nat)
    (allocated : Option FutexId) : Option (FutexTable × CallResult) :=
  match table.getUnlocked mem addr allocated with
  | (table, none) => some (table, .returns (.error .nomem))
  | (table, some id) => do
      match loaded with
      | none =>
        pure (← table.putUnlocked id, .returns (.error .fault))
      | some word =>
        if word ≠ val then
          pure (← table.putUnlocked id, .returns (.error .again))
        else
          let wait := { cond := false, futex := id, bitset := bitset }
          pure ((table.setWait task (some wait)).enqueue id task, .sleeps)

/--
`futex_wait` from the return of `wait_for` on, whether the wait was woken,
timed out or was interrupted.
-/
def waitFinish (table : FutexTable) (task : Pid) : Option FutexTable := do
  let wait ← table.waits task
  ((table.unlink task).setWait task none).putUnlocked wait.futex

/-- `notify` and `list_remove` of one waiter. -/
def wakeWaiter
    (table : FutexTable) (task : Pid) (wait : FutexWait) : FutexTable :=
  (table.setWait task (some { wait with cond := true })).unlink task

/-- The first loop of `futex_wakelike`, from an item of the queue on. -/
def wakeLoop
    (wakeMax bitset : Nat) :
    List Pid → Nat → FutexTable → Option (FutexTable × Nat)
  | [], woken, table => some (table, woken)
  | task :: rest, woken, table =>
    if wakeMax ≤ woken then
      some (table, woken)
    else do
      let wait ← table.waits task
      if wait.bitset &&& bitset = 0 then
        wakeLoop wakeMax bitset rest woken table
      else
        wakeLoop wakeMax bitset rest (woken + 1)
          (table.wakeWaiter task wait)

/-- The item after this one in a queue; `none` is the head of the list. -/
def nextInQueue (queue : List Pid) (task : Pid) : Option Pid :=
  (queue.dropWhile (· ≠ task)).tail.head?

/-- One round of the requeue loop: move a waiter and its reference. -/
def requeueWaiter
    (table : FutexTable)
    (futex futex2 : FutexId)
    (task : Pid) : Option FutexTable := do
  let wait ← table.waits task
  let moved := (table.unlink task).enqueue futex2 task
  -- this operation keeps a reference of its own
  if (← moved.futexes futex).refcount ≤ 1 then
    none
  else
    pure (((moved.unretain futex).retain futex2).setWait task
      (some { wait with futex := futex2 }))

/--
The requeue loop of `futex_wakelike`, with as many rounds left as `requeue_max`
allows.  The next item is read before this one is moved.
-/
def requeueLoop
    (futex futex2 : FutexId) :
    Nat → Option Pid → Nat → FutexTable → Option (FutexTable × Nat)
  | 0, _, requeued, table => some (table, requeued)
  | _ + 1, none, requeued, table => some (table, requeued)
  | rounds + 1, some task, requeued, table => do
      let queue := (← table.futexes futex).queue
      let tmp := nextInQueue queue task
      requeueLoop futex futex2 rounds tmp (requeued + 1)
        (← table.requeueWaiter futex futex2 task)

/-- `futex_wakelike`; the two allocations are those of the two futexes. -/
def wakelike
    (table : FutexTable)
    (op mem addr wakeMax requeueMax requeueAddr bitset : Nat)
    (allocated allocated2 : Option FutexId) :
    Option (FutexTable × Except Errno Nat) :=
  match table.getUnlocked mem addr allocated with
  | (table, none) => some (table, .error .nomem)
  | (table, some futex) => do
      let queue := (← table.futexes futex).queue
      let (table, woken) ← wakeLoop wakeMax bitset queue 0 table
      if op = futexRequeue then
        match table.getUnlocked mem requeueAddr allocated2 with
        | (table, none) =>
          pure (← table.putUnlocked futex, .error .nomem)
        | (table, some futex2) =>
          let queue := (← table.futexes futex).queue
          let (table, requeued) ←
            requeueLoop futex futex2 requeueMax queue.head? 0 table
          let table ← table.putUnlocked futex2
          pure (← table.putUnlocked futex,
            .ok ((woken + requeued) % dwordRange))
      else
        pure (← table.putUnlocked futex, .ok woken)

end FutexTable

end GuestKernel
