import GuestKernel.Errno
import GuestKernel.Machine
import Mathlib.Algebra.BigOperators.Group.List.Basic
import Mathlib.Algebra.GroupWithZero.Nat

namespace GuestKernel
open List Function

/-!
# Event counters

The `eventfd` of `kernel/eventfd.c`.  The counter is read and written with
`fd->lock` held, and `wait_for` gives the lock up, so a call is a sequence of
passes of its wait loop.  A condition variable may wake a sleeper at any time;
`notify` is one reason for it, and the loop tests its condition again.
-/

/-- A call on an event counter; `buf` of a write holds the increment. -/
inductive EventCall where
  | read (bufsize : Nat)
  | write (bufsize : Nat) (increment : BitVec 64)
  deriving Repr, DecidableEq

/-- What one pass of a wait loop ends in. -/
inductive EventOutcome where
  | sleeps
  | failed (code : Errno)
  | readValue (value : BitVec 64)
  | wrote (increment : BitVec 64)
  deriving Repr, DecidableEq

/-- `UINT64_MAX`. -/
abbrev uint64Max : BitVec 64 := BitVec.allOnes 64

/-- The checks that a call makes before it takes the lock. -/
def EventCall.check : EventCall → Option Errno
  | read bufsize => if bufsize < 8 then some .inval else none
  | write bufsize increment =>
    if bufsize < 8 then some .inval
    else if increment = uint64Max then some .inval
    else none

/-- The loop of `eventfd_read`, from one test of the counter to the next. -/
def eventfdRead
    (val : BitVec 64) (nonblock pending : Bool) : EventOutcome × BitVec 64 :=
  if val = 0 then
    if nonblock then (.failed .again, val)
    else if pending then (.failed .intr, val)
    else (.sleeps, val)
  else
    (.readValue val, 0)

/-- The loop of `eventfd_write`, from one test of the counter to the next. -/
def eventfdWrite
    (val increment : BitVec 64)
    (nonblock pending : Bool) : EventOutcome × BitVec 64 :=
  if uint64Max - increment ≤ val then
    if nonblock then (.failed .again, val)
    else if pending then (.failed .intr, val)
    else (.sleeps, val)
  else
    (.wrote increment, val + increment)

/-- One pass of the loop of a call. -/
def EventCall.pass
    (call : EventCall)
    (val : BitVec 64)
    (nonblock pending : Bool) : EventOutcome × BitVec 64 :=
  match call with
  | read _ => eventfdRead val nonblock pending
  | write _ increment => eventfdWrite val increment nonblock pending

/-- One counter, the tasks inside a call, and what the calls returned. -/
structure EventWorld where
  initval : BitVec 32
  val : BitVec 64
  sleepers : Nat → Option EventCall
  returns : List (Nat × EventOutcome)

/--
Steps of tasks: a call starts, or a sleeping one wakes.  `interrupted` is the
signal test of `wait_for` after its sleep, `pending` the one before the next.
-/
inductive EventStep where
  | start (task : Nat) (call : EventCall) (nonblock pending : Bool)
  | wake (task : Nat) (interrupted nonblock pending : Bool)

namespace EventWorld

/-- `sys_eventfd2`. -/
def create (initval : BitVec 32) : EventWorld where
  initval := initval
  val := initval.setWidth 64
  sleepers := fun _ => none
  returns := []

/-- The outcome of a pass: the task sleeps on, or its call returns. -/
def finish
    (world : EventWorld)
    (task : Nat)
    (call : EventCall)
    (outcome : EventOutcome × BitVec 64) : EventWorld :=
  match outcome.1 with
  | .sleeps =>
    { world with
      val := outcome.2
      sleepers := update world.sleepers task (some call) }
  | _ =>
    { world with
      val := outcome.2
      sleepers := update world.sleepers task none
      returns := (task, outcome.1) :: world.returns }

/-- One step of a task. -/
def run (world : EventWorld) : EventStep → Option EventWorld
  | .start task call nonblock pending =>
    match world.sleepers task with
    | some _ => none
    | none =>
      match call.check with
      | some code =>
        some (world.finish task call (.failed code, world.val))
      | none =>
        some (world.finish task call
          (call.pass world.val nonblock pending))
  | .wake task interrupted nonblock pending =>
    match world.sleepers task with
    | none => none
    | some call =>
      if interrupted then
        some (world.finish task call (.failed .intr, world.val))
      else
        some (world.finish task call
          (call.pass world.val nonblock pending))

end EventWorld

/-- All tasks that use one event counter. -/
def eventMachine : Machine EventWorld EventStep where
  initial world := ∃ initval, world = EventWorld.create initval
  step world action next := world.run action = some next

namespace EventOutcome

/-- What a call put into the counter. -/
def added : EventOutcome → Nat
  | wrote increment => increment.toNat
  | _ => 0

/-- What a call took out of the counter. -/
def taken : EventOutcome → Nat
  | readValue value => value.toNat
  | _ => 0

/-- A successful return. -/
def succeeded : EventOutcome → Bool
  | readValue _ => true
  | wrote _ => true
  | _ => false

end EventOutcome

/-- The increments of the writes that returned success. -/
def EventWorld.added (world : EventWorld) : Nat :=
  (world.returns.map fun entry => entry.2.added).sum

/-- The values that the successful reads returned. -/
def EventWorld.taken (world : EventWorld) : Nat :=
  (world.returns.map fun entry => entry.2.taken).sum

/-- What a pass does to a counter below its bound. -/
structure EventPass (val : BitVec 64) (outcome : EventOutcome × BitVec 64) :
    Prop where
  conserved :
    outcome.2.toNat + outcome.1.taken = val.toNat + outcome.1.added
  bounded : outcome.2.toNat ≤ 2 ^ 64 - 2
  unchanged : outcome.1.succeeded = false → outcome.2 = val

namespace EventPass

variable {val increment : BitVec 64} {nonblock pending : Bool}

theorem of_unchanged
    {outcome : EventOutcome}
    (bounded : val.toNat ≤ 2 ^ 64 - 2)
    (fails : outcome.succeeded = false) :
    EventPass val (outcome, val) where
  conserved := by
    cases outcome with
    | sleeps => rfl
    | failed code => rfl
    | readValue value => cases fails
    | wrote increment => cases fails
  bounded := bounded
  unchanged _ := rfl

theorem read
    (bounded : val.toNat ≤ 2 ^ 64 - 2) :
    EventPass val (eventfdRead val nonblock pending) := by
  unfold eventfdRead
  split
  · split
    · exact of_unchanged bounded rfl
    · split
      · exact of_unchanged bounded rfl
      · exact of_unchanged bounded rfl
  · exact {
      conserved := Nat.add_comm _ _
      bounded := Nat.zero_le _
      unchanged := fun fails => by cases fails }

theorem sum_lt_max
    (fits : ¬uint64Max - increment ≤ val) :
    val.toNat + increment.toNat < 2 ^ 64 - 1 := by
  have below := increment.isLt
  have atMost : increment ≤ uint64Max := by
    rw [BitVec.le_def, BitVec.toNat_allOnes]
    exact Nat.le_sub_one_of_lt below
  rw [BitVec.le_def, BitVec.toNat_sub_of_le atMost,
    BitVec.toNat_allOnes] at fits
  omega

/-- A pass of `eventfd_write` adds the increment. -/
theorem write
    (bounded : val.toNat ≤ 2 ^ 64 - 2) :
    EventPass val (eventfdWrite val increment nonblock pending) := by
  unfold eventfdWrite
  split
  · split
    · exact of_unchanged bounded rfl
    · split
      · exact of_unchanged bounded rfl
      · exact of_unchanged bounded rfl
  case isFalse fits =>
    have below := sum_lt_max fits
    have sum : (val + increment).toNat = val.toNat + increment.toNat := by
      rw [BitVec.toNat_add]
      exact Nat.mod_eq_of_lt (by omega)
    exact {
      conserved := sum
      bounded := by
        rw [sum]
        exact Nat.le_sub_one_of_lt below
      unchanged := fun fails => by cases fails }

theorem of_call
    {call : EventCall}
    (bounded : val.toNat ≤ 2 ^ 64 - 2) :
    EventPass val (call.pass val nonblock pending) := by
  cases call with
  | read bufsize => exact read bounded
  | write bufsize increment => exact write bounded

end EventPass

/-- The counter holds what was put in and not taken out. -/
structure EventConserved (world : EventWorld) : Prop where
  conserved :
    world.val.toNat + world.taken = world.initval.toNat + world.added
  bounded : world.val.toNat ≤ 2 ^ 64 - 2

theorem EventConserved.create
    (initval : BitVec 32) :
    EventConserved (EventWorld.create initval) := by
  have same : (initval.setWidth 64).toNat = initval.toNat := by
    rw [BitVec.toNat_setWidth]
    exact Nat.mod_eq_of_lt (by omega)
  exact {
    conserved := congrArg (· + 0) same
    bounded := by
      have below := initval.isLt
      rw [EventWorld.create, same]
      omega }

/-- The end of a pass keeps the balance. -/
theorem EventConserved.finish
    {world : EventWorld}
    {task : Nat}
    {call : EventCall}
    {outcome : EventOutcome × BitVec 64}
    (conserved : EventConserved world)
    (pass : EventPass world.val outcome) :
    EventConserved (world.finish task call outcome) := by
  have balance := conserved.conserved
  have moved := pass.conserved
  obtain ⟨result, val⟩ := outcome
  cases result with
  | sleeps =>
    exact {
      conserved := (congrArg (· + world.taken) moved).trans balance
      bounded := pass.bounded }
  | failed code | readValue value | wrote increment =>
    refine ⟨?_, pass.bounded⟩
    simp only [EventWorld.finish, EventWorld.taken, EventWorld.added,
      map_cons, sum_cons] at balance moved ⊢
    omega

namespace EventWorld

variable {world : EventWorld}

/-- A step is the end of one pass of one task. -/
theorem run_cases
    {next : EventWorld}
    {action : EventStep}
    (bounded : world.val.toNat ≤ 2 ^ 64 - 2)
    (step : world.run action = some next) :
    ∃ task call outcome,
      EventPass world.val outcome ∧ next = world.finish task call outcome := by
  have unchanged : ∀ code, EventPass world.val (.failed code, world.val) :=
    fun _ => .of_unchanged bounded rfl
  cases action with
  | start task call nonblock pending =>
    simp only [run] at step
    split at step
    · cases step
    · split at step
      · cases step
        exact ⟨task, call, _, unchanged _, rfl⟩
      · cases step
        exact ⟨task, call, _, .of_call bounded, rfl⟩
  | wake task interrupted nonblock pending =>
    simp only [run] at step
    split at step
    · cases step
    case h_2 call _ =>
      split at step
      · cases step
        exact ⟨task, call, _, unchanged _, rfl⟩
      · cases step
        exact ⟨task, call, _, .of_call bounded, rfl⟩

theorem conserved_of_reachable
    (reachable : eventMachine.Reachable world) :
    EventConserved world := by
  refine reachable.invariant ?_ ?_
  · rintro state ⟨initval, rfl⟩
    exact .create initval
  · intro state action next conserved step
    obtain ⟨task, call, outcome, pass, rfl⟩ :=
      run_cases conserved.bounded step
    exact conserved.finish pass

/--
In every state that any number of tasks reach, the counter is the initial value
plus the increments of the successful writes minus the values of the successful
reads, and at most `2 ^ 64 - 2`; a step whose call does not return success,
because it sleeps on or returns an error, leaves the counter.
-/
theorem counter_is_conserved
    {world : EventWorld}
    (reachable : eventMachine.Reachable world) :
    world.val.toNat + world.taken = world.initval.toNat + world.added ∧
      world.val.toNat ≤ 2 ^ 64 - 2 ∧
      ∀ action next,
        eventMachine.step world action next →
        (∃ task outcome,
          outcome.succeeded = true ∧
            next.returns = (task, outcome) :: world.returns) ∨
          next.val = world.val := by
  have conserved := conserved_of_reachable reachable
  refine ⟨conserved.conserved, conserved.bounded, ?_⟩
  intro action next step
  obtain ⟨task, call, ⟨result, val⟩, pass, rfl⟩ :=
    run_cases conserved.bounded step
  cases result with
  | sleeps | failed code => exact .inr (pass.unchanged rfl)
  | readValue value | wrote increment => exact .inl ⟨task, _, rfl, rfl⟩

/-- A blocked reader returns the increment of a later write. -/
theorem blocked_read_returns_increment :
    ∃ world,
      eventMachine.Reachable world ∧
        world.returns =
          [(2, .readValue 5), (3, .wrote 5), (1, .readValue 3)] ∧
        world.val.toNat + world.taken = world.initval.toNat + world.added := by
  have created : eventMachine.Reachable (create 3) := .initial ⟨3, rfl⟩
  have first :=
    created.step (a := EventStep.start 1 (.read 8) false false) rfl
  have blocked :=
    first.step (a := EventStep.start 2 (.read 8) false false) rfl
  have written :=
    blocked.step (a := EventStep.start 3 (.write 8 5) false false) rfl
  have woken := written.step (a := EventStep.wake 2 false false false) rfl
  exact ⟨_, woken, rfl, (counter_is_conserved woken).1⟩

end EventWorld

end GuestKernel
