import GuestKernel.KernelNumbers
import GuestKernel.Machine
import Mathlib.Data.List.FinRange
import Mathlib.Logic.Function.Basic

namespace GuestKernel
open Function

/-!
# Timers and their owners

`util/timer.c`, the timers of `kernel/time.c`, and what `tgroup_copy`,
`exit_tgroup` and `reap_if_zombie` do with the timers of a thread group.

The callback of a timer runs with the lock of the timer held, so `timer_set` and
`timer_free` wait while it runs.  Time is not modelled: an armed timer may expire
at any moment.
-/

/-- One `struct timer` that was allocated. -/
abbrev TimerId := Nat

/-- One `struct tgroup` that was allocated. -/
abbrev GroupId := Nat

/-- The number of timers that `timer_create` gives to one group. -/
def timersMax : Nat := 16

/-- One `struct timer`. -/
structure Timer where
  /-- The group that made it; none for a `timerfd`. -/
  creator : Option GroupId
  active : Bool := false
  /-- `interval` is positive. -/
  periodic : Bool := false
  threadRunning : Bool := false
  /-- The thread is in `callback`, with the lock held. -/
  inCallback : Bool := false
  dead : Bool := false
  /-- Who called `timer_free`. -/
  releases : List (Option GroupId) := []
  /-- How often the memory was given to `free`. -/
  frees : Nat := 0
  deriving Repr, DecidableEq

namespace Timer

/-- `timer_free`. -/
def free (timer : Timer) (caller : Option GroupId) : Timer :=
  let stopped :=
    { timer with active := false, releases := caller :: timer.releases }
  if timer.threadRunning then
    { stopped with dead := true }
  else
    { stopped with frees := timer.frees + 1 }

/-- `timer_set` with a value that is not zero, or zero. -/
def set (timer : Timer) (starts periodic : Bool) : Timer :=
  { timer with
    active := starts
    periodic := periodic
    threadRunning := timer.threadRunning || starts }

/-- The end of `timer_thread`. -/
def threadEnds (timer : Timer) : Timer :=
  { timer with
    threadRunning := false
    inCallback := false
    frees := if timer.dead then timer.frees + 1 else timer.frees }

/-- `timer_thread` after the callback. -/
def callbackReturns (timer : Timer) : Timer :=
  if timer.active && timer.periodic then
    { timer with inCallback := false }
  else
    timer.threadEnds

end Timer

/-- The timers of one `struct tgroup`, and how many threads it has. -/
structure TimerGroup where
  threads : Nat
  itimer : Option TimerId
  posixTimers : Fin timersMax → Option TimerId

/-- The first free slot of `posix_timers`. -/
def TimerGroup.freeSlot (group : TimerGroup) : Option (Fin timersMax) :=
  (List.finRange timersMax).find? fun index => (group.posixTimers index).isNone

/-- A place that owns a timer. -/
inductive TimerSlot where
  | itimer (group : GroupId)
  | posix (group : GroupId) (index : Fin timersMax)
  | timerfd (fd : FdId)
  deriving DecidableEq

/-- The group that a slot belongs to. -/
def TimerSlot.group : TimerSlot → Option GroupId
  | itimer group => some group
  | posix group _ => some group
  | timerfd _ => none

/-- All timers, thread groups and timer descriptors. -/
structure TimerWorld where
  timers : TimerId → Timer
  nextTimer : TimerId
  groups : GroupId → Option TimerGroup
  nextGroup : GroupId
  timerfds : FdId → Option TimerId
  nextFd : FdId
  /-- `posix_timers` was indexed past its end. -/
  wild : Bool

/-- The calls of the guest and the steps of the timer threads. -/
inductive TimerStep where
  /-- `clone` without `CLONE_THREAD`. -/
  | fork (group : GroupId)
  /-- `clone` with `CLONE_THREAD`. -/
  | cloneThread (group : GroupId)
  /-- `exit_tgroup` of one thread. -/
  | exit (group : GroupId)
  /-- `reap_if_zombie`. -/
  | reap (group : GroupId)
  /-- `setitimer` and `alarm`. -/
  | setitimer (group : GroupId) (isReal starts periodic : Bool)
  | timerCreate (group : GroupId) (writable : Bool)
  | timerSettime (group : GroupId) (timerId : Nat) (starts periodic : Bool)
  | timerDelete (group : GroupId) (timerId : Nat)
  | timerfdCreate
  | timerfdSettime (fd : FdId) (starts periodic : Bool)
  | timerfdClose (fd : FdId)
  /-- The thread finds the timer expired and calls back. -/
  | callback (timer : TimerId)
  | callbackReturns (timer : TimerId)
  /-- The thread finds the timer disarmed. -/
  | threadStops (timer : TimerId)

namespace TimerWorld

/-- Only the group of the first process. -/
def init : TimerWorld where
  timers := fun _ => { creator := none }
  nextTimer := 0
  groups := fun group => if group = 0 then some ⟨1, none, fun _ => none⟩ else none
  nextGroup := 1
  timerfds := fun _ => none
  nextFd := 0
  wild := false

/--
What a slot holds.  A group without threads keeps the address of its `itimer`,
but only its threads ever look at it.
-/
def slots (world : TimerWorld) : TimerSlot → Option TimerId
  | .itimer group =>
    match world.groups group with
    | some state => if 0 < state.threads then state.itimer else none
    | none => none
  | .posix group index =>
    match world.groups group with
    | some state => state.posixTimers index
    | none => none
  | .timerfd fd => world.timerfds fd

/-- Change one timer. -/
def setTimer (world : TimerWorld) (timer : TimerId) (state : Timer) :
    TimerWorld :=
  { world with timers := update world.timers timer state }

/-- Change one group. -/
def setGroup (world : TimerWorld) (group : GroupId) (state : TimerGroup) :
    TimerWorld :=
  { world with groups := update world.groups group (some state) }

/-- `timer_new`; the new timer is `nextTimer`. -/
def timerNew (world : TimerWorld) (creator : Option GroupId) : TimerWorld :=
  { world with
    timers :=
      update world.timers world.nextTimer { creator := creator }
    nextTimer := world.nextTimer + 1 }

/-- `timer_free`, once the lock of the timer is free. -/
def timerFree (world : TimerWorld) (timer : TimerId) (caller : Option GroupId) :
    Option TimerWorld :=
  if (world.timers timer).inCallback then
    none
  else
    some (world.setTimer timer ((world.timers timer).free caller))

/-- `timer_set`, once the lock of the timer is free. -/
def timerSet (world : TimerWorld) (timer : TimerId) (starts periodic : Bool) :
    Option TimerWorld :=
  if (world.timers timer).inCallback then
    none
  else
    some (world.setTimer timer ((world.timers timer).set starts periodic))

/-- The group of a running thread. -/
def liveGroup (world : TimerWorld) (group : GroupId) : Option TimerGroup :=
  (world.groups group).filter fun state => 0 < state.threads

/-- `tgroup_copy`: the slots of `posix_timers` are copied with the rest. -/
def fork (world : TimerWorld) (state : TimerGroup) : TimerWorld :=
  { world.setGroup world.nextGroup
      { state with threads := 1, itimer := none } with
    nextGroup := world.nextGroup + 1 }

/-- `exit_tgroup`. -/
def exitTgroup (world : TimerWorld) (group : GroupId) (state : TimerGroup) :
    Option TimerWorld :=
  let left := world.setGroup group { state with threads := state.threads - 1 }
  match state.threads, state.itimer with
  | 1, some timer => left.timerFree timer (some group)
  | _, _ => some left

/-- `itimer_set` for `ITIMER_REAL_`. -/
def itimerSet (world : TimerWorld) (group : GroupId) (state : TimerGroup)
    (starts periodic : Bool) : Option TimerWorld :=
  match state.itimer with
  | some timer => world.timerSet timer starts periodic
  | none =>
    ((world.timerNew (some group)).setGroup group
      { state with itimer := some world.nextTimer }).timerSet
        world.nextTimer starts periodic

/-- `sys_timer_create`. -/
def timerCreate (world : TimerWorld) (group : GroupId) (state : TimerGroup)
    (writable : Bool) : TimerWorld :=
  match state.freeSlot with
  | none => world
  | some index =>
    if writable then
      (world.timerNew (some group)).setGroup group
        { state with
          posixTimers :=
            update state.posixTimers index (some world.nextTimer) }
    else
      world

/-- `sys_timer_settime`; `none` where it follows a NULL timer. -/
def timerSettime (world : TimerWorld) (state : TimerGroup)
    (timerId : Nat) (starts periodic : Bool) : Option TimerWorld :=
  if timersMax < timerId then
    some world
  else if inArray : timerId < timersMax then
    match state.posixTimers ⟨timerId, inArray⟩ with
    | some timer => world.timerSet timer starts periodic
    | none => none
  else
    some { world with wild := true }

/-- `sys_timer_delete`, which does not check its index. -/
def timerDelete (world : TimerWorld) (group : GroupId) (state : TimerGroup)
    (timerId : Nat) : Option TimerWorld :=
  if inArray : timerId < timersMax then
    match state.posixTimers ⟨timerId, inArray⟩ with
    | some timer =>
      (world.setGroup group
        { state with
          posixTimers :=
            update state.posixTimers ⟨timerId, inArray⟩ none
        }).timerFree timer (some group)
    | none => some world
  else
    some { world with wild := true }

/-- One step. -/
def run (world : TimerWorld) : TimerStep → Option TimerWorld
  | .fork group => (world.liveGroup group).map world.fork
  | .cloneThread group =>
    (world.liveGroup group).map fun state =>
      world.setGroup group { state with threads := state.threads + 1 }
  | .exit group => (world.liveGroup group).bind (world.exitTgroup group)
  | .reap group =>
    match world.groups group with
    | some state =>
      if state.threads = 0 then
        some
          { world with
            groups := update world.groups group none }
      else
        none
    | none => none
  | .setitimer group isReal starts periodic =>
    (world.liveGroup group).bind fun state =>
      if isReal then
        world.itimerSet group state starts periodic
      else
        some world
  | .timerCreate group writable =>
    (world.liveGroup group).map fun state =>
      world.timerCreate group state writable
  | .timerSettime group timerId starts periodic =>
    (world.liveGroup group).bind fun state =>
      world.timerSettime state timerId starts periodic
  | .timerDelete group timerId =>
    (world.liveGroup group).bind fun state =>
      world.timerDelete group state timerId
  | .timerfdCreate =>
    some
      { world.timerNew none with
        timerfds :=
          update world.timerfds world.nextFd (some world.nextTimer)
        nextFd := world.nextFd + 1 }
  | .timerfdSettime fd starts periodic =>
    (world.timerfds fd).bind fun timer =>
      world.timerSet timer starts periodic
  | .timerfdClose fd =>
    (world.timerfds fd).bind fun timer =>
      { world with
        timerfds := update world.timerfds fd none }.timerFree
          timer none
  | .callback timer =>
    let state := world.timers timer
    if state.threadRunning && !state.inCallback && state.active then
      some (world.setTimer timer { state with inCallback := true })
    else
      none
  | .callbackReturns timer =>
    let state := world.timers timer
    if state.inCallback then
      some (world.setTimer timer state.callbackReturns)
    else
      none
  | .threadStops timer =>
    let state := world.timers timer
    if state.threadRunning && !state.inCallback && !state.active then
      some (world.setTimer timer state.threadEnds)
    else
      none

end TimerWorld

/-- The timers of a guest. -/
def timerMachine : Machine TimerWorld TimerStep where
  initial world := world = TimerWorld.init
  step world action next := world.run action = some next

/--
The steps that keep every timer with its owner: no process forks while it has
timers of `timer_create`, none is reaped before they are deleted, and the
numbers given to `timer_settime` and `timer_delete` are below `TIMERS_MAX` (or
refused by the check).
-/
def KeepsTimers (world : TimerWorld) : TimerStep → Prop
  | .fork group | .reap group =>
    ∀ index, world.slots (.posix group index) = none
  | .timerSettime _ timerId _ _ => timerId ≠ timersMax
  | .timerDelete _ timerId => timerId < timersMax
  | _ => True

/-- The machine with these steps only. -/
def keptTimerMachine : Machine TimerWorld TimerStep :=
  timerMachine.restrict KeepsTimers

/--
The law of timers.  A timer that was not freed is in exactly one slot; it is
freed once, by the group that made it, and its memory goes then or when its
thread ends; and once freed it does not call back.
-/
structure TimerLaw (world : TimerWorld) : Prop where
  owned :
    ∀ timer,
      timer < world.nextTimer → (world.timers timer).releases = [] →
      (world.timers timer).frees = 0 ∧
        ∃! slot, world.slots slot = some timer
  own :
    ∀ slot timer,
      world.slots slot = some timer →
      (world.timers timer).creator = slot.group ∧
        (world.timers timer).releases = []
  once :
    ∀ timer,
      (world.timers timer).releases ≠ [] →
      (world.timers timer).releases = [(world.timers timer).creator] ∧
        ((world.timers timer).frees = 1 ∨
          (world.timers timer).frees = 0 ∧
            (world.timers timer).dead = true ∧
            (world.timers timer).threadRunning = true)
  quiet :
    ∀ timer,
      (world.timers timer).releases ≠ [] →
      (world.timers timer).inCallback = false ∧
        world.run (.callback timer) = none
  inArray : world.wild = false

end GuestKernel
