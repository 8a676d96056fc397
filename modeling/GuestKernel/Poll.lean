import GuestKernel.Errno
import GuestKernel.KernelNumbers
import GuestKernel.Machine
import Mathlib.Logic.Function.Basic

namespace GuestKernel
open Function

/-!
# Polling

`fs/poll.c` on one `struct poll`: the registered files, the loop that looks at
them, the wait in the host outside of the lock, the notify pipe, and the wakeups
of the files.  A critical section of `poll->lock` is one step.

The world also remembers, newest first, what was armed, reported, told and
notified.  No code reads it.
-/

/-- `POLL_ERR`. -/
def pollErr : BitVec 32 := 8#32

/-- `POLL_HUP`. -/
def pollHup : BitVec 32 := 16#32

/-- `POLL_ONESHOT`. -/
def pollOneshot : BitVec 32 := 0x40000000#32

/-- `POLL_EDGETRIGGERED`. -/
def pollEdgetriggered : BitVec 32 := 0x80000000#32

/--
`struct poll_fd`.  The slot stands for its address, which a free list hands out
again; the serial number tells apart what was registered there.
-/
structure PollFd where
  slot : Nat
  serial : Nat
  fd : FdId
  types : BitVec 32
  info : BitVec 64
  triggeredTypes : BitVec 32
  disabled : Bool
  deriving Repr, DecidableEq

namespace PollFd

/-- `poll_fd->types & POLL_EDGETRIGGERED`. -/
def isEdgeTriggered (pollFd : PollFd) : Bool :=
  pollFd.types &&& pollEdgetriggered != 0#32

/-- `poll_fd->types & POLL_ONESHOT`. -/
def isOneshot (pollFd : PollFd) : Bool :=
  pollFd.types &&& pollOneshot != 0#32

/-- `poll_types`, from what the file's `poll` returned. -/
def pollTypes (pollFd : PollFd) (ready : BitVec 32) : BitVec 32 :=
  let types := ready &&& (pollFd.types ||| pollHup ||| pollErr)
  if pollFd.isEdgeTriggered then
    types &&& ~~~pollFd.triggeredTypes
  else
    types

/-- What the loop does to a registration that the callback took. -/
def taken (pollFd : PollFd) (types : BitVec 32) : PollFd :=
  { pollFd with
    disabled := pollFd.disabled || pollFd.isOneshot
    triggeredTypes :=
      if pollFd.isEdgeTriggered then
        pollFd.triggeredTypes ||| types
      else
        pollFd.triggeredTypes }

/-- Clear bits of an edge-triggered registration. -/
def untrigger (pollFd : PollFd) (events : BitVec 32) : PollFd :=
  if pollFd.isEdgeTriggered then
    { pollFd with triggeredTypes := pollFd.triggeredTypes &&& ~~~events }
  else
    pollFd

end PollFd

/-- What happened to a registration. -/
inductive PollNote where
  | armed (serial : Nat)
  | reported (serial : Nat) (events types : BitVec 32)
  | told (serial : Nat) (events : BitVec 32)
  | notified (serial : Nat) (events : BitVec 32)
  deriving Repr, DecidableEq

/--
One `struct real_poll_event`: nothing for the notify pipe, else the slot in its
data pointer and the serial number of the registration it came for.
-/
structure HostEvent where
  source : Option (Nat × Nat)
  events : BitVec 32
  deriving Repr, DecidableEq

/-- What `real_poll_wait` returned. -/
inductive HostResult where
  | failed
  | timedOut
  | events (list : List HostEvent)
  deriving Repr, DecidableEq

/-- Where a thread is, outside of `poll->lock`. -/
inductive PollThread where
  | out
  | waiting (room : Nat)
  | returned (room : Nat) (result : HostResult)
  | raised (fd : FdId) (events : BitVec 32)
  | waking (fd : FdId) (events : BitVec 32) (left : List Nat)
  deriving Repr, DecidableEq

/-- The host side: which files are real, and the size of a pipe. -/
structure PollHost where
  isReal : FdId → Bool
  pipeSize : Nat
  pipeHolds : 0 < pipeSize

/-- `struct poll`, the readiness of the files, and the threads. -/
structure PollWorld where
  fds : List PollFd
  freelist : List Nat
  nextSlot : Nat
  nextSerial : Nat
  notifyPipe : Option Nat
  waiters : Nat
  ready : FdId → BitVec 32
  fdOwner : FdId → Option Nat
  threads : Nat → PollThread
  log : List PollNote

namespace PollWorld

/-- Write the place of a thread. -/
def setThread (world : PollWorld) (thread : Nat) (phase : PollThread) :
    PollWorld :=
  { world with threads := update world.threads thread phase }

/-- Write to the registrations in a slot. -/
def modifySlot
    (world : PollWorld) (slot : Nat) (change : PollFd → PollFd) : PollWorld :=
  { world with
    fds := world.fds.map fun pollFd =>
      if pollFd.slot = slot then change pollFd else pollFd }

/-- Remember what happened. -/
def note (world : PollWorld) (happened : PollNote) : PollWorld :=
  { world with log := happened :: world.log }

/-- `poll_find_fd`. -/
def pollFindFd (world : PollWorld) (fd : FdId) : Option PollFd :=
  world.fds.find? fun pollFd => pollFd.fd = fd

/--
`poll_add_fd`; `hostError` is the error of `real_poll_update`.  That no other
registration has the file was checked in a critical section before.
-/
def pollAddFd
    (host : PollHost)
    (world : PollWorld)
    (fd : FdId)
    (types : BitVec 32)
    (info : BitVec 64)
    (allocated : Bool)
    (hostError : Option Errno) : Option Errno × PollWorld :=
  if world.freelist = [] ∧ allocated = false then
    (some .nomem, world)
  else
    let slot := world.freelist.headD world.nextSlot
    let world :=
      match world.freelist with
      | [] => { world with nextSlot := world.nextSlot + 1 }
      | _ :: rest => { world with freelist := rest }
    if host.isReal fd = true ∧ hostError.isSome = true then
      (hostError, { world with freelist := slot :: world.freelist })
    else
      let pollFd : PollFd := {
        slot := slot
        serial := world.nextSerial
        fd := fd
        types := types
        info := info
        triggeredTypes := 0#32
        disabled := false }
      (none, note { world with
        fds := pollFd :: world.fds
        nextSerial := world.nextSerial + 1 } (.armed pollFd.serial))

/-- `poll_del_fd`. -/
def pollDelFd
    (host : PollHost)
    (world : PollWorld)
    (fd : FdId)
    (hostError : Option Errno) : Option Errno × PollWorld :=
  match world.pollFindFd fd with
  | none => (some .noent, world)
  | some pollFd =>
    if host.isReal fd = true ∧ pollFd.disabled = false ∧
        hostError.isSome = true then
      (hostError, world)
    else
      (none, { world with
        fds := world.fds.filter fun other => other.slot ≠ pollFd.slot
        freelist := pollFd.slot :: world.freelist })

/-- `poll_mod_fd`. -/
def pollModFd
    (host : PollHost)
    (world : PollWorld)
    (fd : FdId)
    (types : BitVec 32)
    (info : BitVec 64)
    (hostError : Option Errno) : Option Errno × PollWorld :=
  match world.pollFindFd fd with
  | none => (some .noent, world)
  | some pollFd =>
    if host.isReal fd = true ∧ hostError.isSome = true then
      (hostError, world)
    else
      (none, (world.modifySlot pollFd.slot fun pollFd =>
        { pollFd with
          types := types
          info := info
          triggeredTypes := 0#32
          disabled := false }).note (.armed pollFd.serial))

/-- `poll_cleanup_fd`. -/
def pollCleanupFd (world : PollWorld) (fd : FdId) : PollWorld :=
  { world with
    fds := world.fds.filter fun pollFd => pollFd.fd ≠ fd
    freelist :=
      ((world.fds.filter fun pollFd => pollFd.fd = fd).map
        PollFd.slot).reverse ++ world.freelist }

/-- One round of the loop in `poll_wakeup`. -/
def wakeSlot
    (host : PollHost)
    (world : PollWorld)
    (slot : Nat)
    (events : BitVec 32) : PollWorld :=
  { world.modifySlot slot fun pollFd => pollFd.untrigger events with
    notifyPipe := world.notifyPipe.map fun bytes =>
      if bytes < host.pipeSize then bytes + 1 else bytes
    log :=
      ((world.fds.filter fun pollFd => pollFd.slot = slot).map fun pollFd =>
        PollNote.told pollFd.serial events) ++ world.log }

/--
The loop over the registrations: the new registrations, what was reported,
newest first, and how many.  A full callback takes no more.
-/
def checkFds
    (ready : FdId → BitVec 32)
    (room : Nat) :
    Nat → List PollFd → List PollFd × List PollNote × Nat
  | count, [] => ([], [], count)
  | count, pollFd :: rest =>
    let types := pollFd.pollTypes (ready pollFd.fd)
    if pollFd.disabled = true ∨ types = 0#32 ∨ room ≤ count then
      let later := checkFds ready room count rest
      (pollFd :: later.1, later.2.1, later.2.2)
    else
      let later := checkFds ready room (count + 1) rest
      (pollFd.taken types :: later.1,
        later.2.1 ++ [.reported pollFd.serial types pollFd.types],
        later.2.2)

/-- The end of `poll_wait`. -/
def leave (world : PollWorld) (thread : Nat) : PollWorld :=
  setThread { world with
    waiters := world.waiters - 1
    notifyPipe := if world.waiters - 1 = 0 then none else world.notifyPipe }
    thread .out

/-- From the loop over the registrations to the sleep or the return. -/
def look
    (world : PollWorld)
    (thread room : Nat)
    (signalPending : Bool) : PollWorld :=
  let found := checkFds world.ready room 0 world.fds
  let world := { world with
    fds := found.1
    log := found.2.1 ++ world.log }
  if 0 < found.2.2 ∨ signalPending = true then
    world.leave thread
  else
    world.setThread thread (.waiting room)

/-- `poll_wait` up to its first sleep; `piped` says that `pipe` succeeded. -/
def beginWait
    (world : PollWorld)
    (thread room : Nat)
    (piped signalPending : Bool) : Option PollWorld :=
  if world.waiters = 0 then
    if world.notifyPipe.isSome then
      none
    else if piped = false then
      some world
    else
      some (look { world with waiters := 1, notifyPipe := some 0 }
        thread room signalPending)
  else
    some (look { world with waiters := world.waiters + 1 }
      thread room signalPending)

/-- What `poll_wait` does with one event of the host. -/
def applyEvent (world : PollWorld) (event : HostEvent) : PollWorld :=
  match event.source with
  | none => world
  | some (slot, serial) =>
    (world.modifySlot slot fun pollFd =>
      pollFd.untrigger event.events).note (.notified serial event.events)

/-- What `poll_wait` does with the events of the host. -/
def applyEvents (world : PollWorld) (events : List HostEvent) : PollWorld :=
  events.foldl applyEvent world

/-- The read from the notify pipe, which does not block. -/
def drain (world : PollWorld) : PollWorld :=
  { world with notifyPipe := world.notifyPipe.map fun bytes => bytes - 1 }

/-- `poll_wait` from the end of a sleep to the next one or the return. -/
def resume
    (world : PollWorld)
    (thread room : Nat)
    (result : HostResult)
    (signalPending : Bool) : PollWorld :=
  match result with
  | .failed => world.leave thread
  | .timedOut => world.leave thread
  | .events events =>
    (world.applyEvents events).drain.look thread room signalPending

end PollWorld

/--
What the threads of a system with one poll object do.  A file changes without
a `poll_wakeup`, or a thread is about to call one that tells what was gained.
-/
inductive PollStep where
  | add
      (fd : FdId)
      (types : BitVec 32)
      (info : BitVec 64)
      (allocated : Bool)
      (hostError : Option Errno)
  | del (fd : FdId) (hostError : Option Errno)
  | mod
      (fd : FdId)
      (types : BitVec 32)
      (info : BitVec 64)
      (hostError : Option Errno)
  | cleanup (fd : FdId)
  | change (fd : FdId) (ready : BitVec 32)
  | raise (thread : Nat) (fd : FdId) (gained events : BitVec 32)
  | beginWakeup (thread : Nat)
  | wakeNext (thread : Nat)
  | endWakeup (thread : Nat)
  | beginWait (thread room : Nat) (piped signalPending : Bool)
  | hostReturn (thread : Nat) (result : HostResult)
  | resume (thread : Nat) (signalPending : Bool)

namespace PollStep

/--
A host event comes for the notify pipe with a byte in it, or for a real file
that the host was told to watch.
-/
def isFromHost
    (host : PollHost) (world : PollWorld) (event : HostEvent) : Bool :=
  match event.source with
  | none => world.notifyPipe.any fun bytes => 0 < bytes
  | some (slot, serial) =>
    world.fds.any fun pollFd =>
      pollFd.slot = slot && pollFd.serial = serial &&
        host.isReal pollFd.fd && !pollFd.disabled

/-- The code a step runs. -/
def run (host : PollHost) (world : PollWorld) : PollStep → Option PollWorld
  | add fd types info allocated hostError =>
    if world.fdOwner fd = none then
      some (world.pollAddFd host fd types info allocated hostError).2
    else
      none
  | del fd hostError =>
    if world.fdOwner fd = none then
      some (world.pollDelFd host fd hostError).2
    else
      none
  | mod fd types info hostError =>
    if world.fdOwner fd = none then
      some (world.pollModFd host fd types info hostError).2
    else
      none
  | cleanup fd =>
    if world.fdOwner fd = none then
      some (world.pollCleanupFd fd)
    else
      none
  | change fd ready =>
    some { world with ready := update world.ready fd ready }
  | raise thread fd gained events =>
    if world.threads thread = .out ∧ gained &&& ~~~events = 0#32 then
      some (PollWorld.setThread { world with
        ready := update world.ready fd (world.ready fd ||| gained) }
        thread (.raised fd events))
    else
      none
  | beginWakeup thread =>
    match world.threads thread with
    | .raised fd events =>
      if world.fdOwner fd = none then
        some (PollWorld.setThread { world with
          fdOwner := update world.fdOwner fd (some thread) }
          thread (.waking fd events
            ((world.fds.filter fun pollFd => pollFd.fd = fd).map
              PollFd.slot)))
      else
        none
    | _ => none
  | wakeNext thread =>
    match world.threads thread with
    | .waking fd events (slot :: left) =>
      some ((world.wakeSlot host slot events).setThread thread
        (.waking fd events left))
    | _ => none
  | endWakeup thread =>
    match world.threads thread with
    | .waking fd _ [] =>
      some (PollWorld.setThread { world with
        fdOwner := update world.fdOwner fd none }
        thread .out)
    | _ => none
  | beginWait thread room piped signalPending =>
    if world.threads thread = .out ∧ 0 < room then
      world.beginWait thread room piped signalPending
    else
      none
  | hostReturn thread result =>
    match world.threads thread with
    | .waiting room =>
      match result with
      | .events events =>
        if events ≠ [] ∧ events.all (isFromHost host world) then
          some (world.setThread thread (.returned room result))
        else
          none
      | _ => some (world.setThread thread (.returned room result))
    | _ => none
  | resume thread signalPending =>
    match world.threads thread with
    | .returned room result =>
      some (world.resume thread room result signalPending)
    | _ => none

end PollStep

/-- A poll object without registrations, and nobody in it. -/
def PollWorld.isFresh (world : PollWorld) : Prop :=
  world.fds = [] ∧ world.freelist = [] ∧ world.notifyPipe = none ∧
    world.waiters = 0 ∧ world.log = [] ∧
    (∀ fd, world.fdOwner fd = none) ∧
    ∀ thread, world.threads thread = .out

/-- All interleavings of waits, registrations, wakeups and changes. -/
def pollMachine (host : PollHost) : Machine PollWorld PollStep where
  initial world := world.isFresh
  step world step next := step.run host world = some next

end GuestKernel
