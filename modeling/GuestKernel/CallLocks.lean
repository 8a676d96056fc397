import GuestKernel.HeldLocks
import GuestKernel.SignalFrames
import GuestKernel.Timers

namespace GuestKernel

/-!
# The locks of calls on tasks

`sys_sigaltstack`, the `kill` family, `sys_timer_create` and `sys_ptrace`, with
each lock and unlock they come to.  What they leave in the tasks is that of
`SignalWorld` and of `TimerWorld`.
-/

/-- One lock. -/
inductive CallLock where
  | sighand (id : Nat)
  | pids
  | group (id : Nat)
  | ptrace (task : Nat)
  | waitingCond (task : Nat)
  /-- The `waiting_lock` of a task, when it is none of the above. -/
  | waiting (id : Nat)
  deriving Repr, DecidableEq

/-- The `waiting_cond` of a task: none, under a lock of this thread, or not. -/
inductive WakeUp where
  | idle
  | mine
  | taken (waitingLock : CallLock)
  deriving Repr, DecidableEq

/-- The fields of `struct task`, its `sighand` and its group. -/
structure CallTask where
  pid : BitVec 32
  tgid : BitVec 32
  uid : Nat
  suid : Nat
  euid : Nat
  isLeader : Bool
  zombie : Bool
  exiting : Bool
  sighand : Nat
  hand : Sighand
  group : Nat
  pgid : BitVec 32
  timers : TimerGroup
  pending : SigSet
  blocked : SigSet
  waiting : SigSet
  esp : BitVec 32
  ptraceStopped : Bool
  /-- How often `trylock(task->waiting_lock)` fails. -/
  busy : Nat
  wake : WakeUp

/-- `struct sigevent_`. -/
structure SigEvent where
  method : BitVec 32
  tid : BitVec 32
  deriving Repr, DecidableEq

/-- The tasks, the lookups, and the guest memory; `true` is a fault. -/
structure CallWorld where
  tasks : Nat → CallTask
  current : Nat
  children : List Nat
  pidGetTask : BitVec 32 → Option Nat
  /-- `pid_get`, with the leaders of the process group. -/
  pidGet : BitVec 32 → Option (List Nat)
  getStack : BitVec 32 → Option StackT
  getSigevent : BitVec 32 → Option SigEvent
  userGet : BitVec 32 → Bool
  userPut : BitVec 32 → Bool
  userGetTask : Nat → BitVec 32 → Bool
  userWriteTaskPtrace : Nat → BitVec 32 → Bool

/-- A call, with its error. -/
abbrev LockingCall := Locking CallLock (Except Errno Unit)

namespace CallWorld

open Locking (lock unlock)

variable (world : CallWorld)

/-- The current task. -/
def self : CallTask :=
  world.tasks world.current

/-- `MINSIGSTKSZ_`. -/
def minsigstksz : BitVec 32 := 2048#32

/-- `SS_DISABLE_`. -/
def ssDisable : BitVec 32 := 2#32

/-- `sys_sigaltstack`. -/
def sysSigaltstack (ssAddr oldSsAddr : BitVec 32) : LockingCall := do
  let sighand := CallLock.sighand world.self.sighand
  lock sighand
  if oldSsAddr ≠ 0 ∧ world.userPut oldSsAddr = true then
    unlock sighand
    pure (.error .fault)
  else if ssAddr ≠ 0 then
    if isOnAltstack world.self.esp world.self.hand then
      unlock sighand
      pure (.error .perm)
    else
      match world.getStack ssAddr with
      | none => do
          unlock sighand
          pure (.error .fault)
      | some ss =>
        if ss.flags &&& ssDisable = 0 ∧ ss.size < minsigstksz then
          pure (.error .nomem)
        else do
          unlock sighand
          pure (.ok ())
  else
    unlock sighand
    pure (.ok ())

/-- The failed rounds of the `retry` of `deliver_signal_unlocked`. -/
def retryWakeUp (task : Nat) : Nat → Locking CallLock Unit
  | 0 => pure ()
  | more + 1 => do
      lock (.waitingCond task)
      unlock (.waitingCond task)
      retryWakeUp task more

/-- The wake-up of `deliver_signal_unlocked`. -/
def wakeUp (task : Nat) : Locking CallLock Unit := do
  retryWakeUp task (world.tasks task).busy
  lock (.waitingCond task)
  match (world.tasks task).wake with
  | .idle | .mine => pure ()
  | .taken waitingLock => do
      lock waitingLock
      unlock waitingLock
  unlock (.waitingCond task)

/-- `sigset_has`, of a signal that is one. -/
def sigsetHas (set : SigSet) (sig : BitVec 32) : Bool :=
  set.getLsbD (sig.toNat - 1)

/-- `deliver_signal_unlocked`. -/
def deliverSignalUnlocked (task : Nat) (sig : BitVec 32) :
    Locking CallLock Unit := do
  let target := world.tasks task
  if sigsetHas target.pending sig then
    pure ()
  else if
      sigsetHas (target.blocked &&& ~~~target.waiting) sig &&
        signalIsBlockable sig.toNat then
    pure ()
  else if task = world.current then
    pure ()
  else
    unlock (.sighand target.sighand)
    world.wakeUp task
    lock (.sighand target.sighand)

/-- `send_signal`. -/
def sendSignal (task : Nat) (sig : BitVec 32) : Locking CallLock Unit := do
  let target := world.tasks task
  if sig = 0 then
    pure ()
  else if target.zombie || target.exiting then
    pure ()
  else
    lock (.sighand target.sighand)
    if signalAction target.hand sig.toNat = some .ignore then pure ()
    else world.deliverSignalUnlocked task sig
    unlock (.sighand target.sighand)
    if sig = 18 ∨ sig = 9 then
      lock (.group target.group)
      unlock (.group target.group)
    else
      pure ()

/-- `kill_task`. -/
def killTask (task : Nat) (sig : BitVec 32) : LockingCall := do
  let self := world.self
  let target := world.tasks task
  if self.euid ≠ 0 ∧ self.uid ≠ target.uid ∧ self.uid ≠ target.suid ∧
      self.euid ≠ target.uid ∧ self.euid ≠ target.suid then
    pure (.error .perm)
  else
    world.sendSignal task sig
    pure (.ok ())

/-- `if (err == _EPERM) err = kill_err;` -/
def killAnother
    (sig : BitVec 32) (err : Except Errno Unit) (task : Nat) : LockingCall := do
  let killErr ← world.killTask task sig
  pure (if err = .error .perm then killErr else err)

/-- `kill_group`. -/
def killGroup (pgid sig : BitVec 32) : LockingCall :=
  match world.pidGet pgid with
  | none => do
      unlock .pids
      pure (.error .srch)
  | some leaders =>
    leaders.foldlM (world.killAnother sig) (.error .perm)

/-- One round of the loop of `kill_everything`. -/
def killNumber
    (sig : BitVec 32) (err : Except Errno Unit) (i : Nat) : LockingCall :=
  match world.pidGetTask (BitVec.ofNat 32 i) with
  | none => pure err
  | some task =>
    if task = world.current ∨ (world.tasks task).isLeader = false then
      pure err
    else
      world.killAnother sig err task

/-- `kill_everything`. -/
def killEverything (sig : BitVec 32) : LockingCall :=
  (List.range' 2 (maxPid - 2)).foldlM (world.killNumber sig) (.error .perm)

/-- The arm of `do_kill` for one task. -/
def killOne (pid sig tgid : BitVec 32) : LockingCall :=
  match world.pidGetTask pid with
  | none => do
      unlock .pids
      pure (.error .srch)
  | some task => do
      if tgid ≠ 0 ∧ (world.tasks task).tgid ≠ tgid then
        unlock .pids
        pure (.error .srch)
      else
        let err ← world.killTask task sig
        unlock .pids
        pure err

/-- `do_kill`, from the pid that is not zero on. -/
def killPid (pid sig tgid : BitVec 32) : LockingCall := do
  lock .pids
  if pid = -1 then
    let err ← world.killEverything sig
    unlock .pids
    pure err
  else if pid.toInt < 0 then
    let err ← world.killGroup (-pid) sig
    unlock .pids
    pure err
  else
    world.killOne pid sig tgid

/-- `do_kill`. -/
def doKill (pid sig tgid : BitVec 32) : LockingCall :=
  if 64#32 ≤ sig then
    pure (.error .inval)
  else
    world.killPid (if pid = 0 then -world.self.pgid else pid) sig tgid

/-- `sys_kill`. -/
def sysKill (pid sig : BitVec 32) : LockingCall :=
  world.doKill pid sig 0

/-- `sys_tgkill`. -/
def sysTgkill (tgid tid sig : BitVec 32) : LockingCall :=
  if tid.toInt ≤ 0 ∨ tgid.toInt ≤ 0 then pure (.error .inval)
  else world.doKill tid sig tgid

/-- `sys_tkill`. -/
def sysTkill (tid sig : BitVec 32) : LockingCall :=
  if tid.toInt ≤ 0 then pure (.error .inval)
  else world.doKill tid sig 0

/-- `clockid_to_real` knows the clock. -/
def isRealClock (clock : BitVec 32) : Bool :=
  clock = 0 || clock = 5 || clock = 1

/-- The end of `sys_timer_create`, which takes a timer of the group. -/
def createTimer (timerAddr : BitVec 32) : LockingCall := do
  let group := CallLock.group world.self.group
  lock group
  match world.self.timers.freeSlot with
  | none => do
      unlock group
      pure (.error .nomem)
  | some _ =>
    if world.userPut timerAddr then
      unlock group
      pure (.error .fault)
    else
      unlock group
      pure (.ok ())

/-- `sys_timer_create`. -/
def sysTimerCreate (clock sigeventAddr timerAddr : BitVec 32) : LockingCall :=
  if isRealClock clock = false then
    pure (.error .inval)
  else
    match world.getSigevent sigeventAddr with
    | none => pure (.error .fault)
    | some sigev =>
      if sigev.method ≠ 0 ∧ sigev.method ≠ 1 ∧ sigev.method ≠ 4 then
        pure (.error .inval)
      else if sigev.method = 4 then do
        lock .pids
        if world.pidGetTask sigev.tid = none then
          pure (.error .inval)
        else
          unlock .pids
          world.createTimer timerAddr
      else
        world.createTimer timerAddr

/-- `find_child`, from a place in the list of the children on. -/
def findChild (pid : BitVec 32) :
    List Nat → Locking CallLock (Option Nat)
  | [] => pure none
  | child :: rest =>
    if (world.tasks child).pid = pid then do
      lock (.ptrace child)
      if (world.tasks child).ptraceStopped then
        pure (some child)
      else
        unlock (.ptrace child)
        findChild pid rest
    else
      findChild pid rest

/-- A request on a child that is stopped. -/
def onChild (pid : BitVec 32) (request : Nat → LockingCall) : LockingCall := do
  match ← world.findChild pid world.children with
  | none => pure (.error .perm)
  | some child => request child

/-- The ends of a request that give the lock of the child back. -/
def released (child : Nat) (faults : Bool) : LockingCall := do
  unlock (.ptrace child)
  pure (if faults then .error .fault else .ok ())

/-- `PTRACE_PEEKTEXT` and `PTRACE_PEEKDATA`. -/
def ptracePeek (addr data : BitVec 32) (child : Nat) : LockingCall :=
  released child (world.userGetTask child addr || world.userPut data)

/-- `sizeof(struct user_)`. -/
def userSize : BitVec 32 := 288#32

/-- `PTRACE_PEEKUSER`. -/
def ptracePeekUser (addr data : BitVec 32) (child : Nat) : LockingCall :=
  if addr &&& 3 ≠ 0 ∨ userSize ≤ addr then
    pure (.error .io)
  else
    released child (world.userPut data)

/-- `PTRACE_POKETEXT` and `PTRACE_POKEDATA`. -/
def ptracePoke (addr : BitVec 32) (child : Nat) : LockingCall :=
  released child (world.userWriteTaskPtrace child addr)

/-- `PTRACE_KILL`. -/
def ptraceKill (child : Nat) : LockingCall := do
  world.sendSignal child 9
  released child false

/-- `PTRACE_GETREGS` and `PTRACE_GETFPREGS`. -/
def ptraceGet (data : BitVec 32) (child : Nat) : LockingCall :=
  released child (world.userPut data)

/-- `PTRACE_SETREGS` and `PTRACE_SETFPREGS`. -/
def ptraceSet (data : BitVec 32) (child : Nat) : LockingCall :=
  if world.userGet data then pure (.error .fault)
  else released child false

/-- `PTRACE_GETSIGINFO`. -/
def ptraceGetSiginfo (data : BitVec 32) (child : Nat) : LockingCall :=
  if data ≠ 0 ∧ world.userPut data = true then pure (.error .fault)
  else released child false

/-- `sys_ptrace`. -/
def sysPtrace (request pid addr data : BitVec 32) : LockingCall :=
  match request.toNat with
  | 0 => pure (.ok ())
  | 1 | 2 => world.onChild pid (world.ptracePeek addr data)
  | 3 => world.onChild pid (world.ptracePeekUser addr data)
  | 4 | 5 => world.onChild pid (world.ptracePoke addr)
  -- `PTRACE_CONT` and `PTRACE_SINGLESTEP`
  | 7 | 9 => world.onChild pid fun child => released child false
  | 8 => world.onChild pid world.ptraceKill
  | 12 | 14 => world.onChild pid (world.ptraceGet data)
  | 13 | 15 => world.onChild pid (world.ptraceSet data)
  | 0x4200 => pure (.error .inval)
  | 0x4202 => world.onChild pid (world.ptraceGetSiginfo data)
  | _ => pure (.error .perm)

end CallWorld

/-- A call, with its arguments. -/
inductive TaskCall where
  | sigaltstack (ssAddr oldSsAddr : BitVec 32)
  | kill (pid sig : BitVec 32)
  | tgkill (tgid tid sig : BitVec 32)
  | tkill (tid sig : BitVec 32)
  | timerCreate (clock sigeventAddr timerAddr : BitVec 32)
  | ptrace (request pid addr data : BitVec 32)
  deriving Repr, DecidableEq

/-- Run a call. -/
def TaskCall.run (world : CallWorld) : TaskCall → LockingCall
  | .sigaltstack ssAddr oldSsAddr => world.sysSigaltstack ssAddr oldSsAddr
  | .kill pid sig => world.sysKill pid sig
  | .tgkill tgid tid sig => world.sysTgkill tgid tid sig
  | .tkill tid sig => world.sysTkill tid sig
  | .timerCreate clock sigeventAddr timerAddr =>
    world.sysTimerCreate clock sigeventAddr timerAddr
  | .ptrace request pid addr data => world.sysPtrace request pid addr data

end GuestKernel
