import GuestKernel.Errno
import Mathlib.Logic.Function.Basic

namespace GuestKernel
open Function

/-!
# Signals

`kernel/signal.c`: the signal sets and masks of a task, the queue of its
pending signals and the actions of its process.  Every function here is one
section under the lock of the `sighand`; where a thread gives the lock up in
the middle, `Control` says where it goes on.

`none` is a failed assertion, an access outside of an array or through a null
pointer, or a thread that takes a lock it has.  The counts of the `sighand`s
are left out: none is freed.
-/

/-- `sigset_t_`. -/
abbrev SigSet := BitVec 64

/-- The identity of a `struct sighand`. -/
abbrev SighandId := Nat

/-- The identity of a `struct task`. -/
abbrev SigTaskId := Nat

/-- `SIGKILL_`. -/
abbrev sigKill : Int := 9

/-- `SIGSTOP_`. -/
abbrev sigStop : Int := 19

/-- `sig_mask`, with its assertion. -/
def sigMask (sig : Int) : Option SigSet :=
  if 1 ≤ sig ∧ sig < 64 then
    some (BitVec.twoPow 64 (sig - 1).toNat)
  else
    none

/-- `sigset_has`. -/
def sigsetHas (set : SigSet) (sig : Int) : Option Bool :=
  (sigMask sig).map fun mask => decide (set &&& mask ≠ 0)

/-- `sigset_add`. -/
def sigsetAdd (set : SigSet) (sig : Int) : Option SigSet :=
  (sigMask sig).map fun mask => set ||| mask

/-- `sigset_del`. -/
def sigsetDel (set : SigSet) (sig : Int) : Option SigSet :=
  (sigMask sig).map fun mask => set &&& ~~~mask

/-- `UNBLOCKABLE_MASK`: `SIGKILL_` and `SIGSTOP_`. -/
def unblockableMask : SigSet :=
  BitVec.twoPow 64 8 ||| BitVec.twoPow 64 18

/-- `signal_is_blockable`. -/
def signalIsBlockable (sig : Int) : Bool :=
  decide (sig ≠ sigKill ∧ sig ≠ sigStop)

/-- `struct sigaction_`. -/
structure SigAction where
  handler : BitVec 32
  flags : BitVec 32
  restorer : BitVec 32
  mask : SigSet
  deriving Repr, DecidableEq

/-- `struct sighand`; only the actions 0 to 63 are there. -/
structure Sighand where
  action : Int → SigAction
  altstack : BitVec 32
  altstackSize : BitVec 32

/-- `SIG_DFL_`. -/
def sigDfl : BitVec 32 := 0#32

/-- `SIG_IGN_`. -/
def sigIgn : BitVec 32 := 1#32

/-- `SA_SIGINFO_`. -/
def saSiginfo : BitVec 32 := 4#32

/-- `SA_NODEFER_`. -/
def saNodefer : BitVec 32 := 0x40000000#32

/-- `SA_RESETHAND_`. -/
def saResethand : BitVec 32 := 0x80000000#32

/-- A cleared `struct sigaction_`: the default action. -/
def SigAction.default : SigAction where
  handler := sigDfl
  flags := 0#32
  restorer := 0#32
  mask := 0#64

/-- `sighand->action[sig]`. -/
def Sighand.read (hand : Sighand) (sig : Int) : Option SigAction :=
  if 0 ≤ sig ∧ sig < 64 then some (hand.action sig) else none

/-- Write `sighand->action[sig]`. -/
def Sighand.write (hand : Sighand) (sig : Int) (action : SigAction) : Sighand :=
  { hand with action := update hand.action sig action }

/-- What a signal does: `SIGNAL_IGNORE` and so on. -/
inductive Disposition where
  | ignore
  | kill
  | callHandler
  | stop
  deriving Repr, DecidableEq

/-- The default action of a signal. -/
def defaultAction (sig : Int) : Disposition :=
  if sig = 23 ∨ sig = 18 ∨ sig = 17 ∨ sig = 29 ∨ sig = 28 then .ignore
  else if sig = 19 ∨ sig = 20 ∨ sig = 21 ∨ sig = 22 then .stop
  else .kill

/-- `signal_action`. -/
def signalAction (hand : Sighand) (sig : Int) : Option Disposition :=
  if signalIsBlockable sig then
    (hand.read sig).map fun action =>
      if action.handler = sigIgn then .ignore
      else if action.handler ≠ sigDfl then .callHandler
      else defaultAction sig
  else
    some (defaultAction sig)

/-- `struct siginfo_`; `fields` are the words of its union. -/
structure SigInfo where
  sig : Int
  sigErrno : BitVec 32
  code : BitVec 32
  fields : List (BitVec 32)
  deriving Repr, DecidableEq

/-- `SIGINFO_NIL`. -/
def SigInfo.nil : SigInfo where
  sig := 0
  sigErrno := 0#32
  code := 128#32
  fields := []

/--
The list head `task->queue`: a list of entries, the bytes of the head of
another task's list, or links that lead into another list.
-/
inductive SigQueue where
  | entries (infos : List SigInfo)
  | copied (parent : SigTaskId)
  | broken
  deriving Repr, DecidableEq

/--
Where the thread of a task is.  A task that is being created has no pending
signals and no queue of its own before `starting`.
-/
inductive Control where
  | created
  | cleared
  | starting
  | running
  /-- In the wait of `sys_rt_sigtimedwait`, with its `set`. -/
  | waiting (set : SigSet)
  /-- In the loop of `receive_signals`, at the entry with this position. -/
  | receiving (blocked : SigSet) (position : Nat)
  /-- In `signal_delivery_stop`; `last` is whether the loop ends then. -/
  | stopped (blocked : SigSet) (position : Nat) (last : Bool)
  /-- In `do_exit_group`, without the lock. -/
  | dying
  | exited
  deriving Repr, DecidableEq

/-- The fields of `struct task` that concern signals. -/
structure SigTask where
  sighand : Option SighandId
  blocked : SigSet
  pending : SigSet
  waiting : SigSet
  savedMask : SigSet
  hasSavedMask : Bool
  queue : SigQueue
  zombie : Bool
  exiting : Bool
  control : Control
  deriving Repr, DecidableEq

/-- All tasks and their `sighand`s. -/
structure SignalWorld where
  tasks : SigTaskId → Option SigTask
  sighands : SighandId → Option Sighand

namespace SignalWorld

/-- Write a task. -/
def setTask
    (w : SignalWorld) (id : SigTaskId) (task : SigTask) : SignalWorld :=
  { w with tasks := update w.tasks id (some task) }

/-- Write a `sighand`. -/
def setSighand
    (w : SignalWorld) (id : SighandId) (hand : Sighand) : SignalWorld :=
  { w with sighands := update w.sighands id (some hand) }

/-- `task->sighand`, to read from. -/
def sighandOf
    (w : SignalWorld) (task : SigTask) : Option (SighandId × Sighand) := do
  let id ← task.sighand
  let hand ← w.sighands id
  pure (id, hand)

/-- The list of a task is not its own any more. -/
def breakQueue (w : SignalWorld) (id : SigTaskId) : SignalWorld :=
  { w with
    tasks := fun other =>
      (w.tasks other).map fun task =>
        if other = id then { task with queue := .broken } else task }

/-- `deliver_signal_unlocked`, up to where it wakes the task. -/
def deliverSignalUnlocked
    (w : SignalWorld)
    (id : SigTaskId)
    (sig : Int)
    (info : SigInfo) : Option SignalWorld := do
  let task ← w.tasks id
  if ← sigsetHas task.pending sig then
    pure w
  else
    let pending ← sigsetAdd task.pending sig
    match task.queue with
    | .entries infos =>
      pure (w.setTask id { task with
        pending := pending
        queue := .entries (infos ++ [{ info with sig := sig }]) })
    | .copied parent =>
      -- the entry goes between the parent's last one and this head
      pure ((w.setTask id { task with
        pending := pending
        queue := .broken }).breakQueue parent)
    | .broken =>
      pure (w.setTask id { task with pending := pending })

/-- `deliver_signal`. -/
def deliverSignal
    (w : SignalWorld)
    (id : SigTaskId)
    (sig : Int)
    (info : SigInfo) : Option SignalWorld := do
  let _ ← w.sighandOf (← w.tasks id)
  w.deliverSignalUnlocked id sig info

/-- `send_signal`, but for the group that `SIGCONT_` wakes. -/
def sendSignal
    (w : SignalWorld)
    (id : SigTaskId)
    (sig : Int)
    (info : SigInfo) : Option SignalWorld := do
  let task ← w.tasks id
  if sig = 0 then
    pure w
  else if task.zombie || task.exiting then
    pure w
  else
    let (_, hand) ← w.sighandOf task
    if (← signalAction hand sig) = .ignore then
      pure w
    else
      w.deliverSignalUnlocked id sig info

/-- `try_self_signal`. -/
def trySelfSignal
    (w : SignalWorld) (id : SigTaskId) (sig : Int) : Option SignalWorld := do
  if sig = 21 ∨ sig = 22 then
    let task ← w.tasks id
    let (_, hand) ← w.sighandOf task
    if (← signalAction hand sig) = .ignore then
      pure w
    else if ← sigsetHas task.blocked sig then
      pure w
    else
      w.deliverSignalUnlocked id sig .nil
  else
    none

/-- `sigmask_set`, on the task. -/
def sigmaskSet (task : SigTask) (set : SigSet) : SigTask :=
  { task with blocked := set &&& ~~~unblockableMask }

/-- `sigmask_set_temp_unlocked`. -/
def sigmaskSetTemp (task : SigTask) (mask : SigSet) : SigTask :=
  sigmaskSet { task with
    savedMask := task.blocked
    hasSavedMask := true } mask

/-- `do_sigprocmask`. -/
def doSigprocmask
    (task : SigTask) (how : BitVec 32) (set : SigSet) : Except Errno SigTask :=
  if how = 0 then .ok (sigmaskSet task (task.blocked ||| set))
  else if how = 1 then .ok (sigmaskSet task (task.blocked &&& ~~~set))
  else if how = 2 then .ok (sigmaskSet task set)
  else .error .inval

/-- `do_sigaction`; it gives the old action too. -/
def doSigaction
    (w : SignalWorld)
    (id : SigTaskId)
    (signum : BitVec 32)
    (action : Option SigAction) :
    Option (SignalWorld × Except Errno SigAction) := do
  let sig := signum.toInt
  if 64 ≤ sig then
    pure (w, .error .inval)
  else if signalIsBlockable sig = false then
    pure (w, .error .inval)
  else
    let (handId, hand) ← w.sighandOf (← w.tasks id)
    let old ← hand.read sig
    match action with
    | none => pure (w, .ok old)
    | some action => pure (w.setSighand handId (hand.write sig action), .ok old)

/-- `sys_execve` resets the handlers. -/
def execHandlers (hand : Sighand) : Sighand where
  action := fun sig =>
    if (hand.action sig).handler ≠ sigIgn then
      { hand.action sig with handler := sigDfl }
    else
      hand.action sig
  altstack := 0
  altstackSize := hand.altstackSize

/-- The mask while a handler runs. -/
def maskInHandler
    (blocked : SigSet) (action : SigAction) (sig : Int) : Option SigSet := do
  if action.flags &&& saNodefer = 0 then
    pure ((← sigsetAdd blocked sig) ||| action.mask)
  else
    pure (blocked ||| action.mask)

/-- The control after an entry of the loop of `receive_signals`. -/
def loopAt (blocked : SigSet) (position : Nat) (last : Bool) : Control :=
  if last then .running else .receiving blocked position

/-- The start of `receive_signals`, up to its loop. -/
def beginReceive (w : SignalWorld) (id : SigTaskId) : Option SignalWorld := do
  let task ← w.tasks id
  match task.control, task.queue with
  | .running, .entries infos =>
    let _ ← w.sighandOf task
    if task.hasSavedMask then
      pure (w.setTask id { task with
        hasSavedMask := false
        blocked := task.savedMask
        control :=
          loopAt (task.blocked &&& task.savedMask) 0 infos.isEmpty })
    else
      pure (w.setTask id { task with
        control := loopAt task.blocked 0 infos.isEmpty })
  | _, _ => none

/--
`receive_signal`, without the frame; `written` is whether the frame could be
written, else the thread takes the lock of the `sighand` again.
-/
def receiveSignal
    (w : SignalWorld)
    (id : SigTaskId)
    (task : SigTask)
    (sig : Int)
    (written : Bool) : Option SignalWorld := do
  let (handId, hand) ← w.sighandOf task
  match ← signalAction hand sig with
  | .ignore => pure (w.setTask id task)
  | .stop => pure (w.setTask id task)
  | .kill => pure (w.setTask id { task with control := .dying })
  | .callHandler =>
    let action ← hand.read sig
    let blocked ← maskInHandler task.blocked action sig
    if written = false then
      none
    else
      let w := w.setTask id { task with blocked := blocked }
      if action.flags &&& saResethand = 0 then
        pure w
      else
        pure (w.setSighand handId (hand.write sig .default))

/-- One round of the loop of `receive_signals`. -/
def receiveRound
    (w : SignalWorld)
    (id : SigTaskId)
    (traced written : Bool) : Option SignalWorld := do
  let task ← w.tasks id
  match task.control, task.queue with
  | .receiving blocked position, .entries infos =>
    let info ← infos[position]?
    let last := decide (infos.length = position + 1)
    if ← sigsetHas blocked info.sig then
      pure (w.setTask id { task with
        control := loopAt blocked (position + 1) last })
    else
      let pending ← sigsetDel task.pending info.sig
      let task := { task with
        queue := .entries (infos.eraseIdx position)
        pending := pending
        control := loopAt blocked position last }
      if traced && info.sig ≠ sigKill then
        pure (w.setTask id { task with
          control := .stopped blocked position last })
      else
        w.receiveSignal id task info.sig written
  | _, _ => none

/-- The end of `signal_delivery_stop`; `SIGKILL_` ends the task. -/
def endStop (w : SignalWorld) (id : SigTaskId) : Option SignalWorld := do
  let task ← w.tasks id
  match task.control with
  | .stopped blocked position last =>
    if ← sigsetHas task.pending sigKill then
      pure (w.setTask id { task with control := .dying })
    else
      pure (w.setTask id { task with
        control := loopAt blocked position last })
  | _ => none

/-- `is_signal_pending`. -/
def SigTask.isSignalPending (task : SigTask) : Bool :=
  decide (task.pending &&& ~~~task.blocked ≠ 0)

/-- The start of `sys_rt_sigtimedwait`. -/
def beginTimedwait
    (w : SignalWorld) (id : SigTaskId) (set : SigSet) : Option SignalWorld := do
  let task ← w.tasks id
  if task.control = .running ∧ task.waiting = 0 then
    pure (w.setTask id { task with waiting := set, control := .waiting set })
  else
    none

/-- The loop of `sys_rt_sigtimedwait`: the first entry in the set, unlinked. -/
def takeFirst
    (set : SigSet) :
    List SigInfo → Option (Option (SigInfo × List SigInfo))
  | [] => some none
  | info :: rest => do
      if ← sigsetHas set info.sig then
        pure (some (info, rest))
      else
        pure ((← takeFirst set rest).map fun (found, others) =>
          (found, info :: others))

/-- The end of `sys_rt_sigtimedwait`, with the signal it returns. -/
def endTimedwait
    (w : SignalWorld)
    (id : SigTaskId)
    (timedOut : Bool) : Option (SignalWorld × Except Errno Int) := do
  let task ← w.tasks id
  match task.control, task.queue with
  | .waiting set, .entries infos =>
    let done := { task with waiting := 0, control := .running }
    if timedOut then
      pure (w.setTask id done, .error .again)
    else if SigTask.isSignalPending task = false then
      none
    else
      match ← takeFirst set infos with
      | none => pure (w.setTask id done, .error .intr)
      | some (info, others) =>
        -- the bit of the signal stays in `pending`
        pure (w.setTask id { done with queue := .entries others },
          .ok info.sig)
  | _, _ => none

/-- `task_create_`, while it has `pids_lock`. -/
def taskCreate
    (w : SignalWorld) (parent child : SigTaskId) : Option SignalWorld := do
  let task ← w.tasks parent
  if (w.tasks child).isSome then
    none
  else
    pure (w.setTask child { task with
      queue := .copied parent
      control := .created })

/-- `task->pending = 0` of `task_create_`. -/
def clearPending (w : SignalWorld) (child : SigTaskId) : Option SignalWorld := do
  let task ← w.tasks child
  if task.control = .created then
    pure (w.setTask child { task with pending := 0, control := .cleared })
  else
    none

/-- `task->blocked = task->pending = task->waiting = 0` of a new init child. -/
def resetSignals (w : SignalWorld) (child : SigTaskId) : Option SignalWorld := do
  let task ← w.tasks child
  if task.control = .starting then
    pure (w.setTask child { task with
      blocked := 0
      pending := 0
      waiting := 0
      control := .cleared })
  else
    none

/-- `list_init(&task->queue)`. -/
def initQueue (w : SignalWorld) (child : SigTaskId) : Option SignalWorld := do
  let task ← w.tasks child
  if task.control = .cleared then
    pure (w.setTask child { task with
      queue := .entries []
      control := .starting })
  else
    none

/-- `sighand_copy` for a task that does not share its `sighand`. -/
def sighandCopy
    (w : SignalWorld)
    (child : SigTaskId)
    (fresh : SighandId) : Option SignalWorld := do
  let task ← w.tasks child
  let (_, hand) ← w.sighandOf task
  if task.control = .starting ∧ w.sighands fresh = none then
    pure ((w.setTask child { task with sighand := some fresh }).setSighand fresh
      { action := hand.action, altstack := 0, altstackSize := 0 })
  else
    none

/-- `task_start`. -/
def taskStart (w : SignalWorld) (child : SigTaskId) : Option SignalWorld := do
  let task ← w.tasks child
  if task.control = .starting then
    pure (w.setTask child { task with control := .running })
  else
    none

/-- What `do_exit` does to the signals, while it has `pids_lock`. -/
def doExit (w : SignalWorld) (id : SigTaskId) : Option SignalWorld := do
  let task ← w.tasks id
  match task.queue with
  | .entries _ =>
    if task.control = .running ∨ task.control = .dying then
      pure (w.setTask id { task with
        exiting := true
        sighand := none
        queue := .entries []
        control := .exited })
    else
      none
  | _ => none

/-- `leader->zombie = true` of `do_exit`. -/
def becomeZombie (w : SignalWorld) (id : SigTaskId) : Option SignalWorld := do
  let task ← w.tasks id
  pure (w.setTask id { task with zombie := true })

/-- `task_destroy`, of a task that exited or never started. -/
def taskDestroy (w : SignalWorld) (id : SigTaskId) : Option SignalWorld := do
  let task ← w.tasks id
  if task.control = .exited ∨ task.control = .starting then
    pure { w with tasks := update w.tasks id none }
  else
    none

end SignalWorld

end GuestKernel
