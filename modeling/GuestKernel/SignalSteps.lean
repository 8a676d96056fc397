import GuestKernel.Machine
import GuestKernel.Signals

namespace GuestKernel
open Option Function

/-!
# Steps of the signal machine

What the threads of all tasks do to signals, one section under a lock at a
time, and what a step can do to a task: every invariant of the signals is
read off `TaskChange`.
-/

/-- The index of a signal in a set. -/
def sigIndex (sig : Int) : Nat :=
  (sig - 1).toNat

/-- A mask is one bit, for a valid signal. -/
theorem sigMask_eq_some_iff {sig : Int} {mask : SigSet} :
    sigMask sig = some mask ↔
      (1 ≤ sig ∧ sig < 64) ∧ mask = BitVec.twoPow 64 (sigIndex sig) := by
  unfold sigMask sigIndex
  by_cases valid : 1 ≤ sig ∧ sig < 64
  · rw [if_pos valid, some.injEq]
    exact ⟨fun same => ⟨valid, same.symm⟩, fun same => same.2.symm⟩
  · rw [if_neg valid]
    exact ⟨fun impossible => (nomatch impossible),
      fun impossible => (valid impossible.1).elim⟩

/-- A signal of a set is a bit of it. -/
theorem sigsetHas_eq_some_iff {set : SigSet} {sig : Int} {has : Bool} :
    sigsetHas set sig = some has ↔
      (1 ≤ sig ∧ sig < 64) ∧ set.getLsbD (sigIndex sig) = has := by
  have bit :
      decide (set &&& BitVec.twoPow 64 (sigIndex sig) ≠ 0) =
        (decide (sigIndex sig < 64) && set.getLsbD (sigIndex sig)) := by
    rw [BitVec.and_twoPow]
    by_cases isSet : set.getLsbD (sigIndex sig) = true
    · have inside : sigIndex sig < 64 := BitVec.lt_of_getLsbD isSet
      rw [if_pos isSet, isSet, decide_eq_true inside]
      apply decide_eq_true
      intro isZero
      have same := congrArg (fun set => set.getLsbD (sigIndex sig)) isZero
      simp [inside] at same
    · rw [if_neg isSet, Bool.eq_false_iff.mpr isSet, Bool.and_false]
      exact decide_eq_false fun impossible => impossible rfl
  unfold sigsetHas
  rw [map_eq_some_iff]
  constructor
  · rintro ⟨mask, isMask, isHas⟩
    obtain ⟨valid, rfl⟩ := sigMask_eq_some_iff.mp isMask
    rw [bit, decide_eq_true (by unfold sigIndex; omega), Bool.true_and]
      at isHas
    exact ⟨valid, isHas⟩
  · rintro ⟨valid, isHas⟩
    refine ⟨_, sigMask_eq_some_iff.mpr ⟨valid, rfl⟩, ?_⟩
    rw [bit, decide_eq_true (by unfold sigIndex; omega), Bool.true_and]
    exact isHas

/-- `sigset_add` of a valid signal sets its bit. -/
theorem sigsetAdd_eq_some {set next : SigSet} {sig : Int}
    (add : sigsetAdd set sig = some next) :
    (1 ≤ sig ∧ sig < 64) ∧ next = set ||| BitVec.twoPow 64 (sigIndex sig) := by
  obtain ⟨mask, isMask, rfl⟩ := map_eq_some_iff.mp add
  obtain ⟨valid, rfl⟩ := sigMask_eq_some_iff.mp isMask
  exact ⟨valid, rfl⟩

/-- `sigset_del` of a valid signal clears its bit. -/
theorem sigsetDel_eq_some {set next : SigSet} {sig : Int}
    (del : sigsetDel set sig = some next) :
    (1 ≤ sig ∧ sig < 64) ∧
      next = set &&& ~~~BitVec.twoPow 64 (sigIndex sig) := by
  obtain ⟨mask, isMask, rfl⟩ := map_eq_some_iff.mp del
  obtain ⟨valid, rfl⟩ := sigMask_eq_some_iff.mp isMask
  exact ⟨valid, rfl⟩

/-- Valid signals differ in their bits. -/
theorem eq_of_sigIndex {sig other : Int}
    (valid : 1 ≤ sig)
    (otherValid : 1 ≤ other)
    (same : sigIndex sig = sigIndex other) :
    sig = other := by
  unfold sigIndex at same
  omega

/-- A set is free of the signals that cannot be blocked. -/
theorem and_unblockable_eq_zero_iff {set : SigSet} :
    set &&& unblockableMask = 0 ↔
      set.getLsbD 8 = false ∧ set.getLsbD 18 = false := by
  constructor
  · intro isZero
    have eighth := congrArg (fun set => set.getLsbD 8) isZero
    have eighteenth := congrArg (fun set => set.getLsbD 18) isZero
    simpa [unblockableMask] using And.intro eighth eighteenth
  · rintro ⟨eighth, eighteenth⟩
    apply BitVec.eq_of_getLsbD_eq
    intro index inside
    by_cases isEighth : index = 8
    · subst isEighth
      rw [BitVec.getLsbD_and, eighth, Bool.false_and]
      rfl
    · by_cases isEighteenth : index = 18
      · subst isEighteenth
        rw [BitVec.getLsbD_and, eighteenth, Bool.false_and]
        rfl
      · simp [unblockableMask, Ne.symm isEighth, Ne.symm isEighteenth]

/-- `sigmask_set` leaves the two signals unblocked. -/
theorem sigmaskSet_clean (task : SigTask) (set : SigSet) :
    (SignalWorld.sigmaskSet task set).blocked &&& unblockableMask = 0 := by
  rw [and_unblockable_eq_zero_iff]
  simp [SignalWorld.sigmaskSet, unblockableMask]

/-- A signal with a handler can be blocked. -/
theorem sigIndex_of_callHandler
    {hand : Sighand}
    {sig : Int}
    (calls : signalAction hand sig = some .callHandler) :
    sigIndex sig ≠ 8 ∧ sigIndex sig ≠ 18 := by
  unfold signalAction at calls
  split at calls
  · rename_i blockable
    obtain ⟨notKill, notStop⟩ := of_decide_eq_true blockable
    unfold sigKill at notKill
    unfold sigStop at notStop
    unfold sigIndex
    constructor <;> omega
  · unfold defaultAction at calls
    split at calls
    · cases calls
    · split at calls
      · cases calls
      · cases calls

/-- The mask in a handler is as free of them as that of the action. -/
theorem maskInHandler_clean_iff
    {blocked next : SigSet}
    {action : SigAction}
    {sig : Int}
    (blockable : sigIndex sig ≠ 8 ∧ sigIndex sig ≠ 18)
    (mask : SignalWorld.maskInHandler blocked action sig = some next) :
    next &&& unblockableMask = 0 ↔
      blocked &&& unblockableMask = 0 ∧
        action.mask &&& unblockableMask = 0 := by
  simp only [and_unblockable_eq_zero_iff]
  unfold SignalWorld.maskInHandler at mask
  split at mask
  · obtain ⟨added, add, same⟩ := bind_eq_some_iff.mp mask
    cases same
    obtain ⟨_, rfl⟩ := sigsetAdd_eq_some add
    simp only [BitVec.getLsbD_or, BitVec.getLsbD_twoPow, blockable.1,
      blockable.2, decide_false, Bool.and_false, Bool.or_false,
      Bool.or_eq_false_iff]
    exact and_and_and_comm
  · cases mask
    simp only [BitVec.getLsbD_or, Bool.or_eq_false_iff]
    exact and_and_and_comm

/-- What a thread does to signals, or has the kernel do. -/
inductive SignalStep where
  | deliver (id : SigTaskId) (sig : Int) (info : SigInfo)
  | send (id : SigTaskId) (sig : Int) (info : SigInfo)
  | trySelf (id : SigTaskId) (sig : Int)
  | sigaction (id : SigTaskId) (signum : BitVec 32) (action : Option SigAction)
  | exec (id : SigTaskId)
  | sigprocmask (id : SigTaskId) (how : BitVec 32) (set : SigSet)
  | sigmaskSetTemp (id : SigTaskId) (mask : SigSet)
  | sigreturn (id : SigTaskId) (extramask oldmask : BitVec 32)
  | rtSigreturn (id : SigTaskId) (sigmask : SigSet)
  | beginReceive (id : SigTaskId)
  | receiveRound (id : SigTaskId) (traced written : Bool)
  | endStop (id : SigTaskId)
  | beginTimedwait (id : SigTaskId) (set : SigSet)
  | endTimedwait (id : SigTaskId) (timedOut : Bool)
  | create (parent child : SigTaskId)
  | clearPending (child : SigTaskId)
  | resetSignals (child : SigTaskId)
  | initQueue (child : SigTaskId)
  | sighandCopy (child : SigTaskId) (fresh : SighandId)
  | start (child : SigTaskId)
  | exit (id : SigTaskId)
  | zombie (id : SigTaskId)
  | destroy (id : SigTaskId)

namespace SignalWorld

/-- The task `current`, in a system call. -/
def running (w : SignalWorld) (id : SigTaskId) : Option SigTask :=
  (w.tasks id).filter fun task => decide (task.control = .running)

end SignalWorld

/-- Take a step. -/
def SignalStep.run (w : SignalWorld) : SignalStep → Option SignalWorld
  | deliver id sig info => w.deliverSignal id sig info
  | send id sig info => w.sendSignal id sig info
  | trySelf id sig => do
      let _ ← w.running id
      w.trySelfSignal id sig
  | sigaction id signum action => do
      let _ ← w.running id
      (w.doSigaction id signum action).map Prod.fst
  | exec id => do
      let (handId, hand) ← w.sighandOf (← w.running id)
      pure (w.setSighand handId (SignalWorld.execHandlers hand))
  | sigprocmask id how set => do
      match SignalWorld.doSigprocmask (← w.running id) how set with
      | .error _ => pure w
      | .ok task => pure (w.setTask id task)
  | sigmaskSetTemp id mask => do
      pure (w.setTask id (SignalWorld.sigmaskSetTemp (← w.running id) mask))
  | sigreturn id extramask oldmask => do
      -- `((sigset_t_) frame.extramask << 32) | frame.sc.oldmask`
      pure (w.setTask id
        (SignalWorld.sigmaskSet (← w.running id) (extramask ++ oldmask)))
  | rtSigreturn id sigmask => do
      pure (w.setTask id (SignalWorld.sigmaskSet (← w.running id) sigmask))
  | beginReceive id => w.beginReceive id
  | receiveRound id traced written => w.receiveRound id traced written
  | endStop id => w.endStop id
  | beginTimedwait id set => w.beginTimedwait id set
  | endTimedwait id timedOut => (w.endTimedwait id timedOut).map Prod.fst
  | create parent child => w.taskCreate parent child
  | clearPending child => w.clearPending child
  | resetSignals child => w.resetSignals child
  | initQueue child => w.initQueue child
  | sighandCopy child fresh => w.sighandCopy child fresh
  | start child => w.taskStart child
  | exit id => w.doExit id
  | zombie id => w.becomeZombie id
  | destroy id => w.taskDestroy id

/-- The first task, with nothing pending and all actions default. -/
def SignalWorld.first : SignalWorld where
  tasks := fun id =>
    if id = 1 then
      some {
        sighand := some 0
        blocked := 0
        pending := 0
        waiting := 0
        savedMask := 0
        hasSavedMask := false
        queue := .entries []
        zombie := false
        exiting := false
        control := .running }
    else none
  sighands := fun hand =>
    if hand = 0 then
      some { action := fun _ => .default, altstack := 0, altstackSize := 0 }
    else none

/-- All runs of the tasks of a kernel. -/
def signalMachine : Machine SignalWorld SignalStep where
  initial w := w = .first
  step w step next := step.run w = some next

/-- A task that has its own pending signals and queue, and did not exit. -/
def Control.Active : Control → Prop
  | created => False
  | cleared => False
  | exited => False
  | _ => True

/-- A task that is being created and has no queue of its own. -/
def Control.Half (control : Control) : Prop :=
  control = .created ∨ control = .cleared

theorem Control.Active.ne_exited
    {control : Control}
    (active : control.Active) :
    control ≠ .exited := by
  rintro rfl
  exact active

theorem Control.Active.ne_cleared
    {control : Control}
    (active : control.Active) :
    control ≠ .cleared := by
  rintro rfl
  exact active

theorem Control.Half.not_active
    {control : Control}
    (half : control.Half) :
    ¬ control.Active := by
  rcases half with rfl | rfl
  · exact id
  · exact id

/--
What a step does to a task it leaves behind.  `quiet` is what the step has to
be for the links and bits to stay together, `clean` what it has to be for the
masks to stay free of the signals that cannot be blocked.
-/
inductive TaskChange
    (quiet clean : Prop) (task : SigTask) : SigTask → Prop where
  | kept : TaskChange quiet clean task task
  /-- A signal was added to the queue. -/
  | queued {sig : Int} {info : SigInfo} {infos : List SigInfo} :
      task.queue = .entries infos →
      task.control.Active →
      (1 ≤ sig ∧ sig < 64) →
      task.pending.getLsbD (sigIndex sig) = false →
      TaskChange quiet clean task { task with
        pending := task.pending ||| BitVec.twoPow 64 (sigIndex sig)
        queue := .entries (infos ++ [{ info with sig := sig }]) }
  /-- A signal was sent to a task that is being created. -/
  | stray {pending queue} :
      ¬ quiet →
      task.control.Half →
      TaskChange quiet clean task { task with
        pending := pending
        queue := queue }
  /-- A signal was sent to a task whose queue is no list any more. -/
  | lost {pending} :
      task.control.Active →
      (∀ infos, task.queue ≠ .entries infos) →
      TaskChange quiet clean task { task with pending := pending }
  /-- A signal was sent to a child of this task that is being created. -/
  | broken :
      ¬ quiet →
      TaskChange quiet clean task { task with queue := .broken }
  | masked {set} :
      TaskChange quiet clean task (SignalWorld.sigmaskSet task set)
  | maskedTemp {mask} :
      TaskChange quiet clean task (SignalWorld.sigmaskSetTemp task mask)
  | restored {control} :
      task.control.Active →
      control.Active →
      TaskChange quiet clean task { task with
        hasSavedMask := false
        blocked := task.savedMask
        control := control }
  /-- The thread went on. -/
  | moved {waiting control} :
      task.control.Active →
      control.Active →
      TaskChange quiet clean task { task with
        waiting := waiting
        control := control }
  /-- `receive_signals` took an entry; a handler changes the mask. -/
  | received {infos position info blocked control} :
      task.control.Active →
      control.Active →
      task.queue = .entries infos →
      infos[position]? = some info →
      (1 ≤ info.sig ∧ info.sig < 64) →
      (clean →
      task.blocked &&& unblockableMask = 0 →
      blocked &&& unblockableMask = 0) →
      TaskChange quiet clean task { task with
        queue := .entries (infos.eraseIdx position)
        pending :=
          task.pending &&& ~~~BitVec.twoPow 64 (sigIndex info.sig)
        blocked := blocked
        control := control }
  /-- `sys_rt_sigtimedwait` took an entry. -/
  | taken {others control} :
      ¬ quiet →
      task.control.Active →
      control.Active →
      TaskChange quiet clean task { task with
        waiting := 0
        control := control
        queue := .entries others }
  | clearedPending :
      task.control.Half →
      TaskChange quiet clean task { task with
        pending := 0
        control := .cleared }
  | reset :
      TaskChange quiet clean task { task with
        blocked := 0
        pending := 0
        waiting := 0
        control := .cleared }
  | initialised :
      task.control = .cleared →
      TaskChange quiet clean task { task with
        queue := .entries []
        control := .starting }
  | ownSighand {hand} :
      task.control.Active →
      TaskChange quiet clean task { task with sighand := some hand }
  | exited :
      TaskChange quiet clean task { task with
        exiting := true
        sighand := none
        queue := .entries []
        control := .exited }
  | becameZombie :
      TaskChange quiet clean task { task with zombie := true }

/--
What the phases of a task say: one that exited has no `sighand`, and one that
is past its creation has no copied queue.
-/
structure Phased (task : SigTask) : Prop where
  retired : task.control = .exited → task.sighand = none
  owned : task.control.Active → ∀ parent, task.queue ≠ .copied parent

/-- A change of a task keeps its phase lawful. -/
theorem Phased.change
    {quiet clean : Prop}
    {before after : SigTask}
    (phased : Phased before)
    (change : TaskChange quiet clean before after) :
    Phased after := by
  cases change with
  | kept => exact phased
  | queued isQueue active | broken =>
    refine ⟨phased.retired, fun _ parent impossible => ?_⟩
    cases impossible
  | stray _ half =>
    exact ⟨phased.retired, fun active => (half.not_active active).elim⟩
  | lost active | masked | maskedTemp | becameZombie =>
    exact ⟨phased.retired, phased.owned⟩
  | restored active goesOn | moved active goesOn =>
    exact ⟨fun exited => (goesOn.ne_exited exited).elim,
      fun _ => phased.owned active⟩
  | received active goesOn | taken _ active goesOn =>
    refine ⟨fun exited => (goesOn.ne_exited exited).elim,
      fun _ parent impossible => ?_⟩
    cases impossible
  | clearedPending half | reset =>
    exact ⟨fun impossible => (nomatch impossible),
      fun impossible => impossible.elim⟩
  | initialised =>
    refine ⟨fun impossible => (nomatch impossible),
      fun _ parent impossible => ?_⟩
    cases impossible
  | ownSighand active =>
    exact ⟨fun exited => (active.ne_exited exited).elim, phased.owned⟩
  | exited => exact ⟨fun _ => rfl, fun impossible => impossible.elim⟩

/-- A task that is there after a step is new or was changed. -/
def SignalWorld.Changes
    (quiet clean : Prop) (w next : SignalWorld) : Prop :=
  ∀ id after, next.tasks id = some after →
    (∃ before, w.tasks id = some before ∧
      TaskChange quiet clean before after) ∨
      ∃ parent task, w.tasks parent = some task ∧
        after = { task with queue := .copied parent, control := .created }

namespace SignalWorld

/-- The signal is new to a task that is being created. -/
def Stray (w : SignalWorld) (id : SigTaskId) (sig : Int) : Prop :=
  ∃ task, w.tasks id = some task ∧ task.control.Half ∧
    sigsetHas task.pending sig = some false

/-- `send_signal` gets to the queue: the signal is not ignored. -/
def Receives (w : SignalWorld) (id : SigTaskId) (sig : Int) : Prop :=
  ∃ task handId hand,
    w.tasks id = some task ∧ task.zombie = false ∧ task.exiting = false ∧
      w.sighandOf task = some (handId, hand) ∧ sig ≠ 0 ∧
      signalAction hand sig ≠ some .ignore

/-- This round of `receive_signals` calls the handler of an action. -/
def CallsHandler
    (w : SignalWorld) (id : SigTaskId) (action : SigAction) : Prop :=
  ∃ task blocked position infos info handId hand,
    w.tasks id = some task ∧ task.control = .receiving blocked position ∧
      task.queue = .entries infos ∧ infos[position]? = some info ∧
      sigsetHas blocked info.sig = some false ∧
      w.sighandOf task = some (handId, hand) ∧
      signalAction hand info.sig = some .callHandler ∧
      hand.read info.sig = some action

end SignalWorld

/--
Nothing comes between the pending signals and the queue: no signal that is not
ignored and not pending yet is sent to a task that is still being created, and
`sys_rt_sigtimedwait` finds no signal it waits for.
-/
def SignalStep.Quiet (w : SignalWorld) : SignalStep → Prop
  | deliver id sig _ => ¬ w.Stray id sig
  | send id sig _ => w.Receives id sig → ¬ w.Stray id sig
  | endTimedwait id timedOut =>
    timedOut = false →
      ∀ task set infos,
        w.tasks id = some task →
        task.control = .waiting set →
        task.queue = .entries infos →
        ∀ info ∈ infos, sigsetHas set info.sig = some false
  | _ => True

/-- A handler that is called does not block what cannot be blocked. -/
def SignalStep.Clean (w : SignalWorld) : SignalStep → Prop
  | receiveRound id _ _ =>
    ∀ action, w.CallsHandler id action →
      action.mask &&& unblockableMask = 0
  | _ => True

namespace SignalWorld

variable
  {w next : SignalWorld}
  {quiet clean : Prop}
  {id : SigTaskId}
  {task after : SigTask}
  {sig : Int}
  {info : SigInfo}

theorem setTask_tasks
    (w : SignalWorld) (id other : SigTaskId) (task : SigTask) :
    (w.setTask id task).tasks other =
      if other = id then some task else w.tasks other := by
  by_cases same : other = id
  · subst same
    rw [if_pos rfl]
    exact update_self ..
  · rw [if_neg same]
    exact update_of_ne same ..

theorem Changes.refl (w : SignalWorld) : Changes quiet clean w w :=
  fun _ after isAfter => .inl ⟨after, isAfter, .kept⟩

/-- Only the tasks matter. -/
theorem Changes.congr
    {other : SignalWorld}
    (changes : Changes quiet clean w other)
    (same : next.tasks = other.tasks) :
    Changes quiet clean w next := by
  intro id after isAfter
  rw [same] at isAfter
  exact changes id after isAfter

/-- One task changes. -/
theorem changes_setTask
    (isTask : w.tasks id = some task)
    (change : TaskChange quiet clean task after) :
    Changes quiet clean w (w.setTask id after) := by
  intro other found isFound
  rw [setTask_tasks] at isFound
  by_cases same : other = id
  · subst same
    rw [if_pos rfl] at isFound
    cases isFound
    exact .inl ⟨task, isTask, change⟩
  · rw [if_neg same] at isFound
    exact .inl ⟨found, isFound, .kept⟩

/-- Sending to a task that is being created breaks the list of its parent. -/
theorem changes_breakQueue
    {pending : SigSet}
    {parent : SigTaskId}
    (isTask : w.tasks id = some task)
    (harm : ¬ quiet)
    (half : task.control.Half) :
    Changes quiet clean w
      ((w.setTask id { task with
        pending := pending
        queue := .broken }).breakQueue parent) := by
  intro other found isFound
  obtain ⟨middle, isMiddle, rfl⟩ := map_eq_some_iff.mp isFound
  rw [setTask_tasks] at isMiddle
  by_cases same : other = id
  · subst same
    rw [if_pos rfl] at isMiddle
    cases isMiddle
    refine .inl ⟨task, isTask, ?_⟩
    split
    · exact .stray harm half
    · exact .stray harm half
  · rw [if_neg same] at isMiddle
    refine .inl ⟨middle, isMiddle, ?_⟩
    split
    · exact .broken harm
    · exact .kept

/-- A task with a `sighand` did not exit. -/
theorem active_or_half
    {hand : SighandId × Sighand}
    (phased : Phased task)
    (hasSighand : w.sighandOf task = some hand) :
    task.control.Active ∨ task.control.Half := by
  have notExited : task.control ≠ .exited := by
    intro exited
    unfold sighandOf at hasSighand
    rw [phased.retired exited] at hasSighand
    cases hasSighand
  cases isControl : task.control with
  | created => exact .inr (.inl rfl)
  | cleared => exact .inr (.inr rfl)
  | exited => exact (notExited isControl).elim
  | _ => exact .inl trivial

/-- A delivery makes no other changes. -/
theorem changes_of_deliver
    (isTask : w.tasks id = some task)
    (phased : Phased task)
    (phase : task.control.Active ∨ task.control.Half)
    (stray : w.Stray id sig → ¬ quiet)
    (run : w.deliverSignalUnlocked id sig info = some next) :
    Changes quiet clean w next := by
  unfold deliverSignalUnlocked at run
  rw [isTask, bind_eq_bind, bind_some] at run
  obtain ⟨has, isHas, run⟩ := bind_eq_some_iff.mp run
  cases has with
  | true =>
    cases run
    exact .refl w
  | false =>
    obtain ⟨pending, add, run⟩ := bind_eq_some_iff.mp run
    obtain ⟨valid, rfl⟩ := sigsetAdd_eq_some add
    have absent := (sigsetHas_eq_some_iff.mp isHas).2
    have harm : task.control.Half → ¬ quiet := fun half =>
      stray ⟨task, isTask, half, isHas⟩
    cases isQueue : task.queue with
    | entries infos =>
      rw [isQueue] at run
      cases run
      cases phase with
      | inl active =>
        exact changes_setTask isTask
          (.queued isQueue active valid absent)
      | inr half =>
        exact changes_setTask isTask (.stray (harm half) half)
    | copied parent =>
      rw [isQueue] at run
      cases run
      cases phase with
      | inl active => exact (phased.owned active parent isQueue).elim
      | inr half => exact changes_breakQueue isTask (harm half) half
    | broken =>
      rw [isQueue] at run
      cases run
      cases phase with
      | inl active =>
        apply changes_setTask isTask
        rw [← isQueue]
        apply TaskChange.lost active
        intro infos impossible
        cases isQueue.symm.trans impossible
      | inr half =>
        exact changes_setTask isTask (.stray (harm half) half)

/-- `do_sigaction` changes no task. -/
theorem tasks_of_doSigaction
    {signum : BitVec 32}
    {action : Option SigAction}
    {result : Except Errno SigAction}
    (run : w.doSigaction id signum action = some (next, result)) :
    next.tasks = w.tasks := by
  unfold doSigaction at run
  dsimp only at run
  by_cases tooHigh : 64 ≤ signum.toInt
  · rw [if_pos tooHigh] at run
    cases run
    rfl
  rw [if_neg tooHigh] at run
  by_cases fixed : signalIsBlockable signum.toInt = false
  · rw [if_pos fixed] at run
    cases run
    rfl
  rw [if_neg fixed] at run
  obtain ⟨_, _, run⟩ := bind_eq_some_iff.mp run
  obtain ⟨⟨_, _⟩, _, run⟩ := bind_eq_some_iff.mp run
  obtain ⟨_, _, run⟩ := bind_eq_some_iff.mp run
  cases action with
  | none | some action =>
    cases run
    rfl

theorem changes_of_deliverSignal
    (phased : ∀ id task, w.tasks id = some task → Phased task)
    (stray : w.Stray id sig → ¬ quiet)
    (run : w.deliverSignal id sig info = some next) :
    Changes quiet clean w next := by
  obtain ⟨task, isTask, run⟩ := bind_eq_some_iff.mp run
  obtain ⟨_, hasSighand, run⟩ := bind_eq_some_iff.mp run
  have isPhased := phased id task isTask
  exact changes_of_deliver isTask isPhased
    (active_or_half isPhased hasSighand) stray run

theorem changes_of_sendSignal
    (phased : ∀ id task, w.tasks id = some task → Phased task)
    (stray : w.Receives id sig → w.Stray id sig → ¬ quiet)
    (run : w.sendSignal id sig info = some next) :
    Changes quiet clean w next := by
  obtain ⟨task, isTask, run⟩ := bind_eq_some_iff.mp run
  by_cases isZero : sig = 0
  · rw [if_pos isZero] at run
    cases run
    exact .refl w
  rw [if_neg isZero] at run
  by_cases gone : (task.zombie || task.exiting) = true
  · rw [if_pos gone] at run
    cases run
    exact .refl w
  rw [if_neg gone] at run
  obtain ⟨⟨handId, hand⟩, hasSighand, run⟩ := bind_eq_some_iff.mp run
  obtain ⟨disposition, isAction, run⟩ := bind_eq_some_iff.mp run
  by_cases ignored : disposition = .ignore
  · rw [if_pos ignored] at run
    cases run
    exact .refl w
  rw [if_neg ignored] at run
  have isPhased := phased id task isTask
  have receives : w.Receives id sig := by
    rw [Bool.not_eq_true, Bool.or_eq_false_iff] at gone
    refine ⟨task, handId, hand, isTask, gone.1, gone.2, hasSighand, isZero,
      ?_⟩
    rw [isAction]
    exact fun same => ignored (some.inj same)
  exact changes_of_deliver isTask isPhased
    (active_or_half isPhased hasSighand) (stray receives) run

/-- Nor does a signal to itself. -/
theorem changes_of_trySelfSignal
    (isTask : w.tasks id = some task)
    (phased : Phased task)
    (isRunning : task.control = .running)
    (run : w.trySelfSignal id sig = some next) :
    Changes quiet clean w next := by
  have active : task.control.Active := by
    rw [isRunning]
    trivial
  unfold trySelfSignal at run
  split at run
  · rw [isTask, bind_eq_bind, bind_some] at run
    obtain ⟨_, _, run⟩ := bind_eq_some_iff.mp run
    obtain ⟨disposition, _, run⟩ := bind_eq_some_iff.mp run
    split at run
    · cases run
      exact .refl w
    obtain ⟨isBlocked, _, run⟩ := bind_eq_some_iff.mp run
    split at run
    · cases run
      exact .refl w
    apply changes_of_deliver isTask phased (.inl active) _ run
    rintro ⟨same, isSame, half, _⟩
    cases isTask.symm.trans isSame
    rcases half with half | half
    · cases isRunning.symm.trans half
    · cases isRunning.symm.trans half
  · cases run

theorem loopAt_active (blocked : SigSet) (position : Nat) (last : Bool) :
    (loopAt blocked position last).Active := by
  cases last with
  | false => trivial
  | true => trivial

variable {step : SignalStep} {parent : SigTaskId} {infos : List SigInfo}

/-- What `receive_signal` does with an entry that was taken. -/
theorem changes_of_receiveSignal
    {position : Nat}
    {control : Control}
    {written : Bool}
    (isTask : w.tasks id = some task)
    (active : task.control.Active)
    (goesOn : control.Active)
    (isQueue : task.queue = .entries infos)
    (isInfo : infos[position]? = some info)
    (valid : 1 ≤ info.sig ∧ info.sig < 64)
    (handler :
      ∀ handId hand action,
        w.sighandOf task = some (handId, hand) →
        signalAction hand info.sig = some .callHandler →
        hand.read info.sig = some action →
        clean → action.mask &&& unblockableMask = 0)
    (run :
      w.receiveSignal id { task with
        queue := .entries (infos.eraseIdx position)
        pending :=
          task.pending &&& ~~~BitVec.twoPow 64 (sigIndex info.sig)
        control := control } info.sig written = some next) :
    Changes quiet clean w next := by
  obtain ⟨⟨handId, hand⟩, hasSighand, run⟩ := bind_eq_some_iff.mp run
  obtain ⟨disposition, isAction, run⟩ := bind_eq_some_iff.mp run
  have taken :
      ∀ {blocked : SigSet} {after : Control},
        after.Active →
        (clean → task.blocked &&& unblockableMask = 0 →
        blocked &&& unblockableMask = 0) →
        TaskChange quiet clean task { task with
          queue := .entries (infos.eraseIdx position)
          pending :=
            task.pending &&& ~~~BitVec.twoPow 64 (sigIndex info.sig)
          blocked := blocked
          control := after } := fun goesOn keeps =>
    .received active goesOn isQueue isInfo valid keeps
  cases disposition with
  | ignore | stop =>
    cases run
    exact changes_setTask isTask (taken goesOn fun _ same => same)
  | kill =>
    cases run
    exact changes_setTask isTask (taken trivial fun _ same => same)
  | callHandler =>
    obtain ⟨action, isRead, run⟩ := bind_eq_some_iff.mp run
    obtain ⟨blocked, mask, run⟩ := bind_eq_some_iff.mp run
    have blockable := sigIndex_of_callHandler isAction
    have changed : Changes quiet clean w (w.setTask id _) :=
      changes_setTask isTask (taken goesOn fun isClean same =>
        (maskInHandler_clean_iff blockable mask).mpr
          ⟨same, handler handId hand action hasSighand isAction isRead
            isClean⟩)
    split at run
    · cases run
    split at run
    · cases run
      exact changed
    · cases run
      exact changed.congr rfl

/-- Nor does a round of a pass. -/
theorem changes_of_receiveRound
    {traced written : Bool}
    (handler :
      ∀ action, w.CallsHandler id action →
        clean → action.mask &&& unblockableMask = 0)
    (run : w.receiveRound id traced written = some next) :
    Changes quiet clean w next := by
  obtain ⟨task, isTask, run⟩ := bind_eq_some_iff.mp run
  split at run
  · rename_i blocked position infos isControl isQueue
    have active : task.control.Active := by
      rw [isControl]
      trivial
    obtain ⟨info, isInfo, run⟩ := bind_eq_some_iff.mp run
    obtain ⟨has, isHas, run⟩ := bind_eq_some_iff.mp run
    cases has with
    | true =>
      cases run
      exact changes_setTask isTask (.moved active (loopAt_active ..))
    | false =>
      obtain ⟨pending, del, run⟩ := bind_eq_some_iff.mp run
      obtain ⟨valid, rfl⟩ := sigsetDel_eq_some del
      split at run
      · cases run
        exact changes_setTask isTask
          (.received active trivial isQueue isInfo valid
            fun _ same => same)
      · apply changes_of_receiveSignal isTask active (loopAt_active ..)
          isQueue isInfo valid _ run
        intro handId hand action hasSighand isAction isRead
        exact handler action ⟨task, blocked, position, infos, info, handId,
          hand, isTask, isControl, isQueue, isInfo, isHas, hasSighand,
          isAction, isRead⟩
  · cases run

/-- Nor does its start. -/
theorem changes_of_beginReceive
    (run : w.beginReceive id = some next) :
    Changes quiet clean w next := by
  obtain ⟨task, isTask, run⟩ := bind_eq_some_iff.mp run
  split at run
  · rename_i infos isControl isQueue
    have active : task.control.Active := by
      rw [isControl]
      trivial
    obtain ⟨_, _, run⟩ := bind_eq_some_iff.mp run
    split at run
    · cases run
      exact changes_setTask isTask (.restored active (loopAt_active ..))
    · cases run
      exact changes_setTask isTask (.moved active (loopAt_active ..))
  · cases run

theorem changes_of_endStop
    (run : w.endStop id = some next) :
    Changes quiet clean w next := by
  obtain ⟨task, isTask, run⟩ := bind_eq_some_iff.mp run
  split at run
  · rename_i blocked position last isControl
    have active : task.control.Active := by
      rw [isControl]
      trivial
    obtain ⟨has, _, run⟩ := bind_eq_some_iff.mp run
    split at run
    · cases run
      exact changes_setTask isTask (.moved active trivial)
    · cases run
      exact changes_setTask isTask (.moved active (loopAt_active ..))
  · cases run

theorem changes_of_beginTimedwait
    {set : SigSet}
    (run : w.beginTimedwait id set = some next) :
    Changes quiet clean w next := by
  obtain ⟨task, isTask, run⟩ := bind_eq_some_iff.mp run
  split at run
  · rename_i ready
    have active : task.control.Active := by
      rw [ready.1]
      trivial
    cases run
    exact changes_setTask isTask (.moved active trivial)
  · cases run

/-- `sys_rt_sigtimedwait` takes an entry only if one has its signals. -/
theorem takeFirst_eq_none
    {set : SigSet}
    {found : Option (SigInfo × List SigInfo)}
    (absent : ∀ info ∈ infos, sigsetHas set info.sig = some false)
    (take : takeFirst set infos = some found) :
    found = none := by
  induction infos generalizing found with
  | nil =>
    cases take
    rfl
  | cons head rest inductionHypothesis =>
    unfold takeFirst at take
    rw [absent head List.mem_cons_self, bind_eq_bind,
      bind_some] at take
    obtain ⟨later, takeRest, same⟩ := bind_eq_some_iff.mp take
    have noLater := inductionHypothesis
      (fun info member => absent info (List.mem_cons_of_mem _ member))
      takeRest
    rw [noLater] at same
    cases same
    rfl

/-- Nor does the end of a wait. -/
theorem changes_of_endTimedwait
    {timedOut : Bool}
    {result : Except Errno Int}
    (absent :
      quiet →
        timedOut = false →
        ∀ task set infos,
          w.tasks id = some task →
          task.control = .waiting set →
          task.queue = .entries infos →
          ∀ info ∈ infos, sigsetHas set info.sig = some false)
    (run : w.endTimedwait id timedOut = some (next, result)) :
    Changes quiet clean w next := by
  obtain ⟨task, isTask, run⟩ := bind_eq_some_iff.mp run
  split at run
  · rename_i set infos isControl isQueue
    have active : task.control.Active := by
      rw [isControl]
      trivial
    have back :
        TaskChange quiet clean task { task with
          waiting := 0
          control := .running } :=
      .moved active trivial
    split at run
    · cases run
      exact changes_setTask isTask back
    · rename_i notTimedOut
      split at run
      · cases run
      obtain ⟨found, take, run⟩ := bind_eq_some_iff.mp run
      cases found with
      | none =>
        cases run
        exact changes_setTask isTask back
      | some entry =>
        obtain ⟨info, others⟩ := entry
        cases run
        apply changes_setTask isTask
        refine .taken ?_ active trivial
        intro isQuiet
        have noEntry :=
          takeFirst_eq_none
            (absent isQuiet (Bool.eq_false_iff.mpr notTimedOut) task set
              infos isTask isControl isQueue)
            take
        cases noEntry
  · cases run

/-- A new task changes no other one. -/
theorem changes_of_taskCreate
    {child : SigTaskId}
    (run : w.taskCreate parent child = some next) :
    Changes quiet clean w next := by
  obtain ⟨task, isTask, run⟩ := bind_eq_some_iff.mp run
  split at run
  · cases run
  · cases run
    intro other found isFound
    rw [setTask_tasks] at isFound
    split at isFound
    · cases isFound
      exact .inr ⟨parent, task, isTask, rfl⟩
    · exact .inl ⟨found, isFound, .kept⟩

/-- The steps in which a new task gets its own signals. -/
theorem changes_of_creation
    {child : SigTaskId}
    (isCreation :
      step = .clearPending child ∨ step = .resetSignals child ∨
        step = .initQueue child ∨ step = .start child)
    (run : step.run w = some next) :
    Changes quiet clean w next := by
  rcases isCreation with rfl | rfl | rfl | rfl
  all_goals
    obtain ⟨task, isTask, run⟩ := bind_eq_some_iff.mp run
    split at run
  · rename_i isControl
    cases run
    exact changes_setTask isTask (.clearedPending (.inl isControl))
  · cases run
  · cases run
    exact changes_setTask isTask .reset
  · cases run
  · rename_i isControl
    cases run
    exact changes_setTask isTask (.initialised isControl)
  · cases run
  · rename_i isControl
    have active : task.control.Active := by
      rw [isControl]
      trivial
    cases run
    exact changes_setTask isTask (.moved active trivial)
  · cases run

theorem changes_of_sighandCopy
    {fresh : SighandId}
    (run : w.sighandCopy id fresh = some next) :
    Changes quiet clean w next := by
  obtain ⟨task, isTask, run⟩ := bind_eq_some_iff.mp run
  obtain ⟨⟨_, _⟩, _, run⟩ := bind_eq_some_iff.mp run
  dsimp only at run
  by_cases ready : task.control = .starting ∧ w.sighands fresh = none
  · have active : task.control.Active := by
      rw [ready.1]
      trivial
    rw [if_pos ready] at run
    cases run
    have changed :
        Changes quiet clean w
          (w.setTask id { task with sighand := some fresh }) :=
      changes_setTask isTask (.ownSighand active)
    exact changed.congr rfl
  · rw [if_neg ready] at run
    cases run

/-- A task that ends changes no other one. -/
theorem changes_of_ending
    (isEnding :
      step = .exit id ∨ step = .zombie id ∨ step = .destroy id)
    (run : step.run w = some next) :
    Changes quiet clean w next := by
  rcases isEnding with rfl | rfl | rfl
  · obtain ⟨task, isTask, run⟩ := bind_eq_some_iff.mp run
    split at run
    · split at run
      · cases run
        exact changes_setTask isTask .exited
      · cases run
    · cases run
  · obtain ⟨task, isTask, run⟩ := bind_eq_some_iff.mp run
    cases run
    exact changes_setTask isTask .becameZombie
  · obtain ⟨task, isTask, run⟩ := bind_eq_some_iff.mp run
    split at run
    · cases run
      intro other found isFound
      by_cases same : other = id
      · subst same
        cases (update_self other none w.tasks).symm.trans isFound
      · have isOld : w.tasks other = some found :=
          (update_of_ne same none w.tasks).symm.trans isFound
        exact .inl ⟨found, isOld, .kept⟩
    · cases run

theorem of_running
    (isRunning : w.running id = some task) :
    w.tasks id = some task ∧ task.control = .running := by
  obtain ⟨isTask, control⟩ := filter_eq_some_iff.mp isRunning
  exact ⟨isTask, of_decide_eq_true control⟩

/-- What a step does to every task. -/
theorem changes_of_run
    (phased : ∀ id task, w.tasks id = some task → Phased task)
    (run : step.run w = some next) :
    Changes (step.Quiet w) (step.Clean w) w next := by
  cases step with
  | deliver id sig info =>
    exact changes_of_deliverSignal phased
      (fun stray isQuiet => isQuiet stray) run
  | send id sig info =>
    exact changes_of_sendSignal phased
      (fun receives stray isQuiet => isQuiet receives stray) run
  | trySelf id sig =>
    obtain ⟨task, isRunning, run⟩ := bind_eq_some_iff.mp run
    obtain ⟨isTask, isControl⟩ := of_running isRunning
    exact changes_of_trySelfSignal isTask (phased id task isTask)
      isControl run
  | sigaction id signum action =>
    obtain ⟨task, _, run⟩ := bind_eq_some_iff.mp run
    obtain ⟨⟨_, _⟩, write, rfl⟩ := map_eq_some_iff.mp run
    exact (Changes.refl w).congr (tasks_of_doSigaction write)
  | exec id =>
    obtain ⟨task, _, run⟩ := bind_eq_some_iff.mp run
    obtain ⟨_, _, run⟩ := bind_eq_some_iff.mp run
    cases run
    exact (Changes.refl w).congr rfl
  | sigprocmask id how set =>
    obtain ⟨task, isRunning, run⟩ := bind_eq_some_iff.mp run
    have isTask := (of_running isRunning).1
    unfold doSigprocmask at run
    split at run
    · cases run
      exact .refl w
    · rename_i masked isMasked
      cases run
      split at isMasked
      · cases isMasked
        exact changes_setTask isTask .masked
      split at isMasked
      · cases isMasked
        exact changes_setTask isTask .masked
      split at isMasked
      · cases isMasked
        exact changes_setTask isTask .masked
      · cases isMasked
  | sigmaskSetTemp id mask =>
    obtain ⟨task, isRunning, run⟩ := bind_eq_some_iff.mp run
    cases run
    exact changes_setTask (of_running isRunning).1 .maskedTemp
  | sigreturn id extramask oldmask | rtSigreturn id sigmask =>
    obtain ⟨task, isRunning, run⟩ := bind_eq_some_iff.mp run
    cases run
    exact changes_setTask (of_running isRunning).1 .masked
  | beginReceive id => exact changes_of_beginReceive run
  | receiveRound id traced written =>
    exact changes_of_receiveRound
      (fun action calls isClean => isClean action calls) run
  | endStop id => exact changes_of_endStop run
  | beginTimedwait id set => exact changes_of_beginTimedwait run
  | endTimedwait id timedOut =>
    obtain ⟨⟨_, _⟩, finish, rfl⟩ := map_eq_some_iff.mp run
    exact changes_of_endTimedwait (fun isQuiet => isQuiet) finish
  | create parent child => exact changes_of_taskCreate run
  | clearPending child => exact changes_of_creation (.inl rfl) run
  | resetSignals child => exact changes_of_creation (.inr (.inl rfl)) run
  | initQueue child =>
    exact changes_of_creation (.inr (.inr (.inl rfl))) run
  | sighandCopy child fresh => exact changes_of_sighandCopy run
  | start child => exact changes_of_creation (.inr (.inr (.inr rfl))) run
  | exit id => exact changes_of_ending (.inl rfl) run
  | zombie id => exact changes_of_ending (.inr (.inl rfl)) run
  | destroy id => exact changes_of_ending (.inr (.inr rfl)) run

/--
All tasks of a restricted run have what the first one has, what a child takes
over, and what the changes of every step that is allowed keep.
-/
theorem tasks_invariant
    {allowed : SignalWorld → SignalStep → Prop}
    {motive : SigTask → Prop}
    (start : ∀ task, SignalWorld.first.tasks 1 = some task → motive task)
    (keep :
      ∀ {w step before after},
        allowed w step →
        motive before →
        TaskChange (step.Quiet w) (step.Clean w) before after →
        motive after)
    (create :
      ∀ parent task,
        motive task →
        motive { task with queue := .copied parent, control := .created })
    (reachable : (signalMachine.restrict allowed).Reachable w) :
    ∀ id task, w.tasks id = some task → Phased task ∧ motive task := by
  refine Machine.Reachable.invariant
    (motive := fun w =>
      ∀ id task, w.tasks id = some task → Phased task ∧ motive task)
    ?_ ?_ reachable
  · rintro _ rfl id task isTask
    unfold first at isTask
    dsimp only at isTask
    split at isTask
    · refine ⟨?_, start task isTask⟩
      cases isTask
      refine ⟨fun impossible => (nomatch impossible),
        fun _ parent impossible => ?_⟩
      cases impossible
    · cases isTask
  · intro before step next holds taken id task isTask
    have changes :=
      changes_of_run (fun id task isTask => (holds id task isTask).1) taken.2
    rcases changes id task isTask with
      ⟨old, isOld, change⟩ | ⟨parent, old, isParent, rfl⟩
    · obtain ⟨phased, had⟩ := holds id old isOld
      exact ⟨phased.change change, keep taken.1 had change⟩
    · exact ⟨⟨fun impossible => (nomatch impossible),
        fun impossible => impossible.elim⟩,
        create parent old (holds parent old isParent).2⟩

end SignalWorld

end GuestKernel
