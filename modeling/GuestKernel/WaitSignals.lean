import GuestKernel.SignalSteps

namespace GuestKernel

/-!
# Signals and condition waits

`wait_for` of `util/sync.c` against `deliver_signal` of `kernel/signal.c`.  A
waiter checks for signals under the lock of its `sighand`, publishes its
condition under `waiting_cond_lock` and sleeps, giving up the lock of the
wait; a deliverer sets the signal pending under the first of these locks,
reads the condition under the second and notifies it under the third.
-/

/-- The condition and the lock of a wait: `waiting_cond` and `waiting_lock`. -/
structure WaitingOn where
  cond : Nat
  lock : Nat
  deriving Repr, DecidableEq

/-- Where a task is in `wait_for`. -/
inductive WaitPhase where
  | out
  | checked (on : WaitingOn)
  | published (on : WaitingOn)
  | asleep (on : WaitingOn)
  | roused (on : WaitingOn)
  | leaving (on : WaitingOn)
  deriving Repr, DecidableEq

/-- What a task has for its waits and signals. -/
structure WaitTask where
  phase : WaitPhase
  waitingOn : Option WaitingOn
  pending : SigSet
  blocked : SigSet
  waiting : SigSet
  sighandLock : Nat
  deriving Repr, DecidableEq

/--
All tasks, the owners of the locks, and for each thread the task it has still
to notify of a signal.
-/
structure WaitWorld where
  tasks : Nat → WaitTask
  owner : Nat → Option Nat
  notifying : Nat → Option Nat

/-- `is_signal_pending`. -/
def WaitTask.isSignalPending (task : WaitTask) : Bool :=
  decide (task.pending &&& ~~~task.blocked ≠ 0)

namespace WaitWorld

/-- Nobody waits and no lock is taken; every task has a lock for its sighand. -/
def start (sighandLock : Nat → Nat) : WaitWorld where
  tasks := fun task => {
    phase := .out
    waitingOn := none
    pending := 0
    blocked := 0
    waiting := 0
    sighandLock := sighandLock task }
  owner := fun _ => none
  notifying := fun _ => none

/-- Write a task. -/
def setTask (world : WaitWorld) (id : Nat) (task : WaitTask) : WaitWorld :=
  { world with tasks := Function.update world.tasks id task }

/-- Move a task in its wait. -/
def setPhase (world : WaitWorld) (id : Nat) (phase : WaitPhase) : WaitWorld :=
  world.setTask id { world.tasks id with phase := phase }

/-- Write the owner of a lock. -/
def setOwner
    (world : WaitWorld) (lock : Nat) (owner : Option Nat) : WaitWorld :=
  { world with owner := Function.update world.owner lock owner }

/-- Write whom a thread has still to notify. -/
def setNotifying
    (world : WaitWorld) (thread : Nat) (task : Option Nat) : WaitWorld :=
  { world with notifying := Function.update world.notifying thread task }

/-- A thread runs code of its own: it is in no wait and notifies nobody. -/
def isIdle (world : WaitWorld) (thread : Nat) : Bool :=
  decide ((world.tasks thread).phase = .out ∧ world.notifying thread = none)

/-- A thread can go through a section under a lock, or has it already. -/
def canEnter (world : WaitWorld) (thread lock : Nat) : Bool :=
  decide (world.owner lock = none ∨ world.owner lock = some thread)

/-- `is_signal_pending` at the start of `wait_for`; the caller has the lock. -/
def beginWait
    (world : WaitWorld) (task : Nat) (on : WaitingOn) : Option WaitWorld :=
  if world.isIdle task ∧ world.owner on.lock = some task ∧
      (on.lock ≠ (world.tasks task).sighandLock →
        world.owner (world.tasks task).sighandLock = none) then
    if (world.tasks task).isSignalPending then some world
    else some (world.setPhase task (.checked on))
  else
    none

/-- `current->waiting_cond = cond`. -/
def publish (world : WaitWorld) (task : Nat) : Option WaitWorld :=
  match (world.tasks task).phase with
  | .checked on =>
    some (world.setTask task { world.tasks task with
      phase := .published on
      waitingOn := some on })
  | _ => none

/-- The start of `pthread_cond_wait`. -/
def sleep (world : WaitWorld) (task : Nat) : Option WaitWorld :=
  match (world.tasks task).phase with
  | .published on =>
    some ((world.setPhase task (.asleep on)).setOwner on.lock none)
  | _ => none

/-- A sleep ends: by a notification, by its timeout or for no reason. -/
def rouse (world : WaitWorld) (task : Nat) : Option WaitWorld :=
  match (world.tasks task).phase with
  | .asleep on => some (world.setPhase task (.roused on))
  | _ => none

/-- The end of `pthread_cond_wait`. -/
def relock (world : WaitWorld) (task : Nat) : Option WaitWorld :=
  match (world.tasks task).phase with
  | .roused on =>
    if world.owner on.lock = none then
      some ((world.setPhase task (.leaving on)).setOwner on.lock (some task))
    else
      none
  | _ => none

/-- `current->waiting_cond = NULL`, and the end of `wait_for`. -/
def leave (world : WaitWorld) (task : Nat) : Option WaitWorld :=
  match (world.tasks task).phase with
  | .leaving _ =>
    some (world.setTask task { world.tasks task with
      phase := .out
      waitingOn := none })
  | _ => none

/--
`deliver_signal_unlocked` under the lock of the sighand, up to where it lets
go of that lock to notify the task.
-/
def deliver
    (world : WaitWorld) (thread id : Nat) (sig : Int) : Option WaitWorld := do
  let task := world.tasks id
  if world.isIdle thread ∧ world.canEnter thread task.sighandLock then
    if ← sigsetHas task.pending sig then
      pure world
    else
      let pending ← sigsetAdd task.pending sig
      let world := world.setTask id { task with pending := pending }
      if (← sigsetHas (task.blocked &&& ~~~task.waiting) sig) ∧
          signalIsBlockable sig then
        pure world
      else if id ≠ thread then
        pure (world.setNotifying thread (some id))
      else
        pure world
  else
    none

/-- `pthread_cond_broadcast`. -/
def notify (world : WaitWorld) (cond : Nat) : WaitWorld :=
  { world with
    tasks := fun id =>
      match (world.tasks id).phase with
      | .asleep on =>
        if on.cond = cond then
          { world.tasks id with phase := .roused on }
        else
          world.tasks id
      | _ => world.tasks id }

/-- A round of `retry`, under `waiting_cond_lock`. -/
def attempt (world : WaitWorld) (thread : Nat) : Option WaitWorld :=
  match world.notifying thread with
  | none => none
  | some id =>
    match (world.tasks id).waitingOn with
    | none => some (world.setNotifying thread none)
    | some on =>
      if world.canEnter thread on.lock then
        some ((world.notify on.cond).setNotifying thread none)
      else
        some world

end WaitWorld

/-- What happens to the waits, the signals and the locks. -/
inductive WaitStep where
  | acquire (thread lock : Nat)
  | giveUp (thread lock : Nat)
  | beginWait (task : Nat) (on : WaitingOn)
  | publish (task : Nat)
  | sleep (task : Nat)
  | rouse (task : Nat)
  | relock (task : Nat)
  | leave (task : Nat)
  | deliver (thread task : Nat) (sig : Int)
  | attempt (thread : Nat)
  | notify (cond : Nat)
  | setMask (task : Nat) (blocked waiting : SigSet)
  | receive (task : Nat) (pending : SigSet)

namespace WaitStep

/-- The code a step runs, if it can run. -/
def run (world : WaitWorld) : WaitStep → Option WaitWorld
  | acquire thread lock =>
    if world.isIdle thread ∧ world.owner lock = none then
      some (world.setOwner lock (some thread))
    else
      none
  | giveUp thread lock =>
    if world.isIdle thread ∧ world.owner lock = some thread then
      some (world.setOwner lock none)
    else
      none
  | beginWait task on => world.beginWait task on
  | publish task => world.publish task
  | sleep task => world.sleep task
  | rouse task => world.rouse task
  | relock task => world.relock task
  | leave task => world.leave task
  | deliver thread task sig => world.deliver thread task sig
  | attempt thread => world.attempt thread
  | notify cond => some (world.notify cond)
  | setMask task blocked waiting =>
    -- a task writes its own masks, and not while it is in a wait
    if world.isIdle task ∧
        world.canEnter task (world.tasks task).sighandLock then
      some (world.setTask task { world.tasks task with
        blocked := blocked
        waiting := waiting })
    else
      none
  | receive task pending =>
    -- only the task itself takes signals from its pending set
    if world.isIdle task ∧
        world.canEnter task (world.tasks task).sighandLock ∧
        pending &&& ~~~(world.tasks task).pending = 0 then
      some (world.setTask task { world.tasks task with pending := pending })
    else
      none

/--
No deliverer looks for the condition of a task that has checked for signals
and not yet published its condition, when its signal is already pending.
-/
def Clean (world : WaitWorld) : WaitStep → Prop
  | attempt thread =>
    ∀ id on,
      world.notifying thread = some id →
      (world.tasks id).phase = .checked on →
      (world.tasks id).isSignalPending = false
  | _ => True

end WaitStep

/-- All interleavings of waits and deliveries. -/
def condWaitMachine (sighandLock : Nat → Nat) : Machine WaitWorld WaitStep where
  initial world := world = .start sighandLock
  step world step next := step.run world = some next

/-- The task holds the lock of its wait. -/
def WaitPhase.holds : WaitPhase → Option WaitingOn
  | .checked on => some on
  | .published on => some on
  | .leaving on => some on
  | _ => none

/-- The task has a published condition. -/
def WaitPhase.shows : WaitPhase → Option WaitingOn
  | .published on => some on
  | .asleep on => some on
  | .roused on => some on
  | .leaving on => some on
  | _ => none

/-- The task has checked for signals and has not been woken since. -/
def WaitPhase.isResting : WaitPhase → Bool
  | .checked _ => true
  | .published _ => true
  | .asleep _ => true
  | _ => false

namespace WaitWorld

/--
A task holds the lock of its wait until it sleeps, its condition is there to
be read from then on, and whoever made a signal pending for it since its check
has still to notify it.
-/
structure Attended (world : WaitWorld) : Prop where
  held :
    ∀ id on, (world.tasks id).phase.holds = some on →
      world.owner on.lock = some id
  shown :
    ∀ id on, (world.tasks id).phase.shows = some on →
      (world.tasks id).waitingOn = some on
  told :
    ∀ id, (world.tasks id).phase.isResting = true →
      (world.tasks id).isSignalPending = true →
      ∃ thread, world.notifying thread = some id
  others : ∀ thread id, world.notifying thread = some id → id ≠ thread

variable {world next : WaitWorld}

variable {id task thread : Nat} {on : WaitingOn}

/--
One task moves in its wait and may take or give up a lock: what holds of it
afterwards is shown for it alone.
-/
theorem Attended.move
    {task : WaitTask}
    {owner : Nat → Option Nat}
    (attended : world.Attended)
    (othersKeep :
      ∀ other lock,
        other ≠ id → world.owner lock = some other →
        owner lock = some other)
    (held : ∀ on, task.phase.holds = some on → owner on.lock = some id)
    (shown : ∀ on, task.phase.shows = some on → task.waitingOn = some on)
    (told :
      task.phase.isResting = true → task.isSignalPending = true →
        ∃ thread, world.notifying thread = some id) :
    Attended { world.setTask id task with owner := owner } := by
  have taskAt :
      ∀ other,
        (world.setTask id task).tasks other =
          if other = id then task else world.tasks other := by
    intro other
    unfold setTask
    by_cases same : other = id
    · subst same
      simp
    · simp [same]
  constructor
  case others => exact attended.others
  case held =>
    intro other on isHeld
    by_cases same : other = id
    · subst same
      rw [taskAt, if_pos rfl] at isHeld
      exact held on isHeld
    · rw [taskAt, if_neg same] at isHeld
      exact othersKeep other on.lock same (attended.held other on isHeld)
  case shown =>
    intro other on isShown
    by_cases same : other = id
    · subst same
      rw [taskAt, if_pos rfl] at isShown ⊢
      exact shown on isShown
    · rw [taskAt, if_neg same] at isShown ⊢
      exact attended.shown other on isShown
  case told =>
    intro other isResting isPending
    by_cases same : other = id
    · subst same
      rw [taskAt, if_pos rfl] at isResting isPending
      exact told isResting isPending
    · rw [taskAt, if_neg same] at isResting isPending
      exact attended.told other isResting isPending

theorem Attended.setTask
    {task : WaitTask}
    (attended : world.Attended)
    (held : ∀ on, task.phase.holds = some on → world.owner on.lock = some id)
    (shown : ∀ on, task.phase.shows = some on → task.waitingOn = some on)
    (told :
      task.phase.isResting = true → task.isSignalPending = true →
        ∃ thread, world.notifying thread = some id) :
    (world.setTask id task).Attended :=
  attended.move (fun _ _ _ same => same) held shown told

theorem Attended.setTask_out
    {task : WaitTask}
    (attended : world.Attended)
    (isOut : task.phase = .out) :
    (world.setTask id task).Attended := by
  refine attended.setTask ?_ ?_ ?_
  · intro on isHeld
    rw [isOut] at isHeld
    cases isHeld
  · intro on isShown
    rw [isOut] at isShown
    cases isShown
  · intro isResting
    rw [isOut] at isResting
    cases isResting

/-- A lock that no wait holds changes its owner. -/
theorem Attended.setOwner
    {lock : Nat}
    {owner : Option Nat}
    (attended : world.Attended)
    (unheld :
      ∀ id on, (world.tasks id).phase.holds = some on → on.lock ≠ lock) :
    (world.setOwner lock owner).Attended := by
  constructor
  case others => exact attended.others
  case shown => exact attended.shown
  case told => exact attended.told
  case held =>
    intro id on isHeld
    show Function.update world.owner lock owner on.lock = some id
    rw [Function.update_of_ne (unheld id on isHeld)]
    exact attended.held id on isHeld

theorem tasks_notify (world : WaitWorld) (cond id : Nat) :
    (world.notify cond).tasks id = world.tasks id ∨
      ∃ on, (world.tasks id).phase = .asleep on ∧ on.cond = cond ∧
        (world.notify cond).tasks id =
          { world.tasks id with phase := .roused on } := by
  unfold notify
  dsimp only
  cases isPhase : (world.tasks id).phase with
  | asleep on =>
    by_cases same : on.cond = cond
    · exact .inr ⟨on, rfl, same, if_pos same⟩
    · exact .inl (if_neg same)
  | out | checked on | published on | roused on | leaving on => exact .inl rfl

/-- A notification only ends sleeps. -/
theorem Attended.notify
    (attended : world.Attended)
    (cond : Nat) :
    (world.notify cond).Attended := by
  constructor
  case others => exact attended.others
  case held =>
    intro id on isHeld
    rcases tasks_notify world cond id with same | ⟨slept, _, _, now⟩
    · rw [same] at isHeld
      exact attended.held id on isHeld
    · rw [now] at isHeld
      cases isHeld
  case shown =>
    intro id on isShown
    rcases tasks_notify world cond id with same | ⟨slept, was, _, now⟩
    · rw [same] at isShown ⊢
      exact attended.shown id on isShown
    · rw [now] at isShown ⊢
      cases isShown
      refine attended.shown id on ?_
      rw [was]
      rfl
  case told =>
    intro id isResting isPending
    rcases tasks_notify world cond id with same | ⟨slept, _, _, now⟩
    · rw [same] at isResting isPending
      exact attended.told id isResting isPending
    · rw [now] at isResting
      cases isResting

/-- A blocked signal that is not waited for changes nothing unblocked. -/
theorem isSignalPending_add_blocked
    {task : WaitTask}
    {sig : Int}
    {pending : SigSet}
    (isBlocked :
      sigsetHas (task.blocked &&& ~~~task.waiting) sig = some true)
    (isAdded : sigsetAdd task.pending sig = some pending) :
    { task with pending := pending }.isSignalPending =
      task.isSignalPending := by
  obtain ⟨valid, isBit⟩ := sigsetHas_eq_some_iff.mp isBlocked
  obtain ⟨mask, isMask, rfl⟩ := Option.map_eq_some_iff.mp isAdded
  obtain ⟨_, rfl⟩ := sigMask_eq_some_iff.mp isMask
  rw [BitVec.getLsbD_and, Bool.and_eq_true] at isBit
  have same :
      (task.pending ||| BitVec.twoPow 64 (sigIndex sig)) &&& ~~~task.blocked =
        task.pending &&& ~~~task.blocked := by
    apply BitVec.eq_of_getLsbD_eq
    intro index inside
    rw [BitVec.getLsbD_and, BitVec.getLsbD_and, BitVec.getLsbD_or,
      BitVec.getLsbD_not, BitVec.getLsbD_twoPow]
    by_cases isIndex : sigIndex sig = index
    · subst isIndex
      rw [isBit.1]
      simp
    · simp [isIndex]
  unfold WaitTask.isSignalPending
  dsimp only
  rw [same]

theorem tasks_setTask
    (world : WaitWorld) (id : Nat) (task : WaitTask) (other : Nat) :
    (world.setTask id task).tasks other =
      if other = id then task else world.tasks other := by
  unfold setTask
  by_cases same : other = id
  · subst same
    simp
  · simp [same]

/-- A signal is set pending, and a thread is to notify its task. -/
theorem Attended.setNotifying
    {pending : SigSet}
    (attended : world.Attended)
    (isFree : world.notifying thread = none)
    (isOther : id ≠ thread) :
    ((world.setTask id { world.tasks id with
      pending := pending }).setNotifying thread (some id)).Attended := by
  have phaseAt :
      ∀ other,
        ((world.setTask id { world.tasks id with
          pending := pending }).tasks other).phase =
            (world.tasks other).phase := by
    intro other
    rw [tasks_setTask]
    by_cases same : other = id
    · rw [if_pos same, same]
    · rw [if_neg same]
  constructor
  case held =>
    intro other on isHeld
    exact attended.held other on ((phaseAt other) ▸ isHeld)
  case shown =>
    intro other on isShown
    have wasShown := attended.shown other on ((phaseAt other) ▸ isShown)
    show ((world.setTask id _).tasks other).waitingOn = some on
    rw [tasks_setTask]
    by_cases same : other = id
    · rw [if_pos same, ← same]
      exact wasShown
    · rw [if_neg same]
      exact wasShown
  case told =>
    intro other isResting isPending
    by_cases same : other = id
    · subst same
      exact ⟨thread, Function.update_self ..⟩
    · have plain :
          (world.setTask id { world.tasks id with
            pending := pending }).tasks other = world.tasks other := by
        rw [tasks_setTask, if_neg same]
      obtain ⟨notifier, notifies⟩ :=
        attended.told other ((phaseAt other) ▸ isResting) (plain ▸ isPending)
      have different : notifier ≠ thread := by
        rintro rfl
        cases isFree.symm.trans notifies
      exact ⟨notifier, (Function.update_of_ne different ..).trans notifies⟩
  case others =>
    intro notifier other notifies
    by_cases same : notifier = thread
    · subst same
      cases (Function.update_self ..).symm.trans notifies
      exact isOther
    · exact attended.others notifier other
        ((Function.update_of_ne same ..).symm.trans notifies)

/-- A delivery leaves somebody who notifies the task. -/
theorem Attended.deliver
    {sig : Int}
    (attended : world.Attended)
    (run : world.deliver thread id sig = some next) :
    next.Attended := by
  unfold WaitWorld.deliver at run
  dsimp only at run
  by_cases enabled :
      world.isIdle thread ∧ world.canEnter thread (world.tasks id).sighandLock
  case neg =>
    rw [if_neg enabled] at run
    cases run
  rw [if_pos enabled] at run
  obtain ⟨isOut, notNotifying⟩ := of_decide_eq_true enabled.1
  obtain ⟨has, _, run⟩ := Option.bind_eq_some_iff.mp run
  cases has with
  | true =>
    cases run
    exact attended
  | false =>
    obtain ⟨pending, isAdded, run⟩ := Option.bind_eq_some_iff.mp run
    obtain ⟨blockedHas, isBlocked, run⟩ := Option.bind_eq_some_iff.mp run
    by_cases staysQuiet : blockedHas = true ∧ signalIsBlockable sig = true
    · rw [if_pos staysQuiet] at run
      cases run
      rw [staysQuiet.1] at isBlocked
      refine attended.setTask (attended.held id) (attended.shown id) ?_
      intro isResting isPending
      rw [isSignalPending_add_blocked isBlocked isAdded] at isPending
      exact attended.told id isResting isPending
    · rw [if_neg staysQuiet] at run
      by_cases isOther : id ≠ thread
      · rw [if_pos isOther] at run
        cases run
        exact attended.setNotifying notNotifying isOther
      · rw [if_neg isOther] at run
        cases run
        have isSelf : id = thread := not_not.mp isOther
        subst isSelf
        exact attended.setTask_out isOut

theorem phase_notify_of_asleep
    (isAsleep : (world.tasks id).phase = .asleep on) :
    ((world.notify on.cond).tasks id).phase = .roused on := by
  unfold notify
  dsimp only
  rw [isAsleep]
  dsimp only
  rw [if_pos rfl]

theorem tasks_notify_of_not_asleep
    {cond : Nat}
    (notAsleep : ∀ on, (world.tasks id).phase ≠ .asleep on) :
    (world.notify cond).tasks id = world.tasks id := by
  rcases tasks_notify world cond id with same | ⟨on, isAsleep, _⟩
  · exact same
  · exact (notAsleep on isAsleep).elim

section

variable (attended : world.Attended)
include attended

/--
A deliverer that gets the lock of the wait finds its task asleep, or without
a signal since its check, or on its way out.
-/
theorem Attended.quiet_of_notified
    (isClean : (WaitStep.attempt thread).Clean world)
    (notifies : world.notifying thread = some id)
    (isShown : (world.tasks id).waitingOn = some on)
    (enters : world.canEnter thread on.lock = true)
    (isResting :
      ((world.notify on.cond).tasks id).phase.isResting = true) :
    ((world.notify on.cond).tasks id).isSignalPending = false := by
  cases isPhase : (world.tasks id).phase with
  | asleep slept =>
    have shows := attended.shown id slept (by rw [isPhase]; rfl)
    cases isShown.symm.trans shows
    rw [phase_notify_of_asleep isPhase] at isResting
    cases isResting
  | checked checked =>
    rw [tasks_notify_of_not_asleep (by rw [isPhase]; simp)]
    exact isClean id checked notifies isPhase
  | published published =>
    -- the task still has the lock, so nobody else gets it
    have shows := attended.shown id published (by rw [isPhase]; rfl)
    cases isShown.symm.trans shows
    have holds := attended.held id on (by rw [isPhase]; rfl)
    rcases of_decide_eq_true enters with isFree | isMine
    · cases isFree.symm.trans holds
    · have same : thread = id := Option.some.inj (isMine.symm.trans holds)
      exact (attended.others thread id notifies same.symm).elim
  | out | roused roused | leaving leaving =>
    rw [tasks_notify_of_not_asleep (by rw [isPhase]; simp), isPhase]
      at isResting
    cases isResting

/-- A deliverer that is done has woken the task, if that was asleep. -/
theorem Attended.attempt
    (isClean : (WaitStep.attempt thread).Clean world)
    (run : world.attempt thread = some next) :
    next.Attended := by
  unfold WaitWorld.attempt at run
  cases notifies : world.notifying thread with
  | none =>
    rw [notifies] at run
    cases run
  | some id =>
    rw [notifies] at run
    dsimp only at run
    -- a finished notification of a task that is not at rest leaves the rest
    have finished :
        ∀ {world : WaitWorld},
          world.Attended →
          world.notifying thread = some id →
          ((world.tasks id).phase.isResting = true →
          (world.tasks id).isSignalPending = false) →
          (world.setNotifying thread none).Attended := by
      intro world attended notifies isQuiet
      constructor
      case held => exact attended.held
      case shown => exact attended.shown
      case told =>
        intro other isResting isPending
        obtain ⟨notifier, notifiesOther⟩ :=
          attended.told other isResting isPending
        have different : notifier ≠ thread := by
          rintro rfl
          cases notifies.symm.trans notifiesOther
          exact Bool.false_ne_true
            ((isQuiet isResting).symm.trans isPending)
        exact ⟨notifier,
          (Function.update_of_ne different ..).trans notifiesOther⟩
      case others =>
        intro notifier other notifiesOther
        by_cases same : notifier = thread
        · subst same
          cases (Function.update_self ..).symm.trans notifiesOther
        · exact attended.others notifier other
            ((Function.update_of_ne same ..).symm.trans notifiesOther)
    cases isShown : (world.tasks id).waitingOn with
    | none =>
      rw [isShown] at run
      cases run
      refine finished attended notifies fun isResting => ?_
      cases isPhase : (world.tasks id).phase with
      | checked on => exact isClean id on notifies isPhase
      | published on | asleep on =>
        have shows := attended.shown id on (by rw [isPhase]; rfl)
        cases isShown.symm.trans shows
      | out | roused on | leaving on => cases isPhase ▸ isResting
    | some on =>
      rw [isShown] at run
      dsimp only at run
      by_cases enters : world.canEnter thread on.lock = true
      · rw [if_pos enters] at run
        cases run
        refine finished (attended.notify on.cond) notifies ?_
        exact attended.quiet_of_notified isClean notifies isShown enters
      · rw [if_neg enters] at run
        cases run
        exact attended

theorem Attended.beginWait
    (run : world.beginWait task on = some next) :
    next.Attended := by
  unfold WaitWorld.beginWait at run
  by_cases enabled :
      world.isIdle task ∧ world.owner on.lock = some task ∧
        (on.lock ≠ (world.tasks task).sighandLock →
          world.owner (world.tasks task).sighandLock = none)
  case neg =>
    rw [if_neg enabled] at run
    cases run
  rw [if_pos enabled] at run
  by_cases isPending : (world.tasks task).isSignalPending = true
  · rw [if_pos isPending] at run
    cases run
    exact attended
  · rw [if_neg isPending] at run
    cases run
    refine attended.setTask ?_ ?_ ?_
    · intro held isHeld
      cases isHeld
      exact enabled.2.1
    · intro shown isShown
      cases isShown
    · intro _ pending
      exact (isPending pending).elim

/-- The condition is published while the lock is held. -/
theorem Attended.publish
    (run : world.publish task = some next) :
    next.Attended := by
  unfold WaitWorld.publish at run
  split at run
  case h_2 => cases run
  case h_1 on isChecked =>
    cases run
    refine attended.setTask ?_ ?_ ?_
    · intro held isHeld
      cases isHeld
      exact attended.held task on (by rw [isChecked]; rfl)
    · intro shown isShown
      cases isShown
      rfl
    · intro _ isPending
      exact attended.told task (by rw [isChecked]; rfl) isPending

/-- The lock is given up in the sleep. -/
theorem Attended.sleep
    (run : world.sleep task = some next) :
    next.Attended := by
  unfold WaitWorld.sleep at run
  split at run
  case h_2 => cases run
  case h_1 on isPublished =>
    cases run
    have holds := attended.held task on (by rw [isPublished]; rfl)
    refine attended.move ?_ ?_ ?_ ?_
    · intro other lock isOther owns
      have different : lock ≠ on.lock := by
        rintro rfl
        exact isOther (Option.some.inj (owns.symm.trans holds))
      exact (Function.update_of_ne different ..).trans owns
    · intro held isHeld
      cases isHeld
    · intro shown isShown
      cases isShown
      exact attended.shown task on (by rw [isPublished]; rfl)
    · intro _ isPending
      exact attended.told task (by rw [isPublished]; rfl) isPending

/-- A sleep that ends needs no notification any more. -/
theorem Attended.rouse
    (run : world.rouse task = some next) :
    next.Attended := by
  unfold WaitWorld.rouse at run
  split at run
  case h_2 => cases run
  case h_1 on isAsleep =>
    cases run
    refine attended.setTask ?_ ?_ ?_
    · intro held isHeld
      cases isHeld
    · intro shown isShown
      cases isShown
      exact attended.shown task on (by rw [isAsleep]; rfl)
    · intro isResting
      cases isResting

/-- The lock is taken again. -/
theorem Attended.relock
    (run : world.relock task = some next) :
    next.Attended := by
  unfold WaitWorld.relock at run
  split at run
  case h_2 => cases run
  case h_1 on isRoused =>
    by_cases isFree : world.owner on.lock = none
    case neg =>
      rw [if_neg isFree] at run
      cases run
    rw [if_pos isFree] at run
    cases run
    refine attended.move ?_ ?_ ?_ ?_
    · intro other lock _ owns
      have different : lock ≠ on.lock := by
        rintro rfl
        cases isFree.symm.trans owns
      exact (Function.update_of_ne different ..).trans owns
    · intro held isHeld
      cases isHeld
      exact Function.update_self ..
    · intro shown isShown
      cases isShown
      exact attended.shown task on (by rw [isRoused]; rfl)
    · intro isResting
      cases isResting

theorem Attended.step
    {step : WaitStep}
    (isClean : step.Clean world)
    (run : step.run world = some next) :
    next.Attended := by
  cases step with
  | acquire thread lock =>
    simp only [WaitStep.run, Option.ite_none_right_eq_some] at run
    obtain ⟨⟨_, isFree⟩, same⟩ := run
    cases same
    refine attended.setOwner ?_
    rintro id on isHeld rfl
    cases isFree.symm.trans (attended.held id on isHeld)
  | giveUp thread lock =>
    simp only [WaitStep.run, Option.ite_none_right_eq_some] at run
    obtain ⟨⟨isIdle, owns⟩, same⟩ := run
    cases same
    refine attended.setOwner ?_
    rintro id on isHeld rfl
    cases owns.symm.trans (attended.held id on isHeld)
    rw [(of_decide_eq_true isIdle).1] at isHeld
    cases isHeld
  | beginWait task on => exact attended.beginWait run
  | publish task => exact attended.publish run
  | sleep task => exact attended.sleep run
  | rouse task => exact attended.rouse run
  | relock task => exact attended.relock run
  | leave task =>
    unfold WaitStep.run WaitWorld.leave at run
    dsimp only at run
    split at run
    · cases run
      exact attended.setTask_out rfl
    · cases run
  | deliver thread task sig => exact attended.deliver run
  | attempt thread => exact attended.attempt isClean run
  | notify cond =>
    cases run
    exact attended.notify cond
  | setMask task blocked waiting | receive task pending =>
    simp only [WaitStep.run, Option.ite_none_right_eq_some] at run
    obtain ⟨⟨isIdle, _⟩, same⟩ := run
    cases same
    exact attended.setTask_out (of_decide_eq_true isIdle).1

end

theorem start_attended (sighandLock : Nat → Nat) :
    (start sighandLock).Attended := by
  constructor
  case held => exact fun _ _ isHeld => nomatch isHeld
  case shown => exact fun _ _ isShown => nomatch isShown
  case told => exact fun _ isResting => nomatch isResting
  case others => exact fun _ _ notifies => nomatch notifies

theorem attended_of_reachable
    {sighandLock : Nat → Nat}
    (reachable :
      ((condWaitMachine sighandLock).restrict fun world step =>
        step.Clean world).Reachable world) :
    world.Attended := by
  refine Machine.Reachable.invariant
    (motive := fun world => world.Attended) ?_ ?_ reachable
  · rintro _ rfl
    exact start_attended sighandLock
  · intro before step after attended taken
    exact attended.step taken.1 taken.2

/--
In every run in which no deliverer looks for the condition of a task between
its check and its publication with the signal already pending: a task that
sleeps with an unblocked signal pending has a deliverer that has still to
notify it, and that ends the sleep as soon as it gets the lock of the wait.
-/
theorem pending_sleeper_is_notified
    {sighandLock : Nat → Nat}
    (reachable :
      ((condWaitMachine sighandLock).restrict fun world step =>
        step.Clean world).Reachable world) :
    ∀ id on,
      (world.tasks id).phase = .asleep on →
      (world.tasks id).isSignalPending = true →
      ∃ thread,
        world.notifying thread = some id ∧
          (world.canEnter thread on.lock = true →
            ∃ next,
              world.attempt thread = some next ∧
                (next.tasks id).phase = .roused on) := by
  intro id on isAsleep isPending
  have attended := attended_of_reachable reachable
  obtain ⟨thread, notifies⟩ :=
    attended.told id (by rw [isAsleep]; rfl) isPending
  refine ⟨thread, notifies, fun enters => ?_⟩
  have shows := attended.shown id on (by rw [isAsleep]; rfl)
  refine ⟨(world.notify on.cond).setNotifying thread none, ?_, ?_⟩
  · unfold WaitWorld.attempt
    rw [notifies]
    dsimp only
    rw [shows]
    dsimp only
    rw [if_pos enters]
  · exact phase_notify_of_asleep isAsleep

/-- A wait of task 1. -/
def firstWait : WaitingOn := { cond := 5, lock := 7 }

/-- The state after some steps of tasks with locks of their own. -/
def afterSteps (steps : List WaitStep) : WaitWorld :=
  (steps.foldlM WaitStep.run (start fun task => 100 + task)).getD
    (start fun task => 100 + task)

/-- A signal that comes in the sleep is told. -/
theorem signal_in_sleep_is_told :
    ∃ world thread,
      (condWaitMachine fun task => 100 + task).Reachable world ∧
        (world.tasks 1).phase = .asleep firstWait ∧
        (world.tasks 1).isSignalPending = true ∧
        world.notifying thread = some 1 := by
  let machine :=
    (condWaitMachine fun task => 100 + task).restrict fun world step =>
      step.Clean world
  have start : machine.Reachable (afterSteps []) := .initial rfl
  have locked : machine.Reachable (afterSteps [.acquire 1 7]) :=
    start.step (a := .acquire 1 7) ⟨trivial, rfl⟩
  have checked :
      machine.Reachable (afterSteps [.acquire 1 7, .beginWait 1 firstWait]) :=
    locked.step (a := .beginWait 1 firstWait) ⟨trivial, rfl⟩
  have published :
      machine.Reachable
        (afterSteps [.acquire 1 7, .beginWait 1 firstWait, .publish 1]) :=
    checked.step (a := .publish 1) ⟨trivial, rfl⟩
  have asleep :
      machine.Reachable
        (afterSteps [.acquire 1 7, .beginWait 1 firstWait, .publish 1,
          .sleep 1]) :=
    published.step (a := .sleep 1) ⟨trivial, rfl⟩
  have told :
      machine.Reachable
        (afterSteps [.acquire 1 7, .beginWait 1 firstWait, .publish 1,
          .sleep 1, .deliver 2 1 9]) :=
    asleep.step (a := .deliver 2 1 9) ⟨trivial, rfl⟩
  obtain ⟨thread, notifies, _⟩ :=
    pending_sleeper_is_notified told 1 firstWait rfl (by decide)
  exact ⟨_, thread, told.of_restrict, rfl, by decide, notifies⟩

/--
`SIGKILL_` is delivered between the check and the publication: the task
sleeps with it pending, and nobody will notify it.
-/
theorem signal_before_publication_is_lost :
    ∃ world,
      (condWaitMachine fun task => 100 + task).Reachable world ∧
        (world.tasks 1).phase = .asleep firstWait ∧
        (world.tasks 1).isSignalPending = true ∧
        ∀ thread, world.notifying thread ≠ some 1 := by
  let steps : List WaitStep :=
    [.acquire 1 7, .beginWait 1 firstWait, .deliver 2 1 9, .attempt 2,
      .publish 1, .sleep 1]
  have reachable :
      (condWaitMachine fun task => 100 + task).Reachable (afterSteps steps) :=
    Machine.Reachable.foldlM WaitStep.run (fun run => run)
      (Machine.Reachable.initial rfl)
      (show steps.foldlM WaitStep.run (start fun task => 100 + task) =
        some (afterSteps steps) from rfl)
  refine ⟨_, reachable, rfl, by decide, ?_⟩
  intro thread notifies
  by_cases isDeliverer : thread = 2
  · subst isDeliverer
    cases notifies
  · have isNobody : (afterSteps steps).notifying thread = none := by
      show Function.update (Function.update (fun _ => none) 2 (some 1)) 2 none
        thread = none
      rw [Function.update_of_ne isDeliverer, Function.update_of_ne isDeliverer]
    cases isNobody.symm.trans notifies

end WaitWorld

end GuestKernel
