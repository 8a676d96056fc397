import GuestKernel.Vfork

namespace GuestKernel
open Function
open Bool (and_eq_true_iff)

/-!
# No task is used after its end

The invariant of runs in which no task is destroyed before its parent has let go
of it.  `general_lock` orders the last uses: while the child holds it with the
pointer set, the parent cannot clear the pointer, and so does not return.
-/

/-- The parent holds `general_lock` of the child. -/
def VforkParent.holdsTask : VforkParent → Bool
  | clearing | cleared => true
  | _ => false

/-- The parent has cleared `task->vfork`. -/
def VforkParent.isPast : VforkParent → Bool
  | cleared | destroy | returned => true
  | _ => false

/-- The parent has seen `vfork.done`. -/
def VforkParent.sawDone : VforkParent → Bool
  | enter | check | wait => false
  | _ => true

/-- The child holds its `general_lock`. -/
def VforkChild.holdsTask : VforkChild → Bool
  | look _ | toInfo _ | inInfo _ | told _ | unlock _ => true
  | _ => false

/-- The child is in `vfork_notify` or behind it. -/
def VforkChild.inNotify : VforkChild → Bool
  | running | gone => false
  | _ => true

/-- What holds of every task and its handshake. -/
structure VforkOk (task : VforkTask) : Prop where
  pointer : task.vfork = true → task.parent.isPast = false
  lockParent :
    task.parent.holdsTask = true → task.generalLock = some .parent
  lockChild : task.child.holdsTask = true → task.generalLock = some .child
  uses : task.childUsesInfo = true → task.vfork = true
  told : task.done = true → task.left = true
  left : task.child ≠ .running → task.left = true
  saw :
    task.isVfork = true → task.parent.sawDone = true → task.done = true
  freed :
    task.freed = true →
      task.child = .gone ∧
        (task.parent = .destroy ∨ task.parent = .returned) ∧
        (task.isThread = true ∨ task.zombie = true)
  zombie : task.zombie = true → task.child = .gone ∨ task.isExiting = true

namespace VforkOk

variable {task next : VforkTask}

theorem notFreed_of_child
    (ok : VforkOk task)
    (notGone : task.child ≠ .gone) :
    task.freed = false := by
  cases isFreed : task.freed with
  | false => rfl
  | true => exact absurd (ok.freed isFreed).1 notGone

theorem notFreed_of_parent
    (ok : VforkOk task)
    (notPast : task.parent.isPast = false) :
    task.freed = false := by
  cases isFreed : task.freed with
  | false => rfl
  | true =>
    rcases (ok.freed isFreed).2.1 with isPlace | isPlace
    · rw [isPlace] at notPast
      cases notPast
    · rw [isPlace] at notPast
      cases notPast

theorem childOutside
    (ok : VforkOk task)
    (isParent : task.generalLock = some .parent) :
    task.child.holdsTask = false := by
  cases inside : task.child.holdsTask with
  | false => rfl
  | true =>
    rw [ok.lockChild inside] at isParent
    cases isParent

theorem holdsTask_of_uses
    (uses : task.childUsesInfo = true) :
    task.child.holdsTask = true := by
  unfold VforkTask.childUsesInfo at uses
  split at uses
  case h_1 exits isChild => rw [isChild]; rfl
  case h_2 exits isChild => rw [isChild]; rfl
  case h_3 exits isChild => rw [isChild]; rfl
  case h_4 => cases uses

section

variable (ok : VforkOk task)
include ok

/-- The parent moves on before it touches the task. -/
theorem early
    {place : VforkParent}
    (notFreed : task.freed = false)
    (notPast : place.isPast = false)
    (outside : place.holdsTask = false)
    (saw : place.sawDone = true → task.isVfork = true → task.done = true)
    (lock : Option VforkSide) :
    VforkOk { task with infoLock := lock, parent := place } :=
  { ok with
    pointer := fun _ => notPast
    lockParent := fun inside => by
      rw [outside] at inside
      cases inside
    saw := fun isVfork sawDone => saw sawDone isVfork
    freed := fun isFreed => by
      rw [notFreed] at isFreed
      cases isFreed }

theorem parentStep
    (step : task.parentStep = some next) :
    VforkOk next := by
  unfold VforkTask.parentStep at step
  cases place : task.parent with
  | enter | wait =>
    have notFreed := ok.notFreed_of_parent (by rw [place]; rfl)
    simp only [place] at step
    split at step
    · cases step
      exact ok.early notFreed rfl rfl (fun sawDone => by cases sawDone) _
    · cases step
  | check =>
    have notFreed := ok.notFreed_of_parent (by rw [place]; rfl)
    simp only [place] at step
    split at step
    case isTrue isDone =>
      cases step
      exact ok.early notFreed rfl rfl (fun _ _ => isDone) _
    case isFalse =>
      cases step
      exact ok.early notFreed rfl rfl (fun sawDone => by cases sawDone) _
  | leave =>
    have notFreed := ok.notFreed_of_parent (by rw [place]; rfl)
    have sawDone : task.parent.sawDone = true := by rw [place]; rfl
    simp only [place] at step
    cases step
    exact ok.early notFreed rfl rfl
      (fun _ isVfork => ok.saw isVfork sawDone) _
  | toClear =>
    have notFreed := ok.notFreed_of_parent (by rw [place]; rfl)
    have sawDone : task.parent.sawDone = true := by rw [place]; rfl
    simp only [place] at step
    obtain ⟨isFree, ⟨⟩⟩ := Option.ite_none_right_eq_some.mp step
    exact { ok with
      pointer := fun _ => rfl
      lockParent := fun _ => rfl
      lockChild := fun inside => by
        rw [ok.lockChild inside] at isFree
        cases isFree
      saw := fun isVfork _ => ok.saw isVfork sawDone
      freed := fun isFreed => by
        rw [notFreed] at isFreed
        cases isFreed }
  | clearing =>
    have notFreed := ok.notFreed_of_parent (by rw [place]; rfl)
    have sawDone : task.parent.sawDone = true := by rw [place]; rfl
    have holds := ok.lockParent (by rw [place]; rfl)
    simp only [place] at step
    cases step
    exact { ok with
      pointer := fun isSet => by cases isSet
      lockParent := fun _ => holds
      uses := fun uses => by
        have inside : task.child.holdsTask = true := holdsTask_of_uses uses
        rw [ok.childOutside holds] at inside
        cases inside
      saw := fun isVfork _ => ok.saw isVfork sawDone
      freed := fun isFreed => by
        rw [notFreed] at isFreed
        cases isFreed }
  | cleared =>
    have sawDone : task.parent.sawDone = true := by rw [place]; rfl
    have holds := ok.lockParent (by rw [place]; rfl)
    simp only [place] at step
    cases step
    exact { ok with
      pointer := fun isSet => by
        have before := ok.pointer isSet
        rw [place] at before
        cases before
      lockParent := fun inside => by cases inside
      lockChild := fun inside => by
        have outside := ok.childOutside holds
        dsimp only at inside
        rw [outside] at inside
        cases inside
      saw := fun isVfork _ => ok.saw isVfork sawDone
      freed := fun isFreed => by
        obtain ⟨isGone, _, isEnded⟩ := ok.freed isFreed
        exact ⟨isGone, .inl rfl, isEnded⟩ }
  | destroy =>
    have sawDone : task.parent.sawDone = true := by rw [place]; rfl
    simp only [place] at step
    cases step
    exact { ok with
      pointer := fun isSet => by
        have before := ok.pointer isSet
        rw [place] at before
        cases before
      lockParent := fun inside => by cases inside
      saw := fun isVfork _ => ok.saw isVfork sawDone
      freed := fun isFreed => by
        obtain ⟨isGone, _, isEnded⟩ := ok.freed isFreed
        exact ⟨isGone, .inr rfl, isEnded⟩ }
  | returned =>
    simp only [place] at step
    cases step

/-- The child moves on within `vfork_notify`, or leaves it. -/
theorem moveChild
    (place : VforkChild)
    (lock info : Option VforkSide)
    (inNotify : task.child.inNotify = true)
    (lockParent : task.parent.holdsTask = true → lock = some .parent)
    (lockChild : place.holdsTask = true → lock = some .child)
    (uses :
      { task with child := place }.childUsesInfo = true → task.vfork = true)
    (exits :
      task.isExiting = true → { task with child := place }.isExiting = true) :
    VforkOk
      { task with generalLock := lock, infoLock := info, child := place } := by
  have notGone : task.child ≠ .gone := fun isGone => by
    rw [isGone] at inNotify
    cases inNotify
  have notRunning : task.child ≠ .running := fun isRunning => by
    rw [isRunning] at inNotify
    cases inNotify
  exact {
    pointer := ok.pointer
    lockParent := lockParent
    lockChild := lockChild
    uses := uses
    told := ok.told
    left := fun _ => ok.left notRunning
    saw := ok.saw
    freed := fun isFreed => absurd (ok.freed isFreed).1 notGone
    zombie := fun isZombie =>
      (ok.zombie isZombie).elim (fun isGone => absurd isGone notGone)
        fun isExiting => .inr (exits isExiting) }

theorem notifyStep
    (step : task.notifyStep = some next) :
    VforkOk next := by
  have lockParent := ok.lockParent
  have lockChild := ok.lockChild
  have uses := ok.uses
  have isExiting : task.isExiting = true → task.isExiting = true := id
  unfold VforkTask.childUsesInfo at uses
  conv at isExiting => rhs; unfold VforkTask.isExiting
  unfold VforkTask.notifyStep at step
  cases place : task.child with
  | running | exited | gone =>
    simp only [place] at step
    cases step
  | notify exits =>
    have inNotify : task.child.inNotify = true := by rw [place]; rfl
    rw [place] at isExiting
    simp only [place] at step
    obtain ⟨isFree, ⟨⟩⟩ := Option.ite_none_right_eq_some.mp step
    refine ok.moveChild (.look exits) (some .child) task.infoLock inNotify
      ?_ (fun _ => rfl) ?_ isExiting
    · intro inside
      rw [lockParent inside] at isFree
      cases isFree
    · intro uses
      cases uses
  | look exits =>
    have inNotify : task.child.inNotify = true := by rw [place]; rfl
    rw [place] at lockChild isExiting
    simp only [place] at step
    cases step
    refine ok.moveChild (if task.vfork then .toInfo exits else .unlock exits)
      task.generalLock task.infoLock inNotify lockParent
      (fun _ => lockChild rfl) ?_ ?_
    · intro usesInfo
      cases isSet : task.vfork with
      | true => rfl
      | false =>
        rw [isSet] at usesInfo
        cases usesInfo
    · intro wasExiting
      cases task.vfork with
      | true | false => exact isExiting wasExiting
  | toInfo exits =>
    have inNotify : task.child.inNotify = true := by rw [place]; rfl
    rw [place] at lockChild uses isExiting
    simp only [place] at step
    obtain ⟨_, ⟨⟩⟩ := Option.ite_none_right_eq_some.mp step
    exact ok.moveChild (.inInfo exits) task.generalLock (some .child)
      inNotify lockParent lockChild uses isExiting
  | inInfo exits =>
    have inNotify : task.child.inNotify = true := by rw [place]; rfl
    have isLeft : task.left = true := ok.left (by
      rw [place]
      intro isRunning
      cases isRunning)
    rw [place] at lockChild uses isExiting
    simp only [place] at step
    cases step
    have moved : VforkOk { task with child := .told exits } :=
      ok.moveChild (.told exits) task.generalLock task.infoLock inNotify
        lockParent lockChild uses isExiting
    exact { moved with
      told := fun _ => isLeft
      saw := fun _ _ => rfl }
  | told exits =>
    have inNotify : task.child.inNotify = true := by rw [place]; rfl
    rw [place] at lockChild isExiting
    simp only [place] at step
    cases step
    refine ok.moveChild (.unlock exits) task.generalLock none inNotify
      lockParent lockChild ?_ isExiting
    intro usesInfo
    cases usesInfo
  | unlock exits =>
    have inNotify : task.child.inNotify = true := by rw [place]; rfl
    rw [place] at lockChild isExiting
    have notParent : task.parent.holdsTask = true →
        (none : Option VforkSide) = some .parent := by
      intro inside
      have isParent := lockParent inside
      rw [lockChild rfl] at isParent
      cases isParent
    simp only [place] at step
    cases step
    refine ok.moveChild (if exits then .exited else .running) none
      task.infoLock inNotify notParent ?_ ?_ ?_
    · intro inside
      cases exits with
      | true | false => cases inside
    · intro usesInfo
      cases exits with
      | true | false => cases usesInfo
    · intro wasExiting
      have isExit : exits = true := isExiting wasExiting
      rw [isExit]
      rfl

/-- `exec` and the start of an exit. -/
theorem leaves
    {exits zombie : Bool}
    (isRunning : task.child = .running)
    (isZombie : zombie = true → exits = true) :
    VforkOk
      { task with left := true, zombie := zombie, child := .notify exits } where
  pointer := ok.pointer
  lockParent := ok.lockParent
  lockChild := fun inside => by cases inside
  uses := fun uses => by cases uses
  told := fun _ => rfl
  left := fun _ => rfl
  saw := ok.saw
  freed := fun isFreed => by
    have isGone := (ok.freed isFreed).1
    rw [isRunning] at isGone
    cases isGone
  zombie := fun isZombieNow => .inr (isZombie isZombieNow)

theorem notZombie_of_running
    (isRunning : task.child = .running) :
    task.zombie = false := by
  cases isZombie : task.zombie with
  | false => rfl
  | true =>
    have ended := ok.zombie isZombie
    unfold VforkTask.isExiting at ended
    rw [isRunning] at ended
    rcases ended with isGone | isExiting
    · cases isGone
    · cases isExiting

theorem goes
    {freed : Bool}
    (isExited : task.child = .exited)
    (isEnd :
      freed = true →
        (task.parent = .destroy ∨ task.parent = .returned) ∧
          task.isThread = true) :
    VforkOk { task with child := .gone, freed := freed } where
  pointer := ok.pointer
  lockParent := ok.lockParent
  lockChild := fun inside => by cases inside
  uses := fun uses => by cases uses
  told := ok.told
  left := fun _ => ok.left (by
    rw [isExited]
    intro isRunning
    cases isRunning)
  saw := ok.saw
  freed := fun isFreed => ⟨rfl, (isEnd isFreed).1, .inl (isEnd isFreed).2⟩
  zombie := fun _ => .inl rfl

end

end VforkOk

/-- Each task is in order, and a child that exits holds `pids_lock`. -/
structure VforkInvariant (world : VforkWorld) : Prop where
  ok : ∀ child, VforkOk (world.tasks child)
  exits :
    ∀ child,
      (world.tasks child).isExiting = true → world.pidsLock = some child

namespace VforkInvariant

open VforkWorld

variable {world next : VforkWorld}
variable {child : ChildId}
variable {task : VforkTask}

theorem ok_setTask
    (invariant : VforkInvariant world)
    (ok : VforkOk task)
    (other : ChildId) :
    VforkOk ((world.setTask child task).tasks other) := by
  unfold VforkWorld.setTask
  dsimp only
  rcases eq_or_ne other child with rfl | isOther
  · rw [update_self]
    exact ok
  · rw [update_of_ne isOther]
    exact invariant.ok other

theorem setTask
    (invariant : VforkInvariant world)
    (ok : VforkOk task)
    (exits : task.isExiting = true → (world.tasks child).isExiting = true) :
    VforkInvariant (world.setTask child task) := by
  refine ⟨invariant.ok_setTask ok, ?_⟩
  intro other isExiting
  unfold VforkWorld.setTask at isExiting ⊢
  dsimp only at isExiting ⊢
  rcases eq_or_ne other child with rfl | isOther
  · rw [update_self] at isExiting
    exact invariant.exits other (exits isExiting)
  · rw [update_of_ne isOther] at isExiting
    exact invariant.exits other isExiting

/-- One task changes with `pids_lock`, which no other child holds. -/
theorem setLock
    {lock : Option ChildId}
    (invariant : VforkInvariant world)
    (ok : VforkOk task)
    (alone : ∀ other, world.pidsLock = some other → other = child)
    (exits : task.isExiting = true → lock = some child) :
    VforkInvariant { world.setTask child task with pidsLock := lock } := by
  refine ⟨invariant.ok_setTask ok, ?_⟩
  intro other isExiting
  unfold VforkWorld.setTask at isExiting
  dsimp only at isExiting ⊢
  rcases eq_or_ne other child with rfl | isOther
  · rw [update_self] at isExiting
    exact exits isExiting
  · rw [update_of_ne isOther] at isExiting
    exact absurd (alone other (invariant.exits other isExiting)) isOther

theorem parentStep_child
    {next : VforkTask}
    (step : task.parentStep = some next) :
    next.child = task.child := by
  unfold VforkTask.parentStep at step
  split at step <;> first
    | (split at step <;> cases step <;> rfl)
    | (cases step <;> rfl)

/-- `vfork_notify` does not begin an exit. -/
theorem notifyStep_exits
    {next : VforkTask}
    (step : task.notifyStep = some next)
    (isExiting : next.isExiting = true) :
    task.isExiting = true := by
  unfold VforkTask.notifyStep at step
  cases place : task.child with
  | running | exited | gone =>
    simp only [place] at step
    cases step
  | notify exits | toInfo exits =>
    simp only [place] at step
    split at step
    · cases step
      unfold VforkTask.isExiting
      rw [place]
      exact isExiting
    · cases step
  | look exits =>
    simp only [place] at step
    cases step
    unfold VforkTask.isExiting at isExiting ⊢
    rw [place]
    cases isSet : task.vfork with
    | true | false =>
      rw [isSet] at isExiting
      exact isExiting
  | inInfo exits | told exits =>
    simp only [place] at step
    cases step
    unfold VforkTask.isExiting
    rw [place]
    exact isExiting
  | unlock exits =>
    simp only [place] at step
    cases step
    unfold VforkTask.isExiting at isExiting ⊢
    rw [place]
    cases exits with
    | true => rfl
    | false => cases isExiting

/-- A zombie may be reaped once its exit has released `pids_lock`. -/
theorem reap
    (invariant : VforkInvariant world)
    (isZombie : (world.tasks child).zombie = true)
    (isFree : world.pidsLock = none)
    (isPast :
      (world.tasks child).parent = .destroy ∨
        (world.tasks child).parent = .returned) :
    VforkInvariant
      (world.setTask child { world.tasks child with freed := true }) := by
  have ok := invariant.ok child
  refine invariant.setTask { ok with freed := fun _ => ?_ } id
  refine ⟨?_, isPast, .inr isZombie⟩
  rcases ok.zombie isZombie with isGone | isExiting
  · exact isGone
  · rw [invariant.exits child isExiting] at isFree
    cases isFree

variable {action : VforkStep}

/-- A step after the handshake keeps the invariant. -/
theorem step
    (invariant : VforkInvariant world)
    (isAfter : AfterHandshake world action)
    (taken : world.run action = some next) :
    VforkInvariant next := by
  cases action with
  | clone child isVfork isThread =>
    simp only [run] at taken
    obtain ⟨_, ⟨⟩⟩ := Option.ite_none_left_eq_some.mp taken
    refine invariant.setTask ?_ (fun isExiting => by cases isExiting)
    exact {
      pointer := fun isSet => by
        dsimp only at isSet ⊢
        rw [isSet]
        rfl
      lockParent := fun inside => by
        dsimp only at inside
        split at inside <;> cases inside
      lockChild := fun inside => by cases inside
      uses := fun usesInfo => by cases usesInfo
      told := fun isDone => by cases isDone
      left := fun notRunning => absurd rfl notRunning
      saw := fun isSet sawDone => by
        dsimp only at isSet sawDone
        rw [isSet] at sawDone
        cases sawDone
      freed := fun isFreed => by cases isFreed
      zombie := fun isZombie => by cases isZombie }
  | parent child =>
    obtain ⟨task, moved, rfl⟩ := Option.map_eq_some_iff.mp taken
    refine invariant.setTask ((invariant.ok child).parentStep moved) ?_
    unfold VforkTask.isExiting
    rw [parentStep_child moved]
    exact id
  | exec child =>
    simp only [run] at taken
    obtain ⟨guard, ⟨⟩⟩ := Option.ite_none_right_eq_some.mp taken
    have isRunning := of_decide_eq_true (and_eq_true_iff.mp guard).2
    have ok := invariant.ok child
    refine invariant.setTask (ok.leaves isRunning ?_)
      (fun isExiting => by cases isExiting)
    rw [ok.notZombie_of_running isRunning]
    exact id
  | exit child isLast =>
    simp only [run] at taken
    obtain ⟨guard, ⟨⟩⟩ := Option.ite_none_right_eq_some.mp taken
    obtain ⟨running, isFree⟩ := and_eq_true_iff.mp guard
    have isRunning := of_decide_eq_true (and_eq_true_iff.mp running).2
    refine invariant.setLock
      ((invariant.ok child).leaves isRunning fun _ => rfl) ?_ fun _ => rfl
    intro other isHeld
    rw [of_decide_eq_true isFree] at isHeld
    cases isHeld
  | notify child =>
    obtain ⟨task, moved, rfl⟩ := Option.map_eq_some_iff.mp taken
    exact invariant.setTask ((invariant.ok child).notifyStep moved)
      (notifyStep_exits moved)
  | release child =>
    simp only [run] at taken
    obtain ⟨guard, ⟨⟩⟩ := Option.ite_none_right_eq_some.mp taken
    have isExited := of_decide_eq_true (and_eq_true_iff.mp guard).1
    have ok := invariant.ok child
    have holds := invariant.exits child (by
      unfold VforkTask.isExiting
      rw [isExited])
    refine invariant.setLock (ok.goes isExited ?_) ?_
      (fun isExiting => by cases isExiting)
    · intro isFreed
      rw [ok.notFreed_of_child (by
        rw [isExited]
        intro isGone
        cases isGone)] at isFreed
      cases isFreed
    · intro other isHeld
      rw [holds] at isHeld
      exact (Option.some.inj isHeld).symm
  | destroy child =>
    simp only [run] at taken
    obtain ⟨guard, ⟨⟩⟩ := Option.ite_none_right_eq_some.mp taken
    obtain ⟨exited, isThread⟩ := and_eq_true_iff.mp guard
    have isExited := of_decide_eq_true exited
    have holds := invariant.exits child (by
      unfold VforkTask.isExiting
      rw [isExited])
    refine invariant.setLock
      ((invariant.ok child).goes isExited fun _ => ⟨isAfter, isThread⟩)
      ?_ (fun isExiting => by cases isExiting)
    intro other isHeld
    rw [holds] at isHeld
    exact (Option.some.inj isHeld).symm
  | groupDies child =>
    simp only [run] at taken
    obtain ⟨guard, ⟨⟩⟩ := Option.ite_none_right_eq_some.mp taken
    have isGone := of_decide_eq_true (and_eq_true_iff.mp guard).1
    have ok := invariant.ok child
    refine invariant.setTask { ok with
      freed := fun isFreed => ?_
      zombie := fun _ => .inl isGone } id
    obtain ⟨_, isPast, _⟩ := ok.freed isFreed
    exact ⟨isGone, isPast, .inr rfl⟩
  | reap child =>
    simp only [run] at taken
    obtain ⟨guard, ⟨⟩⟩ := Option.ite_none_right_eq_some.mp taken
    obtain ⟨zombie, isFree⟩ := and_eq_true_iff.mp guard
    exact invariant.reap (and_eq_true_iff.mp zombie).1
      (of_decide_eq_true isFree) isAfter

theorem empty : VforkInvariant VforkWorld.empty where
  ok := fun _ => {
    pointer := fun isSet => by cases isSet
    lockParent := fun inside => by cases inside
    lockChild := fun inside => by cases inside
    uses := fun usesInfo => by cases usesInfo
    told := fun isDone => by cases isDone
    left := fun notRunning => absurd rfl notRunning
    saw := fun isSet => by cases isSet
    freed := fun isFreed => by cases isFreed
    zombie := fun isZombie => by cases isZombie }
  exits := fun _ isExiting => by cases isExiting

/-- A step uses no destroyed task. -/
theorem notFreed_of_used
    (invariant : VforkInvariant world)
    (taken : world.run action = some next)
    (used : world.usedTask action = some child) :
    (world.tasks child).freed = false := by
  have ok := invariant.ok child
  have place : ∀ {place : VforkChild}, (world.tasks child).child = place →
      place ≠ .gone → (world.tasks child).freed = false := by
    rintro place rfl notGone
    exact ok.notFreed_of_child notGone
  cases action with
  | clone other isVfork isThread => cases used
  | parent other =>
    simp only [usedTask] at used
    obtain ⟨uses, ⟨⟩⟩ := Option.ite_none_right_eq_some.mp used
    cases isFreed : (world.tasks child).freed with
    | false => rfl
    | true =>
      unfold VforkTask.parentUsesTask at uses
      rcases (ok.freed isFreed).2.1 with isPlace | isPlace
      · rw [isPlace] at uses
        cases uses
      · rw [isPlace] at uses
        cases uses
  | exec other =>
    cases used
    simp only [run] at taken
    obtain ⟨guard, taken⟩ := Option.ite_none_right_eq_some.mp taken
    exact place (of_decide_eq_true (and_eq_true_iff.mp guard).2)
      (by decide)
  | exit other isLast =>
    cases used
    simp only [run] at taken
    obtain ⟨guard, taken⟩ := Option.ite_none_right_eq_some.mp taken
    have running := (and_eq_true_iff.mp guard).1
    exact place (of_decide_eq_true (and_eq_true_iff.mp running).2)
      (by decide)
  | notify other =>
    cases used
    obtain ⟨task, moved, _⟩ := Option.map_eq_some_iff.mp taken
    refine ok.notFreed_of_child fun isGone => ?_
    unfold VforkTask.notifyStep at moved
    rw [isGone] at moved
    cases moved
  | release other | destroy other =>
    cases used
    simp only [run] at taken
    obtain ⟨guard, taken⟩ := Option.ite_none_right_eq_some.mp taken
    exact place (of_decide_eq_true (and_eq_true_iff.mp guard).1)
      (by decide)
  | groupDies other =>
    cases used
    simp only [run] at taken
    obtain ⟨guard, taken⟩ := Option.ite_none_right_eq_some.mp taken
    have running := (and_eq_true_iff.mp guard).2
    rw [Bool.not_eq_true', Bool.or_eq_false_iff] at running
    cases isFreed : (world.tasks child).freed with
    | false => rfl
    | true =>
      rcases (ok.freed isFreed).2.2 with isThread | isZombie
      · rw [running.1] at isThread
        cases isThread
      · rw [running.2] at isZombie
        cases isZombie
  | reap other =>
    cases used
    simp only [run] at taken
    obtain ⟨guard, taken⟩ := Option.ite_none_right_eq_some.mp taken
    have zombie := (and_eq_true_iff.mp guard).1
    have notFreed := (and_eq_true_iff.mp zombie).2
    rwa [Bool.not_eq_true'] at notFreed

theorem law
    (invariant : VforkInvariant world) :
    VforkLaw world where
  waits child isVfork isReturned := by
    have ok := invariant.ok child
    refine ok.told (ok.saw isVfork ?_)
    rw [isReturned]
    rfl
  task action next child taken used := invariant.notFreed_of_used taken used
  info action next child _ used isReturned := by
    have ok := invariant.ok child
    cases action with
    | notify other =>
      simp only [usedInfo] at used
      obtain ⟨uses, ⟨⟩⟩ := Option.ite_none_right_eq_some.mp used
      have notPast := ok.pointer (ok.uses uses)
      rw [isReturned] at notPast
      cases notPast
    | clone other isVfork isThread => cases used
    | parent other => cases used
    | exec other => cases used
    | exit other isLast => cases used
    | release other => cases used
    | destroy other => cases used
    | groupDies other => cases used
    | reap other => cases used

end VforkInvariant

namespace VforkWorld

/--
In every run in which a task is destroyed only after its parent's last use of
it: `clone` returns only after the child has exec'd or is exiting, no step uses
a destroyed task, and none uses the `vfork_info` of a call that has returned.
-/
theorem handshake_is_safe
    {world : VforkWorld}
    (reachable : handshakeMachine.Reachable world) :
    VforkLaw world := by
  refine VforkInvariant.law (reachable.invariant ?_ ?_)
  · rintro world rfl
    exact .empty
  · rintro world action next invariant ⟨isAfter, taken⟩
    exact invariant.step isAfter taken

/-- A child exits while its parent waits, and is reaped after the handshake. -/
theorem reaped_after_handshake :
    ∃ world,
      handshakeMachine.Reachable world ∧
        (world.tasks 0).parent = .returned ∧ (world.tasks 0).freed = true ∧
        VforkLaw world := by
  have parent :
      ∀ {world next : VforkWorld}, handshakeMachine.Reachable world →
        world.run (.parent 0) = some next → handshakeMachine.Reachable next :=
    fun reachable taken =>
      reachable.step (a := VforkStep.parent 0) ⟨trivial, taken⟩
  have notify :
      ∀ {world next : VforkWorld}, handshakeMachine.Reachable world →
        world.run (.notify 0) = some next → handshakeMachine.Reachable next :=
    fun reachable taken =>
      reachable.step (a := VforkStep.notify 0) ⟨trivial, taken⟩
  have start : handshakeMachine.Reachable empty := .initial rfl
  have cloned :=
    start.step (a := VforkStep.clone 0 true false) ⟨trivial, rfl⟩
  have waits := parent (parent cloned rfl) rfl
  have exits := waits.step (a := VforkStep.exit 0 true) ⟨trivial, rfl⟩
  have tells := notify (notify (notify exits rfl) rfl) rfl
  have told := notify (notify (notify tells rfl) rfl) rfl
  have gone := told.step (a := VforkStep.release 0) ⟨trivial, rfl⟩
  have seen := parent (parent (parent (parent gone rfl) rfl) rfl) rfl
  have cleared := parent (parent (parent seen rfl) rfl) rfl
  have reaped := cleared.step (a := VforkStep.reap 0) ⟨.inr rfl, rfl⟩
  exact ⟨_, reaped, rfl, rfl, handshake_is_safe reaped⟩

/--
Another thread of the parent's group reaps the child between its exit and the
parent's `lock(&task->general_lock)`, which then uses the freed task.
-/
theorem reaped_child_is_used :
    ∃ world next,
      vforkMachine.Reachable world ∧
        (world.tasks 0).parent = .toClear ∧ (world.tasks 0).freed = true ∧
        world.run (.parent 0) = some next ∧ ¬VforkLaw world := by
  have reaped : vforkMachine.Reachable _ :=
    Machine.Reachable.foldlM run (fun taken => taken) (.initial rfl)
      (rfl :
        [VforkStep.clone 0 true false, .parent 0, .parent 0, .exit 0 true,
          .notify 0, .notify 0, .notify 0, .notify 0, .notify 0, .notify 0,
          .release 0, .parent 0, .parent 0, .parent 0, .reap 0].foldlM run
            empty = some _)
  refine ⟨_, _, reaped, rfl, rfl, rfl, ?_⟩
  intro law
  cases law.task (.parent 0) _ 0 rfl rfl

end VforkWorld

end GuestKernel
