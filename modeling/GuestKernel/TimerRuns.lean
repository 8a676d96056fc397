import GuestKernel.Ownership
import GuestKernel.Timers

namespace GuestKernel
open Option Function

/-!
# Every timer keeps its owner

The invariant of runs in which no group with timers of `timer_create` forks or is
reaped: the slots own the timers that were not freed, each slot holds timers of
its own group, and each timer agrees with what was done to it.
-/

/-- What the fields of one timer say about its release. -/
structure TimerOk (timer : Timer) : Prop where
  unreleased :
    timer.releases = [] → timer.frees = 0 ∧ timer.dead = false
  released :
    timer.releases ≠ [] →
      timer.releases = [timer.creator] ∧ timer.active = false ∧
        timer.inCallback = false ∧
        (timer.frees = 1 ∧ timer.threadRunning = false ∨
          timer.frees = 0 ∧ timer.dead = true ∧ timer.threadRunning = true)

namespace TimerOk

variable {timer : Timer}

theorem new
    (creator : Option GroupId) :
    TimerOk { creator := creator } where
  unreleased _ := ⟨rfl, rfl⟩
  released isReleased := absurd rfl isReleased

/-- `timer_free` of a timer that was not freed yet, by its creator. -/
theorem free
    (ok : TimerOk timer)
    (isFirst : timer.releases = [])
    (notInCallback : timer.inCallback = false) :
    TimerOk (timer.free timer.creator) := by
  have before := ok.unreleased isFirst
  unfold Timer.free
  cases isRunning : timer.threadRunning with
  | true =>
    refine ⟨fun isEmpty => (List.cons_ne_nil _ _ isEmpty).elim, fun _ => ?_⟩
    exact ⟨congrArg (timer.creator :: ·) isFirst, rfl, notInCallback,
      .inr ⟨before.1, rfl, rfl⟩⟩
  | false =>
    refine ⟨fun isEmpty => (List.cons_ne_nil _ _ isEmpty).elim, fun _ => ?_⟩
    exact ⟨congrArg (timer.creator :: ·) isFirst, rfl, notInCallback,
      .inl ⟨congrArg (· + 1) before.1, rfl⟩⟩

theorem set
    (ok : TimerOk timer)
    (isFirst : timer.releases = [])
    (starts periodic : Bool) :
    TimerOk (timer.set starts periodic) where
  unreleased _ := ok.unreleased isFirst
  released isReleased := absurd isFirst isReleased

theorem callback
    (ok : TimerOk timer)
    (isActive : timer.active = true) :
    TimerOk { timer with inCallback := true } where
  unreleased := ok.unreleased
  released isReleased := by
    have stopped := (ok.released isReleased).2.1
    rw [isActive] at stopped
    cases stopped

theorem threadEnds
    (ok : TimerOk timer)
    (isRunning : timer.threadRunning = true) :
    TimerOk timer.threadEnds where
  unreleased isFirst := by
    obtain ⟨notFreed, notDead⟩ := ok.unreleased isFirst
    refine ⟨?_, notDead⟩
    unfold Timer.threadEnds
    rw [notDead]
    exact notFreed
  released isReleased := by
    obtain ⟨byCreator, stopped, _, memory⟩ := ok.released isReleased
    refine ⟨byCreator, stopped, rfl, .inl ⟨?_, rfl⟩⟩
    rcases memory with ⟨_, notRunning⟩ | ⟨notFreed, isDead, _⟩
    · rw [isRunning] at notRunning
      cases notRunning
    · unfold Timer.threadEnds
      rw [isDead, notFreed]
      rfl

theorem callbackReturns
    (ok : TimerOk timer)
    (isInCallback : timer.inCallback = true) :
    TimerOk timer.callbackReturns := by
  have isFirst : timer.releases = [] := by
    by_contra isReleased
    have outside := (ok.released isReleased).2.2.1
    rw [isInCallback] at outside
    cases outside
  have before := ok.unreleased isFirst
  unfold Timer.callbackReturns
  split
  · exact ⟨fun _ => before, fun isReleased => absurd isFirst isReleased⟩
  · refine ⟨fun _ => ?_, fun isReleased => absurd isFirst isReleased⟩
    unfold Timer.threadEnds
    rw [before.2]
    exact ⟨before.1, rfl⟩

end TimerOk

namespace Timer

variable (timer : Timer)

@[simp] theorem callbackReturns_releases :
    timer.callbackReturns.releases = timer.releases := by
  unfold callbackReturns
  split
  · rfl
  · rfl

@[simp] theorem callbackReturns_creator :
    timer.callbackReturns.creator = timer.creator := by
  unfold callbackReturns
  split
  · rfl
  · rfl

@[simp] theorem free_releases
    (caller : Option GroupId) :
    (timer.free caller).releases = caller :: timer.releases := by
  unfold free
  split
  · rfl
  · rfl

end Timer

/-- The slots own the timers, and groups and descriptors are numbered. -/
structure TimerInvariant (world : TimerWorld) : Prop where
  owned :
    Ownership.Owned world.slots
      (fun timer => (world.timers timer).releases ≠ []) world.nextTimer
  created :
    ∀ slot timer,
      world.slots slot = some timer →
      (world.timers timer).creator = slot.group
  ok : ∀ timer, TimerOk (world.timers timer)
  newGroups : ∀ group, world.nextGroup ≤ group → world.groups group = none
  newFds : ∀ fd, world.nextFd ≤ fd → world.timerfds fd = none
  inArray : world.wild = false

namespace TimerInvariant

open TimerWorld

variable {world next : TimerWorld}
variable {group : GroupId}
variable {state : TimerGroup}

variable {slot : TimerSlot} {timer : TimerId} {changed : TimerGroup}
  {starts periodic : Bool}

section

variable (invariant : TimerInvariant world)
include invariant

theorem unreleased
    (holds : world.slots slot = some timer) :
    (world.timers timer).releases = [] :=
  not_not.mp (invariant.owned.unreleased slot timer holds)

theorem law :
    TimerLaw world where
  owned timer isMade isFirst :=
    ⟨((invariant.ok timer).unreleased isFirst).1,
      invariant.owned.exactly_one isMade (not_not.mpr isFirst)⟩
  own slot timer holds :=
    ⟨invariant.created slot timer holds, invariant.unreleased holds⟩
  once timer isReleased := by
    obtain ⟨byCreator, _, _, memory⟩ :=
      (invariant.ok timer).released isReleased
    exact ⟨byCreator, memory.imp And.left id⟩
  quiet timer isReleased := by
    obtain ⟨_, stopped, outside, _⟩ :=
      (invariant.ok timer).released isReleased
    refine ⟨outside, ?_⟩
    unfold run
    dsimp only
    rw [stopped, Bool.and_false]
    rfl
  inArray := invariant.inArray

theorem setTimer
    {changed : Timer}
    (sameReleases : changed.releases = (world.timers timer).releases)
    (sameCreator : changed.creator = (world.timers timer).creator)
    (ok : TimerOk changed) :
    TimerInvariant (world.setTimer timer changed) := by
  have releases : ∀ other,
      ((world.setTimer timer changed).timers other).releases =
        (world.timers other).releases := by
    intro other
    unfold TimerWorld.setTimer
    dsimp only
    rcases eq_or_ne other timer with rfl | isOther
    · rw [update_self, sameReleases]
    · rw [update_of_ne isOther]
  exact {
    owned := invariant.owned.congr (fun _ => rfl) fun other => by
      rw [releases other]
    created := fun slot other holds => by
      have before := invariant.created slot other holds
      unfold TimerWorld.setTimer
      dsimp only
      rcases eq_or_ne other timer with rfl | isOther
      · rw [update_self, sameCreator, before]
      · rw [update_of_ne isOther, before]
    ok := fun other => by
      unfold TimerWorld.setTimer
      dsimp only
      rcases eq_or_ne other timer with rfl | isOther
      · rw [update_self]
        exact ok
      · rw [update_of_ne isOther]
        exact invariant.ok other
    newGroups := invariant.newGroups
    newFds := invariant.newFds
    inArray := invariant.inArray }

theorem timerSet
    (holds : world.slots slot = some timer)
    (step : world.timerSet timer starts periodic = some next) :
    TimerInvariant next := by
  unfold TimerWorld.timerSet at step
  split at step
  · cases step
  · cases step
    exact invariant.setTimer rfl rfl
      ((invariant.ok timer).set (invariant.unreleased holds) starts periodic)

/-- The places change, but not what the slots hold. -/
theorem setPlaces
    (sameTimers : next.timers = world.timers)
    (sameNext : next.nextTimer = world.nextTimer)
    (sameSlots : ∀ slot, next.slots slot = world.slots slot)
    (newGroups : ∀ group, next.nextGroup ≤ group → next.groups group = none)
    (newFds : ∀ fd, next.nextFd ≤ fd → next.timerfds fd = none)
    (inArray : next.wild = false) :
    TimerInvariant next where
  owned := by
    rw [sameNext]
    exact invariant.owned.congr sameSlots fun timer => by rw [sameTimers]
  created := fun slot timer holds => by
    rw [sameSlots slot] at holds
    rw [sameTimers]
    exact invariant.created slot timer holds
  ok := fun timer => by
    rw [sameTimers]
    exact invariant.ok timer
  newGroups := newGroups
  newFds := newFds
  inArray := inArray

/-- `timer_new`, and the new timer is put into an empty slot of its creator. -/
theorem allocate
    (isEmpty : world.slots slot = none)
    (timers : next.timers = (world.timerNew slot.group).timers)
    (nextTimer : next.nextTimer = world.nextTimer + 1)
    (holds : next.slots slot = some world.nextTimer)
    (elsewhere :
      ∀ other, other ≠ slot → next.slots other = world.slots other)
    (newGroups : ∀ group, next.nextGroup ≤ group → next.groups group = none)
    (newFds : ∀ fd, next.nextFd ≤ fd → next.timerfds fd = none)
    (inArray : next.wild = false) :
    TimerInvariant next := by
  have isNew : next.timers world.nextTimer = { creator := slot.group } := by
    rw [timers]
    exact update_self _ _ _
  have isOld : ∀ timer, timer ≠ world.nextTimer →
      next.timers timer = world.timers timer := by
    intro timer isOther
    rw [timers]
    exact update_of_ne isOther _ _
  refine ⟨?_, ?_, ?_, newGroups, newFds, inArray⟩
  · rw [nextTimer]
    refine invariant.owned.put isEmpty holds elsewhere ?_ ?_
    · intro timer isMade
      rw [isOld timer (Nat.ne_of_lt isMade)]
    · rw [isNew]
      exact not_not.mpr rfl
  · intro other timer otherHolds
    rcases eq_or_ne other slot with rfl | isOther
    · rw [holds] at otherHolds
      rw [← some.inj otherHolds, isNew]
    · rw [elsewhere other isOther] at otherHolds
      have isMade := invariant.owned.made other timer otherHolds
      rw [isOld timer (Nat.ne_of_lt isMade)]
      exact invariant.created other timer otherHolds
  · intro timer
    rcases eq_or_ne timer world.nextTimer with rfl | isOther
    · rw [isNew]
      exact .new slot.group
    · rw [isOld timer isOther]
      exact invariant.ok timer

/-- The timer of a slot is freed by its group, and the slot is emptied. -/
theorem release
    {left : TimerWorld}
    (holds : world.slots slot = some timer)
    (step : left.timerFree timer slot.group = some next)
    (sameTimers : left.timers = world.timers)
    (sameNext : left.nextTimer = world.nextTimer)
    (isEmpty : left.slots slot = none)
    (elsewhere :
      ∀ other, other ≠ slot → left.slots other = world.slots other)
    (newGroups : ∀ group, left.nextGroup ≤ group → left.groups group = none)
    (newFds : ∀ fd, left.nextFd ≤ fd → left.timerfds fd = none)
    (inArray : left.wild = false) :
    TimerInvariant next := by
  unfold TimerWorld.timerFree at step
  obtain ⟨outside, ⟨⟩⟩ := ite_none_left_eq_some.mp step
  rw [sameTimers, ← invariant.created slot timer holds]
  rw [sameTimers, Bool.not_eq_true] at outside
  have isFirst := invariant.unreleased holds
  unfold TimerWorld.setTimer
  refine ⟨?_, ?_, ?_, newGroups, newFds, inArray⟩
  · dsimp only
    rw [sameNext]
    refine invariant.owned.take holds isEmpty elsewhere ?_
    intro other
    rcases eq_or_ne other timer with rfl | isOther
    · rw [update_self, Timer.free_releases]
      exact iff_of_true (List.cons_ne_nil _ _) (.inr rfl)
    · rw [update_of_ne isOther, sameTimers,
        or_iff_left isOther]
  · dsimp only
    intro other kept otherHolds
    have otherHolds : left.slots other = some kept := otherHolds
    have isOther : other ≠ slot := by
      rintro rfl
      rw [isEmpty] at otherHolds
      cases otherHolds
    have before : world.slots other = some kept :=
      (elsewhere other isOther).symm.trans otherHolds
    have isKept : kept ≠ timer := by
      rintro rfl
      exact isOther (invariant.owned.alone other slot _ before holds)
    rw [update_of_ne isKept, sameTimers]
    exact invariant.created other kept before
  · dsimp only
    intro other
    rcases eq_or_ne other timer with rfl | isOther
    · rw [update_self]
      exact (invariant.ok _).free isFirst outside
    · rw [update_of_ne isOther, sameTimers]
      exact invariant.ok other

end

theorem of_liveGroup
    (isLive : world.liveGroup group = some state) :
    world.groups group = some state ∧ 0 < state.threads := by
  obtain ⟨isState, hasThread⟩ := filter_eq_some_iff.mp isLive
  exact ⟨isState, of_decide_eq_true hasThread⟩

theorem slots_posix
    (isState : world.groups group = some state)
    (index : Fin timersMax) :
    world.slots (.posix group index) = state.posixTimers index := by
  unfold TimerWorld.slots
  dsimp only
  rw [isState]

theorem slots_itimer
    (isState : world.groups group = some state) :
    world.slots (.itimer group) =
      if 0 < state.threads then state.itimer else none := by
  unfold TimerWorld.slots
  dsimp only
  rw [isState]

theorem slots_of_groups
    (sameGroups :
      ∀ group, slot.group = some group →
        next.groups group = world.groups group)
    (sameFds : next.timerfds = world.timerfds) :
    next.slots slot = world.slots slot := by
  unfold TimerWorld.slots
  cases slot with
  | itimer group | posix group index =>
    dsimp only
    rw [sameGroups group rfl]
  | timerfd fd => exact congrFun sameFds fd

theorem slots_setGroup_of_ne
    (isOther : slot.group ≠ some group) :
    (world.setGroup group state).slots slot = world.slots slot := by
  refine slots_of_groups ?_ rfl
  intro other isGroup
  unfold TimerWorld.setGroup
  dsimp only
  rw [update_of_ne]
  rintro rfl
  exact isOther isGroup

theorem groups_setGroup :
    (world.setGroup group state).groups group = some state :=
  update_self _ _ _

/-- The slots of a group whose timers stay as they are. -/
theorem slots_setGroup_same
    (isState : world.groups group = some state)
    (sameItimer :
      (if 0 < changed.threads then changed.itimer else none) =
        if 0 < state.threads then state.itimer else none)
    (samePosix : changed.posixTimers = state.posixTimers)
    (slot : TimerSlot) :
    (world.setGroup group changed).slots slot = world.slots slot := by
  by_cases isGroup : slot.group = some group
  · cases slot with
    | itimer other =>
      cases isGroup
      rw [slots_itimer groups_setGroup, slots_itimer isState, sameItimer]
    | posix other index =>
      cases isGroup
      rw [slots_posix groups_setGroup, slots_posix isState, samePosix]
    | timerfd fd => cases isGroup
  · exact slots_setGroup_of_ne isGroup

/-- The slots of a group of which one entry of `posix_timers` changes. -/
theorem slots_setGroup_posix
    {index : Fin timersMax}
    (isState : world.groups group = some state)
    (sameThreads : changed.threads = state.threads)
    (sameItimer : changed.itimer = state.itimer)
    (samePosix :
      ∀ other, other ≠ index →
        changed.posixTimers other = state.posixTimers other)
    (slot : TimerSlot)
    (isOther : slot ≠ .posix group index) :
    (world.setGroup group changed).slots slot = world.slots slot := by
  by_cases isGroup : slot.group = some group
  · cases slot with
    | itimer other =>
      cases isGroup
      rw [slots_itimer groups_setGroup, slots_itimer isState, sameThreads,
        sameItimer]
    | posix other otherIndex =>
      cases isGroup
      rw [slots_posix groups_setGroup, slots_posix isState]
      refine samePosix otherIndex ?_
      rintro rfl
      exact isOther rfl
    | timerfd fd => cases isGroup
  · exact slots_setGroup_of_ne isGroup

theorem slots_setGroup_itimer
    (isState : world.groups group = some state)
    (samePosix : changed.posixTimers = state.posixTimers)
    (slot : TimerSlot)
    (isOther : slot ≠ .itimer group) :
    (world.setGroup group changed).slots slot = world.slots slot := by
  by_cases isGroup : slot.group = some group
  · cases slot with
    | itimer other =>
      cases isGroup
      exact absurd rfl isOther
    | posix other otherIndex =>
      cases isGroup
      rw [slots_posix groups_setGroup, slots_posix isState, samePosix]
    | timerfd fd => cases isGroup
  · exact slots_setGroup_of_ne isGroup

theorem newGroups_setGroup
    (invariant : TimerInvariant world)
    (isState : world.groups group = some state)
    (other : GroupId)
    (isNew : world.nextGroup ≤ other) :
    (world.setGroup group changed).groups other = none := by
  have before := invariant.newGroups other isNew
  unfold TimerWorld.setGroup
  dsimp only
  rw [update_of_ne, before]
  rintro rfl
  rw [isState] at before
  cases before

theorem fork
    (invariant : TimerInvariant world)
    (noTimers : ∀ index, state.posixTimers index = none) :
    TimerInvariant (world.fork state) := by
  refine invariant.setPlaces rfl rfl ?_ ?_ invariant.newFds invariant.inArray
  · intro slot
    have noGroup := invariant.newGroups world.nextGroup (Nat.le_refl _)
    by_cases isGroup : slot.group = some world.nextGroup
    · cases slot with
      | itimer group =>
        cases isGroup
        unfold TimerWorld.slots TimerWorld.fork TimerWorld.setGroup
        dsimp only
        rw [update_self, noGroup]
        rfl
      | posix group index =>
        cases isGroup
        unfold TimerWorld.slots TimerWorld.fork TimerWorld.setGroup
        dsimp only
        rw [update_self, noGroup]
        exact noTimers index
      | timerfd fd => cases isGroup
    · exact slots_setGroup_of_ne isGroup
  · intro group isNew
    unfold TimerWorld.fork TimerWorld.setGroup at *
    dsimp only at isNew ⊢
    rw [update_of_ne (Nat.ne_of_gt isNew)]
    exact invariant.newGroups group (Nat.le_of_lt isNew)

section

variable
  (invariant : TimerInvariant world)
  (isState : world.groups group = some state)
include invariant isState

/-- A group without timers of `timer_create` is reaped. -/
theorem reap
    (isDead : state.threads = 0)
    (noTimers : ∀ index, world.slots (.posix group index) = none) :
    TimerInvariant
      { world with groups := update world.groups group none } := by
  refine invariant.setPlaces rfl rfl ?_ ?_ invariant.newFds invariant.inArray
  · intro slot
    by_cases isGroup : slot.group = some group
    · cases slot with
      | itimer other =>
        cases isGroup
        rw [slots_itimer isState, isDead]
        unfold TimerWorld.slots
        dsimp only
        rw [update_self]
        rfl
      | posix other index =>
        cases isGroup
        rw [noTimers index]
        unfold TimerWorld.slots
        dsimp only
        rw [update_self]
      | timerfd fd => cases isGroup
    · refine slots_of_groups ?_ rfl
      intro other isOther
      dsimp only
      rw [update_of_ne]
      rintro rfl
      exact isGroup isOther
  · intro other isNew
    dsimp only at isNew ⊢
    rcases eq_or_ne other group with rfl | isOther
    · rw [update_self]
    · rw [update_of_ne isOther]
      exact invariant.newGroups other isNew

/-- A thread exits; the last one frees `itimer`. -/
theorem exitTgroup
    (hasThread : 0 < state.threads)
    (step : world.exitTgroup group state = some next) :
    TimerInvariant next := by
  unfold TimerWorld.exitTgroup at step
  dsimp only at step
  split at step
  case h_1 timer isLast isTimer =>
    have holds : world.slots (.itimer group) = some timer := by
      rw [slots_itimer isState, if_pos hasThread, isTimer]
    refine invariant.release holds step rfl rfl ?_ ?_
      (invariant.newGroups_setGroup isState) invariant.newFds invariant.inArray
    · rw [slots_itimer groups_setGroup, isLast]
      rfl
    · exact slots_setGroup_itimer isState rfl
  case h_2 notFreed =>
    cases step
    refine invariant.setPlaces rfl rfl (slots_setGroup_same isState ?_ rfl)
      (invariant.newGroups_setGroup isState) invariant.newFds invariant.inArray
    dsimp only
    rw [if_pos hasThread]
    split
    · rfl
    · cases isTimer : state.itimer with
      | none => rfl
      | some timer => exact absurd isTimer (notFreed timer (by omega))

/-- `setitimer` arms the timer of the group, which it makes at the first call. -/
theorem itimerSet
    (hasThread : 0 < state.threads)
    (step : world.itimerSet group state starts periodic = some next) :
    TimerInvariant next := by
  have before : world.slots (.itimer group) = state.itimer := by
    rw [slots_itimer isState, if_pos hasThread]
  unfold TimerWorld.itimerSet at step
  split at step
  case h_1 timer isTimer =>
    exact invariant.timerSet (before.trans isTimer) step
  case h_2 noTimer =>
    have sameState : (world.timerNew (some group)).groups group = some state :=
      isState
    have holds :
        ((world.timerNew (some group)).setGroup group
          { state with itimer := some world.nextTimer }).slots
            (.itimer group) = some world.nextTimer := by
      rw [slots_itimer groups_setGroup]
      exact if_pos hasThread
    have made : TimerInvariant
        ((world.timerNew (some group)).setGroup group
          { state with itimer := some world.nextTimer }) :=
      invariant.allocate (before.trans noTimer) rfl rfl holds
        (slots_setGroup_itimer sameState rfl)
        (invariant.newGroups_setGroup isState) invariant.newFds
        invariant.inArray
    exact made.timerSet holds step

/-- `timer_create` puts a new timer into a free slot. -/
theorem timerCreate
    (writable : Bool) :
    TimerInvariant (world.timerCreate group state writable) := by
  unfold TimerWorld.timerCreate
  split
  case h_1 => exact invariant
  case h_2 index isFree =>
    split
    case isFalse => exact invariant
    case isTrue =>
      have isNone : state.posixTimers index = none := by
        unfold TimerGroup.freeSlot at isFree
        have isNone := List.find?_some isFree
        exact isNone_iff_eq_none.mp isNone
      have sameState :
          (world.timerNew (some group)).groups group = some state :=
        isState
      refine invariant.allocate ((slots_posix isState index).trans isNone) rfl
        rfl ?_ ?_ (invariant.newGroups_setGroup isState) invariant.newFds
        invariant.inArray
      · rw [slots_posix groups_setGroup]
        exact update_self _ _ _
      · exact slots_setGroup_posix sameState rfl rfl
          fun other isOther => update_of_ne isOther _ _

theorem timerSettime
    {timerId : Nat}
    (inArray : timerId ≠ timersMax)
    (step : world.timerSettime state timerId starts periodic = some next) :
    TimerInvariant next := by
  unfold TimerWorld.timerSettime at step
  split at step
  case isTrue =>
    cases step
    exact invariant
  case isFalse =>
    split at step
    case isFalse => omega
    case isTrue isIndex =>
      split at step
      case h_1 timer isTimer =>
        exact invariant.timerSet ((slots_posix isState _).trans isTimer) step
      case h_2 => cases step

theorem timerDelete
    {timerId : Nat}
    (inArray : timerId < timersMax)
    (step : world.timerDelete group state timerId = some next) :
    TimerInvariant next := by
  unfold TimerWorld.timerDelete at step
  rw [dif_pos inArray] at step
  split at step
  case h_1 timer isTimer =>
    refine invariant.release ((slots_posix isState _).trans isTimer) step rfl
      rfl ?_ ?_ (invariant.newGroups_setGroup isState) invariant.newFds
      invariant.inArray
    · rw [slots_posix groups_setGroup]
      exact update_self _ _ _
    · exact slots_setGroup_posix isState rfl rfl
        fun other isOther => update_of_ne isOther _ _
  case h_2 =>
    cases step
    exact invariant

end

theorem slots_setFd
    {fd : FdId}
    {held : Option TimerId}
    (slot : TimerSlot)
    (isOther : slot ≠ .timerfd fd) :
    { world with timerfds := update world.timerfds fd held }.slots
        slot = world.slots slot := by
  cases slot with
  | itimer group => rfl
  | posix group index => rfl
  | timerfd other =>
    refine update_of_ne ?_ _ _
    rintro rfl
    exact isOther rfl

theorem timerfdCreate
    (invariant : TimerInvariant world)
    (step : world.run .timerfdCreate = some next) :
    TimerInvariant next := by
  cases step
  have isEmpty : world.slots (.timerfd world.nextFd) = none :=
    invariant.newFds world.nextFd (Nat.le_refl _)
  refine invariant.allocate isEmpty rfl rfl (update_self _ _ _)
    slots_setFd invariant.newGroups ?_ invariant.inArray
  intro fd isNew
  dsimp only at isNew ⊢
  rw [update_of_ne (Nat.ne_of_gt isNew)]
  exact invariant.newFds fd (Nat.le_of_lt isNew)

theorem timerfdClose
    {fd : FdId}
    (invariant : TimerInvariant world)
    (step : world.run (.timerfdClose fd) = some next) :
    TimerInvariant next := by
  obtain ⟨timer, holds, freed⟩ := bind_eq_some_iff.mp step
  have holds : world.slots (.timerfd fd) = some timer := holds
  refine invariant.release holds freed rfl rfl (update_self _ _ _)
    slots_setFd invariant.newGroups ?_ invariant.inArray
  intro other isNew
  dsimp only
  rcases eq_or_ne other fd with rfl | isOther
  · rw [update_self]
  · rw [update_of_ne isOther]
    exact invariant.newFds other isNew

/-- A step that keeps timers with their owners keeps the invariant. -/
theorem step
    {action : TimerStep}
    (invariant : TimerInvariant world)
    (keeps : KeepsTimers world action)
    (taken : world.run action = some next) :
    TimerInvariant next := by
  cases action with
  | fork group =>
    obtain ⟨state, isLive, rfl⟩ := map_eq_some_iff.mp taken
    have isState := (of_liveGroup isLive).1
    exact invariant.fork fun index =>
      (slots_posix isState index).symm.trans (keeps index)
  | cloneThread group =>
    obtain ⟨state, isLive, rfl⟩ := map_eq_some_iff.mp taken
    obtain ⟨isState, hasThread⟩ := of_liveGroup isLive
    refine invariant.setPlaces rfl rfl (slots_setGroup_same isState ?_ rfl)
      (invariant.newGroups_setGroup isState) invariant.newFds
      invariant.inArray
    rw [if_pos hasThread]
    exact if_pos (Nat.succ_pos _)
  | exit group =>
    obtain ⟨state, isLive, exits⟩ := bind_eq_some_iff.mp taken
    obtain ⟨isState, hasThread⟩ := of_liveGroup isLive
    exact invariant.exitTgroup isState hasThread exits
  | reap group =>
    simp only [run] at taken
    split at taken
    case h_1 state isState =>
      obtain ⟨isDead, ⟨⟩⟩ := ite_none_right_eq_some.mp taken
      exact invariant.reap isState isDead keeps
    case h_2 => cases taken
  | setitimer group isReal starts periodic =>
    obtain ⟨state, isLive, sets⟩ := bind_eq_some_iff.mp taken
    obtain ⟨isState, hasThread⟩ := of_liveGroup isLive
    split at sets
    · exact invariant.itimerSet isState hasThread sets
    · cases sets
      exact invariant
  | timerCreate group writable =>
    obtain ⟨state, isLive, rfl⟩ := map_eq_some_iff.mp taken
    exact invariant.timerCreate (of_liveGroup isLive).1 writable
  | timerSettime group timerId starts periodic =>
    obtain ⟨state, isLive, sets⟩ := bind_eq_some_iff.mp taken
    exact invariant.timerSettime (of_liveGroup isLive).1 keeps sets
  | timerDelete group timerId =>
    obtain ⟨state, isLive, deletes⟩ := bind_eq_some_iff.mp taken
    exact invariant.timerDelete (of_liveGroup isLive).1 keeps deletes
  | timerfdCreate => exact invariant.timerfdCreate taken
  | timerfdSettime fd starts periodic =>
    obtain ⟨timer, holds, sets⟩ := bind_eq_some_iff.mp taken
    have holds : world.slots (.timerfd fd) = some timer := holds
    exact invariant.timerSet holds sets
  | timerfdClose fd => exact invariant.timerfdClose taken
  | callback timer =>
    simp only [run] at taken
    obtain ⟨expires, ⟨⟩⟩ := ite_none_right_eq_some.mp taken
    exact invariant.setTimer rfl rfl ((invariant.ok timer).callback
      (Bool.and_eq_true_iff.mp expires).2)
  | callbackReturns timer =>
    simp only [run] at taken
    obtain ⟨isInCallback, ⟨⟩⟩ := ite_none_right_eq_some.mp taken
    exact invariant.setTimer (Timer.callbackReturns_releases _)
      (Timer.callbackReturns_creator _)
      ((invariant.ok timer).callbackReturns isInCallback)
  | threadStops timer =>
    simp only [run] at taken
    obtain ⟨stops, ⟨⟩⟩ := ite_none_right_eq_some.mp taken
    rw [Bool.and_eq_true_iff, Bool.and_eq_true_iff] at stops
    exact invariant.setTimer rfl rfl
      ((invariant.ok timer).threadEnds stops.1.1)

theorem init : TimerInvariant TimerWorld.init where
  owned := .nothing fun slot => by
    unfold TimerWorld.slots TimerWorld.init
    cases slot with
    | itimer group =>
      dsimp only
      by_cases isFirst : group = 0
      · rw [if_pos isFirst]
        rfl
      · rw [if_neg isFirst]
    | posix group index =>
      dsimp only
      by_cases isFirst : group = 0
      · rw [if_pos isFirst]
      · rw [if_neg isFirst]
    | timerfd fd => rfl
  created := fun slot timer holds => by
    cases slot with
    | itimer group | posix group index =>
      unfold TimerWorld.slots TimerWorld.init at holds
      dsimp only at holds
      by_cases isFirst : group = 0
      · rw [if_pos isFirst] at holds
        cases holds
      · rw [if_neg isFirst] at holds
        cases holds
    | timerfd fd => cases holds
  ok := fun _ => .new none
  newGroups := fun group isNew => if_neg (Nat.ne_of_gt isNew)
  newFds := fun _ _ => rfl
  inArray := rfl

end TimerInvariant

namespace TimerWorld

/--
In every run that keeps timers with their owners: a timer that was not freed is
in exactly one slot, of the group that made it; it is freed once, by that group;
and once freed it does not call back.
-/
theorem timers_have_one_owner
    {world : TimerWorld}
    (reachable : keptTimerMachine.Reachable world) :
    TimerLaw world := by
  refine TimerInvariant.law (reachable.invariant ?_ ?_)
  · rintro world rfl
    exact .init
  · rintro world action next invariant ⟨keeps, taken⟩
    exact invariant.step keeps taken

/-- A child makes a timer, lets it expire and deletes it. -/
theorem child_deletes_its_timer :
    ∃ world,
      keptTimerMachine.Reachable world ∧
        (world.timers 0).releases = [some 1] ∧
        (world.timers 0).frees = 1 ∧ TimerLaw world := by
  have start : keptTimerMachine.Reachable init := .initial rfl
  have forked :=
    start.step (a := TimerStep.fork 0) ⟨fun _ => rfl, rfl⟩
  have armed :=
    (forked.step (a := TimerStep.timerCreate 1 true) ⟨trivial, rfl⟩).step
      (a := TimerStep.timerSettime 1 0 true true)
      ⟨Nat.zero_ne_add_one 15, rfl⟩
  have expired :=
    (armed.step (a := TimerStep.callback 0) ⟨trivial, rfl⟩).step
      (a := TimerStep.callbackReturns 0) ⟨trivial, rfl⟩
  have freed :=
    (expired.step (a := TimerStep.timerDelete 1 0)
      ⟨Nat.succ_pos 15, rfl⟩).step
      (a := TimerStep.threadStops 0) ⟨trivial, rfl⟩
  exact ⟨_, freed, rfl, rfl, timers_have_one_owner freed⟩

/--
A process makes a timer and forks; the child deletes the timer of its parent, and
when the parent deletes it too the memory is freed twice.
-/
theorem forked_timer_is_freed_twice :
    ∃ world,
      timerMachine.Reachable world ∧
        (world.timers 0).creator = some 0 ∧
        (world.timers 0).releases = [some 0, some 1] ∧
        (world.timers 0).frees = 2 ∧ ¬TimerLaw world := by
  have start : timerMachine.Reachable init := .initial rfl
  have forked :=
    (start.step (a := TimerStep.timerCreate 0 true) rfl).step
      (a := TimerStep.fork 0) rfl
  have freed :=
    (forked.step (a := TimerStep.timerDelete 1 0) rfl).step
      (a := TimerStep.timerDelete 0 0) rfl
  refine ⟨_, freed, rfl, rfl, rfl, ?_⟩
  intro law
  cases (law.once 0 (List.cons_ne_nil _ _)).1

end TimerWorld

end GuestKernel
