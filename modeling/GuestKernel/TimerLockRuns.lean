import GuestKernel.TimerLocks

namespace GuestKernel
open List Option Function

/-!
# Uncrossed runs do not deadlock

The locks of every call are nested, and which lock is taken under which is read
off the calls.  While no callback and no call cross, the locks have ranks that
fall along the waiting: the group of a timer whose callback waits for
`pids_lock` is ranked above `pids_lock`, and any other group below it.
-/

/-- The locks under which a lock is taken. -/
def Permits (held : List GuestLock) : GuestLock → Prop
  | .fd fd =>
    ∀ lock ∈ held,
      lock = .timer (.timerfd fd) ∨ lock = .pids ∨
        (∃ group, lock = .group group) ∨
          ∃ group which, lock = .ofGroup group which
  | .group group =>
    ∀ lock ∈ held,
      lock = .pids ∨ lock = .ofGroup group .itimer ∨
        ∃ index, lock = .ofGroup group (.posix index) ∧ .pids ∈ held
  | .pids => ∀ lock ∈ held, ∃ group which, lock = .ofGroup group which
  | .timer (.timerfd fd) => ∀ lock ∈ held, lock = .fd fd
  | .timer (.ofGroup group which) =>
    ∀ lock ∈ held, lock = .group group ∨ lock = .pids ∧ which = .itimer

/-- The locks are nested, and each is taken under locks that permit it. -/
def Nested (held : List GuestLock) : List LockOp → Prop
  | [] => held = []
  | .lock lock :: rest => Permits held lock ∧ Nested (lock :: held) rest
  | .unlock lock :: rest => ∃ below, held = lock :: below ∧ Nested below rest
  | .wake group _ :: rest =>
    (∀ waiting : WaitPlace,
        waiting.lock group ∉ held → Permits held (waiting.lock group)) ∧
      Nested held rest

/-- A piece of a call that gives back what it takes. -/
def Closed (held : List GuestLock) (piece : List LockOp) : Prop :=
  ∀ rest, Nested held rest → Nested held (piece ++ rest)

namespace Closed

variable {held : List GuestLock} {piece other : List LockOp}

theorem nil : Closed held [] :=
  fun _ nested => nested

/-- Closed pieces follow each other. -/
theorem append
    (first : Closed held piece)
    (second : Closed held other) :
    Closed held (piece ++ other) := by
  intro rest nested
  rw [append_assoc]
  exact first _ (second rest nested)

theorem flatMap
    {α : Type}
    {items : List α}
    {pieces : α → List LockOp}
    (each : ∀ item, Closed held (pieces item)) :
    Closed held (items.flatMap pieces) := by
  induction items with
  | nil => exact nil
  | cons item items inductionHypothesis =>
    rw [flatMap_cons]
    exact (each item).append inductionHypothesis

/-- A piece under a lock that is permitted. -/
theorem locked
    {lock : GuestLock}
    (permits : Permits held lock)
    (inside : Closed (lock :: held) piece) :
    Closed held (locked lock piece) := by
  intro rest nested
  refine ⟨permits, ?_⟩
  show Nested (lock :: held) (piece ++ [.unlock lock] ++ rest)
  rw [append_assoc]
  exact inside _ ⟨held, rfl, nested⟩

theorem wake
    {group : Nat}
    {waiting : Option WaitPlace}
    (permits :
      ∀ waiting : WaitPlace,
        waiting.lock group ∉ held → Permits held (waiting.lock group)) :
    Closed held [.wake group waiting] :=
  fun _ nested => ⟨permits, nested⟩

/-- A signal takes its locks and gives them back. -/
theorem sendSignal
    {group : Nat}
    {signal : SentSignal}
    (permits :
      ∀ waiting : WaitPlace,
        waiting.lock group ∉ held → Permits held (waiting.lock group))
    (stops : signal.stops = true → Permits held (.group group)) :
    Closed held (signal.sendSignal group) := by
  refine @append _ _ (if signal.stops then _ else []) (wake permits) ?_
  split
  · next isStop => exact locked (stops isStop) nil
  · exact nil

end Closed

/-- With `pids_lock` alone, any group and any descriptor is taken. -/
theorem permits_pids
    (group : Nat)
    (waiting : WaitPlace)
    (free : waiting.lock group ∉ [GuestLock.pids]) :
    Permits [.pids] (waiting.lock group) := by
  cases waiting with
  | descriptor fd => simp [WaitPlace.lock, Permits]
  | stopped => simp [WaitPlace.lock, Permits]
  | child => simp [WaitPlace.lock] at free

/-- So does the callback of a timer. -/
theorem closed_timerCallback
    (signal : SentSignal)
    (timer : TimerName) :
    Closed [.timer timer] (timerCallback signal timer) := by
  cases timer with
  | timerfd fd => exact .locked (by simp [Permits]) .nil
  | ofGroup group which =>
    cases which with
    | itimer =>
      refine .sendSignal ?_ nofun
      intro waiting _
      cases waiting <;> simp [WaitPlace.lock, Permits]
    | posix index =>
      refine .locked (by simp [Permits]) (.sendSignal ?_ ?_)
      · intro waiting free
        cases waiting with
        | descriptor fd => simp [WaitPlace.lock, Permits]
        | stopped => simp [WaitPlace.lock, Permits]
        | child => simp [WaitPlace.lock] at free
      · simp [Permits]

theorem closed_groupEnd (after : GroupEnd) : Closed [.pids] after.ops := by
  have signal : ∀ item : Nat × SentSignal,
      Closed [.pids] (item.2.sendSignal item.1) := by
    intro item
    exact .sendSignal (permits_pids item.1) (by simp [Permits])
  cases after with
  | notifies parent => exact .flatMap signal
  | halts states =>
    refine .flatMap fun tasks => .append ?_ ?_
    · rw [map_eq_flatMap]
      exact .flatMap fun task => .wake (permits_pids task.1)
    · intro rest nested
      exact ⟨[], rfl, by simp [Permits], nested⟩

/-- The locks of every call are nested. -/
theorem nested_ops (call : LockCall) : Nested [] call.ops := by
  have closed : Closed [] call.ops := by
    cases call with
    | expire timer signals =>
      refine .locked ?_
        (.flatMap fun signal => closed_timerCallback signal timer)
      cases timer <;> simp [Permits]
    | timerfdSettime fd =>
      exact .locked (by simp [Permits]) (.locked (by simp [Permits]) .nil)
    | timerfdRead fd => exact .locked (by simp [Permits]) .nil
    | timerSettime group index | timerDelete group index | setitimer group =>
      exact .locked (by simp [Permits]) (.locked (by simp [Permits]) .nil)
    | exitGroup group waiting =>
      refine .locked (by simp [Permits]) (.locked (by simp [Permits]) ?_)
      rw [map_eq_flatMap]
      refine .flatMap fun waits => .wake ?_
      intro waiting free
      cases waiting with
      | descriptor fd => simp [WaitPlace.lock, Permits]
      | stopped => simp [WaitPlace.lock] at free
      | child => simp [WaitPlace.lock] at free
    | exit group children last =>
      refine .append (.locked (by simp [Permits]) .nil)
        (.locked (by simp [Permits]) (.append ?_ ?_))
      · refine .flatMap fun child => ?_
        exact .sendSignal (permits_pids child.1) (by simp [Permits])
      · refine .flatMap fun ending => .append ?_ (closed_groupEnd ending.2)
        split
        · exact .locked (by simp [Permits]) .nil
        · exact .nil
  simpa using closed [] rfl

namespace LockWorld

/-- The threads hold what the holders say, and the rest of each is nested. -/
structure Orderly (world : LockWorld) : Prop where
  held :
    ∀ lock thread,
      world.holder lock = some thread → lock ∈ (world.threads thread).held
  nested :
    ∀ thread, Nested (world.threads thread).held (world.threads thread).ops

/-- No timer is crossed. -/
structure Uncrossed (world : LockWorld) : Prop where
  fds :
    ∀ fd,
      world.Waits (.timer (.timerfd fd)) (.fd fd) →
        ¬world.Waits (.fd fd) (.timer (.timerfd fd))
  itimers :
    ∀ group,
      world.Waits (.ofGroup group .itimer) (.group group) →
        ¬world.CallWaits group .itimer
  frees :
    ∀ group which,
      world.Waits .pids (.ofGroup group which) →
        ¬world.CallbackWaits group which
  groups :
    ∀ group which,
      world.Between group → world.CallWaits group which →
        ¬world.CallbackWaits group which

variable {world next : LockWorld} {holds wanted lock : GuestLock}

/-- Which locks a thread that waits can hold. -/
theorem Orderly.permits
    {thread : HostThread}
    (orderly : world.Orderly)
    (isWanted : world.wants thread = some wanted) :
    Permits (world.threads thread).held wanted := by
  have nested := orderly.nested thread
  unfold wants LockThread.wants at isWanted
  split at isWanted
  · next lock rest isNext =>
    cases isWanted
    rw [isNext] at nested
    exact nested.1
  · next group waiting rest isNext =>
    split at isWanted
    · cases isWanted
    · next free =>
      cases isWanted
      rw [isNext] at nested
      exact nested.1 waiting free
  · cases isWanted

section Rank

open Classical in
/-- The rank of a lock. -/
noncomputable def rank (world : LockWorld) : GuestLock → Nat
  | .fd fd => if world.Waits (.fd fd) (.timer (.timerfd fd)) then 1 else 0
  | .timer (.timerfd fd) =>
    if world.Waits (.timer (.timerfd fd)) (.fd fd) then 1 else 0
  | .timer (.ofGroup group which) =>
    if which = .itimer ∧ world.Waits (.ofGroup group which) (.group group) then
      7
    else if world.CallbackWaits group which then
      5
    else
      2
  | .pids => 4
  | .group group =>
    if ∃ which,
        world.CallWaits group which ∧ world.CallbackWaits group which then
      6
    else
      3

theorem rank_fd_le (fd : FdId) : world.rank (.fd fd) ≤ 1 := by
  simp only [rank]
  split <;> decide

theorem rank_group_le (group : Nat) : world.rank (.group group) ≤ 6 := by
  simp only [rank]
  split <;> decide

theorem le_rank_group (group : Nat) : 3 ≤ world.rank (.group group) := by
  simp only [rank]
  split <;> decide

theorem le_rank_ofGroup (group : Nat) (which : GroupTimer) :
    2 ≤ world.rank (.ofGroup group which) := by
  simp only [rank]
  split
  · decide
  · split <;> decide

theorem CallbackWaits.le_rank
    {group : Nat}
    {which : GroupTimer}
    (waits : world.CallbackWaits group which) :
    5 ≤ world.rank (.ofGroup group which) := by
  simp only [rank]
  split
  · decide
  · exact Nat.le_refl 5

/-- The timer of a descriptor and the descriptor: only one of the two waits. -/
theorem Uncrossed.rank_fd
    (uncrossed : world.Uncrossed)
    {fd : FdId}
    (waits : world.Waits (.timer (.timerfd fd)) (.fd fd)) :
    world.rank (.fd fd) < world.rank (.timer (.timerfd fd)) := by
  simp only [rank]
  rw [if_pos waits, if_neg (uncrossed.fds fd waits)]
  decide

theorem Uncrossed.rank_timerfd
    (uncrossed : world.Uncrossed)
    {fd : FdId}
    (waits : world.Waits (.fd fd) (.timer (.timerfd fd))) :
    world.rank (.timer (.timerfd fd)) < world.rank (.fd fd) := by
  simp only [rank]
  rw [if_pos waits, if_neg fun callback => uncrossed.fds fd callback waits]
  decide

/-- A group that a thread with `pids_lock` waits for is ranked low. -/
theorem Uncrossed.rank_between
    (uncrossed : world.Uncrossed)
    {group : Nat}
    (between : world.Between group) :
    world.rank (.group group) = 3 := by
  refine if_neg ?_
  rintro ⟨which, call, callback⟩
  exact uncrossed.groups group which between call callback

/-- A call that holds the group waits for a timer of a lower rank. -/
theorem Uncrossed.rank_call
    (uncrossed : world.Uncrossed)
    {group : Nat}
    {which : GroupTimer}
    (call : world.CallWaits group which) :
    world.rank (.ofGroup group which) < world.rank (.group group) := by
  have noItimer :
      ¬(which = .itimer ∧
          world.Waits (.ofGroup group which) (.group group)) := by
    rintro ⟨rfl, waits⟩
    exact uncrossed.itimers group waits call
  by_cases callback : world.CallbackWaits group which
  · have high : world.rank (.group group) = 6 :=
      if_pos ⟨which, call, callback⟩
    rw [high]
    simp only [rank]
    rw [if_neg noItimer, if_pos callback]
    decide
  · refine Nat.lt_of_lt_of_le ?_ (le_rank_group group)
    simp only [rank]
    rw [if_neg noItimer, if_neg callback]
    decide

/-- Whoever holds a lock and waits for another waits for a lower rank. -/
theorem Uncrossed.rank_falls
    (uncrossed : world.Uncrossed)
    (orderly : world.Orderly)
    (waits : world.Waits holds wanted) :
    world.rank wanted < world.rank holds := by
  obtain ⟨thread, isHeld, isWanted⟩ := id waits
  have permits := orderly.permits isWanted
  cases wanted with
  | fd fd =>
    have low : world.rank (.fd fd) ≤ 1 := rank_fd_le fd
    rcases permits holds isHeld with
      rfl | rfl | ⟨group, rfl⟩ | ⟨group, which, rfl⟩
    · exact uncrossed.rank_fd waits
    · exact Nat.lt_of_le_of_lt low (by simp [rank])
    · exact Nat.lt_of_lt_of_le (Nat.lt_succ_of_le low)
        (Nat.le_trans (by decide) (le_rank_group group))
    · exact Nat.lt_of_lt_of_le (Nat.lt_succ_of_le low)
        (le_rank_ofGroup group which)
  | group group =>
    rcases permits holds isHeld with rfl | rfl | ⟨index, rfl, alsoPids⟩
    · rw [uncrossed.rank_between waits]
      exact Nat.lt_succ_self 3
    · have high : world.rank (.ofGroup group .itimer) = 7 := if_pos ⟨rfl, waits⟩
      rw [high]
      exact Nat.lt_succ_of_le (rank_group_le group)
    · rw [uncrossed.rank_between ⟨thread, alsoPids, isWanted⟩]
      have callback : world.CallbackWaits group (.posix index) := .inr waits
      exact Nat.lt_of_lt_of_le (by decide) callback.le_rank
  | pids =>
    obtain ⟨group, which, rfl⟩ := permits holds isHeld
    have callback : world.CallbackWaits group which := .inl waits
    exact callback.le_rank
  | timer timer =>
    cases timer with
    | timerfd fd =>
      cases permits holds isHeld
      exact uncrossed.rank_timerfd waits
    | ofGroup group which =>
      rcases permits holds isHeld with rfl | ⟨rfl, isItimer⟩
      · exact uncrossed.rank_call waits
      · have free := uncrossed.frees group which waits
        simp only [rank]
        rw [if_neg fun both => free (.inr both.2), if_neg free]
        decide

end Rank

/-- There is no cycle, since the ranks of the wanted locks fall along it. -/
theorem Uncrossed.not_deadlocked
    (uncrossed : world.Uncrossed)
    (orderly : world.Orderly) :
    ¬world.Deadlocked := by
  let threadRank thread :=
    (world.wants thread).elim 0 fun lock => world.rank lock + 1
  refine WaitGraph.not_deadlocked_of_rank threadRank ?_
  rintro first second ⟨lock, isWanted, isHolder⟩
  have above : threadRank first = world.rank lock + 1 := by
    simp only [threadRank, isWanted, Option.elim]
  rw [above]
  cases wantsNext : world.wants second with
  | none =>
    simp only [threadRank, wantsNext, Option.elim]
    exact Nat.succ_pos _
  | some next =>
    simp only [threadRank, wantsNext, Option.elim]
    exact Nat.succ_lt_succ
      (uncrossed.rank_falls orderly
        ⟨second, orderly.held lock second isHolder, wantsNext⟩)

section Steps

variable {action : LockStep}

/-- A step moves its own thread only. -/
theorem threads_of_run
    (ran : world.run action = some next) :
    next.threads =
      update world.threads action.thread (next.threads action.thread) := by
  have moved :
      ∃ after, next.threads = update world.threads action.thread after := by
    cases action with
    | begin thread call =>
      simp only [run] at ran
      split at ran <;> cases ran
      exact ⟨_, rfl⟩
    | lock thread =>
      simp only [run] at ran
      split at ran
      · split at ran <;> cases ran
        exact ⟨_, rfl⟩
      · cases ran
    | unlock thread =>
      simp only [run] at ran
      split at ran <;> cases ran
      exact ⟨_, rfl⟩
    | woken thread =>
      simp only [run] at ran
      split at ran <;> cases ran
      exact ⟨_, rfl⟩
    | retry thread waiting =>
      simp only [run] at ran
      split at ran
      · split at ran <;> cases ran
        exact ⟨_, rfl⟩
      · cases ran
  obtain ⟨after, isAfter⟩ := moved
  rw [isAfter, update_self]

/-- Who waits after a step waited before, or has just come to wait. -/
theorem Waits.of_run
    (waits : next.Waits holds wanted)
    (ran : world.run action = some next) :
    world.Waits holds wanted ∨
      holds ∈ (next.threads action.thread).held ∧
        next.wants action.thread = some wanted := by
  obtain ⟨thread, isHeld, isWanted⟩ := waits
  by_cases same : thread = action.thread
  · rw [← same]
    exact .inr ⟨isHeld, isWanted⟩
  · refine .inl ⟨thread, ?_⟩
    unfold wants at isWanted
    rw [threads_of_run ran, update_of_ne same] at isHeld isWanted
    exact ⟨isHeld, isWanted⟩

theorem CallbackWaits.of_run
    {group : Nat}
    {which : GroupTimer}
    (waits : next.CallbackWaits group which)
    (ran : world.run action = some next) :
    world.CallbackWaits group which ∨
      .ofGroup group which ∈ (next.threads action.thread).held ∧
        (next.wants action.thread = some .pids ∨
          next.wants action.thread = some (.group group)) := by
  rcases waits with atPids | atGroup
  · rcases atPids.of_run ran with was | ⟨isHeld, isWanted⟩
    · exact .inl (.inl was)
    · exact .inr ⟨isHeld, .inl isWanted⟩
  · rcases atGroup.of_run ran with was | ⟨isHeld, isWanted⟩
    · exact .inl (.inr was)
    · exact .inr ⟨isHeld, .inr isWanted⟩

/-- A step that does not cross leaves nothing crossed. -/
theorem Uncrossed.step
    (uncrossed : world.Uncrossed)
    (careful : DoesNotCross world action)
    (ran : world.run action = some next) :
    next.Uncrossed where
  fds fd callback call := by
    rcases callback.of_run ran with wasCallback | ⟨isHeld, isWanted⟩
    · rcases call.of_run ran with wasCall | ⟨isHeld, isWanted⟩
      · exact uncrossed.fds fd wasCallback wasCall
      · exact careful next _ ran isWanted isHeld wasCallback
    · rcases call.of_run ran with wasCall | ⟨_, alsoWanted⟩
      · exact careful next _ ran isWanted isHeld wasCall
      · cases isWanted.symm.trans alsoWanted
  itimers group callback call := by
    rcases callback.of_run ran with wasCallback | ⟨isHeld, isWanted⟩
    · rcases call.of_run ran with wasCall | ⟨isHeld, isWanted⟩
      · exact uncrossed.itimers group wasCallback wasCall
      · have clear := careful next _ ran isWanted
        exact (clear.2 isHeld).1 rfl wasCallback
    · rcases call.of_run ran with wasCall | ⟨_, alsoWanted⟩
      · have clear := careful next _ ran isWanted
        exact (clear.1 .itimer isHeld).1 wasCall
      · cases isWanted.symm.trans alsoWanted
  frees group which exits callback := by
    rcases exits.of_run ran with wasExit | ⟨isHeld, isWanted⟩
    · rcases callback.of_run ran with wasCallback | ⟨isHeld, atPids | atGroup⟩
      · exact uncrossed.frees group which wasExit wasCallback
      · have clear := careful next _ ran atPids
        exact (clear group which isHeld).1 wasExit
      · have clear := careful next _ ran atGroup
        exact (clear.1 which isHeld).2 wasExit
    · have clear := careful next _ ran isWanted
      rcases callback.of_run ran with wasCallback | ⟨_, atPids | atGroup⟩
      · exact clear.1 isHeld wasCallback
      · cases isWanted.symm.trans atPids
      · cases isWanted.symm.trans atGroup
  groups group which between call callback := by
    rcases call.of_run ran with wasCall | ⟨isHeld, isWanted⟩
    · rcases callback.of_run ran with wasCallback | ⟨isHeld, atPids | atGroup⟩
      · rcases between.of_run ran with wasBetween | ⟨isHeld, isWanted⟩
        · exact uncrossed.groups group which wasBetween wasCall wasCallback
        · have clear := careful next _ ran isWanted
          exact clear.2 isHeld which wasCall wasCallback
      · have clear := careful next _ ran atPids
        rcases between.of_run ran with wasBetween | ⟨_, isWanted⟩
        · exact (clear group which isHeld).2 wasBetween wasCall
        · cases isWanted.symm.trans atPids
      · have clear := careful next _ ran atGroup
        exact (clear.1 which isHeld).1 wasCall
    · -- The call arrives: the others were there before.
      have clear := careful next _ ran isWanted
      rcases between.of_run ran with wasBetween | ⟨_, alsoWanted⟩
      · rcases callback.of_run ran with wasCallback | ⟨_, atPids | atGroup⟩
        · exact (clear.2 isHeld).2 wasBetween wasCallback
        · cases isWanted.symm.trans atPids
        · cases isWanted.symm.trans atGroup
      · cases isWanted.symm.trans alsoWanted

/-- A thread that takes the lock it wants goes on nested. -/
theorem nested_take
    {thread : LockThread}
    (nested : Nested thread.held thread.ops)
    (isWanted : thread.wants = some lock) :
    Nested (thread.take lock).held (thread.take lock).ops := by
  obtain ⟨held, ops⟩ := thread
  unfold LockThread.wants at isWanted
  split at isWanted
  · next taken rest isNext =>
    cases isWanted
    cases isNext
    exact nested.2
  · next group waiting rest isNext =>
    split at isWanted <;> cases isWanted
    cases isNext
    exact ⟨held, rfl, nested.2⟩
  · cases isWanted

theorem Orderly.of_moved
    {thread : HostThread}
    {after : LockThread}
    (orderly : world.Orderly)
    (moved : next.threads = update world.threads thread after)
    (nested : Nested after.held after.ops)
    (keeps : ∀ lock, next.holder lock = some thread → lock ∈ after.held)
    (others :
      ∀ lock other,
        other ≠ thread → next.holder lock = some other →
        world.holder lock = some other) :
    next.Orderly where
  held lock other isHolder := by
    rw [moved]
    by_cases same : other = thread
    · subst same
      rw [update_self]
      exact keeps lock isHolder
    · rw [update_of_ne same]
      exact orderly.held lock other (others lock other same isHolder)
  nested other := by
    rw [moved]
    by_cases same : other = thread
    · subst same
      rwa [update_self]
    · rw [update_of_ne same]
      exact orderly.nested other

/-- Every step keeps the threads orderly. -/
theorem Orderly.step
    (orderly : world.Orderly)
    (ran : world.run action = some next) :
    next.Orderly := by
  cases action with
  | begin thread call =>
    have nested := orderly.nested thread
    simp only [run] at ran
    split at ran <;> cases ran
    next isDone =>
    refine orderly.of_moved rfl (nested_ops call) ?_
      fun _ _ _ isHolder => isHolder
    intro lock isHolder
    have isHeld := orderly.held lock thread isHolder
    rw [isDone] at nested
    change (world.threads thread).held = [] at nested
    rwa [nested] at isHeld
  | lock thread =>
    simp only [run] at ran
    split at ran
    · next lock isWanted =>
      split at ran <;> cases ran
      refine orderly.of_moved rfl (nested_take (orderly.nested thread) isWanted)
        ?_ ?_
      · intro other isHolder
        rcases eq_some_of_update isHolder with ⟨rfl, _⟩ | ⟨_, wasHolder⟩
        · exact mem_cons_self
        · exact mem_cons_of_mem _ (orderly.held other thread wasHolder)
      · intro other holder differs isHolder
        rcases eq_some_of_update isHolder with ⟨_, rfl⟩ | ⟨_, wasHolder⟩
        · exact (differs rfl).elim
        · exact wasHolder
    · cases ran
  | unlock thread =>
    have nested := orderly.nested thread
    simp only [run] at ran
    split at ran <;> cases ran
    next lock rest isNext =>
    rw [isNext] at nested
    obtain ⟨below, isHeld, after⟩ := nested
    refine orderly.of_moved rfl (by rwa [isHeld]) ?_
      fun _ _ _ isHolder => eq_some_of_update_none isHolder
    intro other isHolder
    have was := orderly.held other thread (eq_some_of_update_none isHolder)
    rw [isHeld, mem_cons] at was
    rw [isHeld]
    exact was.resolve_left (ne_of_update_none isHolder)
  | woken thread =>
    have nested := orderly.nested thread
    simp only [run] at ran
    split at ran <;> cases ran
    next group waiting rest isNext _ =>
    rw [isNext] at nested
    exact orderly.of_moved rfl nested.2 (fun lock => orderly.held lock thread)
      fun _ _ _ isHolder => isHolder
  | retry thread waiting =>
    have nested := orderly.nested thread
    simp only [run] at ran
    split at ran
    · next group _ rest lock isNext _ =>
      split at ran <;> cases ran
      rw [isNext] at nested
      exact orderly.of_moved rfl nested (fun lock => orderly.held lock thread)
        fun _ _ _ isHolder => isHolder
    · cases ran

end Steps

/-- At first nobody holds a lock. -/
theorem orderly_idle : idle.Orderly where
  held _ _ isHolder := by cases isHolder
  nested _ := rfl

theorem not_waits_idle (holds wanted : GuestLock) :
    ¬idle.Waits holds wanted := by
  rintro ⟨_, isHeld, _⟩
  cases isHeld

theorem uncrossed_idle : idle.Uncrossed where
  fds _ callback := (not_waits_idle _ _ callback).elim
  itimers _ callback := (not_waits_idle _ _ callback).elim
  frees _ _ exits := (not_waits_idle _ _ exits).elim
  groups _ _ between := (not_waits_idle _ _ between).elim

end LockWorld

/--
No run deadlocks whose steps do not cross, whatever callbacks, calls, signals
and exits are interleaved in it.
-/
theorem uncrossed_runs_do_not_deadlock
    {world : LockWorld}
    (reachable : uncrossedMachine.Reachable world) :
    ¬world.Deadlocked := by
  have safe : world.Uncrossed ∧ world.Orderly := by
    refine reachable.invariant
      (motive := fun world => world.Uncrossed ∧ world.Orderly) ?_ ?_
    · rintro state rfl
      exact ⟨LockWorld.uncrossed_idle, LockWorld.orderly_idle⟩
    · rintro state action next ⟨uncrossed, orderly⟩ ⟨careful, ran⟩
      exact ⟨uncrossed.step careful ran, orderly.step ran⟩
  exact safe.1.not_deadlocked safe.2

theorem uncrossed_step
    {world next : LockWorld}
    (reachable : uncrossedMachine.Reachable world)
    (action : LockStep)
    (careful : DoesNotCross world action)
    (ran : world.run action = some next) :
    uncrossedMachine.Reachable next :=
  reachable.step ⟨careful, ran⟩

/-- A timer calls back while `timerfd_read` holds the descriptor. -/
theorem callback_waits_for_reader :
    ∃ world : LockWorld,
      world.Waits (.timer (.timerfd 0)) (.fd 0) ∧
        world.holder (.fd 0) = some 1 ∧
        uncrossedMachine.Reachable world ∧ ¬world.Deadlocked := by
  have start : uncrossedMachine.Reachable LockWorld.idle := .initial rfl
  have expires := uncrossed_step start
    (.begin 0 (.expire (.timerfd 0) [⟨none, false⟩]))
    (by
      rintro _ _ ⟨⟩ ⟨⟩
      exact fun isHeld => nomatch isHeld)
    rfl
  have reads := uncrossed_step expires (.begin 1 (.timerfdRead 0))
    (by
      rintro _ _ ⟨⟩ ⟨⟩
      exact fun isHeld => nomatch isHeld)
    rfl
  have hasFd := uncrossed_step reads (.lock 1)
    (by
      rintro _ _ ⟨⟩ ⟨⟩)
    rfl
  have calls := uncrossed_step hasFd (.lock 0)
    (by
      rintro _ _ ⟨⟩ ⟨⟩ _ ⟨thread, isHeld, isWanted⟩
      match thread with
      | 0 => cases isHeld
      | 1 => cases isWanted
      | _ + 2 => cases isHeld)
    rfl
  refine ⟨_, ?_, ?_, calls, uncrossed_runs_do_not_deadlock calls⟩
  · exact ⟨0, mem_cons_self, rfl⟩
  · rfl

theorem timerLock_step
    {world next : LockWorld}
    (reachable : timerLockMachine.Reachable world)
    (action : LockStep)
    (ran : world.run action = some next) :
    timerLockMachine.Reachable next :=
  reachable.step ran

/--
A timer expires while `timerfd_settime` holds the descriptor: the callback waits
for the descriptor, and the call for the timer.
-/
theorem timerfd_settime_deadlocks :
    ∃ world : LockWorld,
      timerLockMachine.Reachable world ∧ world.Deadlocked := by
  have start : timerLockMachine.Reachable LockWorld.idle := .initial rfl
  have expires := timerLock_step start
    (.begin 0 (.expire (.timerfd 0) [⟨none, false⟩])) rfl
  have expired := timerLock_step expires (.lock 0) rfl
  have begun := timerLock_step expired (.begin 1 (.timerfdSettime 0)) rfl
  have locked := timerLock_step begun (.lock 1) rfl
  refine ⟨_, locked, WaitGraph.deadlocked_of_pair 0 1 ?_ ?_⟩
  · exact ⟨.fd 0, rfl, rfl⟩
  · exact ⟨.timer (.timerfd 0), rfl, rfl⟩

end GuestKernel
