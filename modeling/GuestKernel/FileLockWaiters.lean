import GuestKernel.FileLock
import GuestKernel.Machine
import Mathlib.Logic.Function.Basic

namespace GuestKernel
open List Function

/-!
# Waiting for a lock

A blocking `fcntl_setlk` that is refused sleeps on `posix_unlock` and tries
again when it is notified.  `file_lock_acquire` notifies whenever it cuts a
lock back.  `file_lock_remove_owned_by` does not, so closing a descriptor can
strand a sleeper: the last part says exactly when.
-/

/-- The walk only grows the request. -/
theorem acquireLoop_request
    {found : Bool}
    {request : FileLock}
    {locks : List FileLock} :
    (acquireLoop found request locks).request.owner = request.owner ∧
      (acquireLoop found request locks).request.type = request.type ∧
      (acquireLoop found request locks).request.start ≤ request.start ∧
      request.end ≤ (acquireLoop found request locks).request.end := by
  induction locks generalizing found request with
  | nil =>
    exact ⟨rfl, rfl, Int.le_refl _, Int.le_refl _⟩
  | cons lock rest inductionHypothesis =>
    unfold acquireLoop
    split
    · split
      · exact ⟨rfl, rfl, Int.le_refl _, Int.le_refl _⟩
      · exact inductionHypothesis
    · split
      · split
        · exact inductionHypothesis
        · obtain ⟨owner, type, growsDown, growsUp⟩ :=
            @inductionHypothesis true (request.extend lock)
          have bounds :
              (request.extend lock).start ≤ request.start ∧
                request.end ≤ (request.extend lock).end := by
            simp only [FileLock.extend]
            split <;> split <;> omega
          exact ⟨owner, type, Int.le_trans growsDown bounds.1,
            Int.le_trans bounds.2 growsUp⟩
      · split <;> exact inductionHypothesis

/-- A lock of the list is kept, or merged into the grown request. -/
def Survives (walk : LockWalk) (lock : FileLock) : Prop :=
  lock ∈ walk.before ∨ lock ∈ walk.after ∨
    lock.owner = walk.request.owner ∧ lock.type = walk.request.type ∧
      walk.request.start ≤ lock.start ∧ lock.end ≤ walk.request.end

theorem Survives.behind
    {walk : LockWalk}
    {lock : FileLock}
    (survives : Survives walk lock)
    (locks : List FileLock) :
    Survives (walk.behind locks) lock := by
  rcases survives with inBefore | rest
  · exact .inl (mem_append_right _ inBefore)
  · exact .inr rest

/-- A walk that notifies nobody loses no lock. -/
theorem acquireLoop_silent
    {found : Bool}
    {request : FileLock}
    {locks : List FileLock}
    (silent : (acquireLoop found request locks).notified = false) :
    ∀ lock ∈ locks, Survives (acquireLoop found request locks) lock := by
  induction locks generalizing found request with
  | nil =>
    nofun
  | cons first rest inductionHypothesis =>
    unfold acquireLoop at silent ⊢
    have keeps :
        ∀ {found : Bool},
          (acquireLoop found request rest).notified = false →
          ∀ lock ∈ first :: rest,
            Survives ((acquireLoop found request rest).behind [first])
              lock := by
      intro found quiet lock member
      rcases mem_cons.mp member with rfl | inRest
      · exact .inl mem_cons_self
      · exact (inductionHypothesis quiet lock inRest).behind _
    split
    · rename_i different
      rw [if_pos different] at silent
      split
      · exact fun lock member => .inr (.inl member)
      · rename_i searching
        rw [if_neg searching] at silent
        exact keeps silent
    · rename_i owned
      rw [if_neg owned] at silent
      split
      · rename_i sameType
        rw [if_pos sameType] at silent
        split
        · rename_i apart
          rw [if_pos apart] at silent
          exact keeps silent
        · rename_i touches
          rw [if_neg touches] at silent
          intro lock member
          rcases mem_cons.mp member with rfl | inRest
          · obtain ⟨owner, type, growsDown, growsUp⟩ :=
              @acquireLoop_request true (request.extend lock) rest
            have bounds :
                (request.extend lock).start ≤ lock.start ∧
                  lock.end ≤ (request.extend lock).end := by
              simp only [FileLock.extend]
              split <;> split <;> omega
            refine .inr (.inr ⟨?_, ?_,
              Int.le_trans growsDown bounds.1,
              Int.le_trans bounds.2 growsUp⟩)
            · rw [owner]
              exact not_not.mp owned
            · rw [type]
              exact sameType.symm
          · exact inductionHypothesis silent lock inRest
      · rename_i differs
        rw [if_neg differs] at silent
        split
        · rename_i overlap
          rw [if_pos overlap] at silent
          cases silent
        · rename_i separate
          rw [if_neg separate] at silent
          exact keeps silent

theorem FileLock.subtract_type
    {lock request piece : FileLock}
    (remains : piece ∈ lock.subtract request) :
    piece.type = lock.type := by
  unfold subtract at remains
  split at remains
  · rcases mem_pair.mp remains with rfl | rfl <;> rfl
  · split at remains
    · cases remains
    · split at remains
      · rw [mem_singleton.mp remains]
      · split at remains <;> rw [mem_singleton.mp remains]

/-- The walk makes no lock of a new type. -/
theorem acquireLoop_type
    {found : Bool}
    {request : FileLock}
    {locks : List FileLock} :
    ∀ lock,
      lock ∈ (acquireLoop found request locks).before ∨
          lock ∈ (acquireLoop found request locks).after →
      ∃ old ∈ locks, old.type = lock.type := by
  induction locks generalizing found request with
  | nil =>
    rintro lock (member | member) <;> cases member
  | cons first rest inductionHypothesis =>
    have later :
        ∀ {found request} lock,
          lock ∈ (acquireLoop found request rest).before ∨
              lock ∈ (acquireLoop found request rest).after →
          ∃ old ∈ first :: rest, old.type = lock.type := by
      intro found request lock member
      obtain ⟨old, inRest, same⟩ := inductionHypothesis lock member
      exact ⟨old, mem_cons_of_mem _ inRest, same⟩
    have behind :
        ∀ {found request} (pieces : List FileLock),
          (∀ piece ∈ pieces, piece.type = first.type) →
          ∀ lock,
            lock ∈
                  ((acquireLoop found request rest).behind pieces).before ∨
                lock ∈ (acquireLoop found request rest).after →
            ∃ old ∈ first :: rest, old.type = lock.type := by
      rintro found request pieces sameType lock (inBefore | inAfter)
      · rcases mem_append.mp inBefore with isPiece | inLater
        · exact ⟨first, mem_cons_self,
            (sameType lock isPiece).symm⟩
        · exact later lock (.inl inLater)
      · exact later lock (.inr inAfter)
    have kept : ∀ piece ∈ [first], piece.type = first.type := by
      simp
    unfold acquireLoop
    split
    · split
      · rintro lock (member | member)
        · cases member
        · exact ⟨lock, member, rfl⟩
      · exact behind _ kept
    · split
      · split
        · exact behind _ kept
        · exact later
      · split
        · exact behind _ fun piece => FileLock.subtract_type
        · exact behind _ kept

/-- Every lock of the list is held, for reading or writing. -/
def AllHeld (locks : List FileLock) : Prop :=
  ∀ lock ∈ locks, lock.type ≠ .unlck

/-- Some lock of the list conflicts with the request. -/
def Blocked (locks : List FileLock) (request : FileLock) : Prop :=
  ∃ lock ∈ locks, fileLocksConflict lock request

/-- The locks after a request: the old list, or the walk's. -/
theorem fileLockAcquire_cases (locks : List FileLock) (request : FileLock) :
    (request.type ≠ .unlck ∧ Blocked locks request ∧
        fileLockAcquire locks request = {
          result := .error .again
          locks := locks
          request := request
          notified := false }) ∨
      (fileLockAcquire locks request).result = .ok () ∧
        (fileLockAcquire locks request).notified =
            (acquireLoop false request locks).notified ∧
          ∀ {lock},
            lock ∈ (fileLockAcquire locks request).locks ↔
              lock ∈ (acquireLoop false request locks).before ∨
                lock ∈ (acquireLoop false request locks).after ∨
                request.type ≠ .unlck ∧
                  lock = (acquireLoop false request locks).request := by
  by_cases blocked :
      request.type ≠ .unlck ∧
        ∃ lock ∈ locks, fileLocksConflict lock request
  · exact .inl ⟨blocked.1, blocked.2, if_pos blocked⟩
  · refine .inr ?_
    simp only [fileLockAcquire, if_neg blocked, true_and]
    intro lock
    by_cases unlocks : request.type = .unlck
    · simp [unlocks]
    · simp only [unlocks, ne_eq, not_false_eq_true, if_true,
        mem_append, mem_cons, true_and]
      exact or_congr_right or_comm

/-- Requests keep every lock of the list held. -/
theorem AllHeld.acquire
    {locks : List FileLock}
    (held : AllHeld locks)
    (request : FileLock) :
    AllHeld (fileLockAcquire locks request).locks := by
  rcases fileLockAcquire_cases locks request with
      ⟨_, _, refused⟩ | ⟨_, _, members⟩
  · rw [refused]
    exact held
  · have old :
        ∀ lock,
          lock ∈ (acquireLoop false request locks).before ∨
              lock ∈ (acquireLoop false request locks).after →
          lock.type ≠ .unlck := by
      intro lock member
      obtain ⟨before, inOld, same⟩ := acquireLoop_type lock member
      exact same ▸ held before inOld
    intro lock member
    rcases members.mp member with inBefore | inAfter | ⟨takes, rfl⟩
    · exact old lock (.inl inBefore)
    · exact old lock (.inr inAfter)
    · rw [acquireLoop_request.2.1]
      exact takes

/-- A request that notifies nobody unblocks nobody. -/
theorem Blocked.acquire
    {locks : List FileLock}
    {request other : FileLock}
    (held : AllHeld locks)
    (silent : (fileLockAcquire locks request).notified = false)
    (blocked : Blocked locks other) :
    Blocked (fileLockAcquire locks request).locks other := by
  rcases fileLockAcquire_cases locks request with
      ⟨_, _, refused⟩ | ⟨_, notified, members⟩
  · rw [refused]
    exact blocked
  · rw [notified] at silent
    obtain ⟨lock, member, different, overlap, writes⟩ := blocked
    rcases acquireLoop_silent silent lock member with
        inBefore | inAfter | ⟨owner, type, growsDown, growsUp⟩
    · exact ⟨lock, members.mpr (.inl inBefore), different, overlap, writes⟩
    · exact ⟨lock, members.mpr (.inr (.inl inAfter)), different, overlap,
        writes⟩
    · -- the lock was merged into the request, which covers it
      have takes : request.type ≠ .unlck := by
        rw [← acquireLoop_request.2.1, ← type]
        exact held lock member
      refine ⟨(acquireLoop false request locks).request,
        members.mpr (.inr (.inr ⟨takes, rfl⟩)), owner ▸ different, ?_,
        type ▸ writes⟩
      exact ⟨Int.le_trans overlap.1 growsUp,
        Int.le_trans growsDown overlap.2⟩

/-- A thread of the guest. -/
abbrev ThreadId := Nat

/-- A requester asleep in `wait_for`. -/
structure Waiter where
  request : FileLock
  notified : Bool
  deriving Repr, DecidableEq

/-- The lock list of one inode and the threads asleep on `posix_unlock`. -/
structure LockState where
  locks : List FileLock
  waiting : ThreadId → Option Waiter

/-- `notify(&inode->posix_unlock)`. -/
def notifyAll
    (waiting : ThreadId → Option Waiter) (thread : ThreadId) :
    Option Waiter :=
  (waiting thread).map fun waiter => { waiter with notified := true }

/--
One round of the loop of `fcntl_setlk`: try the lock, and when it is refused
sleep if the call is blocking.
-/
def LockState.attempt
    (state : LockState)
    (thread : ThreadId)
    (request : FileLock)
    (blocking : Bool) : LockState :=
  let acquired := fileLockAcquire state.locks request
  let waiting :=
    if acquired.notified then notifyAll state.waiting else state.waiting
  match acquired.result with
  | .ok () =>
    { locks := acquired.locks
      waiting := update waiting thread none }
  | .error _ =>
    { locks := acquired.locks
      waiting := update waiting thread
        (if blocking then
          some { request := acquired.request, notified := false }
        else none) }

/-- What threads do with the locks of the inode. -/
inductive WaitAction where
  | setlk
      (thread : ThreadId) (file : LockFile) (flock : Flock)
      (owner : OwnerId) (pid : Int) (blocking : Bool)
  | wake (thread : ThreadId)
  | interrupt (thread : ThreadId)
  | close (owner : OwnerId)

/--
One step under `inode->lock`.  A sleeper may also wake without a notification,
or leave its call because of a signal.
-/
def WaitAction.run (state : LockState) : WaitAction → Option LockState
  | setlk thread file flock owner pid blocking =>
    if (state.waiting thread).isSome then
      none
    else
      match fcntlSetlkRequest file flock owner pid with
      | .error _ => some state
      | .ok request => some (state.attempt thread request blocking)
  | wake thread =>
    (state.waiting thread).map fun waiter =>
      state.attempt thread waiter.request true
  | interrupt thread =>
    some { state with
      waiting := update state.waiting thread none }
  | close owner =>
    some { state with
      locks := fileLockRemoveOwnedBy state.locks owner }

/-- Any interleaving of lock calls, wake-ups and closes on one inode. -/
def waitMachine : Machine LockState WaitAction where
  initial state := state = { locks := [], waiting := fun _ => none }
  step state action next := action.run state = some next

/-- Every sleeper that was not notified has a reason to sleep. -/
def NoLostWakeup (state : LockState) : Prop :=
  ∀ thread waiter,
    state.waiting thread = some waiter →
    waiter.notified = false →
    Blocked state.locks waiter.request

/--
The condition on a close: every sleeper that was not notified conflicts with a
lock of an owner other than the closing one.
-/
def StrandsNobody (state : LockState) (owner : OwnerId) : Prop :=
  ∀ thread waiter,
    state.waiting thread = some waiter →
    waiter.notified = false →
    ∃ lock ∈ state.locks,
      lock.owner ≠ owner ∧ fileLocksConflict lock waiter.request

/-- The steps that lose no wake-up: all but the closes that strand one. -/
def SafeStep (state : LockState) : WaitAction → Prop
  | .close owner => StrandsNobody state owner
  | _ => True

/-- A round of `fcntl_setlk` loses no wake-up. -/
theorem NoLostWakeup.attempt
    {state : LockState}
    (held : AllHeld state.locks)
    (noLost : NoLostWakeup state)
    (thread : ThreadId)
    (request : FileLock)
    (blocking : Bool) :
    NoLostWakeup (state.attempt thread request blocking) := by
  -- a thread that still sleeps unnotified slept so before
  have others :
      ∀ {other waiter},
        (if (fileLockAcquire state.locks request).notified then
          notifyAll state.waiting else state.waiting) other =
            some waiter →
        waiter.notified = false →
        Blocked (fileLockAcquire state.locks request).locks
          waiter.request := by
    intro other waiter asleep notNotified
    split at asleep
    · obtain ⟨before, _, rfl⟩ := Option.map_eq_some_iff.mp asleep
      cases notNotified
    · rename_i silent
      exact (noLost _ _ asleep notNotified).acquire held
        (by simpa using silent)
  intro other waiter asleep notNotified
  rcases fileLockAcquire_cases state.locks request with
      ⟨_, blocked, refused⟩ | ⟨granted, _⟩
  · rw [refused] at others
    simp only [LockState.attempt, refused] at asleep ⊢
    by_cases same : other = thread
    · subst other
      rw [update_self] at asleep
      split at asleep
      · cases asleep
        exact blocked
      · cases asleep
    · rw [update_of_ne same] at asleep
      exact others asleep notNotified
  · simp only [LockState.attempt, granted] at asleep ⊢
    by_cases same : other = thread
    · subst other
      rw [update_self] at asleep
      cases asleep
    · rw [update_of_ne same] at asleep
      exact others asleep notNotified

theorem AllHeld.attempt
    {state : LockState}
    (held : AllHeld state.locks)
    (thread : ThreadId)
    (request : FileLock)
    (blocking : Bool) :
    AllHeld (state.attempt thread request blocking).locks := by
  have heldNext := held.acquire request
  cases result : (fileLockAcquire state.locks request).result with
  | ok _ | error _ =>
    simpa only [LockState.attempt, result] using heldNext

/-- A close loses a wake-up exactly when it strands a sleeper. -/
theorem noLostWakeup_close_iff
    {state next : LockState}
    {owner : OwnerId}
    (closed : waitMachine.step state (.close owner) next) :
    NoLostWakeup next ↔ StrandsNobody state owner := by
  cases closed
  have remaining :
      ∀ {request},
        Blocked (fileLockRemoveOwnedBy state.locks owner) request ↔
          ∃ lock ∈ state.locks,
            lock.owner ≠ owner ∧ fileLocksConflict lock request := by
    intro request
    simp only [Blocked, fileLockRemoveOwnedBy, mem_filter,
      decide_eq_true_eq, and_assoc]
  constructor
  · intro noLost thread waiter asleep notNotified
    exact remaining.mp (noLost _ _ asleep notNotified)
  · intro safe thread waiter asleep notNotified
    exact remaining.mpr (safe _ _ asleep notNotified)

/-- Every safe step keeps the locks held and loses no wake-up. -/
theorem NoLostWakeup.step
    {state next : LockState}
    {action : WaitAction}
    (held : AllHeld state.locks)
    (noLost : NoLostWakeup state)
    (safe : SafeStep state action)
    (taken : waitMachine.step state action next) :
    AllHeld next.locks ∧ NoLostWakeup next := by
  cases action with
  | setlk thread file flock owner pid blocking =>
    simp only [waitMachine, WaitAction.run] at taken
    split at taken
    · cases taken
    · split at taken
      · cases taken
        exact ⟨held, noLost⟩
      · cases taken
        exact ⟨held.attempt _ _ _, noLost.attempt held _ _ _⟩
  | wake thread =>
    obtain ⟨waiter, _, rfl⟩ := Option.map_eq_some_iff.mp taken
    exact ⟨held.attempt _ _ _, noLost.attempt held _ _ _⟩
  | interrupt thread =>
    cases taken
    refine ⟨held, ?_⟩
    intro other waiter asleep notNotified
    exact noLost _ _ (eq_some_of_update_none asleep) notNotified
  | close owner =>
    refine ⟨?_, (noLostWakeup_close_iff taken).mpr safe⟩
    cases taken
    exact fun lock member => held lock (mem_of_mem_filter member)

/--
In every run whose closes strand nobody, no wake-up is lost; and the next close
loses one exactly when it strands somebody.
-/
theorem no_lost_wakeup_while_closes_strand_nobody
    {state : LockState}
    (reachable : (waitMachine.restrict SafeStep).Reachable state) :
    NoLostWakeup state ∧
      ∀ {owner next},
        waitMachine.step state (.close owner) next →
        (NoLostWakeup next ↔ StrandsNobody state owner) := by
  have both : AllHeld state.locks ∧ NoLostWakeup state := by
    refine Machine.Reachable.invariant
      (motive := fun state => AllHeld state.locks ∧ NoLostWakeup state)
      ?_ ?_ reachable
    · rintro state rfl
      exact ⟨nofun, nofun⟩
    · rintro state action next ⟨held, noLost⟩ ⟨safe, taken⟩
      exact noLost.step held safe taken
  exact ⟨both.2, noLostWakeup_close_iff⟩

/-- A file open for reading and writing. -/
def openFile : LockFile where
  mode := .readWrite
  lseek := none
  fstat := .ok 0

/-- Ask for a lock of this type on the first ten bytes. -/
def lockTenBytes
    (thread : ThreadId) (type : Nat) (blocking : Bool) : WaitAction :=
  .setlk thread openFile { type := type, whence := 0, start := 0, len := 10 }
    thread 0 blocking

/-- A state where the first thread holds a write lock the second waits for. -/
structure SecondWaits (state : LockState) : Prop where
  locks : state.locks = [⟨0, 9, .wrlck, 0, 1⟩]
  second : state.waiting 2 = some ⟨⟨0, 9, .wrlck, 0, 2⟩, false⟩
  others : ∀ thread, thread ≠ 2 → state.waiting thread = none

theorem exists_secondWaits :
    ∃ state,
      (waitMachine.restrict SafeStep).Reachable state ∧
        SecondWaits state := by
  refine ⟨_, .step (a := lockTenBytes 2 1 true)
    (.step (a := lockTenBytes 1 1 false) (.initial rfl) ⟨trivial, rfl⟩)
    ⟨trivial, rfl⟩, rfl, rfl, ?_⟩
  intro thread notSecond
  refine (update_of_ne notSecond _ _).trans ?_
  by_cases isFirst : thread = 1
  · subst isFirst
    rfl
  · exact update_of_ne isFirst _ _

/-- The close of a third owner leaves the sleeper its reason to sleep. -/
theorem close_of_third_owner_strands_nobody :
    ∃ state next,
      SecondWaits state ∧
        waitMachine.step state (.close 3) next ∧ NoLostWakeup next := by
  obtain ⟨state, reachable, waits⟩ := exists_secondWaits
  refine ⟨state, _, waits, rfl, ?_⟩
  refine ((no_lost_wakeup_while_closes_strand_nobody reachable).2 rfl).mpr
    ?_
  intro thread waiter asleep _
  by_cases isSecond : thread = 2
  · subst isSecond
    cases waits.second.symm.trans asleep
    rw [waits.locks]
    exact ⟨_, mem_singleton_self _, by decide, by decide⟩
  · cases (waits.others thread isSecond).symm.trans asleep

/-- The close of the holder leaves the sleeper without a reason to sleep. -/
theorem close_of_holder_strands_sleeper :
    ∃ state waiter,
      waitMachine.Reachable state ∧
        state.locks = [] ∧
        state.waiting 2 = some waiter ∧
        waiter.notified = false ∧ ¬ NoLostWakeup state := by
  obtain ⟨before, reachable, waits⟩ := exists_secondWaits
  have closed : fileLockRemoveOwnedBy before.locks 1 = [] := by
    rw [waits.locks]
    decide
  refine ⟨_, _, .step (a := .close 1) reachable.of_restrict rfl, closed,
    waits.second, rfl, ?_⟩
  intro noLost
  obtain ⟨lock, member, _⟩ := noLost 2 _ waits.second rfl
  rw [closed] at member
  cases member

end GuestKernel
