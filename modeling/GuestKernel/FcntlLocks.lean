import GuestKernel.FileLockWaiters
import GuestKernel.FlockRanges

namespace GuestKernel
open List

/-!
# The lock commands of `fcntl`

`fs/fd.c`: the two arms of `sys_fcntl` that set a lock, one for each layout of
the argument, and the loop of `fcntl_setlk` that they end in.  Every arm
compares the command with the waiting one of the other arm, so no call waits.
-/

/-- `F_SETLK_`, `F_SETLKW_`, `F_SETLK64_` and `F_SETLKW64_`. -/
inductive SetlkCommand where
  | setlk
  | setlkw
  | setlk64
  | setlkw64
  deriving Repr, DecidableEq

/-- The commands that are to wait for the lock. -/
def SetlkCommand.waits : SetlkCommand → Bool
  | .setlk | .setlk64 => false
  | .setlkw | .setlkw64 => true

/-- `struct flock32_`. -/
structure Flock32 where
  type : Nat
  whence : Nat
  start : BitVec 32
  len : BitVec 32
  deriving Repr, DecidableEq

/-- The assignments from a `struct flock32_`. -/
def Flock32.widen (flock32 : Flock32) : Flock where
  type := flock32.type
  whence := flock32.whence
  start := flock32.start.toNat
  len := flock32.len.toNat

/-- The guest memory at the argument, in both layouts; `none` cannot be read. -/
structure FlockArg where
  short : Option Flock32
  long : Option Flock
  deriving Repr, DecidableEq

/-- How a sleep on `posix_unlock` ends, with the locks found after it. -/
inductive SleepEnd where
  | interrupted
  | woken (locks : List FileLock)
  deriving Repr, DecidableEq

/-- What a call comes to: no result while it sleeps. -/
structure SetlkRun where
  result : Option (Except Errno Unit)
  locks : List FileLock
  sleeps : Nat

/-- The call sleeps once more. -/
def SetlkRun.afterSleep (run : SetlkRun) : SetlkRun :=
  { run with sleeps := run.sleeps + 1 }

/-- The loop of `fcntl_setlk`. -/
def setlkLoop
    (blocking : Bool)
    (ends : List SleepEnd)
    (request : FileLock)
    (locks : List FileLock) : SetlkRun :=
  let acquired := fileLockAcquire locks request
  match acquired.result with
  | .error .again =>
    if !blocking then
      ⟨some (.error .again), acquired.locks, 0⟩
    else
      match ends with
      | [] => ⟨none, acquired.locks, 1⟩
      | .interrupted :: _ => ⟨some (.error .intr), acquired.locks, 1⟩
      | .woken found :: later =>
        (setlkLoop blocking later acquired.request found).afterSleep
  | result => ⟨some result, acquired.locks, 0⟩
  termination_by structural ends

/-- `fcntl_setlk`. -/
def fcntlSetlk
    (file : LockFile)
    (flock : Flock)
    (owner : OwnerId)
    (pid : Int)
    (blocking : Bool)
    (locks : List FileLock)
    (ends : List SleepEnd) : SetlkRun :=
  match fcntlSetlkRequest file flock owner pid with
  | .error err => ⟨some (.error err), locks, 0⟩
  | .ok request => setlkLoop blocking ends request locks

/-- The arms of `sys_fcntl` for the four commands. -/
def sysFcntlSetlk
    (cmd : SetlkCommand)
    (file : Option LockFile)
    (arg : FlockArg)
    (owner : OwnerId)
    (pid : Int)
    (locks : List FileLock)
    (ends : List SleepEnd) : SetlkRun :=
  match file with
  | none => ⟨some (.error .badf), locks, 0⟩
  | some file =>
    match cmd with
    | .setlk | .setlkw =>
      match arg.short with
      | none => ⟨some (.error .fault), locks, 0⟩
      | some flock32 =>
        fcntlSetlk file flock32.widen owner pid (cmd = .setlkw64)
          locks ends
    | .setlk64 | .setlkw64 =>
      match arg.long with
      | none => ⟨some (.error .fault), locks, 0⟩
      | some flock =>
        fcntlSetlk file flock owner pid (cmd = .setlkw) locks ends

/-- The lock that a command asks for, or what is wrong with its arguments. -/
def SetlkCommand.request
    (cmd : SetlkCommand)
    (file : Option LockFile)
    (arg : FlockArg)
    (owner : OwnerId)
    (pid : Int) : Except Errno FileLock :=
  match file with
  | none => .error .badf
  | some file =>
    match cmd with
    | .setlk | .setlkw =>
      match arg.short with
      | none => .error .fault
      | some flock32 => fcntlSetlkRequest file flock32.widen owner pid
    | .setlk64 | .setlkw64 =>
      match arg.long with
      | none => .error .fault
      | some flock => fcntlSetlkRequest file flock owner pid

/-- The owner has the requested lock on the range, or none when it unlocks. -/
def Placed (locks : List FileLock) (request : FileLock) : Prop :=
  if request.type = .unlck then
    ∀ lock ∈ locks, lock.owner = request.owner →
      ¬ fileLocksOverlap lock request
  else
    ∃ lock ∈ locks,
      lock.owner = request.owner ∧ lock.type = request.type ∧
        lock.start ≤ request.start ∧ request.end ≤ lock.end

/--
A waiting command returns with the lock placed, an error in its arguments or
`_EINTR`, and never with `_EAGAIN`; the others return without a sleep.
-/
def SetlkRun.Meets
    (run : SetlkRun)
    (cmd : SetlkCommand)
    (request : Except Errno FileLock) : Prop :=
  if cmd.waits then
    match run.result with
    | none => True
    | some (.ok ()) => ∃ lock, request = .ok lock ∧ Placed run.locks lock
    | some (.error err) =>
      err ≠ .again ∧ (err = .intr ∨ request = .error err)
  else
    run.result.isSome ∧ run.sleeps = 0

/-- A lock of another owner is in the way of the request. -/
def Refused (locks : List FileLock) (request : FileLock) : Prop :=
  request.type ≠ .unlck ∧ Blocked locks request

variable {request : FileLock} {own locks : List FileLock}

/-- The walk over the locks of the requester keeps their owner. -/
theorem acquireLoop_owner
    (isOwn : ∀ lock ∈ own, lock.owner = request.owner) :
    ∀ lock ∈ (acquireLoop true request own).before,
      lock.owner = request.owner := by
  induction own generalizing request with
  | nil =>
    nofun
  | cons first rest inductionHypothesis =>
    have firstOwn := isOwn first mem_cons_self
    have restOwn : ∀ lock ∈ rest, lock.owner = request.owner :=
      fun lock member => isOwn lock (mem_cons_of_mem _ member)
    unfold acquireLoop
    rw [if_neg (not_not.mpr firstOwn)]
    split
    · split
      · intro lock member
        rcases mem_cons.mp member with rfl | inRest
        · exact firstOwn
        · exact inductionHypothesis restOwn lock inRest
      · exact @inductionHypothesis (request.extend first) restOwn
    · split
      · rename_i overlap
        intro lock member
        rcases mem_append.mp member with isPiece | inRest
        · exact (FileLock.subtract_part overlap isPiece).1.owner.trans
            firstOwn
        · exact inductionHypothesis restOwn lock inRest
      · intro lock member
        rcases mem_cons.mp member with rfl | inRest
        · exact firstOwn
        · exact inductionHypothesis restOwn lock inRest

/-- An unlocking walk leaves the requester nothing on the range. -/
theorem acquireLoop_unlocks
    (unlocks : request.type = .unlck)
    (held : AllHeld own)
    (isOwn : ∀ lock ∈ own, lock.owner = request.owner) :
    ∀ lock ∈ (acquireLoop true request own).before,
      ¬ fileLocksOverlap lock request := by
  induction own with
  | nil =>
    nofun
  | cons first rest inductionHypothesis =>
    have firstOwn := isOwn first mem_cons_self
    have later := inductionHypothesis
      (fun lock member => held lock (mem_cons_of_mem _ member))
      (fun lock member => isOwn lock (mem_cons_of_mem _ member))
    have differs : request.type ≠ first.type := fun same =>
      held first mem_cons_self (same.symm.trans unlocks)
    unfold acquireLoop
    rw [if_neg (not_not.mpr firstOwn), if_neg differs]
    split
    · rename_i overlap
      intro lock member
      rcases mem_append.mp member with isPiece | inRest
      · obtain ⟨_, atEnd⟩ := FileLock.subtract_part overlap isPiece
        rintro ⟨above, below⟩
        omega
      · exact later lock inRest
    · rename_i separate
      intro lock member
      rcases mem_cons.mp member with rfl | inRest
      · exact separate
      · exact later lock inRest

theorem Refused.acquire_eq
    (refused : Refused locks request) :
    fileLockAcquire locks request = {
      result := .error .again
      locks := locks
      request := request
      notified := false } :=
  if_pos refused

theorem fileLockAcquire_result_of_granted
    (granted : ¬ Refused locks request) :
    (fileLockAcquire locks request).result = .ok () := by
  have free :
      ¬ (request.type ≠ .unlck ∧
        ∃ lock ∈ locks, fileLocksConflict lock request) :=
    granted
  simp only [fileLockAcquire, if_neg free]

theorem fileLockAcquire_grouped
    {before after : List FileLock}
    (parts : GroupSplit FileLock.owner request.owner before own after)
    (granted : ¬ Refused (before ++ (own ++ after)) request) :
    (fileLockAcquire (before ++ (own ++ after)) request).locks =
      before ++ (newOwn (acquireLoop true request own) ++ after) := by
  have free :
      ¬ (request.type ≠ .unlck ∧
        ∃ lock ∈ before ++ (own ++ after),
          fileLocksConflict lock request) :=
    granted
  simp only [fileLockAcquire, if_neg free, acquireLoop_split parts, newOwn,
    acquireLoop_request.2.1]
  split <;> simp_all

theorem newOwn_acquireLoop_owner
    (isOwn : ∀ lock ∈ own, lock.owner = request.owner) :
    ∀ lock ∈ newOwn (acquireLoop true request own),
      lock.owner = request.owner := by
  intro lock member
  unfold newOwn at member
  split at member
  · exact acquireLoop_owner isOwn lock member
  · rcases mem_append.mp member with inBefore | isNew
    · exact acquireLoop_owner isOwn lock inBefore
    · rw [mem_singleton.mp isNew]
      exact acquireLoop_request.1

/-- The locks of an owner are together, and all of them are held. -/
structure Orderly (locks : List FileLock) : Prop where
  grouped : Grouped FileLock.owner locks
  held : AllHeld locks

theorem Orderly.acquire
    (orderly : Orderly locks)
    (request : FileLock) :
    Orderly (fileLockAcquire locks request).locks := by
  refine ⟨?_, orderly.held.acquire request⟩
  by_cases refused : Refused locks request
  · rw [refused.acquire_eq]
    exact orderly.grouped
  · obtain ⟨before, own, after, rfl, parts⟩ :=
      orderly.grouped.split request.owner
    rw [fileLockAcquire_grouped parts refused]
    exact orderly.grouped.replace parts
      (newOwn_acquireLoop_owner parts.inGroup)

theorem LockState.attempt_locks
    (state : LockState)
    (thread : ThreadId)
    (request : FileLock)
    (blocking : Bool) :
    (state.attempt thread request blocking).locks =
      (fileLockAcquire state.locks request).locks := by
  unfold LockState.attempt
  simp only
  split <;> rfl

/-- Every reachable list is orderly, whatever the ranges of the requests. -/
theorem Orderly.reachable
    {state : LockState}
    (reachable : waitMachine.Reachable state) :
    Orderly state.locks := by
  refine Machine.Reachable.invariant
    (motive := fun state => Orderly state.locks) ?_ ?_ reachable
  · rintro state rfl
    exact ⟨trivial, nofun⟩
  · intro state action next orderly taken
    cases action with
    | setlk thread file flock owner pid blocking =>
      simp only [waitMachine, WaitAction.run] at taken
      split at taken
      · cases taken
      · split at taken
        · cases taken
          exact orderly
        · cases taken
          rw [LockState.attempt_locks]
          exact orderly.acquire _
    | wake thread =>
      obtain ⟨waiter, _, rfl⟩ := Option.map_eq_some_iff.mp taken
      rw [LockState.attempt_locks]
      exact orderly.acquire _
    | interrupt thread =>
      cases taken
      exact orderly
    | close owner =>
      cases taken
      exact {
        grouped := orderly.grouped.filter fun other =>
          decide (other ≠ owner)
        held := fun lock member =>
          orderly.held lock (mem_of_mem_filter member) }

/-- A granted request is placed. -/
theorem Orderly.placed
    (orderly : Orderly locks)
    (granted : ¬ Refused locks request) :
    Placed (fileLockAcquire locks request).locks request := by
  obtain ⟨before, own, after, rfl, parts⟩ :=
    orderly.grouped.split request.owner
  rw [fileLockAcquire_grouped parts granted]
  obtain ⟨sameOwner, sameType, growsDown, growsUp⟩ :=
    @acquireLoop_request true request own
  unfold Placed newOwn
  rw [sameType]
  split
  · rename_i unlocks
    intro lock member isOwn
    rcases mem_append.mp member with inBefore | inRest
    · exact absurd isOwn (parts.notBefore lock inBefore)
    rcases mem_append.mp inRest with inOwn | inAfter
    · refine acquireLoop_unlocks unlocks (fun other isOther => ?_)
        parts.inGroup lock inOwn
      exact orderly.held other
        (mem_append_right _ (mem_append_left _ isOther))
    · exact absurd isOwn (parts.notAfter lock inAfter)
  · refine ⟨(acquireLoop true request own).request, ?_, sameOwner, sameType,
      growsDown, growsUp⟩
    exact mem_append_right _ (mem_append_left _
      (mem_append_right _ (mem_singleton_self _)))

theorem setlkLoop_not_blocking
    (ends : List SleepEnd)
    (request : FileLock)
    (locks : List FileLock) :
    setlkLoop false ends request locks =
      ⟨some (fileLockAcquire locks request).result,
        (fileLockAcquire locks request).locks, 0⟩ := by
  unfold setlkLoop
  rcases fileLockAcquire_cases locks request with
      ⟨_, _, refused⟩ | ⟨granted, _⟩
  · rw [refused]
    rfl
  · simp only [granted]

/-- No command tells the loop to block. -/
theorem sysFcntlSetlk_eq
    (cmd : SetlkCommand)
    (file : Option LockFile)
    (arg : FlockArg)
    (owner : OwnerId)
    (pid : Int)
    (locks : List FileLock)
    (ends : List SleepEnd) :
    sysFcntlSetlk cmd file arg owner pid locks ends =
      match cmd.request file arg owner pid with
      | .error err => ⟨some (.error err), locks, 0⟩
      | .ok request =>
        ⟨some (fileLockAcquire locks request).result,
          (fileLockAcquire locks request).locks, 0⟩ := by
  have call :
      ∀ file flock,
        fcntlSetlk file flock owner pid false locks ends =
          match fcntlSetlkRequest file flock owner pid with
          | .error err => ⟨some (.error err), locks, 0⟩
          | .ok request =>
            ⟨some (fileLockAcquire locks request).result,
              (fileLockAcquire locks request).locks, 0⟩ := by
    intro file flock
    unfold fcntlSetlk
    split
    · rfl
    · exact setlkLoop_not_blocking _ _ _
  cases file with
  | none =>
    rfl
  | some file =>
    cases cmd with
    | setlk | setlkw =>
      cases isRead : arg.short with
      | none =>
        simp only [sysFcntlSetlk, SetlkCommand.request, isRead]
      | some flock32 =>
        simp only [sysFcntlSetlk, SetlkCommand.request, isRead]
        exact call file flock32.widen
    | setlk64 | setlkw64 =>
      cases isRead : arg.long with
      | none =>
        simp only [sysFcntlSetlk, SetlkCommand.request, isRead]
      | some flock =>
        simp only [sysFcntlSetlk, SetlkCommand.request, isRead]
        exact call file flock

/--
On every reachable list, a command does what it is to do exactly when it is not
one of the waiting commands, or its arguments are refused (with something else
than `_EAGAIN`), or no lock of another owner is in its way.
-/
theorem setlk_meets_command_iff
    {state : LockState}
    (cmd : SetlkCommand)
    (file : Option LockFile)
    (arg : FlockArg)
    (owner : OwnerId)
    (pid : Int)
    (ends : List SleepEnd)
    (reachable : waitMachine.Reachable state) :
    (sysFcntlSetlk cmd file arg owner pid state.locks ends).Meets cmd
        (cmd.request file arg owner pid) ↔
      cmd.waits = false ∨
        match cmd.request file arg owner pid with
        | .error err => err ≠ .again
        | .ok request => ¬ Refused state.locks request := by
  have orderly := Orderly.reachable reachable
  rw [sysFcntlSetlk_eq]
  unfold SetlkRun.Meets
  by_cases waits : cmd.waits = true
  · rw [if_pos waits, waits]
    cases asked : cmd.request file arg owner pid with
    | error err =>
      simp
    | ok request =>
      by_cases refused : Refused state.locks request
      · simp [refused.acquire_eq, refused]
      · have placed := orderly.placed refused
        simp [fileLockAcquire_result_of_granted refused, refused, placed]
  · rw [if_neg waits]
    refine iff_of_true ?_ (.inl (Bool.eq_false_iff.mpr waits))
    split <;> exact ⟨rfl, rfl⟩

/-- A lock on the first ten bytes, in the short layout. -/
def tenBytes (type : Nat) : FlockArg where
  short := some ⟨type, 0, 0#32, 10#32⟩
  long := none

/-- An `F_SETLK` does what it is to do where another process holds a lock. -/
theorem setlk_meets_command_on_conflict :
    ∃ state,
      waitMachine.Reachable state ∧
        state.locks = [⟨0, 9, .wrlck, 0, 1⟩] ∧
        (sysFcntlSetlk .setlk (some openFile) (tenBytes 1) 2 0
          state.locks []).Meets .setlk
            (SetlkCommand.setlk.request (some openFile) (tenBytes 1) 2 0) := by
  obtain ⟨state, reachable, waits⟩ := exists_secondWaits
  exact ⟨state, reachable.of_restrict, waits.locks,
    (setlk_meets_command_iff .setlk (some openFile) (tenBytes 1) 2 0 []
      reachable.of_restrict).mpr (.inl rfl)⟩

/-- An `F_SETLKW` that meets the lock of another process returns `_EAGAIN`. -/
theorem setlkw_returns_again_on_conflict :
    ∃ state,
      waitMachine.Reachable state ∧
        (sysFcntlSetlk .setlkw (some openFile) (tenBytes 1) 2 0
          state.locks []).result = some (.error .again) ∧
          ¬ (sysFcntlSetlk .setlkw (some openFile) (tenBytes 1) 2 0
            state.locks []).Meets .setlkw
              (SetlkCommand.setlkw.request (some openFile) (tenBytes 1) 2
                0) := by
  obtain ⟨state, reachable, waits⟩ := exists_secondWaits
  refine ⟨state, reachable.of_restrict, ?_⟩
  rw [waits.locks]
  have again :
      (sysFcntlSetlk .setlkw (some openFile) (tenBytes 1) 2 0
        [⟨0, 9, .wrlck, 0, 1⟩] []).result = some (.error .again) := by
    decide +kernel
  refine ⟨again, fun meets => ?_⟩
  simp only [SetlkRun.Meets, SetlkCommand.waits, if_true, again] at meets
  exact meets.1 rfl

/-- `file_lock_test`. -/
def fileLockTest
    (locks : List FileLock) (request : FileLock) : Option FileLock :=
  locks.find? fun lock => fileLocksConflict lock request

/-- `fcntl_getlk`, with the `pid` of the argument; `none` is an overflow. -/
def fcntlGetlk
    (file : LockFile)
    (flock : Flock)
    (flockPid : Int)
    (owner : OwnerId)
    (pid : Int)
    (locks : List FileLock) : Except Errno (Option (Flock × Int)) :=
  match lockTypeOf flock.type with
  | none | some .unlck => .error .inval
  | some type =>
    (fileLockFromFlock file flock type owner pid).map fun request =>
      match fileLockTest locks request with
      | some lock => (flockFromFileLock lock).map (·, lock.pid)
      | none =>
        some ({ flock with type := LockType.unlck.number }, flockPid)

/-- The bytes that a call is about lie in a file. -/
def FlockInFile (_ : LockState) : WaitAction → Prop
  | .setlk _ file flock _ _ _ =>
    ∀ offset, flockOffset file flock = .ok offset → FlockFits offset flock
  | _ => True

/-- A request whose bytes lie in a file. -/
structure FileLock.InFile (request : FileLock) : Prop where
  nonneg : 0 ≤ request.start
  ordered : request.start ≤ request.end
  bounded : request.end ≤ offTMax

theorem fileLockFromFlock_spec
    {file : LockFile}
    {flock : Flock}
    {type : LockType}
    {owner : OwnerId}
    {pid : Int}
    (made : fileLockFromFlock file flock type owner pid = .ok request) :
    request.type = type ∧
      ((∀ offset,
          flockOffset file flock = .ok offset → FlockFits offset flock) →
        request.InFile) := by
  have isMax := offTMax_eq
  unfold fileLockFromFlock at made
  cases isOffset : flockOffset file flock with
  | error err =>
    rw [isOffset] at made
    cases made
  | ok offset =>
    simp only [isOffset, bind, Except.bind, pure, Except.pure] at made
    split_ifs at made <;> cases made <;>
      refine ⟨rfl, fun fits => ?_⟩ <;>
      have inFile := fits offset rfl <;>
      simp only [FlockFits, *, if_true, if_false] at inFile <;>
      exact ⟨by simp only; omega, by simp only; omega, by simp only; omega⟩

/-- The list is one of `lockMachine`, and ends with the last byte of a file. -/
structure LockState.Ranged (state : LockState) : Prop where
  refines : lockMachine.Reachable state.locks
  bounded : ∀ lock ∈ state.locks, lock.end ≤ offTMax
  waiting :
    ∀ thread waiter,
      state.waiting thread = some waiter → waiter.request.InFile

namespace LockState.Ranged

variable {state : LockState}

theorem attempt
    (ranged : state.Ranged)
    (thread : ThreadId)
    (inFile : request.InFile)
    (blocking : Bool) :
    (state.attempt thread request blocking).Ranged := by
  have taken :
      lockMachine.step state.locks (.acquire request)
        (state.attempt thread request blocking).locks :=
    ⟨inFile.nonneg, inFile.ordered, attempt_locks ..⟩
  have consistent := Consistent.reachable ranged.refines
  have next := consistent.step taken
  by_cases refused : Refused state.locks request
  · simp only [LockState.attempt, refused.acquire_eq] at taken ⊢
    refine ⟨ranged.refines, ranged.bounded, fun sleeper waiter asleep => ?_⟩
    have := ranged.waiting sleeper waiter
    simp only [Function.update_apply] at asleep
    grind
  · refine ⟨ranged.refines.step taken, ?_, fun sleeper waiter asleep => ?_⟩
    · obtain ⟨before, own, after, isSplit, parts⟩ :=
        consistent.grouped.split request.owner
      intro lock member
      have atEnd :
          Holds (state.attempt thread request blocking).locks lock.owner
            lock.end lock.type :=
        ⟨lock, member, rfl, rfl, (next.valid lock member).ordered,
          Int.le_refl _⟩
      have bounded := ranged.bounded
      rw [isSplit] at consistent refused bounded
      -- the last byte was asked for, or held before
      rw [attempt_locks, isSplit, fileLockAcquire_grouped parts refused,
        consistent.holds_replaceOwn parts inFile.ordered] at atEnd
      split at atEnd
      case isTrue asked =>
        exact Int.le_trans asked.2.2 inFile.bounded
      case isFalse =>
        obtain ⟨old, isOld, _, _, _, covers⟩ := atEnd
        exact Int.le_trans covers (bounded old isOld)
    · simp only [LockState.attempt, Function.update_apply,
        fileLockAcquire_result_of_granted refused] at asleep
      split_ifs at asleep
      · obtain ⟨old, isOld, rfl⟩ := Option.map_eq_some_iff.mp asleep
        exact ranged.waiting sleeper old isOld
      · exact ranged.waiting sleeper waiter asleep

theorem reachable
    (reachable : (waitMachine.restrict FlockInFile).Reachable state) :
    state.Ranged := by
  refine reachable.invariant ?_ ?_
  · rintro state rfl
    exact ⟨.initial rfl, nofun, nofun⟩
  · rintro state action next ranged ⟨fits, taken⟩
    cases action with
    | setlk thread file flock owner pid blocking =>
      simp only [waitMachine, WaitAction.run, fcntlSetlkRequest] at taken
      split_ifs at taken
      split at taken
      · cases taken
        exact ranged
      · rename_i made
        cases taken
        split at made
        · cases made
        · split_ifs at made
          exact ranged.attempt thread ((fileLockFromFlock_spec made).2 fits)
            blocking
    | wake thread =>
      obtain ⟨waiter, asleep, rfl⟩ := Option.map_eq_some_iff.mp taken
      exact ranged.attempt thread (ranged.waiting thread waiter asleep) true
    | interrupt thread =>
      cases taken
      refine ⟨ranged.refines, ranged.bounded, fun sleeper waiter asleep => ?_⟩
      have := ranged.waiting sleeper waiter
      simp only [Function.update_apply] at asleep
      grind
    | close owner =>
      cases taken
      exact {
        refines := ranged.refines.step (a := LockAction.removeOwnedBy owner) rfl
        bounded := fun lock member =>
          ranged.bounded lock (mem_of_mem_filter member)
        waiting := ranged.waiting }

end LockState.Ranged

/--
In every interleaving of lock calls, wake-ups and closes whose ranges lie in a
file, the list is one that the operations on it alone can make, no owner holds a
byte on which another one has a write lock, and `F_GETLK` either finds the range
free, when the request is granted, or reports a whole lock that refuses it.
-/
theorem lock_calls_exclude_writers
    {state : LockState}
    (reachable : (waitMachine.restrict FlockInFile).Reachable state) :
    lockMachine.Reachable state.locks ∧
      (∀ owner other x,
        owner ≠ other →
        heldType state.locks owner x = some .wrlck →
        heldType state.locks other x = none) ∧
      ∀ file flock flockPid type owner pid request,
        lockTypeOf flock.type = some type →
        type ≠ .unlck →
        fileLockFromFlock file flock type owner pid = .ok request →
        if (fileLockAcquire state.locks request).result = .ok () then
          fcntlGetlk file flock flockPid owner pid state.locks =
            .ok (some ({ flock with type := 2 }, flockPid))
        else
          ∃ found lock,
            fcntlGetlk file flock flockPid owner pid state.locks =
                .ok (some (found, lock.pid)) ∧
              fileLockFromFlockChecked file found lock.type lock.owner
                  lock.pid = .ok (some lock) ∧
                fileLocksConflict lock request ∧
                  ∀ x, lock.covers x →
                    heldType state.locks lock.owner x = some lock.type := by
  have ranged := LockState.Ranged.reachable reachable
  have consistent := Consistent.reachable ranged.refines
  refine ⟨ranged.refines, ?_, ?_⟩
  · intro owner other x differ writes
    obtain ⟨lock, member, rfl, isWrite, inLock⟩ :=
      consistent.heldType_eq_some.mp writes
    refine Option.eq_none_iff_forall_ne_some.mpr fun type holds => ?_
    obtain ⟨second, isSecond, rfl, _, inSecond⟩ :=
      consistent.heldType_eq_some.mp holds
    exact (consistent.compatible.forall member isSecond
      fun same => differ (congrArg _ same)).noConflict
        ⟨differ, FileLock.overlap_of_covers inLock inSecond, .inl isWrite⟩
  · intro file flock flockPid type owner pid request isType takes made
    have answer :
        fcntlGetlk file flock flockPid owner pid state.locks =
          .ok ((fileLockTest state.locks request).elim
            (some ({ flock with type := 2 }, flockPid))
            fun lock => (flockFromFileLock lock).map (·, lock.pid)) := by
      unfold fcntlGetlk
      rw [isType]
      cases type with
      | unlck => exact absurd rfl takes
      | rdlck | wrlck =>
        simp only [made, Except.map]
        cases fileLockTest state.locks request <;> rfl
    rw [answer]
    unfold fileLockTest
    cases isFound : find? _ state.locks with
    | none =>
      have free : ¬ Refused state.locks request := by
        rintro ⟨_, lock, member, conflict⟩
        exact find?_eq_none.mp isFound lock member (decide_eq_true conflict)
      rw [if_pos (fileLockAcquire_result_of_granted free)]
      rfl
    | some lock =>
      have member := mem_of_find?_eq_some isFound
      have conflict : fileLocksConflict lock request := by
        simpa using find?_some isFound
      have refused : Refused state.locks request :=
        ⟨(fileLockFromFlock_spec made).1 ▸ takes, lock, member, conflict⟩
      obtain ⟨found, isFlock, comesBack⟩ :=
        @checked_of_flockFromFileLock lock lock.owner lock.pid file
          (consistent.valid lock member).nonneg
          (consistent.valid lock member).ordered
          (ranged.bounded lock member)
      rw [refused.acquire_eq, if_neg nofun]
      refine ⟨found, lock, by simp [isFlock], comesBack, conflict, ?_⟩
      exact fun x covers =>
        consistent.heldType_eq_some.mpr ⟨lock, member, rfl, rfl, covers⟩

/-- Where one process writes, another one holds no lock. -/
theorem writer_excludes_second_owner :
    ∃ state,
      waitMachine.Reachable state ∧
        heldType state.locks 1 5 = some .wrlck ∧
          heldType state.locks 2 5 = none := by
  have writes :
      (waitMachine.restrict FlockInFile).Reachable
        (LockState.attempt ⟨[], fun _ => none⟩ 1 ⟨0, 9, .wrlck, 0, 1⟩
          false) := by
    refine .step (a := lockTenBytes 1 1 false) (.initial rfl) ⟨?_, rfl⟩
    intro offset isOffset
    cases isOffset
    unfold FlockFits
    decide
  exact ⟨_, writes.of_restrict, by decide,
    (lock_calls_exclude_writers writes).2.1 1 2 5 (by decide) (by decide)⟩

end GuestKernel
