import GuestKernel.Errno
import Mathlib.Data.Int.Init

namespace GuestKernel

/-!
# Advisory file locks

`fs/lock.c`: the list of byte-range locks of one inode.  `file_lock_acquire`
goes once over the list; while it does, the request grows by the locks it
merges with, and the locks of other types are cut back.

Offsets are integers.  With `0 ≤ start ≤ end`, as the callers of the range
functions are meant to pass them, no operation below leaves the range of
`off_t`.
-/

/-- `F_RDLCK_`, `F_WRLCK_` and `F_UNLCK_`. -/
inductive LockType where
  | rdlck
  | wrlck
  | unlck
  deriving Repr, DecidableEq

/-- The owner of a lock: a table of file descriptors. -/
abbrev OwnerId := Nat

/-- `struct file_lock`, without its list links. -/
structure FileLock where
  start : Int
  «end» : Int
  type : LockType
  pid : Int
  owner : OwnerId
  deriving Repr, DecidableEq

/-- `file_locks_overlap`. -/
def fileLocksOverlap (a b : FileLock) : Prop :=
  b.start ≤ a.end ∧ a.start ≤ b.end

instance (a b : FileLock) : Decidable (fileLocksOverlap a b) :=
  inferInstanceAs (Decidable (b.start ≤ a.end ∧ a.start ≤ b.end))

/-- `file_locks_conflict`. -/
def fileLocksConflict (a b : FileLock) : Prop :=
  a.owner ≠ b.owner ∧ fileLocksOverlap a b ∧
    -- write locks are incompatible with other types of locks
    (a.type = .wrlck ∨ b.type = .wrlck)

instance (a b : FileLock) : Decidable (fileLocksConflict a b) :=
  inferInstanceAs (Decidable
    (a.owner ≠ b.owner ∧ fileLocksOverlap a b ∧
      (a.type = .wrlck ∨ b.type = .wrlck)))

/-- `file_locks_adjacent`. -/
def fileLocksAdjacent (a b : FileLock) : Prop :=
  a.end = b.start - 1 ∨ b.end = a.start - 1

instance (a b : FileLock) : Decidable (fileLocksAdjacent a b) :=
  inferInstanceAs (Decidable
    (a.end = b.start - 1 ∨ b.end = a.start - 1))

/-- Extend the request until it covers the lock. -/
def FileLock.extend (request lock : FileLock) : FileLock :=
  { request with
    start := if lock.start < request.start then lock.start
      else request.start
    «end» := if request.end < lock.end then lock.end else request.end }

/-- What is left of a lock of another type that overlaps the request. -/
def FileLock.subtract (lock request : FileLock) : List FileLock :=
  if lock.start < request.start ∧ request.end < lock.end then
    -- lock sticks out on both ends, split
    [{ lock with «end» := request.start - 1 },
      { lock with start := request.end + 1 }]
  else if request.start ≤ lock.start ∧ lock.end ≤ request.end then
    []
  else if lock.start < request.start then
    [{ lock with «end» := request.start - 1 }]
  else if request.end < lock.end then
    [{ lock with start := request.end + 1 }]
  else
    [lock]

/-- The list around the place of the new lock, and the grown request. -/
structure LockWalk where
  before : List FileLock
  after : List FileLock
  request : FileLock
  notified : Bool
  deriving Repr, DecidableEq

/-- The walk goes on behind some locks. -/
def LockWalk.behind (locks : List FileLock) (walk : LockWalk) : LockWalk :=
  { walk with before := locks ++ walk.before }

/--
The loop of `file_lock_acquire`; `found` is `found_our_locks`.  A lock that a
split inserts is behind the cursor and is not visited.
-/
def acquireLoop (found : Bool) (request : FileLock) :
    List FileLock → LockWalk
  | [] => {
      before := []
      after := []
      request := request
      notified := false }
  | lock :: rest =>
    if lock.owner ≠ request.owner then
      if found then
        { before := []
          after := lock :: rest
          request := request
          notified := false }
      else
        (acquireLoop false request rest).behind [lock]
    else if request.type = lock.type then
      if ¬ fileLocksOverlap lock request ∧
          ¬ fileLocksAdjacent request lock then
        (acquireLoop true request rest).behind [lock]
      else
        acquireLoop true (request.extend lock) rest
    else if fileLocksOverlap lock request then
      { (acquireLoop true request rest).behind (lock.subtract request) with
        notified := true }
    else
      (acquireLoop true request rest).behind [lock]

/-- The state `file_lock_acquire` leaves, with its result. -/
structure Acquired where
  result : Except Errno Unit
  locks : List FileLock
  request : FileLock
  notified : Bool

/-- `file_lock_acquire`; `notified` tells whether it notified the waiters. -/
def fileLockAcquire
    (locks : List FileLock) (request : FileLock) : Acquired :=
  if request.type ≠ .unlck ∧
      ∃ lock ∈ locks, fileLocksConflict lock request then
    { result := .error .again
      locks := locks
      request := request
      notified := false }
  else
    let walk := acquireLoop false request locks
    { result := .ok ()
      locks :=
        if request.type ≠ .unlck then
          walk.before ++ walk.request :: walk.after
        else
          walk.before ++ walk.after
      request := walk.request
      notified := walk.notified }

/-- `file_lock_remove_owned_by`, called when an owner closes a descriptor. -/
def fileLockRemoveOwnedBy
    (locks : List FileLock) (owner : OwnerId) : List FileLock :=
  locks.filter fun lock => lock.owner ≠ owner

/-- `OFF_T_MAX`. -/
def offTMax : Int := 9223372036854775807

theorem offTMax_eq : offTMax = 9223372036854775807 := rfl

/-- `struct flock_`. -/
structure Flock where
  type : Nat
  whence : Nat
  start : Int
  len : Int
  deriving Repr, DecidableEq

/-- `O_RDONLY_`, `O_WRONLY_` and `O_RDWR_`. -/
inductive AccessMode where
  | readOnly
  | writeOnly
  | readWrite
  deriving Repr, DecidableEq

/--
What a request needs of the open file: its access mode, the answer of its
`lseek` (`none` without one) and the size its `fstat` gives.
-/
structure LockFile where
  mode : AccessMode
  lseek : Option (Except Errno Int)
  fstat : Except Errno Int

/-- The lock type of a number, if it is one. -/
def lockTypeOf : Nat → Option LockType
  | 0 => some .rdlck
  | 1 => some .wrlck
  | 2 => some .unlck
  | _ => none

/-- The offset a request counts from. -/
def flockOffset (file : LockFile) (flock : Flock) : Except Errno Int :=
  match flock.whence with
  | 0 => .ok 0
  | 1 => file.lseek.getD (.ok 0)
  | 2 => file.fstat
  | _ => .error .inval

/-- `file_lock_from_flock`. -/
def fileLockFromFlock
    (file : LockFile)
    (flock : Flock)
    (type : LockType)
    (owner : OwnerId)
    (pid : Int) : Except Errno FileLock := do
  let offset ← flockOffset file flock
  let start := flock.start + offset
  if 0 < flock.len then
    pure {
      start := start
      «end» := start + flock.len - 1
      type := type
      pid := pid
      owner := owner }
  else if flock.len < 0 then
    pure {
      start := start - 1 + flock.len + 1
      «end» := start - 1
      type := type
      pid := pid
      owner := owner }
  else
    pure {
      start := start
      «end» := offTMax
      type := type
      pid := pid
      owner := owner }

/-- The checks of `fcntl_setlk`, and the request it makes. -/
def fcntlSetlkRequest
    (file : LockFile) (flock : Flock) (owner : OwnerId) (pid : Int) :
    Except Errno FileLock :=
  match lockTypeOf flock.type with
  | none => .error .inval
  | some type =>
    if type = .rdlck ∧ file.mode = .writeOnly then
      .error .badf
    else if type = .wrlck ∧ file.mode = .readOnly then
      .error .badf
    else
      fileLockFromFlock file flock type owner pid

end GuestKernel
