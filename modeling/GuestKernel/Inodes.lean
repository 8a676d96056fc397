import GuestKernel.FakeFs

namespace GuestKernel

/-!
# Inodes in memory

`fs/inode.c`, with the calls of `fs/generic.c`, `fs/fake.c` and `fs/sock.c` that
get, check and release inodes of one fakefs mount.  The transactions on the
store exclude each other; a task holds `inodes_lock` over several of them.  A
reference is given back once: that `sys_bind` with a failing host and
`sock_close` both release `unix_name_inode` is not modelled.
-/

/-- A reference to an inode: of a descriptor, or of the lookup of a socket. -/
structure InodeRef where
  ino : Nat
  isFd : Bool
  deriving Repr, DecidableEq

/-- Where a task is between two of its steps. -/
inductive InodeTask
  | idle
  /-- `generic_openat` after `fakefs_open`. -/
  | opened (ino : Nat)
  /-- `generic_openat` with `inodes_lock`. -/
  | locked (ino : Nat)
  /-- `generic_openat` after `fstat` found the inode. -/
  | statted (ino : Nat)
  /-- `unix_socket_get` after `stat`. -/
  | looked (ino : Nat)
  /-- `fakefs_unlink` after its transaction. -/
  | unlinked (ino : Nat)
  /-- Before `fs->inode_orphaned`, with `inodes_lock`. -/
  | orphaned (ino : Nat)
  deriving Repr, DecidableEq

/-- The store, the hash table of inodes, and what refers to them. -/
structure InodeWorld where
  db : FakeDb
  inodes : List (Nat × Nat)
  inodesLock : Option Nat
  tasks : Nat → InodeTask
  refs : List InodeRef

namespace InodeWorld

/-- A task goes on. -/
def setTask (world : InodeWorld) (task : Nat) (phase : InodeTask) :
    InodeWorld :=
  { world with
    tasks := fun other => if other = task then phase else world.tasks other }

/-- `inode_get_unlocked`: the refcount of a new inode is 0 before. -/
def inodeGetUnlocked (world : InodeWorld) (ref : InodeRef) : InodeWorld :=
  { world with
    inodes :=
      Rows.put ref.ino
        (incremented ((world.inodes.lookup ref.ino).getD 0)) world.inodes
    refs := ref :: world.refs }

/-- `inode_check_orphaned` up to `fs->inode_orphaned`. -/
def checkOrphaned (world : InodeWorld) (task ino : Nat) : InodeWorld :=
  if world.inodes.lookup ino = none then
    { world with inodesLock := some task }.setTask task (.orphaned ino)
  else
    world.setTask task .idle

/-- `inode_release` up to `fs->inode_orphaned`. -/
def inodeRelease (world : InodeWorld) (task : Nat) (ref : InodeRef) :
    Option InodeWorld := do
  let count ← world.inodes.lookup ref.ino
  let released := { world with refs := world.refs.erase ref }
  if decremented count = 0 then
    pure
      ({ released with
          inodes := Rows.takeOut ref.ino world.inodes
          inodesLock := some task }.setTask task (.orphaned ref.ino))
  else
    pure
      { released with
        inodes := Rows.put ref.ino (decremented count) world.inodes }

end InodeWorld

/--
A step of a task.  The transactions of `create` (`fakefs_mkdir`, `_mknod` and
`_symlink`), `link`, `rename` and `unlink` (also `fakefs_rmdir`) are those whose
call of the host succeeded.
-/
inductive InodeStep
  | opens (task : Nat) (path : PathString) (creat : Bool) (mode : BitVec 32)
      (env : FakeEnv)
  | lock (task : Nat)
  | fstat (task : Nat)
  | openGet (task : Nat)
  | looksUp (task : Nat) (path : PathString)
  | lookGet (task : Nat)
  | create (task : Nat) (path : PathString) (stat : IshStat) (rowid : Nat)
  | link (task : Nat) (src dst : PathString)
  | rename (task : Nat) (src dst : PathString)
  | unlink (task : Nat) (path : PathString)
  | check (task : Nat)
  | cleanUp (task : Nat)
  | release (task : Nat) (ref : InodeRef)

/-- The store gives a new stat a row id that is not in use. -/
def FakeDb.isFreshRowid (db : FakeDb) (rowid : Nat) : Bool :=
  rowid ≠ 0 && (db.stats.lookup rowid).isNone

/-- The transaction of `fakefs_open`. -/
def FakeDb.openRow
    (db : FakeDb)
    (env : FakeEnv)
    (path : PathString)
    (creat : Bool)
    (mode : BitVec 32) : FakeDb :=
  FakeFs.openRow env ⟨⟨[]⟩, db⟩ path creat mode

namespace InodeStep

variable (world : InodeWorld)

/-- What a step does, if the task can take it. -/
def run : InodeStep → Option InodeWorld
  | .opens task path creat mode env =>
    let db := world.db.openRow env path creat mode
    let ino := db.pathGetInode path
    if world.tasks task = .idle ∧ world.db.isFreshRowid env.rowid then
      some
        ({ world with db := db }.setTask task
          (if ino = 0 then .idle else .opened ino))
    else
      none
  | .lock task =>
    match world.tasks task, world.inodesLock with
    | .opened ino, none =>
      some
        ({ world with inodesLock := some task }.setTask task (.locked ino))
    | _, _ => none
  | .fstat task =>
    match world.tasks task with
    | .locked ino =>
      match world.db.inodeReadStatIfExist ino with
      | some _ => some (world.setTask task (.statted ino))
      | none =>
        some ({ world with inodesLock := none }.setTask task .idle)
    | _ => none
  | .openGet task =>
    match world.tasks task with
    | .statted ino =>
      some
        ({ world.inodeGetUnlocked ⟨ino, true⟩ with
            inodesLock := none }.setTask task .idle)
    | _ => none
  | .looksUp task path =>
    if world.tasks task = .idle then
      (world.db.pathReadStat path).map fun (ino, _) =>
        world.setTask task (.looked ino)
    else
      none
  | .lookGet task =>
    match world.tasks task, world.inodesLock with
    | .looked ino, none =>
      some ((world.inodeGetUnlocked ⟨ino, false⟩).setTask task .idle)
    | _, _ => none
  | .create task path stat rowid =>
    if world.tasks task = .idle ∧ world.db.isFreshRowid rowid then
      some { world with db := world.db.pathCreate path stat rowid }
    else
      none
  | .link task src dst =>
    if world.tasks task = .idle then
      (world.db.pathLink src dst).map fun db => { world with db := db }
    else
      none
  | .rename task src dst =>
    if world.tasks task = .idle then
      some { world with db := world.db.pathRename src dst }
    else
      none
  | .unlink task path =>
    if world.tasks task = .idle then
      (world.db.pathUnlink path).map fun (ino, db) =>
        { world with db := db }.setTask task (.unlinked ino)
    else
      none
  | .check task =>
    match world.tasks task, world.inodesLock with
    | .unlinked ino, none => some (world.checkOrphaned task ino)
    | _, _ => none
  | .cleanUp task =>
    match world.tasks task with
    | .orphaned ino =>
      some
        ({ world with
            db := world.db.tryCleanupInode ino
            inodesLock := none }.setTask task .idle)
    | _ => none
  | .release task ref =>
    if world.tasks task = .idle ∧ world.inodesLock = none ∧
        ref ∈ world.refs then
      world.inodeRelease task ref
    else
      none

end InodeStep

/-- Any number of tasks, from a mount without inodes in memory. -/
def inodeMachine : Machine InodeWorld InodeStep where
  initial world :=
    world.inodes = [] ∧ world.inodesLock = none ∧
      (∀ task, world.tasks task = .idle) ∧ world.refs = []
  step world step next := step.run world = some next

/--
What the host grants at one time: a descriptor of an inode has a host descriptor
of its own (`real_fd`), and a lookup of a socket a thread of its own (or it is
the one of the `bind` that made the file).  Both are numbered by an `int`.
-/
def InodeWorld.HostBounded (world : InodeWorld) : Prop :=
  ∀ ino isFd, world.refs.count ⟨ino, isFd⟩ < 2 ^ 31

/-- The machine on a host that numbers its descriptors and threads so. -/
def boundedMachine : Machine InodeWorld InodeStep where
  initial := inodeMachine.initial
  step world step next := inodeMachine.step world step next ∧ next.HostBounded

end GuestKernel
