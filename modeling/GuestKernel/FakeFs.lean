import GuestKernel.FakeDb
import GuestKernel.HostTree

namespace GuestKernel

/-!
# The calls of fakefs

`fs/fake.c`: a host tree with the files, and the store with their metadata.
Every call is one transaction on the store; it is committed unless a call of
the host fails in it.  `none` is `die`.
-/

/-- `S_IFMT`. -/
def sIfmt : BitVec 16 :=
  0o170000#16

/-- `S_IFREG`. -/
def sIfreg : BitVec 16 :=
  0o100000#16

/-- `S_IFLNK`. -/
def sIflnk : BitVec 16 :=
  0o120000#16

/-- `S_IFDIR`. -/
def sIfdir : BitVec 16 :=
  0o040000#16

/-- The macros `S_ISBLK`, `S_ISCHR`, `S_ISSOCK`, `S_ISFIFO` and `S_ISREG`. -/
def hasType (mode type : BitVec 16) : Bool :=
  mode &&& sIfmt = type

/-- `S_ISBLK(mode) || S_ISCHR(mode)`. -/
def isDevice (mode : BitVec 16) : Bool :=
  hasType mode 0o060000#16 || hasType mode 0o020000#16

/-- `real_mode` in `fakefs_mknod`. -/
def realMode (mode : BitVec 16) : BitVec 16 :=
  if isDevice mode || hasType mode 0o140000#16 then
    0o666#16 ||| sIfreg
  else
    0o666#16 ||| (mode &&& sIfmt)

/-- The host directory and the store of one mount. -/
structure FakeFs where
  tree : HostTree
  db : FakeDb
  deriving Repr, DecidableEq

/--
What a call finds around it: the credentials of the caller, the answers of the
host, the inode of a file the host makes, the row id of a stat the store
inserts, and the inodes in memory.
-/
structure FakeEnv where
  euid : Nat
  egid : Nat
  refused : Option Errno
  writeError : Option Errno
  unlinkError : Option Errno
  closeError : Option Errno
  ino : Nat
  rowid : Nat
  loaded : Nat → Bool

namespace FakeFs

variable (env : FakeEnv) (fs : FakeFs)

/-- A `struct ish_stat` of the caller. -/
def callerStat (env : FakeEnv) (mode rdev : BitVec 32) : IshStat :=
  ⟨mode, env.euid, env.egid, rdev⟩

/-- `inode_check_orphaned`, with `fakefs_inode_orphaned`. -/
def inodeCheckOrphaned (env : FakeEnv) (db : FakeDb) (ino : Nat) : FakeDb :=
  if env.loaded ino then db else db.tryCleanupInode ino

/-- `path_get_inode` and `path_create` in the transaction of `fakefs_open`. -/
def openRow (path : PathString) (creat : Bool) (mode : BitVec 32) : FakeDb :=
  if creat && fs.db.pathGetInode path = 0 then
    fs.db.pathCreate path
      (callerStat env (mode ||| sIfreg.setWidth 32) 0#32) env.rowid
  else
    fs.db

/-- `fakefs_open`, with the `fake_inode` of the descriptor. -/
def fakefsOpen (path : PathString) (creat excl : Bool) (mode : BitVec 32) :
    Option (Except Errno Nat × FakeFs) :=
  match fs.tree.openAt (pathNames path) creat excl env.ino env.refused with
  | .error err => some (.error err, fs)
  | .ok tree =>
    let db := fs.openRow env path creat mode
    if db.pathGetInode path = 0 then
      some (.error .noent, ⟨tree, db⟩)
    else
      some (.ok (db.pathGetInode path), ⟨tree, db⟩)

/-- `fakefs_link`. -/
def fakefsLink (src dst : PathString) :
    Option (Except Errno Unit × FakeFs) :=
  match fs.tree.link (pathNames src) (pathNames dst) env.refused with
  | .error err => some (.error err, fs)
  | .ok tree =>
    (fs.db.pathLink src dst).map fun db => (.ok (), ⟨tree, db⟩)

/-- `path_unlink` and `inode_check_orphaned` after the host removed a path. -/
def unlinkRow (path : PathString) (answer : Except Errno HostTree) :
    Option (Except Errno Unit × FakeFs) :=
  match answer with
  | .error err => some (.error err, fs)
  | .ok tree =>
    (fs.db.pathUnlink path).map fun (ino, db) =>
      (.ok (), ⟨tree, inodeCheckOrphaned env db ino⟩)

/-- `fakefs_unlink`. -/
def fakefsUnlink (path : PathString) : Option (Except Errno Unit × FakeFs) :=
  fs.unlinkRow env path (fs.tree.unlink (pathNames path) env.refused)

/-- `fakefs_rmdir`. -/
def fakefsRmdir (path : PathString) : Option (Except Errno Unit × FakeFs) :=
  fs.unlinkRow env path (fs.tree.rmdir (pathNames path) env.refused)

/-- `fakefs_rename`: the store first; the host's error rolls it back. -/
def fakefsRename (src dst : PathString) :
    Option (Except Errno Unit × FakeFs) :=
  match fs.tree.rename (pathNames src) (pathNames dst) env.refused with
  | .error err => some (.error err, fs)
  | .ok tree => some (.ok (), ⟨tree, fs.db.pathRename src dst⟩)

/-- `fakefs_symlink`: a regular file with the target in it. -/
def fakefsSymlink (path : PathString) : Option (Except Errno Unit × FakeFs) :=
  match fs.tree.openAt (pathNames path) true true env.ino env.refused with
  | .error err => some (.error err, fs)
  | .ok tree =>
    match env.writeError with
    | some err =>
      match tree.unlink (pathNames path) env.unlinkError with
      | .error _ => some (.error err, ⟨tree, fs.db⟩)
      | .ok cleaned => some (.error err, ⟨cleaned, fs.db⟩)
    | none =>
      let stat := callerStat env ((sIflnk ||| 0o777#16).setWidth 32) 0#32
      some (.ok (), ⟨tree, fs.db.pathCreate path stat env.rowid⟩)

/-- `realfs_mknod`, with the tree it leaves. -/
def realfsMknod (path : PathString) (mode : BitVec 16) :
    Except Errno Unit × HostTree :=
  if hasType mode 0o010000#16 then
    match fs.tree.make (pathNames path) false env.ino env.refused with
    | .error err => (.error err, fs.tree)
    | .ok tree => (.ok (), tree)
  else if hasType mode sIfreg then
    match fs.tree.openAt (pathNames path) true true env.ino env.refused with
    | .error err => (.error err, fs.tree)
    | .ok tree =>
      match env.closeError with
      | some err => (.error err, tree)
      | none => (.ok (), tree)
  else
    (.error .perm, fs.tree)

/-- `fakefs_mknod`. -/
def fakefsMknod (path : PathString) (mode : BitVec 16) (dev : BitVec 32) :
    Option (Except Errno Unit × FakeFs) :=
  match fs.realfsMknod env path (realMode mode) with
  | (.error err, tree) => some (.error err, ⟨tree, fs.db⟩)
  | (.ok (), tree) =>
    let rdev := if isDevice mode then dev else 0#32
    let stat := callerStat env (mode.setWidth 32) rdev
    some (.ok (), ⟨tree, fs.db.pathCreate path stat env.rowid⟩)

/-- `fakefs_mkdir`. -/
def fakefsMkdir (path : PathString) (mode : BitVec 16) :
    Option (Except Errno Unit × FakeFs) :=
  match fs.tree.make (pathNames path) true env.ino env.refused with
  | .error err => some (.error err, fs)
  | .ok tree =>
    let stat := callerStat env ((mode ||| sIfdir).setWidth 32) 0#32
    some (.ok (), ⟨tree, fs.db.pathCreate path stat env.rowid⟩)

end FakeFs

/-- A call with its arguments. -/
inductive FakeCall
  | openat (path : PathString) (creat excl : Bool) (mode : BitVec 32)
  | link (src dst : PathString)
  | unlink (path : PathString)
  | rmdir (path : PathString)
  | rename (src dst : PathString)
  | symlink (path : PathString)
  | mknod (path : PathString) (mode : BitVec 16) (dev : BitVec 32)
  | mkdir (path : PathString) (mode : BitVec 16)
  deriving Repr, DecidableEq

namespace FakeCall

/-- Run a call. -/
def run (env : FakeEnv) (fs : FakeFs) :
    FakeCall → Option (Except Errno Unit × FakeFs)
  | .openat path creat excl mode =>
    (fs.fakefsOpen env path creat excl mode).map fun (result, next) =>
      (result.map fun _ => (), next)
  | .link src dst => fs.fakefsLink env src dst
  | .unlink path => fs.fakefsUnlink env path
  | .rmdir path => fs.fakefsRmdir env path
  | .rename src dst => fs.fakefsRename env src dst
  | .symlink path => fs.fakefsSymlink env path
  | .mknod path mode dev => fs.fakefsMknod env path mode dev
  | .mkdir path mode => fs.fakefsMkdir env path mode

/-- The paths of a call. -/
def paths : FakeCall → List PathString
  | .openat path _ _ _ | .unlink path | .rmdir path | .symlink path
  | .mknod path _ _ | .mkdir path _ => [path]
  | .link src dst | .rename src dst => [src, dst]

end FakeCall

/-- A path as `path_normalize` returns it. -/
def IsNormalized (path : PathString) : Prop :=
  ∃ place, (∀ name ∈ place, ProperName name) ∧ path = renderPath place

theorem properName_letter
    {byte : UInt8}
    (notSlash : byte ≠ slash)
    (notDot : byte ≠ dot) :
    ProperName [byte] := by
  constructor
  case nonempty => exact List.cons_ne_nil _ _
  case slashFree =>
    exact fun isSlash => notSlash (List.mem_singleton.mp isSlash).symm
  case notDot => exact fun same => notDot (List.cons.inj same).1
  case notDotdot => exact fun same => notDot (List.cons.inj same).1

theorem isNormalized_letter
    {byte : UInt8}
    (notSlash : byte ≠ slash)
    (notDot : byte ≠ dot) :
    IsNormalized [slash, byte] := by
  refine ⟨[[byte]], ?_, rfl⟩
  intro name isName
  rw [List.mem_singleton.mp isName]
  exact properName_letter notSlash notDot

/-- New files and new rows get numbers that are not in use. -/
structure FakeEnv.Fresh (env : FakeEnv) (fs : FakeFs) : Prop where
  ino : ∀ place node, fs.tree.nodeAt place = some node → node.ino ≠ env.ino
  rowid : env.rowid ≠ 0
  row : fs.db.stats.lookup env.rowid = none

end GuestKernel
