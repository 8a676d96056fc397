import GuestKernel.FakeFs

namespace GuestKernel
open Function

/-!
# Opening a file

`fs/generic.c`: `generic_openat`, on fakefs, on a directory of the host, on
tmpfs and on the file systems whose files are fixed.  `none` is an access
outside a table, or a failed assertion.
-/

/-- The flags of `open`. -/
abbrev OpenFlags := BitVec 32

namespace OpenFlags

/-- `O_WRONLY_`. -/
def wronly (flags : OpenFlags) : Bool :=
  flags.getLsbD 0

/-- `O_RDWR_`. -/
def rdwr (flags : OpenFlags) : Bool :=
  flags.getLsbD 1

/-- `O_CREAT_`. -/
def creat (flags : OpenFlags) : Bool :=
  flags.getLsbD 6

/-- `O_EXCL_`. -/
def excl (flags : OpenFlags) : Bool :=
  flags.getLsbD 7

/-- `O_TRUNC_`. -/
def trunc (flags : OpenFlags) : Bool :=
  flags.getLsbD 9

/-- `O_DIRECTORY_`. -/
def directory (flags : OpenFlags) : Bool :=
  flags.getLsbD 16

/-- `flags & (O_RDWR_ | O_WRONLY_)`. -/
def writes (flags : OpenFlags) : Bool :=
  flags.rdwr || flags.wronly

/-- The flags of the path walk of `generic_openat`. -/
def walkFlags (flags : OpenFlags) : Nat :=
  if flags.creat then 5 else 1

/-- `accmode`, as `AC_R` and `AC_W`. -/
def accmode (flags : OpenFlags) : BitVec 3 :=
  if flags.rdwr then 6#3
  else if flags.wronly then 2#3
  else 4#3

end OpenFlags

/-- A directory tree and the contents of its files, by inode. -/
structure FileTree where
  tree : HostTree
  contents : Nat → List UInt8

/--
What an open finds around it: the surroundings of fakefs, the stat of an inode
of the host, whether it cuts a file that is only to be read, and what the
drivers answer.  SQLite counts rows from 1.
-/
structure OpenEnv where
  fake : FakeEnv
  rowid : 0 < fake.rowid
  hostStat : Nat → Except Errno IshStat
  rdonlyTruncates : Bool
  charOpen : BitVec 32 → Option Errno

/-- The caller. -/
def OpenEnv.user (env : OpenEnv) : Credentials :=
  ⟨env.fake.euid, env.fake.egid⟩

/-- `openat` of the host: the inode of the file, and the files after it. -/
def FileTree.hostOpenat
    (env : OpenEnv)
    (files : FileTree)
    (place : List PathString)
    (flags : OpenFlags) : Except Errno (Nat × FileTree) :=
  match files.tree.openAt place flags.creat flags.excl env.fake.ino
      env.fake.refused with
  | .error err => .error err
  | .ok tree =>
    match tree.nodeAt place with
    | none => .error .noent
    | some node =>
      if node.isDir then
        if flags.writes then .error .isdir
        else .ok (node.ino, { files with tree })
      else if
          (files.tree.nodeAt place).isNone ||
            (flags.trunc && (flags.writes || env.rdonlyTruncates)) then
        .ok
          (node.ino, ⟨tree, update files.contents node.ino []⟩)
      else
        .ok (node.ino, { files with tree })

/-- A tmpfs: its files, and their stats. -/
structure TmpFs where
  files : FileTree
  stats : Nat → IshStat

/-- `MAX_NAME`. -/
def maxName : Nat := 256

/-- `tmpfs_lookup` below a directory. -/
def tmpfsLookup (tree : HostTree) (dir : List PathString) :
    List PathString → Except Errno HostNode
  | [] =>
    match tree.nodeAt dir with
    | none => .error .noent
    | some node => .ok node
  | name :: rest =>
    if maxName ≤ name.length then
      .error .nametoolong
    else
      match tree.nodeAt dir with
      | none => .error .noent
      | some node =>
        if !node.isDir then .error .notdir
        else if (tree.nodeAt (dir ++ [name])).isNone then .error .noent
        else tmpfsLookup tree (dir ++ [name]) rest

/-- Where `tmpfs_open` creates a file; the one of an empty path has no name. -/
def createdPlace : List PathString → List PathString
  | [] => [[]]
  | place => place

/-- `tmpfs_open`: the inode of the file, and the files after it. -/
def tmpfsOpen
    (env : OpenEnv)
    (fs : TmpFs)
    (place : List PathString)
    (flags : OpenFlags)
    (mode : BitVec 32) : Except Errno (Nat × TmpFs) :=
  let tree := fs.files.tree
  if flags.creat then
    let place := createdPlace place
    match tmpfsLookup tree [] place.dropLast with
    | .error err => .error err
    | .ok parent =>
      if maxName ≤ (place.getLast?.getD []).length then
        .error .nametoolong
      else if !parent.isDir then
        .error .notdir
      else
        match tree.nodeAt place with
        | some node =>
          if flags.excl then .error .exist else .ok (node.ino, fs)
        | none =>
          match env.fake.refused with
          | some err => .error err
          | none =>
            let ino := env.fake.ino
            .ok (ino, {
              files := {
                tree := ⟨Rows.put place ⟨false, ino⟩ tree.nodes⟩
                contents := update fs.files.contents ino [] }
              stats :=
                update fs.stats ino
                  (FakeFs.callerStat env.fake
                    (sIfreg.setWidth 32 ||| mode) 0#32) })
  else
    match tmpfsLookup tree [] place with
    | .error err => .error err
    | .ok node => .ok (node.ino, fs)

/-- The files of a mount; those of procfs and devpts are not made by opens. -/
inductive OpenFs where
  | fakefs (files : FileTree) (db : FakeDb)
  | realfs (files : FileTree)
  | tmpfs (fs : TmpFs)
  | fixed (stat : PathString → Except Errno IshStat)

/-- What a file system keeps in a descriptor. -/
inductive OpenHandle where
  | fake (ino fakeInode : Nat)
  | real (ino : Nat)
  | tmp (ino : Nat)
  | fixed (path : PathString)
  deriving DecidableEq

/-- `fakefs_open`. -/
def fakefsOpenat
    (env : OpenEnv)
    (files : FileTree)
    (db : FakeDb)
    (path : PathString)
    (flags : OpenFlags)
    (mode : BitVec 32) : Except Errno OpenHandle × OpenFs :=
  match files.hostOpenat env (pathNames path) flags with
  | .error err => (.error err, .fakefs files db)
  | .ok (ino, files) =>
    let db := FakeFs.openRow env.fake ⟨files.tree, db⟩ path flags.creat mode
    if db.pathGetInode path = 0 then
      -- metadata for this file is missing
      (.error .noent, .fakefs files db)
    else
      (.ok (.fake ino (db.pathGetInode path)), .fakefs files db)

/-- `mount->fs->open`. -/
def OpenFs.open
    (env : OpenEnv)
    (fs : OpenFs)
    (path : PathString)
    (flags : OpenFlags)
    (mode : BitVec 32) : Except Errno OpenHandle × OpenFs :=
  match fs with
  | .fakefs files db => fakefsOpenat env files db path flags mode
  | .realfs files =>
    match files.hostOpenat env (pathNames path) flags with
    | .error err => (.error err, fs)
    | .ok (ino, files) => (.ok (.real ino), .realfs files)
  | .tmpfs tmp =>
    match tmpfsOpen env tmp (pathNames path) flags mode with
    | .error err => (.error err, fs)
    | .ok (ino, tmp) => (.ok (.tmp ino), .tmpfs tmp)
  | .fixed stat =>
    match stat path with
    | .error err => (.error err, fs)
    | .ok _ => (.ok (.fixed path), fs)

/-- `fd->mount->fs->fstat`. -/
def OpenFs.fstat (env : OpenEnv) :
    OpenFs → OpenHandle → Except Errno IshStat
  | .fakefs _ db, .fake ino fakeInode =>
    match env.hostStat ino with
    | .error err => .error err
    | .ok _ =>
      match db.inodeReadStatIfExist fakeInode with
      | none => .error .noent
      | some stat => .ok stat
  | .realfs _, .real ino => env.hostStat ino
  | .tmpfs tmp, .tmp ino => .ok (tmp.stats ino)
  | .fixed stat, .fixed path => stat path
  | _, _ => .error .badf

/-- `fd_close`: an inode that no one else has loaded may be an orphan. -/
def OpenFs.close (env : OpenEnv) : OpenFs → OpenHandle → OpenFs
  | .fakefs files db, .fake _ fakeInode =>
    .fakefs files (FakeFs.inodeCheckOrphaned env.fake db fakeInode)
  | fs, _ => fs

/-- The table `char_devs`. -/
def charMajors : List Nat :=
  [1, 4, 5, 128, 136, 240]

/-- `dev_open`; the tables have 256 rows, and that of block devices is empty. -/
def devOpen (env : OpenEnv) (block : Bool) (rdev : BitVec 32) :
    Option (Except Errno Unit) :=
  let major := ((rdev &&& 0xfff00#32) >>> 8).toNat
  if 256 ≤ major then
    none
  else if block || !charMajors.contains major then
    some (.error .nxio)
  else
    match env.charOpen rdev with
    | some err => some (.error err)
    | none => some (.ok ())

/-- `fd->type` is this one. -/
def IshStat.hasType (stat : IshStat) (type : BitVec 16) : Bool :=
  GuestKernel.hasType (stat.mode.setWidth 16) type

/-- `access_check`. -/
def IshStat.accessCheck (user : Credentials) (stat : IshStat) (check : Nat) :
    Except Errno Unit :=
  GuestKernel.accessCheck user ⟨stat.mode.toNat, stat.uid, stat.gid⟩ check

/-- The opening of a device, or of any other file, which is there already. -/
def openDevice (env : OpenEnv) (stat : IshStat) : Option (Except Errno Unit) :=
  if stat.hasType 0o060000#16 || stat.hasType 0o020000#16 then
    devOpen env (stat.hasType 0o060000#16) stat.rdev
  else
    some (.ok ())

/-- The checks of `generic_openat` on the file it has opened. -/
def openChecks (env : OpenEnv) (flags : OpenFlags) (stat : IshStat) :
    Option (Except Errno Unit) :=
  match stat.accessCheck env.user flags.accmode.toNat with
  | .error err => some (.error err)
  | .ok () =>
    if stat.hasType sIflnk then
      -- path_normalize didn't do its job
      none
    else
      match openDevice env stat with
      | none => none
      | some (.error err) => some (.error err)
      | some (.ok ()) =>
        if stat.hasType 0o140000#16 then
          some (.error .nxio)
        else if stat.hasType sIfdir && flags.writes then
          some (.error .isdir)
        else if !stat.hasType sIfdir && flags.directory then
          some (.error .notdir)
        else
          some (.ok ())

/-- A descriptor. -/
structure OpenFd where
  point : PathString
  handle : OpenHandle
  type : BitVec 16
  flags : OpenFlags

/-- The end of `generic_openat`, on the file system of the path. -/
def OpenFs.openChecked
    (env : OpenEnv)
    (fs : OpenFs)
    (point path : PathString)
    (flags : OpenFlags)
    (mode : BitVec 32) : Option (Except Errno OpenFd × OpenFs) :=
  match fs.open env path flags mode with
  | (.error err, fs) => some (.error err, fs)
  | (.ok handle, fs) =>
    match fs.fstat env handle with
    | .error err => some (.error err, fs)
    | .ok stat =>
      match openChecks env flags stat with
      | none => none
      | some (.error err) => some (.error err, fs.close env handle)
      | some (.ok ()) =>
        some
          (.ok ⟨point, handle, stat.mode.setWidth 16 &&& sIfmt, flags⟩,
            fs)

/-- The mounts, and the files of each. -/
structure OpenWorld where
  mounts : Mounts
  files : PathString → OpenFs

/-- `generic_openat`, from the path of the directory. -/
def genericOpenat
    (env : OpenEnv)
    (world : OpenWorld)
    (base : Option PathString)
    (pathRaw : PathString)
    (flags : OpenFlags)
    (mode : BitVec 32) : Option (Except Errno OpenFd × OpenWorld) :=
  if flags.rdwr && flags.wronly then
    some (.error .inval, world)
  else
    match pathNormalizeAt env.user world.mounts base pathRaw flags.walkFlags 0
        with
    | none => none
    | some (.error err) => some (.error err, world)
    | some (.ok path) =>
      match world.mounts.find path with
      | none => none
      | some mount =>
        ((world.files mount.point).openChecked env mount.point
          (path.drop mount.point.length) flags mode).map fun answer =>
          (answer.1,
            { world with
              files :=
                update world.files mount.point answer.2 })

end GuestKernel
