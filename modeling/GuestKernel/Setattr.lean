import GuestKernel.FakeFs

namespace GuestKernel
open Function

/-!
# Attributes of files

`realfs_setattr`, `fakefs_setattr` and `devpts_setattr`, each with its form for
a descriptor, on the files that a request finds.
-/

/-- `struct attr`. -/
inductive Attr
  | uid (owner : BitVec 32)
  | gid (group : BitVec 32)
  | mode (mode : BitVec 16)
  | size (size : Int)
  deriving Repr, DecidableEq

/-- `attr.type == attr_size`. -/
def Attr.isSize : Attr → Bool
  | .size _ => true
  | _ => false

/-- What `stat` and `read` tell of a file. -/
structure FileView where
  uid : Nat
  gid : Nat
  mode : BitVec 32
  data : List UInt8
  deriving Repr, DecidableEq

/-- `S_IFMT`, for a stored mode. -/
def typeBits : BitVec 32 :=
  sIfmt.setWidth 32

/-- The type of one mode with the permissions of another. -/
def retyped (mode perms : BitVec 32) : BitVec 32 :=
  (mode &&& typeBits) ||| (perms &&& ~~~typeBits)

/-- A file cut, or filled up with zeros, to a size. -/
def resize (size : Int) (data : List UInt8) : List UInt8 :=
  data.take size.toNat ++ List.replicate (size.toNat - data.length) 0

/-- The file with one attribute as requested. -/
def FileView.set (file : FileView) : Attr → FileView
  | .uid owner => { file with uid := owner.toNat }
  | .gid group => { file with gid := group.toNat }
  | .mode mode => { file with mode := retyped file.mode (mode.setWidth 32) }
  | .size size => { file with data := resize size file.data }

/-- A file of the host. -/
structure HostFile where
  uid : BitVec 32
  gid : BitVec 32
  mode : BitVec 32
  data : List UInt8
  deriving Repr, DecidableEq

/-- `realfs_stat` of a host file, and its contents. -/
def HostFile.view (file : HostFile) : FileView :=
  ⟨file.uid.toNat, file.gid.toNat, file.mode, file.data⟩

/--
How the host answers: the errors of `openat` and of the call itself, and the
bits that the call clears besides; only set-id bits are cleared so.
-/
structure AttrHost where
  openError : Option Errno
  refused : Option Errno
  clears : BitVec 32

/-- `S_ISUID | S_ISGID`, where the call clears them. -/
def AttrHost.cleared (host : AttrHost) : BitVec 32 :=
  host.clears &&& 0o6000#32

/-- A host call that changes a file. -/
def AttrHost.done (host : AttrHost) (file : HostFile) :
    Except Errno HostFile :=
  match host.refused with
  | some err => .error err
  | none => .ok { file with mode := file.mode &&& ~~~host.cleared }

/-- `(uid_t) -1`, an id that `fchown` leaves. -/
def noId : BitVec 32 :=
  0xffffffff#32

/-- An argument of `fchown` for the id that a file has. -/
def pickId (id old : BitVec 32) : BitVec 32 :=
  if id = noId then old else id

/-- `fchown` and `fchownat` of the host. -/
def fchown (host : AttrHost) (owner group : BitVec 32) (file : HostFile) :
    Except Errno HostFile :=
  host.done { file with
    uid := pickId owner file.uid, gid := pickId group file.gid }

/-- `fchmod` and `fchmodat` of the host. -/
def fchmod (host : AttrHost) (mode : BitVec 16) (file : HostFile) :
    Except Errno HostFile :=
  host.done { file with mode := retyped file.mode (mode.setWidth 32) }

/-- `ftruncate` of the host. -/
def ftruncate (host : AttrHost) (size : Int) (file : HostFile) :
    Except Errno HostFile :=
  if size < 0 then
    .error .inval
  else
    host.done { file with data := resize size file.data }

/--
The host files of a mount.  `follow` resolves a path as the host does;
`entry` is the same but for a symbolic link in the last place, which it gives.
-/
structure RealFs where
  entry : PathString → Option Nat
  follow : PathString → Option Nat
  files : Nat → HostFile

namespace RealFs

variable (host : AttrHost) (fs : RealFs)

/-- A call on the file of a descriptor. -/
def onFd (ino : Nat) (call : HostFile → Except Errno HostFile) :
    Except Errno RealFs :=
  (call (fs.files ino)).map fun file =>
    { fs with files := update fs.files ino file }

/-- A call on a path, with the flags 0. -/
def onPath (path : PathString) (call : HostFile → Except Errno HostFile) :
    Except Errno RealFs :=
  match fs.follow path with
  | none => .error .noent
  | some ino => fs.onFd ino call

/-- `realfs_truncate`. -/
def realfsTruncate (path : PathString) (size : Int) : Except Errno RealFs :=
  match host.openError with
  | some err => .error err
  | none => fs.onPath path (ftruncate host size)

/-- `realfs_setattr`; the arm of the group passes it as an owner. -/
def realfsSetattr (path : PathString) : Attr → Except Errno RealFs
  | .uid owner => fs.onPath path (fchown host owner noId)
  | .gid group => fs.onPath path (fchown host group noId)
  | .mode mode => fs.onPath path (fchmod host mode)
  | .size size => fs.realfsTruncate host path size

/-- `realfs_fsetattr`. -/
def realfsFsetattr (ino : Nat) : Attr → Except Errno RealFs
  | .uid owner => fs.onFd ino (fchown host owner noId)
  | .gid group => fs.onFd ino (fchown host group noId)
  | .mode mode => fs.onFd ino (fchmod host mode)
  | .size size => fs.onFd ino (ftruncate host size)

end RealFs

/-- `inode_write_stat`. -/
def FakeDb.inodeWriteStat (db : FakeDb) (inode : Nat) (stat : IshStat) :
    FakeDb :=
  if (db.stats.lookup inode).isSome then
    { db with stats := Rows.put inode stat db.stats }
  else
    db

/-- `fake_stat_setattr`; a size dies there. -/
def fakeStatSetattr (stat : IshStat) : Attr → Option IshStat
  | .uid owner => some { stat with uid := owner.toNat }
  | .gid group => some { stat with gid := group.toNat }
  | .mode mode =>
    some { stat with mode := retyped stat.mode (mode.setWidth 32) }
  | .size _ => none

/-- The host files and the store of a mount. -/
structure FakeMount where
  real : RealFs
  db : FakeDb

namespace FakeMount

variable (host : AttrHost) (fs : FakeMount)

/-- The row that a request writes. -/
def writeRow (inode : Nat) (stat : IshStat) (attr : Attr) :
    Option (Except Errno FakeMount) :=
  (fakeStatSetattr stat attr).map fun stat =>
    .ok { fs with db := fs.db.inodeWriteStat inode stat }

/-- `fakefs_setattr`. -/
def fakefsSetattr (path : PathString) (attr : Attr) :
    Option (Except Errno FakeMount) :=
  if attr.isSize then
    some ((fs.real.realfsSetattr host path attr).map fun real =>
      { fs with real := real })
  else
    match fs.db.pathReadStat path with
    | none => some (.error .noent)
    | some (inode, stat) => fs.writeRow inode stat attr

/-- `fakefs_fsetattr`, with `real_fd` and `fake_inode` of the descriptor. -/
def fakefsFsetattr (ino inode : Nat) (attr : Attr) :
    Option (Except Errno FakeMount) :=
  if attr.isSize then
    some ((fs.real.realfsFsetattr host ino attr).map fun real =>
      { fs with real := real })
  else
    (fs.db.inodeReadStatIfExist inode).bind fun stat =>
      fs.writeRow inode stat attr

end FakeMount

/-- `fakefs_stat` of a host file with its row. -/
def fakeView (file : HostFile) (stat : IshStat) : FileView :=
  ⟨stat.uid, stat.gid, stat.mode, file.data⟩

/-- The attributes of a terminal. -/
structure PtyAttrs where
  perms : BitVec 16
  uid : BitVec 32
  gid : BitVec 32
  deriving Repr, DecidableEq

/-- `S_IFCHR`. -/
def sIfchr : BitVec 32 :=
  0o020000#32

/-- `devpts_stat_num` of a terminal. -/
def PtyAttrs.view (pty : PtyAttrs) : FileView :=
  ⟨pty.uid.toNat, pty.gid.toNat, sIfchr ||| pty.perms.setWidth 32, []⟩

/-- `devpts_stat_num` of the root. -/
def ptsRoot : FileView :=
  ⟨0, 0, 0o040755#32, []⟩

/-- The terminals of `pty_slave`. -/
abbrev Ptys := Nat → Option PtyAttrs

namespace Ptys

variable (ptys : Ptys)

/-- `devpts_pty_exists`, with `MAX_PTYS`. -/
def devptsPtyExists (num : Nat) : Bool :=
  num ≤ 4096 && (ptys num).isSome

/-- `devpts_get_pty_num`; `some none` is the root. -/
def devptsGetPtyNum : PathString → Option (Option Nat)
  | [] => some none
  | first :: name =>
    if first ≠ slash ∨ name = [] ∨ ¬name.all (fun byte => 48 ≤ byte ∧ byte ≤ 57)
    then
      none
    else
      let num := name.foldl (fun num byte => num * 10 + (byte.toNat - 48)) 0
      if ptys.devptsPtyExists num then some (some num) else none

/-- The store of `devpts_setattr_num`. -/
def stored (pty : PtyAttrs) : Attr → PtyAttrs
  | .uid owner => { pty with uid := owner }
  | .gid group => { pty with gid := group }
  | .mode mode => { pty with perms := mode }
  | .size _ => pty

/-- `devpts_setattr_num`; the assertion is `none`. -/
def devptsSetattrNum (num : Option Nat) (attr : Attr) :
    Option (Except Errno Ptys) :=
  match num with
  | none => some (.error (.host 30))
  | some num =>
    if attr.isSize then
      some (.error .inval)
    else
      (ptys num).map fun pty =>
        .ok (update ptys num (some (stored pty attr)))

/-- `devpts_fsetattr`, which drops the answer. -/
def devptsFsetattr (num : Option Nat) (attr : Attr) :
    Option (Except Errno Ptys) :=
  (ptys.devptsSetattrNum num attr).map fun answer =>
    .ok (answer.toOption.getD ptys)

/-- `devpts_setattr`. -/
def devptsSetattr (path : PathString) (attr : Attr) :
    Option (Except Errno Ptys) :=
  match ptys.devptsGetPtyNum path with
  | none => some (.error .noent)
  | some num => ptys.devptsFsetattr num attr

/-- `devpts_stat_num`. -/
def view : Option Nat → Option FileView
  | none => some ptsRoot
  | some num => (ptys num).map PtyAttrs.view

end Ptys

/-- A file, by path or by descriptor, on one of the backends. -/
inductive AttrTarget
  | realPath (path : PathString)
  | realFd (ino : Nat)
  | fakePath (path : PathString)
  | fakeFd (ino inode : Nat)
  | ptsPath (path : PathString)
  | ptsFd (num : Option Nat)

/-- The three mounts. -/
structure AttrWorld where
  real : RealFs
  fake : FakeMount
  ptys : Ptys

namespace AttrWorld

/-- A `setattr` or `fsetattr`. -/
def setattr (host : AttrHost) (w : AttrWorld) (attr : Attr) :
    AttrTarget → Option (Except Errno AttrWorld)
  | .realPath path =>
    some ((w.real.realfsSetattr host path attr).map ({ w with real := · }))
  | .realFd ino =>
    some ((w.real.realfsFsetattr host ino attr).map ({ w with real := · }))
  | .fakePath path =>
    (w.fake.fakefsSetattr host path attr).map
      (Except.map ({ w with fake := · }))
  | .fakeFd ino inode =>
    (w.fake.fakefsFsetattr host ino inode attr).map
      (Except.map ({ w with fake := · }))
  | .ptsPath path =>
    (w.ptys.devptsSetattr path attr).map (Except.map ({ w with ptys := · }))
  | .ptsFd num =>
    (w.ptys.devptsFsetattr num attr).map (Except.map ({ w with ptys := · }))

/-- The file as `stat` and `read` find it. -/
def file (w : AttrWorld) : AttrTarget → Option FileView
  | .realPath path => (w.real.entry path).map fun ino => (w.real.files ino).view
  | .realFd ino => some (w.real.files ino).view
  | .fakePath path =>
    (w.fake.real.entry path).bind fun ino =>
      (w.fake.db.pathReadStat path).map fun row =>
        fakeView (w.fake.real.files ino) row.2
  | .fakeFd ino inode =>
    (w.fake.db.inodeReadStatIfExist inode).map
      (fakeView (w.fake.real.files ino))
  | .ptsPath path => (w.ptys.devptsGetPtyNum path).bind w.ptys.view
  | .ptsFd num => w.ptys.view num

end AttrWorld

/-- A request on a host file: no clearing, no id in the other's place. -/
def HostFile.Heeds (host : AttrHost) (file : HostFile) : Attr → Prop
  | .uid owner =>
    file.mode &&& host.cleared = 0#32 ∧ (owner = noId → file.uid = noId)
  | .gid group =>
    file.mode &&& host.cleared = 0#32 ∧ (group = noId ∨ file.uid = group) ∧
      file.gid = group
  | .mode mode => retyped file.mode (mode.setWidth 32) &&& host.cleared = 0#32
  | .size _ => file.mode &&& host.cleared = 0#32

/-- A request on a terminal: no type in a mode, no size. -/
def PtyAttrs.Heeds (pty : PtyAttrs) : Attr → Prop
  | .mode mode =>
    (sIfchr ||| mode.setWidth 32) &&& typeBits =
      (sIfchr ||| pty.perms.setWidth 32) &&& typeBits
  | .size size => size ≤ 0
  | _ => True

/-- A request on a file of devpts; one on the root has nothing to change. -/
def Ptys.Heeds (ptys : Ptys) (attr : Attr) : Option Nat → Prop
  | none => ptsRoot.set attr = ptsRoot
  | some num => ∀ pty, ptys num = some pty → pty.Heeds attr

/--
The condition on a request.  A path whose last place is a symbolic link reaches
another file, and then there is nothing to change in the link.
-/
def AttrWorld.Heeds (host : AttrHost) (w : AttrWorld) (attr : Attr) :
    AttrTarget → Prop
  | .realPath path => ∀ ino, w.real.entry path = some ino →
    if w.real.follow path = some ino then (w.real.files ino).Heeds host attr
    else (w.real.files ino).view.set attr = (w.real.files ino).view
  | .realFd ino => (w.real.files ino).Heeds host attr
  | .fakePath path => ∀ ino row size, attr = .size size →
    w.fake.real.entry path = some ino → w.fake.db.pathReadStat path = some row →
    w.fake.real.follow path ≠ some ino →
    resize size (w.fake.real.files ino).data = (w.fake.real.files ino).data
  | .fakeFd _ _ => True
  | .ptsPath path =>
    ∀ num, w.ptys.devptsGetPtyNum path = some num → w.ptys.Heeds attr num
  | .ptsFd num => w.ptys.Heeds attr num

variable {host : AttrHost} {attr : Attr} {mode cleared : BitVec 32}
  {file after : HostFile}

/-- Clearing bits changes nothing that is clear. -/
theorem unchanged_iff :
    mode &&& ~~~cleared = mode ↔ mode &&& cleared = 0#32 := by
  constructor
  · intro same
    rw [← same, BitVec.and_assoc, BitVec.and_comm (~~~cleared),
      BitVec.and_not_self]
    exact BitVec.and_zero
  · intro none
    refine BitVec.eq_of_getLsbD_eq fun bit isBit => ?_
    have noBit := congrArg (BitVec.getLsbD · bit) none
    simp only [BitVec.getLsbD_and, BitVec.getLsbD_not, BitVec.getLsbD_zero,
      isBit, decide_true, Bool.true_and] at noBit ⊢
    cases isMode : mode.getLsbD bit with
    | false => rfl
    | true =>
      rw [isMode, Bool.true_and] at noBit
      rw [noBit, Bool.not_false, Bool.and_self]

/-- An id that is set is the one given, unless it is -1. -/
theorem pickId_iff
    {id old : BitVec 32} :
    pickId id old = id ↔ (id = noId → old = noId) := by
  unfold pickId
  split
  case isTrue isNone =>
    exact ⟨fun same _ => same.trans isNone,
      fun kept => (kept isNone).trans isNone.symm⟩
  case isFalse isSome =>
    exact ⟨fun _ isNone => (isSome isNone).elim, fun _ => rfl⟩

/-- What an answer of the host gives. -/
theorem done_view_iff
    {asked : HostFile}
    {view : FileView}
    (accepted : host.done asked = .ok after)
    (sameMode : asked.mode = view.mode) :
    after.view = view ↔
      asked.mode &&& host.cleared = 0#32 ∧ asked.view = view := by
  unfold AttrHost.done at accepted
  split at accepted
  · cases accepted
  · obtain rfl := Except.ok.inj accepted
    rw [← unchanged_iff]
    constructor
    · rintro rfl
      exact ⟨sameMode.symm, congrArg (FileView.mk _ _ · _) sameMode⟩
    · rintro ⟨kept, rfl⟩
      exact congrArg (FileView.mk _ _ · _) kept

/-- The call of `realfs_setattr` and `realfs_fsetattr` on a file. -/
def hostCall (host : AttrHost) : Attr → HostFile → Except Errno HostFile
  | .uid owner => fchown host owner noId
  | .gid group => fchown host group noId
  | .mode mode => fchmod host mode
  | .size size => ftruncate host size

/-- The host does what it is asked for exactly where it heeds it. -/
theorem hostCall_view_iff
    (accepted : hostCall host attr file = .ok after) :
    after.view = file.view.set attr ↔ file.Heeds host attr := by
  cases attr with
  | uid owner =>
    rw [done_view_iff accepted rfl, HostFile.Heeds, ← pickId_iff]
    simp [HostFile.view, FileView.set, pickId, BitVec.toNat_inj]
  | gid group =>
    rw [done_view_iff accepted rfl, HostFile.Heeds]
    simp only [HostFile.view, FileView.set, FileView.mk.injEq,
      BitVec.toNat_inj, pickId, and_true, if_true]
    by_cases isNone : group = noId <;> simp [isNone, eq_comm]
  | mode mode =>
    rw [done_view_iff accepted rfl, HostFile.Heeds]
    simp [HostFile.view, FileView.set]
  | size size =>
    rw [hostCall, ftruncate] at accepted
    split at accepted
    · cases accepted
    · rw [done_view_iff accepted rfl, HostFile.Heeds]
      simp [HostFile.view, FileView.set]

namespace RealFs

variable {fs real : RealFs} {ino : Nat} {path : PathString}

/-- A call that succeeds changes its file alone. -/
theorem onFd_ok
    {call : HostFile → Except Errno HostFile}
    (accepted : fs.onFd ino call = .ok real) :
    ∃ after,
      call (fs.files ino) = .ok after ∧
      real = { fs with files := update fs.files ino after } := by
  unfold onFd at accepted
  cases answer : call (fs.files ino) with
  | error err =>
    rw [answer] at accepted
    cases accepted
  | ok after =>
    rw [answer] at accepted
    exact ⟨after, rfl, (Except.ok.inj accepted).symm⟩

theorem realfsFsetattr_eq :
    fs.realfsFsetattr host ino attr = fs.onFd ino (hostCall host attr) := by
  cases attr <;> rfl

/-- A call by path is one on the inode that it ends at. -/
theorem realfsSetattr_ok
    (accepted : fs.realfsSetattr host path attr = .ok real) :
    ∃ ino,
      fs.follow path = some ino ∧
      fs.onFd ino (hostCall host attr) = .ok real := by
  have onPath : fs.onPath path (hostCall host attr) = .ok real := by
    cases attr with
    | size size =>
      simp only [realfsSetattr, realfsTruncate] at accepted
      split at accepted
      · cases accepted
      · exact accepted
    | _ => exact accepted
  unfold RealFs.onPath at onPath
  split at onPath
  · cases onPath
  case h_2 ino isFile =>
    exact ⟨ino, isFile, onPath⟩

end RealFs

/-- The row takes what is set. -/
theorem fakeStatSetattr_view
    {stat new : IshStat}
    (isStat : fakeStatSetattr stat attr = some new) :
    fakeView file new = (fakeView file stat).set attr := by
  cases attr <;> cases isStat <;> rfl

/-- A size is all that a truncation sets. -/
theorem hostCall_size
    {size : Int}
    (stat : IshStat)
    (accepted : hostCall host (.size size) file = .ok after) :
    fakeView after stat = (fakeView file stat).set (.size size) := by
  rw [hostCall, ftruncate, AttrHost.done] at accepted
  split at accepted
  · cases accepted
  · split at accepted
    · cases accepted
    · cases accepted
      rfl

theorem FakeDb.inodeWriteStat_lookup
    {db : FakeDb}
    {inode : Nat}
    {old : IshStat}
    (isRow : db.stats.lookup inode = some old)
    (stat : IshStat) :
    (db.inodeWriteStat inode stat).stats.lookup inode = some stat ∧
      (db.inodeWriteStat inode stat).paths = db.paths := by
  rw [inodeWriteStat, isRow, Option.isSome_some, if_pos rfl]
  exact ⟨Rows.lookup_put_self .., rfl⟩

/-- A terminal takes what it stores. -/
theorem pty_set_iff
    {pty : PtyAttrs} :
    (Ptys.stored pty attr).view = pty.view.set attr ↔ pty.Heeds attr := by
  cases attr with
  | uid | gid => exact iff_of_true rfl trivial
  | mode mode =>
    have isType : sIfchr &&& typeBits = sIfchr := by
      decide
    simp only [Ptys.stored, PtyAttrs.view, FileView.set, PtyAttrs.Heeds,
      FileView.mk.injEq, true_and, and_true]
    rw [BitVec.eq_of_getLsbD_eq_iff, BitVec.eq_of_getLsbD_eq_iff]
    refine forall₂_congr fun bit isBit => ?_
    have typeBit := congrArg (BitVec.getLsbD · bit) isType
    simp only [retyped, BitVec.getLsbD_and, BitVec.getLsbD_or,
      BitVec.getLsbD_not, isBit] at typeBit ⊢
    cases isBitOfType : typeBits.getLsbD bit with
    | false =>
      rw [isBitOfType, Bool.and_false] at typeBit
      simp [← typeBit]
    | true => simp
  | size size =>
    simp [Ptys.stored, PtyAttrs.view, FileView.set, PtyAttrs.Heeds, resize]

/-- So does `devpts`. -/
theorem Ptys.devptsFsetattr_view_iff
    {ptys after : Ptys}
    {num : Option Nat}
    (accepted : ptys.devptsFsetattr num attr = some (.ok after)) :
    after.view num = (ptys.view num).map (·.set attr) ↔
      ptys.Heeds attr num := by
  cases num with
  | none =>
    cases accepted
    exact Option.some_inj.trans eq_comm
  | some num =>
    cases isPty : ptys num with
    | none =>
      refine iff_of_true ?_ (by simp [Ptys.Heeds, isPty])
      cases attr <;>
        simp_all [devptsFsetattr, devptsSetattrNum, Attr.isSize, view,
          Except.toOption]
    | some pty =>
      have isStored : after num = some (Ptys.stored pty attr) := by
        cases attr <;>
          simp_all [devptsFsetattr, devptsSetattrNum, Attr.isSize,
            Except.toOption, stored] <;>
          rw [← accepted] <;>
          simp
      simp [view, isPty, isStored, pty_set_iff, Ptys.Heeds]

/-- A request leaves the numbers that a path can name. -/
theorem Ptys.devptsGetPtyNum_after
    {ptys after : Ptys}
    {num : Option Nat}
    (accepted : ptys.devptsFsetattr num attr = some (.ok after))
    (path : PathString) :
    after.devptsGetPtyNum path = ptys.devptsGetPtyNum path := by
  have sameOnes : after.devptsPtyExists = ptys.devptsPtyExists := by
    refine funext fun other => congrArg (other ≤ 4096 && ·) ?_
    obtain ⟨answer, isAnswer, isOk⟩ := Option.map_eq_some_iff.mp accepted
    obtain rfl := Except.ok.inj isOk
    cases num with
    | none =>
      cases isAnswer
      rfl
    | some num =>
      rw [devptsSetattrNum] at isAnswer
      split at isAnswer
      · cases isAnswer
        rfl
      · obtain ⟨pty, isPty, rfl⟩ := Option.map_eq_some_iff.mp isAnswer
        by_cases same : other = num
        · subst same
          simp [Except.toOption, isPty]
        · simp [Except.toOption, same]
  unfold devptsGetPtyNum
  rw [sameOnes]

theorem map_ok
    {α β : Type}
    {answer : Except Errno α}
    {f : α → β}
    {given : β}
    (isOk : answer.map f = .ok given) :
    ∃ value, answer = .ok value ∧ f value = given := by
  cases answer with
  | error err => cases isOk
  | ok value => exact ⟨value, rfl, Except.ok.inj isOk⟩

/-- Which file a request of a path finds. -/
theorem RealFs.path_view_iff
    {fs real : RealFs}
    {path : PathString}
    (accepted : fs.realfsSetattr host path attr = .ok real) :
    (real.entry path).map (fun ino => (real.files ino).view) =
        ((fs.entry path).map fun ino => (fs.files ino).view).map (·.set attr) ↔
      ∀ ino, fs.entry path = some ino →
        if fs.follow path = some ino then (fs.files ino).Heeds host attr
        else (fs.files ino).view.set attr = (fs.files ino).view := by
  obtain ⟨ino, follows, onFile⟩ := realfsSetattr_ok accepted
  obtain ⟨after, called, rfl⟩ := onFd_ok onFile
  cases isEntry : fs.entry path with
  | none => simp
  | some other =>
    by_cases same : other = ino
    · subst same
      simp [follows, hostCall_view_iff called]
    · simp [follows, same, Ne.symm same, eq_comm]

namespace FakeMount

variable {fs fake : FakeMount} {ino inode : Nat} {path : PathString}

/-- Only the row of the inode changes. -/
theorem writeRow_ok
    {stat : IshStat}
    (isRow : fs.db.stats.lookup inode = some stat)
    (accepted : fs.writeRow inode stat attr = some (.ok fake)) :
    fake.real = fs.real ∧ fake.db.paths = fs.db.paths ∧
      ∃ new, fake.db.stats.lookup inode = some new ∧
        ∀ file, fakeView file new = (fakeView file stat).set attr := by
  obtain ⟨new, isNew, isOk⟩ := Option.map_eq_some_iff.mp accepted
  obtain rfl := Except.ok.inj isOk
  have written := FakeDb.inodeWriteStat_lookup isRow new
  exact ⟨rfl, written.2, new, written.1,
    fun _ => fakeStatSetattr_view isNew⟩

theorem fd_view
    (accepted : fs.fakefsFsetattr host ino inode attr = some (.ok fake)) :
    (fake.db.inodeReadStatIfExist inode).map (fakeView (fake.real.files ino)) =
      ((fs.db.inodeReadStatIfExist inode).map
        (fakeView (fs.real.files ino))).map (·.set attr) := by
  unfold fakefsFsetattr at accepted
  split at accepted
  case isTrue isSize =>
    obtain ⟨real, isOk, rfl⟩ := map_ok (Option.some.inj accepted)
    rw [RealFs.realfsFsetattr_eq] at isOk
    obtain ⟨file, called, rfl⟩ := RealFs.onFd_ok isOk
    cases attr with
    | size size =>
      cases isRow : fs.db.inodeReadStatIfExist inode with
      | none => simp
      | some stat => simp [hostCall_size stat called]
    | _ => cases isSize
  · obtain ⟨stat, isRow, isWrite⟩ := Option.bind_eq_some_iff.mp accepted
    obtain ⟨sameReal, _, new, isNew, isSet⟩ := writeRow_ok isRow isWrite
    rw [isRow, FakeDb.inodeReadStatIfExist, isNew, sameReal]
    exact congrArg some (isSet _)

/-- So is one by its path, unless a truncation follows a symbolic link. -/
theorem path_view_iff
    (accepted : fs.fakefsSetattr host path attr = some (.ok fake)) :
    ((fake.real.entry path).bind fun ino =>
        (fake.db.pathReadStat path).map fun row =>
          fakeView (fake.real.files ino) row.2) =
        ((fs.real.entry path).bind fun ino =>
          (fs.db.pathReadStat path).map fun row =>
            fakeView (fs.real.files ino) row.2).map (·.set attr) ↔
      ∀ ino row size, attr = .size size → fs.real.entry path = some ino →
        fs.db.pathReadStat path = some row → fs.real.follow path ≠ some ino →
        resize size (fs.real.files ino).data = (fs.real.files ino).data := by
  unfold fakefsSetattr at accepted
  split at accepted
  case isTrue isSize =>
    obtain ⟨real, isOk, rfl⟩ := map_ok (Option.some.inj accepted)
    obtain ⟨ino, follows, onFile⟩ := RealFs.realfsSetattr_ok isOk
    obtain ⟨after, called, rfl⟩ := RealFs.onFd_ok onFile
    cases attr with
    | size size =>
      cases isEntry : fs.real.entry path with
      | none => simp
      | some other =>
        cases isRow : fs.db.pathReadStat path with
        | none => simp
        | some row =>
          by_cases same : other = ino
          · subst same
            simp [follows, hostCall_size row.2 called]
          · simp [follows, same, Ne.symm same, fakeView, FileView.set, eq_comm]
    | _ => cases isSize
  case isFalse notSize =>
    split at accepted
    · cases accepted
    case h_2 inode stat isRow =>
      obtain ⟨found, isPath, isStat⟩ := Option.bind_eq_some_iff.mp isRow
      obtain ⟨stat, isStat, same⟩ := Option.map_eq_some_iff.mp isStat
      cases same
      obtain ⟨sameReal, samePaths, new, isNew, isSet⟩ :=
        writeRow_ok isStat accepted
      refine iff_of_true ?_ ?_
      · rw [isRow, FakeDb.pathReadStat, samePaths, sameReal, isPath]
        cases fs.real.entry path <;> simp [isNew, isSet]
      · rintro _ _ size rfl
        exact (notSize rfl).elim

end FakeMount

/-- **A successful request does what it asks exactly under the condition.** -/
theorem AttrWorld.setattr_heeds_iff
    {w after : AttrWorld}
    {target : AttrTarget}
    (accepted : w.setattr host attr target = some (.ok after)) :
    after.file target = (w.file target).map (·.set attr) ↔
      w.Heeds host attr target := by
  cases target with
  | realPath path =>
    obtain ⟨real, isOk, rfl⟩ := map_ok (Option.some.inj accepted)
    exact RealFs.path_view_iff isOk
  | realFd ino =>
    obtain ⟨real, isOk, rfl⟩ := map_ok (Option.some.inj accepted)
    rw [RealFs.realfsFsetattr_eq] at isOk
    obtain ⟨file, called, rfl⟩ := RealFs.onFd_ok isOk
    simp [AttrWorld.file, hostCall_view_iff called, AttrWorld.Heeds]
  | fakePath path =>
    obtain ⟨answer, isAnswer, isMap⟩ := Option.map_eq_some_iff.mp accepted
    obtain ⟨fake, rfl, rfl⟩ := map_ok isMap
    exact FakeMount.path_view_iff isAnswer
  | fakeFd ino inode =>
    obtain ⟨answer, isAnswer, isMap⟩ := Option.map_eq_some_iff.mp accepted
    obtain ⟨fake, rfl, rfl⟩ := map_ok isMap
    exact iff_of_true (FakeMount.fd_view isAnswer) trivial
  | ptsPath path =>
    obtain ⟨answer, isAnswer, isMap⟩ := Option.map_eq_some_iff.mp accepted
    obtain ⟨ptys, rfl, rfl⟩ := map_ok isMap
    unfold Ptys.devptsSetattr at isAnswer
    split at isAnswer
    · cases isAnswer
    case h_2 num isNum =>
      simp [AttrWorld.file, Ptys.devptsGetPtyNum_after isAnswer, isNum,
        Ptys.devptsFsetattr_view_iff isAnswer, AttrWorld.Heeds]
  | ptsFd num =>
    obtain ⟨answer, isAnswer, isMap⟩ := Option.map_eq_some_iff.mp accepted
    obtain ⟨ptys, rfl, rfl⟩ := map_ok isMap
    exact Ptys.devptsFsetattr_view_iff isAnswer

/-- One file on realfs, and nothing else. -/
def ownedFile : AttrWorld :=
  let real := ⟨fun _ => some 1, fun _ => some 1,
    fun _ => ⟨7#32, 7#32, 0o100644#32, []⟩⟩
  ⟨real, ⟨real, [], []⟩, fun _ => none⟩

/-- A host that does what it is asked. -/
def quietHost : AttrHost :=
  ⟨none, none, 0#32⟩

theorem setattr_heeds_iff_chmod :
    ∃ after,
      ownedFile.setattr quietHost (.mode 0o600#16) (.realPath []) =
        some (.ok after) ∧
      (after.file (.realPath []) =
          (ownedFile.file (.realPath [])).map (·.set (.mode 0o600#16)) ↔
        ownedFile.Heeds quietHost (.mode 0o600#16) (.realPath [])) :=
  ⟨_, rfl, AttrWorld.setattr_heeds_iff rfl⟩

/-- `fchown(fd, -1, 8)` on realfs makes 8 the owner, and not the group. -/
theorem setattr_group_as_owner :
    ∃ after,
      ownedFile.setattr quietHost (.gid 8#32) (.realFd 1) = some (.ok after) ∧
      after.file (.realFd 1) ≠
        (ownedFile.file (.realFd 1)).map (·.set (.gid 8#32)) :=
  ⟨_, rfl, by decide⟩

end GuestKernel
