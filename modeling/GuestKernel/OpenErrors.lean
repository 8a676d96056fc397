import GuestKernel.OpenAccess

namespace GuestKernel
open Function

/-!
# What a failed open leaves behind

The open of a file system makes the file and cuts it short before
`generic_openat` looks at the mode, the type and the flags, and nothing undoes
that.
-/

/-- The host cuts a file that is not empty. -/
def FileTree.Cuts
    (env : OpenEnv)
    (files : FileTree)
    (place : List PathString)
    (flags : OpenFlags) : Prop :=
  flags.trunc = true ∧ (flags.writes || env.rdonlyTruncates) = true ∧
    ∃ node,
      files.tree.nodeAt place = some node ∧ node.isDir = false ∧
        files.contents node.ino ≠ []

/-- The file is there, and the host does not cut it. -/
def FileTree.Keeps
    (env : OpenEnv)
    (files : FileTree)
    (place : List PathString)
    (flags : OpenFlags) : Prop :=
  (files.tree.nodeAt place).isSome = true ∧ ¬files.Cuts env place flags

/-- The file system refuses the open before it changes anything. -/
def OpenFs.Refuses
    (env : OpenEnv)
    (fs : OpenFs)
    (path : PathString)
    (flags : OpenFlags)
    (mode : BitVec 32) : Prop :=
  match fs with
  | .fakefs files _ | .realfs files =>
    ∃ err, files.hostOpenat env (pathNames path) flags = .error err
  | .tmpfs tmp =>
    ∃ err, tmpfsOpen env tmp (pathNames path) flags mode = .error err
  | .fixed _ => True

/-- The file is there, with its metadata, and is not cut. -/
def OpenFs.Keeps
    (env : OpenEnv)
    (fs : OpenFs)
    (path : PathString)
    (flags : OpenFlags) : Prop :=
  match fs with
  | .fakefs files db =>
    files.Keeps env (pathNames path) flags ∧
      (flags.creat = true → db.pathGetInode path ≠ 0)
  | .realfs files => files.Keeps env (pathNames path) flags
  | .tmpfs tmp =>
    flags.creat = true →
      (tmp.files.tree.nodeAt (createdPlace (pathNames path))).isSome = true
  | .fixed _ => True

/-- The file that is found or made passes the later checks. -/
def OpenFs.Passes
    (env : OpenEnv)
    (fs : OpenFs)
    (path : PathString)
    (flags : OpenFlags)
    (mode : BitVec 32) : Prop :=
  ∃ stat,
    fs.statOpened env path flags mode = some stat ∧
      ∀ err, openChecks env flags stat ≠ some (.error err)

section Host

variable
  {env : OpenEnv}
  {files after : FileTree}
  {place : List PathString}
  {flags : OpenFlags}
  {ino : Nat}

/-- A successful open of the host changes no file that it is to keep. -/
theorem FileTree.hostOpenat_eq_iff
    (opened : files.hostOpenat env place flags = .ok (ino, after)) :
    after = files ↔ files.Keeps env place flags := by
  unfold hostOpenat at opened
  cases ok :
      files.tree.openAt place flags.creat flags.excl env.fake.ino
        env.fake.refused with
  | error err =>
    simp [ok] at opened
  | ok tree =>
    simp only [ok] at opened
    rcases HostTree.openAt_ok ok with
      ⟨rfl, _, isSome⟩ | ⟨isAdded, _, isNone, _⟩
    · obtain ⟨node, isNode⟩ := Option.isSome_iff_exists.mp isSome
      simp only [isNode, Option.isNone_some, Bool.false_or] at opened
      have keeps_iff :
          files.Keeps env place flags ↔ ¬files.Cuts env place flags :=
        ⟨And.right, fun uncut => ⟨isSome, uncut⟩⟩
      rw [keeps_iff]
      cases isDir : node.isDir with
      | true =>
        rw [isDir, if_pos rfl] at opened
        split at opened
        · cases opened
        · cases opened
          refine iff_of_true rfl ?_
          rintro ⟨_, _, other, isOther, notDir, _⟩
          cases isNode.symm.trans isOther
          cases isDir.symm.trans notDir
      | false =>
        rw [isDir, if_neg Bool.false_ne_true] at opened
        split at opened
        · rename_i cuts
          rw [Bool.and_eq_true] at cuts
          cases opened
          constructor
          · rintro same ⟨_, _, other, isOther, _, nonempty⟩
            cases isNode.symm.trans isOther
            have emptied := congrArg (fun files => files.contents node.ino) same
            simp only [update_self] at emptied
            exact nonempty emptied.symm
          · intro uncut
            have isEmpty : files.contents node.ino = [] := by
              by_contra nonempty
              exact uncut ⟨cuts.1, cuts.2, node, isNode, isDir, nonempty⟩
            rw [← isEmpty, update_eq_self]
        · rename_i uncut
          cases opened
          refine iff_of_true rfl ?_
          rintro ⟨trunc, writes, _⟩
          rw [trunc, writes] at uncut
          exact uncut rfl
    · refine iff_of_false (fun same => ?_) (fun keeps => ?_)
      · have isNode : tree.nodeAt place = some ⟨false, env.fake.ino⟩ := by
          rw [isAdded]
          exact Rows.lookup_put_self _ _ _
        simp only [isNode, isNone] at opened
        cases opened
        have sameTree := congrArg (fun files => files.tree.nodeAt place) same
        simp only [isNode, isNone] at sameTree
        cases sameTree
      · rw [FileTree.Keeps, isNone] at keeps
        cases keeps.1

/-- The transaction of `fakefs_open` changes the store exactly for a new row. -/
theorem openRow_eq_iff
    (env : OpenEnv)
    (tree : HostTree)
    (db : FakeDb)
    (path : PathString)
    (creat : Bool)
    (mode : BitVec 32) :
    FakeFs.openRow env.fake ⟨tree, db⟩ path creat mode = db ↔
      (creat = true → db.pathGetInode path ≠ 0) := by
  unfold FakeFs.openRow
  have counted := env.rowid
  by_cases isNew : creat = true ∧ db.pathGetInode path = 0
  · rw [if_pos (by simpa using isNew)]
    refine iff_of_false (fun same => ?_) fun kept => kept isNew.1 isNew.2
    have row :=
      FakeDb.pathCreate_pathGetInode db path
        (FakeFs.callerStat env.fake (mode ||| sIfreg.setWidth 32) 0#32)
        env.fake.rowid
    rw [same] at row
    omega
  · rw [if_neg (by simpa using isNew)]
    exact iff_of_true rfl fun creates isZero => isNew ⟨creates, isZero⟩

/-- `fakefs_open` changes nothing exactly if it is refused or is to keep all. -/
private theorem fakefsOpenat_eq_iff
    (env : OpenEnv)
    (files : FileTree)
    (db : FakeDb)
    (path : PathString)
    (flags : OpenFlags)
    (mode : BitVec 32) :
    (fakefsOpenat env files db path flags mode).2 = .fakefs files db ↔
      (OpenFs.fakefs files db).Refuses env path flags mode ∨
        (OpenFs.fakefs files db).Keeps env path flags := by
  unfold fakefsOpenat OpenFs.Refuses OpenFs.Keeps
  simp only
  cases opened : files.hostOpenat env (pathNames path) flags with
  | error err =>
    exact iff_of_true rfl (.inl ⟨err, rfl⟩)
  | ok found =>
    obtain ⟨ino, after⟩ := found
    have noRefusal :
        ¬∃ err, (.ok (ino, after) : Except Errno (Nat × FileTree)) =
          .error err := by
      rintro ⟨_, impossible⟩
      cases impossible
    rw [or_iff_right noRefusal, ← FileTree.hostOpenat_eq_iff opened,
      ← openRow_eq_iff env after.tree db path flags.creat mode]
    simp only
    split <;> simp only [OpenFs.fakefs.injEq]

/-- `tmpfs_open` changes nothing exactly if it is refused or finds its file. -/
private theorem tmpfsOpen_eq_iff
    {tmp after : TmpFs}
    {mode : BitVec 32}
    (opened : tmpfsOpen env tmp place flags mode = .ok (ino, after)) :
    after = tmp ↔
      (flags.creat = true →
        (tmp.files.tree.nodeAt (createdPlace place)).isSome = true) := by
  unfold tmpfsOpen at opened
  cases creates : flags.creat with
  | false =>
    simp only [creates, Bool.false_eq_true, if_false] at opened
    refine iff_of_true ?_ fun impossible => ?_
    · split at opened
      · cases opened
      · cases opened
        rfl
    · cases impossible
  | true =>
    simp only [creates, if_true] at opened
    split at opened
    · cases opened
    split at opened
    · cases opened
    split at opened
    · cases opened
    cases isNode : tmp.files.tree.nodeAt (createdPlace place) with
    | some node =>
      simp only [isNode] at opened
      split at opened
      · cases opened
      · cases opened
        exact iff_of_true rfl fun _ => rfl
    | none =>
      simp only [isNode] at opened
      split at opened
      · cases opened
      · cases opened
        refine iff_of_false (fun same => ?_) (fun kept => ?_)
        · have sameTree :=
            congrArg
              (fun tmp => tmp.files.tree.nodeAt (createdPlace place)) same
          simp only [HostTree.nodeAt, Rows.lookup_put_self] at sameTree
          cases sameTree.trans isNode
        · cases kept rfl

end Host

/-- An open changes nothing exactly if it is refused or is to keep all. -/
theorem OpenFs.open_eq_iff
    (env : OpenEnv)
    (fs : OpenFs)
    (path : PathString)
    (flags : OpenFlags)
    (mode : BitVec 32) :
    (fs.open env path flags mode).2 = fs ↔
      fs.Refuses env path flags mode ∨ fs.Keeps env path flags := by
  cases fs with
  | fakefs files db =>
    exact fakefsOpenat_eq_iff env files db path flags mode
  | realfs files =>
    unfold OpenFs.open Refuses Keeps
    simp only
    cases opened : files.hostOpenat env (pathNames path) flags with
    | error err =>
      exact iff_of_true rfl (.inl ⟨err, rfl⟩)
    | ok found =>
      obtain ⟨ino, after⟩ := found
      rw [← FileTree.hostOpenat_eq_iff opened]
      simp
  | tmpfs tmp =>
    unfold OpenFs.open Refuses Keeps
    simp only
    cases opened : tmpfsOpen env tmp (pathNames path) flags mode with
    | error err =>
      exact iff_of_true rfl (.inl ⟨err, rfl⟩)
    | ok found =>
      obtain ⟨ino, after⟩ := found
      rw [← tmpfsOpen_eq_iff opened]
      simp
  | fixed stat =>
    refine iff_of_true ?_ (.inr trivial)
    simp only [OpenFs.open]
    split <;> rfl

/-- The inode of a file that was just opened is no orphan. -/
theorem OpenFs.close_opened
    {env : OpenEnv}
    {fs after : OpenFs}
    {path : PathString}
    {flags : OpenFlags}
    {mode : BitVec 32}
    {handle : OpenHandle}
    (opened : fs.open env path flags mode = (.ok handle, after)) :
    after.close env handle = after := by
  cases fs with
  | fakefs files db =>
    simp only [OpenFs.open, fakefsOpenat] at opened
    split at opened
    · cases opened
    split at opened
    · cases opened
    · rename_i ino tree _ found
      cases opened
      simp only [close, FakeFs.inodeCheckOrphaned]
      split
      · rfl
      · generalize
          FakeFs.openRow env.fake ⟨tree.tree, db⟩ path flags.creat mode =
            store at found ⊢
        have isRow : ∃ ino, store.paths.lookup path = some ino := by
          cases row : store.paths.lookup path with
          | none =>
            simp [FakeDb.pathGetInode, row] at found
          | some ino =>
            exact ⟨ino, rfl⟩
        obtain ⟨ino, isRow⟩ := isRow
        obtain ⟨before, later, sameRows, _⟩ :=
          List.lookup_eq_some_iff.mp isRow
        have named :
            (store.paths.any fun row =>
              row.2 = store.pathGetInode path) = true := by
          rw [sameRows, List.any_append, List.any_cons]
          simp [FakeDb.pathGetInode, isRow]
        rw [FakeDb.tryCleanupInode, if_pos named]
  | realfs files | tmpfs tmp | fixed stat =>
    simp only [OpenFs.open] at opened
    split at opened <;> cases opened
    rfl

/-- A call that fails leaves the files as they were. -/
def ErrorKeepsFiles
    (env : OpenEnv)
    (world : OpenWorld)
    (base : Option PathString)
    (pathRaw : PathString)
    (flags : OpenFlags)
    (mode : BitVec 32) : Prop :=
  ∀ err next,
    genericOpenat env world base pathRaw flags mode =
        some (.error err, next) →
      next.files = world.files

/--
The file system that the call gets to refuses it, or has the file and keeps it
as it is; or the file passes the later checks.
-/
def OpenSpares
    (env : OpenEnv)
    (world : OpenWorld)
    (base : Option PathString)
    (pathRaw : PathString)
    (flags : OpenFlags)
    (mode : BitVec 32) : Prop :=
  ∀ point path,
    world.reached env base pathRaw flags = some (point, path) →
    (world.files point).Refuses env path flags mode ∨
      (world.files point).Keeps env path flags ∨
      (world.files point).Passes env path flags mode

/-- A file system is as it was after an error exactly if it is spared. -/
theorem OpenFs.openChecked_keeps_iff
    (env : OpenEnv)
    (fs : OpenFs)
    (point path : PathString)
    (flags : OpenFlags)
    (mode : BitVec 32) :
    (∀ err next,
        fs.openChecked env point path flags mode = some (.error err, next) →
        next = fs) ↔
      fs.Refuses env path flags mode ∨ fs.Keeps env path flags ∨
        fs.Passes env path flags mode := by
  rw [← or_assoc, ← open_eq_iff]
  unfold openChecked Passes statOpened
  have closed := @close_opened env fs
  rcases opened : fs.open env path flags mode with ⟨result, after⟩
  cases result with
  | error err =>
    simp
  | ok handle =>
    cases statted : after.fstat env handle with
    | error err =>
      simp [statted, Except.toOption]
    | ok stat =>
      simp only [statted, Except.toOption, Option.some.injEq,
        exists_eq_left']
      cases checked : openChecks env flags stat with
      | none =>
        simp
      | some answer =>
        cases answer with
        | ok =>
          simp
        | error err =>
          simp [closed opened]

/--
A failed open leaves the files as they were exactly when the file system
refuses it, or keeps the file, or the file would pass the checks.
-/
theorem errorKeepsFiles_iff
    (env : OpenEnv)
    (world : OpenWorld)
    (base : Option PathString)
    (pathRaw : PathString)
    (flags : OpenFlags)
    (mode : BitVec 32) :
    ErrorKeepsFiles env world base pathRaw flags mode ↔
      OpenSpares env world base pathRaw flags mode := by
  unfold ErrorKeepsFiles OpenSpares
  cases reached : world.reached env base pathRaw flags with
  | none =>
    refine iff_of_true ?_ nofun
    intro err next failed
    rcases @genericOpenat_of_unreached _ _ _ _ _ mode reached with
      isNone | ⟨code, isError⟩
    · cases isNone.symm.trans failed
    · cases isError.symm.trans failed
      rfl
  | some place =>
    obtain ⟨point, path⟩ := place
    rw [genericOpenat_of_reached reached]
    have single :
        (∀ otherPoint otherPath,
            some (point, path) = some (otherPoint, otherPath) →
            (world.files otherPoint).Refuses env otherPath flags mode ∨
              (world.files otherPoint).Keeps env otherPath flags ∨
              (world.files otherPoint).Passes env otherPath flags
                mode) ↔
          (world.files point).Refuses env path flags mode ∨
            (world.files point).Keeps env path flags ∨
            (world.files point).Passes env path flags mode := by
      constructor
      · exact fun all => all point path rfl
      · rintro spared otherPoint otherPath ⟨⟩
        exact spared
    rw [single, ← OpenFs.openChecked_keeps_iff env _ point]
    constructor
    · intro kept err after failed
      have same := kept err _ (Option.map_eq_some_iff.mpr ⟨_, failed, rfl⟩)
      have samePoint := congrFun same point
      simpa using samePoint
    · intro kept err next failed
      obtain ⟨⟨result, after⟩, checked, isNext⟩ :=
        Option.map_eq_some_iff.mp failed
      cases isNext
      rw [kept err after checked]
      exact update_eq_self point world.files

/-- A user without access to a file empties it, and gets an error for it. -/
theorem refused_open_empties_file :
    ¬ErrorKeepsFiles userEnv
      (oneFileWorld ⟨0o100644#32, 0, 0, 0#32⟩ [104, 105]) none [slash, 102]
      0x201#32 0#32 := by
  rw [errorKeepsFiles_iff]
  intro spares
  rcases spares [] [slash, 102] (oneFileWorld_reached rfl rfl) with
    ⟨err, refused⟩ | keeps | ⟨stat, isStat, passes⟩
  · cases refused
  · exact keeps.1.2 ⟨rfl, rfl, ⟨false, 2⟩, rfl, rfl, by simp⟩
  · cases isStat
    exact passes .acces rfl

end GuestKernel
