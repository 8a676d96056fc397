import GuestKernel.OpenFiles

namespace GuestKernel

/-!
# What an access check grants

`access_check` asks whether the class of the caller has any of the requested
bits; it is to ask for all of them.  It is the only check of `generic_openat`
on the mode of a file.  The class is that of the group for a supplementary
group too (`groups` of the task, set by `setgroups`), which the check does not
look at.
-/

/-- The bits of the owner, group or other class, whichever applies. -/
def classBits (groups : List Nat) (user : Credentials) (stat : Stat) : Nat :=
  if user.euid = stat.uid then stat.mode >>> 6
  else if user.egid = stat.gid ∨ stat.gid ∈ groups then stat.mode >>> 3
  else stat.mode

/-- The bits that the check looks at. -/
def checkedBits (user : Credentials) (stat : Stat) : Nat :=
  if user.euid = stat.uid then stat.mode >>> 6
  else if user.egid = stat.gid then stat.mode >>> 3
  else stat.mode

/-- The class has all the requested bits. -/
def ClassGrants (bits : Nat) (check : BitVec 3) : Prop :=
  ∀ bit, check.getLsbD bit = true → bits.testBit bit = true

/-- The class has none of the requested bits. -/
def ClassDenies (bits : Nat) (check : BitVec 3) : Prop :=
  ∀ bit, check.getLsbD bit = true → bits.testBit bit = false

/-- The caller is in the group of the file by a supplementary group only. -/
def Supplementary
    (groups : List Nat) (user : Credentials) (stat : Stat) : Prop :=
  user.euid ≠ stat.uid ∧ user.egid ≠ stat.gid ∧ stat.gid ∈ groups

instance (groups : List Nat) (user : Credentials) (stat : Stat) :
    Decidable (Supplementary groups user stat) :=
  inferInstanceAs (Decidable (_ ∧ _))

/-- The check succeeds when it is to: for the superuser, or on a grant. -/
def AccessAgrees
    (groups : List Nat) (user : Credentials) (stat : Stat)
    (check : BitVec 3) : Prop :=
  accessCheck user stat check.toNat = .ok () ↔
    user.euid = 0 ∨ ClassGrants (classBits groups user stat) check

/--
Nothing is checked; or the class has all of the bits or none; or, for a
supplementary group, the group class has all of them and the class of the others
one, or the one lacks a bit and the other has none.
-/
def AccessSuits
    (groups : List Nat) (user : Credentials) (stat : Stat)
    (check : BitVec 3) : Prop :=
  user.euid = 0 ∨ check = 0 ∨
    if Supplementary groups user stat then
      (ClassGrants (stat.mode >>> 3) check ↔ ¬ClassDenies stat.mode check)
    else
      ClassGrants (checkedBits user stat) check ∨
        ClassDenies (checkedBits user stat) check

/-- Where a supplementary group counts, the group class is not checked. -/
theorem classBits_of_supplementary
    {groups : List Nat}
    {user : Credentials}
    {stat : Stat}
    (isSupplementary : Supplementary groups user stat) :
    classBits groups user stat = stat.mode >>> 3 ∧
      checkedBits user stat = stat.mode := by
  obtain ⟨notOwner, notGroup, isMember⟩ := isSupplementary
  exact ⟨by rw [classBits, if_neg notOwner, if_pos (.inr isMember)],
    by rw [checkedBits, if_neg notOwner, if_neg notGroup]⟩

/-- Otherwise the class that applies is the one that is checked. -/
theorem classBits_of_not_supplementary
    {groups : List Nat}
    {user : Credentials}
    {stat : Stat}
    (notSupplementary : ¬Supplementary groups user stat) :
    classBits groups user stat = checkedBits user stat := by
  unfold classBits checkedBits
  split
  · rfl
  · rename_i notOwner
    by_cases isGroup : user.egid = stat.gid
    · rw [if_pos (.inl isGroup), if_pos isGroup]
    · rw [if_neg isGroup, if_neg]
      exact not_or.mpr ⟨isGroup, fun isMember =>
        notSupplementary ⟨notOwner, isGroup, isMember⟩⟩

/-- A mask has no bit in common with a shifted class. -/
private theorem and_shiftLeft_eq_zero_iff
    {mode check shift : Nat} :
    mode &&& check <<< shift = 0 ↔
      ∀ bit, check.testBit bit = true → (mode >>> shift).testBit bit = false := by
  constructor
  · intro none bit asked
    have clear : (mode &&& check <<< shift).testBit (shift + bit) = false := by
      rw [none, Nat.zero_testBit]
    rw [Nat.testBit_and, Nat.testBit_shiftLeft] at clear
    rw [Nat.testBit_shiftRight]
    simpa [asked] using clear
  · intro clear
    refine Nat.eq_of_testBit_eq fun bit => ?_
    rw [Nat.testBit_and, Nat.testBit_shiftLeft, Nat.zero_testBit]
    by_cases above : shift ≤ bit
    · cases asked : check.testBit (bit - shift) with
      | false =>
        simp
      | true =>
        have isClear := clear (bit - shift) asked
        rw [Nat.testBit_shiftRight, Nat.add_sub_cancel' above] at isClear
        simp [isClear]
    · simp [above]

/--
The check refuses exactly the callers other than the superuser whose class has
none of the bits, if there are any.
-/
theorem accessCheck_eq_ok_iff
    (user : Credentials)
    (stat : Stat)
    (check : BitVec 3) :
    accessCheck user stat check.toNat = .ok () ↔
      user.euid = 0 ∨ check = 0 ∨
        ¬ClassDenies (checkedBits user stat) check := by
  unfold accessCheck
  by_cases superuser : user.euid = 0
  · rw [if_pos superuser]
    exact iff_of_true rfl (.inl superuser)
  · rw [if_neg superuser, or_iff_right superuser]
    by_cases empty : check = 0
    · rw [if_pos (by rw [empty]; rfl)]
      exact iff_of_true rfl (.inl empty)
    · have nonzero : check.toNat ≠ 0 := fun same =>
        empty (BitVec.eq_of_toNat_eq same)
      rw [if_neg nonzero, or_iff_right empty]
      simp only
      have masked :
          stat.mode &&&
                (if user.euid = stat.uid then check.toNat <<< 6
                else if user.egid = stat.gid then check.toNat <<< 3
                else check.toNat) = 0 ↔
            ClassDenies (checkedBits user stat) check := by
        unfold ClassDenies checkedBits
        simp only [← BitVec.testBit_toNat]
        split
        · exact and_shiftLeft_eq_zero_iff
        · split
          · exact and_shiftLeft_eq_zero_iff
          · have plain :=
              @and_shiftLeft_eq_zero_iff stat.mode check.toNat 0
            rwa [Nat.shiftLeft_zero, Nat.shiftRight_zero] at plain
      rw [ite_eq_right_iff, masked]
      constructor
      · intro refuses denied
        cases refuses denied
      · intro notDenied denied
        exact absurd denied notDenied

/-- A fact about the bits of a request is one about three bits. -/
private theorem forall_bit_iff
    {check : BitVec 3}
    {fact : Nat → Prop} :
    (∀ bit, check.getLsbD bit = true → fact bit) ↔
      (check.getLsbD 0 = true → fact 0) ∧
        (check.getLsbD 1 = true → fact 1) ∧
        (check.getLsbD 2 = true → fact 2) := by
  constructor
  · exact fun all => ⟨all 0, all 1, all 2⟩
  · rintro ⟨zero, one, two⟩ bit asked
    match bit with
    | 0 => exact zero asked
    | 1 => exact one asked
    | 2 => exact two asked
    | more + 3 =>
      rw [BitVec.getLsbD_of_ge _ _ (by omega)] at asked
      cases asked

theorem ClassGrants.not_denies
    {bits : Nat}
    {check : BitVec 3}
    (grants : ClassGrants bits check)
    (nonempty : check ≠ 0) :
    ¬ClassDenies bits check := by
  intro denies
  apply nonempty
  refine BitVec.eq_of_getLsbD_eq fun bit _ => ?_
  refine (Bool.of_not_eq_true fun asked => ?_).trans
    (BitVec.getLsbD_zero).symm
  cases (grants bit asked).symm.trans (denies bit asked)

/-- When the check agrees with the class that applies. -/
theorem accessAgrees_iff
    (groups : List Nat)
    (user : Credentials)
    (stat : Stat)
    (check : BitVec 3) :
    AccessAgrees groups user stat check ↔
      AccessSuits groups user stat check := by
  unfold AccessAgrees AccessSuits
  rw [accessCheck_eq_ok_iff]
  by_cases superuser : user.euid = 0
  · exact iff_of_true (iff_of_true (.inl superuser) (.inl superuser))
      (.inl superuser)
  by_cases empty : check = 0
  · have grants : ClassGrants (classBits groups user stat) check := by
      intro bit asked
      rw [empty] at asked
      simp at asked
    exact iff_of_true (iff_of_true (.inr (.inl empty)) (.inr grants))
      (.inr (.inl empty))
  rw [or_iff_right superuser, or_iff_right superuser, or_iff_right superuser,
    or_iff_right empty, or_iff_right empty]
  split
  case isTrue isSupplementary =>
    obtain ⟨applies, checked⟩ := classBits_of_supplementary isSupplementary
    rw [applies, checked]
    exact iff_comm
  case isFalse notSupplementary =>
    rw [classBits_of_not_supplementary notSupplementary]
    constructor
    · intro agrees
      by_cases denies : ClassDenies (checkedBits user stat) check
      · exact .inr denies
      · exact .inl (agrees.mp denies)
    · rintro (grants | denies)
      · exact iff_of_true (grants.not_denies empty) grants
      · exact iff_of_false (not_not.mpr denies) fun grants =>
          grants.not_denies empty denies

/-- The fields of a stat that an access check reads. -/
def IshStat.access (stat : IshStat) : Stat :=
  ⟨stat.mode.toNat, stat.uid, stat.gid⟩

/-- A descriptor reads and writes only what the mode of its file grants. -/
def OpenFd.Permitted
    (groups : List Nat) (env : OpenEnv) (world : OpenWorld) (fd : OpenFd) :
    Prop :=
  ∀ stat,
    (world.files fd.point).fstat env fd.handle = .ok stat →
    env.user.euid = 0 ∨
      ClassGrants (classBits groups env.user stat.access) fd.flags.accmode

/-- The stat of the file that an open finds or makes. -/
def OpenFs.statOpened
    (env : OpenEnv)
    (fs : OpenFs)
    (path : PathString)
    (flags : OpenFlags)
    (mode : BitVec 32) : Option IshStat :=
  match fs.open env path flags mode with
  | (.error _, _) => none
  | (.ok handle, fs) => (fs.fstat env handle).toOption

/-- The file system and the path in it that a call gets to. -/
def OpenWorld.reached
    (env : OpenEnv)
    (world : OpenWorld)
    (base : Option PathString)
    (pathRaw : PathString)
    (flags : OpenFlags) : Option (PathString × PathString) :=
  if flags.rdwr && flags.wronly then
    none
  else
    match pathNormalizeAt env.user world.mounts base pathRaw flags.walkFlags 0
        with
    | some (.ok path) =>
      (world.mounts.find path).map fun mount =>
        (mount.point, path.drop mount.point.length)
    | _ => none

/--
The caller is the superuser; or asks for reading or writing alone, or the class
has both bits or none; or, for a supplementary group, the group class has what
is asked for.
-/
def ModeSuits
    (groups : List Nat) (env : OpenEnv) (flags : OpenFlags) (stat : IshStat) :
    Prop :=
  env.user.euid = 0 ∨
    if Supplementary groups env.user stat.access then
      ClassGrants (stat.access.mode >>> 3) flags.accmode
    else
      flags.rdwr = false ∨
        (checkedBits env.user stat.access).testBit 1 =
          (checkedBits env.user stat.access).testBit 2

theorem openChecks_access
    {env : OpenEnv}
    {flags : OpenFlags}
    {stat : IshStat}
    (passed : openChecks env flags stat = some (.ok ())) :
    accessCheck env.user stat.access flags.accmode.toNat = .ok () := by
  unfold openChecks at passed
  cases checked : stat.accessCheck env.user flags.accmode.toNat with
  | error err =>
    simp [checked] at passed
  | ok =>
    exact checked

/-- A checked access grants what it was asked for exactly if it suits. -/
theorem classGrants_iff_of_checked
    {groups : List Nat}
    {env : OpenEnv}
    {flags : OpenFlags}
    {stat : IshStat}
    (checked :
      accessCheck env.user stat.access flags.accmode.toNat = .ok ()) :
    (env.user.euid = 0 ∨
        ClassGrants (classBits groups env.user stat.access) flags.accmode) ↔
      ModeSuits groups env flags stat := by
  have kinds := (accessCheck_eq_ok_iff _ _ _).mp checked
  unfold ModeSuits
  by_cases superuser : env.user.euid = 0
  · exact iff_of_true (.inl superuser) (.inl superuser)
  rw [or_iff_right superuser] at kinds ⊢
  rw [or_iff_right superuser]
  split
  case isTrue isSupplementary =>
    rw [(classBits_of_supplementary isSupplementary).1]
  case isFalse notSupplementary =>
    rw [classBits_of_not_supplementary notSupplementary]
    unfold ClassDenies OpenFlags.accmode at kinds
    unfold ClassGrants OpenFlags.accmode
    rw [forall_bit_iff] at kinds ⊢
    generalize (checkedBits env.user stat.access).testBit 0 = exec at kinds ⊢
    generalize (checkedBits env.user stat.access).testBit 1 = write at kinds ⊢
    generalize (checkedBits env.user stat.access).testBit 2 = read at kinds ⊢
    generalize flags.rdwr = rdwr at kinds ⊢
    generalize flags.wronly = wronly at kinds ⊢
    cases rdwr <;> cases wronly <;> cases write <;> cases read <;>
      simp at kinds ⊢

section Opens

variable
  {env : OpenEnv}
  {world : OpenWorld}
  {base : Option PathString}
  {pathRaw : PathString}
  {flags : OpenFlags}
  {mode : BitVec 32}

/-- A call that gets to a file system opens on it. -/
theorem genericOpenat_of_reached
    {point path : PathString}
    (reached : world.reached env base pathRaw flags = some (point, path)) :
    genericOpenat env world base pathRaw flags mode =
      ((world.files point).openChecked env point path flags mode).map
        fun answer =>
          (answer.1,
            { world with
              files := Function.update world.files point answer.2 }) := by
  unfold OpenWorld.reached at reached
  unfold genericOpenat
  cases bothModes : flags.rdwr && flags.wronly with
  | true =>
    simp [bothModes] at reached
  | false =>
    rw [bothModes, if_neg Bool.false_ne_true] at reached
    rw [if_neg Bool.false_ne_true]
    cases walked :
        pathNormalizeAt env.user world.mounts base pathRaw flags.walkFlags
          0 with
    | none =>
      simp [walked] at reached
    | some answer =>
      cases answer with
      | error err =>
        simp [walked] at reached
      | ok whole =>
        simp only [walked, Option.map_eq_some_iff] at reached
        obtain ⟨mount, found, isPoint⟩ := reached
        cases isPoint
        simp only [found]

/-- A call that gets to no file system changes nothing. -/
theorem genericOpenat_of_unreached
    (unreached : world.reached env base pathRaw flags = none) :
    genericOpenat env world base pathRaw flags mode = none ∨
      ∃ err,
        genericOpenat env world base pathRaw flags mode =
          some (.error err, world) := by
  unfold OpenWorld.reached at unreached
  unfold genericOpenat
  cases bothModes : flags.rdwr && flags.wronly with
  | true =>
    exact .inr ⟨.inval, by rw [if_pos rfl]⟩
  | false =>
    rw [bothModes, if_neg Bool.false_ne_true] at unreached
    rw [if_neg Bool.false_ne_true]
    cases walked :
        pathNormalizeAt env.user world.mounts base pathRaw flags.walkFlags
          0 with
    | none =>
      exact .inl rfl
    | some answer =>
      cases answer with
      | error err =>
        exact .inr ⟨err, rfl⟩
      | ok whole =>
        simp only [walked, Option.map_eq_none_iff] at unreached
        exact .inl (by simp only [unreached])

/-- When the end of an open gives a descriptor, and which one. -/
theorem OpenFs.openChecked_eq_ok_iff
    {fs next : OpenFs}
    {point path : PathString}
    {fd : OpenFd} :
    fs.openChecked env point path flags mode = some (.ok fd, next) ↔
      ∃ handle stat,
        fs.open env path flags mode = (.ok handle, next) ∧
          next.fstat env handle = .ok stat ∧
          openChecks env flags stat = some (.ok ()) ∧
          fd = ⟨point, handle, stat.mode.setWidth 16 &&& sIfmt, flags⟩ := by
  unfold openChecked
  rcases opened : fs.open env path flags mode with ⟨result, after⟩
  cases result with
  | error err =>
    simp
  | ok handle =>
    cases statted : after.fstat env handle with
    | error err =>
      simp only [statted]
      refine iff_of_false (fun impossible => ?_) ?_
      · cases impossible
      · rintro ⟨_, _, same, isStat, _⟩
        cases same
        cases statted.symm.trans isStat
    | ok stat =>
      simp only [statted]
      constructor
      · intro gives
        cases checked : openChecks env flags stat with
        | none =>
          simp [checked] at gives
        | some answer =>
          cases answer with
          | error err =>
            simp [checked] at gives
          | ok =>
            simp only [checked, Option.some.injEq, Prod.mk.injEq,
              Except.ok.injEq] at gives
            obtain ⟨rfl, rfl⟩ := gives
            exact ⟨handle, stat, rfl, statted, checked, rfl⟩
      · rintro ⟨_, _, same, isStat, checked, rfl⟩
        cases same
        cases statted.symm.trans isStat
        simp only [checked]

end Opens

section

variable
  (groups : List Nat)
  (env : OpenEnv)
  (world : OpenWorld)
  (base : Option PathString)
  (pathRaw : PathString)
  (flags : OpenFlags)
  (mode : BitVec 32)

/-- A call gives only descriptors that the modes of the files permit. -/
def OpensPermitted : Prop :=
  ∀ fd next,
    genericOpenat env world base pathRaw flags mode = some (.ok fd, next) →
    fd.Permitted groups env next

/-- The file that a call finds or makes suits it, if it passes the checks. -/
def OpenSuits : Prop :=
  ∀ point path stat,
    world.reached env base pathRaw flags = some (point, path) →
    (world.files point).statOpened env path flags mode = some stat →
    openChecks env flags stat = some (.ok ()) →
    ModeSuits groups env flags stat

/-- A call gives no descriptor beyond the mode exactly when the file suits. -/
theorem opensPermitted_iff :
    OpensPermitted groups env world base pathRaw flags mode ↔
      OpenSuits groups env world base pathRaw flags mode := by
  constructor
  · intro permitted point path stat reached isStat checked
    unfold OpenFs.statOpened at isStat
    split at isStat
    · cases isStat
    · rename_i handle after opened
      have statted : after.fstat env handle = .ok stat := by
        cases found : after.fstat env handle with
        | error err =>
          simp [found, Except.toOption] at isStat
        | ok other =>
          simp only [found, Except.toOption, Option.some.injEq] at isStat
          rw [isStat]
      have gives :=
        (@OpenFs.openChecked_eq_ok_iff _ _ _ _ _ point _ _).mpr
          ⟨handle, stat, opened, statted, checked, rfl⟩
      have answer := @genericOpenat_of_reached _ _ _ _ _ mode _ _ reached
      rw [gives] at answer
      refine (classGrants_iff_of_checked (openChecks_access checked)).mp ?_
      refine permitted _ _ answer stat ?_
      simpa using statted
  · intro suits fd next gives stat isStat
    cases reached : world.reached env base pathRaw flags with
    | none =>
      rcases @genericOpenat_of_unreached _ _ _ _ _ mode reached with
        isNone | ⟨err, isError⟩
      · cases isNone.symm.trans gives
      · cases isError.symm.trans gives
    | some place =>
      obtain ⟨point, path⟩ := place
      rw [genericOpenat_of_reached reached, Option.map_eq_some_iff] at gives
      obtain ⟨⟨result, after⟩, checkedOpen, isNext⟩ := gives
      cases isNext
      obtain ⟨handle, other, opened, statted, checked, rfl⟩ :=
        OpenFs.openChecked_eq_ok_iff.mp checkedOpen
      simp only [Function.update_self] at isStat
      cases statted.symm.trans isStat
      refine
        (classGrants_iff_of_checked (openChecks_access checked)).mpr
          (suits point path stat reached ?_ checked)
      simp only [OpenFs.statOpened, opened, statted, Except.toOption]

end

/--
`access_check` is right exactly for the superuser and when the class of the
caller has all of the bits or none, or the classes of a caller in a
supplementary group happen to agree; and an open gives a descriptor beyond the
mode exactly when it asks for both reading and writing and has one of them, or
the class of the others is checked for such a caller.
-/
theorem access_is_checked_iff
    (groups : List Nat)
    (user : Credentials)
    (stat : Stat)
    (check : BitVec 3)
    (env : OpenEnv)
    (world : OpenWorld)
    (base : Option PathString)
    (pathRaw : PathString)
    (flags : OpenFlags)
    (mode : BitVec 32) :
    (AccessAgrees groups user stat check ↔
      AccessSuits groups user stat check) ∧
      (OpensPermitted groups env world base pathRaw flags mode ↔
        OpenSuits groups env world base pathRaw flags mode) :=
  ⟨accessAgrees_iff groups user stat check,
    opensPermitted_iff groups env world base pathRaw flags mode⟩

/-- The surroundings of a call of user 1000. -/
def userEnv : OpenEnv where
  fake := {
    euid := 1000
    egid := 1000
    refused := none
    writeError := none
    unlinkError := none
    closeError := none
    ino := 3
    rowid := 3
    loaded := fun _ => false }
  rowid := by decide
  hostStat _ := .ok ⟨0o100666#32, 0, 0, 0#32⟩
  rdonlyTruncates := false
  charOpen _ := none

/-- The root directory. -/
def rootStat : IshStat :=
  ⟨0o040755#32, 0, 0, 0#32⟩

/-- A root file system with the file `/f`. -/
def oneFileWorld (stat : IshStat) (contents : List UInt8) : OpenWorld where
  mounts := {
    list := [{
      point := []
      readlink := some fun _ _ => .error .inval
      stat := fun path =>
        if path = [] then .ok rootStat.access
        else if path = [slash, 102] then .ok stat.access
        else .error .noent
      bounded := by
        intro read isRead path size text isText
        cases isRead
        cases isText }]
    root := ⟨_, List.mem_cons_self, rfl⟩ }
  files _ :=
    .fakefs
      ⟨⟨[([], ⟨true, 1⟩), ([[102]], ⟨false, 2⟩)]⟩,
        fun ino => if ino = 2 then contents else []⟩
      ⟨[([], 1), ([slash, 102], 2)], [(1, rootStat), (2, stat)]⟩

/-- The walk gets to the file. -/
theorem oneFileWorld_reached
    {env : OpenEnv}
    {stat : IshStat}
    {contents : List UInt8}
    {flags : OpenFlags}
    (oneMode : (flags.rdwr && flags.wronly) = false)
    (finds : flags.creat = false) :
    (oneFileWorld stat contents).reached env none [slash, 102] flags =
      some ([], [slash, 102]) := by
  have walked :
      pathNormalizeAt env.user (oneFileWorld stat contents).mounts none
          [slash, 102] 1 0 =
        some (.ok [slash, 102]) := by
    rw [pathNormalizeAt, if_neg (by decide), if_neg (by decide),
      if_neg (by decide)]
    calc
      _ = PathWalk.run env.user (oneFileWorld stat contents).mounts 1 0
            ⟨some 102, [], [slash, 102], 4093⟩ :=
        @WalkState.run_of_next env.user (oneFileWorld stat contents).mounts 1
          ⟨0, PathWalk.start none [slash, 102]⟩ _ rfl
      _ = some (.ok [slash, 102]) :=
        @WalkState.run_of_stop env.user (oneFileWorld stat contents).mounts 1
          ⟨0, ⟨some 102, [], [slash, 102], 4093⟩⟩ _ rfl
  have isFlags : flags.walkFlags = 1 := by
    rw [OpenFlags.walkFlags, finds]
    rfl
  unfold OpenWorld.reached
  rw [oneMode, if_neg Bool.false_ne_true, isFlags, walked]
  rfl

/-- The owner of a file of mode 0444 opens it for writing too. -/
theorem owner_writes_read_only_file :
    ¬OpensPermitted [] userEnv
      (oneFileWorld ⟨0o100444#32, 1000, 1000, 0#32⟩ []) none [slash, 102]
      2#32 0#32 := by
  rw [opensPermitted_iff]
  intro suits
  have suited :=
    suits [] [slash, 102] ⟨0o100444#32, 1000, 1000, 0#32⟩
      (oneFileWorld_reached rfl rfl) rfl rfl
  rw [ModeSuits, if_neg (by decide)] at suited
  exact absurd suited (by decide)

end GuestKernel
