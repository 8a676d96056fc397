import GuestKernel.UserReads

namespace GuestKernel
open List

/-!
# User, group and supplementary group ids

A task may set its ids to those it has, the superuser to any.  The list of
supplementary groups is read from the guest into the task itself, by whoever
asks for it.
-/

/-- `uid`, `euid` and `suid`, or `gid`, `egid` and `sgid`. -/
structure Ids where
  real : UInt32
  effective : UInt32
  saved : UInt32
  deriving DecidableEq, Repr

/-- `(uid_t) -1`, which keeps an id. -/
def keepId : UInt32 :=
  0xffffffff

namespace Ids

/-- The ids as a list. -/
def members (ids : Ids) : List UInt32 :=
  [ids.real, ids.effective, ids.saved]

/-- `setuid` and `setgid`. -/
def setId
    (privileged : Bool) (id : UInt32) (ids : Ids) : Except Errno Ids :=
  if privileged then
    .ok { real := id, effective := id, saved := id }
  else if id ≠ ids.real ∧ id ≠ ids.saved then
    .error .perm
  else
    .ok { ids with effective := id }

/-- An id that is neither kept nor among the ids there are. -/
def Foreign (ids : Ids) (id : UInt32) : Prop :=
  id ≠ keepId ∧ id ≠ ids.real ∧ id ≠ ids.effective ∧ id ≠ ids.saved

instance (ids : Ids) (id : UInt32) : Decidable (ids.Foreign id) :=
  inferInstanceAs (Decidable (_ ∧ _))

/-- The new id, unless it is to be kept. -/
def replace (id old : UInt32) : UInt32 :=
  if id ≠ keepId then id else old

/-- `setresuid` and `setresgid`. -/
def setResId
    (privileged : Bool) (real effective saved : UInt32) (ids : Ids) :
    Except Errno Ids :=
  if privileged = false ∧ ids.Foreign real then
    .error .perm
  else if privileged = false ∧ ids.Foreign effective then
    .error .perm
  else if privileged = false ∧ ids.Foreign saved then
    .error .perm
  else
    .ok
      { real := replace real ids.real
        effective := replace effective ids.effective
        saved := replace saved ids.saved }

variable {ids : Ids}

/-- Without privilege `setId` brings in no id. -/
theorem setId_subset
    {next : Ids}
    {id : UInt32}
    (set : ids.setId false id = .ok next) :
    next.members ⊆ ids.members := by
  simp only [setId, Bool.false_eq_true, if_false] at set
  split at set
  · cases set
  · rename_i own
    cases set
    simp only [members, cons_subset, nil_subset, mem_cons,
      true_or, or_true, and_true, true_and]
    rcases Decidable.em (id = ids.real) with isReal | notReal
    · exact .inl isReal
    · have isSaved : id = ids.saved :=
        Decidable.of_not_not fun notSaved => own ⟨notReal, notSaved⟩
      exact .inr (.inr (.inl isSaved))

theorem replace_mem
    {id old : UInt32}
    (own : ¬ids.Foreign id)
    (isOld : old ∈ ids.members) :
    replace id old ∈ ids.members := by
  unfold replace
  split
  · rename_i notKept
    by_contra notMember
    simp only [members, mem_cons, not_mem_nil, or_false,
      not_or] at notMember
    exact own ⟨notKept, notMember⟩
  · exact isOld

/-- Without privilege `setResId` brings in no id. -/
theorem setResId_subset
    {next : Ids}
    {real effective saved : UInt32}
    (set : ids.setResId false real effective saved = .ok next) :
    next.members ⊆ ids.members := by
  simp only [setResId, true_and] at set
  split at set
  · cases set
  split at set
  · cases set
  split at set
  · cases set
  rename_i realOwn effectiveOwn savedOwn
  cases set
  have isReal := @replace_mem ids real ids.real realOwn (.head _)
  have isEffective := @replace_mem ids effective ids.effective effectiveOwn
    (.tail _ (.head _))
  have isSaved := @replace_mem ids saved ids.saved savedOwn
    (.tail _ (.tail _ (.head _)))
  simp only [members, cons_subset, nil_subset, and_true]
  exact ⟨isReal, isEffective, isSaved⟩

end Ids

/-- `MAX_GROUPS`. -/
def maxGroups : Nat :=
  32

/--
What a task is known by.  The bytes are those of the task from `groups` on, so
that `groups` itself has the first `4 * maxGroups` of them.
-/
structure TaskIds where
  uids : Ids
  gids : Ids
  ngroups : Nat
  groups : Nat → UInt8
  pdeathSignal : Int

namespace TaskIds

/-- `superuser()`. -/
def superuser (task : TaskIds) : Bool :=
  task.uids.effective == 0

/-- The supplementary groups, as the bytes of `groups[0 .. ngroups]`. -/
def groupList (task : TaskIds) : List UInt8 :=
  (List.range (4 * task.ngroups)).map task.groups

/-- The end of a call that sets user ids. -/
def takeUids
    (task : TaskIds) : Except Errno Ids → Except Errno Unit × TaskIds
  | .error code => (.error code, task)
  | .ok ids =>
    (.ok (),
      { task with
        uids := ids
        pdeathSignal :=
          if task.uids.effective ≠ ids.effective then
            0
          else
            task.pdeathSignal })

/-- The end of a call that sets group ids. -/
def takeGids
    (task : TaskIds) : Except Errno Ids → Except Errno Unit × TaskIds
  | .error code => (.error code, task)
  | .ok ids =>
    (.ok (),
      { task with
        gids := ids
        pdeathSignal :=
          if task.gids.effective ≠ ids.effective then
            0
          else
            task.pdeathSignal })

/-- `sys_setuid`. -/
def sysSetuid (task : TaskIds) (uid : UInt32) :
    Except Errno Unit × TaskIds :=
  task.takeUids (task.uids.setId task.superuser uid)

/-- `sys_setresuid`. -/
def sysSetresuid (task : TaskIds) (ruid euid suid : UInt32) :
    Except Errno Unit × TaskIds :=
  task.takeUids (task.uids.setResId task.superuser ruid euid suid)

/-- `sys_setreuid`. -/
def sysSetreuid (task : TaskIds) (ruid euid : UInt32) :
    Except Errno Unit × TaskIds :=
  task.sysSetresuid ruid euid keepId

/-- `sys_setgid`. -/
def sysSetgid (task : TaskIds) (gid : UInt32) :
    Except Errno Unit × TaskIds :=
  task.takeGids (task.gids.setId task.superuser gid)

/-- `sys_setresgid`. -/
def sysSetresgid (task : TaskIds) (rgid egid sgid : UInt32) :
    Except Errno Unit × TaskIds :=
  task.takeGids (task.gids.setResId task.superuser rgid egid sgid)

/-- `sys_setregid`. -/
def sysSetregid (task : TaskIds) (rgid egid : UInt32) :
    Except Errno Unit × TaskIds :=
  task.sysSetresgid rgid egid keepId

end TaskIds

/-- The guest memory at the time of a call, and what the host does for it. -/
structure UserMemory where
  host : Host
  replies : PageReplies
  m : MmId
  world : World
  kept : WellKept world
  inMm : m < world.mmCount
  honest :
    ∀ (call : UserCopy) buffer state,
      call.m = m →
      call.Reaches host replies (call.start world buffer) state →
      call.HonestAt host replies state

/-- `user_read(list, current->groups, size * sizeof(uid_t_))`. -/
def UserMemory.groupsRead (memory : UserMemory) (size list : UInt32) :
    UserCopy :=
  userReadTask memory.m list.toNat (4 * size.toNat)

/-- No chunk of that copy ends behind `groups`. -/
def UserMemory.GroupsInside
    (memory : UserMemory) (size list : UInt32) (groups : Nat → UInt8) :
    Prop :=
  (memory.groupsRead size list).Inside memory.host memory.replies
    memory.world groups (4 * maxGroups)

/-- That copy returns. -/
def UserMemory.GroupsReturn
    (memory : UserMemory) (size list : UInt32) (groups : Nat → UInt8)
    (result : Nat) (last : CopyState) : Prop :=
  (memory.groupsRead size list).Returns memory.host memory.replies
    ((memory.groupsRead size list).start memory.world groups) result last

/--
`sys_setgroups`.  A copy that runs out of `groups` overwrites what follows in
the task, and no outcome is left.
-/
inductive SysSetgroups
    (memory : UserMemory) (size list : UInt32) (task : TaskIds) :
    Option (Except Errno Unit × TaskIds) → Prop where
  | tooMany
      (many : maxGroups < size.toNat) :
      SysSetgroups memory size list task (some (.error .inval, task))
  | fault
      {result : Nat}
      {last : CopyState}
      (few : size.toNat ≤ maxGroups)
      (inside : memory.GroupsInside size list task.groups)
      (returns : memory.GroupsReturn size list task.groups result last)
      (failed : result ≠ 0) :
      SysSetgroups memory size list task
        (some (.error .fault, { task with groups := last.buffer }))
  | set
      {last : CopyState}
      (few : size.toNat ≤ maxGroups)
      (inside : memory.GroupsInside size list task.groups)
      (returns : memory.GroupsReturn size list task.groups 0 last) :
      SysSetgroups memory size list task
        (some
          (.ok (),
            { task with
              groups := last.buffer
              ngroups := size.toNat }))
  | overrun
      (few : size.toNat ≤ maxGroups)
      (outside : ¬memory.GroupsInside size list task.groups) :
      SysSetgroups memory size list task none

/-- The calls that set credentials. -/
inductive CredentialCall where
  | setuid (uid : UInt32)
  | setreuid (ruid euid : UInt32)
  | setresuid (ruid euid suid : UInt32)
  | setgid (gid : UInt32)
  | setregid (rgid egid : UInt32)
  | setresgid (rgid egid sgid : UInt32)
  | setgroups (memory : UserMemory) (size list : UInt32)

namespace CredentialCall

/-- The outcomes of a call. -/
def Runs
    (call : CredentialCall) (task : TaskIds)
    (outcome : Option (Except Errno Unit × TaskIds)) : Prop :=
  match call with
  | setuid uid => outcome = some (task.sysSetuid uid)
  | setreuid ruid euid => outcome = some (task.sysSetreuid ruid euid)
  | setresuid ruid euid suid =>
    outcome = some (task.sysSetresuid ruid euid suid)
  | setgid gid => outcome = some (task.sysSetgid gid)
  | setregid rgid egid => outcome = some (task.sysSetregid rgid egid)
  | setresgid rgid egid sgid =>
    outcome = some (task.sysSetresgid rgid egid sgid)
  | setgroups memory size list => SysSetgroups memory size list task outcome

end CredentialCall

/-- Any calls in any order, each with memory of its own. -/
def credentialMachine (first : TaskIds) :
    Machine (Option TaskIds) CredentialCall where
  initial state := state = some first
  step state call next :=
    ∃ task outcome,
      state = some task ∧
        call.Runs task outcome ∧
        next = outcome.map Prod.snd

/-- The same ids and the same supplementary groups. -/
structure TaskIds.Same (task next : TaskIds) : Prop where
  uids : next.uids = task.uids
  gids : next.gids = task.gids
  groups : next.groupList = task.groupList

/-- No id more, and the same supplementary groups. -/
structure TaskIds.NoMore (task next : TaskIds) : Prop where
  uids : next.uids.members ⊆ task.uids.members
  gids : next.gids.members ⊆ task.gids.members
  groups : next.groupList = task.groupList

/-- A call brings in nothing, and changes nothing if it fails. -/
def TaskIds.Keeps
    (task : TaskIds)
    (outcome : Option (Except Errno Unit × TaskIds)) : Prop :=
  ∃ result next,
    outcome = some (result, next) ∧
      task.NoMore next ∧
      ∀ code, result = .error code → task.Same next

/-- A byte of `groups` that the copy stores to. -/
def UserMemory.StoresGroup
    (memory : UserMemory) (size list : UInt32) (index : Nat) : Prop :=
  (memory.groupsRead size list).Stored memory.host memory.replies
    memory.world index

/-- The byte of the guest that goes there. -/
def UserMemory.groupByte
    (memory : UserMemory) (size list : UInt32) (index : Nat) : UInt8 :=
  memoryByte memory.world memory.m
    ((memory.groupsRead size list).place index)

/--
A list that is too long; or one that leaves the groups as they are: the copy
has to stop within `groups`, every byte of the list that it stores to gets the
value it has, and a list that can be read is as long as the old one.
-/
def CredentialCall.Harmless (task : TaskIds) : CredentialCall → Prop
  | .setgroups memory size list =>
    maxGroups < size.toNat ∨
      (memory.groupsRead size list).StopsBefore memory.host
          memory.replies memory.world (4 * maxGroups) ∧
        ((memory.groupsRead size list).Copyable memory.host
            memory.replies memory.world →
          size.toNat = task.ngroups) ∧
          ∀ index,
            index < 4 * task.ngroups →
            memory.StoresGroup size list index →
            memory.groupByte size list index = task.groups index
  | _ => True

/-- The calls of a task that is not the superuser. -/
def Unprivileged
    (state : Option TaskIds) (_ : CredentialCall) : Prop :=
  ∀ task, state = some task → task.uids.effective ≠ 0

/-- Calls that set no other groups. -/
def SetsNoOther
    (state : Option TaskIds) (call : CredentialCall) : Prop :=
  ∀ task, state = some task → call.Harmless task

variable
  {task next first : TaskIds}
  {outcome : Option (Except Errno Unit × TaskIds)}
  {memory : UserMemory}
  {size list : UInt32}
  {call : CredentialCall}

theorem TaskIds.NoMore.refl (task : TaskIds) :
    task.NoMore task where
  uids := List.Subset.refl _
  gids := List.Subset.refl _
  groups := rfl

theorem TaskIds.NoMore.trans
    {last : TaskIds}
    (earlier : task.NoMore next)
    (later : next.NoMore last) :
    task.NoMore last where
  uids := List.Subset.trans later.uids earlier.uids
  gids := List.Subset.trans later.gids earlier.gids
  groups := later.groups.trans earlier.groups

theorem superuser_eq_false
    (unprivileged : task.uids.effective ≠ 0) :
    task.superuser = false :=
  beq_eq_false_iff_ne.mpr unprivileged

variable {groups : Nat → UInt8} {taken : Except Errno Ids}
  {state : Option TaskIds}

theorem TaskIds.keeps_takeUids
    (subset :
      ∀ ids, taken = .ok ids → ids.members ⊆ task.uids.members) :
    task.Keeps (some (task.takeUids taken)) := by
  cases taken with
  | error code =>
    exact ⟨_, _, rfl, .refl task, fun _ _ => ⟨rfl, rfl, rfl⟩⟩
  | ok ids =>
    refine ⟨_, _, rfl, ⟨subset ids rfl, List.Subset.refl _, rfl⟩, ?_⟩
    intro code failed
    cases failed

theorem TaskIds.keeps_takeGids
    (subset :
      ∀ ids, taken = .ok ids → ids.members ⊆ task.gids.members) :
    task.Keeps (some (task.takeGids taken)) := by
  cases taken with
  | error code =>
    exact ⟨_, _, rfl, .refl task, fun _ _ => ⟨rfl, rfl, rfl⟩⟩
  | ok ids =>
    refine ⟨_, _, rfl, ⟨List.Subset.refl _, subset ids rfl, rfl⟩, ?_⟩
    intro code failed
    cases failed

/-- Two lists are the same if they have the same length and bytes. -/
theorem TaskIds.groupList_eq_iff :
    next.groupList = task.groupList ↔
      next.ngroups = task.ngroups ∧
        ∀ index,
          index < 4 * task.ngroups →
          next.groups index = task.groups index := by
  unfold TaskIds.groupList
  constructor
  · intro same
    have length := congrArg List.length same
    simp only [length_map, length_range] at length
    have isCount : next.ngroups = task.ngroups := by omega
    refine ⟨isCount, fun index before => ?_⟩
    rw [isCount] at same
    exact map_inj_left.mp same index (mem_range.mpr before)
  · rintro ⟨isCount, bytes⟩
    rw [isCount]
    exact map_congr_left fun index member =>
      bytes index (mem_range.mp member)

theorem UserMemory.groupsRead_narrow
    (few : size.toNat ≤ maxGroups) :
    (memory.groupsRead size list).Narrow where
  addr := UInt32.toNat_lt list
  count := by
    unfold maxGroups at few
    show 4 * size.toNat < 2 ^ 32
    omega

theorem UserMemory.groupsRead_honest
    (memory : UserMemory) (size list : UInt32) (groups : Nat → UInt8)
    (state : CopyState)
    (reached :
      (memory.groupsRead size list).Reaches memory.host memory.replies
        ((memory.groupsRead size list).start memory.world groups) state) :
    (memory.groupsRead size list).HonestAt memory.host memory.replies state :=
  memory.honest _ groups state rfl reached

theorem UserMemory.groupsInside_iff
    (few : size.toNat ≤ maxGroups)
    (groups : Nat → UInt8) :
    memory.GroupsInside size list groups ↔
      (memory.groupsRead size list).StopsBefore memory.host memory.replies
        memory.world (4 * maxGroups) :=
  UserCopy.inside_iff memory.kept memory.inMm
    (UserMemory.groupsRead_narrow few)
    (memory.groupsRead_honest size list groups)

theorem UserMemory.groupsRead_returns
    (few : size.toNat ≤ maxGroups)
    (inside : memory.GroupsInside size list groups) :
    ∃ result last,
      memory.GroupsReturn size list groups result last ∧
        ReadEnd memory.host memory.replies (memory.groupsRead size list)
          memory.world groups last := by
  obtain ⟨result, last, returns, _, ends⟩ :=
    UserCopy.read_returns memory.kept memory.inMm rfl
      (UserMemory.groupsRead_narrow few)
      (memory.groupsRead_honest size list groups) (by decide) inside
  exact ⟨result, last, returns, ends⟩

theorem UserMemory.GroupsReturn.ends
    {result : Nat}
    {last : CopyState}
    (few : size.toNat ≤ maxGroups)
    (inside : memory.GroupsInside size list groups)
    (returns : memory.GroupsReturn size list groups result last) :
    ReadEnd memory.host memory.replies (memory.groupsRead size list)
      memory.world groups last := by
  obtain ⟨_, _, other, ends⟩ := UserMemory.groupsRead_returns few inside
  obtain ⟨_, rfl⟩ := other.unique_last returns
  exact ends

theorem ReadEnd.groups_iff
    {last : CopyState}
    (ends :
      ReadEnd memory.host memory.replies (memory.groupsRead size list)
        memory.world groups last)
    (index : Nat) :
    last.buffer index = groups index ↔
      (memory.StoresGroup size list index →
        memory.groupByte size list index = groups index) := by
  by_cases stored : memory.StoresGroup size list index
  · rw [ends.stored index stored]
    exact ⟨fun same _ => same, fun same => same stored⟩
  · exact iff_of_true (ends.rest index stored) fun isStored =>
      absurd isStored stored

/-- Which calls of `setgroups` bring in nothing. -/
theorem setgroups_keeps_iff :
    (∀ outcome, SysSetgroups memory size list task outcome →
        task.Keeps outcome) ↔
      (CredentialCall.setgroups memory size list).Harmless task := by
  constructor
  · intro keeps
    refine or_iff_not_imp_left.mpr fun notMany => ?_
    have few := Nat.le_of_not_lt notMany
    have inside : memory.GroupsInside size list task.groups := by
      by_contra outside
      obtain ⟨_, _, isSome, _⟩ := keeps none (.overrun few outside)
      cases isSome
    obtain ⟨result, last, returns, ends⟩ :=
      UserMemory.groupsRead_returns few inside
    refine ⟨(UserMemory.groupsInside_iff few _).mp inside, ?_, ?_⟩
    · intro copyable
      obtain ⟨other, isZero⟩ :=
        (UserCopy.copyable_iff memory.kept memory.inMm
          (UserMemory.groupsRead_narrow few)
          (memory.groupsRead_honest size list task.groups)).mpr copyable
      obtain ⟨_, _, isNext, noMore, _⟩ := keeps _ (.set few inside isZero)
      cases isNext
      exact (TaskIds.groupList_eq_iff.mp noMore.groups).1
    · intro index before
      refine (ends.groups_iff index).mp ?_
      by_cases isZero : result = 0
      · subst isZero
        obtain ⟨_, _, isNext, noMore, _⟩ := keeps _ (.set few inside returns)
        cases isNext
        exact (TaskIds.groupList_eq_iff.mp noMore.groups).2 index before
      · obtain ⟨_, _, isNext, noMore, _⟩ :=
          keeps _ (.fault few inside returns isZero)
        cases isNext
        exact (TaskIds.groupList_eq_iff.mp noMore.groups).2 index before
  · intro harmless outcome runs
    cases runs with
    | tooMany many =>
      exact ⟨_, _, rfl, .refl task, fun _ _ => ⟨rfl, rfl, rfl⟩⟩
    | @fault result last few inside returns failed =>
      obtain ⟨_, _, bytes⟩ := harmless.resolve_left (Nat.not_lt.mpr few)
      have ends := returns.ends few inside
      have groups :
          { task with groups := last.buffer }.groupList =
            task.groupList :=
        TaskIds.groupList_eq_iff.mpr ⟨rfl, fun index before =>
          (ends.groups_iff index).mpr (bytes index before)⟩
      exact ⟨_, _, rfl,
        ⟨List.Subset.refl _, List.Subset.refl _, groups⟩,
        fun _ _ => ⟨rfl, rfl, groups⟩⟩
    | set few inside returns =>
      obtain ⟨_, length, bytes⟩ :=
        harmless.resolve_left (Nat.not_lt.mpr few)
      have ends := returns.ends few inside
      have copyable :=
        (UserCopy.copyable_iff memory.kept memory.inMm
          (UserMemory.groupsRead_narrow few)
          (memory.groupsRead_honest size list task.groups)).mp
            ⟨_, returns⟩
      refine ⟨_, _, rfl, ⟨List.Subset.refl _, List.Subset.refl _, ?_⟩,
        fun _ failed => by cases failed⟩
      exact TaskIds.groupList_eq_iff.mpr
        ⟨length copyable, fun index before =>
          (ends.groups_iff index).mpr (bytes index before)⟩
    | overrun few outside =>
      obtain ⟨stops, _⟩ := harmless.resolve_left (Nat.not_lt.mpr few)
      exact absurd ((UserMemory.groupsInside_iff few _).mpr stops) outside

private theorem keeps_iff_of_one
    {only : Except Errno Unit × TaskIds}
    (keeps : task.Keeps (some only)) :
    (∀ outcome, outcome = some only → task.Keeps outcome) ↔ True :=
  iff_of_true (fun _ isOnly => isOnly ▸ keeps) trivial

/-- Which calls of a task without privilege bring in nothing. -/
theorem CredentialCall.keeps_iff_harmless
    (unprivileged : task.uids.effective ≠ 0) :
    (∀ outcome, call.Runs task outcome → task.Keeps outcome) ↔
      call.Harmless task := by
  have isPlain := superuser_eq_false unprivileged
  cases call with
  | setgroups memory size list => exact setgroups_keeps_iff
  | setuid uid =>
    refine keeps_iff_of_one (TaskIds.keeps_takeUids fun ids set => ?_)
    exact Ids.setId_subset (isPlain ▸ set)
  | setreuid ruid euid | setresuid ruid euid suid =>
    refine keeps_iff_of_one (TaskIds.keeps_takeUids fun ids set => ?_)
    exact Ids.setResId_subset (isPlain ▸ set)
  | setgid gid =>
    refine keeps_iff_of_one (TaskIds.keeps_takeGids fun ids set => ?_)
    exact Ids.setId_subset (isPlain ▸ set)
  | setregid rgid egid | setresgid rgid egid sgid =>
    refine keeps_iff_of_one (TaskIds.keeps_takeGids fun ids set => ?_)
    exact Ids.setResId_subset (isPlain ▸ set)

/-- A task that stays without privilege gains nothing by harmless calls. -/
private theorem noMore_of_reachable
    (reachable :
      ((credentialMachine first).restrict fun state call =>
        Unprivileged state call ∧ SetsNoOther state call).Reachable state) :
    ∃ task, state = some task ∧ first.NoMore task := by
  induction reachable with
  | initial isFirst => exact ⟨first, isFirst, .refl first⟩
  | step _ taken inductionHypothesis =>
    obtain ⟨task, rfl, noMore⟩ := inductionHypothesis
    obtain ⟨⟨unprivileged, setsNoOther⟩, _, outcome, isTask, runs, isNext⟩ :=
      taken
    cases isTask
    obtain ⟨_, next, rfl, later, _⟩ :=
      (CredentialCall.keeps_iff_harmless (unprivileged task rfl)).mpr
        (setsNoOther task rfl) outcome runs
    exact ⟨next, isNext, noMore.trans later⟩

/-- A task without any id 0 never becomes the superuser. -/
private theorem unprivileged_of_reachable
    (noRoot : 0 ∉ first.uids.members)
    (reachable :
      ((credentialMachine first).restrict SetsNoOther).Reachable state) :
    ∃ task, state = some task ∧ 0 ∉ task.uids.members := by
  induction reachable with
  | initial isFirst => exact ⟨first, isFirst, noRoot⟩
  | step _ taken inductionHypothesis =>
    obtain ⟨task, rfl, noId⟩ := inductionHypothesis
    obtain ⟨setsNoOther, _, outcome, isTask, runs, isNext⟩ := taken
    cases isTask
    have unprivileged : task.uids.effective ≠ 0 := fun isRoot =>
      noId (isRoot ▸ .tail _ (.head _))
    obtain ⟨_, next, rfl, later, _⟩ :=
      (CredentialCall.keeps_iff_harmless unprivileged).mpr
        (setsNoOther task rfl) outcome runs
    exact ⟨next, isNext, fun isMember => noId (later.uids isMember)⟩

/--
In a run whose calls are made without privilege and set no other groups, the
ids never gain an element, the groups stay, and a call that fails changes
nothing.  A task that has no id 0 stays without privilege in such a run.  And
any other call of `setgroups` can break this.
-/
theorem credentials_kept_by_harmless_calls (first : TaskIds) :
    (∀ state,
        ((credentialMachine first).restrict fun state call =>
            Unprivileged state call ∧ SetsNoOther state call).Reachable
          state →
          ∃ task,
            state = some task ∧ first.NoMore task ∧
              ∀ (call : CredentialCall) outcome,
                task.uids.effective ≠ 0 →
                call.Harmless task →
                call.Runs task outcome → task.Keeps outcome) ∧
      (0 ∉ first.uids.members →
        ∀ state,
          ((credentialMachine first).restrict SetsNoOther).Reachable state →
          ∃ task, state = some task ∧ task.uids.effective ≠ 0) ∧
        ∀ (task : TaskIds) (call : CredentialCall),
          task.uids.effective ≠ 0 →
          ((∀ outcome, call.Runs task outcome → task.Keeps outcome) ↔
            call.Harmless task) := by
  refine ⟨fun state reachable => ?_, fun noRoot state reachable => ?_,
    fun task call unprivileged =>
      CredentialCall.keeps_iff_harmless unprivileged⟩
  · obtain ⟨task, isState, noMore⟩ := noMore_of_reachable reachable
    refine ⟨task, isState, noMore, ?_⟩
    intro call outcome unprivileged harmless runs
    exact (CredentialCall.keeps_iff_harmless unprivileged).mpr harmless
      outcome runs
  · obtain ⟨task, isState, noId⟩ :=
      unprivileged_of_reachable noRoot reachable
    exact ⟨task, isState, fun isRoot =>
      noId (isRoot ▸ .tail _ (.head _))⟩

/-- A task with the ids of one user and without supplementary groups. -/
def plainUser : TaskIds where
  uids := ⟨1000, 1000, 1000⟩
  gids := ⟨1000, 1000, 1000⟩
  ngroups := 0
  groups _ := 0
  pdeathSignal := 0

/-- A set-user-ID program of another user. -/
def setuidUser : TaskIds :=
  { plainUser with uids := ⟨1000, 1001, 1001⟩ }

/-- It drops the other id, takes it back, and has no more than before. -/
theorem setuidUser_stays_unprivileged :
    ∃ task,
      (setuidUser.sysSetuid 1000).2.sysSetuid 1001 = (.ok (), task) ∧
        (setuidUser.sysSetuid 1000).2.uids.effective = 1000 ∧
        task.uids.effective = 1001 ∧ setuidUser.NoMore task := by
  obtain ⟨noMore, _⟩ := credentials_kept_by_harmless_calls setuidUser
  have step :
      ∀ (task : TaskIds) uid,
        task.uids.effective ≠ 0 →
        ((credentialMachine setuidUser).restrict fun state call =>
          Unprivileged state call ∧ SetsNoOther state call).step
            (some task) (.setuid uid) (some (task.sysSetuid uid).2) := by
    intro task uid unprivileged
    refine ⟨⟨?_, fun _ _ => trivial⟩, task, _, rfl, rfl, rfl⟩
    rintro _ ⟨⟩
    exact unprivileged
  obtain ⟨task, isTask, kept, _⟩ :=
    noMore _ (.step (.step (.initial rfl) (step setuidUser 1000 (by decide)))
      (step (setuidUser.sysSetuid 1000).2 1001 (by decide)))
  cases isTask
  exact ⟨_, rfl, rfl, rfl, kept⟩

/-- A task that is not the superuser gives itself a group. -/
theorem setgroups_without_privilege :
    ∃ (memory : UserMemory) (task : TaskIds),
      (credentialMachine plainUser).Reachable (some task) ∧
        SysSetgroups memory 1 0x50000000 plainUser (some (.ok (), task)) ∧
        plainUser.uids.effective = 1000 ∧
        plainUser.groupList = [] ∧
        task.groupList.length = 4 := by
  obtain ⟨w, record, one, kept, _⟩ := exists_onePage_wellKept
  let memory : UserMemory :=
    { host := plainHost
      replies := refuseReplies
      m := 0
      world := w
      kept := kept
      inMm := one.inMm
      honest := fun _ _ _ _ _ _ _ => refuseReplies_honest .. }
  have few : (1 : UInt32).toNat ≤ maxGroups := by decide
  have isLow : 0x50000000 + 4 ≤ 0xfffff000 := by decide
  have fits : 4 ≤ 4 * maxGroups := by decide
  have inside : memory.GroupsInside 1 0x50000000 plainUser.groups :=
    (UserMemory.groupsInside_iff few _).mpr (.inr (.inl ⟨isLow, fits⟩))
  have copyable :
      (memory.groupsRead 1 0x50000000).Copyable plainHost refuseReplies
        w := by
    refine .inr ⟨isLow, fun index before => ?_⟩
    have isPage : page (0x50000000 + index) = 0x50000 := by
      change index < 4 at before
      simp only [page, pageSize]
      omega
    change Accessible plainHost w 0 .read refuseReplies
      (page (0x50000000 + index))
    rw [isPage, Accessible, one.found]
    exact .inl rfl
  obtain ⟨last, returns⟩ :=
    (UserCopy.copyable_iff memory.kept memory.inMm
      (UserMemory.groupsRead_narrow few)
      (memory.groupsRead_honest 1 0x50000000 plainUser.groups)).mpr copyable
  have set : SysSetgroups memory 1 0x50000000 plainUser _ :=
    .set few inside returns
  refine ⟨memory, _, .step (.initial rfl) ⟨_, _, rfl,
    show CredentialCall.Runs (.setgroups memory 1 0x50000000) plainUser _
      from set, rfl⟩, set, rfl, rfl, ?_⟩
  exact length_map _

end GuestKernel
