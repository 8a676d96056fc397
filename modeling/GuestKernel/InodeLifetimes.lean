import GuestKernel.FakeFsSync
import GuestKernel.Inodes
import Mathlib.Data.List.Count

namespace GuestKernel
open List Option
open Rows

/-!
# Metadata outlives names and references

The refcount of an inode is the number of references to it, and an inode
without a reference is not in memory.  So a task that cleans up under
`inodes_lock` finds no reference, the store itself sees whether a path names the
inode, and a descriptor has its metadata as long as it is open.
-/

namespace InodeWorld

/-- The references to an inode. -/
def refsOf (world : InodeWorld) (ino : Nat) : Nat :=
  world.refs.countP fun ref => ref.ino = ino

/-- What holds between the steps of all tasks. -/
structure Accounted (world : InodeWorld) : Prop where
  counts :
    ∀ ino,
      (world.refsOf ino = 0 ∧ world.inodes.lookup ino = none) ∨
        (0 < world.refsOf ino ∧ world.refsOf ino < dwordRange ∧
          world.inodes.lookup ino = some (world.refsOf ino))
  locked :
    ∀ task ino, world.tasks task = .locked ino →
      world.inodesLock = some task
  statted :
    ∀ task ino, world.tasks task = .statted ino →
      world.inodesLock = some task ∧ (world.db.stats.lookup ino).isSome
  orphaned :
    ∀ task ino, world.tasks task = .orphaned ino →
      world.inodesLock = some task ∧ world.inodes.lookup ino = none
  fds :
    ∀ ref ∈ world.refs, ref.isFd = true →
      (world.db.stats.lookup ref.ino).isSome

variable {world next : InodeWorld} {task : Nat}

/-- A phase in which a task does not have `inodes_lock`. -/
def IsOutside (phase : InodeTask) : Prop :=
  ∀ ino, phase ≠ .locked ino ∧ phase ≠ .statted ino ∧ phase ≠ .orphaned ino

variable {db : FakeDb} {ref : InodeRef} {ino : Nat}

section

variable (accounted : world.Accounted)
include accounted

theorem Accounted.of_db
    (grows :
      ∀ ino, (world.db.stats.lookup ino).isSome →
        (db.stats.lookup ino).isSome) :
    Accounted { world with db := db } where
  counts := accounted.counts
  locked := accounted.locked
  statted := fun task ino isPhase =>
    ⟨(accounted.statted task ino isPhase).1,
      grows ino (accounted.statted task ino isPhase).2⟩
  orphaned := accounted.orphaned
  fds := fun ref isRef isFd => grows ref.ino (accounted.fds ref isRef isFd)

/-- A task that goes on without the lock keeps the accounts. -/
theorem Accounted.setTask
    {phase : InodeTask}
    (isOutside : IsOutside phase)
    (task : Nat) :
    (world.setTask task phase).Accounted := by
  have wasPhase :
      ∀ {other ino} {inside : Nat → InodeTask},
        inside ino ≠ phase → (world.setTask task phase).tasks other = inside ino →
        world.tasks other = inside ino := by
    intro other ino inside differs isPhase
    dsimp only [InodeWorld.setTask] at isPhase
    split at isPhase
    · exact (differs isPhase.symm).elim
    · exact isPhase
  constructor
  case counts => exact accounted.counts
  case locked =>
    exact fun other ino isPhase =>
      accounted.locked other ino (wasPhase (isOutside ino).1.symm isPhase)
  case statted =>
    exact fun other ino isPhase =>
      accounted.statted other ino (wasPhase (isOutside ino).2.1.symm isPhase)
  case orphaned =>
    exact fun other ino isPhase =>
      accounted.orphaned other ino (wasPhase (isOutside ino).2.2.symm isPhase)
  case fds => exact accounted.fds

theorem Accounted.nobody_cleans
    (isFree : world.inodesLock = none)
    (other ino : Nat) :
    world.tasks other ≠ .orphaned ino := by
  intro isPhase
  have owner := (accounted.orphaned other ino isPhase).1
  rw [isFree] at owner
  cases owner

/-- A task that takes the lock and keeps what its phase says. -/
theorem Accounted.enter
    {phase : InodeTask}
    (isFree : world.inodesLock = none)
    (notStatted : ∀ ino, phase ≠ .statted ino)
    (isOrphan : ∀ ino, phase = .orphaned ino → world.inodes.lookup ino = none) :
    ({ world with inodesLock := some task }.setTask task phase).Accounted := by
  constructor
  case counts => exact accounted.counts
  case locked =>
    intro other ino isPhase
    dsimp only [InodeWorld.setTask] at isPhase ⊢
    split at isPhase
    case isTrue same => rw [same]
    case isFalse =>
      have owner := accounted.locked other ino isPhase
      rw [isFree] at owner
      cases owner
  case statted =>
    intro other ino isPhase
    dsimp only [InodeWorld.setTask] at isPhase ⊢
    split at isPhase
    · exact (notStatted ino isPhase).elim
    · have owner := (accounted.statted other ino isPhase).1
      rw [isFree] at owner
      cases owner
  case orphaned =>
    intro other ino isPhase
    dsimp only [InodeWorld.setTask] at isPhase ⊢
    split at isPhase
    case isTrue same => exact ⟨by rw [same], isOrphan ino isPhase⟩
    case isFalse => exact (accounted.nobody_cleans isFree other ino isPhase).elim
  case fds => exact accounted.fds

/-- The owner of the lock gives it back. -/
theorem Accounted.leave
    (isOwner : world.inodesLock = some task) :
    ({ world with inodesLock := none }.setTask task .idle).Accounted := by
  have onlyOwner :
      ∀ {other}, other ≠ task → world.inodesLock = some other → False := by
    intro other differs owner
    rw [isOwner, some.injEq] at owner
    exact differs owner.symm
  constructor
  case counts => exact accounted.counts
  case locked =>
    intro other ino isPhase
    dsimp only [InodeWorld.setTask] at isPhase
    split at isPhase
    · cases isPhase
    case isFalse differs =>
      exact (onlyOwner differs (accounted.locked other ino isPhase)).elim
  case statted =>
    intro other ino isPhase
    dsimp only [InodeWorld.setTask] at isPhase
    split at isPhase
    · cases isPhase
    case isFalse differs =>
      exact (onlyOwner differs (accounted.statted other ino isPhase).1).elim
  case orphaned =>
    intro other ino isPhase
    dsimp only [InodeWorld.setTask] at isPhase
    split at isPhase
    · cases isPhase
    case isFalse differs =>
      exact (onlyOwner differs (accounted.orphaned other ino isPhase).1).elim
  case fds => exact accounted.fds

end

theorem refsOf_get
    (ref : InodeRef)
    (ino : Nat) :
    (world.inodeGetUnlocked ref).refsOf ino =
      world.refsOf ino + if ref.ino = ino then 1 else 0 := by
  unfold refsOf inodeGetUnlocked
  rw [countP_cons]
  by_cases same : ref.ino = ino
  · rw [if_pos same, if_pos (decide_eq_true same)]
  · rw [if_neg same, if_neg (by simpa using same)]

/-- The references to an inode fit its 32-bit refcount. -/
theorem HostBounded.refsOf_lt
    (bounded : world.HostBounded)
    (ino : Nat) :
    world.refsOf ino < dwordRange := by
  have isSum :
      world.refsOf ino =
        world.refs.count ⟨ino, true⟩ + world.refs.count ⟨ino, false⟩ := by
    unfold refsOf
    induction world.refs with
    | nil => rfl
    | cons ref rest inductionHypothesis =>
      obtain ⟨number, isFd⟩ := ref
      rw [countP_cons, count_cons, count_cons, inductionHypothesis]
      by_cases same : number = ino
      · cases isFd <;> simp [same] <;> omega
      · simp [same]
  have descriptors := bounded ino true
  have lookups := bounded ino false
  unfold dwordRange
  omega

theorem Accounted.lookup_getD
    (accounted : world.Accounted)
    (ino : Nat) :
    (world.inodes.lookup ino).getD 0 = world.refsOf ino := by
  rcases accounted.counts ino with ⟨isZero, isNone⟩ | ⟨_, _, isSome⟩
  · rw [isNone, isZero]
    rfl
  · rw [isSome, getD_some]

/-- `inode_get_unlocked` keeps the accounts while nobody is about to clean up. -/
theorem Accounted.get
    (accounted : world.Accounted)
    (nobody : ∀ other ino, world.tasks other ≠ .orphaned ino)
    (small : (world.inodeGetUnlocked ref).refsOf ref.ino < dwordRange)
    (isStat :
      ref.isFd = true → (world.db.stats.lookup ref.ino).isSome) :
    (world.inodeGetUnlocked ref).Accounted := by
  constructor
  case counts =>
    intro ino
    rw [refsOf_get]
    by_cases same : ref.ino = ino
    · subst same
      rw [if_pos rfl]
      rw [refsOf_get, if_pos rfl] at small
      dsimp only [inodeGetUnlocked]
      rw [lookup_put_self, accounted.lookup_getD, incremented_of_small small]
      exact .inr ⟨Nat.succ_pos _, small, rfl⟩
    · rw [if_neg same, Nat.add_zero]
      dsimp only [inodeGetUnlocked]
      rw [lookup_put_of_ne (Ne.symm same)]
      exact accounted.counts ino
  case locked => exact accounted.locked
  case statted => exact accounted.statted
  case orphaned =>
    exact fun other ino isPhase => (nobody other ino isPhase).elim
  case fds =>
    intro other isRef isFd
    rcases mem_cons.mp isRef with rfl | wasRef
    · exact isStat isFd
    · exact accounted.fds other wasRef isFd

theorem refsOf_erase
    (isRef : ref ∈ world.refs)
    (ino : Nat) :
    (world.refs.erase ref).countP (fun other => other.ino = ino) =
      world.refsOf ino - if ref.ino = ino then 1 else 0 := by
  unfold refsOf
  rw [countP_erase]
  by_cases same : ref.ino = ino
  · rw [if_pos same, if_pos ⟨isRef, decide_eq_true same⟩]
  · rw [if_neg same, if_neg]
    exact fun both => same (of_decide_eq_true both.2)

theorem refsOf_pos
    (isRef : ref ∈ world.refs) :
    0 < world.refsOf ref.ino :=
  countP_pos_iff.mpr ⟨ref, isRef, decide_eq_true rfl⟩

theorem Accounted.lookup_of_ref
    (accounted : world.Accounted)
    (isRef : ref ∈ world.refs) :
    world.refsOf ref.ino < dwordRange ∧
      world.inodes.lookup ref.ino = some (world.refsOf ref.ino) := by
  rcases accounted.counts ref.ino with ⟨isZero, _⟩ | ⟨_, isCounted⟩
  · have isPos := refsOf_pos isRef
    rw [isZero] at isPos
    cases isPos
  · exact isCounted

theorem Accounted.release
    (accounted : world.Accounted)
    (isFree : world.inodesLock = none)
    (isRef : ref ∈ world.refs)
    (releases : world.inodeRelease task ref = some next) :
    next.Accounted := by
  obtain ⟨small, isCount⟩ := accounted.lookup_of_ref isRef
  have isPos := refsOf_pos isRef
  have isLess : decremented (world.refsOf ref.ino) = world.refsOf ref.ino - 1 :=
    decremented_of_pos isPos small
  unfold inodeRelease at releases
  obtain ⟨count, isSome, releases⟩ := bind_eq_some_iff.mp releases
  have isRefs : count = world.refsOf ref.ino := by
    rw [isCount, some.injEq] at isSome
    exact isSome.symm
  rw [isRefs, isLess] at releases
  have others :
      ∀ ino, ref.ino ≠ ino →
        (world.refs.erase ref).countP (fun other => other.ino = ino) =
          world.refsOf ino := by
    intro ino differs
    rw [refsOf_erase isRef, if_neg differs, Nat.sub_zero]
  have itself :
      (world.refs.erase ref).countP (fun other => other.ino = ref.ino) =
        world.refsOf ref.ino - 1 := by
    rw [refsOf_erase isRef, if_pos rfl]
  have fds :
      ∀ other ∈ world.refs.erase ref, other.isFd = true →
        (world.db.stats.lookup other.ino).isSome :=
    fun other isOther => accounted.fds other (mem_of_mem_erase isOther)
  split at releases
  case isTrue isLast =>
    cases releases
    have taken :
        Accounted
          { world with
            refs := world.refs.erase ref
            inodes := takeOut ref.ino world.inodes } := by
      constructor
      case counts =>
        intro ino
        dsimp only [refsOf]
        by_cases same : ref.ino = ino
        · subst same
          exact .inl ⟨itself.trans isLast, lookup_takeOut_self ..⟩
        · rw [others ino same, lookup_takeOut_of_ne (Ne.symm same)]
          exact accounted.counts ino
      case locked => exact accounted.locked
      case statted => exact accounted.statted
      case orphaned =>
        exact fun other ino isPhase =>
          (accounted.nobody_cleans isFree other ino isPhase).elim
      case fds => exact fds
    refine taken.enter isFree (fun _ same => by cases same) ?_
    intro ino same
    cases same
    exact lookup_takeOut_self ..
  case isFalse notLast =>
    cases releases
    constructor
    case counts =>
      intro ino
      dsimp only [refsOf]
      by_cases same : ref.ino = ino
      · subst same
        rw [itself, lookup_put_self]
        exact .inr ⟨Nat.pos_of_ne_zero notLast,
          Nat.lt_of_le_of_lt (Nat.sub_le ..) small, rfl⟩
      · rw [others ino same, lookup_put_of_ne (Ne.symm same)]
        exact accounted.counts ino
    case locked => exact accounted.locked
    case statted => exact accounted.statted
    case orphaned =>
      exact fun other ino isPhase =>
        (accounted.nobody_cleans isFree other ino isPhase).elim
    case fds => exact fds

/-- A new row keeps the stats that are there. -/
theorem isSome_pathCreate
    {rowid : Nat}
    (isFresh : db.isFreshRowid rowid = true)
    (path : PathString)
    (stat : IshStat)
    (ino : Nat)
    (isStat : (db.stats.lookup ino).isSome) :
    ((db.pathCreate path stat rowid).stats.lookup ino).isSome := by
  dsimp only [FakeDb.pathCreate]
  rw [lookup_put_of_ne]
  · exact isStat
  · rintro rfl
    unfold FakeDb.isFreshRowid at isFresh
    rw [Bool.and_eq_true, isNone_iff_eq_none] at isFresh
    rw [isFresh.2] at isStat
    cases isStat

theorem isSome_openRow
    {env : FakeEnv}
    (isFresh : db.isFreshRowid env.rowid = true)
    (path : PathString)
    (creat : Bool)
    (mode : BitVec 32)
    (ino : Nat)
    (isStat : (db.stats.lookup ino).isSome) :
    ((db.openRow env path creat mode).stats.lookup ino).isSome := by
  unfold FakeDb.openRow FakeFs.openRow
  split
  · exact isSome_pathCreate isFresh path _ ino isStat
  · exact isStat

theorem stats_of_pathLink
    {linked : FakeDb}
    {src dst : PathString}
    (links : db.pathLink src dst = some linked) :
    linked.stats = db.stats := by
  unfold FakeDb.pathLink at links
  split at links
  · cases links
  · cases links
    rfl

theorem stats_of_pathUnlink
    {unlinked : FakeDb}
    {path : PathString}
    (unlinks : db.pathUnlink path = some (ino, unlinked)) :
    unlinked.stats = db.stats := by
  unfold FakeDb.pathUnlink at unlinks
  split at unlinks
  · cases unlinks
  · cases unlinks
    rfl

/-- The cleanup takes out only the stat of an inode that no path names. -/
theorem tryCleanupInode_spares
    {inode : Nat}
    (isStat : (db.stats.lookup ino).isSome)
    (isGone : (db.tryCleanupInode inode).stats.lookup ino = none) :
    ino = inode ∧ ∀ path, db.paths.lookup path ≠ some ino := by
  have notSame :
      (db.tryCleanupInode inode).stats.lookup ino ≠ db.stats.lookup ino := by
    rw [isGone]
    intro same
    rw [← same] at isStat
    cases isStat
  have isInode : ino = inode := by
    by_contra differs
    exact notSame
      (FakeDb.tryCleanupInode_stats fun same => (differs same).elim)
  refine ⟨isInode, ?_⟩
  intro path isRow
  exact notSame
    (FakeDb.tryCleanupInode_stats fun _ => ⟨path, isInode ▸ isRow⟩)

/-- `fstat` under the lock finds the metadata. -/
theorem Accounted.found
    {stat : IshStat}
    (accounted : world.Accounted)
    (owner : world.inodesLock = some task)
    (isStat : world.db.inodeReadStatIfExist ino = some stat) :
    (world.setTask task (.statted ino)).Accounted := by
  constructor
  case counts => exact accounted.counts
  case locked =>
    intro other otherIno isPhase
    dsimp only [InodeWorld.setTask] at isPhase
    split at isPhase
    · cases isPhase
    · exact accounted.locked other otherIno isPhase
  case statted =>
    intro other otherIno isPhase
    dsimp only [InodeWorld.setTask] at isPhase
    split at isPhase
    case isTrue same =>
      cases isPhase
      refine ⟨same ▸ owner, ?_⟩
      exact isSome_iff_exists.mpr ⟨stat, isStat⟩
    case isFalse => exact accounted.statted other otherIno isPhase
  case orphaned =>
    intro other otherIno isPhase
    dsimp only [InodeWorld.setTask] at isPhase
    split at isPhase
    · cases isPhase
    · exact accounted.orphaned other otherIno isPhase
  case fds => exact accounted.fds

/-- An inode with a reference is not cleaned up. -/
theorem Accounted.cleaned
    (accounted : world.Accounted)
    (isOrphan : world.tasks task = .orphaned ino) :
    ({ world with
        db := world.db.tryCleanupInode ino
        inodesLock := none }.setTask task .idle).Accounted := by
  obtain ⟨owner, isNone⟩ := accounted.orphaned task ino isOrphan
  have left := accounted.leave owner
  refine ⟨left.counts, left.locked, ?_, left.orphaned, ?_⟩
  · intro other otherIno isPhase
    have absurdOwner := (left.statted other otherIno isPhase).1
    cases absurdOwner
  · intro ref isRef isFd
    have notOrphan : ref.ino ≠ ino := by
      rintro rfl
      have isSome := (accounted.lookup_of_ref isRef).2
      rw [isNone] at isSome
      cases isSome
    dsimp only [InodeWorld.setTask]
    rw [FakeDb.tryCleanupInode_stats fun same => (notOrphan same).elim]
    exact accounted.fds ref isRef isFd

theorem isOutside_of_opens
    (ino : Nat) :
    IsOutside (if ino = 0 then .idle else .opened ino) := by
  intro other
  split
  · exact ⟨by rintro ⟨⟩, by rintro ⟨⟩, by rintro ⟨⟩⟩
  · exact ⟨by rintro ⟨⟩, by rintro ⟨⟩, by rintro ⟨⟩⟩

/-- A step that the host grants keeps the accounts. -/
theorem Accounted.step
    {step : InodeStep}
    (accounted : world.Accounted)
    (bounded : next.HostBounded)
    (run : step.run world = some next) :
    next.Accounted := by
  have idle : IsOutside .idle :=
    fun _ => ⟨by rintro ⟨⟩, by rintro ⟨⟩, by rintro ⟨⟩⟩
  cases step with
  | opens task path creat mode env =>
    obtain ⟨⟨_, isFresh⟩, same⟩ := ite_none_right_eq_some.mp run
    cases same
    exact (accounted.of_db (isSome_openRow isFresh path creat mode)).setTask
      (isOutside_of_opens _) task
  | lock task =>
    dsimp only [InodeStep.run] at run
    split at run
    case h_1 ino isOpened isFree =>
      cases run
      exact accounted.enter isFree (fun _ same => by cases same)
        (fun _ same => by cases same)
    case h_2 => cases run
  | fstat task =>
    dsimp only [InodeStep.run] at run
    split at run
    case h_1 ino isLocked =>
      have owner := accounted.locked task ino isLocked
      split at run
      case h_1 stat isStat =>
        cases run
        exact accounted.found owner isStat
      case h_2 =>
        cases run
        exact accounted.leave owner
    case h_2 => cases run
  | openGet task =>
    dsimp only [InodeStep.run] at run
    split at run
    case h_1 ino isStatted =>
      cases run
      obtain ⟨owner, isStat⟩ := accounted.statted task ino isStatted
      have nobody : ∀ other ino, world.tasks other ≠ .orphaned ino := by
        intro other otherIno isOrphan
        have otherOwner := (accounted.orphaned other otherIno isOrphan).1
        rw [owner, some.injEq] at otherOwner
        rw [← otherOwner, isStatted] at isOrphan
        cases isOrphan
      have got : (world.inodeGetUnlocked ⟨ino, true⟩).Accounted :=
        accounted.get nobody (bounded.refsOf_lt ino) fun _ => isStat
      exact got.leave owner
    case h_2 => cases run
  | looksUp task path =>
    obtain ⟨_, found⟩ := ite_none_right_eq_some.mp run
    obtain ⟨⟨ino, stat⟩, _, rfl⟩ := map_eq_some_iff.mp found
    exact accounted.setTask
      (fun _ => ⟨by rintro ⟨⟩, by rintro ⟨⟩, by rintro ⟨⟩⟩) task
  | lookGet task =>
    dsimp only [InodeStep.run] at run
    split at run
    case h_1 ino isLooked isFree =>
      cases run
      have got : (world.inodeGetUnlocked ⟨ino, false⟩).Accounted :=
        accounted.get (accounted.nobody_cleans isFree) (bounded.refsOf_lt ino)
          fun isFd => by cases isFd
      exact got.setTask idle task
    case h_2 => cases run
  | create task path stat rowid =>
    obtain ⟨⟨_, isFresh⟩, same⟩ := ite_none_right_eq_some.mp run
    cases same
    exact accounted.of_db (isSome_pathCreate isFresh path stat)
  | link task src dst =>
    obtain ⟨_, linked⟩ := ite_none_right_eq_some.mp run
    obtain ⟨db, links, rfl⟩ := map_eq_some_iff.mp linked
    refine accounted.of_db fun ino isStat => ?_
    rw [stats_of_pathLink links]
    exact isStat
  | rename task src dst =>
    obtain ⟨_, same⟩ := ite_none_right_eq_some.mp run
    cases same
    exact accounted.of_db fun _ isStat => isStat
  | unlink task path =>
    obtain ⟨_, unlinked⟩ := ite_none_right_eq_some.mp run
    obtain ⟨⟨ino, db⟩, unlinks, rfl⟩ := map_eq_some_iff.mp unlinked
    have unlinked : Accounted { world with db := db } := by
      refine accounted.of_db fun ino isStat => ?_
      rw [stats_of_pathUnlink unlinks]
      exact isStat
    exact unlinked.setTask
      (fun _ => ⟨by rintro ⟨⟩, by rintro ⟨⟩, by rintro ⟨⟩⟩) task
  | check task =>
    dsimp only [InodeStep.run] at run
    split at run
    case h_1 ino isUnlinked isFree =>
      cases run
      unfold checkOrphaned
      split
      case isTrue isNone =>
        refine accounted.enter isFree (fun _ same => by cases same) ?_
        rintro other ⟨⟩
        exact isNone
      case isFalse => exact accounted.setTask idle task
    case h_2 => cases run
  | cleanUp task =>
    dsimp only [InodeStep.run] at run
    split at run
    case h_1 ino isOrphan =>
      cases run
      exact accounted.cleaned isOrphan
    case h_2 => cases run
  | release task ref =>
    obtain ⟨⟨_, isFree, isRef⟩, releases⟩ :=
      ite_none_right_eq_some.mp run
    exact accounted.release isFree isRef releases

/-- In every run the accounts are right. -/
theorem accounted_of_reachable
    (reachable : boundedMachine.Reachable world) :
    world.Accounted := by
  refine reachable.invariant (motive := Accounted) ?_ ?_
  · rintro world ⟨noInodes, noLock, allIdle, noRefs⟩
    constructor
    case counts =>
      intro ino
      rw [refsOf, noRefs, noInodes]
      exact .inl ⟨rfl, rfl⟩
    case locked =>
      intro task ino isPhase
      rw [allIdle] at isPhase
      cases isPhase
    case statted =>
      intro task ino isPhase
      rw [allIdle] at isPhase
      cases isPhase
    case orphaned =>
      intro task ino isPhase
      rw [allIdle] at isPhase
      cases isPhase
    case fds =>
      intro ref isRef
      rw [noRefs] at isRef
      cases isRef
  · rintro world step next accounted ⟨run, bounded⟩
    exact accounted.step bounded run

/-- Only a cleanup takes out a stat. -/
theorem cleans_of_gone
    {step : InodeStep}
    (run : step.run world = some next)
    (isStat : (world.db.stats.lookup ino).isSome)
    (isGone : next.db.stats.lookup ino = none) :
    ∃ task, step = .cleanUp task ∧ world.tasks task = .orphaned ino ∧
      ∀ path, world.db.paths.lookup path ≠ some ino := by
  have keeps :
      ∀ db : FakeDb, next.db = db → (db.stats.lookup ino).isSome → False := by
    intro db same isSome
    rw [← same, isGone] at isSome
    cases isSome
  cases step with
  | opens task path creat mode env =>
    obtain ⟨⟨_, isFresh⟩, same⟩ := ite_none_right_eq_some.mp run
    cases same
    exact (keeps _ rfl
      (isSome_openRow isFresh path creat mode ino isStat)).elim
  | lock task | openGet task | lookGet task =>
    dsimp only [InodeStep.run] at run
    split at run
    · cases run
      exact (keeps _ rfl isStat).elim
    · cases run
  | fstat task =>
    dsimp only [InodeStep.run] at run
    split at run
    · split at run
      · cases run
        exact (keeps _ rfl isStat).elim
      · cases run
        exact (keeps _ rfl isStat).elim
    · cases run
  | looksUp task path =>
    obtain ⟨_, found⟩ := ite_none_right_eq_some.mp run
    obtain ⟨_, _, rfl⟩ := map_eq_some_iff.mp found
    exact (keeps _ rfl isStat).elim
  | create task path stat rowid =>
    obtain ⟨⟨_, isFresh⟩, same⟩ := ite_none_right_eq_some.mp run
    cases same
    exact (keeps _ rfl (isSome_pathCreate isFresh path stat ino isStat)).elim
  | link task src dst =>
    obtain ⟨_, linked⟩ := ite_none_right_eq_some.mp run
    obtain ⟨db, links, rfl⟩ := map_eq_some_iff.mp linked
    refine (keeps _ rfl ?_).elim
    rw [stats_of_pathLink links]
    exact isStat
  | rename task src dst =>
    obtain ⟨_, same⟩ := ite_none_right_eq_some.mp run
    cases same
    exact (keeps _ rfl isStat).elim
  | unlink task path =>
    obtain ⟨_, unlinked⟩ := ite_none_right_eq_some.mp run
    obtain ⟨⟨inode, db⟩, unlinks, rfl⟩ := map_eq_some_iff.mp unlinked
    refine (keeps db rfl ?_).elim
    rw [stats_of_pathUnlink unlinks]
    exact isStat
  | check task =>
    dsimp only [InodeStep.run, checkOrphaned] at run
    split at run
    · cases run
      refine (keeps world.db ?_ isStat).elim
      split <;> rfl
    · cases run
  | cleanUp task =>
    dsimp only [InodeStep.run] at run
    split at run
    case h_1 inode isOrphan =>
      cases run
      obtain ⟨rfl, noPath⟩ := tryCleanupInode_spares isStat isGone
      exact ⟨task, rfl, isOrphan, noPath⟩
    case h_2 => cases run
  | release task ref =>
    obtain ⟨_, releases⟩ := ite_none_right_eq_some.mp run
    obtain ⟨count, _, releases⟩ := bind_eq_some_iff.mp releases
    refine (keeps world.db ?_ isStat).elim
    split at releases
    · cases releases
      rfl
    · cases releases
      rfl

/--
In every run a step takes out a stat only when no path names its inode, the
inode is not in memory and nothing refers to it; and every open descriptor has
its metadata.
-/
theorem stats_outlive_names_and_references
    (reachable : boundedMachine.Reachable world) :
    (∀ (step : InodeStep) next ino,
        step.run world = some next →
        (world.db.stats.lookup ino).isSome →
        next.db.stats.lookup ino = none →
        (∀ path, world.db.paths.lookup path ≠ some ino) ∧
          world.inodes.lookup ino = none ∧
          ∀ ref ∈ world.refs, ref.ino ≠ ino) ∧
      ∀ ref ∈ world.refs, ref.isFd = true →
        (world.db.inodeReadStatIfExist ref.ino).isSome := by
  have accounted := accounted_of_reachable reachable
  refine ⟨?_, accounted.fds⟩
  intro step next ino run isStat isGone
  obtain ⟨task, _, isOrphan, noPath⟩ := cleans_of_gone run isStat isGone
  obtain ⟨_, isNone⟩ := accounted.orphaned task ino isOrphan
  refine ⟨noPath, isNone, ?_⟩
  rintro ref isRef rfl
  have isSome := (accounted.lookup_of_ref isRef).2
  rw [isNone] at isSome
  cases isSome

/-- A mount with its root only, before any step. -/
def freshWorld : InodeWorld where
  db := FakeFs.emptyMount.db
  inodes := []
  inodesLock := none
  tasks _ := .idle
  refs := []

/-- An open file that was unlinked keeps its metadata. -/
theorem unlinked_file_keeps_its_stat :
    ∃ world,
      boundedMachine.Reachable world ∧ world.refs = [⟨2, true⟩] ∧
        world.db.paths.lookup [slash, 97] = none ∧
        ∀ ref ∈ world.refs, ref.isFd = true →
          (world.db.inodeReadStatIfExist ref.ino).isSome := by
  have bounded :
      ∀ {world : InodeWorld}, world.refs.length ≤ 1 → world.HostBounded :=
    fun few ino isFd => Nat.lt_of_le_of_lt
      (Nat.le_trans count_le_length few) (Nat.one_lt_two_pow (by decide))
  have fresh : boundedMachine.Reachable freshWorld :=
    .initial ⟨rfl, rfl, fun _ => rfl, rfl⟩
  have opened :=
    fresh.step
      (a := InodeStep.opens 0 [slash, 97] true 0o644#32
        (FakeFs.plainEnv 2 2)) ⟨rfl, bounded (Nat.zero_le 1)⟩
  have locked :=
    opened.step (a := InodeStep.lock 0) ⟨rfl, bounded (Nat.zero_le 1)⟩
  have statted :=
    locked.step (a := InodeStep.fstat 0) ⟨rfl, bounded (Nat.zero_le 1)⟩
  have got :=
    statted.step (a := InodeStep.openGet 0) ⟨rfl, bounded (Nat.le_refl 1)⟩
  have unlinked :=
    got.step (a := InodeStep.unlink 1 [slash, 97])
      ⟨rfl, bounded (Nat.le_refl 1)⟩
  have checked :=
    unlinked.step (a := InodeStep.check 1) ⟨rfl, bounded (Nat.le_refl 1)⟩
  exact ⟨_, checked, rfl, rfl, (stats_outlive_names_and_references checked).2⟩

end InodeWorld

end GuestKernel
