import GuestKernel.CloneTask

namespace GuestKernel
open Function

/-!
# Failing clones

What a `sys_clone` that returns an error leaves behind.  The labels of
`copy_task` give back every count, but nothing undoes the part under
`pids_lock`: after it the failed task stays in the list of threads, and its
new group in the lists of its session and process group.
-/

namespace ProcTable

/-- What was not allocated yet is nowhere in the tables. -/
structure Fresh (w : ProcTable) : Prop where
  live : ∀ {id}, w.nextTask ≤ id → (w.tasks id).live = false
  children : ∀ {id child}, child ∈ (w.tasks id).children → child < w.nextTask
  threads : ∀ {id task}, task ∈ (w.groups id).threads → task < w.nextTask
  refs : ∀ {kind id}, w.nextShared ≤ id → w.refs kind id = 0

/-- A pid that is found is in range and not in use. -/
theorem nextPid_spec
    {pids : Nat → PidEntry}
    {cur pid fuel : Nat}
    (found : nextPid pids cur fuel = some pid) :
    1 ≤ pid ∧ pid ≤ maxPid ∧ (pids pid).isEmpty = true := by
  induction fuel generalizing cur with
  | zero =>
    cases found
  | succ fuel inductionHypothesis =>
    unfold nextPid at found
    dsimp only at found
    by_cases isFree :
        (pids (if maxPid < cur + 1 then 1 else cur + 1)).isEmpty = true
    · rw [if_pos isFree] at found
      cases found
      refine ⟨?_, ?_, isFree⟩
      · by_cases wraps : maxPid < cur + 1
        · rw [if_pos wraps]
        · rw [if_neg wraps]
          exact Nat.le_add_left 1 cur
      · by_cases wraps : maxPid < cur + 1
        · rw [if_pos wraps]
          exact Nat.le_of_ble_eq_true rfl
        · rw [if_neg wraps]
          exact Nat.le_of_not_lt wraps
    · rw [if_neg isFree] at found
      exact inductionHypothesis found

theorem isEmpty_iff {entry : PidEntry} :
    entry.isEmpty = true ↔
      entry.task = none ∧ entry.session = [] ∧ entry.pgroup = [] := by
  unfold PidEntry.isEmpty
  rw [Bool.and_eq_true, Bool.and_eq_true, Option.isNone_iff_eq_none,
    List.isEmpty_iff, List.isEmpty_iff, and_assoc]

theorem refs_retain
    (w : ProcTable)
    (kind other : SharedKind)
    (id number : Nat) :
    (w.retain kind id).refs other number =
      w.refs other number + if other = kind ∧ number = id then 1 else 0 := by
  unfold retain
  by_cases sameKind : other = kind
  · subst sameKind
    by_cases sameId : number = id
    · subst sameId
      simp
    · simp [sameId]
  · simp [sameKind]

theorem refs_release
    (w : ProcTable)
    (kind other : SharedKind)
    (id number : Nat) :
    (w.release kind id).refs other number =
      w.refs other number - if other = kind ∧ number = id then 1 else 0 := by
  unfold release
  by_cases sameKind : other = kind
  · subst sameKind
    by_cases sameId : number = id
    · subst sameId
      simp
    · simp [sameId]
  · simp [sameKind]

theorem refs_copyShared
    (w : ProcTable)
    (task : Nat)
    (kind other : SharedKind)
    (number : Nat) :
    (w.copyShared task kind).refs other number =
      if other = kind ∧ number = w.nextShared then 1
      else w.refs other number := by
  unfold copyShared setTask
  by_cases sameKind : other = kind
  · subst sameKind
    by_cases sameId : number = w.nextShared
    · subst sameId
      simp
    · simp [sameId]
  · simp [sameKind]

theorem shared_copyShared
    (w : ProcTable)
    (task : Nat)
    (kind other : SharedKind) :
    ((w.copyShared task kind).tasks task).shared other =
      if other = kind then w.nextShared else (w.tasks task).shared other := by
  unfold copyShared setTask
  by_cases sameKind : other = kind
  · subst sameKind
    simp
  · simp [sameKind]

/--
A new task holds one reference to each of its tables of some kinds; apart
from that and from the task itself the tables are as they were.
-/
structure Holding
    (before after : ProcTable)
    (task : Nat)
    (kinds : List SharedKind) : Prop where
  pids : after.pids = before.pids
  groups : after.groups = before.groups
  ttys : after.ttys = before.ttys
  tasks : ∀ id, id ≠ task → after.tasks id = before.tasks id
  same :
    ∃ shared, after.tasks task = { before.tasks task with shared := shared }
  nextShared : before.nextShared ≤ after.nextShared
  refs :
    ∀ kind id,
      after.refs kind id =
        before.refs kind id +
          if kind ∈ kinds ∧ (after.tasks task).shared kind = id then 1 else 0

variable {after w before : ProcTable} {task parent : Nat} {flags : BitVec 32}
  {copies : CloneCopies} {kinds : List SharedKind} {kind : SharedKind}
  {result : Option Errno}

/-- One table more. -/
theorem Holding.shareOrCopy
    (holding : Holding before after task kinds)
    (fresh : ∀ {kind id}, before.nextShared ≤ id → before.refs kind id = 0)
    (kind : SharedKind)
    (isNew : kind ∉ kinds)
    (isShared : Bool) :
    Holding before (after.shareOrCopy task kind isShared) task
      (kind :: kinds) := by
  cases isShared with
  | true =>
    refine ⟨holding.pids, holding.groups, holding.ttys, holding.tasks,
      holding.same, holding.nextShared, ?_⟩
    intro other id
    have counted := holding.refs other id
    show (after.retain kind _).refs other id = _
    rw [refs_retain, counted]
    by_cases sameKind : other = kind
    · subst sameKind
      simp [isNew, eq_comm, ProcTable.shareOrCopy, retain]
    · simp [sameKind, ProcTable.shareOrCopy, retain]
  | false =>
    refine ⟨holding.pids, holding.groups, holding.ttys, ?_, ?_, ?_, ?_⟩
    · intro id different
      show update after.tasks task _ id = _
      rw [update_of_ne different]
      exact holding.tasks id different
    · obtain ⟨shared, same⟩ := holding.same
      refine ⟨update shared kind after.nextShared, ?_⟩
      show update after.tasks task _ task = _
      rw [update_self, same]
    · exact Nat.le_succ_of_le holding.nextShared
    · intro other id
      have counted := holding.refs other id
      show (after.copyShared task kind).refs other id = _
      rw [refs_copyShared]
      show _ = before.refs other id +
        if other ∈ kind :: kinds ∧
          ((after.copyShared task kind).tasks task).shared other = id
        then 1 else 0
      rw [shared_copyShared]
      by_cases sameKind : other = kind
      · subst sameKind
        by_cases sameId : id = after.nextShared
        · subst sameId
          simp [fresh holding.nextShared]
        · rw [counted]
          simp [isNew, sameId, Ne.symm sameId]
      · rw [counted]
        simp [sameKind]

/-- One table less. -/
theorem Holding.giveBack
    (holding : Holding before after task (kind :: kinds))
    (isOnce : kind ∉ kinds) :
    Holding before (after.giveBack task kind) task kinds := by
  refine ⟨holding.pids, holding.groups, holding.ttys, holding.tasks,
    holding.same, holding.nextShared, ?_⟩
  intro other id
  have counted := holding.refs other id
  show (after.release kind _).refs other id =
    before.refs other id +
      if other ∈ kinds ∧ (after.tasks task).shared other = id then 1 else 0
  rw [refs_release, counted]
  by_cases sameKind : other = kind
  · subst sameKind
    by_cases sameId : id = (after.tasks task).shared other
    · subst sameId
      simp [isOnce]
    · simp [isOnce, sameId, Ne.symm sameId]
  · simp [sameKind]

/-- A failing copy of a table gives back what was taken. -/
theorem Holding.of_copyTables
    (fresh : ∀ {kind id}, before.nextShared ≤ id → before.refs kind id = 0)
    (run : before.copyTables task flags copies = (result, after)) :
    Holding before after task
      (if result = none then [.sighand, .fs, .files, .mm] else []) := by
  have start : Holding before before task [] :=
    ⟨rfl, rfl, rfl, fun _ _ => rfl, ⟨_, rfl⟩, Nat.le_refl _, fun _ _ => by simp⟩
  have first :=
    start.shareOrCopy fresh .mm List.not_mem_nil
      (hasCloneFlag flags cloneVm)
  unfold copyTables at run
  dsimp only at run
  by_cases noFiles : (hasCloneFlag flags cloneFiles || copies.files) = false
  · rw [if_pos noFiles] at run
    cases run
    exact first.giveBack List.not_mem_nil
  rw [if_neg noFiles] at run
  have second :=
    first.shareOrCopy fresh .files (by decide)
      (hasCloneFlag flags cloneFiles)
  by_cases noFs : (hasCloneFlag flags cloneFs || copies.fs) = false
  · rw [if_pos noFs] at run
    cases run
    exact (second.giveBack (by decide)).giveBack List.not_mem_nil
  rw [if_neg noFs] at run
  have third :=
    second.shareOrCopy fresh .fs (by decide)
      (hasCloneFlag flags cloneFs)
  by_cases noSighand :
      (hasCloneFlag flags cloneSighand || copies.sighand) = false
  · rw [if_pos noSighand] at run
    cases run
    exact ((third.giveBack (by decide)).giveBack (by decide)).giveBack
      List.not_mem_nil
  rw [if_neg noSighand] at run
  cases run
  exact third.shareOrCopy fresh .sighand (by decide)
    (hasCloneFlag flags cloneSighand)

theorem taskCreate_some
    {child : Nat}
    {allocated : Bool}
    (run : w.taskCreate parent allocated = .ok (some child, after)) :
    allocated = true ∧ child = w.nextTask ∧
      ∃ pid,
        (1 ≤ pid ∧ pid ≤ maxPid ∧ (w.pids pid).isEmpty = true) ∧
          after = { w with curPid := pid }.addTask parent pid := by
  unfold taskCreate at run
  cases found : nextPid w.pids w.curPid maxPid with
  | none =>
    rw [found] at run
    cases run
  | some pid =>
    rw [found] at run
    cases allocated with
    | false => cases run
    | true =>
      cases run
      exact ⟨rfl, rfl, pid, nextPid_spec found, rfl⟩

theorem taskCreate_none
    {allocated : Bool}
    (run : w.taskCreate parent allocated = .ok (none, after)) :
    allocated = false ∧
      ∃ pid, after = { w with curPid := pid, pidsLocked := true } := by
  unfold taskCreate at run
  cases found : nextPid w.pids w.curPid maxPid with
  | none =>
    rw [found] at run
    cases run
  | some pid =>
    rw [found] at run
    cases allocated with
    | false =>
      cases run
      exact ⟨rfl, pid, rfl⟩
    | true => cases run

theorem Fresh.refs_addTask
    (fresh : w.Fresh)
    (parent pid : Nat)
    {id : Nat}
    (above : (w.addTask parent pid).nextShared ≤ id) :
    (w.addTask parent pid).refs kind id = 0 :=
  @Fresh.refs w fresh kind id above

theorem pids_addTask (w : ProcTable) (parent pid id : Nat) :
    (w.addTask parent pid).pids id =
      if id = pid then { w.pids id with task := some w.nextTask }
      else w.pids id := by
  show update w.pids pid _ id = _
  by_cases same : id = pid
  · subst same
    rw [update_self, if_pos rfl]
    rfl
  · rw [update_of_ne same, if_neg same]

theorem tasks_addTask
    {id : Nat}
    (old : id < w.nextTask)
    (pid : Nat) :
    (w.addTask parent pid).tasks id =
      if id = parent then
        { w.tasks id with children := w.nextTask :: (w.tasks id).children }
      else w.tasks id := by
  unfold addTask setTask setPidTask
  by_cases same : id = parent
  · subst same
    simp [Nat.ne_of_lt old]
  · simp [same, Nat.ne_of_lt old]

theorem tasks_addTask_new
    (old : parent < w.nextTask)
    (pid : Nat) :
    (w.addTask parent pid).tasks w.nextTask =
      { w.tasks parent with
        live := true
        pid := pid
        parent := some parent
        children := [] } := by
  show update (update w.tasks w.nextTask _) parent _
    w.nextTask = _
  rw [update_of_ne (Nat.ne_of_gt old), update_self]

theorem taskDestroy_ok
    (run : w.taskDestroy task = .ok after) :
    after.pids =
        update w.pids (w.tasks task).pid
          { w.pids (w.tasks task).pid with task := none } ∧
      after.tasks =
        update (w.unlinkSibling task).tasks task
          { (w.unlinkSibling task).tasks task with live := false } ∧
      after.groups = w.groups ∧ after.ttys = w.ttys ∧
        after.refs = w.refs := by
  unfold taskDestroy at run
  cases found : (w.unlinkSibling task).pidDeref
      ((w.unlinkSibling task).tasks task).pid with
  | error trap =>
    dsimp only at run
    rw [found] at run
    cases run
  | ok entry =>
    dsimp only at run
    rw [found] at run
    cases run
    exact ⟨rfl, rfl, rfl, rfl, rfl⟩

/--
Apart from the numbers that were handed out, the tables are as before: in
particular no list and no pid entry has the failed task, which is gone.
-/
structure AsBefore (before after : ProcTable) (child : Nat) : Prop where
  pids : after.pids = before.pids
  groups : after.groups = before.groups
  ttys : after.ttys = before.ttys
  refs : after.refs = before.refs
  tasks : ∀ id, id ≠ child → after.tasks id = before.tasks id
  gone : (after.tasks child).live = false

/-- `copy_task` gets to the part under `pids_lock`. -/
def ReachesGroup (flags : BitVec 32) (copies : CloneCopies) : Prop :=
  cloneFlagsError flags = none ∧ copies.task = true ∧
    (hasCloneFlag flags cloneFiles || copies.files) = true ∧
    (hasCloneFlag flags cloneFs || copies.fs) = true ∧
    (hasCloneFlag flags cloneSighand || copies.sighand) = true

instance (flags : BitVec 32) (copies : CloneCopies) :
    Decidable (ReachesGroup flags copies) := by
  unfold ReachesGroup
  infer_instance

/-- Destroying a new task undoes its creation. -/
theorem AsBefore.of_destroyed
    {copied after : ProcTable}
    {current pid : Nat}
    (fresh : w.Fresh)
    (isTask : current < w.nextTask)
    (isFree : (w.pids pid).isEmpty = true)
    (holding :
      Holding ({ w with curPid := pid }.addTask current pid) copied
        w.nextTask [])
    (destroyed : copied.taskDestroy w.nextTask = .ok after) :
    AsBefore w after w.nextTask := by
  obtain ⟨pids, tasks, groups, ttys, refs⟩ := taskDestroy_ok destroyed
  obtain ⟨shared, same⟩ := holding.same
  have newTask :=
    @tasks_addTask_new { w with curPid := pid } current isTask pid
  have ownPid : (copied.tasks w.nextTask).pid = pid := by
    rw [same]
    exact congrArg ProcTask.pid newTask
  refine ⟨?_, groups.trans holding.groups, ttys.trans holding.ttys, ?_, ?_, ?_⟩
  · rw [pids, ownPid, holding.pids]
    funext id
    by_cases isOwn : id = pid
    · subst isOwn
      rw [update_self, pids_addTask, if_pos rfl]
      have noTask := (isEmpty_iff.mp isFree).1
      show { w.pids id with task := none } = w.pids id
      rw [← noTask]
    · rw [update_of_ne isOwn, pids_addTask, if_neg isOwn]
  · rw [refs]
    funext kind id
    have counted := holding.refs kind id
    rw [if_neg fun held => List.not_mem_nil held.1, Nat.add_zero] at counted
    exact counted
  · intro id different
    rw [tasks, update_of_ne different]
    show { copied.tasks id with
      children := (copied.tasks id).children.erase w.nextTask } = w.tasks id
    rw [holding.tasks id different]
    have notChild : w.nextTask ∉ (w.tasks id).children := fun isChild =>
      Nat.lt_irrefl _ (fresh.children isChild)
    by_cases old : id < w.nextTask
    · rw [@tasks_addTask { w with curPid := pid } current id old pid]
      by_cases isParent : id = current
      · subst isParent
        rw [if_pos rfl]
        show { w.tasks id with
          children := (w.nextTask :: (w.tasks id).children).erase
            w.nextTask } = w.tasks id
        rw [List.erase_cons_head]
      · rw [if_neg isParent, List.erase_of_not_mem notChild]
    · have notParent : id ≠ current := by
        rintro rfl
        exact old isTask
      have plain :
          ({ w with curPid := pid }.addTask current pid).tasks id =
            w.tasks id := by
        unfold addTask setTask setPidTask
        simp [notParent, different]
      rw [plain, List.erase_of_not_mem notChild]
  · rw [tasks, update_self]

/-- `copy_task` before the part under `pids_lock` fails where it says. -/
theorem copyTables_result
    (run : w.copyTables task flags copies = (result, after)) :
    result = none ↔
      (hasCloneFlag flags cloneFiles || copies.files) = true ∧
        (hasCloneFlag flags cloneFs || copies.fs) = true ∧
        (hasCloneFlag flags cloneSighand || copies.sighand) = true := by
  unfold copyTables at run
  dsimp only at run
  by_cases noFiles : (hasCloneFlag flags cloneFiles || copies.files) = false
  · rw [if_pos noFiles] at run
    cases run
    simp [noFiles]
  rw [if_neg noFiles] at run
  by_cases noFs : (hasCloneFlag flags cloneFs || copies.fs) = false
  · rw [if_pos noFs] at run
    cases run
    simp [noFs]
  rw [if_neg noFs] at run
  by_cases noSighand :
      (hasCloneFlag flags cloneSighand || copies.sighand) = false
  · rw [if_pos noSighand] at run
    cases run
    simp [noSighand]
  rw [if_neg noSighand] at run
  cases run
  exact ⟨fun _ =>
    ⟨Bool.eq_true_of_not_eq_false noFiles, Bool.eq_true_of_not_eq_false noFs,
      Bool.eq_true_of_not_eq_false noSighand⟩, fun _ => rfl⟩

theorem mem_threads_enterThreads (w : ProcTable) (task : Nat) :
    task ∈
      ((w.enterThreads task).groups (w.tasks task).group).threads := by
  unfold enterThreads setGroup
  simp

/-- What a failing `copy_task` left before its task is destroyed. -/
theorem copyTask_failed
    {stores : CloneStores}
    {err : Errno}
    (fresh : ∀ {kind id}, w.nextShared ≤ id → w.refs kind id = 0)
    (failed : w.copyTask task flags copies stores = (some err, after)) :
    ((hasCloneFlag flags cloneFiles || copies.files) = true ∧
        (hasCloneFlag flags cloneFs || copies.fs) = true ∧
        (hasCloneFlag flags cloneSighand || copies.sighand) = true) ∧
        (∃ group, task ∈ (after.groups group).threads) ∨
      ¬ ((hasCloneFlag flags cloneFiles || copies.files) = true ∧
        (hasCloneFlag flags cloneFs || copies.fs) = true ∧
        (hasCloneFlag flags cloneSighand || copies.sighand) = true) ∧
        Holding w after task [] := by
  unfold copyTask at failed
  cases tables : w.copyTables task flags copies with
  | mk result copied =>
    have result_iff := copyTables_result tables
    have holding := Holding.of_copyTables fresh tables
    rw [tables] at failed
    cases result with
    | some early =>
      cases failed
      refine .inr ⟨fun reaches => (nomatch result_iff.mpr reaches), ?_⟩
      exact holding
    | none =>
      refine .inl ⟨result_iff.mp rfl, ?_⟩
      dsimp only at failed
      by_cases fails : storesFail flags stores = true
      · rw [if_pos fails] at failed
        cases failed
        exact ⟨_, mem_threads_enterThreads _ task⟩
      · rw [if_neg fails] at failed
        cases failed

/--
A call of `sys_clone` that returns an error leaves everything as before
exactly if it did not get to the part under `pids_lock`.
-/
theorem clone_error_restores_iff
    {w after : ProcTable}
    {current : Nat}
    {flags : BitVec 32}
    {copies : CloneCopies}
    {stores : CloneStores}
    {err : Errno}
    (fresh : w.Fresh)
    (isTask : current < w.nextTask)
    (failed :
      w.sysClone current flags copies stores = .ok (.error err, after)) :
    AsBefore w after w.nextTask ↔ ¬ ReachesGroup flags copies := by
  have unchanged : AsBefore w w w.nextTask :=
    ⟨rfl, rfl, rfl, rfl, fun _ _ => rfl, fresh.live (Nat.le_refl _)⟩
  unfold sysClone at failed
  cases checked : cloneFlagsError flags with
  | some wrong =>
    rw [checked] at failed
    cases failed
    exact iff_of_true unchanged fun reaches =>
      nomatch checked.symm.trans reaches.1
  | none =>
    rw [checked] at failed
    cases created : w.taskCreate current copies.task with
    | error trap =>
      rw [created] at failed
      cases failed
    | ok result =>
      obtain ⟨result, added⟩ := result
      rw [created] at failed
      cases result with
      | none =>
        cases failed
        obtain ⟨notAllocated, pid, rfl⟩ := taskCreate_none created
        exact iff_of_true
          ⟨rfl, rfl, rfl, rfl, fun _ _ => rfl, unchanged.gone⟩
          fun reaches => nomatch notAllocated.symm.trans reaches.2.1
      | some child =>
        obtain ⟨isAllocated, rfl, pid, ⟨_, _, isFree⟩, rfl⟩ :=
          taskCreate_some created
        cases ran :
            ({ w with curPid := pid }.addTask current pid).copyTask
              w.nextTask flags copies stores with
        | mk result copied =>
          dsimp only [bind, Except.bind] at failed
          rw [ran] at failed
          cases result with
          | none => cases failed
          | some wrong =>
            dsimp only at failed
            cases destroyed : copied.taskDestroy w.nextTask with
            | error trap =>
              rw [destroyed] at failed
              cases failed
            | ok last =>
              rw [destroyed] at failed
              cases failed
              have freshTask : ({ w with curPid := pid }).Fresh :=
                ⟨fresh.live, fresh.children, fresh.threads,
                  fresh.refs⟩
              rcases copyTask_failed
                (freshTask.refs_addTask current pid) ran with
                ⟨reaches, group, isThread⟩ | ⟨notReached, holding⟩
              · refine iff_of_false (fun asBefore => ?_)
                  (not_not_intro ⟨checked, isAllocated, reaches⟩)
                have groups := (taskDestroy_ok destroyed).2.2.1
                rw [← groups, asBefore.groups] at isThread
                exact Nat.lt_irrefl _ (fresh.threads isThread)
              · have asBefore :=
                  @AsBefore.of_destroyed w copied after current pid
                    fresh isTask isFree holding destroyed
                exact iff_of_true asBefore fun reaches =>
                  notReached reaches.2.2

/-- Nothing is ahead of the first process. -/
theorem boot_fresh : boot.Fresh where
  live := by
    intro id above
    have notFirst : id ≠ 0 := Nat.ne_of_gt above
    simp [boot, notFirst, ProcTask.zero]
  children := by
    intro id child isChild
    by_cases isFirst : id = 0
    · simp [boot, isFirst, ProcTask.zero] at isChild
    · simp [boot, isFirst, ProcTask.zero] at isChild
  threads := by
    intro id task isThread
    by_cases isFirst : id = 0
    · have isZero : task = 0 := by simpa [boot, isFirst] using isThread
      rw [isZero]
      exact Nat.zero_lt_one
    · simp [boot, isFirst, ProcGroup.zero] at isThread
  refs := by
    intro kind id above
    have notFirst : id ≠ 1 := Nat.ne_of_gt above
    simp [boot, notFirst]

/-- The error of a call, with what it leaves. -/
def cloneFailure
    (result : Except ProcTrap (Except Errno Nat × ProcTable)) :
    Option (Errno × ProcTable) :=
  match result with
  | .ok (.error err, w) => some (err, w)
  | _ => none

theorem exists_of_cloneFailure
    {α : Type}
    {result : Except ProcTrap (Except Errno Nat × ProcTable)}
    {look : Errno × ProcTable → α}
    {value : α}
    (failed : (cloneFailure result).map look = some value) :
    ∃ err after,
      result = .ok (.error err, after) ∧ look (err, after) = value := by
  obtain ⟨⟨err, after⟩, found, looks⟩ := Option.map_eq_some_iff.mp failed
  unfold cloneFailure at found
  split at found
  · cases found
    exact ⟨err, after, rfl, looks⟩
  · cases found

/-- A fork without memory for `fs` is undone. -/
theorem fork_without_fs_is_undone :
    ∃ err after,
      boot.sysClone 0 0x11#32 ⟨true, true, false, true⟩ ⟨true, true, true⟩ =
          .ok (.error err, after) ∧
        AsBefore boot after 1 := by
  obtain ⟨err, after, failed, _⟩ :=
    @exists_of_cloneFailure Errno
      (boot.sysClone 0 0x11#32 ⟨true, true, false, true⟩ ⟨true, true, true⟩)
      Prod.fst .nomem (by decide +kernel)
  refine ⟨err, after, failed, ?_⟩
  exact (clone_error_restores_iff boot_fresh Nat.zero_lt_one failed).mpr
    (by decide)

/--
A fork that cannot store the thread id leaves its group in the lists of the
session and process group, with the freed task as its thread.
-/
theorem failed_fork_stays_linked :
    ∃ after,
      boot.sysClone 0 (cloneChildSettid ||| 0x11#32) ⟨true, true, true, true⟩
          ⟨true, false, true⟩ = .ok (.error .fault, after) ∧
        (after.tasks 1).live = false ∧
        (after.groups 1).threads = [1] ∧
        (after.pids 1).session = [0, 1] ∧
        (after.pids 1).pgroup = [0, 1] := by
  obtain ⟨err, after, failed, looks⟩ :=
    @exists_of_cloneFailure _
      (boot.sysClone 0 (cloneChildSettid ||| 0x11#32)
        ⟨true, true, true, true⟩ ⟨true, false, true⟩)
      (fun result =>
        (result.1, (result.2.tasks 1).live, (result.2.groups 1).threads,
          (result.2.pids 1).session, (result.2.pids 1).pgroup))
      (.fault, false, [1], [0, 1], [0, 1]) (by decide +kernel)
  simp only [Prod.mk.injEq] at looks
  obtain ⟨rfl, isLooks⟩ := looks
  exact ⟨after, failed, isLooks⟩

end ProcTable

end GuestKernel
