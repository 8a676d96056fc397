import GuestKernel.CloneTask

namespace GuestKernel
open List Function

/-!
# Waiting for children

`do_wait` of `kernel/exit.c`.  Children hang off the thread that made or
inherited them; the scan for any child walks over the threads of the group, but
looks at the children of the current task each time.
-/

/-- The process table, and the fields of tasks and groups that waits read. -/
structure ReapWorld where
  table : ProcTable
  exitCode : Nat → BitVec 32
  doingGroupExit : Nat → Bool
  stopped : Nat → Bool
  groupExitCode : Nat → BitVec 32
  ptraceStopped : Nat → Bool
  ptraceSignal : Nat → BitVec 32

/-- Options of a wait: `WNOHANG_`, `WUNTRACED_`, `WEXITED_`, `WNOWAIT_`. -/
structure WaitOptions where
  bits : BitVec 32
  deriving Repr, DecidableEq

namespace WaitOptions

/-- `WNOHANG_`. -/
def nohang (options : WaitOptions) : Bool :=
  options.bits.getLsbD 0

/-- `WUNTRACED_`. -/
def untraced (options : WaitOptions) : Bool :=
  options.bits.getLsbD 1

/-- `WEXITED_`. -/
def exited (options : WaitOptions) : Bool :=
  options.bits.getLsbD 2

/-- `WNOWAIT_`. -/
def nowait (options : WaitOptions) : Bool :=
  options.bits.getLsbD 24

/-- Only options that `do_wait` knows, with `WCONTINUED_` and `__WALL_`. -/
def known (options : WaitOptions) : Bool :=
  options.bits &&& ~~~0x4100000f#32 = 0

end WaitOptions

/-- `idtype` and `id`: `P_ALL_`, `P_PID_` and `P_PGID_`. -/
inductive WaitTarget where
  | all
  | pid (id : Nat)
  | pgid (id : Nat)
  deriving Repr, DecidableEq

/-- `wait4(-1)`, or `wait4` of a process group. -/
def WaitTarget.anyOf : Option Nat → WaitTarget
  | none => .all
  | some id => .pgid id

/-- A report: the status, and what is left, if the table is sound. -/
abbrev WaitReport := Except ProcTrap (BitVec 32 × ReapWorld)

namespace ReapWorld

variable (w : ReapWorld)

/-- `task->group`. -/
def groupOf (task : Nat) : Nat :=
  (w.table.tasks task).group

/-- `task_is_leader`. -/
def isLeader (task : Nat) : Bool :=
  (w.table.groups (w.groupOf task)).leader = task

/-- `notify_if_stopped`; `none` is false. -/
def notifyIfStopped (task : Nat) : Option WaitReport :=
  let group := w.groupOf task
  if !w.stopped group || w.groupExitCode group = 0 then
    none
  else
    some (.ok (w.groupExitCode group,
      { w with
        groupExitCode := update w.groupExitCode group 0 }))

/-- `reap_if_zombie`; `none` is false. -/
def reapIfZombie (task : Nat) (options : WaitOptions) : Option WaitReport :=
  if (w.table.tasks task).zombie then
    let group := w.groupOf task
    let status :=
      if w.doingGroupExit group then w.groupExitCode group
      else w.exitCode task
    some ((w.table.reapIfZombie task options.nowait).map fun after =>
      (status, { w with table := after.2 }))
  else
    none

/-- The report of a stop for the debugger. -/
def reportPtraceStop (task : Nat) : Option WaitReport :=
  if w.ptraceStopped task && w.ptraceSignal task ≠ 0 then
    some (.ok (w.ptraceSignal task <<< 8 ||| 0x7f#32,
      { w with ptraceSignal := update w.ptraceSignal task 0 }))
  else
    none

/-- `reap_if_needed`; `none` is false. -/
def reapIfNeeded (task : Nat) (options : WaitOptions) : Option WaitReport :=
  ((if options.untraced then w.notifyIfStopped task else none).or
    (if options.exited then w.reapIfZombie task options else none)).or
      (w.reportPtraceStop task)

/-- The child passes the `continue`s of the scan. -/
def Matches (target : WaitTarget) (task : Nat) : Bool :=
  w.isLeader task &&
    match target with
    | .pgid id => (w.table.groups (w.groupOf task)).pgid = id
    | _ => true

/-- The end of a scan: a report of a child, or `no_children`. -/
inductive Scan where
  | found (pid : Nat) (report : WaitReport)
  | passed (noChildren : Bool)

/-- The inner loop of the scan. -/
def scanChildren
    (target : WaitTarget) (options : WaitOptions) (noChildren : Bool) :
    List Nat → Scan
  | [] => .passed noChildren
  | task :: rest =>
    if w.Matches target task then
      match w.reapIfNeeded task options with
      | some report => .found (w.table.tasks task).pid report
      | none => scanChildren target options false rest
    else
      scanChildren target options noChildren rest

/-- The outer loop, over the threads of the group of `current`. -/
def scanThreads
    (current : Nat)
    (target : WaitTarget)
    (options : WaitOptions)
    (noChildren : Bool) : List Nat → Scan
  | [] => .passed noChildren
  | _parent :: rest =>
    match
      w.scanChildren target options noChildren
        (w.table.tasks current).children with
    | .found pid report => .found pid report
    | .passed noChildren =>
      scanThreads current target options noChildren rest

/-- What one round of `do_wait` comes to. -/
inductive Round where
  | found (pid : Nat) (report : WaitReport)
  | noChild
  | nothing
  | trapped (trap : ProcTrap)

/-- A round of `do_wait`, from `retry` on. -/
def waitRound
    (current : Nat) (target : WaitTarget) (options : WaitOptions) : Round :=
  match target with
  | .pid id =>
    match w.table.waitedPid current id with
    | .error trap => .trapped trap
    | .ok none => .noChild
    | .ok (some task) =>
      match w.reapIfNeeded task options with
      | some report => .found id report
      | none => .nothing
  | _ =>
    match
      w.scanThreads current target options true
        (w.table.groups (w.groupOf current)).threads with
    | .found pid report => .found pid report
    | .passed true => .noChild
    | .passed false => .nothing

/-- How `do_wait` ends; `info->child.pid` is 0 without a child. -/
inductive WaitEnd where
  | found (pid : Nat) (report : WaitReport)
  | noPid
  | error (err : Errno)
  | trapped (trap : ProcTrap)
  | sleeping

/-- The end of a round; `later` is what comes of a sleep. -/
def Round.finish
    (options : WaitOptions) (gotSignal : Bool) (later : WaitEnd) :
    Round → WaitEnd
  | .found pid report => .found pid report
  | .noChild => .error .child
  | .trapped trap => .trapped trap
  | .nothing =>
    if options.nohang then .noPid
    else if gotSignal then .error .intr
    else later

/--
`do_wait`, from `retry` on: the sleeps that end, with whether `wait_for` was
interrupted, and the world after each.
-/
def waitLoop
    (current : Nat) (target : WaitTarget) (options : WaitOptions)
    (w : ReapWorld) (gotSignal : Bool) :
    List (Bool × ReapWorld) → WaitEnd
  | [] =>
    (w.waitRound current target options).finish options gotSignal .sleeping
  | (signal, next) :: rest =>
    (w.waitRound current target options).finish options gotSignal
      (waitLoop current target options next signal rest)

/-- `do_wait`, of an `idtype` that it knows. -/
def doWait
    (current : Nat)
    (target : WaitTarget)
    (options : WaitOptions)
    (sleeps : List (Bool × ReapWorld)) : WaitEnd :=
  if options.known then waitLoop current target options w false sleeps
  else .error .inval

/-- `reap_if_needed` reports the child. -/
def Reportable (options : WaitOptions) (task : Nat) : Prop :=
  (w.reapIfNeeded task options).isSome = true

/-- The task is a thread of the group of `current`. -/
def SameGroup (current thread : Nat) : Prop :=
  w.groupOf thread = w.groupOf current ∧
    thread ∈ (w.table.groups (w.groupOf current)).threads

/-- A thread of the group has a child that a wait for the target is about. -/
def GroupHasChild (current : Nat) (target : WaitTarget) : Prop :=
  ∃ thread child,
    w.SameGroup current thread ∧
      child ∈ (w.table.tasks thread).children ∧
      w.Matches target child = true

/-- A wait for one pid reports a child that the target is about. -/
def ReportsOne
    (current : Nat) (target : WaitTarget) (options : WaitOptions) : Prop :=
  ∃ id child parent report,
    w.table.waitedPid current id = .ok (some child) ∧
      (w.table.tasks child).parent = some parent ∧
      w.groupOf parent = w.groupOf current ∧
      w.Matches target child = true ∧
      w.doWait current (.pid id) options [] = .found id report

/--
A wait for any child, or any of a process group, by any thread of the group
reports a child if a wait for one pid does, and finds no child only if no
thread of the group has one.
-/
def GroupWaits
    (current : Nat) (pgid : Option Nat) (options : WaitOptions) : Prop :=
  ∀ thread, w.SameGroup current thread →
    (w.ReportsOne current (.anyOf pgid) options →
        ∀ sleeps, ∃ pid report,
          w.doWait thread (.anyOf pgid) options sleeps = .found pid report) ∧
      (w.doWait thread (.anyOf pgid) options [] = .error .child →
        ¬w.GroupHasChild current (.anyOf pgid))

/-- A thread of the group has such a child, and it can be reported. -/
def GroupHasReport
    (current : Nat) (target : WaitTarget) (options : WaitOptions) : Prop :=
  ∃ id child parent,
    w.table.waitedPid current id = .ok (some child) ∧
      (w.table.tasks child).parent = some parent ∧
      w.groupOf parent = w.groupOf current ∧
      w.Matches target child = true ∧ w.Reportable options child

/-- The thread has a child itself if its group is to find one. -/
def OwnChildSuits
    (current : Nat)
    (target : WaitTarget)
    (options : WaitOptions)
    (thread : Nat) : Prop :=
  options.known = true →
    (w.GroupHasReport current target options →
        ∃ child ∈ (w.table.tasks thread).children,
          w.Matches target child = true ∧ w.Reportable options child) ∧
      (w.GroupHasChild current target →
        ∃ child ∈ (w.table.tasks thread).children,
          w.Matches target child = true)

section Scans

variable
  {w : ReapWorld}
  {current : Nat}
  {target : WaitTarget}
  {options : WaitOptions}

variable {children : List Nat}

/-- A scan reports a child if there is one to report. -/
theorem scanChildren_found
    (reportable :
      ∃ child ∈ children,
        w.Matches target child = true ∧ w.Reportable options child)
    (noChildren : Bool) :
    ∃ pid report,
      w.scanChildren target options noChildren children =
        .found pid report := by
  induction children generalizing noChildren with
  | nil =>
    obtain ⟨_, impossible, _⟩ := reportable
    cases impossible
  | cons first rest inductionHypothesis =>
    unfold scanChildren
    cases isMatch : w.Matches target first with
    | false =>
      obtain ⟨child, member, matches_, reports⟩ := reportable
      rcases mem_cons.mp member with rfl | inRest
      · cases isMatch.symm.trans matches_
      · exact inductionHypothesis ⟨child, inRest, matches_, reports⟩ _
    | true =>
      simp only [if_true]
      cases reaps : w.reapIfNeeded first options with
      | some report =>
        exact ⟨_, report, rfl⟩
      | none =>
        obtain ⟨child, member, matches_, reports⟩ := reportable
        rcases mem_cons.mp member with rfl | inRest
        · rw [Reportable, reaps] at reports
          cases reports
        · exact inductionHypothesis ⟨child, inRest, matches_, reports⟩ _

/-- A scan without a report says whether there was a child at all. -/
theorem scanChildren_passed
    (quiet :
      ∀ child ∈ children,
        w.Matches target child = true → ¬w.Reportable options child)
    (noChildren : Bool) :
    w.scanChildren target options noChildren children =
      .passed (noChildren && !children.any (w.Matches target)) := by
  induction children generalizing noChildren with
  | nil =>
    simp [scanChildren]
  | cons first rest inductionHypothesis =>
    have later := inductionHypothesis
      (fun child member => quiet child (mem_cons_of_mem _ member))
    unfold scanChildren
    cases isMatch : w.Matches target first with
    | false =>
      simp [later, isMatch]
    | true =>
      have notReaped : w.reapIfNeeded first options = none :=
        Option.not_isSome_iff_eq_none.mp
          (quiet first mem_cons_self isMatch)
      simp [notReaped, later, isMatch]

/-- The outer loop makes no difference. -/
theorem scanThreads_eq
    {threads : List Nat}
    (nonempty : threads ≠ []) :
    (∃ pid report,
        w.scanThreads current target options true threads =
            .found pid report ∧
          ∃ child ∈ (w.table.tasks current).children,
            w.Matches target child = true ∧ w.Reportable options child) ∨
      w.scanThreads current target options true threads =
          .passed
            (!(w.table.tasks current).children.any (w.Matches target)) ∧
        ∀ child ∈ (w.table.tasks current).children,
          w.Matches target child = true → ¬w.Reportable options child := by
  by_cases reportable :
      ∃ child ∈ (w.table.tasks current).children,
        w.Matches target child = true ∧ w.Reportable options child
  · cases threads with
    | nil => exact absurd rfl nonempty
    | cons first rest =>
      obtain ⟨pid, report, found⟩ := scanChildren_found reportable true
      refine .inl ⟨pid, report, ?_, reportable⟩
      unfold scanThreads
      rw [found]
  · have quiet :
        ∀ child ∈ (w.table.tasks current).children,
          w.Matches target child = true → ¬w.Reportable options child :=
      fun child member matches_ reports =>
        reportable ⟨child, member, matches_, reports⟩
    refine .inr ⟨?_, quiet⟩
    -- after the first thread, the scan comes to the same again
    have again :
        ∀ rest : List Nat,
          w.scanThreads current target options
              (!(w.table.tasks current).children.any (w.Matches target)) rest =
            .passed
              (!(w.table.tasks current).children.any (w.Matches target)) := by
      intro rest
      induction rest with
      | nil =>
        rfl
      | cons thread rest inductionHypothesis =>
        unfold scanThreads
        rw [scanChildren_passed quiet, Bool.and_self]
        exact inductionHypothesis
    cases threads with
    | nil => exact absurd rfl nonempty
    | cons first rest =>
      unfold scanThreads
      rw [scanChildren_passed quiet, Bool.true_and]
      exact again rest

theorem doWait_of_unknown
    (unknown : options.known = false)
    (sleeps : List (Bool × ReapWorld)) :
    w.doWait current target options sleeps = .error .inval := by
  rw [doWait, unknown, if_neg Bool.false_ne_true]

theorem doWait_nil
    (known : options.known = true) :
    w.doWait current target options [] =
      (w.waitRound current target options).finish options false .sleeping := by
  rw [doWait, if_pos known]
  rfl

theorem doWait_of_known
    (known : options.known = true)
    (sleeps : List (Bool × ReapWorld)) :
    ∃ later,
      w.doWait current target options sleeps =
        (w.waitRound current target options).finish options false later := by
  rw [doWait, if_pos known]
  cases sleeps with
  | nil | cons sleep rest => exact ⟨_, rfl⟩

/-- A wait for one pid reports exactly the children that can be reported. -/
theorem reportsOne_iff
    (known : options.known = true) :
    w.ReportsOne current target options ↔
      w.GroupHasReport current target options := by
  have reports :
      ∀ id child,
        w.table.waitedPid current id = .ok (some child) →
        ((∃ report, w.doWait current (.pid id) options [] = .found id report) ↔
          w.Reportable options child) := by
    intro id child isWaited
    rw [doWait_nil known]
    unfold waitRound Reportable
    simp only [isWaited]
    cases w.reapIfNeeded child options with
    | some report => simp [Round.finish]
    | none =>
      simp only [Round.finish, Option.isSome_none, Bool.false_eq_true,
        iff_false]
      split <;> simp
  constructor
  · rintro ⟨id, child, parent, report, isWaited, isParent, sameGroup, isMatch,
      found⟩
    exact ⟨id, child, parent, isWaited, isParent, sameGroup, isMatch,
      (reports id child isWaited).mp ⟨report, found⟩⟩
  · rintro ⟨id, child, parent, isWaited, isParent, sameGroup, isMatch,
      isReport⟩
    obtain ⟨report, found⟩ := (reports id child isWaited).mpr isReport
    exact ⟨id, child, parent, report, isWaited, isParent, sameGroup, isMatch,
      found⟩

end Scans

theorem waitRound_anyOf
    (w : ReapWorld)
    (thread : Nat)
    (pgid : Option Nat)
    (options : WaitOptions) :
    w.waitRound thread (.anyOf pgid) options =
      match
        w.scanThreads thread (.anyOf pgid) options true
          (w.table.groups (w.groupOf thread)).threads with
      | .found pid report => .found pid report
      | .passed true => .noChild
      | .passed false => .nothing := by
  cases pgid <;> rfl

/--
Every wait by a thread of the group finds what the group is to find exactly if
the thread has such a child itself, wherever the group has one.
-/
theorem groupWaits_iff
    (w : ReapWorld)
    (current : Nat)
    (pgid : Option Nat)
    (options : WaitOptions) :
    w.GroupWaits current pgid options ↔
      ∀ thread, w.SameGroup current thread →
        w.OwnChildSuits current (.anyOf pgid) options thread := by
  refine forall₂_congr fun thread same => ?_
  unfold OwnChildSuits
  cases known : options.known with
  | false =>
    refine iff_of_true ⟨fun reports => ?_, fun ended => ?_⟩
      fun impossible => by cases impossible
    · obtain ⟨_, _, _, _, _, _, _, _, found⟩ := reports
      rw [doWait_of_unknown known] at found
      cases found
    · rw [doWait_of_unknown known] at ended
      cases ended
  | true =>
    have nonempty :
        (w.table.groups (w.groupOf thread)).threads ≠ [] := by
      rw [same.1]
      exact ne_nil_of_mem same.2
    have isRound := w.waitRound_anyOf thread pgid options
    rw [forall_prop_of_true rfl]
    rcases @scanThreads_eq w thread (.anyOf pgid) options _ nonempty with
      ⟨pid, report, scanned, own⟩ | ⟨scanned, quiet⟩
    · rw [scanned] at isRound
      have found :
          ∀ sleeps,
            w.doWait thread (.anyOf pgid) options sleeps =
              .found pid report := by
        intro sleeps
        obtain ⟨later, ended⟩ :=
          @doWait_of_known w thread (.anyOf pgid) _ known sleeps
        rw [ended, isRound]
        rfl
      refine iff_of_true
        ⟨fun _ sleeps => ⟨pid, report, found sleeps⟩, fun ended => ?_⟩
        ⟨fun _ => own, fun _ => ?_⟩
      · rw [found] at ended
        cases ended
      · obtain ⟨child, member, matches_, _⟩ := own
        exact ⟨child, member, matches_⟩
    · rw [scanned] at isRound
      have ended := @doWait_nil w thread (.anyOf pgid) _ known
      rw [isRound] at ended
      have notFound :
          ¬∃ pid report,
            w.doWait thread (.anyOf pgid) options [] =
              .found pid report := by
        rintro ⟨pid, report, found⟩
        rw [ended] at found
        cases noOwn :
            (w.table.tasks thread).children.any
              (w.Matches (.anyOf pgid)) with
        | false =>
          simp [noOwn, Round.finish] at found
        | true =>
          simp only [noOwn, Bool.not_true, Round.finish] at found
          split at found <;> cases found
      have noChild_iff :
          w.doWait thread (.anyOf pgid) options [] = .error .child ↔
            ¬∃ child ∈ (w.table.tasks thread).children,
              w.Matches (.anyOf pgid) child = true := by
        rw [ended, ← List.any_eq_true]
        cases noOwn :
            (w.table.tasks thread).children.any
              (w.Matches (.anyOf pgid)) with
        | false =>
          simp [Round.finish]
        | true =>
          refine iff_of_false (fun noChild => ?_) (fun none => none rfl)
          simp only [Bool.not_true, Round.finish] at noChild
          split at noChild <;> cases noChild
      refine and_congr ?_ ?_
      · refine imp_congr (reportsOne_iff known) (iff_of_false ?_ ?_)
        · exact fun found => notFound (found [])
        · rintro ⟨child, member, matches_, reports⟩
          exact quiet child member matches_ reports
      · rw [noChild_iff]
        exact not_imp_not

/-- Init starts a thread, which forks a child, which exits. -/
def threadsChild : Except ProcTrap ProcTable := do
  let copies : CloneCopies := ⟨true, true, true, true⟩
  let stores : CloneStores := ⟨true, true, true⟩
  let (_, table) ←
    ProcTable.boot.sysClone 0 (cloneVm ||| cloneSighand ||| cloneThread)
      copies stores
  let (_, table) ← table.sysClone 1 0 copies stores
  let (_, table) ← table.doExit 2
  pure table

/-- The world in which the child waits to be reaped. -/
def threadsChildWorld : ReapWorld where
  table := threadsChild.toOption.getD .boot
  exitCode _ := 0
  doingGroupExit _ := false
  stopped _ := false
  groupExitCode _ := 0
  ptraceStopped _ := false
  ptraceSignal _ := 0

/-- The wait ends with `_ECHILD`. -/
private def WaitEnd.isNoChild : WaitEnd → Bool
  | .error .child => true
  | _ => false

private theorem WaitEnd.eq_of_isNoChild
    {ended : WaitEnd}
    (isNoChild : ended.isNoChild = true) :
    ended = .error .child := by
  unfold WaitEnd.isNoChild at isNoChild
  split at isNoChild
  · rfl
  · cases isNoChild

/-- `wait4(-1)` of init says that it has no child. -/
theorem zombie_of_thread_is_not_found :
    ¬threadsChildWorld.GroupWaits 0 none ⟨4#32⟩ := by
  intro waits
  have same : threadsChildWorld.SameGroup 0 0 := by
    unfold SameGroup
    decide +kernel
  have noChild :
      threadsChildWorld.doWait 0 .all ⟨4#32⟩ [] = .error .child :=
    WaitEnd.eq_of_isNoChild (by decide +kernel)
  refine (waits 0 same).2 noChild ⟨1, 2, ?_, ?_, ?_⟩
  · unfold SameGroup
    decide +kernel
  · decide +kernel
  · decide +kernel

end ReapWorld

end GuestKernel
