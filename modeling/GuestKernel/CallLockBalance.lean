import GuestKernel.CallLocks

namespace GuestKernel
open Locking

/-!
# Calls that return with the locks they began with

The helpers of the `kill` family restore the locks.  Of the calls, each but
`tkill` and `tgkill` has an end that keeps a lock, or gives back one too many.
-/

open Locking (Restores)

namespace CallWorld

variable (world : CallWorld)

theorem retryWakeUp_restores
    (task times : Nat)
    (held : List CallLock) :
    Restores (retryWakeUp task times) held := by
  induction times with
  | zero =>
    exact .pure () held
  | succ more inductionHypothesis =>
    obtain ⟨value, ran⟩ := inductionHypothesis
    exact ⟨value, by simp [retryWakeUp, ran]⟩

theorem wakeUp_restores
    (task : Nat)
    (held : List CallLock) :
    Restores (world.wakeUp task) held := by
  refine (retryWakeUp_restores task _ held).bind fun _ => ?_
  cases (world.tasks task).wake <;> exact ⟨(), by simp⟩

section

variable
  (task : Nat)
  (sig : BitVec 32)
  (held : List CallLock)
include task sig held

/-- The delivery gives the lock of the `sighand` back, and takes it again. -/
theorem deliverSignalUnlocked_restores :
    Restores (world.deliverSignalUnlocked task sig)
      (.sighand (world.tasks task).sighand :: held) := by
  obtain ⟨value, woken⟩ := world.wakeUp_restores task held
  simp only [deliverSignalUnlocked]
  split
  · exact .pure _ _
  split
  · exact .pure _ _
  split
  · exact .pure _ _
  · exact ⟨(), by simp [woken]⟩

theorem sendSignal_restores :
    Restores (world.sendSignal task sig) held := by
  obtain ⟨value, delivered⟩ :=
    world.deliverSignalUnlocked_restores task sig held
  simp only [sendSignal]
  split
  · exact .pure _ _
  split
  · exact .pure _ _
  · split <;> split <;> exact ⟨(), by simp [delivered]⟩

theorem killTask_restores :
    Restores (world.killTask task sig) held := by
  simp only [killTask]
  split
  · exact .pure _ _
  · exact (world.sendSignal_restores task sig held).bind fun _ => .pure _ _

end

theorem killAnother_restores
    (sig : BitVec 32)
    (err : Except Errno Unit)
    (task : Nat)
    (held : List CallLock) :
    Restores (world.killAnother sig err task) held :=
  (world.killTask_restores task sig held).bind fun _ => .pure _ _

theorem killNumber_restores
    (sig : BitVec 32)
    (err : Except Errno Unit)
    (i : Nat)
    (held : List CallLock) :
    Restores (world.killNumber sig err i) held := by
  unfold killNumber
  split
  · exact .pure _ _
  · split
    · exact .pure _ _
    · exact world.killAnother_restores sig err _ held

theorem killEverything_restores
    (sig : BitVec 32)
    (held : List CallLock) :
    Restores (world.killEverything sig) held :=
  .foldlM (fun err i => world.killNumber_restores sig err i held) _ _

theorem killGroup_restores
    {pgid : BitVec 32}
    {leaders : List Nat}
    (found : world.pidGet pgid = some leaders)
    (sig : BitVec 32)
    (held : List CallLock) :
    Restores (world.killGroup pgid sig) held := by
  simp only [killGroup, found]
  exact .foldlM (fun err task => world.killAnother_restores sig err task held)
    _ _

theorem killOne_restores
    (pid sig tgid : BitVec 32)
    (held : List CallLock) :
    ∃ err, world.killOne pid sig tgid (.pids :: held) = some (err, held) := by
  simp only [killOne]
  cases world.pidGetTask pid with
  | none =>
    exact ⟨.error .srch, by simp⟩
  | some task =>
    obtain ⟨err, killed⟩ := world.killTask_restores task sig (.pids :: held)
    by_cases other : tgid ≠ 0 ∧ (world.tasks task).tgid ≠ tgid
    · exact ⟨.error .srch, by simp only [if_pos other]; simp⟩
    · exact ⟨err, by simp only [if_neg other]; simp [killed]⟩

/-- The group that a pid means is there, if it means one. -/
def GroupFound (pid : BitVec 32) : Prop :=
  pid ≠ -1 → pid.toInt < 0 → world.pidGet (-pid) ≠ none

/-- `do_kill` restores the locks exactly if the group is there. -/
theorem killPid_restores_iff
    (pid sig tgid : BitVec 32)
    (held : List CallLock) :
    Restores (world.killPid pid sig tgid) held ↔ world.GroupFound pid := by
  by_cases every : pid = -1
  · refine iff_of_true ?_ fun notEvery => absurd every notEvery
    have same : world.killPid pid sig tgid = (do
        lock .pids
        let err ← world.killEverything sig
        unlock .pids
        pure err) := by
      simp only [killPid, if_pos every]
    rw [same]
    exact (world.killEverything_restores sig _).around
  · by_cases negative : pid.toInt < 0
    · have same : world.killPid pid sig tgid = (do
          lock .pids
          let err ← world.killGroup (-pid) sig
          unlock .pids
          pure err) := by
        simp only [killPid, if_neg every, if_pos negative]
      rw [same]
      cases found : world.pidGet (-pid) with
      | none =>
        refine iff_of_false ?_ fun isFound =>
          isFound every negative found
        have double :
            (do
              lock .pids
              let err ← world.killGroup (-pid) sig
              unlock .pids
              pure err : LockingCall) held =
              (do
                unlock .pids
                pure (.error .srch) : LockingCall) held := by
          simp [killGroup, found]
        unfold Restores
        rw [double]
        exact not_restores_unlock _ _ held
      | some leaders =>
        refine iff_of_true ?_ fun _ _ => by simp [found]
        exact (world.killGroup_restores found sig _).around
    · refine iff_of_true ?_ fun _ isNegative => absurd isNegative negative
      obtain ⟨err, killed⟩ := world.killOne_restores pid sig tgid held
      have same : world.killPid pid sig tgid = (do
          lock .pids
          world.killOne pid sig tgid) := by
        simp only [killPid, if_neg every, if_neg negative]
      rw [same]
      exact ⟨err, by simp [killed]⟩

/-- The stack that `sys_sigaltstack` gets to is not too small. -/
def StackSuits (ssAddr oldSsAddr : BitVec 32) : Prop :=
  (oldSsAddr ≠ 0 → world.userPut oldSsAddr = false) → ssAddr ≠ 0 →
    isOnAltstack world.self.esp world.self.hand = false →
    ∀ ss, world.getStack ssAddr = some ss →
    ss.flags &&& ssDisable = 0 → minsigstksz ≤ ss.size

/-- `sys_sigaltstack` restores the locks exactly if the stack suits. -/
theorem sysSigaltstack_restores_iff
    (ssAddr oldSsAddr : BitVec 32)
    (held : List CallLock) :
    Restores (world.sysSigaltstack ssAddr oldSsAddr) held ↔
      world.StackSuits ssAddr oldSsAddr := by
  unfold StackSuits
  simp only [sysSigaltstack]
  by_cases faults : oldSsAddr ≠ 0 ∧ world.userPut oldSsAddr = true
  · simp only [if_pos faults]
    refine iff_of_true ⟨.error .fault, by simp⟩ fun put => ?_
    rw [put faults.1] at faults
    cases faults.2
  · simp only [if_neg faults]
    have put : oldSsAddr ≠ 0 → world.userPut oldSsAddr = false :=
      fun asked => Bool.of_not_eq_true fun fault => faults ⟨asked, fault⟩
    by_cases asked : ssAddr ≠ 0
    · simp only [if_pos asked]
      cases onStack : isOnAltstack world.self.esp world.self.hand with
      | true =>
        exact iff_of_true ⟨.error .perm, by simp⟩
          fun _ _ impossible => by cases impossible
      | false =>
        cases got : world.getStack ssAddr with
        | none =>
          exact iff_of_true ⟨.error .fault, by simp⟩
            fun _ _ _ _ impossible => by cases impossible
        | some ss =>
          by_cases small :
              ss.flags &&& ssDisable = 0 ∧ ss.size < minsigstksz
          · simp only [if_pos small]
            refine iff_of_false ?_ fun suits => ?_
            · exact not_restores_of_held rfl
                (List.cons_ne_self _ _)
            · exact absurd (suits put asked trivial ss rfl small.1)
                (BitVec.not_le.mpr small.2)
          · simp only [if_neg small]
            refine iff_of_true ⟨.ok (), by simp⟩ ?_
            intro _ _ _ other isOther enabled
            cases isOther
            exact BitVec.not_lt.mp fun tooSmall =>
              small ⟨enabled, tooSmall⟩
    · simp only [if_neg asked]
      exact iff_of_true ⟨.ok (), by simp⟩ fun _ isAsked => absurd isAsked asked

theorem createTimer_restores
    (timerAddr : BitVec 32)
    (held : List CallLock) :
    Restores (world.createTimer timerAddr) held := by
  simp only [createTimer]
  cases world.self.timers.freeSlot with
  | none =>
    exact ⟨.error .nomem, by simp⟩
  | some _ =>
    cases world.userPut timerAddr with
    | true => exact ⟨.error .fault, by simp⟩
    | false => exact ⟨.ok (), by simp⟩

/-- The thread that a timer is to signal is there. -/
def ThreadFound (clock sigeventAddr : BitVec 32) : Prop :=
  isRealClock clock = true →
    ∀ sigev, world.getSigevent sigeventAddr = some sigev →
    sigev.method = 4 → world.pidGetTask sigev.tid ≠ none

/-- `sys_timer_create` restores the locks exactly if the thread is there. -/
theorem sysTimerCreate_restores_iff
    (clock sigeventAddr timerAddr : BitVec 32)
    (held : List CallLock) :
    Restores (world.sysTimerCreate clock sigeventAddr timerAddr) held ↔
      world.ThreadFound clock sigeventAddr := by
  unfold ThreadFound sysTimerCreate
  cases isRealClock clock with
  | false =>
    exact iff_of_true (.pure _ _) fun impossible => by cases impossible
  | true =>
    cases world.getSigevent sigeventAddr with
    | none =>
      exact iff_of_true (.pure _ _)
        fun _ _ impossible => by cases impossible
    | some sigev =>
      have single :
          (true = true →
            ∀ other, some sigev = some other →
            other.method = 4 → world.pidGetTask other.tid ≠ none) ↔
            (sigev.method = 4 → world.pidGetTask sigev.tid ≠ none) :=
        ⟨fun all => all rfl sigev rfl,
          fun found _ _ same => by cases same; exact found⟩
      rw [single]
      simp only [Bool.true_eq_false, if_false]
      by_cases isThread : sigev.method = 4
      · rw [if_neg (fun other => other.2.2 isThread), if_pos isThread]
        by_cases missing : world.pidGetTask sigev.tid = none
        · simp only [if_pos missing]
          refine iff_of_false ?_ fun found => found isThread missing
          exact not_restores_of_held rfl (List.cons_ne_self _ _)
        · simp only [if_neg missing]
          refine iff_of_true ?_ fun _ => missing
          obtain ⟨err, created⟩ :=
            world.createTimer_restores timerAddr held
          exact ⟨err, by simp [created]⟩
      · refine iff_of_true ?_ fun isMethod => absurd isMethod isThread
        rw [if_neg isThread]
        split
        · exact .pure _ _
        · exact world.createTimer_restores timerAddr held

/-- The child that `find_child` returns. -/
def foundChild (pid : BitVec 32) (children : List Nat) : Option Nat :=
  children.find? fun child =>
    (world.tasks child).pid = pid && (world.tasks child).ptraceStopped

/-- `find_child` holds the lock of the child that it returns. -/
theorem findChild_eq
    (pid : BitVec 32)
    (children : List Nat)
    (held : List CallLock) :
    world.findChild pid children held =
      match world.foundChild pid children with
      | none => some (none, held)
      | some child => some (some child, .ptrace child :: held) := by
  induction children with
  | nil =>
    rfl
  | cons child rest inductionHypothesis =>
    unfold foundChild at inductionHypothesis ⊢
    rw [List.find?_cons, findChild]
    by_cases isPid : (world.tasks child).pid = pid
    · cases (world.tasks child).ptraceStopped with
      | true =>
        simp [isPid]
      | false =>
        simp [isPid, inductionHypothesis]
    · simp [isPid, inductionHypothesis]

/-- A request restores the locks exactly if it gives back that of the child. -/
theorem onChild_restores_iff
    (pid : BitVec 32)
    (request : Nat → LockingCall)
    (held : List CallLock) :
    Restores (world.onChild pid request) held ↔
      ∀ child, world.foundChild pid world.children = some child →
        ∃ err, request child (.ptrace child :: held) = some (err, held) := by
  have isFound := world.findChild_eq pid world.children held
  unfold Restores onChild
  rw [Locking.bind_apply, isFound]
  cases world.foundChild pid world.children with
  | none =>
    exact iff_of_true ⟨_, rfl⟩ nofun
  | some child =>
    simp

theorem released_gives
    (child : Nat)
    (faults : Bool)
    (held : List CallLock) :
    ∃ err, released child faults (.ptrace child :: held) = some (err, held) :=
  ⟨_, by simp only [released, Locking.bind_apply, unlock_head]; rfl⟩

theorem keeps_lock
    (child : Nat)
    (result : Except Errno Unit)
    (held : List CallLock) :
    ¬∃ err,
      (pure result : LockingCall) (.ptrace child :: held) =
        some (err, held) := by
  rintro ⟨err, ran⟩
  rw [Locking.pure_apply, Option.some.injEq, Prod.mk.injEq] at ran
  exact List.cons_ne_self _ _ ran.2

/-- The request does not come to an end that keeps the lock of the child. -/
def RequestSuits (request addr data : BitVec 32) : Prop :=
  (request = 3 → addr &&& 3 = 0 ∧ addr < userSize) ∧
    (request = 13 ∨ request = 15 → world.userGet data = false) ∧
    (request = 0x4202 → data ≠ 0 → world.userPut data = false)

theorem requestSuits_of_other
    {request addr data : BitVec 32}
    (other :
      request.toNat ≠ 3 ∧ request.toNat ≠ 13 ∧ request.toNat ≠ 15 ∧
        request.toNat ≠ 0x4202) :
    world.RequestSuits request addr data := by
  obtain ⟨notPeekUser, notSetregs, notSetfpregs, notGetsiginfo⟩ := other
  refine ⟨fun same => ?_, fun same => ?_, fun same => ?_⟩
  · exact absurd (congrArg BitVec.toNat same) notPeekUser
  · rcases same with same | same
    · exact absurd (congrArg BitVec.toNat same) notSetregs
    · exact absurd (congrArg BitVec.toNat same) notSetfpregs
  · exact absurd (congrArg BitVec.toNat same) notGetsiginfo

/-- A request that always gives the lock back, and always suits. -/
private theorem restores_iff_of_other
    {pid request addr data : BitVec 32}
    {body : Nat → LockingCall}
    {held : List CallLock}
    (other :
      request.toNat ≠ 3 ∧ request.toNat ≠ 13 ∧ request.toNat ≠ 15 ∧
        request.toNat ≠ 0x4202)
    (gives :
      ∀ child, ∃ err, body child (.ptrace child :: held) = some (err, held)) :
    Restores (world.onChild pid body) held ↔
      ∀ child, world.foundChild pid world.children = some child →
        world.RequestSuits request addr data :=
  iff_of_true ((world.onChild_restores_iff pid body held).mpr
    fun child _ => gives child)
    fun _ _ => world.requestSuits_of_other other

theorem ptraceKill_gives
    (child : Nat)
    (held : List CallLock) :
    ∃ err, world.ptraceKill child (.ptrace child :: held) =
      some (err, held) := by
  obtain ⟨value, sent⟩ := world.sendSignal_restores child 9 (.ptrace child :: held)
  obtain ⟨err, gave⟩ := released_gives child false held
  exact ⟨err, by
    simp only [ptraceKill, Locking.bind_apply, sent, Option.bind_some, gave]⟩

/-- `PTRACE_PEEKUSER` gives the lock back for an address in `struct user_`. -/
theorem ptracePeekUser_gives_iff
    (addr data : BitVec 32)
    (child : Nat)
    (held : List CallLock) :
    (∃ err, world.ptracePeekUser addr data child (.ptrace child :: held) =
        some (err, held)) ↔
      addr &&& 3 = 0 ∧ addr < userSize := by
  unfold ptracePeekUser
  split
  · rename_i outside
    refine iff_of_false (keeps_lock child _ held) ?_
    rintro ⟨aligned, inside⟩
    rcases outside with notAligned | beyond
    · exact notAligned aligned
    · exact absurd inside (BitVec.not_lt.mpr beyond)
  · rename_i inside
    rw [not_or, not_not] at inside
    exact iff_of_true (released_gives child _ held)
      ⟨inside.1, BitVec.not_le.mp inside.2⟩

theorem ptraceSet_gives_iff
    (data : BitVec 32)
    (child : Nat)
    (held : List CallLock) :
    (∃ err, world.ptraceSet data child (.ptrace child :: held) =
        some (err, held)) ↔
      world.userGet data = false := by
  unfold ptraceSet
  cases world.userGet data with
  | true => exact iff_of_false (keeps_lock child _ held) Bool.true_eq_false.mp
  | false => exact iff_of_true (released_gives child _ held) rfl

/-- `PTRACE_GETSIGINFO` gives the lock back if it can write its answer. -/
theorem ptraceGetSiginfo_gives_iff
    (data : BitVec 32)
    (child : Nat)
    (held : List CallLock) :
    (∃ err, world.ptraceGetSiginfo data child (.ptrace child :: held) =
        some (err, held)) ↔
      (data ≠ 0 → world.userPut data = false) := by
  unfold ptraceGetSiginfo
  split
  · rename_i faults
    refine iff_of_false (keeps_lock child _ held) fun writes => ?_
    rw [writes faults.1] at faults
    cases faults.2
  · rename_i writes
    exact iff_of_true (released_gives child _ held) fun asked =>
      Bool.of_not_eq_true fun fault => writes ⟨asked, fault⟩

/-- `sys_ptrace` restores the locks exactly if the request suits the child. -/
theorem sysPtrace_restores_iff
    (request pid addr data : BitVec 32)
    (held : List CallLock) :
    Restores (world.sysPtrace request pid addr data) held ↔
      ∀ child, world.foundChild pid world.children = some child →
        world.RequestSuits request addr data := by
  have named :
      ∀ {number : Nat}, request.toNat = number →
        request = BitVec.ofNat 32 number := by
    intro number isNumber
    rw [← isNumber, BitVec.ofNat_toNat, BitVec.setWidth_eq]
  unfold sysPtrace
  split
  case h_1 isRequest =>
    exact iff_of_true (.pure _ _)
      fun _ _ => world.requestSuits_of_other (by omega)
  case h_2 isRequest | h_3 isRequest =>
    exact world.restores_iff_of_other (by omega)
      fun child => released_gives child _ held
  case h_4 isRequest =>
    rw [onChild_restores_iff]
    refine forall₂_congr fun child _ => ?_
    rw [ptracePeekUser_gives_iff, RequestSuits, named isRequest]
    simp
  case h_5 isRequest | h_6 isRequest =>
    exact world.restores_iff_of_other (by omega)
      fun child => released_gives child _ held
  case h_7 isRequest | h_8 isRequest =>
    exact world.restores_iff_of_other (by omega)
      fun child => released_gives child _ held
  case h_9 isRequest =>
    exact world.restores_iff_of_other (by omega)
      fun child => world.ptraceKill_gives child held
  case h_10 isRequest | h_11 isRequest =>
    exact world.restores_iff_of_other (by omega)
      fun child => released_gives child _ held
  case h_12 isRequest | h_13 isRequest =>
    rw [onChild_restores_iff]
    refine forall₂_congr fun child _ => ?_
    rw [ptraceSet_gives_iff, RequestSuits, named isRequest]
    simp
  case h_14 isRequest =>
    exact iff_of_true (.pure _ _)
      fun _ _ => world.requestSuits_of_other (by omega)
  case h_15 isRequest =>
    rw [onChild_restores_iff]
    refine forall₂_congr fun child _ => ?_
    rw [ptraceGetSiginfo_gives_iff, RequestSuits, named isRequest]
    simp
  case h_16 =>
    exact iff_of_true (.pure _ _)
      fun _ _ => world.requestSuits_of_other ⟨by assumption, by assumption,
        by assumption, by assumption⟩

end CallWorld

/-- The call does not come to an end that keeps a lock or gives one too many. -/
def TaskCall.Suits (world : CallWorld) : TaskCall → Prop
  | .sigaltstack ssAddr oldSsAddr => world.StackSuits ssAddr oldSsAddr
  | .kill pid sig =>
    sig < 64#32 →
      world.GroupFound (if pid = 0 then -world.self.pgid else pid)
  | .tgkill _ _ _ | .tkill _ _ => True
  | .timerCreate clock sigeventAddr _ => world.ThreadFound clock sigeventAddr
  | .ptrace request pid addr data =>
    ∀ child, world.foundChild pid world.children = some child →
      world.RequestSuits request addr data

/-- `do_kill` restores the locks exactly if the group is there. -/
theorem CallWorld.doKill_restores_iff
    (world : CallWorld)
    (pid sig tgid : BitVec 32)
    (held : List CallLock) :
    Restores (world.doKill pid sig tgid) held ↔
      (sig < 64#32 →
        world.GroupFound (if pid = 0 then -world.self.pgid else pid)) := by
  unfold doKill
  split
  · rename_i noSignal
    exact iff_of_true (.pure _ _)
      fun isSignal => absurd isSignal (BitVec.not_lt.mpr noSignal)
  · rename_i isSignal
    rw [killPid_restores_iff]
    exact ⟨fun found _ => found,
      fun found => found (BitVec.not_le.mp isSignal)⟩

theorem CallWorld.doKill_restores_of_pos
    (world : CallWorld)
    {pid : BitVec 32}
    (positive : 0 < pid.toInt)
    (sig tgid : BitVec 32)
    (held : List CallLock) :
    Restores (world.doKill pid sig tgid) held := by
  rw [doKill_restores_iff]
  have nonzero : pid ≠ 0 := by
    rintro rfl
    exact absurd positive (by decide)
  rw [if_neg nonzero]
  intro _ _ negative
  omega

/-- Each call returns with the locks it began with exactly if it suits. -/
theorem call_restores_locks_iff
    (world : CallWorld)
    (call : TaskCall)
    (held : List CallLock) :
    Restores (call.run world) held ↔ call.Suits world := by
  cases call with
  | sigaltstack ssAddr oldSsAddr =>
    exact world.sysSigaltstack_restores_iff ssAddr oldSsAddr held
  | kill pid sig =>
    exact world.doKill_restores_iff pid sig 0 held
  | tgkill tgid tid sig =>
    refine iff_of_true ?_ trivial
    simp only [TaskCall.run, CallWorld.sysTgkill]
    split
    · exact .pure _ _
    · exact world.doKill_restores_of_pos (by omega) sig tgid held
  | tkill tid sig =>
    refine iff_of_true ?_ trivial
    simp only [TaskCall.run, CallWorld.sysTkill]
    split
    · exact .pure _ _
    · exact world.doKill_restores_of_pos (by omega) sig 0 held
  | timerCreate clock sigeventAddr timerAddr =>
    exact world.sysTimerCreate_restores_iff clock sigeventAddr timerAddr held
  | ptrace request pid addr data =>
    exact world.sysPtrace_restores_iff request pid addr data held

/-- A world in which nothing is found, and nothing of the guest can be read. -/
def emptyCallWorld : CallWorld where
  tasks _ := {
    pid := 2
    tgid := 2
    uid := 0
    suid := 0
    euid := 0
    isLeader := true
    zombie := false
    exiting := false
    sighand := 0
    hand := ⟨fun _ => .default, 0, 0⟩
    group := 0
    pgid := 2
    timers := ⟨1, none, fun _ => none⟩
    pending := 0
    blocked := 0
    waiting := 0
    esp := 0
    ptraceStopped := false
    busy := 0
    wake := .idle }
  current := 0
  children := []
  pidGetTask _ := none
  pidGet _ := none
  getStack _ := none
  getSigevent _ := none
  userGet _ := true
  userPut _ := true
  userGetTask _ _ := true
  userWriteTaskPtrace _ _ := true

/-- `kill` of a group that does not exist gives `pids_lock` back twice. -/
theorem kill_unlocks_pids_twice :
    ¬Restores ((TaskCall.kill (-5) 15).run emptyCallWorld) [] := by
  rintro ⟨err, ran⟩
  have unheld : (TaskCall.kill (-5) 15).run emptyCallWorld [] = none := rfl
  cases unheld.symm.trans ran

end GuestKernel
