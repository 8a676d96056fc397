import GuestKernel.FdDescriptors

namespace GuestKernel
open Option Function

/-!
# Runs of descriptor calls

Every call that is harmless does what it has to do, and close-on-exec closes
the descriptors it was requested for.  Over any run of harmless calls the
table holds exactly the descriptors that were asked for.
-/

namespace FdWorld

variable
  {host : FdHost}
  {w next : FdWorld}
  {t : TableId}
  {table : FdTable}
  {fd : FdId}
  {f : FdNum}
  {result : Except Errno FdNum}

/-- Replacing a descriptor closes what it held. -/
theorem replaced_of_step
    {newF : FdNum}
    {bit : Bool}
    (found : table.get table.size f = some fd) :
    Replaced table.descriptors w
      ((((w.grow t (newF.toNat + 1)).retained fd).closedSlot t table
        newF.toNat).store t newF.toNat (some fd) bit) t f newF := by
  refine ⟨fd, table.bit f.toNat, descriptors_of_get found, ?_⟩
  have objects :=
    closedSlot_objects ((w.grow t (newF.toNat + 1)).retained fd) t table
      newF.toNat
  unfold FdTable.descriptors
  cases content : table.slot newF.toNat with
  | none =>
    rw [content] at objects
    refine ⟨objects, ?_⟩
    show (closedSlot _ t table newF.toNat).locks = w.locks
    unfold closedSlot
    rw [content]
    rfl
  | some old =>
    rw [content] at objects
    refine ⟨objects, ?_⟩
    intro object isLive
    show (closedSlot _ t table newF.toNat).locks = _
    have sameLive :
        ((w.grow t (newF.toNat + 1)).retained fd).live old =
          some object := isLive
    unfold closedSlot
    rw [content]
    show (unlocked _ t old).locks = _
    rw [unlocked_of_live sameLive]
    unfold removeOwnedLocks
    cases object.inode <;> rfl

/-- A harmless call does what it has to do. -/
theorem lawful_of_step
    {call : FdCall}
    (clean : table.Clean)
    (isTable : w.tables t = some table)
    (harmless : call.Harmless host w t table)
    (step : call.Step host w t table next result) :
    call.Lawful table.descriptors w next t result := by
  cases step with
  | notOpen isSource empty =>
    cases call with
    | dup2 => rfl
    | _ => trivial
  | install installed =>
    cases result with
    | error => trivial
    | ok newF =>
      exact lowestFree_of_installStep
        (harmless.1 0 rfl fun _ impossible => nomatch impossible)
        installed
  | @duplicate call f fd start bit _ _ isSource isDuplicate found
      installed =>
      have isOpen :
          ∀ g, call.source = some g → table.get table.size g ≠ none := by
        intro g isSame
        cases isSource.symm.trans isSame
        rw [found]
        exact some_ne_none fd
      have keeps :=
        harmless.1 start (installsFrom_of_duplicates isDuplicate) isOpen
      cases result with
      | error err =>
        cases call with
        | dup2 => cases isDuplicate
        | _ => trivial
      | ok newF =>
        cases call with
        | dup | dupfd | dupfdCloexec =>
          cases isSource
          cases isDuplicate
          exact ⟨isOpen_of_get found,
            lowestFree_of_installStep keeps installed⟩
        | _ => cases isDuplicate
  | refused err isReplace =>
    cases call with
    | dup2 => rfl
    | _ => trivial
  | @replace call f newF fd bit isSource isReplace found positive room =>
    cases call with
    | dup2 source target =>
      cases isSource
      cases isReplace
      refine ⟨rfl, isOpen_of_get found, ?_⟩
      by_cases self : f = newF
      · subst self
        obtain ⟨noBit, noLock⟩ := harmless.2 f rfl room fd found
        rw [if_pos rfl, clean.stray_eq_false]
        exact dup2_self clean isTable found noBit noLock
      · rw [if_neg self]
        exact replaced_of_step found
    | dup3 source target flags =>
      cases isSource
      cases isReplace
      exact ⟨rfl, isOpen_of_get found, replaced_of_step found⟩
    | _ => cases isReplace
  | setfd found => exact isOpen_of_get found
  | close found =>
    cases result with
    | error => trivial
    | ok => exact isOpen_of_get found

/-- The descriptors that close-on-exec leaves open. -/
def withoutCloexec (log : DescriptorMap) : DescriptorMap :=
  fun index => (log index).filter fun descriptor => !descriptor.2

/-- Where the loop of `fdtable_do_cloexec` has been. -/
def closedBelow (bound : Nat) (log : DescriptorMap) : DescriptorMap :=
  fun index => if index < bound then withoutCloexec log index else log index

/-- The loop goes one descriptor further. -/
theorem closedBelow_succ (index : Nat) (log : DescriptorMap) :
    update (closedBelow index log) index
        (withoutCloexec (closedBelow index log) index) =
      closedBelow (index + 1) log := by
  funext other
  unfold closedBelow withoutCloexec
  by_cases same : other = index
  · subst same
    rw [update_self, if_pos (Nat.lt_succ_self other)]
    show Option.filter _ (if other < other then _ else _) = _
    rw [if_neg (Nat.lt_irrefl other)]
  · rw [update_of_ne same]
    by_cases less : other < index
    · rw [if_pos less, if_pos (by omega)]
    · rw [if_neg less, if_neg (by omega)]

theorem cloexecRound_step
    {index : Nat}
    (clean : table.Clean)
    (isCurrent : w.current = some t)
    (isTable : w.tables t = some table)
    (inside : index < table.size)
    (run : cloexecRound host t w index = some next) :
    ∃ after,
      next.current = some t ∧ next.tables t = some after ∧ after.Clean ∧
        after.size = table.size ∧
        after.descriptors =
          update table.descriptors index
            (withoutCloexec table.descriptors index) := by
  have small := clean.shaped.small
  have number : (BitVec.ofNat 32 index).toNat = index := by
    rw [BitVec.toNat_ofNat]
    exact Nat.mod_eq_of_lt (Nat.lt_trans inside small)
  unfold cloexecRound at run
  obtain ⟨bit, test, run⟩ := bind_eq_some_iff.mp run
  have isBit : index < 2 ^ 31 ∧ table.bit index = bit := by
    unfold testBit at test
    rw [slotIndex_eq, number] at test
    by_cases past : 2 ^ 31 ≤ index
    · rw [if_pos past] at test
      cases test
    · rw [if_neg past, isTable] at test
      simp only [bind_eq_bind, bind_some] at test
      refine ⟨by omega, ?_⟩
      rw [FdTable.bit, test]
      rfl
  obtain ⟨positive, isBit⟩ := isBit
  cases bit with
  | false =>
    cases run
    refine ⟨table, isCurrent, isTable, clean, rfl, ?_⟩
    have kept :
        withoutCloexec table.descriptors index =
          table.descriptors index := by
      unfold withoutCloexec FdTable.descriptors
      rw [isBit]
      cases table.slot index <;> rfl
    rw [kept, update_eq_self]
  | true =>
    obtain ⟨⟨_, err⟩, close, rfl⟩ := map_eq_some_iff.mp run
    cases content : table.slot index with
    | none =>
      cases isBit.symm.trans (clean.noStray index content)
    | some fd =>
      have found :
          table.get table.size (BitVec.ofNat 32 index) = some fd :=
        get_eq_some_iff.mpr (by rw [number]; exact ⟨positive, content⟩)
      have get := fdtableGet_run (f := BitVec.ofNat 32 index) isCurrent
        isTable isTable (.inr (Nat.le_refl _))
      rw [found] at get
      have closed :=
        fdtableClose_cases get isTable clean.shaped
          (fun _ => by
            unfold Inside
            rw [number]
            exact ⟨positive, inside⟩) close
      rw [number] at closed
      obtain ⟨impossible, _⟩ | ⟨_, _, isFile, _, rfl⟩ := closed
      · cases impossible
      · cases isFile
        have isAfter := closedSlot_self isTable index
        have current := closedSlot_current w t table index
        unfold closedSlot at isAfter current
        rw [content] at isAfter current
        refine ⟨table.store index none false, current.trans isCurrent,
          isAfter, clean.store inside none false (fun _ => rfl),
          table.size_store .., ?_⟩
        rw [FdTable.descriptors_store clean.shaped inside]
        unfold withoutCloexec FdTable.descriptors
        rw [content, isBit]
        rfl

/-- Close-on-exec closes the descriptors it was requested for. -/
theorem holds_of_cloexec
    (clean : table.Clean)
    (isCurrent : w.current = some t)
    (isTable : w.tables t = some table)
    (run : w.fdtableDoCloexec host t = some next) :
    next.Holds t (withoutCloexec table.descriptors) := by
  unfold fdtableDoCloexec at run
  rw [isTable, bind_eq_bind, bind_some] at run
  obtain ⟨after, current, isAfter, afterClean, _, descriptors⟩ :=
    Loop.foldlM_range
      (motive := fun index w =>
        ∃ now,
          w.current = some t ∧ w.tables t = some now ∧ now.Clean ∧
            now.size = table.size ∧
            now.descriptors = closedBelow index table.descriptors)
      (by
        rintro index before after inside
          ⟨now, nowCurrent, isNow, nowClean, sameSize, descriptors⟩ round
        rw [← sameSize] at inside
        obtain ⟨later, current, isLater, laterClean, laterSize, closed⟩ :=
          cloexecRound_step nowClean nowCurrent isNow inside round
        refine ⟨later, current, isLater, laterClean,
          laterSize.trans sameSize, ?_⟩
        rw [closed, descriptors]
        exact closedBelow_succ index table.descriptors)
      ⟨table, isCurrent, isTable, clean, rfl, rfl⟩ run
  refine ⟨after, current, isAfter, afterClean, ?_⟩
  rw [descriptors]
  funext index
  unfold closedBelow
  by_cases inside : index < table.size
  · rw [if_pos inside]
  · have isNone : table.descriptors index = none :=
      FdTable.descriptors_eq_none_iff.mpr (by
        cases content : table.slot index with
        | none => rfl
        | some fd => exact (inside (FdTable.lt_size_of_slot content)).elim)
    rw [if_neg inside, withoutCloexec, isNone]
    rfl

end FdWorld

/-- A process with its table, and the descriptors it asked for so far. -/
structure DescriptorState where
  world : FdWorld
  log : DescriptorMap

/--
What happens to a process: a call, close-on-exec, a fork of which the child is
followed, and everything that leaves its table alone.
-/
inductive DescriptorAction where
  | call (host : FdHost) (t : TableId) (call : FdCall)
  | cloexec (host : FdHost) (t : TableId)
  | fork (host : FdHost) (t : TableId)
  | others (t : TableId)

/-- The action uses no freed file, and the arrays within their bounds. -/
def DescriptorAction.StaysInside (w : FdWorld) : DescriptorAction → Prop
  | call host t request =>
    ∀ table, w.tables t = some table →
      request.StaysInside host table ∧ w.FilesLive table
  | cloexec _ t =>
    ∀ table, w.tables t = some table →
      table.size ≤ 2 ^ 31 ∧ w.FilesLive table
  | fork _ t =>
    ∀ table, w.tables t = some table →
      table.size < 2 ^ 31 ∧ w.FilesLive table
  | others _ => True

/--
One step of a process whose current table is `t`.  After an access outside of
the arrays, or to a freed file, anything can have happened.
-/
inductive DescriptorStep :
    DescriptorState → DescriptorAction → DescriptorState → Prop where
  | call {host t call w next log result} :
      w.current = some t →
      call.run host w = some (next, result) →
      DescriptorStep ⟨w, log⟩ (.call host t call)
        ⟨next, call.requested log result⟩
  | cloexec {host t w next log} :
      w.current = some t →
      w.fdtableDoCloexec host t = some next →
      DescriptorStep ⟨w, log⟩ (.cloexec host t)
        ⟨next, FdWorld.withoutCloexec log⟩
  | fork {host t child w next log} :
      w.current = some t →
      w.fdtableCopy host t = some (next, .ok child) →
      DescriptorStep ⟨w, log⟩ (.fork host t)
        ⟨{ next with current := some child }, log⟩
  | others {t w next log} :
      w.current = some t →
      next.current = some t →
      next.tables t = w.tables t →
      DescriptorStep ⟨w, log⟩ (.others t) ⟨next, log⟩
  | stray {action w next log after} :
      ¬ DescriptorAction.StaysInside w action →
      DescriptorStep ⟨w, log⟩ action ⟨next, after⟩

/-- A world without files and tables. -/
def FdWorld.empty : FdWorld where
  objects := fun _ => none
  tables := fun _ => none
  tableCount := 0
  current := none
  locks := fun _ => []

/-- All runs of a process that starts with a new table. -/
def descriptorMachine : Machine DescriptorState DescriptorAction where
  initial state :=
    ∃ host size w t,
      size < dwordRange ∧
        FdWorld.empty.fdtableNew host size = some (w, .ok t) ∧
        state = ⟨{ w with current := some t }, fun _ => none⟩
  step := DescriptorStep

/-- The action stays inside, and the calls are harmless. -/
def DescriptorAction.Harmless
    (state : DescriptorState) (action : DescriptorAction) : Prop :=
  action.StaysInside state.world ∧
    ∀ host t request, action = .call host t request →
      ∀ table, state.world.tables t = some table →
        request.Harmless host state.world t table

namespace FdWorld

theorem holds_of_new
    {host : FdHost}
    {w : FdWorld}
    {t : TableId}
    {size : Nat}
    (small : size < dwordRange)
    (run : FdWorld.empty.fdtableNew host size = some (w, .ok t)) :
    ({ w with current := some t } : FdWorld).Holds t fun _ => none := by
  unfold fdtableNew at run
  split at run
  · cases run
  · split at run
    · cases run
    · cases run
      have noSlot :
          ∀ index : Nat,
            ((List.replicate size (none : Option FdId))[index]?).join =
              none := by
        intro index
        rw [List.getElem?_replicate]
        split <;> rfl
      refine ⟨{
        refcount := 1
        files := List.replicate size none
        cloexec := List.replicate size false }, rfl, rfl,
        ⟨⟨?_, ?_⟩, ?_⟩, ?_⟩
      · simp
      · simpa using small
      · intro index _
        unfold FdTable.bit
        rw [List.getElem?_replicate]
        split <;> rfl
      · funext index
        exact map_eq_none_iff.mpr (noSlot index)

/-- The table of a child has the same descriptors. -/
theorem holds_of_fork
    {host : FdHost}
    {w next : FdWorld}
    {t child : TableId}
    {table : FdTable}
    (clean : table.Clean)
    (isTable : w.tables t = some table)
    (run : w.fdtableCopy host t = some (next, .ok child)) :
    ({ next with current := some child } : FdWorld).Holds child
      table.descriptors := by
  unfold fdtableCopy at run
  simp only [isTable, bind_eq_bind, bind_some] at run
  split at run
  · cases run
  · obtain ⟨⟨made, copy⟩, _, run⟩ := bind_eq_some_iff.mp run
    cases copy with
    | error => cases run
    | ok copy =>
      obtain ⟨counted, _, run⟩ := bind_eq_some_iff.mp run
      cases run
      exact ⟨{ table with refcount := 1 }, rfl, update_self ..,
        ⟨⟨clean.shaped.bits, clean.shaped.small⟩, clean.noStray⟩, rfl⟩

end FdWorld

/-- The current table holds the descriptors that were asked for. -/
def DescriptorState.Follows (state : DescriptorState) : Prop :=
  ∃ t, state.world.Holds t state.log

/-- A step that is harmless keeps to what was asked for. -/
theorem DescriptorState.Follows.step
    {state next : DescriptorState}
    {action : DescriptorAction}
    (follows : state.Follows)
    (harmless : action.Harmless state)
    (taken : DescriptorStep state action next) :
    next.Follows := by
  obtain ⟨t, table, isCurrent, isTable, clean, isLog⟩ := follows
  obtain ⟨inside, harmless⟩ := harmless
  cases taken with
  | stray leaves => exact (leaves inside).elim
  | @call host _ request _ _ _ _ sameCurrent run =>
    cases isCurrent.symm.trans sameCurrent
    subst isLog
    exact ⟨t, FdWorld.holds_of_step clean isCurrent isTable
      (harmless host t request rfl table isTable)
      (FdWorld.step_of_run isCurrent isTable clean.shaped run)⟩
  | cloexec sameCurrent run =>
    cases isCurrent.symm.trans sameCurrent
    subst isLog
    exact ⟨t, FdWorld.holds_of_cloexec clean isCurrent isTable run⟩
  | fork sameCurrent run =>
    cases isCurrent.symm.trans sameCurrent
    subst isLog
    exact ⟨_, FdWorld.holds_of_fork clean isTable run⟩
  | others sameCurrent stillCurrent sameTable =>
    cases isCurrent.symm.trans sameCurrent
    exact ⟨t, table, stillCurrent, sameTable.trans isTable, clean, isLog⟩

/--
In every run of harmless calls the table holds exactly the descriptors asked
for, with no bit on an empty slot; and the next harmless call changes only the
descriptor it is about, takes the lowest free one if it chooses, and closes
what the descriptor it replaces held.
-/
theorem descriptors_follow_requests
    {state : DescriptorState}
    (reachable :
      (descriptorMachine.restrict DescriptorAction.Harmless).Reachable
        state) :
    (∃ t table,
      state.world.current = some t ∧ state.world.tables t = some table ∧
        table.descriptors = state.log ∧
        ∀ index, table.slot index = none → table.bit index = false) ∧
      ∀ host t table call next result,
        state.world.current = some t →
        state.world.tables t = some table →
        call.Harmless host state.world t table →
        FdCall.run host state.world call = some (next, result) →
        next.Holds t (call.requested state.log result) ∧
          call.Lawful state.log state.world next t result := by
  have follows : state.Follows := by
    refine Machine.Reachable.invariant
      (motive := DescriptorState.Follows) ?_ ?_ reachable
    · rintro _ ⟨host, size, w, t, small, run, rfl⟩
      exact ⟨t, FdWorld.holds_of_new small run⟩
    · intro before action after follows taken
      exact follows.step taken.1 taken.2
  obtain ⟨t, table, isCurrent, isTable, clean, isLog⟩ := follows
  refine ⟨⟨t, table, isCurrent, isTable, isLog, clean.noStray⟩, ?_⟩
  intro host other otherTable call next result sameCurrent sameTable harmless
    run
  cases isCurrent.symm.trans sameCurrent
  cases isTable.symm.trans sameTable
  have step := FdWorld.step_of_run isCurrent isTable clean.shaped run
  rw [← isLog]
  exact ⟨FdWorld.holds_of_step clean isCurrent isTable harmless step,
    FdWorld.lawful_of_step clean isTable harmless step⟩

/-- Memory for everything, and a limit of 1024 descriptors. -/
def roomyHost : FdHost where
  limit := 1024
  memory := true
  closeError := fun _ => none

/-- The world a call leaves behind. -/
def FdCall.after (host : FdHost) (w : FdWorld) (call : FdCall) : FdWorld :=
  ((call.run host w).map Prod.fst).getD w

/-- A file that was just opened, next to a new table of three slots. -/
def openedFile : FdWorld where
  objects := fun fd =>
    if fd = 5 then
      some { refcount := 1, inode := none, closes := 0, freed := false }
    else none
  tables := fun t =>
    if t = 0 then
      some {
        refcount := 1
        files := [none, none, none]
        cloexec := [false, false, false] }
    else none
  tableCount := 1
  current := some 0
  locks := fun _ => []

theorem openedFile_reachable :
    (descriptorMachine.restrict DescriptorAction.Harmless).Reachable
      ⟨openedFile, fun _ => none⟩ :=
  .step (a := .others 0)
    (.initial ⟨roomyHost, 3, _, 0, by decide, rfl, rfl⟩)
    ⟨⟨trivial, fun _ _ _ impossible => nomatch impossible⟩,
      .others rfl rfl rfl⟩

/-- The first file goes to descriptor 0. -/
theorem first_install_takes_zero :
    ∃ next,
      (FdCall.install 5 true).run roomyHost openedFile =
          some (next, .ok 0) ∧
        LowestFree (fun _ => none) 0 0 := by
  have harmless :
      (FdCall.install 5 true).Harmless roomyHost openedFile 0 {
        refcount := 1
        files := [none, none, none]
        cloexec := [false, false, false] } := by
    refine ⟨?_, fun _ impossible => nomatch impossible⟩
    rintro start isStart _ ⟨_, _, occupied⟩
    cases isStart
    exact occupied rfl
  have lawful :=
    (descriptors_follow_requests openedFile_reachable).2 roomyHost 0 _
      (.install 5 true) _ (.ok 0) rfl rfl harmless rfl
  exact ⟨_, rfl, lawful.2⟩

/-- `dup2` of descriptor 0 to itself drops the close-on-exec bit. -/
theorem dup2_self_drops_cloexec :
    ∃ state table,
      descriptorMachine.Reachable state ∧
        state.world.current = some 0 ∧
        state.world.tables 0 = some table ∧
        state.log 0 = some (5, true) ∧
        table.bit 0 = false := by
  let installed := (FdCall.install 5 true).after roomyHost openedFile
  let again := (FdCall.dup2 0 0).after roomyHost installed
  have install :=
    @DescriptorStep.call roomyHost 0 (.install 5 true) openedFile installed
      (fun _ => none) (.ok 0) rfl rfl
  have dup2 :=
    @DescriptorStep.call roomyHost 0 (.dup2 0 0) installed again
      (update (fun _ => none) 0 (some (5, true))) (.ok 0) rfl rfl
  exact ⟨_, _, (openedFile_reachable.of_restrict.step install).step dup2,
    rfl, rfl, rfl, rfl⟩

end GuestKernel
