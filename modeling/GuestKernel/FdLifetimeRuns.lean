import GuestKernel.FdLifetimes
import GuestKernel.FdRuns

namespace GuestKernel
open List Option Function

/-!
# Runs over many tables

The remaining operations on whole tables keep the counts too, and so does every
run in which a table is released only while the current table reaches all of
its descriptors, no file is installed over another one, and no count wraps.
-/

/-- `fd_create`: a file that was just opened. -/
def FdObject.opened (inode : Option InodeId) : FdObject where
  refcount := 1
  inode := inode
  closes := 0
  freed := false

namespace FdWorld

variable
  {host : FdHost}
  {w next : FdWorld}
  {t : TableId}
  {table : FdTable}
  {fd : FdId}
  {f : FdNum}
  {callers : FdId → Nat}
  {result : Except Errno FdNum}

variable {made : Except Errno TableId}

theorem Counted.newTable
    {size : Nat}
    (counted : w.Counted callers)
    (small : size < dwordRange)
    (run : w.fdtableNew host size = some (next, made)) :
    next.Counted callers ∧ next.objects = w.objects ∧
      ∀ copy, made = .ok copy →
        ∃ empty,
          next.tables copy = some empty ∧
            (∀ fd, empty.refs fd = 0) ∧
            (∀ other, other ≠ copy → next.tables other = w.tables other) := by
  unfold fdtableNew at run
  split at run
  · cases run
    exact ⟨counted, rfl, fun _ impossible => nomatch impossible⟩
  split at run
  · cases run
  cases run
  let empty : FdTable := {
    refcount := 1
    files := List.replicate size none
    cloexec := List.replicate size false }
  have noSlot : ∀ index, empty.slot index = none := by
    intro index
    unfold FdTable.slot
    rw [List.getElem?_replicate]
    split <;> rfl
  have noBit : ∀ index, empty.bit index = false := by
    intro index
    unfold FdTable.bit
    rw [List.getElem?_replicate]
    split <;> rfl
  have noRefs : ∀ fd, empty.refs fd = 0 := refs_eq_zero noSlot
  have cases :
      ∀ {other found},
        (w.setTable w.tableCount (some empty)).tables other = some found →
        (other = w.tableCount ∧ found = empty) ∨
          w.tables other = some found := by
    intro other found isFound
    rw [setTable_tables] at isFound
    by_cases same : other = w.tableCount
    · rw [if_pos same] at isFound
      exact .inl ⟨same, (some.inj isFound).symm⟩
    · rw [if_neg same] at isFound
      exact .inr isFound
  refine ⟨?_, rfl, ?_⟩
  · constructor
    case numbered =>
      intro other found isFound
      show other < w.tableCount + 1
      rcases cases isFound with ⟨rfl, _⟩ | isOld
      · exact Nat.lt_succ_self _
      · exact Nat.lt_succ_of_lt (counted.numbered other found isOld)
    case clean =>
      intro other found isFound
      rcases cases isFound with ⟨_, rfl⟩ | isOld
      · exact ⟨⟨by simp [empty], by simpa [empty] using small⟩,
          fun index _ => noBit index⟩
      · exact counted.clean other found isOld
    case nameable =>
      intro other found isFound index fd isSlot
      rcases cases isFound with ⟨_, rfl⟩ | isOld
      · cases (noSlot index).symm.trans isSlot
      · exact counted.nameable other found isOld index fd isSlot
    case counted =>
      intro fd
      have sameRefs :
          slotRefs { w.setTable w.tableCount (some empty) with
            tableCount := w.tableCount + 1 } fd = w.slotRefs fd := by
        unfold slotRefs
        rw [Finset.sum_range_succ]
        have last :
            tableRefs { w.setTable w.tableCount (some empty) with
              tableCount := w.tableCount + 1 } fd w.tableCount = 0 := by
          unfold tableRefs setTable
          simp only [update_self]
          exact noRefs fd
        rw [last, Nat.add_zero]
        apply Finset.sum_congr rfl
        intro other member
        have different : other ≠ w.tableCount :=
          Nat.ne_of_lt (Finset.mem_range.mp member)
        unfold tableRefs setTable
        simp only [update_of_ne different]
      rw [sameRefs]
      exact counted.counted fd
  · rintro copy same
    cases same
    exact ⟨empty, update_self .., noRefs, fun other different =>
      update_of_ne different ..⟩

theorem Counted.retainAll
    (files : List FdId) :
    ∀ {w : FdWorld} {callers : FdId → Nat},
      w.Counted callers →
      (∀ fd object, w.objects fd = some object →
      object.refcount + files.count fd < dwordRange) →
      files.foldlM fdRetain w = some next →
      next.Counted (fun fd => callers fd + files.count fd) ∧
        next.tables = w.tables ∧ next.tableCount = w.tableCount := by
  induction files with
  | nil =>
    intro w callers counted _ run
    cases run
    exact ⟨counted, rfl, rfl⟩
  | cons file rest inductionHypothesis =>
    intro w callers counted small run
    rw [foldlM_cons] at run
    obtain ⟨middle, retain, run⟩ := bind_eq_some_iff.mp run
    obtain ⟨rfl, object, isLive⟩ := eq_retained_of_fdRetain retain
    have room := small file object (objects_of_live isLive)
    rw [count_cons_self] at room
    have retained := counted.retained isLive (by omega)
    have stillSmall :
        ∀ fd after, (w.retained file).objects fd = some after →
          after.refcount + rest.count fd < dwordRange := by
      intro fd after isAfter
      have isChanged :
          (if fd = file then (w.objects fd).map FdObject.retain
            else w.objects fd) = some after := isAfter
      by_cases same : fd = file
      · subst same
        rw [if_pos rfl, objects_of_live isLive] at isChanged
        cases isChanged
        show incremented object.refcount + _ < _
        rw [incremented_of_small (by omega)]
        omega
      · rw [if_neg same] at isChanged
        have before := small fd after isChanged
        rwa [count_cons_of_ne (Ne.symm same)] at before
    obtain ⟨done, tables, tableCount⟩ :=
      inductionHypothesis retained stillSmall run
    refine ⟨?_, tables, tableCount⟩
    have same :
        (fun fd => oneMore callers file fd + rest.count fd) =
          fun fd => callers fd + (file :: rest).count fd := by
      funext fd
      by_cases here : fd = file
      · subst here
        rw [oneMore_self, count_cons_self]
        omega
      · rw [oneMore_of_ne here, count_cons_of_ne (Ne.symm here)]
    rwa [same] at done

/-- The files of a table, one for each reference. -/
theorem count_filterMap_files (table : FdTable) (fd : FdId) :
    (table.files.filterMap id).count fd = table.refs fd := by
  unfold FdTable.refs
  induction table.files with
  | nil => rfl
  | cons slot rest inductionHypothesis =>
    cases slot with
    | none =>
      rw [filterMap_cons_none rfl, inductionHypothesis,
        count_cons_of_ne (by simp)]
    | some file =>
      show (file :: rest.filterMap id).count fd = _
      by_cases same : file = fd
      · subst same
        rw [count_cons_self, count_cons_self,
          inductionHypothesis]
      · rw [count_cons_of_ne same,
          count_cons_of_ne (by simpa using same),
          inductionHypothesis]

/-- A copy of a table has a reference of its own to every file. -/
theorem Counted.copyTable
    (counted : w.Counted callers)
    (isTable : w.tables t = some table)
    (small :
      ∀ fd object, w.objects fd = some object →
        object.refcount + table.refs fd < dwordRange)
    (run : w.fdtableCopy host t = some (next, made)) :
    next.Counted callers := by
  have clean := counted.clean t table isTable
  unfold fdtableCopy at run
  rw [isTable, bind_eq_bind, bind_some] at run
  split at run
  · cases run
  obtain ⟨⟨fresh, result⟩, new, run⟩ := bind_eq_some_iff.mp run
  obtain ⟨freshCounted, objects, isNew⟩ :=
    counted.newTable clean.shaped.small new
  cases result with
  | error err =>
    cases run
    exact freshCounted
  | ok copy =>
    obtain ⟨empty, isEmpty, noRefs, _⟩ := isNew copy rfl
    obtain ⟨retained, retain, run⟩ := bind_eq_some_iff.mp run
    cases run
    have room :
        ∀ fd object, fresh.objects fd = some object →
          object.refcount + (table.files.filterMap id).count fd <
            dwordRange := by
      intro fd object isObject
      rw [objects] at isObject
      rw [count_filterMap_files]
      exact small fd object isObject
    obtain ⟨done, tables, _⟩ := freshCounted.retainAll _ room retain
    have isCopy : retained.tables copy = some empty := by
      rw [tables]
      exact isEmpty
    rw [setTable_eq_mapTable isCopy fun _ => { table with refcount := 1 }]
    apply done.mapTable isCopy
    · exact ⟨⟨clean.shaped.bits, clean.shaped.small⟩, clean.noStray⟩
    · exact counted.nameable t table isTable
    · intro fd
      rw [noRefs, count_filterMap_files]
      show table.refs fd + _ = _
      omega

/-- Close-on-exec of any table keeps the counts. -/
theorem Counted.doCloexec
    (counted : w.Counted callers)
    (isTable : w.tables t = some table)
    (run : w.fdtableDoCloexec host t = some next) :
    next.Counted callers := by
  have clean := counted.clean t table isTable
  unfold fdtableDoCloexec at run
  rw [isTable, bind_eq_bind, bind_some] at run
  have finished :=
    Loop.foldlM_range
      (motive := fun _ w =>
        w.Counted callers ∧
          ∃ now, w.tables t = some now ∧ now.size = table.size)
      (by
        rintro index before after inside ⟨nowCounted, now, isNow, sameSize⟩
          round
        have number : (BitVec.ofNat 32 index).toNat = index := by
          rw [BitVec.toNat_ofNat]
          exact Nat.mod_eq_of_lt (Nat.lt_trans inside clean.shaped.small)
        unfold cloexecRound at round
        obtain ⟨bit, _, round⟩ := bind_eq_some_iff.mp round
        cases bit with
        | false =>
          cases round
          exact ⟨nowCounted, now, isNow, sameSize⟩
        | true =>
          obtain ⟨⟨_, err⟩, close, rfl⟩ := map_eq_some_iff.mp round
          obtain ⟨c, current, isCurrent, isCurrentTable⟩ :=
            current_of_fdtableClose close
          obtain ⟨closed, _, _, tables⟩ :=
            nowCounted.fdtableClose isCurrent isCurrentTable isNow
              (by rw [number, sameSize]; exact inside) close
          refine ⟨closed, ?_⟩
          rcases tables with ⟨_, rfl⟩ | ⟨_, _, tables⟩
          · exact ⟨now, isNow, sameSize⟩
          · rw [tables]
            exact ⟨_, store_self isNow ..,
              (FdTable.size_store ..).trans sameSize⟩)
      ⟨counted, table, isTable, rfl⟩ run
  exact finished.1

theorem Counted.ofEmpty : FdWorld.empty.Counted fun _ => 0 where
  numbered := fun _ _ impossible => nomatch impossible
  clean := fun _ _ impossible => nomatch impossible
  nameable := fun _ _ impossible => nomatch impossible
  counted := fun _ => rfl

/-- A new file has the reference of the caller that opened it. -/
theorem Counted.create
    (counted : w.Counted callers)
    (isFree : w.objects fd = none)
    (inode : Option InodeId) :
    (w.setObject fd (.opened inode)).Counted (oneMore callers fd) := by
  have noReference : w.slotRefs fd + callers fd = 0 := by
    have file := counted.counted fd
    rwa [isFree] at file
  constructor
  case numbered => exact counted.numbered
  case clean => exact counted.clean
  case nameable => exact counted.nameable
  case counted =>
    intro other
    show FileCounted (w.slotRefs other + oneMore callers fd other)
      (update w.objects fd (some (.opened inode)) other)
    by_cases same : other = fd
    · subst same
      rw [update_self, oneMore_self, ← Nat.add_assoc, noReference]
      exact ⟨by unfold dwordRange; omega, rfl, rfl, rfl⟩
    · rw [update_of_ne same, oneMore_of_ne same]
      exact counted.counted other

theorem Counted.giveBack
    {err : Except Errno Unit}
    (counted : w.Counted (oneMore callers fd))
    (run : w.fdClose host fd = some (next, err)) :
    next.Counted callers := by
  obtain ⟨rfl, _⟩ := eq_put_of_fdClose run
  exact counted.put

theorem Counted.retain
    (counted : w.Counted callers)
    (small :
      ∀ object, w.live fd = some object → object.refcount + 1 < dwordRange)
    (run : w.fdRetain fd = some next) :
    next.Counted (oneMore callers fd) := by
  obtain ⟨rfl, object, isLive⟩ := eq_retained_of_fdRetain run
  exact counted.retained isLive (small object isLive)

theorem tables_of_fGet
    {found : Option FdId}
    (isCurrent : w.current = some t)
    (get : w.fGet f = some found) :
    ∃ table, w.tables t = some table := by
  unfold fGet fdtableGet at get
  simp only [isCurrent, bind_eq_bind, bind_some] at get
  obtain ⟨table, isTable, _⟩ := bind_eq_some_iff.mp get
  exact ⟨table, isTable⟩

theorem tables_of_fInstall
    {cloexec : Bool}
    (isCurrent : w.current = some t)
    (run : w.fInstall host fd cloexec = some (next, result)) :
    ∃ table, w.tables t = some table := by
  obtain ⟨_, start, _⟩ := bind_eq_some_iff.mp run
  have notNegative : ¬ (0 : FdNum).toInt < 0 := by decide
  unfold fInstallStart at start
  simp only [if_neg notNegative, isCurrent, bind_eq_bind,
    bind_some] at start
  obtain ⟨table, isTable, _⟩ := bind_eq_some_iff.mp start
  exact ⟨table, isTable⟩

/-- Every call on a descriptor needs the current table. -/
theorem tables_of_call
    {call : FdCall}
    (isSource : call.source = some f)
    (isCurrent : w.current = some t)
    (run : call.run host w = some (next, result)) :
    ∃ table, w.tables t = some table := by
  cases call with
  | install => cases isSource
  | dup | dupfd =>
    obtain ⟨_, get, _⟩ := bind_eq_some_iff.mp run
    exact tables_of_fGet isCurrent get
  | dup2 | dup3 | dupfdCloexec | setfd =>
    obtain ⟨_, _, run⟩ := bind_eq_some_iff.mp run
    obtain ⟨_, get, _⟩ := bind_eq_some_iff.mp run
    exact tables_of_fGet isCurrent get
  | close =>
    obtain ⟨_, close, _⟩ := bind_eq_some_iff.mp run
    obtain ⟨_, sameCurrent, close⟩ := bind_eq_some_iff.mp close
    cases isCurrent.symm.trans sameCurrent
    obtain ⟨_, table, sameCurrent, isTable⟩ := current_of_fdtableClose close
    cases isCurrent.symm.trans sameCurrent
    exact ⟨table, isTable⟩

end FdWorld

/-- All tables and files, and the references that callers were given. -/
structure FileState where
  world : FdWorld
  callers : FdId → Nat

/--
What happens to tables and files: the operations on whole tables, a switch to
another process, new files, references that callers take and give back, and
the calls of the current process.
-/
inductive FileAction where
  | newTable (host : FdHost) (size : Nat)
  | copyTable (host : FdHost) (t : TableId)
  | shareTable (t : TableId)
  | releaseTable (host : FdHost) (t : TableId)
  | switch (t : Option TableId)
  | lock (locks : InodeId → List FileLock)
  | create (fd : FdId) (inode : Option InodeId)
  | retain (fd : FdId)
  | giveBack (host : FdHost) (fd : FdId)
  | install (host : FdHost) (t : TableId) (fd : FdId) (cloexec : Bool)
  | call (host : FdHost) (t : TableId) (call : FdCall)
  | cloexec (host : FdHost) (t : TableId)

/-- The action uses the arrays of a table within their bounds. -/
def FileAction.StaysInside (w : FdWorld) : FileAction → Prop
  | install host t fd setBit =>
    ∀ table, w.tables t = some table →
      (FdCall.install fd setBit).StaysInside host table
  | call host t request =>
    ∀ table, w.tables t = some table → request.StaysInside host table
  | copyTable _ t =>
    ∀ table, w.tables t = some table → table.size < 2 ^ 31
  | cloexec _ t =>
    ∀ table, w.tables t = some table → table.size ≤ 2 ^ 31
  | _ => True

/--
One step; `f_install` and `fd_close` consume a reference of a caller.  After
an access outside of the arrays anything can have happened.
-/
inductive FileStep : FileState → FileAction → FileState → Prop where
  | newTable {host size w next made callers} :
      size < dwordRange →
      w.fdtableNew host size = some (next, made) →
      FileStep ⟨w, callers⟩ (.newTable host size) ⟨next, callers⟩
  | copyTable {host t w next made callers} :
      w.fdtableCopy host t = some (next, made) →
      FileStep ⟨w, callers⟩ (.copyTable host t) ⟨next, callers⟩
  | shareTable {t w table callers} :
      w.tables t = some table →
      FileStep ⟨w, callers⟩ (.shareTable t)
        ⟨w.setTable t
          (some { table with refcount := incremented table.refcount }),
          callers⟩
  | releaseTable {host t w next callers} :
      w.fdtableRelease host t = some next →
      FileStep ⟨w, callers⟩ (.releaseTable host t) ⟨next, callers⟩
  | switch {t w callers} :
      FileStep ⟨w, callers⟩ (.switch t) ⟨{ w with current := t }, callers⟩
  | lock {locks w callers} :
      FileStep ⟨w, callers⟩ (.lock locks) ⟨{ w with locks := locks }, callers⟩
  | create {fd inode w callers} :
      w.objects fd = none →
      FileStep ⟨w, callers⟩ (.create fd inode)
        ⟨w.setObject fd (.opened inode), oneMore callers fd⟩
  | retain {fd w next callers} :
      w.fdRetain fd = some next →
      FileStep ⟨w, callers⟩ (.retain fd) ⟨next, oneMore callers fd⟩
  | giveBack {host fd w next err callers} :
      w.fdClose host fd = some (next, err) →
      FileStep ⟨w, oneMore callers fd⟩ (.giveBack host fd) ⟨next, callers⟩
  | install {host t fd cloexec w next result callers} :
      w.current = some t →
      w.fInstall host fd cloexec = some (next, result) →
      FileStep ⟨w, oneMore callers fd⟩ (.install host t fd cloexec)
        ⟨next, callers⟩
  | call {host t call f w next result callers} :
      call.source = some f →
      w.current = some t →
      call.run host w = some (next, result) →
      FileStep ⟨w, callers⟩ (.call host t call) ⟨next, callers⟩
  | cloexec {host t w next callers} :
      w.fdtableDoCloexec host t = some next →
      FileStep ⟨w, callers⟩ (.cloexec host t) ⟨next, callers⟩
  | stray {action w next callers after} :
      ¬ FileAction.StaysInside w action →
      FileStep ⟨w, callers⟩ action ⟨next, after⟩

/-- All runs of a kernel that starts without tables and files. -/
def fileMachine : Machine FileState FileAction where
  initial state := state = ⟨.empty, fun _ => 0⟩
  step := FileStep

/--
Where the counts stay right: the last release of a table happens while the
current table reaches all of its descriptors, no file is installed over
another one, and no count goes past 32 bits.
-/
def FileAction.KeepsCounts (state : FileState) : FileAction → Prop
  | copyTable _ t =>
    ∀ table, state.world.tables t = some table →
      ∀ fd object, state.world.objects fd = some object →
      object.refcount + table.refs fd < dwordRange
  | releaseTable _ t =>
    ∀ table, state.world.tables t = some table →
      decremented table.refcount = 0 → state.world.WithinCurrent table
  | retain fd =>
    ∀ object, state.world.live fd = some object →
      object.refcount + 1 < dwordRange
  | install host t _ _ =>
    ∀ table, state.world.tables t = some table →
      ¬ FdWorld.Overwrites host table 0
  | call host t request =>
    ∀ table, state.world.tables t = some table →
      request.KeepsFiles host table ∧ request.Fits state.world table
  | _ => True

/-- The action stays inside of the arrays and keeps the counts. -/
def FileAction.Safe (state : FileState) (action : FileAction) : Prop :=
  action.StaysInside state.world ∧ action.KeepsCounts state

/-- The counts of a kernel are those of its slots and callers. -/
def FileState.Counted (state : FileState) : Prop :=
  state.world.Counted state.callers

theorem FileState.Counted.step
    {state next : FileState}
    {action : FileAction}
    (counted : state.Counted)
    (safe : action.Safe state)
    (taken : FileStep state action next) :
    next.Counted := by
  obtain ⟨inside, safe⟩ := safe
  cases taken with
  | stray leaves => exact (leaves inside).elim
  | newTable small run => exact (FdWorld.Counted.newTable counted small run).1
  | @copyTable host t w after made callers run =>
    have known : ∃ table, w.tables t = some table := by
      obtain ⟨table, isTable, _⟩ := bind_eq_some_iff.mp run
      exact ⟨table, isTable⟩
    obtain ⟨table, isTable⟩ := known
    exact FdWorld.Counted.copyTable counted isTable (safe table isTable) run
  | shareTable isTable => exact FdWorld.Counted.tableCount counted isTable _
  | @releaseTable host t w after callers run =>
    obtain ⟨table, isTable, run⟩ := bind_eq_some_iff.mp run
    exact (FdWorld.Counted.releaseCounted counted isTable
      (safe table isTable) run).1
  | switch | lock => exact FdWorld.Counted.congr counted rfl rfl rfl
  | create isFree => exact FdWorld.Counted.create counted isFree _
  | retain run => exact FdWorld.Counted.retain counted safe run
  | giveBack run => exact FdWorld.Counted.giveBack counted run
  | @install host t fd cloexec w after result callers isCurrent run =>
    obtain ⟨table, isTable⟩ := FdWorld.tables_of_fInstall isCurrent run
    have clean := (FdWorld.Counted.clean counted) t table isTable
    exact FdWorld.Counted.installStep counted isTable
      (safe table isTable)
      (FdWorld.fInstall_cases isCurrent isTable clean.shaped run)
  | @call host t call f w after result callers isSource isCurrent run =>
    obtain ⟨table, isTable⟩ :=
      FdWorld.tables_of_call isSource isCurrent run
    have clean := (FdWorld.Counted.clean counted) t table isTable
    obtain ⟨keeps, fits⟩ := safe table isTable
    exact FdWorld.Counted.call counted isTable isSource keeps fits
      (FdWorld.step_of_run isCurrent isTable clean.shaped run)
  | @cloexec host t w after callers run =>
    obtain ⟨table, isTable, _⟩ := bind_eq_some_iff.mp run
    exact FdWorld.Counted.doCloexec counted isTable run

/-- What the count of every file has to be. -/
def FileState.RefcountsRight (state : FileState) : Prop :=
  ∀ fd,
    match state.world.objects fd with
    | none => state.world.slotRefs fd + state.callers fd = 0
    | some object =>
      object.refcount = state.world.slotRefs fd + state.callers fd ∧
        object.closes = (if object.refcount = 0 then 1 else 0) ∧
        object.freed = decide (object.refcount = 0)

theorem FileState.Counted.refcountsRight
    {state : FileState}
    (counted : state.Counted) :
    state.RefcountsRight := by
  intro fd
  have file := FdWorld.Counted.counted counted fd
  cases isObject : state.world.objects fd with
  | none =>
    rw [isObject] at file
    exact file
  | some object =>
    rw [isObject] at file
    obtain ⟨_, count, closes, freed⟩ := file
    rw [← count] at closes freed
    exact ⟨count, closes, freed⟩

/-- A table that goes away takes its slots with it. -/
theorem FdWorld.slotRefs_freeTable
    {w next : FdWorld}
    {t : TableId}
    {table : FdTable}
    (isTable : w.tables t = some table)
    (numbered : t < w.tableCount)
    (tableCount : next.tableCount = w.tableCount)
    (tables : next.tables = (w.setTable t none).tables)
    (fd : FdId) :
    next.slotRefs fd + table.refs fd = w.slotRefs fd := by
  have same : next.slotRefs fd = (w.setTable t none).slotRefs fd := by
    unfold slotRefs tableRefs
    rw [tables, tableCount]
    rfl
  have balance := slotRefs_setTable numbered none fd
  unfold tableRefs at balance
  rw [isTable] at balance
  rw [same]
  exact balance

/--
In every safe run the count of each file is the number of slots that hold it
and of the references that callers still have, and the file was closed once if
there are none and not at all otherwise; a safe last release of a table of any
size gives back the reference of every descriptor in it.
-/
theorem file_counts_are_references
    {state : FileState}
    (reachable : (fileMachine.restrict FileAction.Safe).Reachable state) :
    state.RefcountsRight ∧
      ∀ host t table next,
        state.world.tables t = some table →
        decremented table.refcount = 0 →
        FileAction.Safe state (.releaseTable host t) →
        state.world.fdtableRelease host t = some next →
        next.tables t = none ∧
          FileState.RefcountsRight ⟨next, state.callers⟩ ∧
          ∀ fd,
            next.slotRefs fd + table.refs fd = state.world.slotRefs fd := by
  have counted : state.Counted := by
    refine Machine.Reachable.invariant
      (motive := FileState.Counted) ?_ ?_ reachable
    · rintro _ rfl
      exact FdWorld.Counted.ofEmpty
    · intro before action after counted taken
      exact counted.step taken.1 taken.2
  refine ⟨counted.refcountsRight, ?_⟩
  intro host t table next isTable last safe run
  have released : FileState.Counted ⟨next, state.callers⟩ :=
    counted.step safe (.releaseTable run)
  obtain ⟨sameTable, isSame, run⟩ := bind_eq_some_iff.mp run
  cases isTable.symm.trans isSame
  obtain ⟨tableCount, tables⟩ :=
    (FdWorld.Counted.releaseCounted counted isTable (safe.2 table isTable)
      run).2 last
  refine ⟨?_, released.refcountsRight, ?_⟩
  · rw [tables]
    exact update_self ..
  · exact FdWorld.slotRefs_freeTable isTable
      (FdWorld.Counted.numbered counted t table isTable) tableCount tables

/-- The world an operation leaves behind. -/
def FdWorld.leftBy {Result : Type} : Option (FdWorld × Result) → FdWorld
  | some (w, _) => w
  | none => .empty

/-- A process with a table of one slot that is being used. -/
def oneSlot : FdWorld :=
  { FdWorld.leftBy (FdWorld.empty.fdtableNew roomyHost 1) with
    current := some 0 }

/-- File 5 in the slot of the process. -/
def oneFile : FdWorld :=
  .leftBy
    (FdWorld.fInstall roomyHost (oneSlot.setObject 5 (.opened none)) 5 true)

/-- Another process that has two files open in a table of two slots. -/
def twoFiles : FdWorld :=
  let second : FdWorld :=
    { FdWorld.leftBy (oneFile.fdtableNew roomyHost 2) with current := some 1 }
  let filled : FdWorld :=
    .leftBy
      (FdWorld.fInstall roomyHost (second.setObject 6 (.opened none)) 6 true)
  .leftBy
    (FdWorld.fInstall roomyHost (filled.setObject 7 (.opened none)) 7 true)

/-- `oneFile` is reached by safe steps. -/
theorem oneFile_reachable :
    (fileMachine.restrict FileAction.Safe).Reachable
      ⟨oneFile, fun _ => 0⟩ := by
  have new :
      FileStep ⟨.empty, fun _ => 0⟩ (.newTable roomyHost 1) ⟨_, fun _ => 0⟩ :=
    .newTable (by decide) rfl
  have opened :
      FileStep ⟨oneSlot, fun _ => 0⟩ (.create 5 none) _ :=
    .create rfl
  have install :
      FileStep
        ⟨oneSlot.setObject 5 (.opened none), oneMore (fun _ => 0) 5⟩
        (.install roomyHost 0 5 true) ⟨oneFile, fun _ => 0⟩ :=
    .install rfl rfl
  have switch :
      FileStep ⟨_, fun _ => 0⟩ (.switch (some 0)) ⟨oneSlot, fun _ => 0⟩ :=
    .switch
  refine .step (.step (.step (.step (.initial rfl) ⟨?_, new⟩)
    ⟨?_, switch⟩) ⟨?_, opened⟩) ⟨?_, install⟩
  · exact ⟨trivial, trivial⟩
  · exact ⟨trivial, trivial⟩
  · exact ⟨trivial, trivial⟩
  constructor
  · intro table isTable _
    cases isTable
    exact .inl (by decide)
  · rintro table isTable ⟨_, _, occupied⟩
    cases isTable
    exact occupied rfl

/-- Releasing the only table closes its file. -/
theorem last_release_closes :
    ∃ next,
      oneFile.fdtableRelease roomyHost 0 = some next ∧
        next.tables 0 = none ∧
        next.slotRefs 5 + 1 = oneFile.slotRefs 5 := by
  have safe :
      FileAction.Safe ⟨oneFile, fun _ => 0⟩ (.releaseTable roomyHost 0) := by
    refine ⟨trivial, ?_⟩
    intro table isTable _ c current isCurrent isCurrentTable index fd isSlot
    cases isCurrent
    cases isTable.symm.trans isCurrentTable
    exact FdTable.lt_size_of_slot isSlot
  obtain ⟨released, _, refs⟩ :=
    (file_counts_are_references oneFile_reachable).2 roomyHost 0 _ _ rfl rfl
      safe rfl
  exact ⟨_, rfl, released, refs 5⟩

/--
A table of two slots that is released while the current one has a single slot:
the file in its second slot keeps its count without a reference.
-/
theorem longer_table_leaks :
    ∃ state object,
      fileMachine.Reachable state ∧
        state.world.objects 7 = some object ∧
        state.world.tables 1 = none ∧
        object.refcount = 1 ∧ object.closes = 0 ∧
        state.world.slotRefs 7 + state.callers 7 = 0 := by
  let second : FdWorld :=
    .leftBy (oneFile.fdtableNew roomyHost 2)
  have new :
      FileStep ⟨oneFile, fun _ => 0⟩ (.newTable roomyHost 2)
        ⟨second, fun _ => 0⟩ :=
    .newTable (by decide) rfl
  let opened := FdWorld.setObject { second with current := some 1 } 6
    (.opened none)
  let filled := FdWorld.leftBy (FdWorld.fInstall roomyHost opened 6 true)
  have install :
      FileStep ⟨opened, oneMore (fun _ => 0) 6⟩ (.install roomyHost 1 6 true)
        ⟨filled, fun _ => 0⟩ :=
    .install rfl rfl
  have installAgain :
      FileStep
        ⟨filled.setObject 7 (.opened none), oneMore (fun _ => 0) 7⟩
        (.install roomyHost 1 7 true) ⟨twoFiles, fun _ => 0⟩ :=
    .install rfl rfl
  have released :
      FileStep ⟨{ twoFiles with current := some 0 }, fun _ => 0⟩
        (.releaseTable roomyHost 1) ⟨_, fun _ => 0⟩ :=
    .releaseTable rfl
  refine ⟨_, _, (((((((oneFile_reachable.of_restrict.step new).step
    (.switch (t := some 1))).step (.create rfl)).step install).step
    (.create rfl)).step installAgain).step (.switch (t := some 0))).step
    released, rfl, rfl, rfl, rfl, rfl⟩

end GuestKernel
