import GuestKernel.FdCalls

namespace GuestKernel
open Option
open FdTable

/-!
# Descriptor calls that fail

With arguments that are descriptor numbers, no call leaves the arrays or fails
an assertion, and a call that returns an error changes nothing.  The exception
is `close`: it empties the slot whatever the file's own `close` returns.
-/

/-- The current table is in order, and so are the files in its slots. -/
structure FdWorld.Usable
    (w : FdWorld) (t : TableId) (table : FdTable) : Prop where
  isCurrent : w.current = some t
  isTable : w.tables t = some table
  shaped : table.Shaped
  counted :
    ∀ index fd, table.slot index = some fd →
      ∃ object,
        w.live fd = some object ∧
          0 < object.refcount ∧ object.refcount < dwordRange

/-- All slots, close-on-exec bits and files are as before. -/
structure FdWorld.SameDescriptors (w next : FdWorld) : Prop where
  slots :
    ∀ t table, w.tables t = some table →
      ∃ after,
        next.tables t = some after ∧
          ∀ index,
            after.slot index = table.slot index ∧
              after.bit index = table.bit index
  objects : next.objects = w.objects

/--
The arguments are descriptor numbers: none of them is negative, the search for
a free slot does not go past the largest number, and `F_DUPFD_CLOEXEC` finds
one.
-/
def FdCall.Regular (host : FdHost) (table : FdTable) : FdCall → Prop
  | install _ _ => False
  | dup _ => FdWorld.ScanFits host table 0
  | dup2 _ newF | dup3 _ newF _ => newF.toNat < 2 ^ 31
  | dupfd _ arg => arg.toNat < 2 ^ 31 ∧ FdWorld.ScanFits host table arg.toNat
  | dupfdCloexec _ arg =>
    arg.toNat < 2 ^ 31 ∧ FdWorld.Available host table arg.toNat
  | setfd _ _ | close _ => True

namespace FdWorld

variable
  {host : FdHost}
  {w next : FdWorld}
  {t : TableId}
  {table : FdTable}
  {fd : FdId}
  {f : FdNum}
  {result : Except Errno FdNum}

theorem ScanFits.of_available
    {start : Nat}
    (available : Available host table start) :
    ScanFits host table start := by
  obtain ⟨place, loop, below, _⟩ := available
  obtain ⟨after, most, _, free⟩ := installLoop_spec loop
  by_cases found : place < start + (installSize host table - start)
  · exact .inr ⟨place, after, below, (free found).2⟩
  · exact .inl (by omega)

/-- A file in use stays in use when a reference is taken. -/
theorem live_retained
    {other : FdId}
    {object : FdObject}
    (fd : FdId)
    (isLive : w.live other = some object) :
    ∃ after, (w.retained fd).live other = some after := by
  obtain ⟨isObject, notFreed⟩ := filter_eq_some_iff.mp isLive
  by_cases same : other = fd
  · refine ⟨object.retain, ?_⟩
    unfold live retained mapObject
    simp only [if_pos same, isObject, map_some]
    exact filter_eq_some_iff.mpr ⟨rfl, notFreed⟩
  · refine ⟨object, ?_⟩
    unfold live retained mapObject
    simp only [if_neg same]
    exact isLive

/-- Giving a new reference back restores the file. -/
theorem put_retained
    {object : FdObject}
    (isLive : w.live fd = some object)
    (positive : 0 < object.refcount)
    (small : object.refcount < dwordRange) :
    ((w.retained fd).put fd).objects = w.objects := by
  have restored : object.retain.put = object := by
    have count : decremented object.retain.refcount = object.refcount :=
      decremented_incremented small
    unfold FdObject.put
    rw [count, if_neg (by omega)]
    rfl
  funext other
  by_cases same : other = fd
  · subst same
    unfold put retained mapObject
    simp only [↓reduceIte, objects_of_live isLive, map_some, restored]
  · unfold put retained mapObject
    simp only [if_neg same]

theorem fClose_isSome
    (host : FdHost)
    (isCurrent : w.current = some t)
    (isTable : w.tables t = some table)
    (shaped : table.Shaped)
    (live :
      ∀ fd, table.slot f.toNat = some fd →
        ∃ object, w.live fd = some object) :
    ∃ after err, w.fClose host f = some (after, err) := by
  have get := fdtableGet_run (f := f) isCurrent isTable isTable
    (.inr (Nat.le_refl _))
  unfold fClose
  rw [isCurrent, bind_eq_bind, bind_some]
  cases found : table.get table.size f with
  | none =>
    rw [found] at get
    exact ⟨w, _, fdtableClose_empty host get⟩
  | some fd =>
    rw [found] at get
    obtain ⟨positive, isSlot⟩ := get_eq_some_iff.mp found
    obtain ⟨object, isLive⟩ := live fd isSlot
    obtain ⟨err, closed⟩ := fdtableClose_open host get isLive isTable
      shaped ⟨positive, lt_size_of_slot isSlot⟩
    exact ⟨_, err, closed⟩

/-- `sys_dup3` runs to its end if the new descriptor is not negative. -/
theorem sysDup3_isSome
    {newF : FdNum}
    {flags : BitVec 32}
    (usable : w.Usable t table)
    (positive :
      ∀ fd, table.get table.size f = some fd → newF.toNat < 2 ^ 31) :
    ∃ next result, w.sysDup3 host f newF flags = some (next, result) := by
  obtain ⟨isCurrent, isTable, shaped, counted⟩ := usable
  unfold sysDup3
  simp only [isCurrent, bind_eq_bind, bind_some,
    fGet_run isCurrent isTable]
  cases found : table.get table.size f with
  | none =>
    exact ⟨w, _, rfl⟩
  | some fd =>
    have below := positive fd found
    obtain ⟨object, isLive, _⟩ :=
      counted _ fd (get_eq_some_iff.mp found).2
    simp only [fdtableExpand_run host isTable, bind_some]
    cases host.expandError table (newF + 1).toNat with
    | some err =>
      exact ⟨w, _, rfl⟩
    | none =>
      let grown := w.grow t (newF + 1).toNat
      have isGrown :
          (grown.retained fd).tables t =
            some (table.grow (newF + 1).toNat) :=
        grow_self isTable _
      have grownShaped : (table.grow (newF + 1).toNat).Shaped :=
        shaped.grow (BitVec.isLt _)
      have stillLive :
          ∀ old, (table.grow (newF + 1).toNat).slot newF.toNat =
              some old →
            ∃ object, (grown.retained fd).live old = some object := by
        intro old isOld
        rw [slot_grow] at isOld
        obtain ⟨oldObject, oldLive, _⟩ := counted _ old isOld
        have grownLive : grown.live old = some oldObject := oldLive
        exact live_retained fd grownLive
      have retain : grown.fdRetain fd = some (grown.retained fd) :=
        fdRetain_of_live (show grown.live fd = some object from isLive)
      obtain ⟨after, err, close⟩ :=
        fClose_isSome (w := grown.retained fd) (f := newF) host isCurrent
          isGrown grownShaped stillLive
      have isClosed :=
        eq_closedSlot_of_fClose (w := grown.retained fd) isCurrent isGrown
          grownShaped below close
      subst isClosed
      have inside : Inside newF (table.grow (newF + 1).toNat) := by
        refine ⟨below, ?_⟩
        rw [size_grow, toNat_add_one below]
        omega
      have replaced :=
        replace_run isGrown grownShaped inside fd
          (decide (flags &&& oCloexec ≠ 0))
      obtain ⟨written, write, last⟩ :=
        bind_eq_some_iff.mp replaced
      show ∃ next result,
        (grown.fdRetain fd).bind _ = some (next, result)
      simp only [retain, bind_some, close, write]
      by_cases flag : flags &&& oCloexec ≠ 0
      · rw [if_pos (decide_eq_true flag)] at last
        rw [if_pos flag, last]
        exact ⟨_, _, rfl⟩
      · rw [if_neg flag]
        exact ⟨_, _, rfl⟩

/-- Duplicating an open descriptor runs to its end. -/
theorem duplicate_isSome
    {start : FdNum}
    (usable : w.Usable t table)
    (found : table.get table.size f = some fd)
    (positive : start.toNat < 2 ^ 31)
    (fits : ScanFits host table start.toNat) :
    w.fdRetain fd = some (w.retained fd) ∧
      ∃ next result,
        (w.retained fd).fInstallStart host fd start = some (next, result) ∧
          (Available host table start.toNat → ∃ f, result = .ok f) := by
  obtain ⟨isCurrent, isTable, shaped, counted⟩ := usable
  obtain ⟨object, isLive, _⟩ := counted _ fd (get_eq_some_iff.mp found).2
  obtain ⟨after, stillLive⟩ := live_retained fd isLive
  exact ⟨fdRetain_of_live isLive,
    fInstallStart_isSome (w := w.retained fd) isCurrent isTable shaped
      stillLive positive fits⟩

/-- A call on regular arguments stays inside and fails no assertion. -/
theorem run_isSome
    {call : FdCall}
    (usable : w.Usable t table)
    (isSource : call.source = some f)
    (regular :
      ∀ fd, table.get table.size f = some fd → call.Regular host table) :
    ∃ next result, call.run host w = some (next, result) := by
  have usable' := usable
  obtain ⟨isCurrent, isTable, shaped, counted⟩ := usable'
  have get := fGet_run (f := f) isCurrent isTable
  cases call with
  | install fd cloexec =>
    cases isSource
  | dup2 source newF | dup3 source newF flags =>
    cases isSource
    exact sysDup3_isSome usable regular
  | close source =>
    cases isSource
    have live :
        ∀ fd, table.slot f.toNat = some fd →
          ∃ object, w.live fd = some object := by
      intro fd isSlot
      obtain ⟨object, isLive, _⟩ := counted _ fd isSlot
      exact ⟨object, isLive⟩
    obtain ⟨after, err, close⟩ :=
      fClose_isSome host isCurrent isTable shaped live
    simp only [FdCall.run, sysClose, close]
    exact ⟨_, _, rfl⟩
  | setfd source arg =>
    cases isSource
    simp only [FdCall.run, fcntlSetfd, isCurrent, get,
      bind_eq_bind, bind_some]
    cases found : table.get table.size f with
    | none =>
      exact ⟨w, _, rfl⟩
    | some fd =>
      obtain ⟨positive, isSlot⟩ := get_eq_some_iff.mp found
      simp only [writeBit_run isTable shaped
        ⟨positive, lt_size_of_slot isSlot⟩, bind_some]
      exact ⟨_, _, rfl⟩
  | dup source =>
    cases isSource
    simp only [FdCall.run, sysDup, get, bind_eq_bind,
      bind_some]
    cases found : table.get table.size f with
    | none =>
      exact ⟨w, _, rfl⟩
    | some fd =>
      obtain ⟨retain, after, result, install, _⟩ :=
        duplicate_isSome usable found (by decide : (0 : FdNum).toNat < _)
          (regular fd found)
      simp only [retain, bind_some, fInstall, install,
        bind_eq_bind]
      cases result <;> exact ⟨_, _, rfl⟩
  | dupfd source arg =>
    cases isSource
    simp only [FdCall.run, fcntlDupfd, get, bind_eq_bind,
      bind_some]
    cases found : table.get table.size f with
    | none =>
      exact ⟨w, _, rfl⟩
    | some fd =>
      obtain ⟨positive, fits⟩ := regular fd found
      obtain ⟨retain, after, result, install, _⟩ :=
        duplicate_isSome usable found positive fits
      simp only [retain, bind_some, install]
      exact ⟨_, _, rfl⟩
  | dupfdCloexec source arg =>
    cases isSource
    simp only [FdCall.run, fcntlDupfdCloexec, isCurrent, get,
      bind_eq_bind, bind_some]
    cases found : table.get table.size f with
    | none =>
      exact ⟨w, _, rfl⟩
    | some fd =>
      obtain ⟨positive, available⟩ := regular fd found
      obtain ⟨retain, after, result, install, installs⟩ :=
        duplicate_isSome usable found positive
          (ScanFits.of_available available)
      obtain ⟨newF, rfl⟩ := installs available
      have isRetained : (w.retained fd).tables t = some table := isTable
      have step :
          arg.toNat < 2 ^ 31 ∧
            InstallStep host (w.retained fd) t table fd arg.toNat false
              after (.ok newF) :=
        fInstallStart_cases isCurrent isTable shaped install
      obtain ⟨last, setBit, _⟩ :=
        writeBit_installed isRetained shaped step.2
      simp only [retain, bind_some, install, setBit]
      exact ⟨_, _, rfl⟩

theorem SameDescriptors.refl (w : FdWorld) : w.SameDescriptors w where
  slots := fun _ table isTable => ⟨table, isTable, fun _ => ⟨rfl, rfl⟩⟩
  objects := rfl

/-- Growing a table adds empty slots only. -/
theorem SameDescriptors.of_grow
    (objects : next.objects = w.objects)
    (size : Nat)
    (tables : next.tables = (w.grow t size).tables) :
    w.SameDescriptors next where
  slots := by
    intro other table isTable
    rw [tables]
    unfold grow
    rw [mapTable_tables, isTable]
    by_cases same : other = t
    · rw [if_pos same]
      exact ⟨table.grow size, rfl, fun index =>
        ⟨table.slot_grow size index, table.bit_grow size index⟩⟩
    · rw [if_neg same]
      exact ⟨table, rfl, fun _ => ⟨rfl, rfl⟩⟩
  objects := objects

variable {err : Errno}

/-- A call that fails changes nothing, unless it closes. -/
theorem sameDescriptors_of_error
    {call : FdCall}
    (usable : w.Usable t table)
    (isSource : call.source = some f)
    (notClose :
      ∀ fd, call = .close f → table.get table.size f ≠ some fd)
    (step : call.Step host w t table next (.error err)) :
    w.SameDescriptors next := by
  cases step with
  | notOpen | refused => exact .refl w
  | install => cases isSource
  | close found =>
    cases isSource
    exact (notClose _ rfl found).elim
  | duplicate _ _ found installed =>
    obtain ⟨object, isLive, positive, small⟩ :=
      usable.counted _ _ (get_eq_some_iff.mp found).2
    have restored := put_retained isLive positive small
    cases installed with
    | refused => exact ⟨(SameDescriptors.refl w).slots, restored⟩
    | pastLast size => exact .of_grow restored size rfl

/-- An error of `fd_close` is the error of the file's own `close`. -/
theorem closeError_of_fdClose
    (run : w.fdClose host fd = some (next, .error err)) :
    host.closeError fd = some err := by
  unfold fdClose at run
  obtain ⟨object, _, run⟩ := bind_eq_some_iff.mp run
  by_cases last : decremented object.refcount = 0
  · simp only [if_pos last] at run
    cases isError : host.closeError fd with
    | none =>
      rw [isError] at run
      cases run
    | some other =>
      rw [isError] at run
      cases run
      rfl
  · simp only [if_neg last] at run
    cases run

/-- An error of `close` on an open descriptor is its file's. -/
theorem closeError_of_fClose
    (usable : w.Usable t table)
    (found : table.get table.size f = some fd)
    (run : w.fClose host f = some (next, .error err)) :
    host.closeError fd = some err := by
  have get := fdtableGet_run (f := f) usable.isCurrent usable.isTable
    usable.isTable (.inr (Nat.le_refl _))
  unfold fClose fdtableClose at run
  simp only [usable.isCurrent, get, found, bind_eq_bind,
    bind_some] at run
  obtain ⟨_, _, run⟩ := bind_eq_some_iff.mp run
  obtain ⟨⟨after, result⟩, close, run⟩ := bind_eq_some_iff.mp run
  obtain ⟨_, _, run⟩ := bind_eq_some_iff.mp run
  obtain ⟨_, _, run⟩ := bind_eq_some_iff.mp run
  cases run
  exact closeError_of_fdClose close

/--
On regular arguments a descriptor call leaves no array and fails no assertion,
and if it returns an error it changed no slot, no bit and no file; only
`close` empties its slot also when the file's own `close` fails.
-/
theorem descriptor_calls_are_safe
    {call : FdCall}
    (usable : w.Usable t table)
    (isSource : call.source = some f)
    (regular :
      ∀ fd, table.get table.size f = some fd → call.Regular host table) :
    ∃ next result,
      call.run host w = some (next, result) ∧
        ∀ err, result = .error err →
          w.SameDescriptors next ∨
            ∃ fd after,
              call = .close f ∧
                table.get table.size f = some fd ∧
                host.closeError fd = some err ∧
                next.tables t = some after ∧
                (∀ index,
                  after.slot index =
                      (if index = f.toNat then none
                        else table.slot index) ∧
                    after.bit index =
                      (if index = f.toNat then false
                        else table.bit index)) ∧
                next.objects = (w.put fd).objects := by
  obtain ⟨next, result, run⟩ := run_isSome usable isSource regular
  have step :=
    step_of_run usable.isCurrent usable.isTable usable.shaped run
  refine ⟨next, result, run, ?_⟩
  rintro err rfl
  by_cases closes : ∃ fd, call = .close f ∧ table.get table.size f = some fd
  · obtain ⟨fd, rfl, found⟩ := closes
    obtain ⟨_, isSlot⟩ := get_eq_some_iff.mp found
    have inside := lt_size_of_slot isSlot
    obtain ⟨object, isLive, _⟩ := usable.counted _ fd isSlot
    have isError : host.closeError fd = some err := by
      simp only [FdCall.run, sysClose] at run
      obtain ⟨⟨after, closeResult⟩, close, same⟩ :=
        bind_eq_some_iff.mp run
      cases closeResult with
      | ok => cases same
      | error closeErr =>
        cases same
        exact closeError_of_fClose usable found close
    have isNext : next = w.closed t f.toNat fd := by
      cases step with
      | notOpen isSource empty =>
        cases isSource
        cases empty.symm.trans found
      | close isOpen =>
        cases isOpen.symm.trans found
        rfl
      | duplicate _ impossible | refused _ impossible => cases impossible
    have isAfter : next.tables t = some (table.store f.toNat none false) := by
      have closed := closedSlot_self usable.isTable f.toNat
      unfold closedSlot at closed
      rw [isSlot] at closed
      rw [isNext]
      exact closed
    refine .inr ⟨fd, _, rfl, found, isError, isAfter, ?_, ?_⟩
    · intro index
      exact ⟨slot_store inside none false index,
        bit_store usable.shaped inside none false index⟩
    · rw [isNext]
      show ((w.unlocked t fd).put fd).objects = _
      unfold put mapObject
      rw [(eq_of_unlocked w t fd).1]
  · refine .inl (sameDescriptors_of_error usable isSource ?_ step)
    intro fd isClose found
    exact closes ⟨fd, isClose, found⟩

/-- One table of one slot, with an open file in it. -/
def oneFile : FdWorld where
  objects := fun fd =>
    if fd = 7 then
      some { refcount := 1, inode := none, closes := 0, freed := false }
    else none
  tables := fun t =>
    if t = 0 then
      some { refcount := 1, files := [some 7], cloexec := [false] }
    else none
  tableCount := 1
  current := some 0
  locks := fun _ => []

/-- A process that may open one file, whose `close` fails. -/
def failingClose : FdHost where
  limit := 1
  memory := true
  closeError := fun _ => some (.host 5)

theorem oneFile_usable :
    oneFile.Usable 0
      { refcount := 1, files := [some 7], cloexec := [false] } where
  isCurrent := rfl
  isTable := rfl
  shaped := ⟨rfl, by decide⟩
  counted := by
    intro index fd isSlot
    cases index with
    | zero =>
      cases isSlot
      exact ⟨_, rfl, by decide, by decide⟩
    | succ index => cases isSlot

/-- With no descriptor left, `dup` fails and changes nothing. -/
theorem dup_at_the_limit :
    ∃ next,
      (FdCall.dup 0).run failingClose oneFile = some (next, .error .mfile) ∧
        oneFile.SameDescriptors next := by
  obtain ⟨next, result, run, unchanged⟩ :
      ∃ next result,
        (FdCall.dup 0).run failingClose oneFile = some (next, result) ∧ _ :=
    descriptor_calls_are_safe oneFile_usable rfl fun _ _ =>
      .inl (by decide)
  have isFull :
      ∃ next,
        (FdCall.dup 0).run failingClose oneFile =
          some (next, .error .mfile) :=
    ⟨_, rfl⟩
  obtain ⟨_, isFull⟩ := isFull
  cases isFull.symm.trans run
  rcases unchanged .mfile rfl with same | ⟨_, _, impossible, _⟩
  · exact ⟨_, isFull, same⟩
  · cases impossible

/-- A `close` that returns an error has emptied its slot. -/
theorem failed_close_empties_slot :
    oneFile.Usable 0
        { refcount := 1, files := [some 7], cloexec := [false] } ∧
      ∃ next,
        (FdCall.close 0).run failingClose oneFile =
            some (next, .error (.host 5)) ∧
          ¬ oneFile.SameDescriptors next := by
  refine ⟨oneFile_usable, _, rfl, ?_⟩
  intro same
  obtain ⟨after, isAfter, slots⟩ := same.slots 0 _ rfl
  cases isAfter
  cases (slots 0).1

end FdWorld

end GuestKernel
