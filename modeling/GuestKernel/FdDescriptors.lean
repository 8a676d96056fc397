import GuestKernel.FdCalls
import GuestKernel.Machine

namespace GuestKernel
open Option Function

/-!
# What was asked of the descriptors

A process sees its table as a map from descriptors to open files with a
close-on-exec bit, and a call asks for one change of that map.  Every run of
calls leaves the table in the state that was asked for, except where
`f_install_start` installs over another file and where `dup2` of a descriptor
to itself drops the bit and the POSIX locks.
-/

/-- The open descriptors, with the close-on-exec bits requested for them. -/
abbrev DescriptorMap := Nat → Option (FdId × Bool)

namespace FdTable

variable {table : FdTable} {index size : Nat}

/-- The map a table stores in its two arrays. -/
def descriptors (table : FdTable) : DescriptorMap :=
  fun index => (table.slot index).map fun fd => (fd, table.bit index)

/-- A table with no bit set on an empty slot. -/
structure Clean (table : FdTable) : Prop where
  shaped : table.Shaped
  noStray : ∀ index, table.slot index = none → table.bit index = false

@[simp] theorem descriptors_grow (table : FdTable) (size : Nat) :
    (table.grow size).descriptors = table.descriptors := by
  funext index
  unfold descriptors
  rw [slot_grow, bit_grow]

theorem descriptors_store
    (shaped : table.Shaped)
    (inside : index < table.size)
    (fd : Option FdId)
    (bit : Bool) :
    (table.store index fd bit).descriptors =
      update table.descriptors index
        (fd.map fun fd => (fd, bit)) := by
  funext other
  unfold descriptors
  rw [slot_store inside, bit_store shaped inside]
  by_cases same : other = index
  · subst same
    rw [update_self, if_pos rfl, if_pos rfl]
  · rw [update_of_ne same, if_neg same, if_neg same]

theorem Clean.grow
    (clean : table.Clean)
    (small : size < dwordRange) :
    (table.grow size).Clean where
  shaped := clean.shaped.grow small
  noStray := by
    intro index
    rw [slot_grow, bit_grow]
    exact clean.noStray index

theorem Clean.store
    (clean : table.Clean)
    (inside : index < table.size)
    (fd : Option FdId)
    (bit : Bool)
    (stray : fd = none → bit = false) :
    (table.store index fd bit).Clean where
  shaped := clean.shaped.store ..
  noStray := by
    intro other
    rw [slot_store inside, bit_store clean.shaped inside]
    by_cases same : other = index
    · rw [if_pos same, if_pos same]
      exact stray
    · rw [if_neg same, if_neg same]
      exact clean.noStray other

theorem Clean.stray_eq_false
    (clean : table.Clean)
    (index : Nat) :
    ((table.slot index).isNone && table.bit index) = false := by
  cases content : table.slot index with
  | none => exact clean.noStray index content
  | some fd => rfl

theorem store_same
    (shaped : table.Shaped)
    (inside : index < table.size) :
    table.store index (table.slot index) (table.bit index) = table := by
  have within : index < table.files.length := inside
  have bitWithin : index < table.cloexec.length := by
    rw [shaped.bits]
    exact within
  simp [store, slot, FdTable.bit, List.getElem?_eq_getElem within,
    List.getElem?_eq_getElem bitWithin]

theorem descriptors_eq_none_iff :
    table.descriptors index = none ↔ table.slot index = none :=
  map_eq_none_iff

end FdTable

/-- The lowest descriptor from `start` on that is not open. -/
def LowestFree (log : DescriptorMap) (start : Nat) (f : FdNum) : Prop :=
  start ≤ f.toNat ∧ log f.toNat = none ∧
    ∀ index, start ≤ index → index < f.toNat → log index ≠ none

/-- An open descriptor. -/
def IsOpen (log : DescriptorMap) (f : FdNum) : Prop :=
  f.toNat < 2 ^ 31 ∧ log f.toNat ≠ none

/-- The same file with another close-on-exec bit. -/
def withBit
    (bit : Bool) (descriptor : Option (FdId × Bool)) : Option (FdId × Bool) :=
  descriptor.map fun descriptor => (descriptor.1, bit)

/-- The descriptors a call asked for, when it returned this result. -/
def FdCall.requested
    (log : DescriptorMap) : FdCall → Except Errno FdNum → DescriptorMap
  | install fd cloexec, .ok newF =>
    update log newF.toNat (some (fd, cloexec))
  | dup f, .ok newF | dupfd f _, .ok newF =>
    update log newF.toNat (withBit false (log f.toNat))
  | dupfdCloexec f _, .ok newF =>
    update log newF.toNat (withBit true (log f.toNat))
  | dup2 f _, .ok newF =>
    if f = newF then log
    else update log newF.toNat (withBit false (log f.toNat))
  | dup3 f _ flags, .ok newF =>
    update log newF.toNat
      (withBit (flags &&& oCloexec ≠ 0) (log f.toNat))
  | setfd f arg, .ok _ =>
    update log f.toNat
      (withBit (arg &&& 1 ≠ 0) (log f.toNat))
  | close f, _ =>
    if f.toNat < 2 ^ 31 then update log f.toNat none else log
  | _, .error _ => log

/-- What held the descriptor before was closed, and nothing else. -/
def Replaced
    (log : DescriptorMap)
    (w next : FdWorld)
    (t : TableId)
    (f newF : FdNum) : Prop :=
  ∃ fd bit,
    log f.toNat = some (fd, bit) ∧
      match log newF.toNat with
      | none =>
        next.objects = (w.retained fd).objects ∧ next.locks = w.locks
      | some (old, _) =>
        next.objects = ((w.retained fd).put old).objects ∧
          ∀ object, (w.retained fd).live old = some object →
            next.locks = (w.removeOwnedLocks object t).locks

/-- What a call that returned this result has to have done. -/
def FdCall.Lawful
    (log : DescriptorMap)
    (w next : FdWorld)
    (t : TableId) : FdCall → Except Errno FdNum → Prop
  | install _ _, .ok newF => LowestFree log 0 newF
  | dup f, .ok newF => IsOpen log f ∧ LowestFree log 0 newF
  | dupfd f arg, .ok newF | dupfdCloexec f arg, .ok newF =>
    IsOpen log f ∧ LowestFree log arg.toNat newF
  | dup2 f target, .ok newF =>
    newF = target ∧ IsOpen log f ∧
      if f = target then
        next.tables = w.tables ∧ next.locks = w.locks
      else
        Replaced log w next t f target
  | dup3 f target _, .ok newF =>
    newF = target ∧ IsOpen log f ∧ Replaced log w next t f target
  | setfd f _, .ok _ | close f, .ok _ => IsOpen log f
  | dup2 _ _, .error _ => next = w
  | _, .error _ => True

/-- Where a call starts to look for a free descriptor. -/
def FdCall.installsFrom : FdCall → Option Nat
  | install _ _ | dup _ => some 0
  | dupfd _ arg | dupfdCloexec _ arg => some arg.toNat
  | dup2 _ _ | dup3 _ _ _ | setfd _ _ | close _ => none

/-- A call does not install a file over another one. -/
def FdCall.KeepsFiles
    (host : FdHost) (table : FdTable) (call : FdCall) : Prop :=
  ∀ start, call.installsFrom = some start →
    (∀ f, call.source = some f → table.get table.size f ≠ none) →
    ¬ FdWorld.Overwrites host table start

/--
The call uses the arrays within their bounds: the search for a free slot does
not pass the largest descriptor, `F_DUPFD_CLOEXEC` finds a slot, and no file
goes to a negative descriptor.
-/
def FdCall.Bounded (host : FdHost) (table : FdTable) : FdCall → Prop
  | install _ _ | dup _ => FdWorld.ScanFits host table 0
  | dupfd _ arg =>
    arg.toNat < 2 ^ 31 → FdWorld.ScanFits host table arg.toNat
  | dupfdCloexec _ arg =>
    arg.toNat < 2 ^ 31 → FdWorld.Available host table arg.toNat
  | dup2 _ newF | dup3 _ newF _ =>
    newF.toNat < 2 ^ 31 ∨ host.expandError table (newF + 1).toNat ≠ none
  | setfd _ _ | close _ => True

/-- A call that gets past its test of the descriptor is `Bounded`. -/
def FdCall.StaysInside
    (host : FdHost) (table : FdTable) (call : FdCall) : Prop :=
  (∀ f, call.source = some f → table.get table.size f ≠ none) →
    call.Bounded host table

/-- No file in the table was freed. -/
def FdWorld.FilesLive (w : FdWorld) (table : FdTable) : Prop :=
  ∀ index fd, table.slot index = some fd → w.live fd ≠ none

/--
Where the code does what is asked: nothing is installed over another file, and
`dup2` of a descriptor to itself finds no bit and no POSIX lock to drop.
-/
def FdCall.Harmless
    (host : FdHost)
    (w : FdWorld)
    (t : TableId)
    (table : FdTable)
    (call : FdCall) : Prop :=
  call.KeepsFiles host table ∧
    ∀ f, call = .dup2 f f → f.toNat < host.limit →
      ∀ fd, table.get table.size f = some fd →
      table.bit f.toNat = false ∧
        ∀ object, w.live fd = some object →
          ∀ inode, object.inode = some inode →
          ∀ lock ∈ w.locks inode, lock.owner ≠ t

namespace FdWorld

variable
  {host : FdHost}
  {w next : FdWorld}
  {t : TableId}
  {table : FdTable}
  {fd : FdId}
  {f : FdNum}
  {result : Except Errno FdNum}

theorem descriptors_of_get
    (found : table.get table.size f = some fd) :
    table.descriptors f.toNat = some (fd, table.bit f.toNat) := by
  unfold FdTable.descriptors
  rw [(get_eq_some_iff.mp found).2, map_some]

theorem isOpen_of_get
    (found : table.get table.size f = some fd) :
    IsOpen table.descriptors f := by
  refine ⟨(get_eq_some_iff.mp found).1, ?_⟩
  rw [descriptors_of_get found]
  exact some_ne_none _

/-- A table that is current holds exactly these descriptors. -/
def Holds (w : FdWorld) (t : TableId) (log : DescriptorMap) : Prop :=
  ∃ table,
    w.current = some t ∧ w.tables t = some table ∧ table.Clean ∧
      table.descriptors = log

variable {bit : Bool} {call : FdCall} {start : Nat} {before : FdWorld}

theorem holds_of_store
    {size : Nat}
    (index : Nat)
    (content : Option FdId)
    (bit : Bool)
    (clean : table.Clean)
    (isCurrent : before.current = some t)
    (isTable : before.tables t = some (table.grow size))
    (small : size < dwordRange)
    (inside : index < max table.size size)
    (stray : content = none → bit = false) :
    (before.store t index content bit).Holds t
      (update table.descriptors index
        (content.map fun fd => (fd, bit))) := by
  have grown := clean.grow small
  have room : index < (table.grow size).size := by
    rw [FdTable.size_grow]
    exact inside
  refine ⟨_, isCurrent, store_self isTable .., grown.store room _ _ stray, ?_⟩
  rw [FdTable.descriptors_store grown.shaped room,
    FdTable.descriptors_grow]

/-- Installing a file leaves the descriptors that were asked for. -/
theorem holds_of_installStep
    (clean : table.Clean)
    (isCurrent : before.current = some t)
    (isTable : before.tables t = some table)
    (step : InstallStep host before t table fd start bit next result) :
    next.Holds t
      (match result with
        | .error _ => table.descriptors
        | .ok newF =>
          update table.descriptors newF.toNat
            (some (fd, bit))) := by
  cases step with
  | refused err =>
    exact ⟨table, isCurrent, isTable, clean, rfl⟩
  | pastLast size err small =>
    exact ⟨_, isCurrent, grow_self isTable size, clean.grow small,
      table.descriptors_grow size⟩
  | placed place fromStart below inUse free room =>
    have small : (BitVec.ofNat 32 place).toNat = place := by
      rw [BitVec.toNat_ofNat]
      exact Nat.mod_eq_of_lt (by omega)
    have held :=
      holds_of_store place (some fd) bit clean
        (show (before.grow t (place + 1)).current = some t from isCurrent)
        (grow_self isTable _) (by unfold dwordRange; omega) (by omega)
        (fun impossible => nomatch impossible)
    simp only [small]
    exact held

/-- Installing a file finds the lowest free descriptor. -/
theorem lowestFree_of_installStep
    (harmless : ¬ Overwrites host table start)
    (step : InstallStep host before t table fd start bit next (.ok f)) :
    LowestFree table.descriptors start f := by
  cases step with
  | placed place fromStart below inUse free room =>
    have small : (BitVec.ofNat 32 place).toNat = place := by
      rw [BitVec.toNat_ofNat]
      exact Nat.mod_eq_of_lt (by omega)
    have isFree := free.resolve_right harmless
    refine ⟨?_, ?_, ?_⟩
    · rw [small]
      exact fromStart
    · rw [small]
      exact FdTable.descriptors_eq_none_iff.mpr isFree
    · intro index after before isNone
      rw [small] at before
      exact inUse index after before
        (FdTable.descriptors_eq_none_iff.mp isNone)

theorem requested_duplicate
    (log : DescriptorMap)
    (isSource : call.source = some f)
    (isDuplicate : call.duplicates = some (start, bit))
    (newF : FdNum) :
    call.requested log (.ok newF) =
      update log newF.toNat (withBit bit (log f.toNat)) := by
  cases call with
  | dup | dupfd | dupfdCloexec =>
    cases isSource
    cases isDuplicate
    rfl
  | _ => cases isDuplicate

theorem installsFrom_of_duplicates
    (isDuplicate : call.duplicates = some (start, bit)) :
    call.installsFrom = some start := by
  cases call with
  | dup | dupfd | dupfdCloexec =>
    cases isDuplicate
    rfl
  | _ => cases isDuplicate

/-- What a replacing call asks for. -/
theorem requested_replace
    {newF : FdNum}
    (log : DescriptorMap)
    (isSource : call.source = some f)
    (isReplace : call.replaces = some (newF, bit))
    (other : f = newF → ∃ flags, call = .dup3 f newF flags) :
    call.requested log (.ok newF) =
      update log newF.toNat (withBit bit (log f.toNat)) := by
  cases call with
  | dup2 source target =>
    cases isSource
    cases isReplace
    have different : f ≠ newF := by
      intro same
      obtain ⟨_, impossible⟩ := other same
      cases impossible
    exact if_neg different
  | dup3 source target flags =>
    cases isSource
    cases isReplace
    rfl
  | _ => cases isReplace

theorem requested_error
    {err : Errno}
    (log : DescriptorMap)
    (notClose : ∀ f, call ≠ .close f) :
    call.requested log (.error err) = log := by
  cases call with
  | close f => exact (notClose f rfl).elim
  | _ => rfl

theorem closedSlot_current
    (w : FdWorld) (t : TableId) (table : FdTable) (index : Nat) :
    (w.closedSlot t table index).current = w.current := by
  unfold closedSlot
  cases table.slot index with
  | none => rfl
  | some old => exact (eq_of_unlocked w t old).2.2.2

/-- A slot that is written again need not be closed first. -/
theorem closedSlot_store_tables
    (w : FdWorld)
    (t : TableId)
    (table : FdTable)
    (index : Nat)
    (content : Option FdId)
    (bit : Bool) :
    ((w.closedSlot t table index).store t index content bit).tables =
      (w.store t index content bit).tables := by
  unfold closedSlot
  cases table.slot index with
  | none => rfl
  | some old =>
    obtain ⟨_, sameTables, _⟩ := eq_of_unlocked w t old
    unfold closed store
    rw [mapTable_mapTable]
    simp only [FdTable.store_store]
    funext other
    rw [mapTable_tables, mapTable_tables]
    show (if other = t then Option.map _ ((w.unlocked t old).tables other)
      else (w.unlocked t old).tables other) = _
    rw [sameTables]

/-- What closing a slot does to the files. -/
theorem closedSlot_objects
    (w : FdWorld) (t : TableId) (table : FdTable) (index : Nat) :
    (w.closedSlot t table index).objects =
      (table.slot index).elim w.objects fun old => (w.put old).objects := by
  unfold closedSlot
  cases table.slot index with
  | none => rfl
  | some old =>
    obtain ⟨sameObjects, _⟩ := eq_of_unlocked w t old
    show (fun other =>
      if other = old then
        Option.map _ ((w.unlocked t old).objects other)
      else (w.unlocked t old).objects other) = _
    rw [sameObjects]
    rfl

theorem holds_of_replace
    {newF : FdNum}
    (clean : table.Clean)
    (isCurrent : w.current = some t)
    (isTable : w.tables t = some table)
    (positive : newF.toNat < 2 ^ 31) :
    ((((w.grow t (newF.toNat + 1)).retained fd).closedSlot t table
      newF.toNat).store t newF.toNat (some fd) bit).Holds t
        (update table.descriptors newF.toNat (some (fd, bit))) := by
  obtain ⟨after, _, isAfter, afterClean, descriptors⟩ :=
    holds_of_store newF.toNat (some fd) bit clean
      (show ((w.grow t (newF.toNat + 1)).retained fd).current = some t
        from isCurrent)
      (grow_self isTable _) (by unfold dwordRange; omega) (by omega)
      (fun impossible => nomatch impossible)
  refine ⟨after, ?_, ?_, afterClean, descriptors⟩
  · exact (closedSlot_current ..).trans isCurrent
  · rw [closedSlot_store_tables]
    exact isAfter

/-- Removing the locks of a table that has none changes nothing. -/
theorem removeOwnedLocks_locks
    {object : FdObject}
    (noLock :
      ∀ inode, object.inode = some inode →
        ∀ lock ∈ w.locks inode, lock.owner ≠ t) :
    (w.removeOwnedLocks object t).locks = w.locks := by
  unfold removeOwnedLocks
  cases isInode : object.inode with
  | none => rfl
  | some inode =>
    have kept :
        fileLockRemoveOwnedBy (w.locks inode) t = w.locks inode := by
      apply List.filter_eq_self.mpr
      intro lock member
      exact decide_eq_true (noLock inode isInode lock member)
    show update w.locks inode _ = w.locks
    rw [kept, update_eq_self]

/-- `dup2` of a descriptor to itself, with no bit and no lock to drop. -/
theorem dup2_self
    (clean : table.Clean)
    (isTable : w.tables t = some table)
    (found : table.get table.size f = some fd)
    (noBit : table.bit f.toNat = false)
    (noLock :
      ∀ object, w.live fd = some object →
        ∀ inode, object.inode = some inode →
        ∀ lock ∈ w.locks inode, lock.owner ≠ t) :
    let next :=
      (((w.grow t (f.toNat + 1)).retained fd).closedSlot t table
        f.toNat).store t f.toNat (some fd) false
    next.tables = w.tables ∧ next.locks = w.locks := by
  obtain ⟨_, isSlot⟩ := get_eq_some_iff.mp found
  have inside := FdTable.lt_size_of_slot isSlot
  have unchanged : w.grow t (f.toNat + 1) = w :=
    mapTable_id isTable (FdTable.grow_of_le inside)
  have same : table.store f.toNat (some fd) false = table := by
    rw [← isSlot, ← noBit]
    exact FdTable.store_same clean.shaped inside
  rw [unchanged]
  constructor
  · rw [closedSlot_store_tables]
    have back :
        (w.retained fd).store t f.toNat (some fd) false = w.retained fd :=
      mapTable_id (w := w.retained fd) (c := fun table =>
        table.store f.toNat (some fd) false) isTable same
    rw [back]
    rfl
  · show ((w.retained fd).closedSlot t table f.toNat).locks = w.locks
    unfold closedSlot
    rw [isSlot]
    show ((w.retained fd).unlocked t fd).locks = w.locks
    unfold unlocked
    cases isLive : (w.retained fd).live fd with
    | none => rfl
    | some object =>
      apply removeOwnedLocks_locks (w := w.retained fd)
      obtain ⟨isObject, notFreed⟩ := filter_eq_some_iff.mp isLive
      have before :
          (w.retained fd).objects fd =
            (w.objects fd).map FdObject.retain := if_pos rfl
      rw [before] at isObject
      obtain ⟨old, isOld, rfl⟩ := map_eq_some_iff.mp isObject
      exact noLock old (filter_eq_some_iff.mpr ⟨isOld, notFreed⟩)

/-- A harmless call leaves the descriptors it asked for. -/
theorem holds_of_step
    (clean : table.Clean)
    (isCurrent : w.current = some t)
    (isTable : w.tables t = some table)
    (harmless : call.Harmless host w t table)
    (step : call.Step host w t table next result) :
    next.Holds t (call.requested table.descriptors result) := by
  cases step with
  | @notOpen call f isSource empty =>
    refine ⟨table, isCurrent, isTable, clean, ?_⟩
    cases call with
    | close source =>
      cases isSource
      show _ = if f.toNat < 2 ^ 31 then _ else _
      split
      · rename_i positive
        have isNone : table.descriptors f.toNat = none := by
          apply FdTable.descriptors_eq_none_iff.mpr
          cases content : table.slot f.toNat with
          | none => rfl
          | some fd =>
            cases empty.symm.trans
              (get_eq_some_iff.mpr ⟨positive, content⟩)
        rw [← isNone, update_eq_self]
      · rfl
    | _ => rfl
  | install installed =>
    have held := holds_of_installStep clean isCurrent isTable installed
    cases result with
    | error => exact held
    | ok => exact held
  | @duplicate call f fd start bit _ _ isSource isDuplicate found installed =>
    have stillCurrent : (w.retained fd).current = some t := isCurrent
    have held :=
      holds_of_installStep clean stillCurrent isTable installed
    cases result with
    | error err =>
      rw [requested_error]
      · exact held
      · rintro _ rfl
        cases isDuplicate
    | ok newF =>
      rw [requested_duplicate _ isSource isDuplicate,
        descriptors_of_get found]
      exact held
  | refused err isReplace =>
    rw [requested_error]
    · exact ⟨table, isCurrent, isTable, clean, rfl⟩
    · rintro _ rfl
      cases isReplace
  | @replace call f newF fd bit isSource isReplace found positive room =>
    rw [clean.stray_eq_false, Bool.or_false]
    by_cases self : call = .dup2 f newF ∧ f = newF
    · obtain ⟨rfl, rfl⟩ := self
      cases isReplace
      obtain ⟨noBit, noLock⟩ := harmless.2 f rfl room fd found
      obtain ⟨tables, _⟩ := dup2_self clean isTable found noBit noLock
      refine ⟨table, (closedSlot_current ..).trans isCurrent, ?_, clean,
        (if_pos rfl).symm⟩
      rw [tables]
      exact isTable
    · rw [requested_replace _ isSource isReplace, descriptors_of_get found]
      · exact holds_of_replace clean isCurrent isTable positive
      · intro same
        cases call with
        | dup2 source target =>
          cases isSource
          cases isReplace
          exact (self ⟨rfl, same⟩).elim
        | dup3 source target flags =>
          cases isSource
          cases isReplace
          exact ⟨flags, rfl⟩
        | _ => cases isReplace
  | @setfd f arg fd found =>
    obtain ⟨_, isSlot⟩ := get_eq_some_iff.mp found
    have held :=
      holds_of_store f.toNat (some fd)
        (decide (arg &&& 1 ≠ 0)) clean isCurrent
        (show w.tables t = some (table.grow 0) by
          rw [FdTable.grow_of_le (Nat.zero_le _)]
          exact isTable)
        (by decide) (by
          have inside := FdTable.lt_size_of_slot isSlot
          omega)
        (fun impossible => nomatch impossible)
    show Holds _ _ (update _ _ (withBit _ _))
    rw [descriptors_of_get found]
    exact held
  | @close f fd _ found =>
    obtain ⟨positive, isSlot⟩ := get_eq_some_iff.mp found
    have inside := FdTable.lt_size_of_slot isSlot
    have isAfter := closedSlot_self isTable f.toNat
    have current := closedSlot_current w t table f.toNat
    unfold closedSlot at isAfter current
    rw [isSlot] at isAfter current
    refine ⟨table.store f.toNat none false, current.trans isCurrent,
      isAfter, clean.store inside none false (fun _ => rfl), ?_⟩
    show _ = if f.toNat < 2 ^ 31 then _ else _
    rw [if_pos positive, FdTable.descriptors_store clean.shaped inside]
    rfl

end FdWorld

end GuestKernel
