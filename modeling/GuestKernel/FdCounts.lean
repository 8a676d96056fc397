import GuestKernel.FdDescriptors
import GuestKernel.Holders

namespace GuestKernel
open List Option

/-!
# Reference counts of open files

Every slot of every table that holds a file is a reference, and so is what a
caller was given and did not give back.  `Counted` says that the count of a
file is the number of its references and that a file is closed once, when it
has none; the argument `callers` also carries the references of a call that is
running, so that every update of a call has its own law.
-/

/-- How many slots of a table hold a file. -/
def FdTable.refs (table : FdTable) (fd : FdId) : Nat :=
  table.files.count (some fd)

namespace FdTable

variable {table : FdTable} {index : Nat} {fd : FdId}

/-- Writing a slot trades the old file for the new one. -/
theorem refs_store
    (inside : index < table.size)
    (content : Option FdId)
    (bit : Bool)
    (fd : FdId) :
    (table.store index content bit).refs fd +
        (if table.slot index = some fd then 1 else 0) =
      table.refs fd + (if content = some fd then 1 else 0) := by
  have within : index < table.files.length := inside
  have positive :
      table.files[index] = some fd →
        0 < table.files.count (some fd) := by
    intro isFile
    exact count_pos_iff.mpr (isFile ▸ getElem_mem within)
  unfold refs store slot
  rw [count_set within, List.getElem?_eq_getElem within]
  simp only [join_some, beq_iff_eq]
  by_cases old : table.files[index] = some fd
  · have := positive old
    simp only [old, ↓reduceIte]
    omega
  · simp only [old, ↓reduceIte]
    omega

@[simp] theorem refs_grow (table : FdTable) (size : Nat) (fd : FdId) :
    (table.grow size).refs fd = table.refs fd := by
  simp [refs, grow, count_append, count_replicate]

theorem refs_pos
    (isSlot : table.slot index = some fd) :
    0 < table.refs fd := by
  have inside := lt_size_of_slot isSlot
  have within : index < table.files.length := inside
  unfold slot at isSlot
  rw [List.getElem?_eq_getElem within, join_some] at isSlot
  exact count_pos_iff.mpr (isSlot ▸ getElem_mem within)

end FdTable

namespace FdWorld

variable
  {host : FdHost}
  {w next : FdWorld}
  {t : TableId}
  {table : FdTable}
  {fd : FdId}
  {callers : FdId → Nat}

/-- How many slots of a table hold a file, if the table is there. -/
def tableRefs (w : FdWorld) (fd : FdId) (t : TableId) : Nat :=
  match w.tables t with
  | none => 0
  | some table => table.refs fd

/-- How many slots of all tables hold a file. -/
def slotRefs (w : FdWorld) (fd : FdId) : Nat :=
  ∑ t ∈ Finset.range w.tableCount, w.tableRefs fd t

/-- What holds of one file with this many references. -/
def FileCounted (references : Nat) : Option FdObject → Prop
  | none => references = 0
  | some object =>
    references < dwordRange ∧ object.refcount = references ∧
      object.closes = (if references = 0 then 1 else 0) ∧
      object.freed = decide (references = 0)

/--
The counts of all files, when callers have these references to them.  The
other fields are what the calls rely on: tables are numbered, in shape, and
have no file in a slot that no descriptor can name.
-/
structure Counted (w : FdWorld) (callers : FdId → Nat) : Prop where
  numbered :
    ∀ t table, w.tables t = some table → t < w.tableCount
  clean : ∀ t table, w.tables t = some table → table.Clean
  nameable :
    ∀ t table, w.tables t = some table →
      ∀ index fd, table.slot index = some fd → index < 2 ^ 31
  counted :
    ∀ fd, FileCounted (w.slotRefs fd + callers fd) (w.objects fd)

/-- Overwriting a table trades its old slots for the new ones. -/
theorem slotRefs_setTable
    (numbered : t < w.tableCount)
    (content : Option FdTable)
    (fd : FdId) :
    (w.setTable t content).slotRefs fd + w.tableRefs fd t =
      w.slotRefs fd +
        (match content with
          | none => 0
          | some table => table.refs fd) := by
  have updated :
      (w.setTable t content).tableRefs fd =
        Function.update (w.tableRefs fd) t
          (match content with
            | none => 0
            | some table => table.refs fd) := by
    funext other
    by_cases same : other = t
    · subst same
      simp [tableRefs, setTable]
    · simp [tableRefs, setTable, same]
  unfold slotRefs
  rw [updated]
  exact sum_update_balance _ (Finset.mem_range.mpr numbered) _

theorem slotRefs_mapTable
    (isTable : w.tables t = some table)
    (numbered : t < w.tableCount)
    (change : FdTable → FdTable)
    (fd : FdId) :
    (w.mapTable t change).slotRefs fd + table.refs fd =
      w.slotRefs fd + (change table).refs fd := by
  have balance := slotRefs_setTable numbered (some (change table)) fd
  rw [setTable_eq_mapTable isTable] at balance
  unfold tableRefs at balance
  rw [isTable] at balance
  exact balance

variable {index : Nat} {nextCallers : FdId → Nat} {bit : Bool}

theorem slotRefs_pos
    (isTable : w.tables t = some table)
    (numbered : t < w.tableCount)
    (isSlot : table.slot index = some fd) :
    0 < w.slotRefs fd := by
  have positive := FdTable.refs_pos isSlot
  have member := Finset.mem_range.mpr numbered
  have here : w.tableRefs fd t = table.refs fd := by
    unfold tableRefs
    rw [isTable]
  have split := Finset.add_sum_erase _ (w.tableRefs fd) member
  unfold slotRefs
  rw [← split, here]
  omega

/-- A file with a reference is in use. -/
theorem Counted.live_of_pos
    (counted : w.Counted callers)
    (fd : FdId)
    (positive : 0 < w.slotRefs fd + callers fd) :
    ∃ object,
      w.live fd = some object ∧
        object.refcount = w.slotRefs fd + callers fd ∧
        object.closes = 0 := by
  have file := counted.counted fd
  cases isObject : w.objects fd with
  | none =>
    rw [isObject] at file
    have : w.slotRefs fd + callers fd = 0 := file
    omega
  | some object =>
    rw [isObject] at file
    obtain ⟨_, count, closes, freed⟩ := file
    rw [if_neg (by omega)] at closes
    refine ⟨object, ?_, count, closes⟩
    apply filter_eq_some_iff.mpr
    refine ⟨isObject, ?_⟩
    rw [freed, decide_eq_false (by omega)]
    rfl

/-- A file in use has a reference, and its count says how many. -/
theorem Counted.of_live
    {object : FdObject}
    (counted : w.Counted callers)
    (isLive : w.live fd = some object) :
    0 < w.slotRefs fd + callers fd ∧ object.refcount < dwordRange ∧
      object.refcount = w.slotRefs fd + callers fd ∧
      object.closes = 0 ∧ object.freed = false := by
  obtain ⟨isObject, notFreed⟩ := filter_eq_some_iff.mp isLive
  have file := counted.counted fd
  rw [isObject] at file
  obtain ⟨small, count, closes, freed⟩ := file
  have inUse : object.freed = false := by
    simpa using notFreed
  have positive : ¬ w.slotRefs fd + callers fd = 0 := by
    rw [inUse] at freed
    exact of_decide_eq_false freed.symm
  rw [if_neg positive] at closes
  exact ⟨by omega, by omega, count, closes, inUse⟩

theorem Counted.mapObject
    {change : FdObject → FdObject}
    (counted : w.Counted callers)
    (same : ∀ other, other ≠ fd → nextCallers other = callers other)
    (changed :
      FileCounted (w.slotRefs fd + nextCallers fd)
        ((w.objects fd).map change)) :
    (w.mapObject fd change).Counted nextCallers where
  numbered := counted.numbered
  clean := counted.clean
  nameable := counted.nameable
  counted := by
    intro other
    show FileCounted (w.slotRefs other + nextCallers other)
      (if other = fd then _ else _)
    by_cases here : other = fd
    · subst here
      rw [if_pos rfl]
      exact changed
    · rw [if_neg here, same other here]
      exact counted.counted other

theorem Counted.retained
    {object : FdObject}
    (counted : w.Counted callers)
    (isLive : w.live fd = some object)
    (small : object.refcount + 1 < dwordRange) :
    (w.retained fd).Counted (oneMore callers fd) := by
  obtain ⟨positive, _, count, closes, freed⟩ := counted.of_live isLive
  apply counted.mapObject
  · intro other different
    exact oneMore_of_ne different
  · rw [objects_of_live isLive, oneMore_self]
    refine ⟨by omega, ?_, ?_, ?_⟩
    · show incremented object.refcount = _
      rw [incremented_of_small small]
      omega
    · rw [if_neg (by omega)]
      exact closes
    · rw [decide_eq_false (by omega)]
      exact freed

/-- Giving a reference back; the last one closes the file, once. -/
theorem Counted.put
    (counted : w.Counted (oneMore callers fd)) :
    (w.put fd).Counted callers := by
  obtain ⟨object, isLive, count, closes⟩ := counted.live_of_pos fd (by
    rw [oneMore_self]
    omega)
  obtain ⟨_, small, _, _, freed⟩ := counted.of_live isLive
  rw [oneMore_self] at count
  have less : decremented object.refcount = w.slotRefs fd + callers fd := by
    rw [decremented_of_pos (by omega) small]
    omega
  apply counted.mapObject
  · intro other different
    exact (oneMore_of_ne different).symm
  · rw [objects_of_live isLive, map_some]
    unfold FdObject.put
    rw [less]
    by_cases last : w.slotRefs fd + callers fd = 0
    · rw [if_pos last]
      refine ⟨by omega, last.symm, ?_, ?_⟩
      · rw [if_pos last, closes]
      · rw [decide_eq_true last]
    · rw [if_neg last]
      refine ⟨by omega, rfl, ?_, ?_⟩
      · rw [if_neg last]
        exact closes
      · rw [decide_eq_false last]
        exact freed

section

variable
  (counted : w.Counted callers)
  (isTable : w.tables t = some table)
include counted isTable

/-- Changing one table, when the references move as its slots do. -/
theorem Counted.mapTable
    {change : FdTable → FdTable}
    (clean : (change table).Clean)
    (nameable :
      ∀ index fd, (change table).slot index = some fd → index < 2 ^ 31)
    (moved :
      ∀ fd, (change table).refs fd + nextCallers fd =
        table.refs fd + callers fd) :
    (w.mapTable t change).Counted nextCallers := by
  have cases :
      ∀ {other found},
        (w.mapTable t change).tables other = some found →
        (other = t ∧ found = change table) ∨
          w.tables other = some found := by
    intro other found isFound
    rw [mapTable_tables] at isFound
    by_cases same : other = t
    · subst same
      rw [if_pos rfl, isTable] at isFound
      exact .inl ⟨rfl, (some.inj isFound).symm⟩
    · rw [if_neg same] at isFound
      exact .inr isFound
  have isNumbered := counted.numbered t table isTable
  constructor
  case numbered =>
    intro other found isFound
    rcases cases isFound with ⟨rfl, _⟩ | isOld
    · exact isNumbered
    · exact counted.numbered other found isOld
  case clean =>
    intro other found isFound
    rcases cases isFound with ⟨_, rfl⟩ | isOld
    · exact clean
    · exact counted.clean other found isOld
  case nameable =>
    intro other found isFound
    rcases cases isFound with ⟨_, rfl⟩ | isOld
    · exact nameable
    · exact counted.nameable other found isOld
  case counted =>
    intro fd
    have balance := slotRefs_mapTable isTable isNumbered change fd
    have trade := moved fd
    have same :
        (w.mapTable t change).slotRefs fd + nextCallers fd =
          w.slotRefs fd + callers fd := by
      omega
    rw [same]
    exact counted.counted fd

theorem Counted.grow
    (size : Nat)
    (small : size < dwordRange) :
    (w.grow t size).Counted callers := by
  apply counted.mapTable isTable
  · exact (counted.clean t table isTable).grow small
  · intro index fd isSlot
    rw [FdTable.slot_grow] at isSlot
    exact counted.nameable t table isTable index fd isSlot
  · intro fd
    rw [FdTable.refs_grow]

/-- Writing a slot hands its old file to the callers and takes the new one. -/
theorem Counted.store
    {content : Option FdId}
    (inside : index < table.size)
    (named : content ≠ none → index < 2 ^ 31)
    (stray : content = none → bit = false)
    (moved :
      ∀ fd,
        nextCallers fd + (if content = some fd then 1 else 0) =
          callers fd + (if table.slot index = some fd then 1 else 0)) :
    (w.store t index content bit).Counted nextCallers := by
  apply counted.mapTable isTable
  · exact (counted.clean t table isTable).store inside content bit stray
  · intro other fd isSlot
    rw [FdTable.slot_store inside] at isSlot
    by_cases same : other = index
    · subst same
      rw [if_pos rfl] at isSlot
      exact named (isSlot ▸ some_ne_none fd)
    · rw [if_neg same] at isSlot
      exact counted.nameable t table isTable other fd isSlot
  · intro fd
    have trade := FdTable.refs_store inside content bit fd
    have balance := moved fd
    omega

end

/-- Storing a file in an empty slot takes the reference of the call. -/
theorem Counted.fill
    (counted : w.Counted (oneMore callers fd))
    (isTable : w.tables t = some table)
    (inside : index < table.size)
    (positive : index < 2 ^ 31)
    (isFree : table.slot index = none) :
    (w.store t index (some fd) bit).Counted callers := by
  refine counted.store isTable inside (fun _ => positive) ?_ ?_
  · intro impossible
    cases impossible
  intro other
  rw [isFree]
  by_cases same : other = fd
  · subst same
    simp
  · simp [oneMore, same, Ne.symm same]

theorem Counted.empty
    (counted : w.Counted callers)
    (isTable : w.tables t = some table)
    (isSlot : table.slot index = some fd) :
    (w.store t index none false).Counted (oneMore callers fd) := by
  refine counted.store isTable (FdTable.lt_size_of_slot isSlot)
    (fun impossible => (impossible rfl).elim) (fun _ => rfl) ?_
  intro other
  rw [isSlot]
  by_cases same : other = fd
  · subst same
    simp
  · simp [oneMore, same, Ne.symm same]

/-- The counts only depend on the files and the tables. -/
theorem Counted.congr
    (counted : w.Counted callers)
    (tables : next.tables = w.tables)
    (tableCount : next.tableCount = w.tableCount)
    (objects : next.objects = w.objects) :
    next.Counted callers := by
  have sameRefs : next.slotRefs = w.slotRefs := by
    funext fd
    unfold slotRefs tableRefs
    rw [tables, tableCount]
  constructor
  · rw [tables, tableCount]
    exact counted.numbered
  · rw [tables]
    exact counted.clean
  · rw [tables]
    exact counted.nameable
  · rw [sameRefs, objects]
    exact counted.counted

theorem closed_tables
    (w : FdWorld) (t : TableId) (index : Nat) (fd : FdId) :
    (w.closed t index fd).tables = (w.store t index none false).tables := by
  obtain ⟨_, sameTables, _⟩ := eq_of_unlocked w t fd
  show (fun other =>
    if other = t then Option.map _ ((w.unlocked t fd).tables other)
    else (w.unlocked t fd).tables other) = _
  rw [sameTables]
  rfl

theorem closed_objects
    (w : FdWorld) (t : TableId) (index : Nat) (fd : FdId) :
    (w.closed t index fd).objects = (w.put fd).objects := by
  obtain ⟨sameObjects, _⟩ := eq_of_unlocked w t fd
  show (fun other =>
    if other = fd then Option.map _ ((w.unlocked t fd).objects other)
    else (w.unlocked t fd).objects other) = _
  rw [sameObjects]
  rfl

theorem closed_tableCount
    (w : FdWorld) (t : TableId) (index : Nat) (fd : FdId) :
    (w.closed t index fd).tableCount = w.tableCount :=
  (eq_of_unlocked w t fd).2.2.1

theorem Counted.closed
    (counted : w.Counted callers)
    (isTable : w.tables t = some table)
    (isSlot : table.slot index = some fd) :
    (w.closed t index fd).Counted callers := by
  apply (counted.empty isTable isSlot).put.congr
  · exact closed_tables w t index fd
  · exact closed_tableCount w t index fd
  · exact closed_objects w t index fd

/-- Installing a file consumes the reference of the call. -/
theorem Counted.installStep
    {start : Nat}
    {result : Except Errno FdNum}
    (counted : w.Counted (oneMore callers fd))
    (isTable : w.tables t = some table)
    (keeps : ¬ Overwrites host table start)
    (step : InstallStep host w t table fd start bit next result) :
    next.Counted callers := by
  cases step with
  | refused => exact counted.put
  | pastLast size _ small => exact (counted.grow isTable size small).put
  | placed place fromStart below inUse free room =>
    have grown :=
      counted.grow isTable (place + 1) (by
        unfold dwordRange
        omega)
    apply grown.fill (grow_self isTable _) _ below
    · rw [FdTable.slot_grow]
      exact free.resolve_right keeps
    · rw [FdTable.size_grow]
      omega

theorem Counted.live_of_slot
    (counted : w.Counted callers)
    (isTable : w.tables t = some table)
    (isSlot : table.slot index = some fd) :
    ∃ object, w.live fd = some object := by
  have positive :=
    slotRefs_pos isTable (counted.numbered t table isTable) isSlot
  obtain ⟨object, isLive, _⟩ := counted.live_of_pos fd (by omega)
  exact ⟨object, isLive⟩

end FdWorld

end GuestKernel
