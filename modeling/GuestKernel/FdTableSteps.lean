import GuestKernel.FdTable
import Mathlib.Data.List.Basic

namespace GuestKernel
open List Option Function

/-!
# What a descriptor call does

Every descriptor call is a composition of four updates: one more or one less
reference to an open file, a larger table, and one slot written together with
its close-on-exec bit.  The lemmas below take the calls apart into these
updates; the later modules never unfold a call again.
-/

/-- A table whose bits match its slots, with room for every `unsigned`. -/
structure FdTable.Shaped (table : FdTable) : Prop where
  bits : table.cloexec.length = table.files.length
  small : table.files.length < dwordRange

/-- The file in a slot, if there is one. -/
def FdTable.slot (table : FdTable) (index : Nat) : Option FdId :=
  (table.files[index]?).join

/-- The close-on-exec bit of a slot. -/
def FdTable.bit (table : FdTable) (index : Nat) : Bool :=
  (table.cloexec[index]?).getD false

/-- The table with one slot and its bit written. -/
def FdTable.store
    (table : FdTable)
    (index : Nat)
    (fd : Option FdId)
    (bit : Bool) : FdTable :=
  { table with
    files := table.files.set index fd
    cloexec := table.cloexec.set index bit }

/-- The table with at least `size` slots. -/
def FdTable.grow (table : FdTable) (size : Nat) : FdTable :=
  { table with
    files := table.files ++ List.replicate (size - table.size) none
    cloexec := table.cloexec ++ List.replicate (size - table.size) false }

/-- What `fdtable_get` finds when the current table has `size` slots. -/
def FdTable.get (table : FdTable) (size : Nat) (f : FdNum) : Option FdId :=
  if 2 ^ 31 ≤ f.toNat ∨ size ≤ f.toNat then none else table.slot f.toNat

/-- Why `fdtable_expand` refuses to grow a table to `size`, if it does. -/
def FdHost.expandError
    (host : FdHost) (table : FdTable) (size : Nat) : Option Errno :=
  if host.limit < size then some .mfile
  else if size ≤ table.size then none
  else if host.memory = false then some .nomem
  else none

/-- One more reference. -/
def FdObject.retain (object : FdObject) : FdObject :=
  { object with refcount := incremented object.refcount }

/-- One reference less; the last one closes and frees the file. -/
def FdObject.put (object : FdObject) : FdObject :=
  if decremented object.refcount = 0 then
    { object with
      refcount := 0
      closes := object.closes + 1
      freed := true }
  else
    { object with refcount := decremented object.refcount }

namespace FdTable

variable {table : FdTable} {index other size : Nat}

/-- A table that is large enough stays as it is. -/
theorem grow_of_le
    (enough : size ≤ table.size) :
    table.grow size = table := by
  simp [grow, Nat.sub_eq_zero_of_le enough]

@[simp] theorem size_grow (table : FdTable) (size : Nat) :
    (table.grow size).size = max table.size size := by
  simp only [FdTable.size, grow, length_append, length_replicate]
  omega

@[simp] theorem size_store
    (table : FdTable) (index : Nat) (fd : Option FdId) (bit : Bool) :
    (table.store index fd bit).size = table.size := by
  simp [FdTable.size, store]

/-- Growing keeps every slot. -/
@[simp] theorem slot_grow (table : FdTable) (size index : Nat) :
    (table.grow size).slot index = table.slot index := by
  unfold slot grow
  rw [List.getElem?_append]
  split
  · rfl
  · rename_i outside
    rw [List.getElem?_replicate, List.getElem?_eq_none (by omega)]
    split <;> rfl

theorem bit_grow (table : FdTable) (size index : Nat) :
    (table.grow size).bit index = table.bit index := by
  unfold bit grow
  rw [List.getElem?_append]
  split
  · rfl
  · rename_i outside
    rw [List.getElem?_replicate, List.getElem?_eq_none (by omega)]
    split <;> rfl

/-- A store is a point update of the slots. -/
theorem slot_store
    (inside : index < table.size)
    (fd : Option FdId)
    (bit : Bool)
    (other : Nat) :
    (table.store index fd bit).slot other =
      if other = index then fd else table.slot other := by
  unfold slot store
  by_cases same : other = index
  · subst same
    rw [List.getElem?_set_self inside, if_pos rfl]
    rfl
  · rw [List.getElem?_set_ne (Ne.symm same), if_neg same]

/-- A store is a point update of the bits. -/
theorem bit_store
    (shaped : table.Shaped)
    (inside : index < table.size)
    (fd : Option FdId)
    (bit : Bool)
    (other : Nat) :
    (table.store index fd bit).bit other =
      if other = index then bit else table.bit other := by
  unfold FdTable.bit store
  by_cases same : other = index
  · subst same
    rw [List.getElem?_set_self (by rw [shaped.bits]; exact inside),
      if_pos rfl]
    rfl
  · rw [List.getElem?_set_ne (Ne.symm same), if_neg same]

theorem lt_size_of_slot
    {fd : FdId}
    (found : table.slot index = some fd) :
    index < table.size := by
  by_contra outside
  rw [slot, List.getElem?_eq_none (Nat.le_of_not_lt outside)] at found
  cases found

theorem store_store
    (table : FdTable)
    (index : Nat)
    (first second : Option FdId)
    (firstBit secondBit : Bool) :
    (table.store index first firstBit).store index second secondBit =
      table.store index second secondBit := by
  simp only [FdTable.store, set_set]

/-- A store keeps a table in shape. -/
theorem Shaped.store
    (shaped : table.Shaped)
    (index : Nat)
    (fd : Option FdId)
    (bit : Bool) :
    (table.store index fd bit).Shaped := by
  constructor
  · simpa [FdTable.store] using shaped.bits
  · simpa [FdTable.store] using shaped.small

/-- So does growing to a size that a table can have. -/
theorem Shaped.grow
    (shaped : table.Shaped)
    (small : size < dwordRange) :
    (table.grow size).Shaped := by
  have oldBits := shaped.bits
  have oldSmall := shaped.small
  constructor
  · simp [FdTable.grow, oldBits]
  · have grown := table.size_grow size
    unfold FdTable.size at grown
    omega

end FdTable

namespace FdWorld

variable {host : FdHost} {w next : FdWorld} {t : TableId} {fd : FdId}

/-- Change one open file. -/
def mapObject
    (w : FdWorld) (fd : FdId) (change : FdObject → FdObject) : FdWorld :=
  { w with
    objects := fun other =>
      if other = fd then (w.objects other).map change else w.objects other }

/-- Change one table. -/
def mapTable
    (w : FdWorld) (t : TableId) (change : FdTable → FdTable) : FdWorld :=
  { w with
    tables := fun other =>
      if other = t then (w.tables other).map change else w.tables other }

/-- A reference is taken. -/
def retained (w : FdWorld) (fd : FdId) : FdWorld :=
  w.mapObject fd FdObject.retain

/-- A reference is given back. -/
def put (w : FdWorld) (fd : FdId) : FdWorld :=
  w.mapObject fd FdObject.put

/-- A slot and its bit are written. -/
def store
    (w : FdWorld)
    (t : TableId)
    (index : Nat)
    (content : Option FdId)
    (bit : Bool) : FdWorld :=
  w.mapTable t fun table => table.store index content bit

/-- A table has at least `size` slots. -/
def grow (w : FdWorld) (t : TableId) (size : Nat) : FdWorld :=
  w.mapTable t fun table => table.grow size

/-- The POSIX locks that a table has on a file are removed. -/
def unlocked (w : FdWorld) (t : TableId) (fd : FdId) : FdWorld :=
  match w.live fd with
  | some object => w.removeOwnedLocks object t
  | none => w

/-- What closing the file `fd` in a slot does. -/
def closed
    (w : FdWorld) (t : TableId) (index : Nat) (fd : FdId) : FdWorld :=
  ((w.unlocked t fd).put fd).store t index none false

/-- What closing a slot does, whether there is a file in it or not. -/
def closedSlot
    (w : FdWorld) (t : TableId) (table : FdTable) (index : Nat) : FdWorld :=
  match table.slot index with
  | none => w
  | some fd => w.closed t index fd

theorem setTable_tables
    (w : FdWorld)
    (t other : TableId)
    (content : Option FdTable) :
    (w.setTable t content).tables other =
      if other = t then content else w.tables other := by
  by_cases same : other = t
  · subst same
    exact (update_self ..).trans (if_pos rfl).symm
  · exact (update_of_ne same ..).trans (if_neg same).symm

theorem mapTable_tables
    (w : FdWorld)
    (t other : TableId)
    (change : FdTable → FdTable) :
    (w.mapTable t change).tables other =
      if other = t then (w.tables other).map change else w.tables other :=
  rfl

theorem mapTable_self
    {table : FdTable}
    {change : FdTable → FdTable}
    (isTable : w.tables t = some table) :
    (w.mapTable t change).tables t = some (change table) := by
  rw [mapTable_tables, if_pos rfl, isTable, map_some]

theorem store_self
    {table : FdTable}
    (isTable : w.tables t = some table)
    (index : Nat)
    (content : Option FdId)
    (bit : Bool) :
    (w.store t index content bit).tables t =
      some (table.store index content bit) :=
  mapTable_self isTable

theorem grow_self
    {table : FdTable}
    (isTable : w.tables t = some table)
    (size : Nat) :
    (w.grow t size).tables t = some (table.grow size) :=
  mapTable_self isTable

theorem setTable_eq_mapTable
    {table : FdTable}
    (isTable : w.tables t = some table)
    (change : FdTable → FdTable) :
    w.setTable t (some (change table)) = w.mapTable t change := by
  unfold setTable mapTable
  congr 1
  funext other
  by_cases same : other = t
  · subst same
    rw [update_self, if_pos rfl, isTable, map_some]
  · rw [update_of_ne same, if_neg same]

variable {object : FdObject} {place : Nat} {err : Except Errno Unit}
  {content : Option FdId} {files : List (Option FdId)}
  {result : Except Errno FdNum}

theorem setObject_eq_mapObject
    (isObject : w.objects fd = some object)
    (change : FdObject → FdObject) :
    w.setObject fd (change object) = w.mapObject fd change := by
  unfold setObject mapObject
  congr 1
  funext other
  by_cases same : other = fd
  · subst same
    rw [update_self, if_pos rfl, isObject, map_some]
  · rw [update_of_ne same, if_neg same]

theorem mapTable_mapTable
    (w : FdWorld)
    (t : TableId)
    (first second : FdTable → FdTable) :
    (w.mapTable t first).mapTable t second =
      w.mapTable t fun table => second (first table) := by
  unfold mapTable
  congr 1
  funext other
  by_cases same : other = t
  · simp only [if_pos same, Option.map_map]
    rfl
  · simp only [if_neg same]

theorem mapTable_id
    {table : FdTable}
    {c : FdTable → FdTable}
    (isTable : w.tables t = some table)
    (same : c table = table) :
    w.mapTable t c = w := by
  have unchanged : (w.mapTable t c).tables = w.tables := by
    funext other
    rw [mapTable_tables]
    by_cases here : other = t
    · rw [if_pos here, here, isTable, map_some, same]
    · rw [if_neg here]
  calc
    w.mapTable t c =
        { w with tables := (w.mapTable t c).tables } := rfl
    _ = w := by rw [unchanged]

theorem objects_of_live
    (isLive : w.live fd = some object) :
    w.objects fd = some object :=
  (filter_eq_some_iff.mp isLive).1

theorem fdRetain_of_live
    (isLive : w.live fd = some object) :
    w.fdRetain fd = some (w.retained fd) := by
  unfold fdRetain
  rw [isLive, bind_eq_bind, bind_some]
  exact congrArg some
    (setObject_eq_mapObject (objects_of_live isLive) FdObject.retain)

/-- `fd_retain` counts one more reference. -/
theorem eq_retained_of_fdRetain
    (run : w.fdRetain fd = some next) :
    next = w.retained fd ∧ ∃ object, w.live fd = some object := by
  cases isLive : w.live fd with
  | none =>
    rw [fdRetain, isLive] at run
    cases run
  | some object =>
    rw [fdRetain_of_live isLive] at run
    cases run
    exact ⟨rfl, object, rfl⟩

/-- Closing a file in use. -/
theorem fdClose_of_live
    (host : FdHost)
    (isLive : w.live fd = some object) :
    ∃ err, w.fdClose host fd = some (w.put fd, err) := by
  have change : w.setObject fd object.put = w.put fd :=
    setObject_eq_mapObject (objects_of_live isLive) FdObject.put
  unfold fdClose
  rw [isLive, bind_eq_bind, bind_some, ← change]
  unfold FdObject.put
  by_cases last : decremented object.refcount = 0
  · simp only [if_pos last]
    cases host.closeError fd with
    | none =>
      exact ⟨.ok (), rfl⟩
    | some err =>
      exact ⟨.error err, rfl⟩
  · simp only [if_neg last]
    exact ⟨.ok (), rfl⟩

/-- `fd_close` gives one reference back. -/
theorem eq_put_of_fdClose
    (run : w.fdClose host fd = some (next, err)) :
    next = w.put fd ∧ ∃ object, w.live fd = some object := by
  cases isLive : w.live fd with
  | none =>
    rw [fdClose, isLive] at run
    cases run
  | some object =>
    obtain ⟨_, closed⟩ := fdClose_of_live host isLive
    cases closed.symm.trans run
    exact ⟨rfl, object, rfl⟩

theorem toInt_neg_iff {f : FdNum} :
    f.toInt < 0 ↔ 2 ^ 31 ≤ f.toNat := by
  rw [BitVec.toInt_neg_iff]
  omega

theorem slotIndex_eq (f : FdNum) :
    slotIndex f = if 2 ^ 31 ≤ f.toNat then none else some f.toNat := by
  unfold slotIndex
  by_cases negative : f.toInt < 0
  · rw [if_pos negative, if_pos (toInt_neg_iff.mp negative)]
  · rw [if_neg negative, if_neg fun past => negative (toInt_neg_iff.mpr past)]

variable {table : FdTable} {f : FdNum}

/-- An access with a descriptor stays inside of the table. -/
def Inside (f : FdNum) (table : FdTable) : Prop :=
  f.toNat < 2 ^ 31 ∧ f.toNat < table.size

section

variable (isTable : w.tables t = some table)
include isTable

/-- A write inside the table is a store. -/
theorem writeFile_run
    (inside : Inside f table)
    (content : Option FdId) :
    w.writeFile t f content =
      some (w.store t f.toNat content (table.bit f.toNat)) := by
  have sameBits :
      table.cloexec.set f.toNat (table.bit f.toNat) = table.cloexec := by
    apply List.ext_getElem?
    intro index
    by_cases same : f.toNat = index
    · subst same
      by_cases within : f.toNat < table.cloexec.length
      · rw [List.getElem?_set_self within, FdTable.bit,
          List.getElem?_eq_getElem within]
        rfl
      · rw [set_eq_of_length_le (by omega)]
    · rw [List.getElem?_set_ne same]
  unfold writeFile
  rw [slotIndex_eq, if_neg (by have := inside.1; omega), isTable]
  simp only [bind_eq_bind, bind_some]
  rw [if_pos (show f.toNat < table.files.length from inside.2)]
  refine congrArg some (Eq.trans ?_ (setTable_eq_mapTable isTable _))
  rw [FdTable.store, sameBits]

/-- A write outside of a table is undefined. -/
theorem inside_of_writeFile
    (run : w.writeFile t f content = some next) :
    Inside f table := by
  unfold writeFile at run
  rw [slotIndex_eq, isTable] at run
  by_cases negative : 2 ^ 31 ≤ f.toNat
  · rw [if_pos negative] at run
    cases run
  · rw [if_neg negative] at run
    simp only [bind_eq_bind, bind_some] at run
    split at run
    · rename_i within
      exact ⟨by omega, within⟩
    · cases run

theorem writeBit_run
    (shaped : table.Shaped)
    (inside : Inside f table)
    (bit : Bool) :
    w.writeBit t f bit =
      some (w.store t f.toNat (table.slot f.toNat) bit) := by
  have within : f.toNat < table.files.length := inside.2
  have sameFiles :
      table.files.set f.toNat (table.slot f.toNat) = table.files := by
    rw [FdTable.slot, List.getElem?_eq_getElem within]
    exact set_getElem_self within
  unfold writeBit
  rw [slotIndex_eq, if_neg (by have := inside.1; omega), isTable]
  simp only [bind_eq_bind, bind_some]
  rw [if_pos (show f.toNat < table.cloexec.length by
    rw [shaped.bits]; exact within)]
  refine congrArg some (Eq.trans ?_ (setTable_eq_mapTable isTable _))
  rw [FdTable.store, sameFiles]

/-- Both writes together are one store. -/
theorem writeFile_writeBit_run
    (shaped : table.Shaped)
    (inside : Inside f table)
    (content : Option FdId)
    (bit : Bool) :
    (w.writeFile t f content).bind (fun w => w.writeBit t f bit) =
      some (w.store t f.toNat content bit) := by
  rw [writeFile_run isTable inside, bind_some,
    writeBit_run (store_self isTable ..) (shaped.store ..)
      ⟨inside.1, by rw [FdTable.size_store]; exact inside.2⟩,
    FdTable.slot_store inside.2, if_pos rfl]
  unfold store
  rw [mapTable_mapTable]
  simp only [FdTable.store_store]

end

variable {current : FdTable} {c : TableId}

/-- `fdtable_get` on a descriptor that is inside or past the current table. -/
theorem fdtableGet_run
    (isCurrent : w.current = some c)
    (isCurrentTable : w.tables c = some current)
    (isTable : w.tables t = some table)
    (inside : f.toNat < table.size ∨ current.size ≤ table.size) :
    w.fdtableGet t f = some (table.get current.size f) := by
  unfold fdtableGet FdTable.get
  simp only [isCurrent, isCurrentTable, bind_eq_bind,
    bind_some, toInt_neg_iff]
  by_cases outside : 2 ^ 31 ≤ f.toNat ∨ current.size ≤ f.toNat
  · rw [if_pos outside, if_pos outside]
    rfl
  · have within : f.toNat < table.files.length := by
      unfold FdTable.size at inside outside
      omega
    rw [if_neg outside, if_neg outside, isTable, FdTable.slot]
    simp [List.getElem?_eq_getElem within]

/-- `f_get` looks into the current table. -/
theorem fGet_run
    (isCurrent : w.current = some t)
    (isTable : w.tables t = some table) :
    w.fGet f = some (table.get table.size f) := by
  unfold fGet
  rw [isCurrent]
  exact fdtableGet_run isCurrent isTable isTable (.inr (Nat.le_refl _))

/-- It finds what is in the slot of a valid number. -/
theorem get_eq_some_iff :
    table.get table.size f = some fd ↔
      f.toNat < 2 ^ 31 ∧ table.slot f.toNat = some fd := by
  unfold FdTable.get
  constructor
  · intro found
    split at found
    · cases found
    · exact ⟨by omega, found⟩
  · rintro ⟨positive, found⟩
    have within := FdTable.lt_size_of_slot found
    rw [if_neg (by omega), found]

theorem fdtableClose_empty
    (host : FdHost)
    (get : w.fdtableGet t f = some none) :
    w.fdtableClose host t f = some (w, .error .badf) := by
  unfold fdtableClose
  rw [get]
  rfl

@[simp] theorem removeOwnedLocks_objects
    (w : FdWorld) (object : FdObject) (owner : TableId) :
    (w.removeOwnedLocks object owner).objects = w.objects := by
  unfold removeOwnedLocks
  split <;> rfl

@[simp] theorem removeOwnedLocks_tables
    (w : FdWorld) (object : FdObject) (owner : TableId) :
    (w.removeOwnedLocks object owner).tables = w.tables := by
  unfold removeOwnedLocks
  split <;> rfl

theorem unlocked_of_live
    (isLive : w.live fd = some object) :
    w.unlocked t fd = w.removeOwnedLocks object t := by
  unfold unlocked
  rw [isLive]

/-- `unlocked` only changes the POSIX locks. -/
theorem eq_of_unlocked
    (w : FdWorld) (t : TableId) (fd : FdId) :
    (w.unlocked t fd).objects = w.objects ∧
      (w.unlocked t fd).tables = w.tables ∧
      (w.unlocked t fd).tableCount = w.tableCount ∧
      (w.unlocked t fd).current = w.current := by
  cases isLive : w.live fd with
  | none =>
    unfold unlocked
    rw [isLive]
    exact ⟨rfl, rfl, rfl, rfl⟩
  | some object =>
    rw [unlocked_of_live isLive]
    unfold removeOwnedLocks
    cases object.inode with
    | none | some inode => exact ⟨rfl, rfl, rfl, rfl⟩

/-- Closing an open slot empties it. -/
theorem fdtableClose_open
    (host : FdHost)
    (get : w.fdtableGet t f = some (some fd))
    (isLive : w.live fd = some object)
    (isTable : w.tables t = some table)
    (shaped : table.Shaped)
    (inside : Inside f table) :
    ∃ err,
      w.fdtableClose host t f = some (w.closed t f.toNat fd, err) := by
  have stillLive :
      (w.removeOwnedLocks object t).live fd = some object := by
    rw [live, removeOwnedLocks_objects]
    exact isLive
  have stillTable :
      ((w.removeOwnedLocks object t).put fd).tables t = some table :=
    (congrFun (removeOwnedLocks_tables w object t) t).trans isTable
  obtain ⟨err, close⟩ := fdClose_of_live host stillLive
  have written :=
    writeFile_writeBit_run stillTable shaped inside none false
  obtain ⟨middle, first, second⟩ := bind_eq_some_iff.mp written
  refine ⟨err, ?_⟩
  unfold fdtableClose closed
  rw [get, unlocked_of_live isLive]
  simp only [bind_eq_bind, bind_some, isLive, close, first,
    second]
  rfl

/-- `fdtable_close` finds nothing, or empties the slot. -/
theorem fdtableClose_cases
    (get : w.fdtableGet t f = some content)
    (isTable : w.tables t = some table)
    (shaped : table.Shaped)
    (inside : content ≠ none → Inside f table)
    (run : w.fdtableClose host t f = some (next, err)) :
    (content = none ∧ next = w ∧ err = .error .badf) ∨
      ∃ fd object,
        content = some fd ∧ w.live fd = some object ∧
          next = w.closed t f.toNat fd := by
  cases content with
  | none =>
    rw [fdtableClose_empty host get] at run
    cases run
    exact .inl ⟨rfl, rfl, rfl⟩
  | some fd =>
    cases isLive : w.live fd with
    | none =>
      rw [fdtableClose, get] at run
      simp [isLive] at run
    | some object =>
      obtain ⟨_, closed⟩ := fdtableClose_open host get isLive isTable
        shaped (inside (some_ne_none fd))
      cases closed.symm.trans run
      exact .inr ⟨fd, object, rfl, isLive, rfl⟩

/-- `fdtable_expand` grows the table, or is refused. -/
theorem fdtableExpand_run
    (host : FdHost)
    (isTable : w.tables t = some table)
    (f : FdNum) :
    w.fdtableExpand host t f =
      some (match host.expandError table (f + 1).toNat with
        | some err => (w, .error err)
        | none => (w.grow t (f + 1).toNat, .ok ())) := by
  unfold fdtableExpand FdHost.expandError
  by_cases past : host.limit < (f + 1).toNat
  · simp only [if_pos past]
    rfl
  · simp only [if_neg past, isTable, bind_eq_bind, bind_some]
    by_cases enough : (f + 1).toNat ≤ table.size
    · have unchanged : w.grow t (f + 1).toNat = w :=
        mapTable_id isTable (FdTable.grow_of_le enough)
      simp only [if_pos enough, unchanged]
      rfl
    · simp only [if_neg enough, fdtableResize, isTable,
        bind_eq_bind, bind_some]
      by_cases full : host.memory = false
      · simp only [if_pos full]
        rfl
      · have grown : w.setTable t (some (table.grow (f + 1).toNat)) =
            w.grow t (f + 1).toNat :=
          setTable_eq_mapTable isTable fun table =>
            table.grow (f + 1).toNat
        simp only [if_neg full, ← grown]
        rfl

/-- The slots the loop goes over are in use, up to the one it returns. -/
theorem installLoop_spec
    {rounds start : Nat}
    (run : installLoop files rounds start = some place) :
    start ≤ place ∧ place ≤ start + rounds ∧
      (∀ index, start ≤ index → index < place →
        index < 2 ^ 31 ∧ ∃ fd, files[index]? = some (some fd)) ∧
      (place < start + rounds →
        place < 2 ^ 31 ∧ files[place]? = some none) := by
  induction rounds generalizing start with
  | zero =>
    cases run
    refine ⟨Nat.le_refl _, Nat.le_refl _, ?_, ?_⟩
    · intro index _ _
      omega
    · intro less
      omega
  | succ rounds inductionHypothesis =>
    unfold installLoop at run
    by_cases negative : 2 ^ 31 ≤ start
    · rw [if_pos negative] at run
      cases run
    · rw [if_neg negative] at run
      cases content : files[start]? with
      | none =>
        simp [content] at run
      | some slot =>
        cases slot with
        | none =>
          simp only [content, some.injEq] at run
          subst run
          refine ⟨Nat.le_refl _, by omega, ?_, ?_⟩
          · intro index _ _
            omega
          · intro _
            exact ⟨by omega, content⟩
        | some fd =>
          simp only [content] at run
          obtain ⟨after, most, used, free⟩ := inductionHypothesis run
          refine ⟨by omega, by omega, ?_, ?_⟩
          · intro index fromStart before
            by_cases here : index = start
            · subst here
              exact ⟨by omega, fd, content⟩
            · exact used index (by omega) before
          · intro less
            exact free (by omega)

/-- The loop ends if it stops before the indices become negative. -/
theorem installLoop_isSome
    {rounds start : Nat}
    (inside : start + rounds ≤ files.length ∨ rounds = 0)
    (ends :
      start + rounds ≤ 2 ^ 31 ∨
        ∃ index, start ≤ index ∧ index < 2 ^ 31 ∧
          files[index]? = some none) :
    ∃ place, installLoop files rounds start = some place := by
  induction rounds generalizing start with
  | zero =>
    exact ⟨start, rfl⟩
  | succ rounds inductionHypothesis =>
    have within : start < files.length := by
      omega
    have positive : ¬ 2 ^ 31 ≤ start := by
      rcases ends with low | ⟨index, _, _, _⟩ <;> omega
    unfold installLoop
    rw [if_neg positive, List.getElem?_eq_getElem within]
    cases content : files[start] with
    | none =>
      exact ⟨start, rfl⟩
    | some fd =>
      refine inductionHypothesis (by omega) ?_
      rcases ends with low | ⟨index, fromStart, below, free⟩
      · exact .inl (by omega)
      · refine .inr ⟨index, ?_, below, free⟩
        have different : index ≠ start := by
          rintro rfl
          rw [List.getElem?_eq_getElem within, content] at free
          cases free
        omega

/--
The limit, cut to 32 bits, ends the search below a slot in use that is under
the real limit: the file is installed over another one.
-/
def Overwrites (host : FdHost) (table : FdTable) (start : Nat) : Prop :=
  let low := host.limit % dwordRange
  (∀ index, start ≤ index → index < low → table.slot index ≠ none) ∧
    max start low < host.limit ∧
    table.slot (max start low) ≠ none

/--
What installing a file with a close-on-exec bit can do with a reference to it.
-/
inductive InstallStep
    (host : FdHost)
    (w : FdWorld)
    (t : TableId)
    (table : FdTable)
    (fd : FdId)
    (start : Nat)
    (bit : Bool) : FdWorld → Except Errno FdNum → Prop where
  | refused (err : Errno) :
      InstallStep host w t table fd start bit (w.put fd) (.error err)
  | pastLast (size : Nat) (err : Errno) :
      size < dwordRange →
      InstallStep host w t table fd start bit ((w.grow t size).put fd)
        (.error err)
  | placed (place : Nat) :
      start ≤ place →
      place < 2 ^ 31 →
      (∀ index, start ≤ index → index < place → table.slot index ≠ none) →
      (table.slot place = none ∨ Overwrites host table start) →
      place < table.size ∨ place < host.limit →
      InstallStep host w t table fd start bit
        ((w.grow t (place + 1)).store t place (some fd) bit)
        (.ok (BitVec.ofNat 32 place))

/-- How many descriptors `f_install_start` looks at. -/
def installSize (host : FdHost) (table : FdTable) : Nat :=
  min (host.limit % dwordRange) table.size

/-- A place the loop returns is a 32-bit number. -/
theorem installPlace_small
    (shaped : table.Shaped)
    (start : FdNum)
    (loop :
      installLoop table.files (installSize host table - start.toNat)
        start.toNat = some place) :
    (BitVec.ofNat 32 place).toNat = place := by
  obtain ⟨_, most, _⟩ := installLoop_spec loop
  have small := shaped.small
  have startSmall := start.isLt
  have cut : installSize host table ≤ table.files.length :=
    Nat.min_le_right _ _
  rw [BitVec.toNat_ofNat]
  apply Nat.mod_eq_of_lt
  unfold dwordRange at small
  omega

theorem toNat_succ
    (small : (BitVec.ofNat 32 place).toNat = place)
    (positive : place < 2 ^ 31) :
    (BitVec.ofNat 32 place + 1).toNat = place + 1 := by
  rw [BitVec.toNat_add, small]
  exact Nat.mod_eq_of_lt (by simp; omega)

/-- Installing at a place that the table has been grown for. -/
theorem installAt_placed
    (host : FdHost)
    (isTable : w.tables t = some table)
    (shaped : table.Shaped)
    (small : (BitVec.ofNat 32 place).toNat = place)
    (positive : place < 2 ^ 31)
    (fd : FdId) :
    (w.grow t (place + 1)).installAt host t fd (BitVec.ofNat 32 place)
        (.ok ()) =
      some ((w.grow t (place + 1)).store t place (some fd) false,
        .ok (BitVec.ofNat 32 place)) := by
  have room : place < max table.size (place + 1) := by
    omega
  have written := writeFile_writeBit_run (grow_self isTable (place + 1))
    (shaped.grow (by unfold dwordRange; omega))
    (f := BitVec.ofNat 32 place)
    ⟨by omega, by rw [small, FdTable.size_grow]; exact room⟩
    (some fd) false
  rw [small] at written
  obtain ⟨middle, first, second⟩ := bind_eq_some_iff.mp written
  have notNegative : ¬ (BitVec.ofNat 32 place).toInt < 0 := by
    rw [toInt_neg_iff, small]
    omega
  unfold installAt
  simp only [if_neg notNegative, first, second, bind_eq_bind,
    bind_some]
  rfl

/-- Installing with an error gives the reference to a file in use back. -/
theorem installAt_failed
    {e : Except Errno Unit}
    (host : FdHost)
    (isLive : w.live fd = some object)
    (failed : (∃ err, e = .error err) ∨ f.toInt < 0) :
    ∃ err, w.installAt host t fd f e = some (w.put fd, .error err) := by
  obtain ⟨closeResult, close⟩ := fdClose_of_live host isLive
  unfold installAt
  cases e with
  | error err =>
    simp only [close, bind_eq_bind, bind_some]
    exact ⟨err, rfl⟩
  | ok done =>
    have negative : f.toInt < 0 := by
      rcases failed with ⟨_, impossible⟩ | negative
      · cases impossible
      · exact negative
    simp only [if_pos negative, close, bind_eq_bind,
      bind_some]
    exact ⟨_, rfl⟩

/-- Installing with an error gives the reference back. -/
theorem eq_put_of_installAt
    {expanded : Except Errno Unit}
    (failed : (∃ err, expanded = .error err) ∨ f.toInt < 0)
    (run : w.installAt host t fd f expanded = some (next, result)) :
    next = w.put fd ∧ ∃ err, result = .error err := by
  unfold installAt at run
  cases expanded with
  | error err =>
    obtain ⟨⟨after, _⟩, close, same⟩ := bind_eq_some_iff.mp run
    cases same
    exact ⟨(eq_put_of_fdClose close).1, err, rfl⟩
  | ok done =>
    have negative : f.toInt < 0 := by
      rcases failed with ⟨_, impossible⟩ | negative
      · cases impossible
      · exact negative
    simp only [if_pos negative] at run
    obtain ⟨⟨after, _⟩, close, same⟩ := bind_eq_some_iff.mp run
    cases same
    exact ⟨(eq_put_of_fdClose close).1, _, rfl⟩

theorem fInstallStart_cases
    {start : FdNum}
    (isCurrent : w.current = some t)
    (isTable : w.tables t = some table)
    (shaped : table.Shaped)
    (run : w.fInstallStart host fd start = some (next, result)) :
    start.toNat < 2 ^ 31 ∧
      InstallStep host w t table fd start.toNat false next result := by
  unfold fInstallStart at run
  by_cases negative : start.toInt < 0
  · rw [if_pos negative] at run
    cases run
  have startPositive : start.toNat < 2 ^ 31 := by
    rw [toInt_neg_iff] at negative
    omega
  refine ⟨startPositive, ?_⟩
  rw [if_neg negative] at run
  simp only [isCurrent, isTable, bind_eq_bind, bind_some]
    at run
  change (installLoop table.files (installSize host table - start.toNat)
    start.toNat).bind _ = _ at run
  obtain ⟨place, loop, run⟩ := bind_eq_some_iff.mp run
  obtain ⟨after, most, used, free⟩ := installLoop_spec loop
  have place32 := installPlace_small shaped start loop
  have inUse :
      ∀ index, start.toNat ≤ index → index < place →
        table.slot index ≠ none := by
    intro index fromStart before
    obtain ⟨_, other, isUsed⟩ := used index fromStart before
    rw [FdTable.slot, isUsed]
    exact some_ne_none other
  by_cases past : installSize host table ≤ place
  · rw [if_pos (show min _ _ ≤ place from past),
      fdtableExpand_run host isTable] at run
    cases refusal : host.expandError table
        (BitVec.ofNat 32 place + 1).toNat with
    | some err =>
      rw [refusal] at run
      simp only [bind_some] at run
      obtain ⟨rfl, other, rfl⟩ :=
        eq_put_of_installAt (.inl ⟨err, rfl⟩) run
      exact .refused other
    | none =>
      rw [refusal] at run
      simp only [bind_some] at run
      by_cases last : 2 ^ 31 ≤ place
      · have isNegative : (BitVec.ofNat 32 place).toInt < 0 := by
          rw [toInt_neg_iff, place32]
          exact last
        obtain ⟨rfl, other, rfl⟩ :=
          eq_put_of_installAt (.inr isNegative) run
        exact .pastLast _ other (BitVec.isLt _)
      · have positive : place < 2 ^ 31 := by
          omega
        have nextNumber := toNat_succ place32 positive
        rw [nextNumber] at run refusal
        rw [installAt_placed host isTable shaped place32 positive] at run
        cases run
        have underLimit : place < host.limit := by
          unfold FdHost.expandError at refusal
          split at refusal
          · cases refusal
          · omega
        refine .placed place after positive inUse ?_ (.inr underLimit)
        by_cases occupied : table.slot place = none
        · exact .inl occupied
        · have inTable : place < table.size := by
            obtain ⟨other, isOther⟩ := ne_none_iff_exists'.mp occupied
            exact FdTable.lt_size_of_slot isOther
          have cut : place = max start.toNat (host.limit % dwordRange) := by
            unfold installSize at past most
            omega
          refine .inr ⟨?_, ?_, ?_⟩
          · intro index fromStart before
            exact inUse index fromStart (by omega)
          · rw [← cut]
            exact underLimit
          · rw [← cut]
            exact occupied
  · have inTable : place < table.size := by
      have cut : installSize host table ≤ table.size := Nat.min_le_right _ _
      omega
    obtain ⟨positive, isFree⟩ := free (by omega)
    have unchanged : w.grow t (place + 1) = w :=
      mapTable_id isTable (FdTable.grow_of_le inTable)
    have placed :=
      installAt_placed host isTable shaped place32 positive fd
    rw [if_neg (show ¬ min _ _ ≤ place from past)] at run
    rw [unchanged] at placed
    rw [placed] at run
    cases run
    have step :
        InstallStep host w t table fd start.toNat false
          ((w.grow t (place + 1)).store t place (some fd) false)
          (.ok (BitVec.ofNat 32 place)) :=
      .placed place after positive inUse
        (.inl (by rw [FdTable.slot, isFree]; rfl)) (.inl inTable)
    rwa [unchanged] at step

/-- The loop of `f_install_start` stays below the negative indices. -/
def ScanFits (host : FdHost) (table : FdTable) (start : Nat) : Prop :=
  installSize host table ≤ 2 ^ 31 ∨
    ∃ index, start ≤ index ∧ index < 2 ^ 31 ∧
      table.files[index]? = some none

/-- A file can be installed: a slot is free, or the table can grow. -/
def Available (host : FdHost) (table : FdTable) (start : Nat) : Prop :=
  ∃ place,
    installLoop table.files (installSize host table - start) start =
        some place ∧
      place < 2 ^ 31 ∧
      (place < installSize host table ∨
        host.expandError table (place + 1) = none)

/-- `f_install_start` runs to its end, with a descriptor if there is one. -/
theorem fInstallStart_isSome
    {start : FdNum}
    (isCurrent : w.current = some t)
    (isTable : w.tables t = some table)
    (shaped : table.Shaped)
    (isLive : w.live fd = some object)
    (positive : start.toNat < 2 ^ 31)
    (fits : ScanFits host table start.toNat) :
    ∃ next result,
      w.fInstallStart host fd start = some (next, result) ∧
        (Available host table start.toNat → ∃ f, result = .ok f) := by
  have cut : installSize host table ≤ table.files.length :=
    Nat.min_le_right _ _
  obtain ⟨place, loop⟩ :
      ∃ place,
        installLoop table.files (installSize host table - start.toNat)
          start.toNat = some place := by
    apply installLoop_isSome
    · omega
    · rcases fits with low | free
      · exact .inl (by omega)
      · exact .inr free
  have place32 := installPlace_small shaped start loop
  have notNegative : ¬ start.toInt < 0 := by
    rw [toInt_neg_iff]
    omega
  unfold fInstallStart
  rw [if_neg notNegative]
  simp only [isCurrent, isTable, bind_eq_bind, bind_some]
  change ∃ next result, (installLoop table.files
    (installSize host table - start.toNat) start.toNat).bind _ = _ ∧ _
  rw [loop]
  simp only [bind_some]
  have samePlace :
      Available host table start.toNat →
        place < 2 ^ 31 ∧
          (place < installSize host table ∨
            host.expandError table (place + 1) = none) := by
    rintro ⟨other, isOther, facts⟩
    cases loop.symm.trans isOther
    exact facts
  by_cases past : installSize host table ≤ place
  · rw [if_pos (show min _ _ ≤ place from past),
      fdtableExpand_run host isTable]
    cases refusal : host.expandError table
        (BitVec.ofNat 32 place + 1).toNat with
    | some err =>
      obtain ⟨other, run⟩ := installAt_failed (f := BitVec.ofNat 32 place)
        (t := t) host isLive (.inl ⟨err, rfl⟩)
      refine ⟨_, _, run, ?_⟩
      intro available
      obtain ⟨below, room⟩ := samePlace available
      rw [toNat_succ place32 below] at refusal
      rcases room with found | room
      · omega
      · cases room.symm.trans refusal
    | none =>
      simp only [bind_some]
      by_cases last : 2 ^ 31 ≤ place
      · have isNegative : (BitVec.ofNat 32 place).toInt < 0 := by
          rw [toInt_neg_iff, place32]
          exact last
        have stillLive :
            (w.grow t (BitVec.ofNat 32 place + 1).toNat).live fd =
              some object := isLive
        obtain ⟨other, run⟩ :=
          installAt_failed (t := t) (e := .ok ()) host stillLive
            (.inr isNegative)
        refine ⟨_, _, run, ?_⟩
        intro available
        have below := (samePlace available).1
        omega
      · have below : place < 2 ^ 31 := by
          omega
        rw [toNat_succ place32 below]
        exact ⟨_, _, installAt_placed host isTable shaped place32 below fd,
          fun _ => ⟨_, rfl⟩⟩
  · have inTable : place < table.size := by
      have sameSize : table.files.length = table.size := rfl
      omega
    obtain ⟨_, _, _, free⟩ := installLoop_spec loop
    obtain ⟨below, _⟩ := free (by omega)
    have unchanged : w.grow t (place + 1) = w :=
      mapTable_id isTable (FdTable.grow_of_le inTable)
    have placed := installAt_placed host isTable shaped place32 below fd
    rw [unchanged] at placed
    rw [if_neg (show ¬ min _ _ ≤ place from past)]
    exact ⟨_, _, placed, fun _ => ⟨_, rfl⟩⟩

end FdWorld

end GuestKernel
