import GuestKernel.FdCounts

namespace GuestKernel
open Option
open FdTable

/-!
# Lifetimes of open files

Descriptor calls, copies and releases of tables, and callers that take and
give back references, in any order and on any number of tables: every file is
closed once, when its last reference is gone.
-/

/-- The call takes no reference that would wrap a count. -/
def FdCall.Fits (w : FdWorld) (table : FdTable) (call : FdCall) : Prop :=
  ∀ f fd object,
    call.duplicates ≠ none ∨ call.replaces ≠ none →
    call.source = some f →
    table.get table.size f = some fd →
    w.live fd = some object →
    object.refcount + 1 < dwordRange

namespace FdWorld

variable
  {host : FdHost}
  {w next : FdWorld}
  {t : TableId}
  {table : FdTable}
  {fd : FdId}
  {f : FdNum}
  {callers : FdId → Nat}
  {result : Except Errno FdNum}

theorem Counted.replace
    {newF : FdNum}
    {bit : Bool}
    {object : FdObject}
    (counted : w.Counted callers)
    (isTable : w.tables t = some table)
    (isLive : w.live fd = some object)
    (small : object.refcount + 1 < dwordRange)
    (positive : newF.toNat < 2 ^ 31) :
    ((((w.grow t (newF.toNat + 1)).retained fd).closedSlot t table
      newF.toNat).store t newF.toNat (some fd) bit).Counted callers := by
  have grown := counted.grow isTable (newF.toNat + 1) (by
    unfold dwordRange
    omega)
  have isGrown :
      ((w.grow t (newF.toNat + 1)).retained fd).tables t =
        some (table.grow (newF.toNat + 1)) :=
    grow_self isTable _
  have retained :
      ((w.grow t (newF.toNat + 1)).retained fd).Counted
        (oneMore callers fd) :=
    grown.retained (show (w.grow t _).live fd = _ from isLive) small
  have inside : newF.toNat < (table.grow (newF.toNat + 1)).size := by
    rw [size_grow]
    omega
  have isAfter := closedSlot_self isGrown newF.toNat
  unfold closedSlot at isAfter ⊢
  rw [slot_grow] at isAfter
  cases content : table.slot newF.toNat with
  | none =>
    rw [content] at isAfter
    apply retained.fill isAfter inside positive
    show (table.grow _).slot _ = none
    rw [slot_grow]
    exact content
  | some old =>
    rw [content] at isAfter
    have closed :=
      retained.closed isGrown
        (show (table.grow _).slot newF.toNat = some old by
          rw [slot_grow]
          exact content)
    apply closed.fill isAfter _ positive
    · show ((table.grow _).store _ none false).slot _ = none
      rw [slot_store inside, if_pos rfl]
    · show _ < ((table.grow _).store _ none false).size
      rw [size_store]
      exact inside

/-- Every call but `f_install` keeps the counts. -/
theorem Counted.call
    {call : FdCall}
    (counted : w.Counted callers)
    (isTable : w.tables t = some table)
    (isSource : call.source = some f)
    (keeps : call.KeepsFiles host table)
    (fits : call.Fits w table)
    (step : call.Step host w t table next result) :
    next.Counted callers := by
  cases step with
  | notOpen | refused => exact counted
  | install => cases isSource
  | @duplicate call f fd start bit _ _ sameSource isDuplicate found
      installed =>
      obtain ⟨object, isLive⟩ :=
        counted.live_of_slot isTable (get_eq_some_iff.mp found).2
      have small :=
        fits f fd object (.inl (isDuplicate ▸ some_ne_none _))
          sameSource found isLive
      have keepsFiles :=
        keeps start (installsFrom_of_duplicates isDuplicate) (by
          intro g isSame
          cases sameSource.symm.trans isSame
          rw [found]
          exact some_ne_none fd)
      exact (counted.retained isLive small).installStep
        (show (w.retained fd).tables t = _ from isTable) keepsFiles installed
  | @replace call f newF fd bit sameSource isReplace found positive room =>
    obtain ⟨object, isLive⟩ :=
      counted.live_of_slot isTable (get_eq_some_iff.mp found).2
    have small :=
      fits f fd object (.inr (isReplace ▸ some_ne_none _))
        sameSource found isLive
    exact counted.replace isTable isLive small positive
  | @setfd f arg fd found =>
    obtain ⟨positive, isSlot⟩ := get_eq_some_iff.mp found
    refine counted.store isTable (lt_size_of_slot isSlot)
      (fun _ => positive) ?_ ?_
    · intro impossible
      cases impossible
    · intro other
      rw [isSlot]
  | close found =>
    exact counted.closed isTable (get_eq_some_iff.mp found).2

variable {err : Except Errno Unit}

theorem Counted.fdtableClose
    {c : TableId}
    {current : FdTable}
    (counted : w.Counted callers)
    (isCurrent : w.current = some c)
    (isCurrentTable : w.tables c = some current)
    (isTable : w.tables t = some table)
    (inside : f.toNat < table.size)
    (run : w.fdtableClose host t f = some (next, err)) :
    next.Counted callers ∧ next.current = w.current ∧
      next.tableCount = w.tableCount ∧
      ((table.get current.size f = none ∧ next = w) ∨
        ∃ fd,
          table.get current.size f = some fd ∧
            next.tables = (w.store t f.toNat none false).tables) := by
  have get := fdtableGet_run isCurrent isCurrentTable isTable (.inl inside)
  have clean := counted.clean t table isTable
  have isOpen :
      ∀ {fd}, table.get current.size f = some fd →
        f.toNat < 2 ^ 31 ∧ table.slot f.toNat = some fd := by
    intro fd found
    unfold FdTable.get at found
    split at found
    · cases found
    · exact ⟨by omega, found⟩
  have inBounds : table.get current.size f ≠ none → Inside f table := by
    intro found
    obtain ⟨fd, found⟩ := ne_none_iff_exists'.mp found
    exact ⟨(isOpen found).1, inside⟩
  rcases fdtableClose_cases get isTable clean.shaped inBounds run with
    ⟨empty, rfl, _⟩ | ⟨fd, object, found, isLive, rfl⟩
  · exact ⟨counted, rfl, rfl, .inl ⟨empty, rfl⟩⟩
  · refine ⟨counted.closed isTable (isOpen found).2, ?_,
      closed_tableCount w t f.toNat fd,
      .inr ⟨fd, found, closed_tables w t f.toNat fd⟩⟩
    have current := closedSlot_current w t table f.toNat
    unfold closedSlot at current
    rwa [(isOpen found).2] at current

theorem Counted.tableCount
    (counted : w.Counted callers)
    (isTable : w.tables t = some table)
    (count : Nat) :
    (w.setTable t (some { table with refcount := count })).Counted
      callers := by
  rw [setTable_eq_mapTable isTable fun table =>
    { table with refcount := count }]
  have clean := counted.clean t table isTable
  apply counted.mapTable isTable
  · exact ⟨⟨clean.shaped.bits, clean.shaped.small⟩, clean.noStray⟩
  · exact counted.nameable t table isTable
  · intro fd
    rfl

theorem refs_eq_zero
    (empty : ∀ index, table.slot index = none)
    (fd : FdId) :
    table.refs fd = 0 := by
  apply List.count_eq_zero.mpr
  intro member
  obtain ⟨index, inside, isFile⟩ := List.getElem_of_mem member
  have isSlot := empty index
  rw [slot, List.getElem?_eq_getElem inside, isFile] at isSlot
  cases isSlot

/-- Freeing a table without files keeps the counts. -/
theorem Counted.freeTable
    (counted : w.Counted callers)
    (isTable : w.tables t = some table)
    (empty : ∀ index, table.slot index = none) :
    (w.setTable t none).Counted callers := by
  have old :
      ∀ {other found},
        (w.setTable t none).tables other = some found →
        w.tables other = some found := by
    intro other found isFound
    rw [setTable_tables] at isFound
    split at isFound
    · cases isFound
    · exact isFound
  constructor
  case numbered =>
    exact fun other found isFound =>
      counted.numbered other found (old isFound)
  case clean =>
    exact fun other found isFound => counted.clean other found (old isFound)
  case nameable =>
    exact fun other found isFound =>
      counted.nameable other found (old isFound)
  case counted =>
    intro fd
    have balance :=
      slotRefs_setTable (counted.numbered t table isTable) none fd
    have none := refs_eq_zero empty fd
    unfold tableRefs at balance
    rw [isTable] at balance
    have same : (w.setTable t Option.none).slotRefs fd = w.slotRefs fd := by
      simp only at balance
      omega
    rw [same]
    exact counted.counted fd

/-- How far the loop of `fdtable_release` has closed a table. -/
structure ReleasedBelow
    (callers : FdId → Nat)
    (start : FdWorld)
    (c t : TableId)
    (size : Nat)
    (table : FdTable)
    (index : Nat)
    (w : FdWorld) : Prop where
  counted : w.Counted callers
  sameCount : w.tableCount = start.tableCount
  others : ∀ other, other ≠ t → w.tables other = start.tables other
  isCurrent : w.current = some c
  currentTable :
    ∃ current, w.tables c = some current ∧ current.size = size
  released :
    ∃ now,
      w.tables t = some now ∧ now.size = table.size ∧
        ∀ other,
          now.slot other =
            if other < index then none else table.slot other

theorem ReleasedBelow.round
    {start : FdWorld}
    {c : TableId}
    {size index : Nat}
    (below : ReleasedBelow callers start c t size table index w)
    (small : table.size < dwordRange)
    (nameable :
      ∀ index fd, table.slot index = some fd →
        index < 2 ^ 31 ∧ index < size)
    (inside : index < table.size)
    (run :
      w.fdtableClose host t (BitVec.ofNat 32 index) = some (next, err)) :
    ReleasedBelow callers start c t size table (index + 1) next := by
  obtain ⟨counted, sameCount, others, isCurrent,
    ⟨current, isCurrentTable, currentSize⟩, now, isNow, nowSize, slots⟩ :=
    below
  have number : (BitVec.ofNat 32 index).toNat = index := by
    rw [BitVec.toNat_ofNat]
    exact Nat.mod_eq_of_lt (Nat.lt_trans inside small)
  have here : now.slot index = table.slot index := by
    rw [slots, if_neg (Nat.lt_irrefl index)]
  obtain ⟨nextCounted, sameCurrent, nextCount, closed⟩ :=
    counted.fdtableClose isCurrent isCurrentTable isNow
      (by rw [number, nowSize]; exact inside) run
  refine ⟨nextCounted, nextCount.trans sameCount, ?_,
    sameCurrent.trans isCurrent, ?_, ?_⟩
  · intro other different
    rcases closed with ⟨_, rfl⟩ | ⟨_, _, tables⟩
    · exact others other different
    · rw [tables]
      unfold store
      rw [mapTable_tables, if_neg different]
      exact others other different
  · rcases closed with ⟨_, rfl⟩ | ⟨_, _, tables⟩
    · exact ⟨current, isCurrentTable, currentSize⟩
    · rw [tables]
      unfold store
      rw [mapTable_tables, isCurrentTable]
      split
      · exact ⟨_, rfl, (size_store ..).trans currentSize⟩
      · exact ⟨current, rfl, currentSize⟩
  · rcases closed with ⟨empty, rfl⟩ | ⟨fd, _, tables⟩
    · refine ⟨now, isNow, nowSize, ?_⟩
      intro other
      have isEmpty : table.slot index = none := by
        cases content : table.slot index with
        | none => rfl
        | some fd =>
          obtain ⟨positive, named⟩ := nameable index fd content
          unfold FdTable.get at empty
          rw [number, if_neg (by omega), here, content] at empty
          cases empty
      rw [slots]
      by_cases same : other = index
      · subst same
        rw [if_neg (Nat.lt_irrefl other), if_pos (Nat.lt_succ_self other)]
        exact isEmpty
      · by_cases less : other < index
        · rw [if_pos less, if_pos (by omega)]
        · rw [if_neg less, if_neg (by omega)]
    · rw [tables, number]
      refine ⟨_, store_self isNow .., (size_store ..).trans nowSize,
        ?_⟩
      intro other
      rw [slot_store (by omega), slots]
      by_cases same : other = index
      · subst same
        rw [if_pos rfl, if_pos (Nat.lt_succ_self other)]
      · rw [if_neg same]
        by_cases less : other < index
        · rw [if_pos less, if_pos (by omega)]
        · rw [if_neg less, if_neg (by omega)]

/--
Every open descriptor of a table is one of the current table: then releasing
the table reaches all of them.
-/
def WithinCurrent (w : FdWorld) (table : FdTable) : Prop :=
  ∀ c current, w.current = some c → w.tables c = some current →
    ∀ index fd, table.slot index = some fd → index < current.size

theorem current_of_fdtableClose
    (run : w.fdtableClose host t f = some (next, err)) :
    ∃ c current, w.current = some c ∧ w.tables c = some current := by
  unfold FdWorld.fdtableClose fdtableGet at run
  obtain ⟨_, get, _⟩ := bind_eq_some_iff.mp run
  obtain ⟨c, isCurrent, get⟩ := bind_eq_some_iff.mp get
  obtain ⟨current, isTable, _⟩ := bind_eq_some_iff.mp get
  exact ⟨c, current, isCurrent, isTable⟩

theorem current_of_closeLoop
    {size : Nat}
    (positive : 0 < size)
    (loop :
      (List.range size).foldlM
        (fun w f =>
          (w.fdtableClose host t (BitVec.ofNat 32 f)).map Prod.fst) w =
        some next) :
    ∃ c current, w.current = some c ∧ w.tables c = some current := by
  obtain ⟨last, rfl⟩ := Nat.exists_eq_succ_of_ne_zero (by omega : size ≠ 0)
  rw [List.range_succ_eq_map, List.foldlM_cons] at loop
  obtain ⟨_, round, _⟩ := bind_eq_some_iff.mp loop
  obtain ⟨⟨_, _⟩, close, _⟩ := map_eq_some_iff.mp round
  exact current_of_fdtableClose close

/--
Releasing a table keeps the counts, and the last release takes the table with
its descriptors away and no other one.
-/
theorem Counted.releaseCounted
    {count : Nat}
    (counted : w.Counted callers)
    (isTable : w.tables t = some table)
    (within : count = 0 → w.WithinCurrent table)
    (run : w.releaseCounted host t table count = some next) :
    next.Counted callers ∧
      (count = 0 →
        next.tableCount = w.tableCount ∧
          next.tables = (w.setTable t none).tables) := by
  have written := counted.tableCount isTable count
  have isWritten :
      (w.setTable t (some { table with refcount := count })).tables t =
        some { table with refcount := count } :=
    Function.update_self ..
  unfold FdWorld.releaseCounted at run
  by_cases last : count = 0
  · simp only [if_pos last] at run
    obtain ⟨empty, loop, free⟩ := bind_eq_some_iff.mp run
    cases free
    have clean := counted.clean t table isTable
    have outsideEmpty :
        ∀ index, ¬ index < table.size → table.slot index = none := by
      intro index outside
      cases content : table.slot index with
      | none => rfl
      | some fd => exact (outside (lt_size_of_slot content)).elim
    by_cases noSlot : table.size = 0
    · rw [noSlot] at loop
      cases loop
      refine ⟨written.freeTable isWritten ?_, fun _ => ⟨rfl, ?_⟩⟩
      · intro index
        exact outsideEmpty index (by omega)
      · exact Function.update_idem ..
    · obtain ⟨c, current, isCurrent, isCurrentTable⟩ :=
        current_of_closeLoop (by omega) loop
      have nameable :
          ∀ index fd, table.slot index = some fd →
            index < 2 ^ 31 ∧ index < current.size := by
        intro index fd isSlot
        refine ⟨counted.nameable t table isTable index fd isSlot, ?_⟩
        by_cases same : c = t
        · subst same
          cases isWritten.symm.trans isCurrentTable
          exact lt_size_of_slot isSlot
        · apply within last c current isCurrent _ index fd isSlot
          rwa [setTable_tables, if_neg same] at isCurrentTable
      have finished :=
        Loop.foldlM_range
          (motive :=
            ReleasedBelow callers
              (w.setTable t (some { table with refcount := count })) c t
              current.size table)
          (by
            intro index before after inside reached round
            obtain ⟨⟨_, err⟩, close, rfl⟩ := map_eq_some_iff.mp round
            exact reached.round clean.shaped.small nameable inside close)
          ⟨written, rfl, fun _ _ => rfl, isCurrent,
            ⟨current, isCurrentTable, rfl⟩, _, isWritten, rfl, fun _ => rfl⟩
          loop
      obtain ⟨emptyCounted, sameCount, others, _, _, now, isNow, nowSize,
        slots⟩ := finished
      refine ⟨emptyCounted.freeTable isNow ?_, fun _ => ⟨sameCount, ?_⟩⟩
      · intro index
        rw [slots]
        split
        · rfl
        · rename_i outside
          exact outsideEmpty index outside
      · funext other
        rw [setTable_tables, setTable_tables]
        by_cases same : other = t
        · rw [if_pos same, if_pos same]
        · rw [if_neg same, if_neg same, others other same,
            setTable_tables, if_neg same]
  · simp only [if_neg last] at run
    cases run
    exact ⟨written, fun impossible => (last impossible).elim⟩

end FdWorld

end GuestKernel
