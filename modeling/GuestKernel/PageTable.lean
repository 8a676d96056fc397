import Mathlib.Data.BitVec
import Mathlib.Data.List.Basic
import Mathlib.Logic.Function.Basic

namespace GuestKernel
open List Function

/-!
# Guest page tables

The page table of one address space, as `kernel/memory.c` keeps it: a
directory of 1024 pointers to tables of 1024 entries, allocated on demand.
Page numbers are natural numbers.  Ends of ranges are computed in 32 bits, as
`page_t` does, and looking a page up outside the directory is undefined
behaviour (`none`).

The reference counts and the host memory behind the entries are added by
`GuestKernel.AddressSpace`.
-/

/-- `PAGE_SIZE`, the size of a guest page. -/
abbrev pageSize : Nat := 4096

/-- `MEM_PAGES`, the number of pages of a 32-bit address space. -/
abbrev memPages : Nat := 2 ^ 20

theorem memPages_eq : memPages = 0x100000 := rfl

/-- `MEM_PGDIR_SIZE`, the number of slots at each level of the table. -/
abbrev memPgdirSize : Nat := 1024

/-- `BAD_PAGE`, the answer of a hole search that found none. -/
abbrev badPage : Nat := 0x10000

/-- The word `unsigned flags` of a page table entry. -/
abbrev Flags := BitVec 32

def pRead : Flags := 0x01
def pWrite : Flags := 0x02
def pExec : Flags := 0x04
def pRwx : Flags := 0x07
def pGrowsdown : Flags := 0x08
def pCow : Flags := 0x10
def pAnonymous : Flags := 0x40
def pShared : Flags := 0x80

/-- Some bit of the mask is set. -/
def hasFlag (flags mask : Flags) : Bool :=
  flags &&& mask != 0

/-- `P_WRITABLE`: writable without a copy-on-write fault. -/
def pWritable (flags : Flags) : Bool :=
  hasFlag flags pWrite && !hasFlag flags pCow

@[simp] theorem hasFlag_or
    (first second mask : Flags) :
    hasFlag (first ||| second) mask =
      (hasFlag first mask || hasFlag second mask) := by
  have distributes :
      (first ||| second) &&& mask =
        first &&& mask ||| second &&& mask := by
    ext index
    simp [Bool.and_or_distrib_right]
  rw [Bool.eq_iff_iff]
  simp only [hasFlag, distributes, bne_iff_ne, ne_eq, Bool.or_eq_true]
  rw [← not_and_or]
  exact not_congr BitVec.or_eq_zero_iff

theorem hasFlag_clear_of_disjoint
    (flags : Flags)
    {cleared mask : Flags}
    (disjoint : ~~~cleared &&& mask = mask) :
    hasFlag (flags &&& ~~~cleared) mask = hasFlag flags mask := by
  simp [hasFlag, BitVec.and_assoc, disjoint]

theorem hasFlag_clear_self
    (flags mask : Flags) :
    hasFlag (flags &&& ~~~mask) mask = false := by
  simp [hasFlag, BitVec.and_assoc]

theorem pWritable_of_cow
    {flags : Flags}
    (cow : hasFlag flags pCow = true) :
    pWritable flags = false := by
  simp [pWritable, cow]

/-- `PAGE(bytes)` of a 32-bit value. -/
def page (bytes : Nat) : Nat :=
  bytes / pageSize

/-- `PGOFFSET(addr)`. -/
def pgOffset (addr : Nat) : Nat :=
  addr % pageSize

/-- `PAGE_ROUND_UP(bytes)`, which may overflow to zero. -/
def pageRoundUp (bytes : Nat) : Nat :=
  page ((bytes + pageSize - 1) % 2 ^ 32)

theorem pageRoundUp_lt (bytes : Nat) :
    pageRoundUp bytes < memPages := by
  simp only [pageRoundUp, page, pageSize, memPages]
  omega

theorem page_lt
    {addr : Nat}
    (bounded : addr < 2 ^ 32) :
    page addr < memPages := by
  simp only [page, pageSize, memPages]
  omega

/-- The identity of one allocation of `struct data`. -/
abbrev DataId := Nat

/-- `struct pt_entry` of a mapped page; an unmapped one is `none`. -/
structure PtEntry where
  data : DataId
  offset : Nat
  flags : Flags
  deriving Repr, DecidableEq

/-- The page table and the change counter of one `struct mem`. -/
structure Mem where
  pgdir : Nat → Option (Nat → Option PtEntry)
  changes : Nat

namespace Mem

/-- The table `mem_init` builds. -/
def empty : Mem where
  pgdir := fun _ => none
  changes := 0

/-- The entry of a mapped page. -/
def lookup (mem : Mem) (page : Nat) : Option PtEntry :=
  (mem.pgdir (page / memPgdirSize)).bind fun table =>
    table (page % memPgdirSize)

/-- `mem_pt_new` followed by the assignment of the whole entry. -/
def fill (mem : Mem) (page : Nat) (entry : PtEntry) : Mem where
  pgdir :=
    update mem.pgdir (page / memPgdirSize)
      (some (update
        ((mem.pgdir (page / memPgdirSize)).getD fun _ => none)
        (page % memPgdirSize)
        (some entry)))
  changes := mem.changes

/-- `mem_pt_del`. -/
def memPtDel (mem : Mem) (page : Nat) : Mem :=
  match mem.pgdir (page / memPgdirSize) with
  | none => mem
  | some table =>
    { mem with
      pgdir :=
        update mem.pgdir (page / memPgdirSize)
          (some (update table (page % memPgdirSize) none)) }

/-- `mem_changed`. -/
def changed (mem : Mem) : Mem :=
  { mem with changes := mem.changes + 1 }

/-- The `free` of all tables in `mem_destroy`. -/
def freed (mem : Mem) : Mem :=
  { mem with pgdir := fun _ => none }

@[simp] theorem lookup_empty (page : Nat) :
    empty.lookup page = none :=
  rfl

@[simp] theorem lookup_freed (mem : Mem) (page : Nat) :
    mem.freed.lookup page = none :=
  rfl

@[simp] theorem lookup_changed (mem : Mem) (page : Nat) :
    mem.changed.lookup page = mem.lookup page :=
  rfl

@[simp] theorem changes_changed (mem : Mem) :
    mem.changed.changes = mem.changes + 1 :=
  rfl

@[simp] theorem changes_fill (mem : Mem) (page : Nat) (entry : PtEntry) :
    (mem.fill page entry).changes = mem.changes :=
  rfl

@[simp] theorem changes_memPtDel (mem : Mem) (page : Nat) :
    (mem.memPtDel page).changes = mem.changes := by
  unfold memPtDel
  split <;> rfl

private theorem page_eq_of_slots_eq
    {first second : Nat}
    (sameTop : first / memPgdirSize = second / memPgdirSize)
    (sameBottom : first % memPgdirSize = second % memPgdirSize) :
    first = second := by
  simp only [memPgdirSize] at sameTop sameBottom
  omega

/-- Filling an entry is a point update of the lookup function. -/
theorem lookup_fill
    (mem : Mem)
    (page other : Nat)
    (entry : PtEntry) :
    (mem.fill page entry).lookup other =
      if other = page then some entry else mem.lookup other := by
  unfold lookup fill
  by_cases sameTop : other / memPgdirSize = page / memPgdirSize
  · by_cases sameBottom : other % memPgdirSize = page % memPgdirSize
    · have samePage := page_eq_of_slots_eq sameTop sameBottom
      subst samePage
      simp
    · have otherPage : other ≠ page := by
        rintro rfl
        exact sameBottom rfl
      rw [sameTop]
      cases found : mem.pgdir (page / memPgdirSize) <;>
        simp [otherPage, sameBottom]
  · have otherPage : other ≠ page := by
      rintro rfl
      exact sameTop rfl
    simp [otherPage, Function.update_of_ne sameTop]

/-- Deleting an entry is a point update of the lookup function. -/
theorem lookup_memPtDel
    (mem : Mem)
    (page other : Nat) :
    (mem.memPtDel page).lookup other =
      if other = page then none else mem.lookup other := by
  unfold memPtDel
  cases found : mem.pgdir (page / memPgdirSize) with
  | none =>
    by_cases samePage : other = page
    · simp [samePage, lookup, found]
    · simp [samePage]
  | some table =>
    by_cases sameTop : other / memPgdirSize = page / memPgdirSize
    · by_cases sameBottom :
          other % memPgdirSize = page % memPgdirSize
      · have samePage := page_eq_of_slots_eq sameTop sameBottom
        subst samePage
        simp [lookup]
      · have otherPage : other ≠ page := by
          rintro rfl
          exact sameBottom rfl
        simp [lookup, sameTop, found, otherPage, sameBottom]
    · have otherPage : other ≠ page := by
        rintro rfl
        exact sameTop rfl
      simp [lookup, otherPage, Function.update_of_ne sameTop]

end Mem

/--
`mem_pt`: the entry of a page.  The outer `none` is the read past the end of
the directory that a page number from `MEM_PAGES` on makes.
-/
def memPt (mem : Mem) (page : Nat) : Option (Option PtEntry) :=
  if page < memPages then some (mem.lookup page) else none

variable {mem : Mem} {start page pages : Nat}

@[simp] theorem memPt_eq_some
    {found : Option PtEntry} :
    memPt mem page = some found ↔
      page < memPages ∧ mem.lookup page = found := by
  unfold memPt
  split <;> simp_all

/-- The pages of `for (page = start; page < start + pages; page++)`. -/
def pageRange (start pages : Nat) : List Nat :=
  List.range' start ((start + pages) % 2 ^ 32 - start)

@[simp] theorem mem_pageRange :
    page ∈ pageRange start pages ↔
      start ≤ page ∧ page < (start + pages) % 2 ^ 32 := by
  simp only [pageRange, List.mem_range'_1]
  omega

theorem pageRange_nodup (start pages : Nat) :
    (pageRange start pages).Nodup :=
  nodup_range'

/-- In a loop over distinct pages the next one has not been done. -/
theorem not_done
    {range done later : List Nat}
    (distinct : range.Nodup)
    (shape : range = done ++ page :: later) :
    page ∉ done := by
  rw [shape] at distinct
  exact fun again =>
    (nodup_append.mp distinct).2.2 page again page mem_cons_self rfl

@[simp] theorem pageRange_one
    (bounded : start < memPages) :
    pageRange start 1 = [start] := by
  have single : (start + 1) % 2 ^ 32 - start = 1 := by
    simp only [memPages] at bounded
    omega
  rw [pageRange, single]
  rfl

/-- The inner loop of `mem_next_page`: skip directories without a table. -/
def skipPgdirs (mem : Mem) (page : Nat) : Nat :=
  if page < memPages ∧ (mem.pgdir (page / memPgdirSize)).isNone then
    skipPgdirs mem (page - page % memPgdirSize + memPgdirSize)
  else
    page
termination_by memPages - page
decreasing_by
  simp only [memPages, memPgdirSize] at *
  omega

/-- `mem_next_page`. -/
def memNextPage (mem : Mem) (page : Nat) : Nat :=
  if page + 1 ≥ memPages then
    page + 1
  else
    skipPgdirs mem (page + 1)

/-- Skipping moves forward and passes unmapped pages only. -/
theorem skipPgdirs_spec
    (mem : Mem)
    (page : Nat) :
    page ≤ skipPgdirs mem page ∧
      ∀ other,
        page ≤ other →
        other < skipPgdirs mem page →
        mem.lookup other = none := by
  induction page using skipPgdirs.induct mem with
  | case1 page skipped inductionHypothesis =>
    rw [skipPgdirs, if_pos skipped]
    obtain ⟨forward, unmapped⟩ := inductionHypothesis
    simp only [memPgdirSize] at forward unmapped skipped ⊢
    refine ⟨by omega, ?_⟩
    intro other afterPage beforeEnd
    by_cases sameTable : other < page - page % 1024 + 1024
    · have sameTop : other / 1024 = page / 1024 := by
        omega
      simp [Mem.lookup, sameTop, Option.isNone_iff_eq_none.mp skipped.2]
    · exact unmapped other (by omega) beforeEnd
  | case2 page stays =>
    rw [skipPgdirs, if_neg stays]
    exact ⟨Nat.le_refl page, fun other after before => by omega⟩

theorem memNextPage_spec
    (mem : Mem)
    (page : Nat) :
    page < memNextPage mem page ∧
      ∀ other,
        page < other →
        other < memNextPage mem page →
        mem.lookup other = none := by
  unfold memNextPage
  split
  · exact ⟨by omega, fun other after before => by omega⟩
  · obtain ⟨forward, unmapped⟩ := skipPgdirs_spec mem (page + 1)
    exact ⟨by omega, fun other after before =>
      unmapped other after before⟩

/--
The pages of `for (page = start; page < stop; mem_next_page(mem, &page))`.
The loop bodies never allocate or free a table of `mem`, so the walk can be
computed before they run.
-/
def memWalk (mem : Mem) (start stop : Nat) : List Nat :=
  if start < stop then
    start :: memWalk mem (memNextPage mem start) stop
  else
    []
termination_by stop - start
decreasing_by
  have forward := (memNextPage_spec mem start).1
  omega

/-- A walk stays between its ends. -/
theorem memWalk_bounds
    {stop : Nat}
    (member : page ∈ memWalk mem start stop) :
    start ≤ page ∧ page < stop := by
  induction start using memWalk.induct mem stop with
  | case1 start inside inductionHypothesis =>
    rw [memWalk, if_pos inside] at member
    have forward := (memNextPage_spec mem start).1
    rcases mem_cons.mp member with isStart | later
    · subst page
      exact ⟨Nat.le_refl start, inside⟩
    · have bounds := inductionHypothesis later
      exact ⟨by omega, bounds.2⟩
  | case2 start outside =>
    rw [memWalk, if_neg outside] at member
    cases member

/-- A walk visits every mapped page between its ends. -/
theorem mem_memWalk_of_mapped
    {stop : Nat}
    (afterStart : start ≤ page)
    (beforeStop : page < stop)
    (mapped : mem.lookup page ≠ none) :
    page ∈ memWalk mem start stop := by
  induction start using memWalk.induct mem stop with
  | case1 start inside inductionHypothesis =>
    rw [memWalk, if_pos inside]
    obtain ⟨forward, unmapped⟩ := memNextPage_spec mem start
    by_cases isStart : page = start
    · exact mem_cons.mpr (.inl isStart)
    · refine mem_cons_of_mem _ (inductionHypothesis ?_)
      by_contra before
      exact mapped (unmapped page (by omega) (by omega))
  | case2 start outside =>
    omega

/-- A walk visits no page twice. -/
theorem memWalk_nodup
    (mem : Mem)
    (start stop : Nat) :
    (memWalk mem start stop).Nodup := by
  induction start using memWalk.induct mem stop with
  | case1 start inside inductionHypothesis =>
    rw [memWalk, if_pos inside]
    refine nodup_cons.mpr ⟨?_, inductionHypothesis⟩
    intro again
    have forward := (memNextPage_spec mem start).1
    have bounds := memWalk_bounds again
    omega
  | case2 start outside =>
    rw [memWalk, if_neg outside]
    exact nodup_nil

theorem memWalk_one (mem : Mem) (start : Nat) :
    memWalk mem start (start + 1) = [start] := by
  have forward := (memNextPage_spec mem start).1
  rw [memWalk, if_pos (Nat.lt_succ_self start), memWalk,
    if_neg (by omega)]

/-- `pt_is_hole`, stopping at the first mapped page. -/
def isHoleLoop (mem : Mem) : List Nat → Option Bool
  | [] => some true
  | page :: rest => do
      if (← memPt mem page).isSome then
        some false
      else
        isHoleLoop mem rest

def ptIsHole (mem : Mem) (start pages : Nat) : Option Bool :=
  isHoleLoop mem (pageRange start pages)

theorem ptIsHole_true :
    ptIsHole mem start pages = some true ↔
      ∀ page ∈ pageRange start pages,
        page < memPages ∧ mem.lookup page = none := by
  unfold ptIsHole
  generalize pageRange start pages = range
  induction range with
  | nil =>
    simp [isHoleLoop]
  | cons page rest inductionHypothesis =>
    by_cases inside : page < memPages
    · cases found : mem.lookup page <;>
        simp [isHoleLoop, memPt, inside, found, inductionHypothesis]
    · simp [isHoleLoop, memPt, inside]

/-- A failed hole check met a mapped page. -/
theorem ptIsHole_false
    (occupied : ptIsHole mem start pages = some false) :
    ∃ page ∈ pageRange start pages,
      page < memPages ∧ mem.lookup page ≠ none := by
  revert occupied
  unfold ptIsHole
  generalize pageRange start pages = range
  induction range with
  | nil =>
    simp [isHoleLoop]
  | cons page rest inductionHypothesis =>
    intro occupied
    by_cases inside : page < memPages
    · cases found : mem.lookup page with
      | some entry =>
        exact ⟨page, mem_cons_self, inside, by simp [found]⟩
      | none =>
        simp only [isHoleLoop, memPt, inside, found, if_true] at occupied
        obtain ⟨other, member, facts⟩ := inductionHypothesis occupied
        exact ⟨other, mem_cons_of_mem _ member, facts⟩
    · simp [isHoleLoop, memPt, inside] at occupied

/--
The loop of `pt_find_hole`, downwards over the pages `0x40000 + remaining`.
`holeEnd` is meaningful while `inHole` holds.
-/
def findHoleLoop
    (mem : Mem)
    (size : Nat) :
    (remaining : Nat) → (inHole : Bool) → (holeEnd : Nat) → Nat
  | 0, _, _ => badPage
  | remaining + 1, inHole, holeEnd =>
    let page := 0x40000 + (remaining + 1)
    let unmapped := (mem.lookup page).isNone
    let holeEnd :=
      if !inHole && unmapped then page + 1 else holeEnd
    if !unmapped then
      findHoleLoop mem size remaining false holeEnd
    else if holeEnd - page = size then
      page
    else
      findHoleLoop mem size remaining true holeEnd

/-- `pt_find_hole`. -/
def ptFindHole (mem : Mem) (size : Nat) : Nat :=
  findHoleLoop mem size (0xf7ffd - 0x40000) false 0

end GuestKernel
