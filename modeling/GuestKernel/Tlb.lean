import GuestKernel.AddressSpace

namespace GuestKernel

/-!
# The translation cache of the emulator

`emu/tlb.c` and `emu/tlb.h`.  A hit adds the cached difference of host and
guest address to the guest address; a miss asks the page tables and fills the
slot of the page.  The cache is emptied when the change counter of the address
space is not the one it remembers.

Guest addresses are 32-bit and host addresses 64-bit values.  `none` is a null
dereference (no address space yet) or a failed assertion.
-/

/-- `struct tlb_entry`. -/
structure TlbEntry where
  page : Nat
  pageIfWritable : Nat
  dataMinusAddr : Nat
  deriving Repr, DecidableEq

/-- `struct tlb`. -/
structure Tlb where
  mmu : Option MmId
  dirtyPage : Nat
  memChanges : Nat
  segfaultAddr : Nat
  entries : Nat → TlbEntry

/-- `TLB_PAGE_EMPTY`, which is no valid page. -/
abbrev tlbPageEmpty : Nat := 1

/-- `TLB_INDEX(addr)`. -/
def tlbIndex (addr : Nat) : Nat :=
  (addr / pageSize % 2 ^ 10) ^^^ (addr / 2 ^ 22)

/-- `TLB_PAGE(addr)`, the address of the page. -/
def tlbPage (addr : Nat) : Nat :=
  page addr * pageSize

/-- The cache of a new thread, all zeros. -/
def Tlb.zero : Tlb where
  mmu := none
  dirtyPage := 0
  memChanges := 0
  segfaultAddr := 0
  entries := fun _ => { page := 0, pageIfWritable := 0, dataMinusAddr := 0 }

/-- `tlb_flush`; `mem_changes` is a 32-bit field. -/
def tlbFlush (w : World) (m : MmId) (tlb : Tlb) : Tlb :=
  { tlb with
    memChanges := (w.mem m).changes % 2 ^ 32
    entries := fun _ => {
      page := tlbPageEmpty
      pageIfWritable := tlbPageEmpty
      dataMinusAddr := 0 } }

/-- `tlb_refresh`. -/
def tlbRefresh (w : World) (tlb : Tlb) (m : MmId) : Tlb :=
  if tlb.mmu = some m ∧ tlb.memChanges = (w.mem m).changes then
    tlb
  else
    tlbFlush w m
      { tlb with
        mmu := some m
        dirtyPage := tlbPageEmpty
        memChanges := (w.mem m).changes % 2 ^ 32 }

/-- The slot a miss fills for a page. -/
def missEntry (addr : Nat) (type : Access) (ptr : Nat) : TlbEntry where
  page := tlbPage addr
  pageIfWritable := if type = .write then tlbPage addr else tlbPageEmpty
  dataMinusAddr := (ptr + 2 ^ 64 - tlbPage addr) % 2 ^ 64

/-- The host address an entry gives for a guest address. -/
def TlbEntry.address (entry : TlbEntry) (addr : Nat) : Nat :=
  (entry.dataMinusAddr + addr) % 2 ^ 64

/-- `tlb_handle_miss`. -/
def tlbHandleMiss
    (w : World) (tlb : Tlb) (addr : Nat) (type : Access) :
    Option (Option Nat × Tlb) := do
  let m ← tlb.mmu
  let ptr := memPtrNofault w m (tlbPage addr) type
  let tlb :=
    if (w.mem m).changes = tlb.memChanges then tlb else tlbFlush w m tlb
  match ptr with
  | none => pure (none, { tlb with segfaultAddr := addr })
  | some ptr =>
    let entry := missEntry addr type ptr
    pure (some (entry.address addr), { tlb with
      dirtyPage := tlbPage addr
      entries := Function.update tlb.entries (tlbIndex addr) entry })

/-- `__tlb_read_ptr`. -/
def tlbReadPtr (w : World) (tlb : Tlb) (addr : Nat) :
    Option (Option Nat × Tlb) :=
  let entry := tlb.entries (tlbIndex addr)
  if entry.page = tlbPage addr then
    some (some (entry.address addr), tlb)
  else
    tlbHandleMiss w tlb addr .read

/-- `__tlb_write_ptr`. -/
def tlbWritePtr (w : World) (tlb : Tlb) (addr : Nat) :
    Option (Option Nat × Tlb) :=
  let entry := tlb.entries (tlbIndex addr)
  if entry.pageIfWritable = tlbPage addr then
    some (some (entry.address addr),
      { tlb with dirtyPage := tlbPage addr })
  else
    tlbHandleMiss w tlb addr .write

/-- `memcpy` to host memory. -/
def World.storeBytes (w : World) (ptr : Nat) : List UInt8 → World
  | [] => w
  | byte :: rest =>
    (w.fillBytes ptr 1 fun _ => byte).storeBytes ((ptr + 1) % 2 ^ 64) rest

/-- `memcpy` from host memory. -/
def World.loadBytes (w : World) (ptr : Nat) : Nat → List UInt8
  | 0 => []
  | size + 1 => w.bytes ptr :: w.loadBytes ((ptr + 1) % 2 ^ 64) size

/-- The address of the page after the one an access starts in. -/
def nextPageAddr (addr : Nat) : Nat :=
  (page addr + 1) * pageSize % 2 ^ 32

/-- The test `PGOFFSET(addr) > PAGE_SIZE - size`, in unsigned arithmetic. -/
def crossesPage (addr size : Nat) : Bool :=
  (pageSize + 2 ^ 32 - size) % 2 ^ 32 < pgOffset addr

/-- `__tlb_read_cross_page`. -/
def tlbReadCrossPage (w : World) (tlb : Tlb) (addr size : Nat) :
    Option (Option (List UInt8) × Tlb) := do
  match ← tlbReadPtr w tlb addr with
  | (none, tlb) => pure (none, tlb)
  | (some ptr1, tlb) =>
    match ← tlbReadPtr w tlb (nextPageAddr addr) with
    | (none, tlb) => pure (none, tlb)
    | (some ptr2, tlb) =>
      let part1 := pageSize - pgOffset addr
      if part1 < size then
        pure (some (w.loadBytes ptr1 part1 ++
          w.loadBytes ptr2 (size - part1)), tlb)
      else
        none

/-- `tlb_read`; a fault reads nothing. -/
def tlbRead (w : World) (tlb : Tlb) (addr size : Nat) :
    Option (Option (List UInt8) × Tlb) :=
  if crossesPage addr size then
    tlbReadCrossPage w tlb addr size
  else do
    match ← tlbReadPtr w tlb addr with
    | (none, tlb) => pure (none, tlb)
    | (some ptr, tlb) => pure (some (w.loadBytes ptr size), tlb)

/-- `__tlb_write_cross_page`. -/
def tlbWriteCrossPage
    (w : World) (tlb : Tlb) (addr : Nat) (value : List UInt8) :
    Option (Bool × World × Tlb) := do
  match ← tlbWritePtr w tlb addr with
  | (none, tlb) => pure (false, w, tlb)
  | (some ptr1, tlb) =>
    match ← tlbWritePtr w tlb (nextPageAddr addr) with
    | (none, tlb) => pure (false, w, tlb)
    | (some ptr2, tlb) =>
      let part1 := pageSize - pgOffset addr
      if part1 < value.length then
        pure (true,
          (w.storeBytes ptr1 (value.take part1)).storeBytes ptr2
            (value.drop part1), tlb)
      else
        none

/-- `tlb_write`; a fault returns false. -/
def tlbWrite
    (w : World) (tlb : Tlb) (addr : Nat) (value : List UInt8) :
    Option (Bool × World × Tlb) :=
  if crossesPage addr value.length then
    tlbWriteCrossPage w tlb addr value
  else do
    match ← tlbWritePtr w tlb addr with
    | (none, tlb) => pure (false, w, tlb)
    | (some ptr, tlb) => pure (true, w.storeBytes ptr value, tlb)

theorem tlbPage_inj
    {first second : Nat} :
    tlbPage first = tlbPage second ↔ page first = page second :=
  ⟨fun same => Nat.eq_of_mul_eq_mul_right (by decide) same,
    fun same => by rw [tlbPage, same, tlbPage]⟩

theorem tlbPage_ne_empty (addr : Nat) : tlbPageEmpty ≠ tlbPage addr := by
  simp only [tlbPage, tlbPageEmpty, pageSize]
  omega

theorem page_tlbPage (addr : Nat) :
    page (tlbPage addr) = page addr ∧ pgOffset (tlbPage addr) = 0 :=
  ⟨Nat.mul_div_cancel _ (by decide), Nat.mul_mod_left _ _⟩

theorem tlbPage_add_pgOffset (addr : Nat) :
    tlbPage addr + pgOffset addr = addr := by
  simp only [tlbPage, page, pgOffset, pageSize]
  omega

theorem nextPageAddr_lt (addr : Nat) : nextPageAddr addr < 2 ^ 32 :=
  Nat.mod_lt _ (by decide)

theorem crossesPage_part
    {addr size : Nat}
    (bounded : size < 2 ^ 32)
    (crosses : crossesPage addr size = true) :
    pageSize - pgOffset addr < size := by
  have crosses := of_decide_eq_true crosses
  simp only [pgOffset, pageSize] at crosses ⊢
  omega

theorem crossesPage_of_le
    (addr : Nat)
    {size : Nat}
    (small : size ≤ pageSize) :
    crossesPage addr size = true ↔ pageSize < pgOffset addr + size := by
  rw [crossesPage, decide_eq_true_eq]
  simp only [pgOffset, pageSize] at small ⊢
  omega

/-- A translation for writing finds a writable page, and reads the same. -/
theorem memPtrNofault_write
    {w : World}
    {m : MmId}
    {addr ptr : Nat}
    (translated : memPtrNofault w m addr .write = some ptr) :
    (∃ entry,
      w.lookup m (page addr) = some entry ∧
        pWritable entry.flags = true) ∧
      memPtrNofault w m addr .read = some ptr := by
  cases found : w.lookup m (page addr) with
  | none =>
    simp [memPtrNofault, found] at translated
  | some entry =>
    cases writable : pWritable entry.flags with
    | false =>
      simp [memPtrNofault, found, writable] at translated
    | true =>
      refine ⟨⟨entry, rfl, writable⟩, ?_⟩
      simpa [memPtrNofault, found, writable] using translated

/-- The translation of a page gives the translations in it. -/
theorem memPtrNofault_tlbPage
    (w : World)
    (m : MmId)
    (addr : Nat)
    (type : Access) :
    memPtrNofault w m addr type =
      (memPtrNofault w m (tlbPage addr) type).map fun ptr =>
        (ptr + pgOffset addr) % 2 ^ 64 := by
  obtain ⟨samePage, noOffset⟩ := page_tlbPage addr
  simp only [memPtrNofault, samePage, noOffset, Nat.add_zero]
  cases w.lookup m (page addr) with
  | none =>
    rfl
  | some entry =>
    by_cases refused : type = .write ∧ pWritable entry.flags = false
    · simp [refused]
    · cases live : w.data entry.data with
      | none =>
        simp [refused, live]
      | some record =>
        simp [refused, live, Nat.mod_add_mod]

theorem missEntry_address
    {addr other ptr : Nat}
    (type : Access)
    (bounded : other < 2 ^ 32)
    (samePage : page other = page addr) :
    (missEntry addr type ptr).address other =
      (ptr + pgOffset other) % 2 ^ 64 := by
  have split := tlbPage_add_pgOffset other
  have sameTlbPage := tlbPage_inj.mpr samePage
  simp only [missEntry, TlbEntry.address]
  omega

end GuestKernel
