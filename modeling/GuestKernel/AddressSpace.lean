import GuestKernel.Errno
import GuestKernel.KernelNumbers
import GuestKernel.PageTable

namespace GuestKernel
open Function

/-!
# Address spaces and their backing data

The page-table operations of `kernel/memory.c` on the whole system state: all
address spaces, the reference-counted `struct data` records their entries
point to, and the bytes of host memory.

Every operation runs with the write lock of its address space held, so it is
one step of the system.  Host addresses are natural numbers, and the host's
`mmap`, `malloc` and `mprotect` answer through the reply arguments.  `none` is
a failed assertion or undefined behaviour: a page outside the directory, or a
`struct data` used after its `free`.  The block cache flushes of
`asbestos_invalidate_page` belong to the emulator and do not touch this state.
-/

/-- The identity of one `struct mm`. -/
abbrev MmId := Nat

/-- The host facts fixed at start-up. -/
structure Host where
  realPageSize : Nat
  vdsoData : Nat

/-- A host with pages of 4096 bytes and the vdso out of the way. -/
def plainHost : Host where
  realPageSize := 4096
  vdsoData := 0

/-- `struct data`. -/
structure Data where
  data : Nat
  size : Nat
  refcount : BitVec 32
  fd : Option FdId
  fileOffset : Nat
  deriving Repr, DecidableEq

/-- What freeing one `struct data` did: its `munmap` and its `fd_close`. -/
structure Release where
  id : DataId
  munmap : Option (Nat × Nat)
  fdClose : Option FdId
  deriving Repr, DecidableEq

/-- `struct mm`, with the `struct mem` inside it. -/
structure Mm where
  mem : Mem
  startBrk : Nat
  brk : Nat

/--
The state of all address spaces.

`released`, `held` and `wrapped` are history: the frees so far, the data that
ever had an entry, and whether a 32-bit count of the bookkeeping ever wrapped.
-/
structure World where
  data : DataId → Option Data
  nextData : Nat
  mm : MmId → Mm
  mmCount : Nat
  bytes : Nat → UInt8
  released : List Release
  held : DataId → Bool
  wrapped : Bool

/-- The host's answers to the `mmap` and `malloc` of one mapping. -/
structure MapReply where
  memory : Except Errno Nat
  malloc : Bool
  deriving Repr, DecidableEq

/-- A returned error code with the state after the call. -/
abbrev Outcome := Except Errno Unit × World

namespace World

/-- The system before the first `mm_new`. -/
def empty : World where
  data := fun _ => none
  nextData := 0
  mm := fun _ => { mem := .empty, startBrk := 0, brk := 0 }
  mmCount := 0
  bytes := fun _ => 0
  released := []
  held := fun _ => false
  wrapped := false

/-- The page table of one address space. -/
def mem (w : World) (m : MmId) : Mem :=
  (w.mm m).mem

/-- The entry of a page of an address space. -/
def lookup (w : World) (m : MmId) (page : Nat) : Option PtEntry :=
  (w.mem m).lookup page

/-- Replace the page table of one address space. -/
def setMem (w : World) (m : MmId) (mem : Mem) : World :=
  { w with mm := update w.mm m { w.mm m with mem := mem } }

/-- Write one page table entry. -/
def fillEntry
    (w : World) (m : MmId) (page : Nat) (entry : PtEntry) : World :=
  w.setMem m ((w.mem m).fill page entry)

/-- `mem_pt_del`. -/
def clearEntry (w : World) (m : MmId) (page : Nat) : World :=
  w.setMem m ((w.mem m).memPtDel page)

/-- `mem_changed`. -/
def memChanged (w : World) (m : MmId) : World :=
  w.setMem m (w.mem m).changed

/-- `malloc` and initialisation of a `struct data`. -/
def newData
    (w : World)
    (memory : Nat)
    (start pages offset : Nat) : World :=
  { w with
    data :=
      update w.data w.nextData
        (some {
          data := memory
          size := pages * pageSize % 2 ^ 32 + offset
          refcount := 0
          fd := none
          fileOffset := 0 })
    nextData := w.nextData + 1
    wrapped :=
      w.wrapped ||
        (decide (2 ^ 32 ≤ pages * pageSize) &&
          !(pageRange start pages).isEmpty) }

/-- `data->refcount++` on a 32-bit counter. -/
def retain (w : World) (id : DataId) : Option World := do
  let record ← w.data id
  pure { w with
    data :=
      update w.data id
        (some { record with refcount := record.refcount + 1 })
    held := update w.held id true
    wrapped := w.wrapped || record.refcount + 1 == 0 }

/-- The `munmap` and the `fd_close` made when a record is freed. -/
def releaseOf (host : Host) (id : DataId) (record : Data) : Release where
  id := id
  munmap :=
    -- vdso wasn't allocated with mmap, it's just in our data segment
    if record.data = host.vdsoData then none
    else some (record.data, record.size)
  fdClose := record.fd

/-- `if (--data->refcount == 0)` and the release that follows. -/
def dropRef
    (host : Host) (w : World) (id : DataId) : Option World := do
  let record ← w.data id
  let refcount := record.refcount - 1
  if refcount = 0 then
    pure { w with
      data := update w.data id none
      released := w.released ++ [releaseOf host id record] }
  else
    pure { w with
      data :=
        update w.data id
          (some { record with refcount := refcount }) }

/-- `data->fd = fd_retain(fd)` and `data->file_offset = offset`. -/
def attachFile
    (w : World)
    (m : MmId)
    (page : Nat)
    (fd : FdId)
    (offset : Nat) : Option World := do
  let entry ← w.lookup m page
  let record ← w.data entry.data
  pure { w with
    data :=
      update w.data entry.data
        (some { record with fd := some fd, fileOffset := offset }) }

/-- Change the bytes of a host region. -/
def fillBytes
    (w : World)
    (memory length : Nat)
    (content : Nat → UInt8) : World :=
  { w with
    bytes := fun address =>
      if memory ≤ address ∧ address < memory + length then
        content (address - memory)
      else
        w.bytes address }

/-! ### What the elementary updates change -/

@[simp] theorem lookup_setMem_same (w : World) (m : MmId) (mem : Mem) :
    (w.setMem m mem).lookup m = mem.lookup := by
  funext page
  simp [lookup, World.mem, setMem]

theorem mem_setMem_other
    (w : World)
    {m other : MmId}
    (different : other ≠ m)
    (mem : Mem) :
    (w.setMem m mem).mem other = w.mem other := by
  simp [World.mem, setMem, Function.update_of_ne different]

@[simp] theorem mem_setMem_same (w : World) (m : MmId) (mem : Mem) :
    (w.setMem m mem).mem m = mem := by
  simp [World.mem, setMem]

theorem lookup_fillEntry
    (w : World)
    (m other : MmId)
    (page otherPage : Nat)
    (entry : PtEntry) :
    (w.fillEntry m page entry).lookup other otherPage =
      if other = m ∧ otherPage = page then some entry
      else w.lookup other otherPage := by
  by_cases same : other = m
  · subst other
    simp [lookup, fillEntry, Mem.lookup_fill]
  · simp [lookup, fillEntry, mem_setMem_other w same, same]

theorem lookup_clearEntry
    (w : World)
    (m other : MmId)
    (page otherPage : Nat) :
    (w.clearEntry m page).lookup other otherPage =
      if other = m ∧ otherPage = page then none
      else w.lookup other otherPage := by
  by_cases same : other = m
  · subst other
    simp [lookup, clearEntry, Mem.lookup_memPtDel]
  · simp [lookup, clearEntry, mem_setMem_other w same, same]

@[simp] theorem lookup_memChanged (w : World) (m : MmId) :
    (w.memChanged m).lookup = w.lookup := by
  funext other page
  by_cases same : other = m
  · subst other
    simp [lookup, memChanged]
  · simp [lookup, memChanged, mem_setMem_other w same]

theorem bytes_fillBytes_of_outside
    (w : World)
    {memory length address : Nat}
    (content : Nat → UInt8)
    (outside : address < memory ∨ memory + length ≤ address) :
    (w.fillBytes memory length content).bytes address =
      w.bytes address := by
  refine if_neg ?_
  omega

variable {w next : World} {id : DataId}

theorem retain_eq_some :
    w.retain id = some next ↔
      ∃ record,
        w.data id = some record ∧
          next = { w with
            data :=
              update w.data id
                (some { record with refcount := record.refcount + 1 })
            held := update w.held id true
            wrapped := w.wrapped || record.refcount + 1 == 0 } := by
  unfold retain
  cases found : w.data id <;> simp [eq_comm]

/-- Everything giving a reference back can do. -/
theorem dropRef_cases
    {host : Host}
    (dropped : w.dropRef host id = some next) :
    ∃ record,
      w.data id = some record ∧
        ((record.refcount - 1 = 0 ∧
        next = { w with
          data := update w.data id none
          released := w.released ++ [releaseOf host id record] }) ∨
        (record.refcount - 1 ≠ 0 ∧
          next = { w with
            data :=
              update w.data id
                (some { record with
                  refcount := record.refcount - 1 }) })) := by
  unfold dropRef at dropped
  cases found : w.data id with
  | none =>
    simp [found] at dropped
  | some record =>
    refine ⟨record, rfl, ?_⟩
    simp only [found, Option.bind_eq_bind, Option.bind_some] at dropped
    split at dropped
    · rename_i last
      exact .inl ⟨last, (Option.some.inj dropped).symm⟩
    · rename_i remaining
      exact .inr ⟨remaining, (Option.some.inj dropped).symm⟩

/-- Attaching a file changes one live record. -/
theorem attachFile_eq_some
    {m : MmId}
    {page offset : Nat}
    {fd : FdId} :
    w.attachFile m page fd offset = some next ↔
      ∃ entry record,
        w.lookup m page = some entry ∧
          w.data entry.data = some record ∧
          next = { w with
            data :=
              update w.data entry.data
                (some { record with
                  fd := some fd, fileOffset := offset }) } := by
  unfold attachFile
  cases found : w.lookup m page with
  | none =>
    simp
  | some entry =>
    cases live : w.data entry.data <;> simp [eq_comm, live]

theorem mm_dropRef
    {host : Host}
    (dropped : w.dropRef host id = some next) :
    next.mm = w.mm := by
  obtain ⟨record, _, freed | kept⟩ := dropRef_cases dropped
  · obtain ⟨_, rfl⟩ := freed
    rfl
  · obtain ⟨_, rfl⟩ := kept
    rfl

end World

/-- One round of the loop of `pt_unmap_always`. -/
def unmapPage
    (host : Host) (m : MmId) (w : World) (page : Nat) : Option World := do
  match ← memPt (w.mem m) page with
  | none => pure w
  | some entry => (w.clearEntry m page).dropRef host entry.data

/-- `pt_unmap_always`, which returns 0. -/
def ptUnmapAlways
    (host : Host) (w : World) (m : MmId) (start pages : Nat) :
    Option World := do
  let walk := memWalk (w.mem m) start ((start + pages) % 2 ^ 32)
  let w ← walk.foldlM (unmapPage host m) w
  pure (w.memChanged m)

/-- The check loop of `pt_unmap` and `pt_set_flags`: no page is missing. -/
def allMapped (mem : Mem) : List Nat → Option Bool
  | [] => some true
  | page :: rest => do
      if (← memPt mem page).isSome then
        allMapped mem rest
      else
        some false

/-- `pt_unmap`; the Boolean is the success of the C function. -/
def ptUnmap
    (host : Host) (w : World) (m : MmId) (start pages : Nat) :
    Option (Bool × World) := do
  if ← allMapped (w.mem m) (pageRange start pages) then
    let w ← ptUnmapAlways host w m start pages
    pure (true, w)
  else
    pure (false, w)

/-- `if (mem_pt(mem, page) != NULL) pt_unmap(mem, page, 1)`. -/
def unmapIfMapped
    (host : Host) (m : MmId) (w : World) (page : Nat) : Option World := do
  if (← memPt (w.mem m) page).isSome then
    (ptUnmap host w m page 1).map Prod.snd
  else
    pure w

/-- One round of the loop of `pt_map`. -/
def ptMapPage
    (host : Host)
    (m : MmId)
    (id : DataId)
    (start offset : Nat)
    (flags : Flags)
    (w : World)
    (page : Nat) : Option World := do
  let w ← unmapIfMapped host m w page
  let w ← w.retain id
  pure (w.fillEntry m page {
    data := id
    offset := (page - start) * pageSize + offset
    flags := flags })

/-- `pt_map`. -/
def ptMap
    (host : Host)
    (w : World)
    (m : MmId)
    (start pages : Nat)
    (reply : MapReply)
    (offset : Nat)
    (flags : Flags) : Option Outcome :=
  match reply.memory with
  | .error code => some (.error code, w)
  | .ok memory =>
    if memory % host.realPageSize = 0 ∨ memory = host.vdsoData then
      if reply.malloc then do
        let id := w.nextData
        let w := w.newData memory start pages offset
        let w ←
          (pageRange start pages).foldlM
            (ptMapPage host m id start offset flags) w
        pure (.ok (), w)
      else
        some (.error .nomem, w)
    else
      none

/-- An anonymous host mapping reads as zeros. -/
def mapAnonymous (w : World) (reply : MapReply) (length : Nat) : World :=
  match reply.memory with
  | .error _ => w
  | .ok memory => w.fillBytes memory length fun _ => 0

/-- `pt_map_nothing`. -/
def ptMapNothing
    (host : Host)
    (w : World)
    (m : MmId)
    (start pages : Nat)
    (reply : MapReply)
    (flags : Flags) : Option Outcome :=
  if pages = 0 then
    some (.ok (), w)
  else
    ptMap host
      (mapAnonymous w reply (pages * pageSize % 2 ^ 32))
      m start pages reply 0 (flags ||| pAnonymous)

/--
The second loop of `pt_set_flags`.  `hostMprotect page` is the answer of the
host's `mprotect` for that page, asked only when protection increases.
-/
def setFlagsLoop
    (m : MmId)
    (flags : Flags)
    (hostMprotect : Nat → Except Errno Unit) :
    World → List Nat → Option Outcome
  | w, [] => some (.ok (), w.memChanged m)
  | w, page :: rest =>
    match memPt (w.mem m) page with
    | some (some entry) =>
      let w := w.fillEntry m page { entry with flags := flags }
      if hasFlag (flags &&& ~~~entry.flags) (pRead ||| pWrite) then
        match hostMprotect page with
        | .error code => some (.error code, w)
        | .ok () => setFlagsLoop m flags hostMprotect w rest
      else
        setFlagsLoop m flags hostMprotect w rest
    | _ => none

/-- `pt_set_flags`. -/
def ptSetFlags
    (w : World)
    (m : MmId)
    (start pages : Nat)
    (flags : Flags)
    (hostMprotect : Nat → Except Errno Unit) : Option Outcome := do
  if ← allMapped (w.mem m) (pageRange start pages) then
    setFlagsLoop m flags hostMprotect w (pageRange start pages)
  else
    some (.error .nomem, w)

/-- The flags a page has after `pt_copy_on_write` went over it. -/
def cowFlags (flags : Flags) : Flags :=
  if hasFlag flags pShared then flags else flags ||| pCow

/-- One round of the loop of `pt_copy_on_write`. -/
def copyPage
    (host : Host) (src dst : MmId) (w : World) (page : Nat) :
    Option World := do
  match ← memPt (w.mem src) page with
  | none => pure w
  | some entry =>
    let w ← ptUnmapAlways host w dst page 1
    let entry := { entry with flags := cowFlags entry.flags }
    let w := w.fillEntry src page entry
    let w ← w.retain entry.data
    pure (w.fillEntry dst page entry)

/-- `pt_copy_on_write`, which returns 0. -/
def ptCopyOnWrite
    (host : Host) (w : World) (src dst : MmId) (start pages : Nat) :
    Option World := do
  let walk := memWalk (w.mem src) start ((start + pages) % 2 ^ 32)
  let w ← walk.foldlM (copyPage host src dst) w
  pure ((w.memChanged src).memChanged dst)

/-- `MEM_READ`, `MEM_WRITE` and `MEM_WRITE_PTRACE`. -/
inductive Access where
  | read
  | write
  | writePtrace
  deriving Repr, DecidableEq

/-- `mem_ptr_nofault`: the host address behind a guest address. -/
def memPtrNofault
    (w : World) (m : MmId) (addr : Nat) (type : Access) :
    Option Nat := do
  let entry ← w.lookup m (page addr)
  if type = .write ∧ pWritable entry.flags = false then
    none
  else
    let record ← w.data entry.data
    pure ((record.data + entry.offset + pgOffset addr) % 2 ^ 64)

/-- The first mapped page above a page, looked for by a stack fault. -/
def nextMapped (mem : Mem) (page : Nat) : Option PtEntry :=
  (List.range' (page + 1) (memPages - (page + 1))).findSome? mem.lookup

/-- The stack growth of `mem_resolve_fault` on an unmapped page. -/
def growStack
    (host : Host) (w : World) (m : MmId) (page : Nat) (reply : MapReply) :
    Option Outcome := do
  match ← memPt (w.mem m) page, nextMapped (w.mem m) page with
  | some _, _ => some (.ok (), w)
  | none, none => some (.error .fault, w)
  | none, some above =>
    if hasFlag above.flags pGrowsdown then
      ptMapNothing host w m page 1 reply (pWrite ||| pGrowsdown)
    else
      some (.error .fault, w)

/-- The copy of `mem_resolve_fault`: a fresh page over the shared one. -/
def copyFault
    (host : Host)
    (w : World)
    (m : MmId)
    (page : Nat)
    (entry : PtEntry)
    (flags : Flags)
    (reply : MapReply) : Option Outcome :=
  match reply.memory with
  | .error code => some (.error code, w)
  | .ok copy => do
      let record ← w.data entry.data
      let source := record.data + entry.offset
      let w := w.fillBytes copy pageSize fun index =>
        w.bytes (source + index)
      ptMap host w m page 1 reply 0 (flags &&& ~~~pCow)

/-- The second half of `mem_resolve_fault`, on a mapped page. -/
def resolveWrite
    (host : Host)
    (w : World)
    (m : MmId)
    (page : Nat)
    (type : Access)
    (ptraceCopy : Bool)
    (copy : MapReply) : Option Outcome :=
  if type = .read then
    some (.ok (), w)
  else do
    let entry ← w.lookup m page
    let flags :=
      if ptraceCopy then entry.flags ||| (pWrite ||| pCow)
      else entry.flags
    if hasFlag flags pWrite = false then
      some (.error .fault, w)
    else if hasFlag flags pCow then
      copyFault host w m page entry flags copy
    else
      some (.ok (), w)

/-- `mem_resolve_fault`. -/
def memResolveFault
    (host : Host)
    (w : World)
    (m : MmId)
    (page : Nat)
    (type : Access)
    (ptraceCopy : Bool)
    (grow copy : MapReply) : Option Outcome :=
  (growStack host w m page grow).bind fun outcome =>
    match outcome with
    | (.error code, w) => some (.error code, w)
    | (.ok (), w) => resolveWrite host w m page type ptraceCopy copy

/-- `mem_init` for the next address space, with the given breaks. -/
def World.addMm (w : World) (startBrk brk : Nat) : World :=
  { w with
    mm :=
      update w.mm w.mmCount
        { mem := .empty, startBrk := startBrk, brk := brk }
    mmCount := w.mmCount + 1 }

/-- `mm_new`; the breaks "should get overwritten by exec". -/
def mmNew (w : World) : World :=
  w.addMm 0 0

/-- `mem_destroy`. -/
def memDestroy (host : Host) (w : World) (m : MmId) : Option World := do
  let w ← ptUnmapAlways host w m 0 memPages
  pure (w.setMem m (w.mem m).freed)

end GuestKernel
