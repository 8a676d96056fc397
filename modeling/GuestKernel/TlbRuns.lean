import GuestKernel.TlbCoherence

namespace GuestKernel
open List Option Function

/-!
# Runs of the translation cache

`Coherent` says that every hit is the translation of the page table.  Reads
and writes keep it, and so do the page-table operations that
`GuestKernel.TlbCoherence` calls steady, as long as the change counter stays.
The machine interleaves both and lets the guest run only after
`tlb_refresh`.
-/

/-- Every hit gives the host address `mem_ptr_nofault` returns. -/
structure Coherent (w : World) (m : MmId) (tlb : Tlb) : Prop where
  read :
    ∀ {addr},
      addr < 2 ^ 32 →
      (tlb.entries (tlbIndex addr)).page = tlbPage addr →
      memPtrNofault w m addr .read =
        some ((tlb.entries (tlbIndex addr)).address addr)
  write :
    ∀ {addr},
      addr < 2 ^ 32 →
      (tlb.entries (tlbIndex addr)).pageIfWritable = tlbPage addr →
      memPtrNofault w m addr .write =
        some ((tlb.entries (tlbIndex addr)).address addr)

namespace Coherent

variable {w next : World} {m : MmId} {tlb : Tlb}

theorem congr
    {other : Tlb}
    (coherent : Coherent w m tlb)
    (entries : other.entries = tlb.entries) :
    Coherent w m other where
  read := by
    rw [entries]
    exact coherent.read
  write := by
    rw [entries]
    exact coherent.write

theorem flush (w : World) (m : MmId) (tlb : Tlb) :
    Coherent w m (tlbFlush w m tlb) where
  read _ hit := absurd hit (tlbPage_ne_empty _)
  write _ hit := absurd hit (tlbPage_ne_empty _)

theorem mono
    (coherent : Coherent w m tlb)
    (kept :
      ∀ {addr type ptr},
        memPtrNofault w m addr type = some ptr →
        memPtrNofault next m addr type = some ptr) :
    Coherent next m tlb where
  read bounded hit := kept (coherent.read bounded hit)
  write bounded hit := kept (coherent.write bounded hit)

/-- Filling a slot from a translation keeps the other slots. -/
theorem fill
    (coherent : Coherent w m tlb)
    {addr ptr : Nat}
    {type : Access}
    (known : type = .read ∨ type = .write)
    (translated : memPtrNofault w m (tlbPage addr) type = some ptr) :
    Coherent w m { tlb with
      dirtyPage := tlbPage addr
      entries :=
        update tlb.entries (tlbIndex addr)
          (missEntry addr type ptr) } := by
  have filled :
      ∀ {other},
        other < 2 ^ 32 →
        tlbPage addr = tlbPage other →
        memPtrNofault w m other type =
          some ((missEntry addr type ptr).address other) := by
    intro other bounded samePage
    have pages := tlbPage_inj.mp samePage.symm
    rw [missEntry_address type bounded pages, memPtrNofault_tlbPage,
      ← samePage, translated]
    rfl
  constructor
  · intro other bounded hit
    by_cases slot : tlbIndex other = tlbIndex addr
    · simp only [slot, update_self] at hit ⊢
      rcases known with rfl | rfl
      · exact filled bounded hit
      · exact (memPtrNofault_write (filled bounded hit)).2
    · simp only [update_of_ne slot] at hit ⊢
      exact coherent.read bounded hit
  · intro other bounded hit
    by_cases slot : tlbIndex other = tlbIndex addr
    · simp only [slot, update_self] at hit ⊢
      by_cases isWrite : type = .write
      · subst isWrite
        exact filled bounded hit
      · simp only [missEntry, if_neg isWrite] at hit
        exact absurd hit (tlbPage_ne_empty _)
    · simp only [update_of_ne slot] at hit ⊢
      exact coherent.write bounded hit

end Coherent

variable {w next : World} {m : MmId} {addr ptr : Nat} {tlb : Tlb}
  {value : List UInt8} {type : Access}

/-- A steady step that counts no change keeps every translation. -/
theorem memPtrNofault_steady
    (steady : Steady m w next)
    (same : (next.mem m).changes = (w.mem m).changes)
    (backed :
      ∀ {page entry},
        next.lookup m page = some entry →
        ∃ record, next.data entry.data = some record)
    (memory :
      ∀ {page entry record},
        w.lookup m page = some entry →
        next.data entry.data = some record →
        ∃ before,
          w.data entry.data = some before ∧ before.data = record.data)
    (translated : memPtrNofault w m addr type = some ptr) :
    memPtrNofault next m addr type = some ptr := by
  cases found : w.lookup m (page addr) with
  | none =>
    simp [memPtrNofault, found] at translated
  | some entry =>
    obtain ⟨after, stillFound, sameData, sameOffset, writable⟩ :=
      steady.stable same found
    obtain ⟨record, live⟩ := backed stillFound
    rw [sameData] at live
    obtain ⟨before, wasLive, sameMemory⟩ := memory found live
    by_cases refused : type = .write ∧ pWritable entry.flags = false
    · simp [memPtrNofault, found, refused] at translated
    · have granted :
          ¬ (type = .write ∧ pWritable after.flags = false) := by
        rintro ⟨isWrite, readOnly⟩
        cases wasWritable : pWritable entry.flags with
        | false =>
          exact refused ⟨isWrite, wasWritable⟩
        | true =>
          cases readOnly.symm.trans (writable wasWritable)
      simp only [memPtrNofault, found, wasLive, bind_eq_bind,
        bind_some, if_neg refused] at translated
      simp only [memPtrNofault, stillFound, sameData, live,
        bind_eq_bind, bind_some, if_neg granted,
        ← sameMemory, sameOffset]
      exact translated

/-- The translations of a machine step that counts no change. -/
theorem TableAction.translation
    {host : Host}
    {action : TableAction}
    (accounted : Accounted w)
    (notWrapped : next.wrapped = false)
    (inUse : m < w.mmCount)
    (announced : ¬ action.Unannounced w)
    (taken : (tableMachine host).step w action next)
    (same : (next.mem m).changes = (w.mem m).changes)
    (translated : memPtrNofault w m addr type = some ptr) :
    memPtrNofault next m addr type = some ptr := by
  have sound := (accounted.step taken).sound notWrapped
  refine memPtrNofault_steady (TableAction.steady inUse announced taken)
    same ?_ ?_ translated
  · intro page entry found
    obtain ⟨record, live, _⟩ := sound.backed found
    exact ⟨record, live⟩
  · intro page entry record found live
    exact TableAction.memory taken (accounted.allocated found) live

/-- What a lookup leaves behind. -/
structure Looked (w : World) (m : MmId) (tlb after : Tlb) : Prop where
  mmu : after.mmu = some m
  coherent : Coherent w m after
  counter :
    after.memChanges = tlb.memChanges ∨
      after.memChanges = (w.mem m).changes % 2 ^ 32

theorem Looked.trans
    {first middle last : Tlb}
    (earlier : Looked w m first middle)
    (later : Looked w m middle last) :
    Looked w m first last where
  mmu := later.mmu
  coherent := later.coherent
  counter := by
    rcases later.counter with same | counted
    · rw [same]
      exact earlier.counter
    · exact .inr counted

section

variable
  (mmu : tlb.mmu = some m)
  (coherent : Coherent w m tlb)
include mmu coherent

/-- A miss answers with the translation and leaves the cache coherent. -/
theorem tlbHandleMiss_spec
    (bounded : addr < 2 ^ 32)
    (known : type = .read ∨ type = .write) :
    ∃ after,
      tlbHandleMiss w tlb addr type =
          some (memPtrNofault w m addr type, after) ∧
        Looked w m tlb after := by
  obtain ⟨ready, isReady, readyMmu, readyCoherent, counter⟩ :
      ∃ ready,
        (if (w.mem m).changes = tlb.memChanges then tlb
          else tlbFlush w m tlb) = ready ∧
          Looked w m tlb ready := by
    refine ⟨_, rfl, ?_⟩
    split
    · exact ⟨mmu, coherent, .inl rfl⟩
    · exact ⟨mmu, .flush w m tlb, .inr rfl⟩
  unfold tlbHandleMiss
  rw [mmu]
  simp only [bind_eq_bind, bind_some, isReady]
  cases translated : memPtrNofault w m (tlbPage addr) type with
  | none =>
    rw [memPtrNofault_tlbPage, translated]
    exact ⟨_, rfl, readyMmu, readyCoherent.congr rfl, counter⟩
  | some ptr =>
    have answer :
        memPtrNofault w m addr type =
          some ((missEntry addr type ptr).address addr) := by
      rw [memPtrNofault_tlbPage, translated,
        missEntry_address type bounded rfl]
      rfl
    rw [answer]
    exact ⟨_, rfl, readyMmu, readyCoherent.fill known translated,
      counter⟩

/-- `__tlb_read_ptr` is `mem_ptr_nofault` for reading. -/
theorem tlbReadPtr_spec
    (bounded : addr < 2 ^ 32) :
    ∃ after,
      tlbReadPtr w tlb addr =
          some (memPtrNofault w m addr .read, after) ∧
        Looked w m tlb after := by
  unfold tlbReadPtr
  by_cases hit :
      (tlb.entries (tlbIndex addr)).page = tlbPage addr
  · refine ⟨tlb, ?_, mmu, coherent, .inl rfl⟩
    rw [if_pos hit, coherent.read bounded hit]
  · rw [if_neg hit]
    exact tlbHandleMiss_spec mmu coherent bounded (.inl rfl)

/-- `__tlb_write_ptr` is `mem_ptr_nofault` for writing. -/
theorem tlbWritePtr_spec
    (bounded : addr < 2 ^ 32) :
    ∃ after,
      tlbWritePtr w tlb addr =
          some (memPtrNofault w m addr .write, after) ∧
        Looked w m tlb after := by
  unfold tlbWritePtr
  by_cases hit :
      (tlb.entries (tlbIndex addr)).pageIfWritable = tlbPage addr
  · refine ⟨{ tlb with dirtyPage := tlbPage addr }, ?_, mmu,
      coherent.congr rfl, .inl rfl⟩
    rw [if_pos hit, coherent.write bounded hit]
  · rw [if_neg hit]
    exact tlbHandleMiss_spec mmu coherent bounded (.inr rfl)

/-- `tlb_read` returns for every size, and only looks pages up. -/
theorem tlbRead_spec
    {size : Nat}
    (bounded : addr < 2 ^ 32)
    (sizeBounded : size < 2 ^ 32) :
    ∃ value after,
      tlbRead w tlb addr size = some (value, after) ∧
        Looked w m tlb after := by
  obtain ⟨first, lookedUp, looked⟩ := tlbReadPtr_spec mmu coherent bounded
  unfold tlbRead
  cases crosses : crossesPage addr size with
  | false =>
    simp only [Bool.false_eq_true, if_false, lookedUp,
      bind_eq_bind, bind_some]
    cases memPtrNofault w m addr .read with
    | none | some ptr =>
      exact ⟨_, _, rfl, looked⟩
  | true =>
    obtain ⟨second, lookedUpNext, lookedNext⟩ :=
      tlbReadPtr_spec looked.mmu looked.coherent
        (nextPageAddr_lt addr)
    simp only [if_true, tlbReadCrossPage, lookedUp,
      bind_eq_bind, bind_some]
    cases memPtrNofault w m addr .read with
    | none =>
      exact ⟨_, _, rfl, looked⟩
    | some ptr1 =>
      simp only [lookedUpNext, bind_some]
      cases memPtrNofault w m (nextPageAddr addr) .read with
      | none =>
        exact ⟨_, _, rfl, looked.trans lookedNext⟩
      | some ptr2 =>
        simp only [if_pos (crossesPage_part sizeBounded crosses)]
        exact ⟨_, _, rfl, looked.trans lookedNext⟩

end

/-- Write bytes one at a time, each through the page table. -/
def writeEach (w : World) (m : MmId) (addr : Nat) :
    List UInt8 → Option World
  | [] => some w
  | byte :: rest => do
      let ptr ← memPtrNofault w m addr .write
      writeEach (w.fillBytes ptr 1 fun _ => byte) m
        ((addr + 1) % 2 ^ 32) rest

theorem memPtrNofault_storeBytes :
    memPtrNofault (w.storeBytes ptr value) = memPtrNofault w := by
  induction value generalizing w ptr with
  | nil =>
    rfl
  | cons byte rest inductionHypothesis =>
    rw [World.storeBytes, inductionHypothesis]
    rfl

/-- Writing two pieces is writing one after the other. -/
theorem writeEach_append
    (bounded : addr < 2 ^ 32)
    (first second : List UInt8) :
    writeEach w m addr (first ++ second) =
      (writeEach w m addr first).bind fun middle =>
        writeEach middle m ((addr + first.length) % 2 ^ 32) second := by
  induction first generalizing w addr with
  | nil =>
    rw [nil_append, length_nil, Nat.add_zero,
      Nat.mod_eq_of_lt bounded]
    rfl
  | cons byte rest inductionHypothesis =>
    have wrapped :
        ((addr + 1) % 2 ^ 32 + rest.length) % 2 ^ 32 =
          (addr + (rest.length + 1)) % 2 ^ 32 := by
      omega
    simp only [cons_append, writeEach, bind_eq_bind,
      length_cons]
    cases memPtrNofault w m addr .write with
    | none =>
      rfl
    | some ptr =>
      simp only [bind_some]
      rw [inductionHypothesis (Nat.mod_lt _ (by decide)), wrapped]

theorem memPtrNofault_succ
    (inside : pgOffset addr + 1 < pageSize)
    (translated : memPtrNofault w m addr type = some ptr) :
    memPtrNofault w m (addr + 1) type = some ((ptr + 1) % 2 ^ 64) := by
  have samePage : page (addr + 1) = page addr := by
    simp only [page, pgOffset, pageSize] at inside ⊢
    omega
  have offset : pgOffset (addr + 1) = pgOffset addr + 1 := by
    simp only [pgOffset, pageSize] at inside ⊢
    omega
  rw [memPtrNofault_tlbPage] at translated ⊢
  rw [tlbPage_inj.mpr samePage, offset]
  obtain ⟨base, isBase, rfl⟩ := map_eq_some_iff.mp translated
  rw [isBase, map_some, Nat.mod_add_mod, Nat.add_assoc]

/-- Inside one page, storing through its host pointer is writing bytes. -/
theorem writeEach_page
    (bounded : addr < 2 ^ 32)
    (inside : pgOffset addr + value.length ≤ pageSize)
    (translated : memPtrNofault w m addr .write = some ptr) :
    writeEach w m addr value = some (w.storeBytes ptr value) := by
  induction value generalizing w addr ptr with
  | nil =>
    rfl
  | cons byte rest inductionHypothesis =>
    simp only [writeEach, translated, bind_eq_bind,
      bind_some, World.storeBytes]
    cases rest with
    | nil =>
      rfl
    | cons second later =>
      simp only [length_cons] at inside
      have noWrap : (addr + 1) % 2 ^ 32 = addr + 1 := by
        refine Nat.mod_eq_of_lt ?_
        simp only [pgOffset, pageSize] at inside
        omega
      have nextOffset : pgOffset (addr + 1) = pgOffset addr + 1 := by
        simp only [pgOffset, pageSize] at inside ⊢
        omega
      rw [noWrap]
      refine inductionHypothesis (noWrap ▸ Nat.mod_lt _ (by decide))
        ?_ (memPtrNofault_succ (by omega) translated)
      rw [nextOffset]
      simp only [length_cons]
      omega

/-- A write faults and changes nothing, or writes all its bytes. -/
def WritesBytes
    (w : World) (m : MmId) (addr : Nat) (value : List UInt8)
    (success : Bool) (next : World) : Prop :=
  success = false ∧ next = w ∨
    success = true ∧ writeEach w m addr value = some next

/-- `tlb_write` of up to a page is the byte-by-byte write, or a fault. -/
theorem tlbWrite_spec
    (mmu : tlb.mmu = some m)
    (coherent : Coherent w m tlb)
    (bounded : addr < 2 ^ 32)
    (small : value.length ≤ pageSize) :
    ∃ success next after,
      tlbWrite w tlb addr value = some (success, next, after) ∧
        WritesBytes w m addr value success next ∧
        Looked w m tlb after := by
  obtain ⟨first, lookedUp, looked⟩ :=
    tlbWritePtr_spec mmu coherent bounded
  have crossing := crossesPage_of_le addr small
  unfold tlbWrite
  cases crosses : crossesPage addr value.length with
  | false =>
    rw [crosses] at crossing
    simp only [Bool.false_eq_true, if_false, lookedUp,
      bind_eq_bind, bind_some]
    cases translated : memPtrNofault w m addr .write with
    | none =>
      exact ⟨_, _, _, rfl, .inl ⟨rfl, rfl⟩, looked⟩
    | some ptr =>
      have inside : pgOffset addr + value.length ≤ pageSize := by
        simpa using crossing
      exact ⟨_, _, _, rfl, .inr ⟨rfl,
        writeEach_page bounded inside translated⟩, looked⟩
  | true =>
    have fits : value.length < 2 ^ 32 :=
      Nat.lt_of_le_of_lt small (by decide)
    have long := crossesPage_part fits crosses
    have offsetSmall : pgOffset addr < pageSize :=
      Nat.mod_lt _ (by decide)
    obtain ⟨second, lookedUpNext, lookedNext⟩ :=
      tlbWritePtr_spec looked.mmu looked.coherent
        (nextPageAddr_lt addr)
    simp only [if_true, tlbWriteCrossPage, lookedUp,
      bind_eq_bind, bind_some]
    cases translated : memPtrNofault w m addr .write with
    | none =>
      exact ⟨_, _, _, rfl, .inl ⟨rfl, rfl⟩, looked⟩
    | some ptr1 =>
      simp only [lookedUpNext, bind_some]
      cases translatedNext :
          memPtrNofault w m (nextPageAddr addr) .write with
      | none =>
        exact ⟨_, _, _, rfl, .inl ⟨rfl, rfl⟩,
          looked.trans lookedNext⟩
      | some ptr2 =>
        simp only [if_pos long]
        refine ⟨_, _, _, rfl, .inr ⟨rfl, ?_⟩,
          looked.trans lookedNext⟩
        -- the first part ends with the page, the rest starts the next
        have part1 :
            (value.take (pageSize - pgOffset addr)).length =
              pageSize - pgOffset addr := by
          rw [length_take]
          omega
        have nextAddr :
            (addr + (pageSize - pgOffset addr)) % 2 ^ 32 =
              nextPageAddr addr := by
          simp only [nextPageAddr, page, pgOffset, pageSize]
            at offsetSmall ⊢
          omega
        have startsPage : pgOffset (nextPageAddr addr) = 0 := by
          simp only [nextPageAddr, pgOffset, pageSize]
          omega
        rw [← take_append_drop (pageSize - pgOffset addr) value,
          writeEach_append bounded, part1, nextAddr,
          writeEach_page bounded (by omega) translated,
          bind_some, take_append_drop]
        refine writeEach_page (nextPageAddr_lt addr) ?_ ?_
        · rw [startsPage, length_drop]
          omega
        · rw [memPtrNofault_storeBytes]
          exact translatedNext

theorem writeEach_bytes
    (written : writeEach w m addr value = some next) :
    ∃ bytes, next = { w with bytes := bytes } := by
  induction value generalizing w addr with
  | nil =>
    cases written
    exact ⟨_, rfl⟩
  | cons byte rest inductionHypothesis =>
    obtain ⟨ptr, _, later⟩ := bind_eq_some_iff.mp written
    obtain ⟨bytes, rfl⟩ := inductionHypothesis later
    exact ⟨bytes, rfl⟩

theorem WritesBytes.bytes
    {success : Bool}
    (writes : WritesBytes w m addr value success next) :
    ∃ bytes, next = { w with bytes := bytes } := by
  rcases writes with ⟨_, rfl⟩ | ⟨_, written⟩
  · exact ⟨_, rfl⟩
  · exact writeEach_bytes written

/--
One thread's cache with the address spaces; `moved` is whether the address in
`tlb->mmu` was given to a new address space since the last refresh.
-/
structure TlbState where
  world : World
  tlb : Tlb
  running : Bool
  freed : List MmId := []
  moved : Bool := false

/--
Page-table operations between runs, a new address space at the address of one
that was freed, and accesses of the guest.
-/
inductive TlbAction where
  | table (action : TableAction)
  | mmNewAt (old : MmId)
  | refresh (m : MmId)
  | read (addr size : Nat)
  | write (addr : Nat) (value : List UInt8)

/-- The address spaces that an operation frees. -/
def TableAction.frees : TableAction → List MmId
  | memDestroy m => [m]
  | _ => []

namespace TlbAction

/-- Accesses come after a refresh, with 32-bit addresses and sizes. -/
def enabled (state : TlbState) : TlbAction → Prop
  | table action => action.enabled state.world
  | mmNewAt old => old ∈ state.freed
  | refresh m => m < state.world.mmCount
  | read addr size =>
    state.running = true ∧ addr < 2 ^ 32 ∧ size < 2 ^ 32
  | write addr value =>
    state.running = true ∧ addr < 2 ^ 32 ∧ value.length < 2 ^ 32

/-- The state after the action; a page-table operation ends the run. -/
def run (host : Host) (state : TlbState) : TlbAction → Option TlbState
  | table action =>
    (action.run host state.world).map fun w =>
      { state with
        world := w
        running := false
        freed := action.frees ++ state.freed }
  | mmNewAt old =>
    let fresh := { state with
      world := mmNew state.world
      running := false
      freed := state.freed.erase old }
    some (if state.tlb.mmu = some old then
      { fresh with
        tlb := { state.tlb with mmu := some state.world.mmCount }
        moved := true }
    else
      fresh)
  | refresh m =>
    some { state with
      tlb := tlbRefresh state.world state.tlb m
      running := true
      moved := false }
  | read addr size =>
    (tlbRead state.world state.tlb addr size).map fun (_, tlb) =>
      { state with tlb := tlb }
  | write addr value =>
    (tlbWrite state.world state.tlb addr value).map
      fun (_, w, tlb) => { state with world := w, tlb := tlb }

end TlbAction

/-- Runs of one cache over any number of address spaces. -/
def tlbMachine (host : Host) : Machine TlbState TlbAction where
  initial state :=
    state = { world := .empty, tlb := .zero, running := false }
  step state action next :=
    action.enabled state ∧ action.run host state = some next

/-- Whether an action is enabled can be computed. -/
instance TlbAction.decidableEnabled (state : TlbState) :
    (action : TlbAction) → Decidable (action.enabled state)
  | .table action => TableAction.decidableEnabled state.world action
  | .mmNewAt old => inferInstanceAs (Decidable (old ∈ state.freed))
  | .refresh m => inferInstanceAs (Decidable (m < state.world.mmCount))
  | .read addr size =>
    inferInstanceAs (Decidable
      (state.running = true ∧ addr < 2 ^ 32 ∧ size < 2 ^ 32))
  | .write addr value =>
    inferInstanceAs (Decidable
      (state.running = true ∧ addr < 2 ^ 32 ∧ value.length < 2 ^ 32))

/--
The condition on a step: no 32-bit count wraps, no `pt_set_flags` is stopped
by the host after it took write permission from a page, no write is longer
than a page, and no new address space at the address of a freed one has the
change count that the cache remembers.
-/
def CoherentStep
    (host : Host) (state : TlbState) : TlbAction → Prop
  | .table action =>
    action.CountsFit host state.world ∧
      ¬ action.Unannounced state.world
  | .write _ value => value.length ≤ pageSize
  | .refresh m =>
    ¬(state.moved = true ∧ state.tlb.mmu = some m ∧
      state.tlb.memChanges = (state.world.mem m).changes)
  | _ => True

/-- The invariant of the machine. -/
structure TlbInvariant (state : TlbState) : Prop where
  accounted : Accounted state.world
  notWrapped : state.world.wrapped = false
  remembered :
    ∀ {m},
      state.tlb.mmu = some m →
      m < state.world.mmCount ∧
        (state.moved = false →
          state.tlb.memChanges ≤ (state.world.mem m).changes ∧
          (state.tlb.memChanges = (state.world.mem m).changes →
            Coherent state.world m state.tlb))
  running :
    state.running = true →
    state.moved = false ∧
      ∃ m, state.tlb.mmu = some m ∧ Coherent state.world m state.tlb

namespace TlbInvariant

variable {host : Host} {state next : TlbState}

section

variable (invariant : TlbInvariant state)
include invariant

/-- A lookup of the running guest keeps the invariant. -/
theorem looked
    {m : MmId}
    (stays : state.moved = false)
    (mmu : state.tlb.mmu = some m)
    {after : Tlb}
    (looked : Looked state.world m state.tlb after) :
    TlbInvariant { state with tlb := after } where
  accounted := invariant.accounted
  notWrapped := invariant.notWrapped
  remembered := by
    intro other otherMmu
    cases looked.mmu.symm.trans otherMmu
    obtain ⟨inUse, kept⟩ := invariant.remembered mmu
    refine ⟨inUse, fun _ => ⟨?_, fun _ => looked.coherent⟩⟩
    have behind := (kept stays).1
    show after.memChanges ≤ _
    rcases looked.counter with same | counted
    · rw [same]
      exact behind
    · rw [counted]
      exact Nat.mod_le _ _
  running _ := ⟨stays, m, looked.mmu, looked.coherent⟩

theorem setBytes
    (bytes : Nat → UInt8) :
    TlbInvariant { state with
      world := { state.world with bytes := bytes } } where
  accounted := invariant.accounted.congr rfl rfl rfl rfl rfl rfl rfl
  notWrapped := invariant.notWrapped
  remembered := by
    intro m mmu
    obtain ⟨inUse, kept⟩ := invariant.remembered mmu
    refine ⟨inUse, fun stays => ?_⟩
    obtain ⟨behind, coherent⟩ := kept stays
    exact ⟨behind, fun same => (coherent same).mono id⟩
  running := by
    intro isRunning
    obtain ⟨stays, m, mmu, coherent⟩ := invariant.running isRunning
    exact ⟨stays, m, mmu, coherent.mono id⟩

/-- `tlb_refresh` makes the cache fit to run. -/
theorem refresh
    {m : MmId}
    (inUse : m < state.world.mmCount)
    (isNew : CoherentStep host state (.refresh m)) :
    TlbInvariant { state with
      tlb := tlbRefresh state.world state.tlb m
      running := true
      moved := false } := by
  have fresh :
      (tlbRefresh state.world state.tlb m).mmu = some m ∧
        (tlbRefresh state.world state.tlb m).memChanges ≤
            (state.world.mem m).changes ∧
          Coherent state.world m
            (tlbRefresh state.world state.tlb m) := by
    unfold tlbRefresh
    split
    · rename_i upToDate
      have stays : state.moved = false := by
        by_contra moved
        exact isNew ⟨Bool.not_eq_false _ ▸ moved, upToDate⟩
      obtain ⟨behind, coherent⟩ :=
        (invariant.remembered upToDate.1).2 stays
      exact ⟨upToDate.1, behind, coherent upToDate.2⟩
    · exact ⟨rfl, Nat.mod_le _ _, .flush _ _ _⟩
  refine {
    accounted := invariant.accounted
    notWrapped := invariant.notWrapped
    remembered := ?_
    running := fun _ => ⟨rfl, m, fresh.1, fresh.2.2⟩ }
  intro other otherMmu
  cases fresh.1.symm.trans otherMmu
  exact ⟨inUse, fun _ => ⟨fresh.2.1, fun _ => fresh.2.2⟩⟩

/-- A page-table operation that is announced keeps the invariant. -/
theorem table
    {action : TableAction}
    {w : World}
    (fits : action.CountsFit host state.world)
    (announced : ¬ action.Unannounced state.world)
    (taken : (tableMachine host).step state.world action w)
    (freed : List MmId) :
    TlbInvariant { state with
      world := w, running := false, freed := freed } where
  accounted := invariant.accounted.step taken
  notWrapped := fits w taken.2
  remembered := by
    intro m mmu
    obtain ⟨inUse, kept⟩ := invariant.remembered mmu
    have steady := TableAction.steady inUse announced taken
    refine ⟨Nat.lt_of_lt_of_le inUse (TableAction.mmCount taken),
      fun stays => ?_⟩
    obtain ⟨behind, coherent⟩ := kept stays
    refine ⟨Nat.le_trans behind steady.monotone, fun same => ?_⟩
    have grows := steady.monotone
    have stays : (w.mem m).changes = (state.world.mem m).changes := by
      show (w.mem m).changes = _
      exact Nat.le_antisymm (same ▸ behind) grows
    exact (coherent (same.trans stays)).mono fun translated =>
      TableAction.translation invariant.accounted (fits w taken.2) inUse
        announced taken stays translated
  running := nofun

/-- A new address space may lie where the one of the cache lay. -/
theorem mmNewAt
    {old : MmId}
    (run : (TlbAction.mmNewAt old).run host state = some next) :
    TlbInvariant next := by
  have taken :
      (tableMachine host).step state.world .mmNew (mmNew state.world) :=
    ⟨trivial, rfl⟩
  have made := invariant.table
    (by rintro w ⟨⟩; exact invariant.notWrapped) id taken
    (state.freed.erase old)
  cases run
  dsimp only
  split
  · exact {
      accounted := made.accounted
      notWrapped := made.notWrapped
      remembered := by
        intro m mmu
        cases mmu
        exact ⟨Nat.lt_succ_self _, nofun⟩
      running := nofun }
  · exact made

theorem step
    {action : TlbAction}
    (allowed : CoherentStep host state action)
    (taken : (tlbMachine host).step state action next) :
    TlbInvariant next := by
  obtain ⟨enabled, run⟩ := taken
  cases action with
  | table action =>
    obtain ⟨w, ran, rfl⟩ := map_eq_some_iff.mp run
    exact invariant.table allowed.1 allowed.2 ⟨enabled, ran⟩ _
  | mmNewAt old => exact invariant.mmNewAt run
  | refresh m =>
    cases run
    exact invariant.refresh enabled allowed
  | read addr size =>
    obtain ⟨isRunning, bounded, sizeBounded⟩ := enabled
    obtain ⟨stays, m, mmu, coherent⟩ := invariant.running isRunning
    obtain ⟨value, after, ran, looked⟩ :=
      tlbRead_spec mmu coherent bounded sizeBounded
    simp only [TlbAction.run, ran, map_some] at run
    cases run
    exact invariant.looked stays mmu looked
  | write addr value =>
    obtain ⟨isRunning, bounded, _⟩ := enabled
    obtain ⟨stays, m, mmu, coherent⟩ := invariant.running isRunning
    obtain ⟨success, w, after, ran, writes, looked⟩ :=
      tlbWrite_spec mmu coherent bounded allowed
    simp only [TlbAction.run, ran, map_some] at run
    cases run
    obtain ⟨bytes, rfl⟩ := writes.bytes
    exact (invariant.looked stays mmu looked).setBytes bytes

end

theorem reachable
    (reachable :
      ((tlbMachine host).restrict (CoherentStep host)).Reachable state) :
    TlbInvariant state :=
  Machine.Reachable.invariant
    (fun isInitial => by
      cases isInitial
      exact {
        accounted := .initial
        notWrapped := rfl
        remembered := nofun
        running := nofun })
    (fun invariant taken => invariant.step taken.1 taken.2) reachable

end TlbInvariant

/--
What the cache promises while the guest runs: hits are translations, a write
hits only a writable page, and a write either faults and changes nothing or is
the byte-by-byte write.
-/
structure Faithful (w : World) (tlb : Tlb) (m : MmId) : Prop where
  mmu : tlb.mmu = some m
  coherent : Coherent w m tlb
  writable :
    ∀ {addr},
      addr < 2 ^ 32 →
      (tlb.entries (tlbIndex addr)).pageIfWritable = tlbPage addr →
      ∃ entry,
        w.lookup m (page addr) = some entry ∧
          pWritable entry.flags = true
  writes :
    ∀ {addr value},
      addr < 2 ^ 32 →
      value.length ≤ pageSize →
      ∃ success next after,
        tlbWrite w tlb addr value = some (success, next, after) ∧
          WritesBytes w m addr value success next

/--
As long as the host stops no `pt_set_flags` after it took write permission, no
write is longer than a page and no new address space passes for a freed one,
the cache is faithful in every state the guest runs in.
-/
theorem cache_faithful_while_changes_are_counted
    {host : Host}
    {state : TlbState}
    (reachable :
      ((tlbMachine host).restrict (CoherentStep host)).Reachable state)
    (running : state.running = true) :
    ∃ m, Faithful state.world state.tlb m := by
  obtain ⟨_, m, mmu, coherent⟩ :=
    (TlbInvariant.reachable reachable).running running
  refine ⟨m, mmu, coherent, ?_, ?_⟩
  · intro addr bounded hit
    exact (memPtrNofault_write (coherent.write bounded hit)).1
  · intro addr value bounded small
    obtain ⟨success, next, after, ran, writes, _⟩ :=
      tlbWrite_spec mmu coherent bounded small
    exact ⟨success, next, after, ran, writes⟩

/-- Map the pages 5 and 6 of the first address space. -/
def mapTwoPages : Option World :=
  (TableAction.ptMapNothing 0 5 2 ⟨.ok 8192, true⟩
    (pRead ||| pWrite)).run plainHost (mmNew World.empty)

/-- The guest running on them, with an empty cache. -/
def freshCache (w : World) : TlbState where
  world := w
  tlb := tlbRefresh w .zero 0
  running := true

/-- A write across two pages leaves a faithful cache and both its parts. -/
theorem cache_faithful_after_crossing_write :
    ∃ (state : TlbState) (m : MmId),
      Faithful state.world state.tlb m ∧
        state.world.bytes 12287 = 2 ∧ state.world.bytes 12288 = 3 := by
  obtain ⟨mapped, mapStep⟩ : ∃ mapped, mapTwoPages = some mapped :=
    isSome_iff_exists.mp (by rfl)
  have facts :
      mapTwoPages.map (fun w => (w.wrapped, w.mmCount)) =
        some (false, 1) := by
    rfl
  have writes :
      (mapTwoPages.bind fun w =>
        (TlbAction.write 0x5ffe [1, 2, 3, 4]).run plainHost
          (freshCache w)).map (fun state =>
            (state.running, state.world.bytes 12287,
              state.world.bytes 12288)) =
        some (true, 2, 3) := by
    decide +kernel
  rw [mapStep] at facts writes
  obtain ⟨state, write, values⟩ := map_eq_some_iff.mp writes
  simp only [map_some, some.injEq, Prod.mk.injEq]
    at facts values
  have mapping :
      (tlbMachine plainHost).step
        { world := mmNew .empty, tlb := .zero, running := false }
        (.table (.ptMapNothing 0 5 2 ⟨.ok 8192, true⟩ (pRead ||| pWrite)))
        { world := mapped, tlb := .zero, running := false } :=
    ⟨Nat.one_pos, congrArg
      (Option.map fun w => TlbState.mk w .zero false [] false) mapStep⟩
  have reachable :
      ((tlbMachine plainHost).restrict
        (CoherentStep plainHost)).Reachable state := by
    have create :
        CoherentStep plainHost
          { world := .empty, tlb := .zero, running := false }
          (.table .mmNew) :=
      ⟨by rintro w ⟨⟩; rfl, id⟩
    have inUse : 0 < mapped.mmCount := by
      rw [facts.2]
      exact Nat.one_pos
    have mapsFit :
        CoherentStep plainHost
          { world := mmNew .empty, tlb := .zero, running := false }
          (.table (.ptMapNothing 0 5 2 ⟨.ok 8192, true⟩
            (pRead ||| pWrite))) := by
      refine ⟨?_, id⟩
      intro w ran
      cases mapStep.symm.trans ran
      exact facts.1
    have refreshing :
        (tlbMachine plainHost).step
          { world := mapped, tlb := .zero, running := false }
          (.refresh 0) (freshCache mapped) :=
      ⟨inUse, rfl⟩
    have writing :
        (tlbMachine plainHost).step (freshCache mapped)
          (.write 0x5ffe [1, 2, 3, 4]) state :=
      ⟨⟨rfl, by decide, by decide⟩, write⟩
    have short :
        CoherentStep plainHost (freshCache mapped)
          (.write 0x5ffe [1, 2, 3, 4]) :=
      (by decide : 4 ≤ pageSize)
    exact .step (.step (a := .refresh 0) (.step (.step (.initial rfl)
      ⟨create, trivial, rfl⟩) ⟨mapsFit, mapping⟩)
      ⟨nofun, refreshing⟩) ⟨short, writing⟩
  obtain ⟨m, faithful⟩ :=
    cache_faithful_while_changes_are_counted reachable values.1
  exact ⟨state, m, faithful, values.2⟩

/-- A run step, for actions that are enabled. -/
def TlbAction.runEnabled
    (host : Host) (state : TlbState) (action : TlbAction) :
    Option TlbState :=
  if action.enabled state then action.run host state else none

/--
The guest writes to page 5; the host then stops a `pt_set_flags` that takes
write permission from page 5 at page 6, and the guest runs again.
-/
def staleRun : List TlbAction := [
  .table .mmNew,
  .table (.ptMapNothing 0 5 1 ⟨.ok 8192, true⟩ (pRead ||| pWrite)),
  .table (.ptMapNothing 0 6 1 ⟨.ok 12288, true⟩ 0),
  .refresh 0,
  .write 0x5000 [7],
  .table (.ptSetFlags 0 5 2 pRead fun page =>
    if page = 6 then .error .nomem else .ok ()),
  .refresh 0]

/--
The refused `pt_set_flags` counts no change, so `tlb_refresh` keeps the entry
that lets the guest write to page 5.
-/
theorem refused_set_flags_keeps_stale_entry :
    ∃ state,
      (tlbMachine plainHost).Reachable state ∧
        state.running = true ∧
        (state.world.mem 0).changes < 2 ^ 32 ∧
        (state.tlb.entries (tlbIndex 0x5000)).pageIfWritable =
            tlbPage 0x5000 ∧
          state.world.lookup 0 (page 0x5000) =
              some { data := 0, offset := 0, flags := pRead } ∧
            ¬ ∃ m, Faithful state.world state.tlb m := by
  have values :
      (staleRun.foldlM (TlbAction.runEnabled plainHost)
          { world := .empty, tlb := .zero, running := false }).map
        (fun state =>
          (state.running, state.tlb.mmu, (state.world.mem 0).changes,
            (state.tlb.entries (tlbIndex 0x5000)).pageIfWritable,
            state.world.lookup 0 (page 0x5000))) =
        some (true, some 0, 0, tlbPage 0x5000,
          some { data := 0, offset := 0, flags := pRead }) := by
    rfl
  obtain ⟨state, ran, values⟩ := map_eq_some_iff.mp values
  simp only [Prod.mk.injEq] at values
  obtain ⟨running, mmu, changes, hit, found⟩ := values
  refine ⟨state, ?_, running, ?_, hit, found, ?_⟩
  · refine Machine.Reachable.foldlM (TlbAction.runEnabled plainHost)
      ?_ (.initial rfl) ran
    intro before action next step
    unfold TlbAction.runEnabled at step
    split at step
    · rename_i enabled
      exact ⟨enabled, step⟩
    · cases step
  · rw [changes]
    decide
  · rintro ⟨m, faithful⟩
    cases mmu.symm.trans faithful.mmu
    obtain ⟨entry, isEntry, writable⟩ :=
      faithful.writable (by decide) hit
    cases found.symm.trans isEntry
    revert writable
    decide

end GuestKernel
