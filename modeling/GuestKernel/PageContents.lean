import GuestKernel.CallRangeSpecs
import GuestKernel.HostLayout

namespace GuestKernel
open List Function

/-!
# What a guest reads from a page

A page is the same after an operation when its entry is and when every byte of
it reads as before.  Mapping a hole, unmapping other pages and asking the host
for memory leave a page the same, since the host hands out memory that is not
in use.
-/

/-- The byte a process reads at an address, if the page is mapped. -/
def readByte (w : World) (m : MmId) (addr : Nat) : Option UInt8 :=
  (memPtrNofault w m addr .read).map w.bytes

theorem readByte_eq
    {w : World}
    {m : MmId}
    {addr : Nat}
    {entry : PtEntry}
    {record : Data}
    (mapped : w.lookup m (page addr) = some entry)
    (live : w.data entry.data = some record) :
    readByte w m addr =
      some (w.bytes
        ((record.data + entry.offset + pgOffset addr) % 2 ^ 64)) := by
  simp [readByte, memPtrNofault, mapped, live]

/-- The books are kept, no count has wrapped, and the layout is in order. -/
structure WellKept (w : World) : Prop where
  accounted : Accounted w
  notWrapped : w.wrapped = false
  layout : HostLayout w

/-- A page has its entry, and every byte of it reads as before. -/
structure SamePage (w next : World) (m : MmId) (other : Nat) : Prop where
  entry : next.lookup m other = w.lookup m other
  bytes :
    ∀ {addr},
      page addr = other → readByte next m addr = readByte w m addr

namespace SamePage

variable
  {w next last : World}
  {m : MmId}
  {other : Nat}

theorem refl (w : World) (m : MmId) (other : Nat) : SamePage w w m other where
  entry := rfl
  bytes _ := rfl

theorem trans
    (first : SamePage w next m other)
    (second : SamePage next last m other) :
    SamePage w last m other where
  entry := second.entry.trans first.entry
  bytes isOther := (second.bytes isOther).trans (first.bytes isOther)

end SamePage

variable
  {host : Host}
  {w next : World}
  {m : MmId}

variable {addr start other length pages : Nat} {reply : MapReply}
  {entry : PtEntry} {flags : Flags}

theorem WellKept.backed
    (kept : WellKept w)
    (found : w.lookup m other = some entry) :
    ∃ record,
      w.data entry.data = some record ∧
        entry.offset + pageSize ≤ record.size :=
  (kept.accounted.sound kept.notWrapped).backed found

theorem WellKept.readByte_eq
    (kept : WellKept w)
    {record : Data}
    (found : w.lookup m (page addr) = some entry)
    (live : w.data entry.data = some record) :
    record.data + entry.offset + pgOffset addr < record.data + record.size ∧
      readByte w m addr =
        some (w.bytes (record.data + entry.offset + pgOffset addr)) := by
  obtain ⟨_, isLive, fits⟩ := kept.backed found
  cases live.symm.trans isLive
  have below : pgOffset addr < pageSize := Nat.mod_lt _ (by decide)
  have bound := kept.layout.bounded live
  refine ⟨by omega, ?_⟩
  rw [GuestKernel.readByte_eq found live, Nat.mod_eq_of_lt (by omega)]

theorem readByte_unmapped
    (absent : w.lookup m (page addr) = none) :
    readByte w m addr = none := by
  simp [readByte, memPtrNofault, absent]

/-- No byte of a live record changes. -/
def KeepsLiveBytes (w next : World) : Prop :=
  ∀ ⦃id record address⦄,
    w.data id = some record →
    record.data ≤ address → address < record.data + record.size →
    next.bytes address = w.bytes address

/-- An operation that keeps entry, record and live bytes keeps the page. -/
theorem WellKept.samePage
    (kept : WellKept w)
    (bytes : KeepsLiveBytes w next)
    (records :
      ∀ {entry record},
        w.lookup m other = some entry →
        w.data entry.data = some record →
        ∃ after,
          next.data entry.data = some after ∧ record.SameMemory after)
    (same : next.lookup m other = w.lookup m other) :
    SamePage w next m other where
  entry := same
  bytes := by
    rintro addr rfl
    cases found : w.lookup m (page addr) with
    | none =>
      rw [readByte_unmapped found, readByte_unmapped (same.trans found)]
    | some entry =>
      obtain ⟨record, live, fits⟩ := kept.backed found
      obtain ⟨after, isLive, sameMemory⟩ := records found live
      obtain ⟨inside, read⟩ := kept.readByte_eq found live
      have bound := kept.layout.bounded live
      rw [read, GuestKernel.readByte_eq (same.trans found) isLive,
        sameMemory.data, Nat.mod_eq_of_lt (by omega),
        bytes live (by omega) inside]

theorem keepsLiveBytes_fillBytes
    {memory : Nat}
    (fresh : Fresh w memory length)
    (content : Nat → UInt8) :
    KeepsLiveBytes w (w.fillBytes memory length content) := by
  intro id record address live after before
  refine World.bytes_fillBytes_of_outside w content ?_
  have apart := fresh.2 live
  omega

theorem OnlyFilled.samePage
    (filled : OnlyFilled w next reply length)
    (kept : WellKept w)
    (fresh : reply.Fresh w length)
    (other : Nat) :
    SamePage w next m other := by
  rcases filled with rfl | ⟨memory, replied, rfl⟩
  · exact .refl _ m other
  · refine kept.samePage ?_ (fun _ live => ⟨_, live, .refl _⟩) rfl
    exact keepsLiveBytes_fillBytes (fresh replied) _

theorem OnlyFilled.wellKept
    (filled : OnlyFilled w next reply length)
    (kept : WellKept w) :
    WellKept next := by
  rcases filled with rfl | ⟨_, _, rfl⟩
  · exact kept
  · exact ⟨kept.accounted.fillBytes _ _ _, kept.notWrapped,
      kept.layout.congr rfl rfl⟩

/-- What the loop of `pt_map` over a hole keeps after some pages. -/
structure HoleLoop
    (w : World) (m : MmId) (range done : List Nat) (state : World) :
    Prop where
  unmapped : ∀ other ∈ range, other ∉ done → state.lookup m other = none
  old : ∀ id, id ≠ w.nextData → state.data id = w.data id
  counted :
    ∃ record,
      state.data w.nextData = some record ∧
        record.refcount = BitVec.ofNat 32 done.length
  wrapped : state.wrapped = w.wrapped

/-- One round over a hole takes one more reference on the new record. -/
theorem HoleLoop.round
    {range done later : List Nat}
    {offset page : Nat}
    {state after : World}
    (holds : HoleLoop w m range done state)
    (distinct : range.Nodup)
    (short : range.length < 2 ^ 32)
    (shape : range = done ++ page :: later)
    (mapped :
      ptMapPage host m w.nextData start offset flags state page =
        some after) :
    HoleLoop w m range (done ++ [page]) after := by
  have notDone := not_done distinct shape
  have isFree := holds.unmapped page (by simp [shape]) notDone
  have lookups := (ptMapPage_spec mapped).2.2
  obtain ⟨_, freed, retained, unmapStep, retain, rfl⟩ :=
    ptMapPage_cases mapped
  have untouched : freed.data = state.data ∧ freed.wrapped = state.wrapped := by
    rcases unmapStep with ⟨_, rfl⟩ | ⟨middle, removed, rfl⟩
    · exact ⟨rfl, rfl⟩
    · obtain ⟨_, ⟨_, rfl⟩ | ⟨entry, found, _⟩⟩ := unmapPage_cases removed
      · exact ⟨rfl, rfl⟩
      · exact absurd (isFree.symm.trans found) nofun
  obtain ⟨record, live, rfl⟩ := World.retain_eq_some.mp retain
  obtain ⟨before, wasLive, count⟩ := holds.counted
  rw [untouched.1] at live
  cases live.symm.trans wasLive
  constructor
  case unmapped =>
    intro other member otherNotDone
    rw [lookups, if_neg]
    · exact holds.unmapped other member fun isDone =>
        otherNotDone (mem_append_left _ isDone)
    · rintro ⟨_, rfl⟩
      exact otherNotDone (mem_append_right _ (by simp))
  case old =>
    intro id isOld
    rw [← holds.old id isOld, ← untouched.1]
    exact update_of_ne isOld _ _
  case counted =>
    refine ⟨_, update_self .., ?_⟩
    rw [length_append, length_singleton, BitVec.ofNat_add, ← count]
    rfl
  case wrapped =>
    have more : record.refcount + 1 ≠ 0 := by
      have length : done.length + 1 ≤ range.length := by
        rw [shape]
        simp
      have asOfNat :
          record.refcount + 1 = BitVec.ofNat 32 (done.length + 1) := by
        rw [BitVec.ofNat_add, ← count]
        rfl
      rw [asOfNat]
      intro isZero
      have asNat := congrArg BitVec.toNat isZero
      rw [BitVec.toNat_ofNat, Nat.mod_eq_of_lt (by omega)] at asNat
      exact absurd asNat (Nat.succ_ne_zero _)
    change (freed.wrapped || record.refcount + 1 == 0) = w.wrapped
    rw [beq_eq_false_iff_ne.mpr more, Bool.or_false, untouched.2,
      holds.wrapped]

/--
Mapping a hole touches no record but the one it makes, and wraps no count if
its length does not wrap.
-/
theorem ptMap_hole
    {offset : Nat}
    (hole : ∀ other ∈ pageRange start pages, w.lookup m other = none)
    (short : pages * pageSize < 2 ^ 32)
    (mapped :
      ptMap host w m start pages reply offset flags =
        some (.ok (), next)) :
    (∀ id, id ≠ w.nextData → next.data id = w.data id) ∧
      next.wrapped = w.wrapped := by
  rcases ptMap_cases mapped with ⟨_, failed, _⟩ | ⟨memory, _, _, loop⟩
  · cases failed
  have length : (pageRange start pages).length < 2 ^ 32 := by
    rw [pageRange, length_range']
    omega
  have started :
      HoleLoop w m (pageRange start pages) []
        (w.newData memory start pages offset) := by
    constructor
    case unmapped => exact fun other member _ => hole other member
    case old => exact fun id isOld => update_of_ne isOld _ _
    case counted => exact ⟨_, update_self .., rfl⟩
    case wrapped =>
      simp only [World.newData, Nat.not_le.mpr short, decide_false,
        Bool.false_and, Bool.or_false]
  have finished : HoleLoop w m (pageRange start pages)
      (pageRange start pages) next :=
    Loop.foldlM_prefix
      (motive := fun done state =>
        HoleLoop w m (pageRange start pages) done state)
      (fun shape holds round =>
        holds.round (pageRange_nodup start pages) length shape round)
      started loop
  exact ⟨finished.old, finished.wrapped⟩

theorem page_add_of_inPage
    {addr index : Nat}
    (inPage : pgOffset addr + index < pageSize) :
    page (addr + index) = page addr ∧
      pgOffset (addr + index) = pgOffset addr + index := by
  simp only [page, pgOffset, pageSize] at *
  omega

section

variable (kept : WellKept w)
include kept

/--
Mapping a hole with fresh memory keeps the books, and changes no page outside
the hole.
-/
theorem WellKept.ptMapNothing
    (inMm : m < w.mmCount)
    (short : pages * pageSize < 2 ^ 32)
    (fresh : reply.Fresh w (pages * pageSize % 2 ^ 32))
    (hole : ∀ other ∈ pageRange start pages, w.lookup m other = none)
    (mapped :
      ptMapNothing host w m start pages reply flags =
        some (.ok (), next)) :
    WellKept next ∧
      ∀ other, other ∉ pageRange start pages → SamePage w next m other := by
  have accountedNext := kept.accounted.ptMapNothing inMm mapped
  rcases ptMapNothing_cases mapped with
    ⟨_, rfl⟩ | ⟨filled, isFilled, call⟩
  · exact ⟨kept, fun other _ => .refl _ m other⟩
  have sameData :
      filled.data = w.data ∧ filled.nextData = w.nextData ∧
        filled.lookup = w.lookup ∧ filled.wrapped = w.wrapped := by
    rcases isFilled with rfl | ⟨_, _, rfl⟩ <;> exact ⟨rfl, rfl, rfl, rfl⟩
  obtain ⟨data, nextData, lookup, wrapped⟩ := sameData
  have frame := (ptMap_spec call).1
  obtain ⟨old, sameWrapped⟩ :=
    ptMap_hole (fun other member => lookup ▸ hole other member) short call
  rw [nextData, data] at old
  have layoutNext : HostLayout next := by
    have freshFilled :
        reply.Fresh filled (pages * pageSize % 2 ^ 32 + 0) := by
      intro memory replied
      obtain ⟨bounded, apart⟩ := fresh replied
      exact ⟨bounded, fun live => apart (data ▸ live)⟩
    have accountedFilled : Accounted filled := by
      rcases isFilled with rfl | ⟨_, _, rfl⟩
      · exact kept.accounted
      · exact kept.accounted.fillBytes _ _ _
    exact (kept.layout.congr data lookup).ofPtMap accountedFilled accountedNext
      freshFilled call
  refine ⟨⟨accountedNext, (sameWrapped.trans wrapped).trans kept.notWrapped,
    layoutNext⟩, ?_⟩
  intro other outside
  have lookups : next.lookup m other = w.lookup m other := by
    rcases (ptMap_spec call).2 with ⟨_, failed, _⟩ | ⟨_, lookups⟩
    · cases failed
    · rw [lookups, if_neg (fun both => outside both.2), lookup]
  refine kept.samePage ?_ ?_ lookups
  · intro id record address live after before
    rw [frame.bytes]
    rcases isFilled with rfl | ⟨memory, replied, rfl⟩
    · rfl
    · exact keepsLiveBytes_fillBytes (fresh replied) _ live after before
  · intro entry record found live
    refine ⟨record, ?_, .refl _⟩
    rw [old _ (Nat.ne_of_lt (kept.accounted.allocated found))]
    exact live

/-- `pt_unmap_always` keeps the books, and changes no page it does not unmap. -/
theorem WellKept.ptUnmapAlways
    (unmapped : ptUnmapAlways host w m start pages = some next) :
    WellKept next ∧
      ∀ other, other ∉ pageRange start pages → SamePage w next m other := by
  obtain ⟨frame, sameNext, _, lookups⟩ := ptUnmapAlways_spec unmapped
  have accountedNext := kept.accounted.ptUnmapAlways unmapped
  have wrapped : next.wrapped = false :=
    (wrapped_ptUnmapAlways unmapped).trans kept.notWrapped
  have layoutNext : HostLayout next := by
    refine kept.layout.shrink
      (fun live => frame.toRecords.sameMemory accountedNext sameNext live) ?_
    intro other page entry found
    rw [lookups] at found
    split at found
    · cases found
    · exact ⟨other, entry, found, rfl, rfl⟩
  refine ⟨⟨accountedNext, wrapped, layoutNext⟩, ?_⟩
  intro other outside
  have same : next.lookup m other = w.lookup m other := by
    rw [lookups, if_neg (fun both => outside both.2)]
  refine kept.samePage (fun _ _ _ _ _ _ => by rw [frame.bytes]) ?_ same
  intro entry record found live
  obtain ⟨after, isLive, _⟩ :=
    (accountedNext.sound wrapped).backed (same.trans found)
  obtain ⟨before, wasLive, sameMemory⟩ :=
    frame.toRecords.sameMemory accountedNext sameNext isLive
  cases live.symm.trans wasLive
  exact ⟨after, isLive, sameMemory⟩

/-- Two addresses of one guest are two host bytes. -/
theorem WellKept.address_injective
    {otherEntry : PtEntry}
    {record otherRecord : Data}
    (found : w.lookup m (page addr) = some entry)
    (live : w.data entry.data = some record)
    (otherFound : w.lookup m (page other) = some otherEntry)
    (otherLive : w.data otherEntry.data = some otherRecord)
    (same :
      record.data + entry.offset + pgOffset addr =
        otherRecord.data + otherEntry.offset + pgOffset other) :
    addr = other := by
  have inside := (kept.readByte_eq found live).1
  have otherInside := (kept.readByte_eq otherFound otherLive).1
  by_cases sameData : otherEntry.data = entry.data
  · rw [sameData] at otherLive
    cases live.symm.trans otherLive
    have shifted := kept.layout.shifted found otherFound sameData
    simp only [page, pgOffset, pageSize] at same shifted
    omega
  · have apart := kept.layout.apart sameData live otherLive
    omega

/-- What a pointer handed out by `mem_ptr_nofault` points to. -/
theorem WellKept.memPtrNofault_eq
    {address : Nat}
    {type : Access}
    (pointer : memPtrNofault w m addr type = some address) :
    ∃ entry record,
      w.lookup m (page addr) = some entry ∧
        w.data entry.data = some record ∧
        (type = .write → pWritable entry.flags = true) ∧
        address = record.data + entry.offset + pgOffset addr := by
  obtain ⟨entry, found, rest⟩ := Option.bind_eq_some_iff.mp pointer
  split at rest
  · cases rest
  · rename_i allowed
    obtain ⟨record, live, finish⟩ := Option.bind_eq_some_iff.mp rest
    have inside := (kept.readByte_eq found live).1
    have bound := kept.layout.bounded live
    refine ⟨entry, record, found, live, ?_, ?_⟩
    · intro isWrite
      by_contra notWritable
      exact allowed ⟨isWrite, Bool.not_eq_true _ ▸ notWritable⟩
    · rw [← Option.some.inj finish, Nat.mod_eq_of_lt (by omega)]

theorem WellKept.fillBytes
    (memory length : Nat)
    (content : Nat → UInt8) :
    WellKept (w.fillBytes memory length content) where
  accounted := kept.accounted.fillBytes _ _ _
  notWrapped := kept.notWrapped
  layout := kept.layout.congr rfl rfl

theorem WellKept.writeByte
    (address : Nat)
    (value : UInt8) :
    WellKept (w.writeByte address value) :=
  kept.fillBytes address 1 fun _ => value

/-- Bytes written behind a pointer, up to the end of the page, are read back. -/
theorem WellKept.readByte_fillBytes
    {address length : Nat}
    {type : Access}
    (pointer : memPtrNofault w m addr type = some address)
    (inPage : pgOffset addr + length ≤ pageSize)
    (content : Nat → UInt8)
    (other : Nat) :
    readByte (w.fillBytes address length content) m other =
      if addr ≤ other ∧ other < addr + length then
        some (content (other - addr))
      else
        readByte w m other := by
  obtain ⟨entry, record, found, live, _, shape⟩ :=
    kept.memPtrNofault_eq pointer
  have keptNext := kept.fillBytes address length content
  split
  · rename_i inChunk
    obtain ⟨samePage, offset⟩ :=
      page_add_of_inPage
        (show pgOffset addr + (other - addr) < pageSize by omega)
    rw [Nat.add_sub_of_le inChunk.1] at samePage offset
    rw [(keptNext.readByte_eq (samePage ▸ found) live).2, shape, offset,
      ← Nat.add_assoc]
    refine congrArg some ((if_pos ⟨Nat.le_add_right _ _, by omega⟩).trans ?_)
    rw [Nat.add_sub_cancel_left]
  · rename_i outside
    cases otherFound : w.lookup m (page other) with
    | none =>
      rw [readByte_unmapped otherFound]
      exact readByte_unmapped otherFound
    | some otherEntry =>
      obtain ⟨otherRecord, otherLive, _⟩ := kept.backed otherFound
      rw [(kept.readByte_eq otherFound otherLive).2,
        (keptNext.readByte_eq otherFound otherLive).2]
      refine congrArg some (World.bytes_fillBytes_of_outside w _ ?_)
      by_contra inside
      -- the byte is the one behind some address of the chunk
      obtain ⟨index, isIndex⟩ :
          ∃ index,
            otherRecord.data + otherEntry.offset + pgOffset other =
              address + index :=
        ⟨_, (Nat.add_sub_of_le (by omega)).symm⟩
      obtain ⟨samePage, sameOffset⟩ :=
        page_add_of_inPage (show pgOffset addr + index < pageSize by omega)
      have same : other = addr + index :=
        kept.address_injective otherFound otherLive (samePage ▸ found) live
          (by rw [isIndex, shape, sameOffset, Nat.add_assoc])
      omega

/-- A byte that is stored is read back, and no other byte changes. -/
theorem WellKept.readByte_writeByte
    {address : Nat}
    {type : Access}
    (pointer : memPtrNofault w m addr type = some address)
    (value : UInt8)
    (other : Nat) :
    readByte (w.writeByte address value) m other =
      if other = addr then some value else readByte w m other := by
  have inPage : pgOffset addr < pageSize := Nat.mod_lt _ (by decide)
  refine (kept.readByte_fillBytes pointer inPage (fun _ => value) other).trans
    (if_congr ?_ rfl rfl)
  omega

end

theorem wellKept_of_reachable
    (reachable : (memoryMachine host).Reachable w)
    (notWrapped : w.wrapped = false) :
    WellKept w := by
  exact ⟨.memoryReachable reachable, notWrapped, .reachable reachable⟩

/-- The address space with one private page is well kept, and ends there. -/
theorem exists_onePage_wellKept :
    ∃ w record,
      OnePage w record ∧ WellKept w ∧ w.lookup 0 0x50001 = none := by
  obtain ⟨result, w, record, call, one⟩ := exists_onePage
  have steps := onePage_steps call
  have reachable : (memoryMachine plainHost).Reachable w :=
    .step (.step (.initial rfl) steps.1) steps.2
  have isLast :
      (mmapCommon plainHost (mmNew World.empty) 0 hintedArgs
          (grantMemory 8192) noFile).map
        (fun outcome => outcome.2.lookup 0 0x50001) = some none := by
    rfl
  rw [call] at isLast
  exact ⟨w, record, one, wellKept_of_reachable reachable one.notWrapped,
    Option.some.inj isLast⟩

/--
After a fork, parent and child get the same host memory for every address and
access, and every process, the parent included, reads what it read before.
-/
theorem fork_copies_view
    {m : MmId}
    {addr : Nat}
    (reachable : (memoryMachine host).Reachable w)
    (inMm : m < w.mmCount)
    (inside : addr < 2 ^ 32)
    (forked : mmCopy host w m = some next)
    (notWrapped : next.wrapped = false) :
    (∀ type,
      memPtrNofault next w.mmCount addr type =
        memPtrNofault next m addr type) ∧
      ∀ other,
        other < w.mmCount →
        readByte next other addr = readByte w other addr := by
  have accounted := Accounted.memoryReachable reachable
  have taken : (memoryMachine host).step w (.fork m) next :=
    ⟨fun _ => inMm, trivial, forked⟩
  have accountedNext := accounted.memoryStep taken
  obtain ⟨frame, _, lookups⟩ := ptCopyOnWrite_spec forked
  have inRange : page addr ∈ pageRange 0 memPages :=
    (mem_pageRange_of_lt (by decide)).mpr ⟨Nat.zero_le _, page_lt inside⟩
  have old :
      ∀ other, other ≠ w.mmCount →
        (w.addMm (w.mm m).startBrk (w.mm m).brk).lookup other (page addr) =
          w.lookup other (page addr) := by
    intro other isOther
    simp [World.lookup, World.mem, World.addMm, isOther]
  have new :
      (w.addMm (w.mm m).startBrk (w.mm m).brk).lookup w.mmCount (page addr) =
        none := by
    simp [World.lookup, World.mem, World.addMm]
  have isSrc := old m (Nat.ne_of_lt inMm)
  refine ⟨fun type => ?_, fun other isOld => ?_⟩
  · have same :
        next.lookup w.mmCount (page addr) = next.lookup m (page addr) := by
      rw [lookups, lookups, new, isSrc]
      cases w.lookup m (page addr) <;> simp [inRange]
    simp only [memPtrNofault, same]
  · have isCopy :
        next.lookup other (page addr) = w.lookup other (page addr) ∨
          next.lookup other (page addr) =
            (w.lookup other (page addr)).map fun entry =>
              { entry with flags := cowFlags entry.flags } := by
      rw [lookups, old other (Nat.ne_of_lt isOld), isSrc]
      split
      case isFalse => exact .inl rfl
      case isTrue both =>
        rcases both.2 with rfl | ⟨isNew, _⟩
        · exact .inr rfl
        · exact absurd isNew (Nat.ne_of_lt isOld)
    cases found : w.lookup other (page addr) with
    | none =>
      rw [found] at isCopy
      simp [readByte, memPtrNofault, found, isCopy.elim id id]
    | some entry =>
      obtain ⟨flags, isThere⟩ :
          ∃ flags,
            next.lookup other (page addr) =
              some { entry with flags := flags } := by
        rw [found] at isCopy
        exact isCopy.elim (⟨entry.flags, ·⟩) (⟨_, ·⟩)
      obtain ⟨record, live, _⟩ :=
        (accounted.sound (frame.unwrapped notWrapped)).backed found
      obtain ⟨after, isLive, _⟩ :=
        (accountedNext.sound notWrapped).backed isThere
      obtain ⟨before, wasLive, same⟩ :=
        frame.kept (accounted.numbered live) isLive
      cases live.symm.trans wasLive
      rw [readByte_eq isThere isLive, readByte_eq found live, frame.bytes, same]
      rfl

/-- The child of a process with one page reads its first byte. -/
theorem child_reads_first_byte :
    ∃ w next,
      (memoryMachine plainHost).Reachable w ∧
        mmCopy plainHost w 0 = some next ∧
          readByte next 1 0x50000000 = some 0 := by
  obtain ⟨result, w, record, call, one⟩ := exists_onePage
  have steps := onePage_steps call
  have reachable : (memoryMachine plainHost).Reachable w :=
    .step (.step (.initial rfl) steps.1) steps.2
  have forks :
      ((mmapCommon plainHost (mmNew World.empty) 0 hintedArgs
          (grantMemory 8192) noFile).bind fun outcome =>
        (mmCopy plainHost outcome.2 0).map World.wrapped) = some false := by
    decide +kernel
  rw [call, Option.bind_some] at forks
  obtain ⟨next, forked, notWrapped⟩ := Option.map_eq_some_iff.mp forks
  obtain ⟨sameAnswer, sameByte⟩ :=
    @fork_copies_view plainHost w next 0 0x50000000 reachable
      one.inMm (by decide) forked notWrapped
  refine ⟨w, next, reachable, forked, ?_⟩
  have isChild : readByte next 1 0x50000000 = readByte next 0 0x50000000 := by
    unfold readByte
    rw [← sameAnswer .read, one.mmCount]
  rw [isChild, sameByte 0 one.inMm,
    readByte_eq one.found one.live, one.memory]
  exact congrArg some one.zero

end GuestKernel
