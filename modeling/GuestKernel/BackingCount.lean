import GuestKernel.AddressSpaceFrames
import GuestKernel.Holders

namespace GuestKernel
open List Option Function

/-!
# Reference counts of backing data

`struct data` is shared by every page table entry that points to it, in all
address spaces, and is freed when its counter reaches zero.  `Accounted` says
what the counter means; every page-table operation preserves it.

The counter and the byte size of a mapping are 32-bit values.  What holds
unconditionally is stated modulo `2 ^ 32`; `Sound` is the part that needs that
no count has wrapped.
-/

namespace World

/-- All page slots of all address spaces. -/
def slots (w : World) : Finset (MmId × Nat) :=
  Finset.range w.mmCount ×ˢ Finset.range memPages

/-- The data a slot points to. -/
def pointsTo (w : World) (slot : MmId × Nat) : Option DataId :=
  (w.lookup slot.1 slot.2).map PtEntry.data

/-- How many page table entries point to a data record. -/
def refs (w : World) (id : DataId) : Nat :=
  holders w.pointsTo w.slots id

/-- The data freed so far, in order. -/
def freed (w : World) : List DataId :=
  w.released.map Release.id

variable {w : World} {m : MmId} {page : Nat}

theorem mem_slots :
    (m, page) ∈ w.slots ↔ m < w.mmCount ∧ page < memPages := by
  simp only [slots, Finset.mem_product, Finset.mem_range]

theorem refs_congr
    {next : World}
    (lookup : next.lookup = w.lookup)
    (mmCount : next.mmCount = w.mmCount)
    (id : DataId) :
    next.refs id = w.refs id := by
  have samePoints : next.pointsTo = w.pointsTo := by
    funext slot
    simp only [pointsTo, lookup]
  simp only [refs, samePoints, slots, mmCount]

/-- Writing an entry trades the old reference of the slot for a new one. -/
theorem refs_fillEntry
    (inSlots : (m, page) ∈ w.slots)
    (entry : PtEntry)
    (id : DataId) :
    (w.fillEntry m page entry).refs id +
        (if w.pointsTo (m, page) = some id then 1 else 0) =
      w.refs id + (if entry.data = id then 1 else 0) := by
  have pointUpdate :
      (w.fillEntry m page entry).pointsTo =
        update w.pointsTo (m, page) (some entry.data) := by
    funext ⟨other, otherPage⟩
    by_cases same : other = m ∧ otherPage = page
    · obtain ⟨rfl, rfl⟩ := same
      simp [pointsTo, lookup_fillEntry]
    · rw [update_of_ne (by simpa using same)]
      simp [pointsTo, lookup_fillEntry, same]
  have balance :=
    holders_update_balance w.pointsTo inSlots (some entry.data) id
  have sameSlots : (w.fillEntry m page entry).slots = w.slots := rfl
  simpa only [refs, pointUpdate, sameSlots, some.injEq]
    using balance

/-- Deleting an entry gives up the reference of the slot. -/
theorem refs_clearEntry
    (inSlots : (m, page) ∈ w.slots)
    (id : DataId) :
    (w.clearEntry m page).refs id +
        (if w.pointsTo (m, page) = some id then 1 else 0) =
      w.refs id := by
  have pointUpdate :
      (w.clearEntry m page).pointsTo =
        update w.pointsTo (m, page) none := by
    funext ⟨other, otherPage⟩
    by_cases same : other = m ∧ otherPage = page
    · obtain ⟨rfl, rfl⟩ := same
      simp [pointsTo, lookup_clearEntry]
    · rw [update_of_ne (by simpa using same)]
      simp [pointsTo, lookup_clearEntry, same]
  have balance := holders_update_balance w.pointsTo inSlots none id
  have sameSlots : (w.clearEntry m page).slots = w.slots := rfl
  simpa only [refs, pointUpdate, sameSlots, reduceCtorEq, if_false,
    Nat.add_zero] using balance

theorem refs_pos
    {entry : PtEntry}
    (inSlots : (m, page) ∈ w.slots)
    (found : w.lookup m page = some entry) :
    0 < w.refs entry.data :=
  holders_pos inSlots (by simp [pointsTo, found])

end World

/-- What the counts guarantee as long as none of them has wrapped. -/
structure Sound (w : World) : Prop where
  bounded :
    ∀ {id record}, w.data id = some record → w.refs id < 2 ^ 32
  backed :
    ∀ {m page entry},
      w.lookup m page = some entry →
      ∃ record,
        w.data entry.data = some record ∧
          entry.offset + pageSize ≤ record.size
  freedIff :
    ∀ {id}, id ∈ w.freed ↔ w.held id = true ∧ w.refs id = 0
  freedDead : ∀ {id}, id ∈ w.freed → w.data id = none
  freedOnce : w.freed.Nodup

/--
The bookkeeping invariant: records are numbered below `nextData`, entries lie
in slots of existing address spaces, and a live counter is the number of
entries modulo `2 ^ 32`.
-/
structure Accounted (w : World) : Prop where
  numbered : ∀ {id record}, w.data id = some record → id < w.nextData
  allocated :
    ∀ {m page entry},
      w.lookup m page = some entry → entry.data < w.nextData
  heldAllocated : ∀ {id}, w.held id = true → id < w.nextData
  entryHeld :
    ∀ {m page entry},
      w.lookup m page = some entry → w.held entry.data = true
  tally :
    ∀ {id record},
      w.data id = some record →
      record.refcount = BitVec.ofNat 32 (w.refs id)
  inSlots :
    ∀ {m page entry},
      w.lookup m page = some entry → (m, page) ∈ w.slots
  sound : w.wrapped = false → Sound w

namespace Accounted

variable {w next : World} {m : MmId} {host : Host}
  {page start pages offset : Nat} {flags : Flags} {result : Except Errno Unit}
  {hostMprotect : Nat → Except Errno Unit}

theorem refs_unallocated
    (accounted : Accounted w)
    {id : DataId}
    (unallocated : w.nextData ≤ id) :
    w.refs id = 0 := by
  refine holders_eq_zero_iff.mpr ?_
  rintro ⟨m, page⟩ _ held
  obtain ⟨entry, found, rfl⟩ := map_eq_some_iff.mp held
  exact absurd (accounted.allocated found) (Nat.not_lt.mpr unallocated)

private theorem pointsTo_none
    (absent : w.lookup m page = none) :
    w.pointsTo (m, page) = none := by
  simp [World.pointsTo, absent]

private theorem samePair
    {α β γ : Type}
    {first : α → β}
    {second : α → γ}
    {before after : Option α}
    {value : α}
    (same :
      after.map (fun item => (first item, second item)) =
        before.map fun item => (first item, second item))
    (isValue : before = some value) :
    ∃ item,
      after = some item ∧
        first item = first value ∧ second item = second value := by
  rw [isValue, map_some] at same
  obtain ⟨item, isItem, pair⟩ := map_eq_some_iff.mp same
  exact ⟨item, isItem, Prod.mk.inj pair⟩

section

variable (accounted : Accounted w)
include accounted

/-- A step that moves no reference and keeps every count and every size. -/
theorem still
    (places :
      ∀ m page,
        (next.lookup m page).map (fun entry => (entry.data, entry.offset)) =
          (w.lookup m page).map fun entry => (entry.data, entry.offset))
    (counts :
      ∀ id,
        (next.data id).map (fun record => (record.refcount, record.size)) =
          (w.data id).map fun record => (record.refcount, record.size))
    (mmCount : w.mmCount ≤ next.mmCount)
    (nextData : next.nextData = w.nextData)
    (held : next.held = w.held)
    (released : next.released = w.released)
    (wrapped : next.wrapped = w.wrapped) :
    Accounted next := by
  have moreSlots : w.slots ⊆ next.slots := by
    rintro ⟨m, page⟩ member
    obtain ⟨inMm, inside⟩ := World.mem_slots.mp member
    exact World.mem_slots.mpr ⟨Nat.lt_of_lt_of_le inMm mmCount, inside⟩
  have samePoints : next.pointsTo = w.pointsTo := by
    funext ⟨m, page⟩
    simpa [World.pointsTo, comp_def] using
      congrArg (Option.map Prod.fst) (places m page)
  have sameRefs : ∀ id, next.refs id = w.refs id := by
    intro id
    simp only [World.refs, samePoints]
    refine holders_of_subset moreSlots ?_ id
    rintro ⟨m, page⟩ _ outside
    cases found : w.lookup m page with
    | none =>
      simp [World.pointsTo, found]
    | some entry =>
      exact absurd (accounted.inSlots found) outside
  have sameFreed : next.freed = w.freed := by
    simp only [World.freed, released]
  refine {
    numbered := fun isLive => ?_
    allocated := fun found => ?_
    heldAllocated := fun isHeld => ?_
    entryHeld := fun found => ?_
    tally := fun isLive => ?_
    inSlots := fun found => ?_
    sound := fun notWrapped => ?_ }
  · obtain ⟨before, old, _⟩ := samePair (counts _).symm isLive
    rw [nextData]
    exact accounted.numbered old
  · obtain ⟨before, old, sameData, _⟩ := samePair (places _ _).symm found
    rw [nextData, ← sameData]
    exact accounted.allocated old
  · rw [nextData]
    exact accounted.heldAllocated (held ▸ isHeld)
  · obtain ⟨before, old, sameData, _⟩ := samePair (places _ _).symm found
    rw [held, ← sameData]
    exact accounted.entryHeld old
  · obtain ⟨before, old, sameCount, _⟩ := samePair (counts _).symm isLive
    rw [sameRefs, ← sameCount]
    exact accounted.tally old
  · obtain ⟨before, old, _⟩ := samePair (places _ _).symm found
    exact moreSlots (accounted.inSlots old)
  · have sound := accounted.sound (wrapped ▸ notWrapped)
    exact {
      bounded := fun isLive => by
        obtain ⟨before, old, _⟩ := samePair (counts _).symm isLive
        rw [sameRefs]
        exact sound.bounded old
      backed := fun found => by
        obtain ⟨entry, old, sameData, sameOffset⟩ :=
          samePair (places _ _).symm found
        obtain ⟨before, wasLive, inside⟩ := sound.backed old
        obtain ⟨after, isLive, _, sameSize⟩ :=
          samePair (counts _) wasLive
        rw [← sameData, ← sameOffset]
        exact ⟨after, isLive, sameSize ▸ inside⟩
      freedIff := fun {id} => by
        rw [sameFreed, held, sameRefs]
        exact sound.freedIff
      freedDead := fun {id} inFreed => by
        have isDead := sound.freedDead (sameFreed ▸ inFreed)
        simpa [isDead] using counts id
      freedOnce := sameFreed ▸ sound.freedOnce }

/-- The invariant does not look at host bytes, brks or change counters. -/
theorem congr
    (lookup : next.lookup = w.lookup)
    (mmCount : next.mmCount = w.mmCount)
    (data : next.data = w.data)
    (nextData : next.nextData = w.nextData)
    (held : next.held = w.held)
    (released : next.released = w.released)
    (wrapped : next.wrapped = w.wrapped) :
    Accounted next :=
  accounted.still (fun _ _ => by rw [lookup]) (fun _ => by rw [data])
    (Nat.le_of_eq mmCount.symm) nextData held released wrapped

theorem memChanged
    (m : MmId) :
    Accounted (w.memChanged m) :=
  accounted.congr (World.lookup_memChanged w m) rfl rfl rfl rfl rfl rfl

theorem fillBytes
    (memory length : Nat)
    (content : Nat → UInt8) :
    Accounted (w.fillBytes memory length content) :=
  accounted.congr rfl rfl rfl rfl rfl rfl rfl

/-- Rewriting the flags of an entry moves no reference. -/
theorem reflag
    {entry : PtEntry}
    (found : w.lookup m page = some entry)
    (flags : Flags) :
    Accounted (w.fillEntry m page { entry with flags := flags }) := by
  refine accounted.still ?_ (fun _ => rfl) (Nat.le_refl _) rfl rfl rfl rfl
  intro other otherPage
  rw [World.lookup_fillEntry]
  split
  case isTrue same =>
    rw [same.1, same.2, found]
    rfl
  case isFalse => rfl

/-- Attaching a file to a record moves no reference. -/
theorem attachFile
    {fd : FdId}
    (attached : w.attachFile m page fd offset = some next) :
    Accounted next := by
  obtain ⟨entry, record, found, live, rfl⟩ :=
    World.attachFile_eq_some.mp attached
  refine accounted.still (fun _ _ => rfl) ?_ (Nat.le_refl _) rfl rfl rfl rfl
  intro id
  by_cases same : id = entry.data
  · subst id
    simp [live]
  · simp [update_of_ne same]

/-- A new record has no reference yet. -/
theorem newData
    (memory : Nat)
    (start pages offset : Nat) :
    Accounted (w.newData memory start pages offset) := by
  have sameRefs :
      ∀ id,
        (w.newData memory start pages offset).refs id =
          w.refs id :=
    World.refs_congr rfl rfl
  have fresh := accounted.refs_unallocated (Nat.le_refl w.nextData)
  have oldData :
      ∀ {id},
        id < w.nextData →
        (w.newData memory start pages offset).data id =
          w.data id :=
    fun isOld => update_of_ne (Nat.ne_of_lt isOld) _ _
  refine {
    numbered := ?_
    allocated := fun found =>
      Nat.lt_succ_of_lt (accounted.allocated found)
    heldAllocated := fun held =>
      Nat.lt_succ_of_lt (accounted.heldAllocated held)
    entryHeld := accounted.entryHeld
    tally := ?_
    inSlots := accounted.inSlots
    sound := fun notWrapped => ?_ }
  · intro id record live
    by_cases isNew : id = w.nextData
    · exact isNew ▸ Nat.lt_succ_self _
    · simp only [World.newData, update_of_ne isNew] at live
      exact Nat.lt_succ_of_lt (accounted.numbered live)
  · intro id record live
    rw [sameRefs]
    by_cases isNew : id = w.nextData
    · subst id
      simp only [World.newData, update_self,
        some.injEq] at live
      rw [fresh, ← live]
      rfl
    · simp only [World.newData, update_of_ne isNew] at live
      exact accounted.tally live
  · have wasSound :=
      accounted.sound (Bool.or_eq_false_iff.mp notWrapped).1
    exact {
      bounded := by
        intro id record live
        rw [sameRefs]
        by_cases isNew : id = w.nextData
        · rw [isNew, fresh]
          exact Nat.two_pow_pos 32
        · simp only [World.newData, update_of_ne isNew] at live
          exact wasSound.bounded live
      backed := by
        intro m page entry found
        rw [oldData (accounted.allocated found)]
        exact wasSound.backed found
      freedIff := by
        intro id
        rw [sameRefs]
        exact wasSound.freedIff
      freedDead := by
        intro id inFreed
        have held := (wasSound.freedIff.mp inFreed).1
        rw [oldData (accounted.heldAllocated held)]
        exact wasSound.freedDead inFreed
      freedOnce := wasSound.freedOnce }

/-- Taking a reference for an unmapped slot and writing the entry. -/
theorem take
    {retained : World}
    (absent : w.lookup m page = none)
    (inSlots : (m, page) ∈ w.slots)
    {entry : PtEntry}
    (retain : w.retain entry.data = some retained)
    (fits :
      w.wrapped = false →
      ∀ {record},
        w.data entry.data = some record →
        entry.offset + pageSize ≤ record.size) :
    Accounted (retained.fillEntry m page entry) := by
  obtain ⟨record, live, rfl⟩ := World.retain_eq_some.mp retain
  set retained : World := { w with
    data :=
      update w.data entry.data
        (some { record with refcount := record.refcount + 1 })
    held := update w.held entry.data true
    wrapped := w.wrapped || record.refcount + 1 == 0 } with shape
  have refsNow :
      ∀ id,
        (retained.fillEntry m page entry).refs id =
          w.refs id + (if entry.data = id then 1 else 0) := by
    intro id
    have balance :=
      World.refs_fillEntry (w := retained) inSlots entry id
    have samePoint :
        retained.pointsTo (m, page) = w.pointsTo (m, page) := rfl
    rw [samePoint, pointsTo_none absent] at balance
    simpa using balance.trans
      (congrArg (· + _) (World.refs_congr (w := w) rfl rfl id))
  have lookups :
      ∀ {other otherPage after},
        (retained.fillEntry m page entry).lookup other otherPage =
            some after →
          (other = m ∧ otherPage = page ∧ after = entry) ∨
            w.lookup other otherPage = some after := by
    intro other otherPage after found
    rw [World.lookup_fillEntry] at found
    split at found
    · rename_i same
      exact .inl ⟨same.1, same.2, (some.inj found).symm⟩
    · exact .inr found
  have entryAllocated := accounted.numbered live
  have records :
      ∀ {id after},
        retained.data id = some after →
        (id = entry.data ∧
          after = { record with refcount := record.refcount + 1 }) ∨
        (id ≠ entry.data ∧ w.data id = some after) := by
    intro id after found
    by_cases same : id = entry.data
    · subst id
      rw [shape] at found
      simp only [update_self, some.injEq] at found
      exact .inl ⟨rfl, found.symm⟩
    · rw [shape] at found
      simp only [update_of_ne same] at found
      exact .inr ⟨same, found⟩
  refine {
    numbered := fun found => ?_
    allocated := fun found => ?_
    heldAllocated := fun held => ?_
    entryHeld := fun found => ?_
    tally := fun found => ?_
    inSlots := fun found => ?_
    sound := fun notWrapped => ?_ }
  · rcases records found with ⟨rfl, _⟩ | ⟨_, old⟩
    · exact entryAllocated
    · exact accounted.numbered old
  · rcases lookups found with ⟨_, _, rfl⟩ | old
    · exact entryAllocated
    · exact accounted.allocated old
  · rename_i id
    by_cases same : id = entry.data
    · exact same ▸ entryAllocated
    · refine accounted.heldAllocated ?_
      rw [← update_of_ne same true w.held]
      exact held
  · rename_i other otherPage after
    show update w.held entry.data true after.data = true
    by_cases same : after.data = entry.data
    · rw [same, update_self]
    · rw [update_of_ne same]
      rcases lookups found with ⟨_, _, rfl⟩ | old
      · exact absurd rfl same
      · exact accounted.entryHeld old
  · rw [refsNow]
    rcases records found with ⟨rfl, rfl⟩ | ⟨different, old⟩
    · simp only [if_true, BitVec.ofNat_add, accounted.tally live]
      rfl
    · rw [if_neg (Ne.symm different), Nat.add_zero]
      exact accounted.tally old
  · rcases lookups found with ⟨rfl, rfl, rfl⟩ | old
    · exact inSlots
    · exact accounted.inSlots old
  · obtain ⟨wasUnwrapped, noWrap⟩ := Bool.or_eq_false_iff.mp notWrapped
    have wasSound := accounted.sound wasUnwrapped
    have countBelow : w.refs entry.data + 1 < 2 ^ 32 := by
      have below := wasSound.bounded live
      rcases Nat.lt_or_ge (w.refs entry.data + 1) (2 ^ 32) with
          fine | atLimit
      · exact fine
      · have exactly : w.refs entry.data + 1 = 2 ^ 32 := by omega
        have wrapsToZero : record.refcount + 1 = 0 := by
          rw [accounted.tally live]
          have sum :
              BitVec.ofNat 32 (w.refs entry.data) + 1 =
                BitVec.ofNat 32 (w.refs entry.data + 1) :=
            (BitVec.ofNat_add ..).symm
          rw [sum, exactly]
          rfl
        rw [wrapsToZero] at noWrap
        cases noWrap
    exact {
      bounded := by
        intro id after found
        rw [refsNow]
        rcases records found with ⟨rfl, _⟩ | ⟨different, old⟩
        · simpa using countBelow
        · rw [if_neg (Ne.symm different), Nat.add_zero]
          exact wasSound.bounded old
      backed := by
        intro other otherPage after found
        have inOld :
            ∃ before,
              w.data after.data = some before ∧
                after.offset + pageSize ≤ before.size := by
          rcases lookups found with ⟨_, _, rfl⟩ | old
          · exact ⟨record, live, fits wasUnwrapped live⟩
          · exact wasSound.backed old
        obtain ⟨before, isLive, inside⟩ := inOld
        by_cases same : after.data = entry.data
        · rw [same, live] at isLive
          cases isLive
          exact ⟨{ record with refcount := record.refcount + 1 },
            by
              show update w.data entry.data _ after.data = _
              rw [same, update_self],
            inside⟩
        · exact ⟨before,
            (update_of_ne same _ _).trans isLive, inside⟩
      freedIff := by
        intro id
        rw [refsNow]
        by_cases same : id = entry.data
        · subst id
          have notFreed : entry.data ∉ w.freed := by
            intro inFreed
            rw [wasSound.freedDead inFreed] at live
            cases live
          show entry.data ∈ w.freed ↔ _
          simpa using notFreed
        · have heldSame :
              (retained.fillEntry m page entry).held id = w.held id :=
            update_of_ne same _ _
          rw [heldSame, if_neg (Ne.symm same), Nat.add_zero]
          exact wasSound.freedIff
      freedDead := by
        intro id inFreed
        have isDead := wasSound.freedDead inFreed
        have different : id ≠ entry.data := by
          rintro rfl
          rw [isDead] at live
          cases live
        exact (update_of_ne different _ _).trans isDead
      freedOnce := wasSound.freedOnce }

end

private theorem ofNat_eq_zero_iff
    {count : Nat}
    (below : count < 2 ^ 32) :
    BitVec.ofNat 32 count = 0 ↔ count = 0 := by
  constructor
  · intro isZero
    have asNat := congrArg BitVec.toNat isZero
    rwa [BitVec.toNat_ofNat, Nat.mod_eq_of_lt below] at asNat
  · rintro rfl
    rfl

/-- Removing one entry and giving its reference back. -/
theorem unmapPage
    (accounted : Accounted w)
    (unmapped : unmapPage host m w page = some next) :
    Accounted next := by
  obtain ⟨_, ⟨_, rfl⟩ | ⟨entry, found, dropped⟩⟩ :=
    unmapPage_cases unmapped
  · exact accounted
  have inSlots := accounted.inSlots found
  have entryHeld := accounted.entryHeld found
  have positive := World.refs_pos inSlots found
  obtain ⟨record, live, outcome⟩ := World.dropRef_cases dropped
  have liveBefore : w.data entry.data = some record := live
  have refsCleared :
      ∀ id,
        (w.clearEntry m page).refs id +
            (if entry.data = id then 1 else 0) =
          w.refs id := by
    intro id
    have balance := World.refs_clearEntry inSlots id
    simpa only [World.pointsTo, found, map_some,
      some.injEq] using balance
  have refsNow :
      ∀ id, next.refs id + (if entry.data = id then 1 else 0) =
        w.refs id := by
    intro id
    rw [World.refs_congr (w := w.clearEntry m page)
      (lookup_dropRef dropped) (Frame.dropRef dropped).mmCount]
    exact refsCleared id
  have fewer : next.refs entry.data + 1 = w.refs entry.data := by
    simpa using refsNow entry.data
  have sameElsewhere :
      ∀ {id}, id ≠ entry.data → next.refs id = w.refs id := by
    intro id different
    have balance := refsNow id
    rwa [if_neg (Ne.symm different), Nat.add_zero] at balance
  have counterNow :
      record.refcount - 1 = BitVec.ofNat 32 (next.refs entry.data) := by
    rw [accounted.tally liveBefore, ← fewer, BitVec.ofNat_add]
    exact BitVec.add_sub_cancel _ _
  have fromOld :
      ∀ {other otherPage after},
        next.lookup other otherPage = some after →
        w.lookup other otherPage = some after := by
    intro other otherPage after lookedUp
    rw [lookup_dropRef dropped, World.lookup_clearEntry] at lookedUp
    split at lookedUp
    · cases lookedUp
    · exact lookedUp
  have dataElsewhere :
      ∀ {id}, id ≠ entry.data → next.data id = w.data id :=
    fun different =>
      (data_dropRef_other dropped different).trans rfl
  have sameNext : next.nextData = w.nextData :=
    (nextData_dropRef dropped).trans rfl
  have sameSlots : next.slots = w.slots := by
    simp only [World.slots, (Frame.dropRef dropped).mmCount]
    rfl
  have sameHeld : next.held = w.held := by
    rcases outcome with ⟨_, rfl⟩ | ⟨_, rfl⟩ <;> rfl
  have sameWrapped : next.wrapped = w.wrapped := by
    rcases outcome with ⟨_, rfl⟩ | ⟨_, rfl⟩ <;> rfl
  refine {
    numbered := ?_
    allocated := fun lookedUp => ?_
    heldAllocated := fun held => ?_
    entryHeld := fun lookedUp => ?_
    tally := ?_
    inSlots := fun lookedUp => ?_
    sound := fun notWrapped => ?_ }
  · intro id after isLive
    rw [sameNext]
    by_cases same : id = entry.data
    · exact same ▸ accounted.allocated found
    · exact accounted.numbered (dataElsewhere same ▸ isLive)
  · rw [sameNext]
    exact accounted.allocated (fromOld lookedUp)
  · rw [sameNext]
    exact accounted.heldAllocated (sameHeld ▸ held)
  · rw [sameHeld]
    exact accounted.entryHeld (fromOld lookedUp)
  · intro id after isLive
    by_cases same : id = entry.data
    · subst id
      rcases outcome with ⟨_, rfl⟩ | ⟨_, rfl⟩
      · simp only [update_self] at isLive
        cases isLive
      · simp only [update_self, some.injEq] at isLive
        rw [← isLive]
        exact counterNow
    · rw [sameElsewhere same]
      exact accounted.tally (dataElsewhere same ▸ isLive)
  · rw [sameSlots]
    exact accounted.inSlots (fromOld lookedUp)
  · have wasSound := accounted.sound (sameWrapped ▸ notWrapped)
    have notFreed : entry.data ∉ w.freed := by
      intro inFreed
      rw [wasSound.freedDead inFreed] at liveBefore
      cases liveBefore
    have below := wasSound.bounded liveBefore
    have zeroIff :
        record.refcount - 1 = 0 ↔ next.refs entry.data = 0 := by
      rw [counterNow]
      exact ofNat_eq_zero_iff (by omega)
    -- the last reference frees the record, any other keeps it
    have fate :
        (next.refs entry.data = 0 ∧
          next.freed = w.freed ++ [entry.data] ∧
          next.data entry.data = none) ∨
        (next.refs entry.data ≠ 0 ∧
          next.freed = w.freed ∧
          ∃ after,
            next.data entry.data = some after ∧
              after.size = record.size) := by
      rcases outcome with ⟨isZero, rfl⟩ | ⟨notZero, rfl⟩
      · exact .inl ⟨zeroIff.mp isZero, map_append,
          update_self ..⟩
      · exact .inr ⟨fun isZero => notZero (zeroIff.mpr isZero), rfl,
          _, update_self .., rfl⟩
    refine {
      bounded := ?_
      backed := ?_
      freedIff := ?_
      freedDead := ?_
      freedOnce := ?_ }
    · intro id after isLive
      by_cases same : id = entry.data
      · subst id
        omega
      · rw [sameElsewhere same]
        exact wasSound.bounded (dataElsewhere same ▸ isLive)
    · intro other otherPage after lookedUp
      obtain ⟨before, isLive, inside⟩ :=
        wasSound.backed (fromOld lookedUp)
      by_cases same : after.data = entry.data
      · have stillHeld : 0 < next.refs after.data :=
          World.refs_pos
            (sameSlots ▸ accounted.inSlots (fromOld lookedUp)) lookedUp
        rw [same] at stillHeld isLive ⊢
        cases liveBefore.symm.trans isLive
        rcases fate with ⟨isZero, _⟩ | ⟨_, _, kept, isKept, sameSize⟩
        · exact absurd isZero (Nat.ne_of_gt stillHeld)
        · exact ⟨kept, isKept, sameSize ▸ inside⟩
      · exact ⟨before, (dataElsewhere same).trans isLive, inside⟩
    · intro id
      rw [sameHeld]
      by_cases same : id = entry.data
      · subst id
        rcases fate with ⟨isZero, freed, _⟩ | ⟨notZero, freed, _⟩
        · simp [freed, entryHeld, isZero]
        · simp [freed, notFreed, notZero]
      · rw [sameElsewhere same, ← wasSound.freedIff]
        rcases fate with ⟨_, freed, _⟩ | ⟨_, freed, _⟩ <;>
          simp [freed, same]
    · intro id inFreed
      by_cases same : id = entry.data
      · subst id
        rcases fate with ⟨_, _, dead⟩ | ⟨_, freed, _⟩
        · exact dead
        · exact absurd (freed ▸ inFreed) notFreed
      · rw [dataElsewhere same]
        refine wasSound.freedDead ?_
        rcases fate with ⟨_, freed, _⟩ | ⟨_, freed, _⟩ <;>
          simpa [freed, same] using inFreed
    · rcases fate with ⟨_, freed, _⟩ | ⟨_, freed, _⟩
      · rw [freed, ← concat_eq_append]
        exact wasSound.freedOnce.concat notFreed
      · rw [freed]
        exact wasSound.freedOnce

/-- The system starts with no data and no entries. -/
theorem initial : Accounted World.empty where
  numbered := by
    rintro id record ⟨⟩
  allocated := by
    intro m page entry found
    simp [World.lookup, World.mem, World.empty] at found
  heldAllocated := by
    rintro id ⟨⟩
  entryHeld := by
    intro m page entry found
    simp [World.lookup, World.mem, World.empty] at found
  tally := by
    rintro id record ⟨⟩
  inSlots := by
    intro m page entry found
    simp [World.lookup, World.mem, World.empty] at found
  sound _ := {
    bounded := by
      rintro id record ⟨⟩
    backed := by
      intro m page entry found
      simp [World.lookup, World.mem, World.empty] at found
    freedIff := by
      simp [World.freed, World.empty]
    freedDead := by
      rintro id ⟨⟩
    freedOnce := nodup_nil }

theorem ptUnmapAlways
    (accounted : Accounted w)
    (unmapped : ptUnmapAlways host w m start pages = some next) :
    Accounted next := by
  unfold GuestKernel.ptUnmapAlways at unmapped
  obtain ⟨state, loop, finish⟩ := bind_eq_some_iff.mp unmapped
  cases finish
  refine Accounted.memChanged ?_ m
  exact Loop.foldlM_invariant
    (fun _ holds round => holds.unmapPage round) accounted loop

theorem ptUnmap
    (accounted : Accounted w)
    {success : Bool}
    (unmapped : ptUnmap host w m start pages = some (success, next)) :
    Accounted next := by
  rcases ptUnmap_cases unmapped with ⟨_, rfl⟩ | ⟨_, _, always⟩
  · exact accounted
  · exact accounted.ptUnmapAlways always

/-- The page offsets of a mapping lie inside its record. -/
private theorem mappedEntry_fits
    {memory : Nat}
    (notWrapped :
      (w.newData memory start pages offset).wrapped = false)
    (inRange : page ∈ pageRange start pages) :
    (page - start) * pageSize + offset + pageSize ≤
      pages * pageSize % 2 ^ 32 + offset := by
  have nonempty : (pageRange start pages).isEmpty = false := by
    cases shape : pageRange start pages with
    | nil =>
      rw [shape] at inRange
      cases inRange
    | cons _ _ =>
      rfl
  have noSizeWrap := (Bool.or_eq_false_iff.mp notWrapped).2
  rw [nonempty, Bool.not_false, Bool.and_true, decide_eq_false_iff_not,
    Nat.not_le] at noSizeWrap
  rw [Nat.mod_eq_of_lt noSizeWrap]
  obtain ⟨after, before⟩ := mem_pageRange.mp inRange
  simp only [pageSize]
  omega

/-- What the loop of `pt_map` maintains about its new record. -/
private structure MapLoop
    (host : Host)
    (w : World)
    (m : MmId)
    (id : DataId)
    (size : Nat)
    (done : List Nat)
    (state : World) : Prop where
  accounted : Accounted state
  frame : Frame host w state
  record : ∃ record, state.data id = some record ∧ record.size = size
  onlyDone :
    ∀ {other page entry},
      state.lookup other page = some entry →
      entry.data = id →
      page ∈ done

private theorem mapLoop_round
    {state : World}
    {id : DataId}
    {size : Nat}
    {done : List Nat}
    (inMm : m < w.mmCount)
    (loop : MapLoop host w m id size done state)
    (notDone : page ∉ done)
    (fits :
      w.wrapped = false →
      (page - start) * pageSize + offset + pageSize ≤ size)
    (round :
      ptMapPage host m id start offset flags state page = some next) :
    MapLoop host w m id size (done ++ [page]) next := by
  obtain ⟨inside, unmapped, retained, unmapStep, retainStep, shape⟩ :=
    ptMapPage_cases round
  have unmapFacts :
      Accounted unmapped ∧
        Frame host state unmapped ∧
        unmapped.lookup m page = none ∧
        unmapped.data id = state.data id := by
    rcases unmapStep with ⟨absent, rfl⟩ | ⟨before, unmapRound, rfl⟩
    · exact ⟨loop.accounted, .refl _, absent, rfl⟩
    · obtain ⟨frame, _, _, lookups⟩ := unmapPage_spec unmapRound
      refine ⟨(loop.accounted.unmapPage unmapRound).memChanged m,
        frame.trans (.memChanged before m), ?_, ?_⟩
      · rw [World.lookup_memChanged, lookups, if_pos ⟨rfl, rfl⟩]
      · rcases (unmapPage_cases unmapRound).2 with
            ⟨_, rfl⟩ | ⟨entry, found, dropped⟩
        · rfl
        · have isOther : id ≠ entry.data := fun same =>
            notDone (loop.onlyDone found same.symm)
          exact (data_dropRef_other dropped isOther).trans rfl
  obtain ⟨accounted, unmapFrame, absent, sameRecord⟩ := unmapFacts
  have frame := loop.frame.trans unmapFrame
  obtain ⟨record, live, recordSize⟩ := loop.record
  rw [← sameRecord] at live
  have roundSpec := ptMapPage_spec round
  subst shape
  refine ⟨?_, loop.frame.trans roundSpec.1, ?_, ?_⟩
  · refine accounted.take absent
      (World.mem_slots.mpr ⟨frame.mmCount ▸ inMm, inside⟩)
      retainStep ?_
    intro notWrapped other isLive
    rw [show (mappedEntry id start offset flags page).data = id
      from rfl, live] at isLive
    cases isLive
    rw [recordSize]
    exact fits (frame.unwrapped notWrapped)
  · obtain ⟨_, isLive, rfl⟩ := World.retain_eq_some.mp retainStep
    rw [live] at isLive
    cases isLive
    exact ⟨{ record with refcount := record.refcount + 1 },
      update_self .., recordSize⟩
  · intro other otherPage entry found sameData
    rw [roundSpec.2.2] at found
    split at found
    · rename_i same
      simp [same.2]
    · exact mem_append_left _ (loop.onlyDone found sameData)

section

variable (accounted : Accounted w)
include accounted

theorem ptMap
    (inMm : m < w.mmCount)
    {reply : MapReply}
    (mapped :
      ptMap host w m start pages reply offset flags =
        some (result, next)) :
    Accounted next := by
  rcases ptMap_cases mapped with ⟨_, _, rfl⟩ | ⟨memory, _, _, loop⟩
  · exact accounted
  have started :
      MapLoop host (w.newData memory start pages offset) m w.nextData
        (pages * pageSize % 2 ^ 32 + offset) []
        (w.newData memory start pages offset) := by
    refine ⟨accounted.newData .., .refl _,
      ⟨_, update_self .., rfl⟩, ?_⟩
    intro other page entry found sameData
    exact absurd (accounted.allocated found)
      (sameData ▸ Nat.lt_irrefl _)
  refine (Loop.foldlM_prefix ?_ started loop).accounted
  intro done page later state after shape holds round
  have inRange : page ∈ pageRange start pages := by
    simp [shape]
  have notDone := not_done (pageRange_nodup start pages) shape
  exact mapLoop_round inMm holds notDone
    (fun notWrapped => mappedEntry_fits notWrapped inRange) round

theorem ptMapNothing
    (inMm : m < w.mmCount)
    {reply : MapReply}
    (mapped :
      ptMapNothing host w m start pages reply flags =
        some (result, next)) :
    Accounted next := by
  unfold GuestKernel.ptMapNothing at mapped
  split at mapped
  · cases mapped
    exact accounted
  · unfold mapAnonymous at mapped
    split at mapped
    · exact accounted.ptMap inMm mapped
    · exact (accounted.fillBytes ..).ptMap inMm mapped

theorem setFlagsLoop
    {range : List Nat}
    (changed :
      setFlagsLoop m flags hostMprotect w range = some (result, next)) :
    Accounted next := by
  induction range generalizing w with
  | nil =>
    cases changed
    exact accounted.memChanged m
  | cons page rest inductionHypothesis =>
    obtain ⟨entry, found, round⟩ := setFlagsLoop_cons changed
    have reflagged := accounted.reflag found flags
    rcases round with ⟨_, rfl⟩ | ⟨_, later⟩
    · exact reflagged
    · exact inductionHypothesis reflagged later

theorem ptSetFlags
    (changed :
      ptSetFlags w m start pages flags hostMprotect =
        some (result, next)) :
    Accounted next := by
  rcases ptSetFlags_cases changed with ⟨_, _, rfl⟩ | ⟨_, loop⟩
  · exact accounted
  · exact accounted.setFlagsLoop loop

theorem copyPage
    {src dst : MmId}
    (different : src ≠ dst)
    (dstInMm : dst < w.mmCount)
    (copied : copyPage host src dst w page = some next) :
    Accounted next := by
  obtain ⟨inside, ⟨_, rfl⟩ |
      ⟨entry, unmapped, retained, found, always, retain, rfl⟩⟩ :=
    copyPage_cases copied
  · exact accounted
  obtain ⟨frame, _, _, lookups⟩ := ptUnmapAlways_spec always
  have stillFound : unmapped.lookup src page = some entry := by
    rw [lookups, if_neg (fun both => different both.1)]
    exact found
  have reflagged :=
    (accounted.ptUnmapAlways always).reflag stillFound
      (cowFlags entry.flags)
  refine reflagged.take ?_ ?_ retain ?_
  · rw [World.lookup_fillEntry, if_neg (fun both => different both.1.symm),
      lookups, if_pos ⟨rfl, by simp [pageRange_one inside]⟩]
  · exact World.mem_slots.mpr ⟨frame.mmCount ▸ dstInMm, inside⟩
  · intro notWrapped record live
    obtain ⟨sameRecord, isLive, fits⟩ :=
      ((accounted.ptUnmapAlways always).sound notWrapped).backed stillFound
    cases live.symm.trans isLive
    exact fits

theorem ptCopyOnWrite
    {src dst : MmId}
    (different : src ≠ dst)
    (dstInMm : dst < w.mmCount)
    (copied : ptCopyOnWrite host w src dst start pages = some next) :
    Accounted next := by
  unfold GuestKernel.ptCopyOnWrite at copied
  obtain ⟨state, loop, finish⟩ := bind_eq_some_iff.mp copied
  cases finish
  refine (Accounted.memChanged ?_ src).memChanged dst
  refine (Loop.foldlM_invariant
    (motive := fun state =>
      Accounted state ∧ dst < state.mmCount)
    ?_ ⟨accounted, dstInMm⟩ loop).1
  intro state page after _ holds round
  exact ⟨holds.1.copyPage different holds.2 round,
    (copyPage_spec round).1.mmCount ▸ holds.2⟩

theorem memResolveFault
    (inMm : m < w.mmCount)
    {type : Access}
    {ptraceCopy : Bool}
    {grow copy : MapReply}
    (resolved :
      memResolveFault host w m page type ptraceCopy grow copy =
        some (result, next)) :
    Accounted next := by
  obtain ⟨grown, middle, growth, rest⟩ := memResolveFault_cases resolved
  have grownFacts : Accounted middle ∧ m < middle.mmCount := by
    rcases (growStack_cases growth).2 with rfl | ⟨_, mapped⟩
    · exact ⟨accounted, inMm⟩
    · exact ⟨accounted.ptMapNothing inMm mapped,
        (ptMapNothing_records mapped).mmCount ▸ inMm⟩
  rcases rest with rfl | rest
  · exact grownFacts.1
  rcases resolveWrite_cases rest with
      rfl | ⟨entry, record, memory, _, _, _, copied⟩
  · exact grownFacts.1
  · exact (grownFacts.1.fillBytes ..).ptMap grownFacts.2 copied

/-- A new address space has no entries. -/
theorem addMm
    (startBrk brk : Nat) :
    Accounted (w.addMm startBrk brk) := by
  have sameLookup : (w.addMm startBrk brk).lookup = w.lookup := by
    funext m page
    by_cases isNew : m = w.mmCount
    · subst m
      have absent : w.lookup w.mmCount page = none := by
        cases found : w.lookup w.mmCount page with
        | none =>
          rfl
        | some entry =>
          have bounds := World.mem_slots.mp (accounted.inSlots found)
          exact absurd bounds.1 (Nat.lt_irrefl _)
      rw [absent]
      simp [World.lookup, World.mem, World.addMm]
    · simp [World.lookup, World.mem, World.addMm,
        update_of_ne isNew]
  exact accounted.still (fun _ _ => by rw [sameLookup]) (fun _ => rfl)
    (Nat.le_succ _) rfl rfl rfl rfl

/-- Destroying an address space unmaps all of it first. -/
theorem memDestroy
    (destroyed : memDestroy host w m = some next) :
    Accounted next := by
  unfold GuestKernel.memDestroy at destroyed
  obtain ⟨state, always, finish⟩ := bind_eq_some_iff.mp destroyed
  cases finish
  have unmapped := accounted.ptUnmapAlways always
  refine unmapped.congr ?_ rfl rfl rfl rfl rfl rfl
  obtain ⟨_, _, _, lookups⟩ := ptUnmapAlways_spec always
  funext other page
  by_cases same : other = m
  · subst other
    rw [World.lookup_setMem_same, Mem.lookup_freed]
    cases found : state.lookup m page with
    | none =>
      rfl
    | some entry =>
      have inside :=
        (World.mem_slots.mp (unmapped.inSlots found)).2
      rw [lookups, if_pos ⟨rfl, mem_pageRange.mpr (by
        simp only [memPages] at inside ⊢
        omega)⟩] at found
      cases found
  · simp [World.lookup, World.mem_setMem_other state same]

end

end Accounted

end GuestKernel
