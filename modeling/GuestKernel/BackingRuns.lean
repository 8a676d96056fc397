import GuestKernel.BackingCount

namespace GuestKernel
open Option Function

/-!
# Runs of page-table operations

The machine whose steps are the operations of `kernel/memory.c` on any number
of address spaces, and what its runs guarantee about backing data: the counter
of a record is the number of its entries, and a record is released with its
last entry.
-/

/-- One operation on the page tables, with the host's answers. -/
inductive TableAction where
  | mmNew
  | ptMap
      (m : MmId) (start pages : Nat) (reply : MapReply)
      (offset : Nat) (flags : Flags)
  | attachFile (m : MmId) (page : Nat) (fd : FdId) (offset : Nat)
  | ptMapNothing
      (m : MmId) (start pages : Nat) (reply : MapReply) (flags : Flags)
  | ptUnmap (m : MmId) (start pages : Nat)
  | ptUnmapAlways (m : MmId) (start pages : Nat)
  | ptSetFlags
      (m : MmId) (start pages : Nat) (flags : Flags)
      (hostMprotect : Nat → Except Errno Unit)
  | ptCopyOnWrite (src dst : MmId) (start pages : Nat)
  | memResolveFault
      (m : MmId) (page : Nat) (type : Access) (ptraceCopy : Bool)
      (grow copy : MapReply)
  | memDestroy (m : MmId)

namespace TableAction

/-- The operation works on existing address spaces. -/
def enabled (w : World) : TableAction → Prop
  | mmNew => True
  | ptMap m .. => m < w.mmCount
  | attachFile m .. => m < w.mmCount
  | ptMapNothing m .. => m < w.mmCount
  | ptUnmap m .. => m < w.mmCount
  | ptUnmapAlways m .. => m < w.mmCount
  | ptSetFlags m .. => m < w.mmCount
  | ptCopyOnWrite src dst .. =>
    src < w.mmCount ∧ dst < w.mmCount ∧ src ≠ dst
  | memResolveFault m .. => m < w.mmCount
  | memDestroy m => m < w.mmCount

/-- The state after the operation, whether it succeeds or returns an error. -/
def run (host : Host) (w : World) : TableAction → Option World
  | mmNew => some (GuestKernel.mmNew w)
  | ptMap m start pages reply offset flags =>
    (GuestKernel.ptMap host w m start pages reply offset flags).map
      Prod.snd
  | attachFile m page fd offset => w.attachFile m page fd offset
  | ptMapNothing m start pages reply flags =>
    (GuestKernel.ptMapNothing host w m start pages reply flags).map
      Prod.snd
  | ptUnmap m start pages =>
    (GuestKernel.ptUnmap host w m start pages).map Prod.snd
  | ptUnmapAlways m start pages =>
    GuestKernel.ptUnmapAlways host w m start pages
  | ptSetFlags m start pages flags hostMprotect =>
    (GuestKernel.ptSetFlags w m start pages flags hostMprotect).map
      Prod.snd
  | ptCopyOnWrite src dst start pages =>
    GuestKernel.ptCopyOnWrite host w src dst start pages
  | memResolveFault m page type ptraceCopy grow copy =>
    (GuestKernel.memResolveFault host w m page type ptraceCopy grow
      copy).map Prod.snd
  | memDestroy m => GuestKernel.memDestroy host w m

end TableAction

/-- Whether an operation is enabled can be computed. -/
instance TableAction.decidableEnabled (w : World) :
    (action : TableAction) → Decidable (action.enabled w)
  | .mmNew => inferInstanceAs (Decidable True)
  | .ptMap m .. => inferInstanceAs (Decidable (m < w.mmCount))
  | .attachFile m .. => inferInstanceAs (Decidable (m < w.mmCount))
  | .ptMapNothing m .. => inferInstanceAs (Decidable (m < w.mmCount))
  | .ptUnmap m .. => inferInstanceAs (Decidable (m < w.mmCount))
  | .ptUnmapAlways m .. => inferInstanceAs (Decidable (m < w.mmCount))
  | .ptSetFlags m .. => inferInstanceAs (Decidable (m < w.mmCount))
  | .ptCopyOnWrite src dst .. =>
    inferInstanceAs
      (Decidable (src < w.mmCount ∧ dst < w.mmCount ∧ src ≠ dst))
  | .memResolveFault m .. =>
    inferInstanceAs (Decidable (m < w.mmCount))
  | .memDestroy m => inferInstanceAs (Decidable (m < w.mmCount))

/-- All runs of page-table operations, starting without address spaces. -/
def tableMachine (host : Host) : Machine World TableAction where
  initial w := w = World.empty
  step w action next :=
    action.enabled w ∧ action.run host w = some next

/--
The operation wraps none of the 32-bit counts: it never increments a counter
that is at its maximum, and never maps all of the address space at once.
-/
def TableAction.CountsFit
    (host : Host) (w : World) (action : TableAction) : Prop :=
  ∀ next, action.run host w = some next → next.wrapped = false

variable {w next : World} {host : Host} {action : TableAction}

/-- One step of the machine keeps the bookkeeping invariant. -/
theorem Accounted.step
    (accounted : Accounted w)
    (taken : (tableMachine host).step w action next) :
    Accounted next := by
  obtain ⟨enabled, run⟩ := taken
  cases action with
  | mmNew =>
    cases run
    exact accounted.addMm 0 0
  | ptMap m start pages reply offset flags =>
    obtain ⟨⟨_, _⟩, call, rfl⟩ := map_eq_some_iff.mp run
    exact accounted.ptMap enabled call
  | attachFile m page fd offset =>
    exact accounted.attachFile run
  | ptMapNothing m start pages reply flags =>
    obtain ⟨⟨_, _⟩, call, rfl⟩ := map_eq_some_iff.mp run
    exact accounted.ptMapNothing enabled call
  | ptUnmap m start pages =>
    obtain ⟨⟨_, _⟩, call, rfl⟩ := map_eq_some_iff.mp run
    exact accounted.ptUnmap call
  | ptUnmapAlways m start pages =>
    exact accounted.ptUnmapAlways run
  | ptSetFlags m start pages flags hostMprotect =>
    obtain ⟨⟨_, _⟩, call, rfl⟩ := map_eq_some_iff.mp run
    exact accounted.ptSetFlags call
  | ptCopyOnWrite src dst start pages =>
    exact accounted.ptCopyOnWrite enabled.2.2 enabled.2.1 run
  | memResolveFault m page type ptraceCopy grow copy =>
    obtain ⟨⟨_, _⟩, call, rfl⟩ := map_eq_some_iff.mp run
    exact accounted.memResolveFault enabled call
  | memDestroy m =>
    exact accounted.memDestroy run

theorem Accounted.reachable
    (reachable : (tableMachine host).Reachable w) :
    Accounted w :=
  reachable.invariant
    (fun isInitial => isInitial ▸ Accounted.initial)
    (fun accounted taken => accounted.step taken)

section

variable (taken : (tableMachine host).step w action next)
include taken

/--
Every operation keeps the records, except the two that only add an address
space or attach a file to a record.
-/
theorem TableAction.records :
    Records host w next ∨
      next = GuestKernel.mmNew w ∨
      ∃ m page fd offset, w.attachFile m page fd offset = some next := by
  obtain ⟨_, run⟩ := taken
  cases action with
  | mmNew =>
    cases run
    exact .inr (.inl rfl)
  | ptMap m start pages reply offset flags =>
    obtain ⟨⟨_, _⟩, call, rfl⟩ := map_eq_some_iff.mp run
    exact .inl (ptMap_spec call).1.toRecords
  | attachFile m page fd offset =>
    exact .inr (.inr ⟨m, page, fd, offset, run⟩)
  | ptMapNothing m start pages reply flags =>
    obtain ⟨⟨_, _⟩, call, rfl⟩ := map_eq_some_iff.mp run
    exact .inl (ptMapNothing_records call)
  | ptUnmap m start pages =>
    obtain ⟨⟨_, _⟩, call, rfl⟩ := map_eq_some_iff.mp run
    rcases ptUnmap_cases call with ⟨_, rfl⟩ | ⟨_, _, always⟩
    · exact .inl (Frame.refl _).toRecords
    · exact .inl (ptUnmapAlways_spec always).1.toRecords
  | ptUnmapAlways m start pages =>
    exact .inl (ptUnmapAlways_spec run).1.toRecords
  | ptSetFlags m start pages flags hostMprotect =>
    obtain ⟨⟨_, _⟩, call, rfl⟩ := map_eq_some_iff.mp run
    exact .inl (ptSetFlags_spec host call).1.toRecords
  | ptCopyOnWrite src dst start pages =>
    exact .inl (ptCopyOnWrite_spec run).1.toRecords
  | memResolveFault m page type ptraceCopy grow copy =>
    obtain ⟨⟨_, _⟩, call, rfl⟩ := map_eq_some_iff.mp run
    exact .inl (memResolveFault_records call)
  | memDestroy m =>
    obtain ⟨state, always, finish⟩ := bind_eq_some_iff.mp run
    cases finish
    exact .inl ((ptUnmapAlways_spec always).1.toRecords.trans
      (.setMem state m _))

/-- A record that a step frees gets its `munmap` and its `fd_close`. -/
theorem TableAction.gone
    {id : DataId}
    {record : Data}
    (allocated : id < w.nextData)
    (live : w.data id = some record)
    (dead : next.data id = none) :
    World.releaseOf host id record ∈ next.released := by
  rcases TableAction.records taken with
      records | rfl | ⟨m, page, fd, offset, attached⟩
  · exact records.gone allocated live dead
  · cases live.symm.trans dead
  · obtain ⟨entry, file, _, isLive, rfl⟩ :=
      World.attachFile_eq_some.mp attached
    by_cases same : id = entry.data
    · subst id
      simp at dead
    · simp only [update_of_ne same] at dead
      cases live.symm.trans dead

/-- The memory of a record never moves. -/
theorem TableAction.memory
    {id : DataId}
    {record : Data}
    (allocated : id < w.nextData)
    (live : next.data id = some record) :
    ∃ before, w.data id = some before ∧ before.data = record.data := by
  rcases TableAction.records taken with
      records | rfl | ⟨m, page, fd, offset, attached⟩
  · obtain ⟨before, wasLive, same⟩ := records.kept allocated live
    refine ⟨before, wasLive, ?_⟩
    rw [same]
  · exact ⟨record, live, rfl⟩
  · obtain ⟨entry, file, _, isLive, rfl⟩ :=
      World.attachFile_eq_some.mp attached
    by_cases same : id = entry.data
    · subst id
      simp only [update_self, some.injEq] at live
      exact ⟨file, isLive, by rw [← live]⟩
    · simp only [update_of_ne same] at live
      exact ⟨record, live, rfl⟩

theorem TableAction.mmCount :
    w.mmCount ≤ next.mmCount := by
  rcases TableAction.records taken with
      records | rfl | ⟨m, page, fd, offset, attached⟩
  · exact Nat.le_of_eq records.mmCount.symm
  · exact Nat.le_succ _
  · obtain ⟨_, _, _, _, rfl⟩ := World.attachFile_eq_some.mp attached
    exact Nat.le_refl _

end

/--
What the counters promise: a live counter is the number of entries, every
entry is backed by its record, and exactly the data that lost its last entry
has been freed, once.
-/
structure Balanced (w : World) : Prop where
  counted :
    ∀ {id record},
      w.data id = some record → record.refcount.toNat = w.refs id
  backed :
    ∀ {m page entry},
      w.lookup m page = some entry →
      ∃ record,
        w.data entry.data = some record ∧
          entry.offset + pageSize ≤ record.size
  freedIff :
    ∀ {id}, id ∈ w.freed ↔ w.held id = true ∧ w.refs id = 0
  freedDead : ∀ {id}, id ∈ w.freed → w.data id = none
  freedOnce : w.freed.Nodup

theorem Accounted.balanced
    (accounted : Accounted w)
    (notWrapped : w.wrapped = false) :
    Balanced w := by
  have sound := accounted.sound notWrapped
  refine {
    counted := fun live => ?_
    backed := sound.backed
    freedIff := sound.freedIff
    freedDead := sound.freedDead
    freedOnce := sound.freedOnce }
  rw [accounted.tally live, BitVec.toNat_ofNat,
    Nat.mod_eq_of_lt (sound.bounded live)]

theorem wrapped_of_countsFit
    (reachable :
      ((tableMachine host).restrict
        (TableAction.CountsFit host)).Reachable w) :
    w.wrapped = false := by
  induction reachable with
  | initial isInitial =>
    rw [isInitial]
    rfl
  | step _ taken _ =>
    exact taken.1 _ taken.2.2

/--
In every run whose steps wrap no count, the counts are exact in every state,
and a record freed by the next step is released with its `munmap` and its
`fd_close`.
-/
theorem backing_released_with_last_entry
    {host : Host}
    {w : World}
    (reachable :
      ((tableMachine host).restrict
        (TableAction.CountsFit host)).Reachable w) :
    Balanced w ∧
      ∀ {action next},
        (tableMachine host).step w action next →
        ∀ {id record},
          w.data id = some record →
          next.data id = none →
          World.releaseOf host id record ∈ next.released := by
  have accounted := Accounted.reachable reachable.of_restrict
  refine ⟨accounted.balanced (wrapped_of_countsFit reachable), ?_⟩
  intro action next taken id record live dead
  exact TableAction.gone taken (accounted.numbered live) live dead

/-- Map one page of the first address space. -/
def mapOnePage : Option World :=
  (TableAction.ptMap 0 5 1 ⟨.ok 8192, true⟩ 0 pWrite).run plainHost
    (mmNew World.empty)

/-- A page mapped and unmapped again is released exactly once. -/
theorem backing_released_after_unmap :
    ∃ w,
      (mapOnePage.bind fun mapped =>
          ptUnmapAlways plainHost mapped 0 5 1) = some w ∧
        w.released =
          [{ id := 0, munmap := some (8192, 4096), fdClose := none }] ∧
          Balanced w := by
  obtain ⟨mapped, mapStep⟩ : ∃ mapped, mapOnePage = some mapped :=
    isSome_iff_exists.mp (by rfl)
  have onePage :
      ∀ w, ptUnmapAlways plainHost w 0 5 1 =
        (unmapPage plainHost 0 w 5).map fun state => state.memChanged 0 :=
    fun w => ptUnmapAlways_one (by decide)
  have facts :
      (mapOnePage.bind fun mapped =>
        (unmapPage plainHost 0 mapped 5).map fun state =>
          (mapped.wrapped, mapped.mmCount, state.wrapped,
            state.released)) =
        some (false, 1, false,
          [{ id := 0, munmap := some (8192, 4096), fdClose := none }]) := by
    rfl
  rw [mapStep] at facts
  obtain ⟨state, unmapStep, values⟩ := map_eq_some_iff.mp facts
  simp only [Prod.mk.injEq] at values
  obtain ⟨mapUnwrapped, mmCount, unmapUnwrapped, released⟩ := values
  have unmapped :
      ptUnmapAlways plainHost mapped 0 5 1 =
        some (state.memChanged 0) := by
    rw [onePage, unmapStep, map_some]
  refine ⟨state.memChanged 0, ?_, released, ?_⟩
  · rw [mapStep]
    exact unmapped
  suffices reachable :
      ((tableMachine plainHost).restrict
        (TableAction.CountsFit plainHost)).Reachable
          (state.memChanged 0) from
    (backing_released_with_last_entry reachable).1
  refine .step (a := .ptUnmapAlways 0 5 1)
    (.step (a := .ptMap 0 5 1 ⟨.ok 8192, true⟩ 0 pWrite)
      (.step (a := .mmNew) (.initial rfl) ⟨?_, trivial, rfl⟩)
      ⟨?_, Nat.one_pos, mapStep⟩)
    ⟨?_, mmCount ▸ Nat.one_pos, unmapped⟩
  · rintro next ⟨⟩
    rfl
  · intro next ran
    cases mapStep.symm.trans ran
    exact mapUnwrapped
  · intro next ran
    cases unmapped.symm.trans ran
    exact unmapUnwrapped

/--
Mapping the whole address space in one call gives a record of size zero, so
its entries have no memory behind them.
-/
theorem mapping_all_pages_is_unbacked :
    ∃ w,
      (tableMachine plainHost).Reachable w ∧ ¬ Balanced w := by
  have hole :
      ∀ page ∈ pageRange 0 memPages,
        page < memPages ∧ (mmNew World.empty).lookup 0 page = none := by
    intro page inRange
    refine ⟨?_, rfl⟩
    have bounds := mem_pageRange.mp inRange
    simp only [memPages] at bounds ⊢
    omega
  obtain ⟨w, mapped, record, live, size⟩ :=
    ptMap_isSome plainHost 8192 0 pWrite (.inl rfl) hole
  refine ⟨w, ?_, ?_⟩
  · refine .step (a := .ptMap 0 0 memPages ⟨.ok 8192, true⟩ 0 pWrite)
      (.step (a := .mmNew) (.initial rfl) ⟨trivial, rfl⟩) ⟨?_, ?_⟩
    · exact Nat.one_pos
    · simp only [TableAction.run, mapped, map_some]
  · intro balanced
    rcases (ptMap_spec mapped).2 with ⟨_, failed, _⟩ | ⟨_, lookups⟩
    · cases failed
    have found := lookups 0 0
    rw [if_pos ⟨rfl, mem_pageRange.mpr (by
      simp only [memPages]
      omega)⟩] at found
    obtain ⟨_, isLive, fits⟩ := balanced.backed found
    cases live.symm.trans isLive
    rw [size] at fits
    simp [memPages, pageSize] at fits

end GuestKernel
