import GuestKernel.HostRegions

namespace GuestKernel
open Option Function
open World

/-!
# How guest pages lie in host memory

Live data own disjoint regions of the host, and entries that point to the same
data lie in it as far apart as their pages do in the guest.  Every step of the
machine keeps this, `mprotect` included, so no two addresses of one guest are
the same host byte.
-/

/-- The layout of live data in the host, and of entries in their data. -/
structure HostLayout (w : World) : Prop extends Regions w where
  shifted :
    ∀ {m page entry other otherPage after},
      w.lookup m page = some entry →
      w.lookup other otherPage = some after →
      after.data = entry.data →
      after.offset + page * pageSize =
        entry.offset + otherPage * pageSize

namespace HostLayout

variable
  {host : Host}
  {w next : World}
  {m : MmId}

theorem initial : HostLayout empty where
  bounded := by
    rintro id record ⟨⟩
  apart := by
    rintro id other record after _ ⟨⟩
  shifted := by
    intro m page entry other otherPage after found
    simp [World.lookup, mem, empty] at found

section

variable (layout : HostLayout w)
include layout

/--
Records that are only dropped or counted, and entries that each come from one
of the same page, keep the layout.
-/
theorem shrink
    (kept : KeepsRecords w next)
    (origin :
      ∀ {m page entry},
        next.lookup m page = some entry →
        ∃ other before,
          w.lookup other page = some before ∧
            entry.data = before.data ∧ entry.offset = before.offset) :
    HostLayout next where
  toRegions := layout.toRegions.kept kept
  shifted := by
    intro first page entry other otherPage after found otherFound sameData
    obtain ⟨_, before, wasFound, data, offset⟩ := origin found
    obtain ⟨_, otherBefore, otherWasFound, otherData, otherOffset⟩ :=
      origin otherFound
    rw [offset, otherOffset]
    exact layout.shifted wasFound otherWasFound
      (otherData.symm.trans (sameData.trans data))

theorem congr
    (data : next.data = w.data)
    (lookup : next.lookup = w.lookup) :
    HostLayout next := by
  refine layout.shrink (fun live => ⟨_, data ▸ live, .refl _⟩) ?_
  intro other page entry found
  exact ⟨other, entry, lookup ▸ found, rfl, rfl⟩

/-- Mapping memory that was not in use. -/
theorem map
    {start pages offset : Nat}
    {flags : Flags}
    (mapped : Mapped w next m start pages offset flags) :
    HostLayout next where
  toRegions := layout.toRegions.mapped mapped
  shifted := by
    intro first page entry other otherPage after found otherFound sameData
    rcases mapped.entries found with ⟨_, inRange, rfl⟩ | ⟨old, wasFound⟩ <;>
      rcases mapped.entries otherFound with
        ⟨_, otherInRange, rfl⟩ | ⟨otherOld, otherWasFound⟩
    · have after := (mem_pageRange.mp inRange).1
      have otherAfter := (mem_pageRange.mp otherInRange).1
      simp only [mappedEntry, pageSize]
      omega
    · exact absurd sameData (Nat.ne_of_lt otherOld)
    · exact absurd sameData.symm (Nat.ne_of_lt old)
    · exact layout.shifted wasFound otherWasFound sameData

theorem ofPtMap
    {start pages offset : Nat}
    {reply : MapReply}
    {flags : Flags}
    {result : Except Errno Unit}
    (accounted : Accounted w)
    (accountedNext : Accounted next)
    (fresh : reply.Fresh w (pages * pageSize % 2 ^ 32 + offset))
    (mapped :
      ptMap host w m start pages reply offset flags =
        some (result, next)) :
    HostLayout next := by
  rcases ptMap_mapped accounted accountedNext fresh mapped with rfl | made
  · exact layout
  · exact layout.map made

/-- So do entries that are only dropped. -/
theorem fewer
    (kept : KeepsRecords w next)
    (dropped :
      ∀ {m page entry},
        next.lookup m page = some entry → w.lookup m page = some entry) :
    HostLayout next :=
  layout.shrink kept fun found => ⟨_, _, dropped found, rfl, rfl⟩

theorem ptUnmapAlways
    {start pages : Nat}
    (accountedNext : Accounted next)
    (always : GuestKernel.ptUnmapAlways host w m start pages = some next) :
    HostLayout next := by
  obtain ⟨frame, sameNext, _, lookups⟩ := ptUnmapAlways_spec always
  refine layout.fewer (frame.toRecords.sameMemory accountedNext sameNext) ?_
  intro other page entry found
  rw [lookups] at found
  split at found
  · cases found
  · exact found

/-- Every change of the page tables keeps the layout. -/
theorem effect
    (accounted : Accounted w)
    (taken : Effect host m w next) :
    HostLayout next := by
  have accountedNext := accounted.effect taken
  cases taken with
  | fill _ | store _ _ _ => exact layout.congr rfl rfl
  | map _ fresh mapped =>
    exact layout.ofPtMap accounted accountedNext fresh mapped
  | attach attached =>
    obtain ⟨entry, record, _, live, rfl⟩ :=
      attachFile_eq_some.mp attached
    refine layout.fewer ?_ id
    intro id after isLive
    rcases eq_some_of_update isLive with ⟨rfl, rfl⟩ | ⟨_, wasLive⟩
    · exact ⟨record, live, rfl, rfl⟩
    · exact ⟨after, wasLive, .refl _⟩
  | unmap always => exact layout.ptUnmapAlways accountedNext always
  | breaks =>
    refine layout.fewer (fun live => ⟨_, live, .refl _⟩) ?_
    intro other page entry found
    by_cases same : other = m
    · subst other
      simpa [World.lookup, mem, setBrks] using found
    · simpa [World.lookup, mem, setBrks,
        update_of_ne same] using found
  | create =>
    refine layout.fewer (fun live => ⟨_, live, .refl _⟩) ?_
    intro other page entry found
    by_cases same : other = w.mmCount
    · subst other
      simp [World.lookup, mem, addMm] at found
    · simpa [World.lookup, mem, addMm,
        update_of_ne same] using found
  | share _ _ _ copied =>
    obtain ⟨frame, sameNext, lookups⟩ := ptCopyOnWrite_spec copied
    refine layout.shrink
      (frame.toRecords.sameMemory accountedNext sameNext) ?_
    intro other page entry found
    rw [lookups] at found
    split at found
    · obtain ⟨before, wasFound, rfl⟩ := map_eq_some_iff.mp found
      exact ⟨m, before, wasFound, rfl, rfl⟩
    · exact ⟨other, entry, found, rfl, rfl⟩
  | destroy destroyed =>
    obtain ⟨state, always, finish⟩ :=
      bind_eq_some_iff.mp destroyed
    cases finish
    have unmapped :=
      layout.ptUnmapAlways (accounted.effect (.unmap always)) always
    refine unmapped.fewer (fun live => ⟨_, live, .refl _⟩) ?_
    intro other page entry found
    by_cases same : other = m
    · subst other
      rw [lookup_setMem_same, Mem.lookup_freed] at found
      cases found
    · simpa [World.lookup, mem_setMem_other state same] using found

theorem effects
    (accounted : Accounted w)
    (run : Effects host m w next) :
    HostLayout next := by
  induction run with
  | refl => exact layout
  | tail earlier taken inductionHypothesis =>
    exact inductionHypothesis.effect (accounted.effects earlier) taken

theorem memoryStep
    {action : MemoryAction}
    (accounted : Accounted w)
    (taken : (memoryMachine host).step w action next) :
    HostLayout next := by
  obtain ⟨m, addr, len, prot, hostMprotect, result, rfl, call⟩ | run :=
    memoryStep_cases accounted taken
  · rcases sysMprotect_cases call with rfl | ⟨_, changed⟩
    · exact layout
    · obtain ⟨_, sameData, _, lookups⟩ := ptSetFlags_spec host changed
      refine layout.shrink (fun live => ⟨_, sameData ▸ live, .refl _⟩) ?_
      intro other page entry found
      rw [lookups] at found
      split at found
      · obtain ⟨before, wasFound, rfl⟩ := map_eq_some_iff.mp found
        exact ⟨m, before, wasFound, rfl, rfl⟩
      · exact ⟨other, entry, found, rfl, rfl⟩
  · exact layout.effects accounted run

end

theorem reachable
    (reachable : (memoryMachine host).Reachable w) :
    HostLayout w := by
  refine (reachable.invariant
    (motive := fun w => Accounted w ∧ HostLayout w) ?_ ?_).2
  · rintro state rfl
    exact ⟨.initial, .initial⟩
  · rintro state action next ⟨accounted, layout⟩ taken
    exact ⟨accounted.memoryStep taken, layout.memoryStep accounted taken⟩

end HostLayout

end GuestKernel
