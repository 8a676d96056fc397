import GuestKernel.MemoryMachine

namespace GuestKernel
open Option Function
open World

/-!
# The host memory of mappings

Live records own disjoint regions of host memory.  Dropping records keeps that,
and so does a mapping of memory that was not in use.
-/

/-- Two versions of a record own the same host memory. -/
structure Data.SameMemory (first second : Data) : Prop where
  data : second.data = first.data
  size : second.size = first.size

theorem Data.SameMemory.refl (record : Data) : record.SameMemory record where
  data := rfl
  size := rfl

/-- A counted record owns the same memory. -/
theorem Data.Same.sameMemory
    {first second : Data}
    (same : first.Same second) :
    first.SameMemory second := by
  rw [same]
  exact ⟨rfl, rfl⟩

variable {w next : World} {flags : Flags} {host : Host} {m : MmId}

/-- A clear mask has no part set. -/
theorem hasFlag_of_subset
    {mask part : Flags}
    (subset : mask &&& part = part)
    (clear : hasFlag flags mask = false) :
    hasFlag flags part = false := by
  have isZero : flags &&& mask = 0 := by
    simpa [hasFlag] using clear
  have partZero : flags &&& part = 0 := by
    rw [← subset, ← BitVec.and_assoc, isZero]
    exact BitVec.zero_and
  simp [hasFlag, partZero]

/-- What is writable after a fork was writable before. -/
theorem pWritable_of_cowFlags
    (writable : pWritable (cowFlags flags) = true) :
    pWritable flags = true := by
  unfold cowFlags at writable
  split at writable
  · exact writable
  · rw [pWritable_of_cow (by simp [show hasFlag pCow pCow = true by decide])]
      at writable
    cases writable

/-- Every live record was one before. -/
def KeepsRecords (w next : World) : Prop :=
  ∀ {id record},
    next.data id = some record →
    ∃ before, w.data id = some before ∧ before.SameMemory record

theorem Records.sameMemory
    (records : Records host w next)
    (accounted : Accounted next)
    (sameNext : next.nextData = w.nextData) :
    KeepsRecords w next := by
  intro id record live
  obtain ⟨before, wasLive, same⟩ :=
    records.kept (sameNext ▸ accounted.numbered live) live
  exact ⟨before, wasLive, same.sameMemory⟩

/-- Live records own disjoint host regions. -/
structure Regions (w : World) : Prop where
  bounded :
    ∀ {id record},
      w.data id = some record → record.data + record.size ≤ 2 ^ 64
  apart :
    ∀ {id other record after},
      other ≠ id →
      w.data id = some record →
      w.data other = some after →
      record.data + record.size ≤ after.data ∨
        after.data + after.size ≤ record.data

/-- Dropping records leaves the others apart. -/
theorem Regions.kept
    (regions : Regions w)
    (kept : KeepsRecords w next) :
    Regions next where
  bounded := by
    intro id record live
    obtain ⟨before, wasLive, same⟩ := kept live
    rw [same.data, same.size]
    exact regions.bounded wasLive
  apart := by
    intro id other record after different live otherLive
    obtain ⟨before, wasLive, same⟩ := kept live
    obtain ⟨otherBefore, otherWasLive, otherSame⟩ := kept otherLive
    rw [same.data, same.size, otherSame.data, otherSame.size]
    exact regions.apart different wasLive otherWasLive

/-- What a mapping of memory that was not in use makes. -/
structure Mapped
    (w next : World) (m : MmId) (start pages offset : Nat) (flags : Flags) :
    Prop where
  records :
    ∀ {id record},
      next.data id = some record →
      (id < w.nextData ∧
        ∃ before, w.data id = some before ∧ before.SameMemory record) ∨
        (id = w.nextData ∧ Fresh w record.data record.size)
  entries :
    ∀ {other page entry},
      next.lookup other page = some entry →
      (other = m ∧ page ∈ pageRange start pages ∧
        entry = mappedEntry w.nextData start offset flags page) ∨
        (entry.data < w.nextData ∧
          w.lookup other page = some entry)

/-- `pt_map` does nothing, or maps memory that was free. -/
theorem ptMap_mapped
    {start pages offset : Nat}
    {reply : MapReply}
    {result : Except Errno Unit}
    (accounted : Accounted w)
    (accountedNext : Accounted next)
    (fresh : reply.Fresh w (pages * pageSize % 2 ^ 32 + offset))
    (mapped :
      ptMap host w m start pages reply offset flags =
        some (result, next)) :
    next = w ∨ Mapped w next m start pages offset flags := by
  rcases (ptMap_spec mapped).2 with ⟨_, _, rfl⟩ | ⟨_, lookups⟩
  · exact .inl rfl
  refine .inr ⟨?_, ?_⟩
  · intro id record live
    rcases ptMap_records mapped (accountedNext.numbered live) live with
        ⟨before, allocated, wasLive, same⟩ |
          ⟨isNew, replied, size⟩
    · exact .inl ⟨allocated, before, wasLive, same.sameMemory⟩
    · exact .inr ⟨isNew, size ▸ fresh replied⟩
  · intro other page entry found
    rw [lookups] at found
    split at found
    · rename_i inRange
      exact .inl ⟨inRange.1, inRange.2, (some.inj found).symm⟩
    · exact .inr ⟨accounted.allocated found, found⟩

/-- A mapping of free memory keeps the regions apart. -/
theorem Regions.mapped
    {start pages offset : Nat}
    (regions : Regions w)
    (mapped : Mapped w next m start pages offset flags) :
    Regions next where
  bounded := by
    intro id record live
    rcases mapped.records live with
        ⟨_, before, wasLive, same⟩ | ⟨_, isFresh⟩
    · rw [same.data, same.size]
      exact regions.bounded wasLive
    · exact isFresh.1
  apart := by
    intro id other record after different live otherLive
    rcases mapped.records live with
        ⟨_, before, wasLive, same⟩ | ⟨isNew, isFresh⟩ <;>
      rcases mapped.records otherLive with
        ⟨_, otherBefore, otherWasLive, otherSame⟩ |
          ⟨otherIsNew, otherIsFresh⟩
    · rw [same.data, same.size, otherSame.data, otherSame.size]
      exact regions.apart different wasLive otherWasLive
    · rw [same.data, same.size]
      exact (otherIsFresh.2 wasLive).symm
    · rw [otherSame.data, otherSame.size]
      exact isFresh.2 otherWasLive
    · exact absurd (otherIsNew.trans isNew.symm) different

end GuestKernel
