import GuestKernel.HeapRangeSpecs

namespace GuestKernel
open List Option

/-!
# When a mapping call keeps to its range

A call that ends has met pages of the directory only: the C code would index
past `pgdir` at any other.  The conditions of the five calls stand in one place.
-/

namespace RangeCall

variable
  {host : Host}
  {w next : World}
  {m : MmId}
  {start pages other : Nat}
  {flags : Flags}
  {args : MmapArgs}
  {reply anonymous : MapReply}
  {mapping : FileReply}
  {call : RangeCall}
  {result : Except Errno Unit}
  {answer : Except Errno Nat × World}

/-- `pt_unmap_always` that ends met pages of the directory only. -/
theorem ptUnmapAlways_inside
    (unmapped : ptUnmapAlways host w m start pages = some next) :
    ∀ other ∈ unmapPages (w.mem m) start pages, other < memPages := by
  obtain ⟨_, loop, _⟩ := bind_eq_some_iff.mp unmapped
  refine Loop.foldlM_prefix
    (motive := fun done _ => ∀ other ∈ done, other < memPages)
    ?_ (by simp) loop
  intro done page later state after _ inside round other member
  rcases mem_append.mp member with earlier | isPage
  · exact inside other earlier
  · rw [mem_singleton.mp isPage]
    exact (unmapPage_cases round).1

/-- So did `pt_map`, in its loop. -/
theorem ptMap_inside
    {offset : Nat}
    (mapped :
      ptMap host w m start pages reply offset flags =
        some (result, next)) :
    ∀ other ∈ mapPages host reply start pages, other < memPages := by
  intro other member
  unfold mapPages at member
  split at member
  · rename_i grants
    obtain ⟨malloc, memory, replied, aligned⟩ := grants
    unfold ptMap at mapped
    simp only [replied, if_pos aligned, if_pos malloc] at mapped
    obtain ⟨_, loop, _⟩ := bind_eq_some_iff.mp mapped
    exact mapLoop_inside loop other member
  · cases member

theorem ptMapNothing_inside
    (mapped :
      ptMapNothing host w m start pages reply flags =
        some (result, next))
    (nonempty : pages ≠ 0) :
    ∀ other ∈ mapPages host reply start pages, other < memPages := by
  unfold ptMapNothing at mapped
  rw [if_neg nonempty] at mapped
  exact ptMap_inside mapped

/-- And the mapping stage of `mmap`. -/
theorem mapChosen_inside
    (nonempty : pages ≠ 0)
    (mapped :
      mapChosen host w m start pages flags args.flags args.file args.offset
          anonymous mapping =
        some (result, next))
    (asked : mmapReply args anonymous mapping = some reply) :
    ∀ other ∈ mapPages host reply start pages, other < memPages := by
  unfold mapChosen at mapped
  unfold mmapReply at asked
  split at asked
  · rename_i isAnonymous
    cases asked
    rw [if_pos isAnonymous] at mapped
    exact ptMapNothing_inside mapped nonempty
  · rename_i isFile
    rw [if_neg isFile] at mapped
    split at asked
    · cases asked
    · rename_i file found
      split at asked
      · rename_i canMap
        cases asked
        simp only [found, if_pos canMap] at mapped
        obtain ⟨⟨_, _⟩, call, _⟩ := bind_eq_some_iff.mp mapped
        exact ptMap_inside call
      · cases asked

theorem mmap_inside
    (checked : (mmap args anonymous mapping).PastChecks w m)
    (ran : (mmap args anonymous mapping).run host w m = some answer) :
    ∀ other ∈ (mmap args anonymous mapping).pages host w m,
      other < memPages := by
  obtain ⟨nonempty, protection, notBoth, rounded, aligned⟩ := checked
  simp only [run, mmapCommon, nonempty, protection, notBoth, if_false,
    Bool.false_eq_true, doMmap, rounded] at ran
  obtain ⟨choice, chose, ran⟩ := bind_eq_some_iff.mp ran
  have mappedInside :
      ∀ chosen reply,
        choice = .ok chosen →
        mmapReply args anonymous mapping = some reply →
        ∀ other ∈ mapPages host reply chosen (pageRoundUp args.len),
          other < memPages := by
    rintro chosen reply rfl asked
    obtain ⟨⟨_, _⟩, mapped, _⟩ := bind_eq_some_iff.mp ran
    exact mapChosen_inside rounded mapped asked
  simp only [choosePage, aligned, ne_eq, ite_not, if_true] at chose
  simp only [pages]
  split
  · rename_i noHint
    rw [if_pos noHint] at chose
    rw [forall_mem_append]
    refine ⟨searchedPages_inside, ?_⟩
    split
    · simp
    · rename_i found
      rw [if_neg found] at chose
      split
      · simp
      · exact mappedInside _ _ (some.inj chose).symm ‹_›
  · rename_i hinted
    rw [if_neg hinted] at chose
    rw [forall_mem_append]
    split
    · rename_i isFixed
      rw [if_pos isFixed] at chose
      refine ⟨by simp, ?_⟩
      split
      · simp
      · exact mappedInside _ _ (some.inj chose).symm ‹_›
    · rename_i notFixed
      rw [if_neg notFixed] at chose
      obtain ⟨hole, check, chose⟩ := bind_eq_some_iff.mp chose
      refine ⟨isHoleLoop_isSome.mp ⟨hole, check⟩, ?_⟩
      split
      · simp
      · exact mappedInside _ _ (some.inj chose).symm ‹_›

theorem mremap_inside
    {addr oldLen newLen : Nat}
    (words : (mremap addr oldLen newLen flags reply).Words w m)
    (checked : (mremap addr oldLen newLen flags reply).PastChecks w m)
    (ran : (mremap addr oldLen newLen flags reply).run host w m = some answer) :
    ∀ other ∈ (mremap addr oldLen newLen flags reply).pages host w m,
      other < memPages := by
  have startBelow := page_lt words.1
  have oldBelow := page_lt words.2.1
  simp only [memPages] at startBelow oldBelow
  obtain ⟨_, call, _⟩ := map_eq_some_iff.mp ran
  simp only [pages]
  split
  · rename_i shrinks
    rw [sysMremap_shrink checked shrinks, Nat.mod_eq_of_lt (by omega)] at call
    obtain ⟨_, unmapped, _⟩ := map_eq_some_iff.mp call
    obtain ⟨mapped, check, unmapped⟩ := bind_eq_some_iff.mp unmapped
    unfold ptUnmapPages
    simp only [mem_append]
    rintro other (looked | walked)
    · exact allMapped_isSome.mp ⟨mapped, check⟩ other looked
    · rw [check] at walked
      cases mapped with
      | false => cases walked
      | true =>
        obtain ⟨_, walk, _⟩ := bind_eq_some_iff.mp unmapped
        exact ptUnmapAlways_inside walk other walked
  · rename_i grows
    rw [sysMremap_grow checked (Nat.not_le.mp grows)] at call
    obtain ⟨found, lookedUp, call⟩ := bind_eq_some_iff.mp call
    obtain ⟨inside, isEntry⟩ := memPt_eq_some.mp lookedUp
    rw [forall_mem_cons]
    refine ⟨inside, ?_⟩
    rw [World.lookup, isEntry]
    cases found with
    | none => simp
    | some entry =>
      obtain ⟨mapped, check, call⟩ := bind_eq_some_iff.mp call
      dsimp only
      rw [forall_mem_append]
      refine ⟨allMapped_isSome.mp ⟨mapped, check⟩, ?_⟩
      cases mapped with
      | false => simp [check]
      | true =>
        split
        · simp
        · rename_i goesOn
          rw [not_or] at goesOn
          rw [if_neg goesOn.2] at call
          obtain ⟨hole, holeCheck, call⟩ := bind_eq_some_iff.mp call
          rw [Nat.mod_eq_of_lt (by omega)] at holeCheck call
          rw [forall_mem_append]
          refine ⟨isHoleLoop_isSome.mp ⟨hole, holeCheck⟩, ?_⟩
          cases hole with
          | false => simp [holeCheck]
          | true =>
            rw [if_pos holeCheck]
            exact ptMapNothing_inside call (by omega)

theorem brk_inside
    {newBrk : Nat}
    (words : (brk newBrk reply).Words w m)
    (checked : (brk newBrk reply).PastChecks w m)
    (ran : (brk newBrk reply).run host w m = some answer) :
    ∀ other ∈ (brk newBrk reply).pages host w m, other < memPages := by
  obtain ⟨_, call, _⟩ := map_eq_some_iff.mp ran
  simp only [sysBrk, Nat.not_lt.mpr checked, if_false] at call
  simp only [pages]
  split
  · rename_i grows
    rw [if_pos grows] at call
    obtain ⟨hole, check, call⟩ := bind_eq_some_iff.mp call
    simp only [mem_append]
    rintro other (looked | mapped)
    · exact isHoleLoop_isSome.mp ⟨hole, check⟩ other looked
    · split at mapped
      · rename_i free
        rw [free.1] at check
        cases check
        obtain ⟨⟨_, _⟩, map, _⟩ := bind_eq_some_iff.mp call
        exact ptMapNothing_inside map free.2 other mapped
      · cases mapped
  · rename_i notGrows
    rw [if_neg notGrows] at call
    split at call
    · obtain ⟨_, unmapped, _⟩ := bind_eq_some_iff.mp call
      exact ptUnmapAlways_inside unmapped
    · rename_i same
      have isSame : newBrk = (w.mm m).brk := by omega
      have startBelow := page_lt words.1
      simp only [memPages] at startBelow
      rw [isSame, Nat.sub_self, unmapPages, memWalk, if_neg (by omega)]
      simp

/-- A call that ends passed `mem_pt` pages of the directory only. -/
theorem run_inside
    (words : call.Words w m)
    (checked : call.PastChecks w m)
    (ran : call.run host w m = some answer) :
    ∀ other ∈ call.pages host w m, other < memPages := by
  cases call with
  | mmap args anonymous mapping =>
    exact mmap_inside checked ran
  | munmap addr len =>
    rw [munmap_run host checked] at ran
    obtain ⟨_, unmapped, _⟩ := map_eq_some_iff.mp ran
    exact ptUnmapAlways_inside unmapped
  | mprotect addr len prot hostMprotect =>
    rw [mprotect_run host checked] at ran
    obtain ⟨_, changed, _⟩ := map_eq_some_iff.mp ran
    obtain ⟨mapped, check, _⟩ := bind_eq_some_iff.mp changed
    exact allMapped_isSome.mp ⟨mapped, check⟩
  | mremap addr oldLen newLen flags reply =>
    exact mremap_inside words checked ran
  | brk newBrk reply =>
    exact brk_inside words checked ran

/--
A call is stuck at a page outside the directory, where the C code indexes past
the end of `pgdir`.
-/
theorem run_stuck
    (words : call.Words w m)
    (checked : call.PastChecks w m)
    (looked : other ∈ call.pages host w m)
    (outside : memPages ≤ other) :
    call.run host w m = none := by
  refine eq_none_iff_forall_ne_some.mpr fun answer ran => ?_
  exact absurd (run_inside words checked ran other looked)
    (Nat.not_lt.mpr outside)

/-- The exact condition under which a call keeps to its range. -/
def InBounds (host : Host) (w : World) (m : MmId) : RangeCall → Prop
  | mmap args anonymous mapping =>
    args.addr = 0 ∨ RangeFits args.addr args.len ∨
      ¬MmapMaps host args anonymous mapping ∧
        (hasFlag args.flags mmapFixed = true ∨
          ∃ other,
            page args.addr ≤ other ∧ other < memPages ∧
              w.lookup m other ≠ none)
  | munmap addr len => RangeFits addr len
  | mprotect addr len _ _ =>
    ceilPages len * pageSize < 2 ^ 32 ∧
      (RangeFits addr len ∨
        ∃ other,
          page addr ≤ other ∧ other < memPages ∧
            w.lookup m other = none)
  | mremap addr oldLen newLen _ reply =>
    if page newLen ≤ page oldLen then
      MremapShrinks w m addr oldLen newLen
    else
      MremapGrows host w m addr oldLen newLen reply
  | brk newBrk reply =>
    ((w.mm m).brk < newBrk →
        BrkGrows host (w.mm m).brk newBrk reply) ∧
      (newBrk < (w.mm m).brk → BrkShrinks w m (w.mm m).brk newBrk)

/--
A call that gets past its checks stays in the directory and covers its range
whenever it succeeds exactly under that condition.
-/
theorem keepsToRange_iff_inBounds
    (accounted : Accounted w)
    (notWrapped : w.wrapped = false)
    (words : call.Words w m)
    (checked : call.PastChecks w m) :
    call.KeepsToRange host w m ↔ call.InBounds host w m := by
  cases call with
  | mmap args anonymous mapping => exact mmap_keepsToRange words checked
  | munmap addr len =>
    exact munmap_keepsToRange accounted notWrapped words checked
  | mprotect addr len prot hostMprotect =>
    exact mprotect_keepsToRange words checked
  | mremap addr oldLen newLen flags reply =>
    simp only [InBounds]
    split
    · rename_i shrinks
      exact mremap_keepsToRange_shrink accounted notWrapped words checked
        shrinks
    · rename_i grows
      exact mremap_keepsToRange_grow words checked (Nat.not_le.mp grows)
  | brk newBrk reply =>
    exact brk_keepsToRange accounted notWrapped words checked

/-- Unmapping the only page of an address space keeps to its range. -/
theorem munmap_of_one_page_inBounds :
    ∃ w : World,
      (w.lookup 0 0x50000).isSome ∧
        (munmap 0x50000000 0x1000).KeepsToRange plainHost w 0 := by
  obtain ⟨_, w, record, call, one⟩ := exists_onePage
  have steps := onePage_steps call
  refine ⟨w, by rw [one.found]; rfl, ?_⟩
  exact (@keepsToRange_iff_inBounds _ _ _ (munmap 0x50000000 0x1000)
    (.memoryReachable (.step (.step (.initial rfl) steps.1) steps.2))
    one.notWrapped ⟨by decide, by decide⟩ ⟨by decide, by decide⟩).mpr
      ⟨by decide, by decide⟩

/-- A `munmap` whose rounded length wraps succeeds and unmaps nothing. -/
theorem munmap_of_wrapped_length :
    ∃ w next,
      (munmap 0x50000000 0xfffff001).Words w 0 ∧
        (munmap 0x50000000 0xfffff001).PastChecks w 0 ∧
        (munmap 0x50000000 0xfffff001).run plainHost w 0 =
            some (.ok 0, next) ∧
          (next.lookup 0 0x50000).isSome ∧
            ¬(munmap 0x50000000 0xfffff001).KeepsToRange plainHost w 0 := by
  obtain ⟨_, w, record, _, one⟩ := exists_onePage
  have checked : (munmap 0x50000000 0xfffff001).PastChecks w 0 :=
    ⟨by decide, by decide⟩
  have noPages : memWalk (w.mem 0) 0x50000 0x50000 = [] := by
    rw [memWalk, if_neg (Nat.lt_irrefl _)]
  have unmapped :
      ptUnmapAlways plainHost w 0 (page 0x50000000)
        (pageRoundUp 0xfffff001) = some (w.memChanged 0) := by
    rw [show page 0x50000000 = 0x50000 from rfl,
      show pageRoundUp 0xfffff001 = 0 from rfl]
    unfold ptUnmapAlways
    rw [show (0x50000 + 0) % 2 ^ 32 = 0x50000 from rfl, noPages]
    rfl
  have ran :
      (munmap 0x50000000 0xfffff001).run plainHost w 0 =
        some (.ok 0, w.memChanged 0) := by
    rw [munmap_run plainHost checked, unmapped]
    rfl
  refine ⟨w, w.memChanged 0, ⟨by decide, by decide⟩, checked, ran, ?_, ?_⟩
  · rw [World.lookup_memChanged, one.found]
    rfl
  · intro keeps
    have fits := (keeps.covers ran).1.1
    exact absurd fits (by decide)

end RangeCall

end GuestKernel
