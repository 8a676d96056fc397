import GuestKernel.HoleSearch
import GuestKernel.MemoryMachine

namespace GuestKernel
open Option

/-!
# Where a mapping without `MAP_FIXED` lands

`do_mmap` maps at a hole it found, or at the page of its hint.  A hint over
mapped pages is recognised, but the search for a hole that should follow is in
the other branch, so the mapping replaces what was there.
-/

/-- Every page mapped before is mapped afterwards by the same entry. -/
def KeepsMappings (w next : World) (m : MmId) : Prop :=
  ∀ {page entry},
    w.lookup m page = some entry → next.lookup m page = some entry

/-- Every page of the range was unmapped before and is mapped now. -/
def NewlyMapped (w next : World) (m : MmId) (first pages : Nat) : Prop :=
  ∀ {page},
    first ≤ page →
    page < first + pages →
    w.lookup m page = none ∧ next.lookup m page ≠ none

/-- The place a non-fixed mapping may take: anywhere, or its free hint. -/
def HintIsFree (w : World) (m : MmId) (args : MmapArgs) : Prop :=
  args.addr = 0 ∨
    ptIsHole (w.mem m) (page args.addr) (pageRoundUp args.len) =
      some true

/-- `mmap` by either system call, given arguments in guest memory. -/
inductive MmapCall
    (host : Host)
    (w : World)
    (m : MmId)
    (args : MmapArgs)
    (anonymous : MapReply)
    (mapping : FileReply) :
    Option (Except Errno Nat × World) → Prop where
  | mmap :
      MmapCall host w m args anonymous mapping
        (sysMmap host w m (some args) anonymous mapping)
  | mmap2 :
      MmapCall host w m args anonymous mapping
        (sysMmap2 host w m args anonymous mapping)

theorem mem_chosenRange
    {chosen len page : Nat}
    (inside : chosen < memPages) :
    page ∈ pageRange chosen (pageRoundUp len) ↔
      chosen ≤ page ∧ page < chosen + pageRoundUp len := by
  have bounded := pageRoundUp_lt len
  rw [mem_pageRange, Nat.mod_eq_of_lt]
  simp only [memPages] at inside bounded
  omega

/-- A mapping stage that succeeds maps exactly the chosen range. -/
theorem mapChosen_spec
    {host : Host}
    {w next : World}
    {m : MmId}
    {chosen pages offset : Nat}
    {prot flags : Flags}
    {file : Option OpenFile}
    {anonymous : MapReply}
    {mapping : FileReply}
    (nonempty : pages ≠ 0)
    (mapped :
      mapChosen host w m chosen pages prot flags file offset anonymous
          mapping =
        some (.ok (), next)) :
    ∃ entryOf : Nat → PtEntry,
      ∀ other page,
        next.lookup other page =
          if other = m ∧ page ∈ pageRange chosen pages then
            some (entryOf page)
          else
            w.lookup other page := by
  obtain ⟨_, _, _, _, _, wasLookup, _, call, sameLookup⟩ :=
    mapChosen_ptMap nonempty mapped
  rcases (ptMap_spec call).2 with ⟨_, failed, _⟩ | ⟨_, lookups⟩
  · cases failed
  · rw [wasLookup] at lookups
    rw [sameLookup]
    exact ⟨_, lookups⟩

/-- Without `MAP_FIXED` the chosen page is a found hole or the hint. -/
theorem choosePage_cases
    {mem : Mem}
    {addr pages chosen : Nat}
    {flags : Flags}
    (notFixed : hasFlag flags mmapFixed = false)
    (choice : choosePage mem addr pages flags = some (.ok chosen)) :
    (addr = 0 ∧ chosen = ptFindHole mem pages ∧
        ptFindHole mem pages ≠ badPage) ∨
      (addr ≠ 0 ∧ chosen = page addr ∧
        ∃ hole, ptIsHole mem (page addr) pages = some hole) := by
  unfold choosePage at choice
  split at choice
  · rename_i hinted
    split at choice
    · cases choice
    · rw [notFixed, if_neg (by decide)] at choice
      obtain ⟨hole, check, finish⟩ := bind_eq_some_iff.mp choice
      cases finish
      exact .inr ⟨hinted, rfl, hole, check⟩
  · rename_i noHint
    simp only at choice
    split at choice
    · cases choice
    · rename_i found
      cases choice
      exact .inl ⟨Decidable.not_not.mp noHint, rfl, found⟩

/--
A non-fixed `mmap` that succeeds keeps every existing mapping and newly maps
its range exactly when it got no hint or a hint that is a hole.
-/
theorem mmap_keeps_mappings_iff_hint_is_free
    {host : Host}
    {w next : World}
    {m : MmId}
    {args : MmapArgs}
    {anonymous : MapReply}
    {mapping : FileReply}
    {addr : Nat}
    {outcome : Option (Except Errno Nat × World)}
    (addrBounded : args.addr < 2 ^ 32)
    (notFixed : hasFlag args.flags mmapFixed = false)
    (call : MmapCall host w m args anonymous mapping outcome)
    (succeeds : outcome = some (.ok addr, next)) :
    (KeepsMappings w next m ∧
        NewlyMapped w next m (page addr) (pageRoundUp args.len)) ↔
      HintIsFree w m args := by
  -- both calls run `mmap_common` with the same address and length
  obtain ⟨common, sameAddr, sameLen, sameFlags, ran⟩ :
      ∃ common : MmapArgs,
        common.addr = args.addr ∧
          common.len = args.len ∧
          common.flags = args.flags ∧
          mmapCommon host w m common anonymous mapping =
            some (.ok addr, next) := by
    cases call with
    | mmap =>
      exact ⟨args, rfl, rfl, rfl, succeeds⟩
    | mmap2 =>
      exact ⟨
        { args with offset := args.offset * pageSize % 2 ^ 32 },
        rfl, rfl, rfl, succeeds⟩
  rcases mmapCommon_cases ran with
      ⟨_, failed, _⟩ | ⟨nonempty, _, chosen, stage, choice, mapped, shape⟩
  · cases failed
  rw [sameAddr, sameLen, sameFlags] at choice
  rw [sameLen] at mapped nonempty
  cases stage with
  | error code =>
    cases shape
  | ok _ =>
  have isAddr : addr = chosen * pageSize := Except.ok.inj shape
  have sameChosen : page addr = chosen := by
    rw [isAddr]
    exact Nat.mul_div_cancel chosen (by decide)
  obtain ⟨entryOf, lookups⟩ := mapChosen_spec nonempty mapped
  have chosenInside : chosen < memPages := by
    rcases choosePage_cases notFixed choice with
        ⟨_, rfl, found⟩ | ⟨_, rfl, _⟩
    · have bounds :=
        (ptFindHole_spec (Nat.pos_of_ne_zero nonempty) found).below
      simp only [memPages]
      omega
    · exact page_lt addrBounded
  have inRange := @mem_chosenRange chosen args.len
  rw [sameChosen]
  -- both sides say that the chosen range was unmapped
  have keepsIff :
      (KeepsMappings w next m ∧
          NewlyMapped w next m chosen (pageRoundUp args.len)) ↔
        ∀ page,
          page ∈ pageRange chosen (pageRoundUp args.len) →
          w.lookup m page = none := by
    constructor
    · rintro ⟨_, newly⟩ page member
      obtain ⟨after, before⟩ := (inRange chosenInside).mp member
      exact (newly after before).1
    · intro unmapped
      refine ⟨?_, ?_⟩
      · intro page entry found
        rw [lookups, if_neg]
        · exact found
        · rintro ⟨_, member⟩
          rw [unmapped page member] at found
          cases found
      · intro page after before
        have member := (inRange chosenInside).mpr ⟨after, before⟩
        refine ⟨unmapped page member, ?_⟩
        rw [lookups, if_pos ⟨rfl, member⟩]
        exact some_ne_none _
  rw [keepsIff]
  rcases choosePage_cases notFixed choice with
      ⟨noHint, rfl, found⟩ | ⟨hinted, rfl, hole, check⟩
  · refine iff_of_true ?_ (.inl noHint)
    intro page member
    obtain ⟨after, before⟩ := (inRange chosenInside).mp member
    exact (ptFindHole_spec (Nat.pos_of_ne_zero nonempty) found).unmapped page
      after before
  · constructor
    · intro unmapped
      refine .inr ?_
      cases hole with
      | true =>
        exact check
      | false =>
        obtain ⟨page, member, _, occupied⟩ := ptIsHole_false check
        exact absurd (unmapped page member) occupied
    · rintro (noHint | isHole) page member
      · exact absurd noHint hinted
      · exact (ptIsHole_true.mp isHole page member).2

/-- In a new address space the hinted page is free, and is mapped. -/
theorem mmap_keeps_mappings_of_new_space :
    ∃ next,
      sysMmap2 plainHost (mmNew World.empty) 0 hintedArgs
          (grantMemory 8192) noFile =
        some (.ok 0x50000000, next) ∧
        KeepsMappings (mmNew World.empty) next 0 ∧
        NewlyMapped (mmNew World.empty) next 0 0x50000 1 := by
  have evaluated :
      (sysMmap2 plainHost (mmNew World.empty) 0 hintedArgs
        (grantMemory 8192) noFile).map Prod.fst =
          some (.ok 0x50000000) := by
    rfl
  obtain ⟨⟨result, next⟩, call, shape⟩ :=
    map_eq_some_iff.mp evaluated
  cases shape
  refine ⟨next, call, ?_⟩
  exact (mmap_keeps_mappings_iff_hint_is_free (by decide) (by decide)
    .mmap2 call).mpr (.inr (by rfl))

/-- Asking for the same page twice replaces the first mapping. -/
theorem mmap_replaces_hinted_page :
    ∃ w next,
      (memoryMachine plainHost).Reachable w ∧
        sysMmap2 plainHost w 0 hintedArgs (grantMemory 16384) noFile =
          some (.ok 0x50000000, next) ∧
          ¬ KeepsMappings w next 0 := by
  obtain ⟨result, w, record, call, one⟩ := exists_onePage
  have steps := onePage_steps call
  have reachable : (memoryMachine plainHost).Reachable w :=
    .step (.step (.initial rfl) steps.1) steps.2
  have found := one.found
  have live := one.live
  have nextData := one.nextData
  -- the page is found mapped, and mapped over all the same
  have occupied : ptIsHole (w.mem 0) 0x50000 1 = some false := by
    have isMapped : memPt (w.mem 0) 0x50000 = some (some ⟨0, 0, 0x43⟩) :=
      memPt_eq_some.mpr ⟨by decide, found⟩
    rw [ptIsHole, pageRange_one (by decide)]
    simp [isHoleLoop, isMapped]
  have inside : 0x50000 < memPages := by decide
  obtain ⟨next, round, _⟩ :=
    ptMapPage_isSome plainHost 0 w.nextData 0x50000 0 0x43
      (w := (w.fillBytes 16384 4096 fun _ => 0).newData 16384 0x50000 1 0)
      inside (Function.update_self ..)
      (by
        intro entry isEntry
        cases found.symm.trans isEntry
        have isOther : (0 : Nat) ≠ w.nextData := by
          rw [nextData]
          decide
        exact ⟨isOther, record,
          (Function.update_of_ne isOther _ _).trans live⟩)
  have secondCall :
      sysMmap2 plainHost w 0 hintedArgs (grantMemory 16384) noFile =
        some (.ok 0x50000000, next) := by
    have mapped :
        mapChosen plainHost w 0 0x50000 1 0x3 0x22 none 0
            (grantMemory 16384) noFile =
          some (.ok (), next) := by
      show ptMap plainHost (w.fillBytes 16384 4096 fun _ => 0) 0 0x50000 1
        (grantMemory 16384) 0 0x43 = _
      simp only [ptMap, grantMemory, pageRange_one (show 0x50000 < memPages
        by decide), List.foldlM_cons, List.foldlM_nil]
      rw [if_pos (.inl (by decide))]
      rw [show (w.fillBytes 16384 4096 fun _ => 0).nextData = w.nextData
        from rfl, round]
      rfl
    have choice :
        choosePage (w.mem 0) 0x50000000 1 0x22 =
          some (.ok 0x50000) := by
      show (ptIsHole (w.mem 0) 0x50000 1).bind _ = _
      rw [occupied]
      rfl
    have onePage : pageRoundUp 4096 = 1 := by decide
    have flags : (mmapPrivate ||| mmapAnonymous : Flags) = 0x22 := by
      decide
    have prot : (pRead ||| pWrite : Flags) = 0x3 := by decide
    have notShared : hasFlag 0x22 mmapShared = false := by decide
    unfold sysMmap2 mmapCommon doMmap mappingFlags
    simp only [hintedArgs, onePage, flags, prot, notShared, if_false,
      Bool.false_eq_true, and_false, choice, mapped, Nat.zero_mul,
      Nat.zero_mod, bind_eq_bind, bind_some]
    rfl
  refine ⟨w, next, reachable, secondCall, ?_⟩
  intro keeps
  have replaced := keeps found
  rw [(ptMapPage_spec round).2.2, if_pos ⟨rfl, rfl⟩, nextData] at replaced
  cases replaced

end GuestKernel
