import GuestKernel.HostProtection

namespace GuestKernel
open Option Function
open World MapReply

/-!
# Writable pages are writable on the host

Every step but `mprotect` gives write access only to bytes that some page could
write before, or to a new region that the host maps with write permission.  An
`mprotect` keeps the rule under a condition on the host pages below the pages
it rewrites, and breaks it otherwise.
-/

/-- Write access was there before, or the host grants it. -/
def Covered
    (host : Host) (writable : Nat → Bool) (w next : World) : Prop :=
  ∀ m page hostPage,
    WritesTo host next m page hostPage →
    (∃ other otherPage, WritesTo host w other otherPage hostPage) ∨
      writable hostPage = true

namespace Covered

variable {host : Host} {writable : Nat → Bool} {w next : World} {m : MmId}

theorem refl (w : World) : Covered host writable w w :=
  fun m page _ writes => .inl ⟨m, page, writes⟩

theorem trans
    {middle : World}
    (first : Covered host writable w middle)
    (second : Covered host writable middle next) :
    Covered host writable w next := by
  intro m page hostPage writes
  rcases second m page hostPage writes with ⟨other, otherPage, before⟩ | granted
  · exact first other otherPage hostPage before
  · exact .inr granted

section

variable
  (kept :
    ∀ {id record},
      next.data id = some record →
      ∃ before, w.data id = some before ∧ before.SameMemory record)
include kept

/-- Entries with the same bytes and no more write access. -/
theorem of_origin
    (origin :
      ∀ {m page entry},
        next.lookup m page = some entry → pWritable entry.flags = true →
        ∃ other before,
          w.lookup other page = some before ∧
            before.data = entry.data ∧ before.offset = entry.offset ∧
            pWritable before.flags = true) :
    Covered host writable w next := by
  rintro m page hostPage ⟨entry, record, index, found, writes, live, below, isAt⟩
  obtain ⟨other, before, wasFound, sameData, sameOffset, wrote⟩ :=
    origin found writes
  obtain ⟨backing, wasLive, same⟩ := kept live
  refine .inl ⟨other, page, before, backing, index, wasFound, wrote,
    sameData ▸ wasLive, below, ?_⟩
  rw [← isAt, hostPageOf, hostPageOf, same.data, sameOffset]

theorem of_fewer
    (fewer :
      ∀ {m page entry},
        next.lookup m page = some entry → w.lookup m page = some entry) :
    Covered host writable w next :=
  of_origin kept fun found writes =>
    ⟨_, _, fewer found, rfl, rfl, writes⟩

end

theorem fillBytes
    (w : World)
    (memory length : Nat)
    (content : Nat → UInt8) :
    Covered host writable w (w.fillBytes memory length content) :=
  of_fewer (fun live => ⟨_, live, .refl _⟩) id

variable {start pages offset : Nat} {flags : Flags} {result : Except Errno Unit}

theorem ptUnmapAlways
    (accounted : Accounted w)
    (always : GuestKernel.ptUnmapAlways host w m start pages = some next) :
    Covered host writable w next := by
  obtain ⟨frame, sameNext, _, lookups⟩ := ptUnmapAlways_spec always
  refine of_fewer (fun live => frame.toRecords.sameMemory
    (accounted.ptUnmapAlways always) sameNext live) ?_
  intro other page entry found
  rw [lookups] at found
  split at found
  · cases found
  · exact found

theorem attachFile
    {page : Nat}
    {fd : FdId}
    (attached : w.attachFile m page fd offset = some next) :
    Covered host writable w next := by
  obtain ⟨entry, record, _, live, rfl⟩ :=
    attachFile_eq_some.mp attached
  refine of_fewer ?_ id
  intro id after isLive
  rcases eq_some_of_update isLive with ⟨rfl, rfl⟩ | ⟨_, wasLive⟩
  · exact ⟨record, live, rfl, rfl⟩
  · exact ⟨after, wasLive, .refl _⟩

theorem setBrks
    (w : World)
    (m : MmId)
    (startBrk brk : Nat) :
    Covered host writable w (w.setBrks m startBrk brk) := by
  refine of_fewer (fun live => ⟨_, live, .refl _⟩) ?_
  intro other page entry found
  by_cases same : other = m
  · subst other
    simpa [World.lookup, mem, World.setBrks] using found
  · simpa [World.lookup, mem, World.setBrks,
      update_of_ne same] using found

theorem addMm
    (w : World)
    (startBrk brk : Nat) :
    Covered host writable w (w.addMm startBrk brk) := by
  refine of_fewer (fun live => ⟨_, live, .refl _⟩) ?_
  intro other page entry found
  by_cases same : other = w.mmCount
  · subst other
    simp [World.lookup, mem, World.addMm] at found
  · simpa [World.lookup, mem, World.addMm,
      update_of_ne same] using found

/-- `pt_copy_on_write` into another address space grants nothing. -/
theorem ptCopyOnWrite
    {dst : MmId}
    (accounted : Accounted w)
    (different : m ≠ dst)
    (dstInMm : dst < w.mmCount)
    (copied : GuestKernel.ptCopyOnWrite host w m dst start pages = some next) :
    Covered host writable w next := by
  obtain ⟨frame, sameNext, lookups⟩ := ptCopyOnWrite_spec copied
  refine of_origin (fun live => frame.toRecords.sameMemory
    (accounted.ptCopyOnWrite different dstInMm copied) sameNext live) ?_
  intro other page entry found writes
  rw [lookups] at found
  split at found
  · obtain ⟨before, wasFound, rfl⟩ := map_eq_some_iff.mp found
    exact ⟨m, before, wasFound, rfl, rfl, pWritable_of_cowFlags writes⟩
  · exact ⟨other, entry, found, rfl, rfl, writes⟩

theorem memDestroy
    (accounted : Accounted w)
    (destroyed : GuestKernel.memDestroy host w m = some next) :
    Covered host writable w next := by
  obtain ⟨state, always, finish⟩ := bind_eq_some_iff.mp destroyed
  cases finish
  refine (ptUnmapAlways accounted always).trans
    (of_fewer (fun live => ⟨_, live, .refl _⟩) ?_)
  intro other page entry found
  by_cases same : other = m
  · subst other
    rw [lookup_setMem_same, Mem.lookup_freed] at found
    cases found
  · simpa [World.lookup, mem_setMem_other state same] using found

section

variable
  (accounted : Accounted w)
  (inMm : m < w.mmCount)
  (notWrapped : next.wrapped = false)
include accounted inMm notWrapped

theorem ptMap
    {reply : MapReply}
    (bounded :
      ∀ {memory}, reply.memory = .ok memory →
        memory + (pages * pageSize % 2 ^ 32 + offset) ≤ 2 ^ 64)
    (granted :
      pWritable flags = true →
        ∀ {memory}, reply.memory = .ok memory →
        ∀ address, memory ≤ address →
        address < memory + (pages * pageSize % 2 ^ 32 + offset) →
        writable (address / host.realPageSize) = true)
    (mapped :
      GuestKernel.ptMap host w m start pages reply offset flags =
        some (result, next)) :
    Covered host writable w next := by
  have accountedNext := accounted.ptMap inMm mapped
  rcases (ptMap_spec mapped).2 with ⟨_, _, rfl⟩ | ⟨_, lookups⟩
  · exact refl _
  rintro other page hostPage
    ⟨entry, record, index, found, writes, live, below, isAt⟩
  have records := ptMap_records mapped (accountedNext.numbered live) live
  have isEntry := lookups other page
  rw [found] at isEntry
  split at isEntry
  case isTrue =>
    cases isEntry
    rcases records with ⟨_, allocated, _⟩ | ⟨_, replied, size⟩
    · exact absurd allocated (Nat.lt_irrefl _)
    obtain ⟨backing, isBacking, fits⟩ :=
      (accountedNext.sound notWrapped).backed found
    cases live.symm.trans isBacking
    have bound := bounded replied
    rw [size] at fits
    refine .inr ?_
    rw [← isAt, hostPageOf, Nat.mod_eq_of_lt (by omega)]
    exact granted writes replied _ (by omega) (by omega)
  case isFalse =>
    have wasFound := isEntry.symm
    rcases records with ⟨before, _, wasLive, same⟩ | ⟨isNew, _⟩
    · refine .inl ⟨other, page, entry, before, index, wasFound, writes,
        wasLive, below, ?_⟩
      rw [← isAt, hostPageOf, hostPageOf, same.sameMemory.data]
    · exact absurd isNew (Nat.ne_of_lt (accounted.allocated wasFound))

theorem ptMapNothing
    {reply : MapReply}
    (bounded :
      ∀ {memory}, reply.memory = .ok memory →
        memory + pages * pageSize % 2 ^ 32 ≤ 2 ^ 64)
    (granted :
      ∀ {memory}, reply.memory = .ok memory →
        ∀ address, memory ≤ address →
        address < memory + pages * pageSize % 2 ^ 32 →
        writable (address / host.realPageSize) = true)
    (mapped :
      GuestKernel.ptMapNothing host w m start pages reply flags =
        some (result, next)) :
    Covered host writable w next := by
  rcases ptMapNothing_cases mapped with
    ⟨_, rfl⟩ | ⟨_, rfl | ⟨memory, replied, rfl⟩, call⟩
  · exact refl _
  · exact ptMap accounted inMm notWrapped bounded (fun _ => granted) call
  · exact (fillBytes w memory _ _).trans
      (ptMap (accounted.fillBytes ..) inMm notWrapped bounded
        (fun _ => granted) call)

/-- A file mapping grants its region if the file is mapped for writing. -/
theorem fileMap
    {reply : FileReply}
    (bounded :
      ∀ {memory}, reply.map.memory = .ok memory →
        memory + (pages * pageSize % 2 ^ 32 + offset) ≤ 2 ^ 64)
    (granted :
      pWritable flags = true →
        ∀ {memory}, reply.map.memory = .ok memory →
        ∀ address, memory ≤ address →
        address < memory + (pages * pageSize % 2 ^ 32 + offset) →
        writable (address / host.realPageSize) = true)
    (mapped :
      GuestKernel.ptMap host
          (reply.fill w (pages * pageSize % 2 ^ 32 + offset)) m start pages
          reply.map offset flags =
        some (result, next)) :
    Covered host writable w next := by
  unfold FileReply.fill at mapped
  split at mapped
  · exact ptMap accounted inMm notWrapped bounded granted mapped
  case h_2 memory replied =>
    exact (fillBytes w memory _ _).trans
      (ptMap (accounted.fillBytes ..) inMm notWrapped bounded granted mapped)

end

end Covered

section

variable {host : Host} {reply : MapReply} {length : Nat} {canWrite : Bool}
  {writable : Nat → Bool}

theorem MapReply.grant_inside
    {memory address : Nat}
    (replied : reply.memory = .ok memory)
    (isAfter : memory ≤ address)
    (isBefore : address < memory + length) :
    reply.grant host length canWrite writable (address / host.realPageSize) =
      canWrite := by
  unfold MapReply.grant
  rw [replied]
  refine if_pos ⟨Nat.div_le_div_right isAfter, ?_⟩
  exact Nat.lt_of_le_of_lt (Nat.div_mul_le_self ..) isBefore

theorem MapReply.grant_of_writable
    {hostPage : Nat}
    (wasWritable : writable hostPage = true) :
    reply.grant host length true writable hostPage = true := by
  unfold MapReply.grant
  cases reply.memory with
  | error code => exact wasWritable
  | ok memory =>
    dsimp only
    split
    · rfl
    · exact wasWritable

/-- A region apart from live data leaves the access to live data. -/
theorem MapReply.grant_of_spared
    {w : World}
    {m : MmId}
    {page hostPage : Nat}
    (accounted : Accounted w)
    (notWrapped : w.wrapped = false)
    (spares : reply.SparesPages host w length)
    (writes : WritesTo host w m page hostPage) :
    reply.grant host length canWrite writable hostPage =
      writable hostPage := by
  obtain ⟨entry, record, index, found, _, live, below, rfl⟩ := writes
  obtain ⟨backing, isBacking, fits⟩ :=
    (accounted.sound notWrapped).backed found
  cases live.symm.trans isBacking
  unfold MapReply.grant
  cases replied : reply.memory with
  | error code => rfl
  | ok memory =>
    refine if_neg (spares replied live _ ?_ ?_)
    · omega
    · omega

end

variable {host : Host} {m : MmId} {state : HostedWorld} {w next : World}
  {prot : Flags} {result : Except Errno Unit} {action : MemoryAction}
  {writable : Nat → Bool} {anonymous : MapReply} {mapping : FileReply}
  {hostMprotect : Nat → Except Errno Unit}

/-- Resolving a fault grants the new pages. -/
theorem Covered.memResolveFault
    {faulting : Nat}
    {type : Access}
    {ptraceCopy : Bool}
    {grow copy : MapReply}
    (accounted : Accounted w)
    (inMm : m < w.mmCount)
    (notWrapped : next.wrapped = false)
    (freshGrow : grow.Fresh w pageSize)
    (freshCopy : copy.Fresh w pageSize)
    (resolved :
      GuestKernel.memResolveFault host w m faulting type ptraceCopy grow
          copy =
        some (result, next)) :
    Covered host
      (copy.grant host pageSize true (grow.grant host pageSize true writable))
      w next := by
  have onePage : 1 * pageSize % 2 ^ 32 = pageSize := by
    simp [pageSize]
  obtain ⟨grown, middle, growth, rest⟩ := memResolveFault_cases resolved
  have unwrapped : middle.wrapped = false := by
    rcases rest with rfl | rest
    · exact notWrapped
    rcases resolveWrite_cases rest with rfl | ⟨_, _, _, _, _, _, copied⟩
    · exact notWrapped
    · exact (ptMap_spec copied).1.unwrapped notWrapped
  have grew :
      Accounted middle ∧ m < middle.mmCount ∧
        Covered host
          (copy.grant host pageSize true
            (grow.grant host pageSize true writable)) w middle := by
    rcases (growStack_cases growth).2 with rfl | ⟨_, mapped⟩
    · exact ⟨accounted, inMm, .refl _⟩
    refine ⟨accounted.ptMapNothing inMm mapped,
      (ptMapNothing_records mapped).mmCount ▸ inMm,
      .ptMapNothing accounted inMm unwrapped ?_ ?_ mapped⟩
    · intro memory replied
      rw [onePage]
      exact (freshGrow replied).1
    · intro memory replied address isAfter isBefore
      rw [onePage] at isBefore
      exact grant_of_writable
        (grant_inside replied isAfter isBefore)
  obtain ⟨accountedMiddle, inMiddle, covered⟩ := grew
  rcases rest with rfl | rest
  · exact covered
  rcases resolveWrite_cases rest with
    rfl | ⟨entry, record, memory, _, _, _, copied⟩
  · exact covered
  refine covered.trans ((Covered.fillBytes middle memory _ _).trans
    (.ptMap (accountedMiddle.fillBytes ..) inMiddle notWrapped ?_ ?_ copied))
  · intro memory replied
    rw [onePage]
    exact (freshCopy replied).1
  · intro _ memory replied address isAfter isBefore
    rw [onePage] at isBefore
    exact grant_inside replied isAfter isBefore

theorem hasFlag_write_of_pWritable
    {flags : Flags}
    (writes : pWritable flags = true) :
    hasFlag flags pWrite = true :=
  (Bool.and_eq_true_iff.mp writes).1

theorem hasFlag_write_mappingFlags
    (args : MmapArgs) :
    hasFlag (mappingFlags args) pWrite = hasFlag args.prot pWrite := by
  unfold mappingFlags
  split
  · rw [hasFlag_or, show hasFlag pShared pWrite = false by decide,
      Bool.or_false]
  · rfl

/-- The mapping stage of `do_mmap` for a file. -/
theorem mapChosen_file_cases
    {chosen pages offset : Nat}
    {flags : Flags}
    {file : Option OpenFile}
    (isFile : hasFlag flags mmapAnonymous = false)
    (mapped :
      mapChosen host w m chosen pages prot flags file offset anonymous
          mapping =
        some (result, next)) :
    next = w ∨
      ∃ stage middle,
        realfsMmap host w m chosen pages offset prot mapping =
            some (stage, middle) ∧
          (next = middle ∨
            ∃ fd, middle.attachFile m chosen fd offset = some next) := by
  unfold mapChosen at mapped
  rw [isFile, if_neg Bool.false_ne_true] at mapped
  split at mapped
  · cases mapped
    exact .inl rfl
  · split at mapped
    · obtain ⟨⟨stage, middle⟩, call, rest⟩ :=
        bind_eq_some_iff.mp mapped
      cases stage with
      | error code =>
        cases rest
        exact .inr ⟨_, _, call, .inl rfl⟩
      | ok _ =>
        obtain ⟨attached, attach, finish⟩ :=
          bind_eq_some_iff.mp rest
        cases finish
        exact .inr ⟨_, _, call, .inr ⟨_, attach⟩⟩
    · cases mapped
      exact .inl rfl

/-- `mmap` grants the region that the host maps. -/
theorem Covered.mmapCommon
    {args : MmapArgs}
    {result : Except Errno Nat}
    (accounted : Accounted w)
    (inMm : m < w.mmCount)
    (notWrapped : next.wrapped = false)
    (freshAnonymous :
      anonymous.Fresh w (pageRoundUp args.len * pageSize % 2 ^ 32))
    (freshMapping :
      mapping.map.Fresh w
        (pageRoundUp args.len * pageSize % 2 ^ 32 +
          realCorrection host args.offset))
    (call :
      GuestKernel.mmapCommon host w m args anonymous mapping =
        some (result, next)) :
    Covered host
      ((MemoryAction.mmap m args anonymous mapping).grant host w writable)
      w next := by
  rcases mmapCommon_cases call with
    ⟨_, _, rfl⟩ | ⟨_, _, chosen, stage, _, mapped, _⟩
  · exact .refl _
  dsimp only [MemoryAction.grant]
  cases isAnonymous : hasFlag args.flags mmapAnonymous with
  | true =>
    unfold mapChosen at mapped
    rw [isAnonymous, if_pos rfl] at mapped
    exact .ptMapNothing accounted inMm notWrapped
      (fun replied => (freshAnonymous replied).1)
      (fun replied _ => grant_inside replied) mapped
  | false =>
    rw [if_neg Bool.false_ne_true]
    rcases mapChosen_file_cases isAnonymous mapped with
      rfl | ⟨_, middle, fileMap, rest⟩
    · exact .refl _
    have unwrapped : middle.wrapped = false := by
      rcases rest with rfl | ⟨_, attached⟩
      · exact notWrapped
      · obtain ⟨_, _, _, _, rfl⟩ := attachFile_eq_some.mp attached
        exact notWrapped
    have covered :
        Covered host
          (mapping.map.grant host
            (pageRoundUp args.len * pageSize % 2 ^ 32 +
              realCorrection host args.offset)
            (hasFlag args.prot pWrite) writable) w middle := by
      refine .fileMap accounted inMm unwrapped
        (fun replied => (freshMapping replied).1) ?_ fileMap
      intro writes memory replied address isAfter isBefore
      rw [grant_inside replied isAfter isBefore,
        ← hasFlag_write_mappingFlags]
      exact hasFlag_write_of_pWritable writes
    rcases rest with rfl | ⟨_, attached⟩
    · exact covered
    · exact covered.trans (.attachFile attached)

/-- Every step but `mprotect` grants only what the host grants. -/
theorem MemoryAction.covered
    {next : HostedWorld}
    (accounted : Accounted state.world)
    (notWrapped : next.world.wrapped = false)
    (notMprotect :
      ∀ {m addr len prot hostMprotect},
        action ≠ .mprotect m addr len prot hostMprotect)
    (taken : (hostedMachine host).step state action next) :
    Covered host next.writable state.world next.world := by
  obtain ⟨w, writable⟩ := state
  obtain ⟨nextWorld, nextWritable⟩ := next
  obtain ⟨⟨inUse, honest, run⟩, mapsFresh, isGranted⟩ := taken
  dsimp only at inUse honest run mapsFresh isGranted accounted notWrapped
  subst isGranted
  cases action with
  | mmNew =>
    cases run
    exact .addMm _ _ _
  | execMap m start pages reply offset flags =>
    obtain ⟨⟨_, _⟩, call, same⟩ := map_eq_some_iff.mp run
    cases same
    refine .fileMap accounted (inUse (by simp)) notWrapped
      (fun replied => (honest replied).1) ?_ call
    intro writes memory replied address isAfter isBefore
    dsimp only [grant]
    split
    case isTrue isVdso =>
      have notWrite := mapsFresh.1 isVdso
      rw [hasFlag_write_of_pWritable writes] at notWrite
      cases notWrite
    case isFalse =>
      rw [grant_inside replied isAfter isBefore]
      exact hasFlag_write_of_pWritable writes
  | execNothing m start pages reply flags =>
    obtain ⟨⟨_, _⟩, call, same⟩ := map_eq_some_iff.mp run
    cases same
    exact .ptMapNothing accounted (inUse (by simp)) notWrapped
      (fun replied => (honest replied).1)
      (fun replied _ => grant_inside replied) call
  | execBrk m newBrk =>
    cases run
    exact .setBrks _ _ _ _
  | mmap m args anonymous mapping =>
    obtain ⟨⟨_, _⟩, call, same⟩ := map_eq_some_iff.mp run
    cases same
    exact .mmapCommon accounted (inUse (by simp)) notWrapped honest.1
      honest.2 call
  | munmap m addr len =>
    obtain ⟨⟨_, _⟩, call, same⟩ := map_eq_some_iff.mp run
    cases same
    rcases sysMunmap_cases call with rfl | always
    · exact .refl _
    · exact .ptUnmapAlways accounted always
  | mremap m addr oldLen newLen flags reply =>
    obtain ⟨⟨_, _⟩, call, same⟩ := map_eq_some_iff.mp run
    cases same
    rcases sysMremap_cases call with
      rfl | ⟨start, pages, always⟩ | ⟨start, entry, _, _, mapped⟩
    · exact .refl _
    · exact .ptUnmapAlways accounted always
    · exact .ptMapNothing accounted (inUse (by simp)) notWrapped
        (fun replied => (honest replied).1)
        (fun replied _ => grant_inside replied) mapped
  | mprotect m addr len prot hostMprotect =>
    exact absurd rfl notMprotect
  | brk m newBrk reply =>
    rcases sysBrk_cases run with
      rfl | ⟨_, middle, mapped, shape⟩ | ⟨middle, shape, rfl⟩
    · exact .refl _
    · have unwrapped : middle.wrapped = false := by
        rcases shape with rfl | rfl
        · exact notWrapped
        · exact notWrapped
      have grown :
          Covered host ((MemoryAction.brk m newBrk reply).grant host w writable)
            w middle :=
        .ptMapNothing accounted (inUse (by simp)) unwrapped
          (fun replied => (honest replied).1)
          (fun replied _ => grant_inside replied) mapped
      rcases shape with rfl | rfl
      · exact grown
      · exact grown.trans (.setBrks _ _ _ _)
    · rcases shape with rfl | ⟨start, pages, always⟩
      · exact .setBrks _ _ _ _
      · exact (Covered.ptUnmapAlways accounted always).trans (.setBrks _ _ _ _)
  | fork m =>
    have inMm : m < w.mmCount := inUse (by simp)
    exact Covered.trans (.addMm _ _ _)
      (.ptCopyOnWrite (accounted.addMm ..) (Nat.ne_of_lt inMm)
        (Nat.lt_succ_self _) run)
  | exit m =>
    exact .memDestroy accounted run
  | resolveFault m page type ptraceCopy grow copy =>
    obtain ⟨⟨_, _⟩, call, same⟩ := map_eq_some_iff.mp run
    cases same
    exact .memResolveFault accounted (inUse (by simp)) notWrapped honest.1
      honest.2.1 call
  | store m addr type value =>
    simp only [MemoryAction.run] at run
    split at run
    · cases run
    · split at run
      · cases run
        exact .fillBytes _ _ 1 fun _ => value
      · cases run
  | translatedStore m addr value =>
    obtain ⟨address, _, same⟩ := map_eq_some_iff.mp run
    rw [← same]
    exact .fillBytes _ _ 1 fun _ => value

/-- What `mprotect` leaves in the page tables. -/
theorem sysMprotect_spec
    {addr len : Nat}
    (call :
      sysMprotect w m addr len prot hostMprotect = some (result, next)) :
    next.data = w.data ∧
      (∀ page ∈ mprotectRewrites w m addr len prot hostMprotect,
        hasFlag prot (~~~pRwx) = false) ∧
      ∀ other otherPage,
        next.lookup other otherPage =
          if other = m ∧
              otherPage ∈ mprotectRewrites w m addr len prot hostMprotect then
            (w.lookup m otherPage).map fun entry =>
              { entry with flags := prot }
          else
            w.lookup other otherPage := by
  unfold sysMprotect at call
  unfold mprotectRewrites
  split at call
  case isTrue unaligned =>
    cases call
    rw [if_pos (.inl unaligned)]
    refine ⟨rfl, ?_, ?_⟩
    · intro page rewrites
      cases rewrites
    · intro other otherPage
      simp
  case isFalse isAligned =>
    split at call
    case isTrue excess =>
      cases call
      rw [if_pos (.inr excess)]
      refine ⟨rfl, ?_, ?_⟩
      · intro page rewrites
        cases rewrites
      · intro other otherPage
        simp
    case isFalse protection =>
      rw [if_neg (not_or.mpr ⟨isAligned, protection⟩)]
      obtain ⟨_, sameData, _, lookups⟩ := ptSetFlags_spec plainHost call
      exact ⟨sameData, fun _ _ => Bool.of_not_eq_true protection, lookups⟩

theorem pWritable_of_protection
    (protection : hasFlag prot (~~~pRwx) = false) :
    pWritable prot = hasFlag prot pWrite := by
  have notCow : hasFlag prot pCow = false :=
    hasFlag_of_subset (by decide) protection
  rw [pWritable, notCow, Bool.not_false, Bool.and_true]

/-- An `mprotect` keeps the rule exactly if it finds what it has to find. -/
theorem HostWritable.mprotect_iff
    {next : HostedWorld}
    {addr len : Nat}
    (allowed : HostWritable host state)
    (taken :
      (hostedMachine host).step state
        (.mprotect m addr len prot hostMprotect) next) :
    HostWritable host next ↔
      MprotectGrants host state (.mprotect m addr len prot hostMprotect) := by
  obtain ⟨w, writable⟩ := state
  obtain ⟨nextWorld, nextWritable⟩ := next
  obtain ⟨⟨_, _, run⟩, _, isGranted⟩ := taken
  dsimp only at run isGranted
  subst isGranted
  obtain ⟨⟨_, _⟩, call, same⟩ := map_eq_some_iff.mp run
  cases same
  obtain ⟨sameData, protection, lookups⟩ := sysMprotect_spec call
  dsimp only [MprotectGrants, HostWritable, MemoryAction.grant]
  constructor
  · intro nextAllowed
    refine ⟨?_, ?_⟩
    · intro grants page rewrites entry record index found live below
      have nextFound := lookups m page
      rw [if_pos ⟨rfl, rewrites⟩, found, map_some] at nextFound
      have writes : pWritable prot = true := by
        rw [pWritable_of_protection (protection page rewrites), grants]
      have isAllowed :=
        nextAllowed m page (hostPageOf host record entry index)
          ⟨_, record, index, nextFound, writes, sameData ▸ live, below, rfl⟩
      split at isAllowed
      case isTrue isProtected => exact .inr isProtected
      case isFalse => exact .inl isAllowed
    · intro denies hostPage isProtected other otherPage
        ⟨entry, record, index, found, writes, live, below, isAt⟩
      by_contra elsewhere
      have nextFound := lookups other otherPage
      rw [if_neg elsewhere, found] at nextFound
      have isAllowed :=
        nextAllowed other otherPage hostPage
          ⟨entry, record, index, nextFound, writes, sameData ▸ live, below,
            isAt⟩
      rw [if_pos isProtected, denies] at isAllowed
      cases isAllowed
  · rintro ⟨grants, denies⟩ other otherPage hostPage
      ⟨entry, record, index, found, writes, live, below, isAt⟩
    rw [sameData] at live
    rw [lookups] at found
    split at found
    case isTrue rewrites =>
      obtain ⟨before, wasFound, rfl⟩ := map_eq_some_iff.mp found
      have isWrite : hasFlag prot pWrite = true :=
        hasFlag_write_of_pWritable writes
      split
      · exact isWrite
      case isFalse notProtected =>
        rcases grants isWrite otherPage rewrites.2 before record index wasFound
          live below with wasWritable | isProtected
        · rw [← isAt]
          exact wasWritable
        · exact (notProtected (isAt ▸ isProtected)).elim
    case isFalse elsewhere =>
      have wrote : WritesTo host w other otherPage hostPage :=
        ⟨entry, record, index, found, writes, live, below, isAt⟩
      split
      case isTrue isProtected =>
        cases isWrite : hasFlag prot pWrite with
        | true => rfl
        | false =>
          exact (elsewhere
            (denies isWrite hostPage isProtected other otherPage wrote)).elim
      case isFalse => exact allowed other otherPage hostPage wrote

/-- The host regions of a step leave the access to live pages. -/
theorem MemoryAction.grant_keeps
    {next : HostedWorld}
    {page hostPage : Nat}
    (accounted : Accounted state.world)
    (notWrapped : state.world.wrapped = false)
    (notMprotect :
      ∀ {m addr len prot hostMprotect},
        action ≠ .mprotect m addr len prot hostMprotect)
    (taken : (hostedMachine host).step state action next)
    (writes : WritesTo host state.world m page hostPage)
    (wasWritable : state.writable hostPage = true) :
    next.writable hostPage = true := by
  obtain ⟨_, mapsFresh, isGranted⟩ := taken
  rw [isGranted]
  cases action with
  | mmNew | execBrk m newBrk | munmap m addr len | fork m | exit m
  | store m addr type value | translatedStore m addr value => exact wasWritable
  | execMap m start pages reply offset flags =>
    dsimp only [grant]
    split
    · exact wasWritable
    · rw [grant_of_spared accounted notWrapped mapsFresh.2 writes]
      exact wasWritable
  | execNothing m start pages reply flags
  | mremap m addr oldLen newLen flags reply =>
    exact grant_of_writable wasWritable
  | mmap m args anonymous mapping =>
    dsimp only [grant]
    split
    · exact grant_of_writable wasWritable
    · rw [grant_of_spared accounted notWrapped mapsFresh writes]
      exact wasWritable
  | mprotect m addr len prot hostMprotect => exact absurd rfl notMprotect
  | brk m newBrk reply => exact grant_of_writable wasWritable
  | resolveFault m page type ptraceCopy grow copy =>
    exact grant_of_writable
      (grant_of_writable wasWritable)

theorem HostWritable.step
    {next : HostedWorld}
    (allowed : HostWritable host state)
    (accounted : Accounted state.world)
    (notWrapped : state.world.wrapped = false)
    (grants : GrantingStep host state action)
    (taken : (hostedMachine host).step state action next) :
    HostWritable host next := by
  by_cases isMprotect :
      ∃ m addr len prot hostMprotect,
        action = .mprotect m addr len prot hostMprotect
  · obtain ⟨m, addr, len, prot, hostMprotect, rfl⟩ := isMprotect
    exact (allowed.mprotect_iff taken).mpr grants.1
  · have notMprotect :
        ∀ {m addr len prot hostMprotect},
          action ≠ .mprotect m addr len prot hostMprotect := by
      rintro m addr len prot hostMprotect rfl
      exact isMprotect ⟨m, addr, len, prot, hostMprotect, rfl⟩
    have covered :=
      MemoryAction.covered accounted (grants.2 _ taken.1.2.2) notMprotect taken
    intro m page hostPage writes
    rcases covered m page hostPage writes with
      ⟨other, otherPage, before⟩ | granted
    · exact MemoryAction.grant_keeps accounted notWrapped notMprotect taken
        before (allowed other otherPage hostPage before)
    · exact granted

end GuestKernel
