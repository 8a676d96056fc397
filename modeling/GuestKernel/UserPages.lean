import GuestKernel.PageAttributes

namespace GuestKernel
open Option Function

/-!
# What `mem_ptr` does to one page

One call of `mem_ptr` needs at most one fault.  It returns a pointer exactly if
the page is accessible: mapped with the permission, or below a stack, and the
host has the memory a fault asks for.  A fault changes no byte of the guest and
leaves every other page as accessible as it was.
-/

/-- What the host answers to the faults of each page. -/
structure PageReplies where
  grow : Nat → MapReply
  copy : Nat → MapReply

/--
What the host promises about a page: memory that is not in use, on its own
pages, and two separate regions for two requests.
-/
structure PageReplies.Honest
    (replies : PageReplies) (host : Host) (w : World) (page : Nat) :
    Prop where
  growFresh : (replies.grow page).Fresh w pageSize
  copyFresh : (replies.copy page).Fresh w pageSize
  apart :
    ∀ {grown copied},
      (replies.grow page).memory = .ok grown →
      (replies.copy page).memory = .ok copied →
      grown + pageSize ≤ copied ∨ copied + pageSize ≤ grown
  growAligned : (replies.grow page).Aligned host
  copyAligned : (replies.copy page).Aligned host

/-- A page that can be read, or written, once its fault is resolved. -/
def Accessible
    (host : Host) (w : World) (m : MmId) (type : Access)
    (replies : PageReplies) (page : Nat) : Prop :=
  match w.lookup m page with
  | none => StackAbove w m page ∧ (replies.grow page).Grants host
  | some entry =>
    type = .read ∨
      hasFlag entry.flags pWrite = true ∧
        (hasFlag entry.flags pCow = true →
          (replies.copy page).Grants host)

/-- A page that can be read, or written, without a fault. -/
def Usable (w : World) (m : MmId) (type : Access) (page : Nat) : Prop :=
  ∃ entry,
    w.lookup m page = some entry ∧
      (type = .read ∨ pWritable entry.flags = true)

variable
  {host : Host}
  {w next : World}
  {m : MmId}
  {type : Access}
  {replies : PageReplies}
  {addr page : Nat}
  {result : Except Errno Unit}

theorem Usable.accessible
    (usable : Usable w m type page) :
    Accessible host w m type replies page := by
  obtain ⟨entry, found, permitted⟩ := usable
  rw [Accessible, found]
  refine permitted.imp id fun writable => ?_
  obtain ⟨isWrite, notCow⟩ := Bool.and_eq_true_iff.mp writable
  refine ⟨isWrite, fun isCow => ?_⟩
  rw [isCow] at notCow
  cases notCow

/-- The pointer to a usable page is handed out at once. -/
theorem Usable.memPtrRound
    (kept : WellKept w)
    (inside : GuestKernel.page addr < memPages)
    (notPtrace : type ≠ .writePtrace)
    (usable : Usable w m type (GuestKernel.page addr)) :
    ∃ address,
      memPtrNofault w m addr type = some address ∧
        memPtrRound w m addr type false = some (.pointer address) := by
  obtain ⟨entry, found, permitted⟩ := usable
  obtain ⟨record, live, _⟩ := kept.backed found
  have isMapped : memPt (w.mem m) (GuestKernel.page addr) = some (some entry) :=
    memPt_eq_some.mpr ⟨inside, found⟩
  have pointer :
      memPtrNofault w m addr type =
        some ((record.data + entry.offset + pgOffset addr) % 2 ^ 64) := by
    rcases permitted with rfl | writable
    · simp [memPtrNofault, found, live]
    · simp [memPtrNofault, found, live, writable]
  refine ⟨_, pointer, ?_⟩
  have usable :
      (!decide (type ≠ .read) || pWritable entry.flags) = true := by
    rcases permitted with rfl | writable
    · rfl
    · rw [writable, Bool.or_true]
  simp only [GuestKernel.memPtrRound, isMapped, usable, pointer,
    bind_eq_bind, bind_some, Bool.not_false, Bool.true_and,
    if_true]
  rfl

theorem memPtrRound_readOnly
    {entry : PtEntry}
    (inside : GuestKernel.page addr < memPages)
    (found : w.lookup m (GuestKernel.page addr) = some entry)
    (readOnly : hasFlag entry.flags pWrite = false) :
    memPtrRound w m addr .write false = some .null := by
  have isMapped : memPt (w.mem m) (GuestKernel.page addr) = some (some entry) :=
    memPt_eq_some.mpr ⟨inside, found⟩
  have notWritable : pWritable entry.flags = false := by
    rw [pWritable, readOnly, Bool.false_and]
  simp only [memPtrRound, isMapped, notWritable, readOnly,
    bind_eq_bind, bind_some]
  rfl

/-- All other pages go through a fault. -/
theorem memPtrRound_resolve
    (inside : GuestKernel.page addr < memPages)
    (notUsable : ¬Usable w m type (GuestKernel.page addr))
    (notReadOnly :
      ∀ {entry},
        w.lookup m (GuestKernel.page addr) = some entry →
        hasFlag entry.flags pWrite = true) :
    memPtrRound w m addr type false = some .resolve := by
  cases found : w.lookup m (GuestKernel.page addr) with
  | none =>
    have isMapped : memPt (w.mem m) (GuestKernel.page addr) = some none :=
      memPt_eq_some.mpr ⟨inside, found⟩
    simp only [memPtrRound, isMapped, bind_eq_bind,
      bind_some]
    rfl
  | some entry =>
    have isMapped :
        memPt (w.mem m) (GuestKernel.page addr) = some (some entry) :=
      memPt_eq_some.mpr ⟨inside, found⟩
    have writing : type ≠ .read := fun isRead =>
      notUsable ⟨entry, found, .inl isRead⟩
    have notWritable : pWritable entry.flags = false :=
      Bool.of_not_eq_true fun writable =>
        notUsable ⟨entry, found, .inr writable⟩
    simp only [memPtrRound, isMapped, notWritable, notReadOnly found,
      writing, bind_eq_bind, bind_some, ne_eq,
      not_false_eq_true, decide_true, Bool.not_true, Bool.not_false,
      Bool.or_false, Bool.and_false, Bool.false_eq_true, if_false]
    rfl

theorem ptMapNothing_onePage_isSome
    (kept : WellKept w)
    (inside : page < memPages)
    {reply : MapReply}
    (granted : reply.Grants host)
    (flags : Flags) :
    ∃ next,
      ptMapNothing host w m page 1 reply flags = some (.ok (), next) := by
  obtain ⟨_, memory, replied, _⟩ := id granted
  unfold ptMapNothing
  rw [if_neg Nat.one_ne_zero, mapAnonymous, replied]
  exact ptMap_onePage_isSome (kept.accounted.fillBytes _ _ _) kept.notWrapped
    inside granted 0 (flags ||| pAnonymous)

/-- The stack growth of a fault runs to its end. -/
theorem growStack_isSome
    (kept : WellKept w)
    (inside : page < memPages)
    {reply : MapReply}
    (honest : reply.Aligned host) :
    ∃ outcome, growStack host w m page reply = some outcome := by
  have lookedUp :
      memPt (w.mem m) page = some (w.lookup m page) :=
    memPt_eq_some.mpr ⟨inside, rfl⟩
  unfold growStack
  rw [lookedUp]
  simp only [bind_eq_bind, bind_some]
  cases w.lookup m page with
  | some entry => exact ⟨_, rfl⟩
  | none =>
    cases nextMapped (w.mem m) page with
    | none => exact ⟨_, rfl⟩
    | some above =>
      dsimp only
      split
      · by_cases granted : reply.Grants host
        · obtain ⟨next, mapped⟩ :=
            @ptMapNothing_onePage_isSome host w m page kept inside reply
              granted (pWrite ||| pGrowsdown)
          exact ⟨_, mapped⟩
        · exact ptMapNothing_refused honest Nat.one_ne_zero granted
      · exact ⟨_, rfl⟩

/-- The second half of a fault runs to its end. -/
theorem resolveWrite_isSome
    (kept : WellKept w)
    (inside : page < memPages)
    {entry : PtEntry}
    (found : w.lookup m page = some entry)
    {copy : MapReply}
    (honest : copy.Aligned host) :
    ∃ outcome,
      resolveWrite host w m page type false copy = some outcome := by
  unfold resolveWrite
  split
  · exact ⟨_, rfl⟩
  · rw [found]
    simp only [Bool.false_eq_true, if_false, bind_eq_bind,
      bind_some]
    split
    · exact ⟨_, rfl⟩
    split
    case isFalse => exact ⟨_, rfl⟩
    case isTrue =>
      obtain ⟨record, live, _⟩ := kept.backed found
      unfold copyFault
      split
      · exact ⟨_, rfl⟩
      · rw [live]
        simp only [bind_eq_bind, bind_some]
        by_cases granted : copy.Grants host
        · obtain ⟨next, mapped⟩ :=
            ptMap_onePage_isSome (kept.accounted.fillBytes _ _ _)
              kept.notWrapped inside granted 0 _
          exact ⟨_, mapped⟩
        · exact ptMap_refused_isSome honest granted

/-- The byte at an address; a page that is not there yet would read as zeros. -/
def memoryByte (w : World) (m : MmId) (addr : Nat) : UInt8 :=
  (readByte w m addr).getD 0

theorem SamePage.memoryByte
    (same : SamePage w next m (GuestKernel.page addr)) :
    memoryByte next m addr = memoryByte w m addr := by
  rw [GuestKernel.memoryByte, GuestKernel.memoryByte, same.bytes rfl]

/-- Replacing one page wraps no count. -/
theorem ptMap_onePage_wrapped
    {offset : Nat}
    {flags : Flags}
    {reply : MapReply}
    (accounted : Accounted w)
    (inside : page < memPages)
    (mapped :
      ptMap host w m page 1 reply offset flags = some (.ok (), next)) :
    next.wrapped = w.wrapped := by
  rcases ptMap_cases mapped with ⟨_, failed, _⟩ | ⟨memory, _, _, loop⟩
  · cases failed
  rw [pageRange_one inside] at loop
  have round :
      ptMapPage host m w.nextData page offset flags
          (w.newData memory page 1 offset) page =
        some next := by
    obtain ⟨_, round, finish⟩ := bind_eq_some_iff.mp loop
    cases finish
    exact round
  have short : ¬2 ^ 32 ≤ 1 * pageSize := by decide
  have started :
      (w.newData memory page 1 offset).wrapped = w.wrapped := by
    simp only [World.newData, short, decide_false, Bool.false_and,
      Bool.or_false]
  obtain ⟨_, freed, retained, unmapStep, retain, rfl⟩ :=
    ptMapPage_cases round
  have untouched :
      freed.data w.nextData =
          (w.newData memory page 1 offset).data w.nextData ∧
        freed.wrapped = w.wrapped := by
    rcases unmapStep with ⟨_, rfl⟩ | ⟨middle, removed, rfl⟩
    · exact ⟨rfl, started⟩
    · obtain ⟨_, ⟨_, rfl⟩ | ⟨entry, found, dropped⟩⟩ :=
        unmapPage_cases removed
      · exact ⟨rfl, started⟩
      · have isOld : w.nextData ≠ entry.data :=
          Nat.ne_of_gt (accounted.allocated found)
        obtain ⟨_, _, ⟨_, rfl⟩ | ⟨_, rfl⟩⟩ := World.dropRef_cases dropped
        · exact ⟨update_of_ne isOld _ _, started⟩
        · exact ⟨update_of_ne isOld _ _, started⟩
  obtain ⟨record, live, rfl⟩ := World.retain_eq_some.mp retain
  rw [untouched.1] at live
  have isNew :
      (w.newData memory page 1 offset).data w.nextData = some _ :=
    update_self ..
  cases live.symm.trans isNew
  exact (Bool.or_false _).trans untouched.2

/-- The same address space with bytes written to memory that is not in use. -/
structure FilledFrom (w filled : World) : Prop where
  mmCount : filled.mmCount = w.mmCount
  data : filled.data = w.data
  lookup : filled.lookup = w.lookup
  bytes : KeepsLiveBytes w filled
  accounted : Accounted filled
  notWrapped : filled.wrapped = false

theorem WellKept.filledFrom
    (kept : WellKept w)
    {memory length : Nat}
    (fresh : Fresh w memory length)
    (content : Nat → UInt8) :
    FilledFrom w (w.fillBytes memory length content) where
  mmCount := rfl
  data := rfl
  lookup := rfl
  bytes := keepsLiveBytes_fillBytes fresh content
  accounted := kept.accounted.fillBytes _ _ _
  notWrapped := kept.notWrapped

theorem FilledFrom.wellKept
    {filled : World}
    (prepared : FilledFrom w filled)
    (kept : WellKept w) :
    WellKept filled where
  accounted := prepared.accounted
  notWrapped := prepared.notWrapped
  layout := kept.layout.congr prepared.data prepared.lookup

/--
Mapping prepared memory over one page: the books are kept, the page holds what
was prepared, and all other pages are as they were.
-/
theorem WellKept.ptMap_onePage
    {filled : World}
    {flags : Flags}
    {reply : MapReply}
    (kept : WellKept w)
    (inMm : m < w.mmCount)
    (inside : page < memPages)
    (fresh : reply.Fresh w pageSize)
    (prepared : FilledFrom w filled)
    (mapped :
      ptMap host filled m page 1 reply 0 flags = some (.ok (), next)) :
    WellKept next ∧
      (∀ other, other ≠ page → SamePage w next m other) ∧
      ∃ memory,
        reply.memory = .ok memory ∧
          ∀ {addr},
            GuestKernel.page addr = page →
            readByte next m addr =
              some (filled.bytes (memory + pgOffset addr)) := by
  have onePage : 1 * pageSize % 2 ^ 32 = pageSize := by decide
  have freshFilled : reply.Fresh filled (1 * pageSize % 2 ^ 32 + 0) := by
    rw [onePage]
    intro memory replied
    obtain ⟨bounded, apart⟩ := fresh replied
    exact ⟨bounded, fun live => apart (prepared.data ▸ live)⟩
  have inFilled : m < filled.mmCount := prepared.mmCount ▸ inMm
  have accountedNext := prepared.accounted.ptMap inFilled mapped
  have keptNext : WellKept next :=
    ⟨accountedNext,
      (ptMap_onePage_wrapped prepared.accounted inside mapped).trans
        prepared.notWrapped,
      (kept.layout.congr prepared.data prepared.lookup).ofPtMap
        prepared.accounted accountedNext freshFilled mapped⟩
  obtain ⟨frame, ⟨_, failed, _⟩ | ⟨_, lookups⟩⟩ := ptMap_spec mapped
  · cases failed
  rw [pageRange_one inside] at lookups
  simp only [List.mem_singleton] at lookups
  refine ⟨keptNext, ?_, ?_⟩
  · intro other isOther
    have same : next.lookup m other = w.lookup m other := by
      rw [lookups, if_neg (fun both => isOther both.2), prepared.lookup]
    refine kept.samePage ?_ ?_ same
    · intro id record address live after before
      rw [frame.bytes]
      exact prepared.bytes live after before
    · intro entry record found live
      obtain ⟨after, isLive, _⟩ := keptNext.backed (same.trans found)
      refine ⟨after, isLive, ?_⟩
      rcases ptMap_records mapped (accountedNext.numbered isLive) isLive with
        ⟨before, _, wasLive, sameRecord⟩ | ⟨isNew, _⟩
      · rw [prepared.data] at wasLive
        cases live.symm.trans wasLive
        exact sameRecord.sameMemory
      · have wasFound : filled.lookup m other = some entry :=
          prepared.lookup ▸ found
        exact absurd isNew
          (Nat.ne_of_lt (prepared.accounted.allocated wasFound))
  · have found :
        next.lookup m page =
          some (mappedEntry filled.nextData page 0 flags page) :=
      (lookups m page).trans (if_pos ⟨rfl, rfl⟩)
    obtain ⟨record, live, _⟩ := keptNext.backed found
    rcases ptMap_records mapped (accountedNext.numbered live) live with
      ⟨_, isOld, _, _⟩ | ⟨_, replied, _⟩
    · exact absurd isOld (Nat.lt_irrefl _)
    · refine ⟨record.data, replied, ?_⟩
      rintro addr rfl
      rw [(keptNext.readByte_eq found live).2, frame.bytes]
      simp only [mappedEntry, Nat.sub_self, Nat.zero_mul, Nat.add_zero]

/-- What a fault keeps: the books, the bytes, and the other pages. -/
structure FaultKeeps
    (w next : World) (m : MmId) (page : Nat) : Prop where
  kept : WellKept next
  mmCount : next.mmCount = w.mmCount
  bytes : ∀ addr, memoryByte next m addr = memoryByte w m addr
  others :
    ∀ other, other ≠ page → next.lookup m other = w.lookup m other

theorem FaultKeeps.filled
    {filled : World}
    (kept : WellKept w)
    (prepared : FilledFrom w filled) :
    FaultKeeps w filled m page where
  kept := prepared.wellKept kept
  mmCount := prepared.mmCount
  bytes addr := by
    refine (kept.samePage prepared.bytes ?_ ?_).memoryByte
    · exact fun _ live => ⟨_, prepared.data ▸ live, .refl _⟩
    · rw [prepared.lookup]
  others _ _ := by rw [prepared.lookup]

/-- The stack growth of a fault keeps the bytes: the new page has zeros. -/
theorem FaultKeeps.grow
    {reply : MapReply}
    (kept : WellKept w)
    (inMm : m < w.mmCount)
    (inside : page < memPages)
    (fresh : reply.Fresh w pageSize)
    (absent : w.lookup m page = none)
    {flags : Flags}
    (mapped :
      ptMapNothing host w m page 1 reply flags = some (.ok (), next)) :
    FaultKeeps w next m page := by
  have granted : reply.Grants host :=
    (grants_of_ptMapNothing mapped).resolve_left Nat.one_ne_zero
  obtain ⟨_, memory, replied, _⟩ := granted
  have onePage : 1 * pageSize % 2 ^ 32 = pageSize := by decide
  have call := mapped
  unfold ptMapNothing at call
  rw [if_neg Nat.one_ne_zero, onePage, mapAnonymous, replied] at call
  have prepared := kept.filledFrom (fresh replied) fun _ => 0
  obtain ⟨keptNext, others, given, isGiven, contents⟩ :=
    kept.ptMap_onePage inMm inside fresh prepared call
  cases replied.symm.trans isGiven
  refine ⟨keptNext, (ptMapNothing_records mapped).mmCount, ?_,
    fun other isOther => (others other isOther).entry⟩
  intro addr
  by_cases isPage : GuestKernel.page addr = page
  · have wasAbsent : readByte w m addr = none :=
      readByte_unmapped (isPage ▸ absent)
    have below : pgOffset addr < pageSize := Nat.mod_lt _ (by decide)
    have isZero :
        (w.fillBytes memory pageSize fun _ => 0).bytes
            (memory + pgOffset addr) = 0 :=
      if_pos ⟨Nat.le_add_right _ _, by omega⟩
    rw [memoryByte, memoryByte, wasAbsent, contents isPage, isZero]
    rfl
  · exact (others _ isPage).memoryByte

/-- A copy of a page has the bytes of the page. -/
theorem FaultKeeps.copy
    {reply : MapReply}
    {entry : PtEntry}
    {record : Data}
    {memory : Nat}
    {flags : Flags}
    (kept : WellKept w)
    (inMm : m < w.mmCount)
    (inside : page < memPages)
    (fresh : reply.Fresh w pageSize)
    (found : w.lookup m page = some entry)
    (live : w.data entry.data = some record)
    (replied : reply.memory = .ok memory)
    (mapped :
      ptMap host
          (w.fillBytes memory pageSize fun index =>
            w.bytes (record.data + entry.offset + index))
          m page 1 reply 0 flags =
        some (.ok (), next)) :
    FaultKeeps w next m page := by
  have prepared := kept.filledFrom (fresh replied) fun index =>
    w.bytes (record.data + entry.offset + index)
  obtain ⟨keptNext, others, given, isGiven, contents⟩ :=
    kept.ptMap_onePage inMm inside fresh prepared mapped
  cases replied.symm.trans isGiven
  refine ⟨keptNext, (ptMap_spec mapped).1.mmCount, ?_,
    fun other isOther => (others other isOther).entry⟩
  intro addr
  by_cases isPage : GuestKernel.page addr = page
  · subst isPage
    have below : pgOffset addr < pageSize := Nat.mod_lt _ (by decide)
    have copied :
        (w.fillBytes memory pageSize fun index =>
            w.bytes (record.data + entry.offset + index)).bytes
              (memory + pgOffset addr) =
          w.bytes (record.data + entry.offset + pgOffset addr) := by
      refine (if_pos ⟨Nat.le_add_right _ _, by omega⟩).trans ?_
      rw [Nat.add_sub_cancel_left]
    rw [memoryByte, memoryByte, contents rfl, copied,
      (kept.readByte_eq found live).2]
  · exact (others _ isPage).memoryByte

theorem WellKept.readByte_mapped
    (kept : WellKept w)
    (mapped : w.lookup m (GuestKernel.page addr) ≠ none) :
    readByte w m addr = some (memoryByte w m addr) := by
  obtain ⟨entry, found⟩ := ne_none_iff_exists'.mp mapped
  obtain ⟨record, live, _⟩ := kept.backed found
  rw [memoryByte, (kept.readByte_eq found live).2]
  rfl

/-- A byte that could be read can be read after a fault. -/
theorem FaultKeeps.readByte
    {value : UInt8}
    (keeps : FaultKeeps w next m page)
    (usable : Usable next m type page)
    (read : readByte w m addr = some value) :
    GuestKernel.readByte next m addr = some value := by
  have mapped : next.lookup m (GuestKernel.page addr) ≠ none := by
    by_cases isPage : GuestKernel.page addr = page
    · obtain ⟨entry, found, _⟩ := usable
      rw [isPage, found]
      exact some_ne_none _
    · rw [keeps.others _ isPage]
      intro absent
      rw [readByte_unmapped absent] at read
      cases read
  rw [keeps.kept.readByte_mapped mapped, keeps.bytes, memoryByte, read]
  rfl

theorem WellKept.bytes_pointer
    (kept : WellKept w)
    {address index : Nat}
    (pointer : memPtrNofault w m addr type = some address)
    (inPage : pgOffset addr + index < pageSize) :
    w.bytes (address + index) = memoryByte w m (addr + index) := by
  obtain ⟨entry, record, found, live, _, shape⟩ :=
    kept.memPtrNofault_eq pointer
  obtain ⟨samePage, sameOffset⟩ := page_add_of_inPage inPage
  rw [memoryByte, (kept.readByte_eq (samePage ▸ found) live).2, sameOffset,
    shape]
  exact congrArg w.bytes (Nat.add_assoc _ _ _)

/-- Which pages a stack can grow into depends on growth flags only. -/
theorem StackAbove.congr
    (same :
      ∀ other,
        (next.lookup m other).map (fun entry => hasFlag entry.flags pGrowsdown) =
          (w.lookup m other).map fun entry => hasFlag entry.flags pGrowsdown)
    (stack : StackAbove w m page) :
    StackAbove next m page := by
  obtain ⟨above, entry, after, inside, found, grows, first⟩ := stack
  have isAbove := same above
  rw [found, map_some, grows] at isAbove
  obtain ⟨nextEntry, nextFound, nextGrows⟩ :=
    map_eq_some_iff.mp isAbove
  refine ⟨above, nextEntry, after, inside, nextFound, nextGrows, ?_⟩
  intro other otherAfter otherBefore
  have isFree := same other
  rw [first other otherAfter otherBefore, map_none] at isFree
  exact map_eq_none_iff.mp isFree

/-- A stack that grew by one page can grow into the same other pages. -/
theorem stackAbove_grown
    {grown : PtEntry}
    (inside : page < memPages)
    (absent : w.lookup m page = none)
    (stack : StackAbove w m page)
    (found : next.lookup m page = some grown)
    (grows : hasFlag grown.flags pGrowsdown = true)
    (others :
      ∀ other, other ≠ page → next.lookup m other = w.lookup m other)
    (other : Nat) :
    StackAbove next m other ↔ StackAbove w m other := by
  constructor
  · rintro ⟨above, entry, after, aboveInside, isEntry, entryGrows, first⟩
    by_cases isPage : above = page
    · subst isPage
      obtain ⟨bottom, last, lastAfter, lastInside, isLast, lastGrows, free⟩ :=
        stack
      refine ⟨bottom, last, Nat.lt_trans after lastAfter, lastInside, isLast,
        lastGrows, ?_⟩
      intro between betweenAfter betweenBefore
      rcases Nat.lt_trichotomy between above with below | rfl | later
      · rw [← others between (Nat.ne_of_lt below)]
        exact first between betweenAfter below
      · exact absent
      · exact free between later betweenBefore
    · refine ⟨above, entry, after, aboveInside, others above isPage ▸ isEntry,
        entryGrows, ?_⟩
      intro between betweenAfter betweenBefore
      by_cases same : between = page
      · exact same ▸ absent
      · rw [← others between same]
        exact first between betweenAfter betweenBefore
  · rintro ⟨above, entry, after, aboveInside, isEntry, entryGrows, first⟩
    have notPage : above ≠ page := by
      rintro rfl
      cases absent.symm.trans isEntry
    by_cases passes : other < page ∧ page < above
    · refine ⟨page, grown, passes.1, inside, found, grows, ?_⟩
      intro between betweenAfter betweenBefore
      rw [others between (Nat.ne_of_lt betweenBefore)]
      exact first between betweenAfter
        (Nat.lt_trans betweenBefore passes.2)
    · refine ⟨above, entry, after, aboveInside, ?_, entryGrows, ?_⟩
      · rw [others above notPage, isEntry]
      · intro between betweenAfter betweenBefore
        rw [others between fun same => passes ⟨same ▸ betweenAfter,
          same ▸ betweenBefore⟩]
        exact first between betweenAfter betweenBefore

/-- A fault that succeeded: the page is usable, and others stay accessible. -/
structure Resolved
    (host : Host) (w next : World) (m : MmId) (type : Access)
    (replies : PageReplies) (page : Nat) : Prop extends
    FaultKeeps w next m page where
  usable : Usable next m type page
  stays :
    ∀ access other,
      Accessible host next m access replies other ↔
        Accessible host w m access replies other

theorem accessible_congr
    (entry : next.lookup m page = w.lookup m page)
    (stack : StackAbove next m page ↔ StackAbove w m page) :
    Accessible host next m type replies page ↔
      Accessible host w m type replies page := by
  rw [Accessible, Accessible, entry, stack]

/-- The stack grew by a page that can be read and written. -/
theorem Resolved.grown
    (keeps : FaultKeeps w next m page)
    (inside : page < memPages)
    (absent : w.lookup m page = none)
    (stack : StackAbove w m page)
    (granted : (replies.grow page).Grants host)
    (replaces : Replaces w next m page stackFlags) :
    Resolved host w next m type replies page := by
  obtain ⟨⟨entry, found, flags⟩, _⟩ := replaces
  have usable : ∀ access, Usable next m access page := fun _ =>
    ⟨entry, found, .inr (by rw [flags]; decide)⟩
  refine ⟨keeps, usable type, fun access other => ?_⟩
  by_cases isPage : other = page
  · subst isPage
    refine ⟨fun _ => ?_, fun _ => (usable access).accessible⟩
    rw [Accessible, absent]
    exact ⟨stack, granted⟩
  · refine accessible_congr (keeps.others other isPage) ?_
    exact stackAbove_grown inside absent stack found
      (by rw [flags]; decide) keeps.others other

/-- A copied page can be written. -/
theorem Resolved.copied
    {entry : PtEntry}
    (keeps : FaultKeeps w next m page)
    (found : w.lookup m page = some entry)
    (isWrite : hasFlag entry.flags pWrite = true)
    (granted : (replies.copy page).Grants host)
    (replaces : Replaces w next m page (entry.flags &&& ~~~pCow)) :
    Resolved host w next m type replies page := by
  obtain ⟨⟨after, isAfter, flags⟩, _⟩ := replaces
  have usable : ∀ access, Usable next m access page := by
    intro access
    refine ⟨after, isAfter, .inr ?_⟩
    rw [flags, pWritable, hasFlag_clear_of_disjoint _ (by decide), isWrite,
      hasFlag_clear_self]
    rfl
  have sameGrowth :
      ∀ other,
        (next.lookup m other).map (fun entry => hasFlag entry.flags pGrowsdown) =
          (w.lookup m other).map fun entry =>
            hasFlag entry.flags pGrowsdown := by
    intro other
    by_cases isPage : other = page
    · rw [isPage, isAfter, found, map_some, map_some, flags,
        hasFlag_clear_of_disjoint _ (by decide)]
    · rw [keeps.others other isPage]
  refine ⟨keeps, usable type, fun access other => ?_⟩
  by_cases isPage : other = page
  · subst isPage
    refine ⟨fun _ => ?_, fun _ => (usable access).accessible⟩
    rw [Accessible, found]
    exact .inr ⟨isWrite, fun _ => granted⟩
  · exact accessible_congr (keeps.others other isPage)
      ⟨.congr fun other => (sameGrowth other).symm, .congr sameGrowth⟩

/--
A fault on a page that is not usable, and not read-only, succeeds exactly if
the page is accessible.
-/
theorem resolveFault_spec
    (kept : WellKept w)
    (inMm : m < w.mmCount)
    (inside : page < memPages)
    (honest : replies.Honest host w page)
    (notUsable : ¬Usable w m type page)
    (notReadOnly :
      ∀ {entry},
        w.lookup m page = some entry → hasFlag entry.flags pWrite = true) :
    ∃ result next,
      memResolveFault host w m page type false (replies.grow page)
          (replies.copy page) = some (result, next) ∧
        (result = .ok () ∧ Accessible host w m type replies page ∧
            Resolved host w next m type replies page ∨
          (∃ code, result = .error code) ∧
            ¬Accessible host w m type replies page ∧
            FaultKeeps w next m page) := by
  obtain ⟨⟨grown, middle⟩, growth⟩ :=
    @growStack_isSome host w m page kept inside _ honest.growAligned
  have growthOutcome := (growStack_spec growth).2
  unfold memResolveFault
  rw [growth]
  cases growthOutcome with
  | refused code absent failed denied filled =>
    subst failed
    refine ⟨_, _, rfl, .inr ⟨⟨code, rfl⟩, ?_, ?_⟩⟩
    · rw [Accessible, absent]
      exact denied
    · rcases filled with rfl | ⟨memory, replied, rfl⟩
      · exact ⟨kept, rfl, fun _ => rfl, fun _ _ => rfl⟩
      · exact .filled kept
          (kept.filledFrom (honest.growFresh replied) _)
  | grown absent succeeded stack granted replaces mapped =>
    subst succeeded
    have keeps : FaultKeeps w middle m page :=
      .grow kept inMm inside honest.growFresh absent mapped
    have resolved :=
      @Resolved.grown host w middle m type replies page keeps inside absent
        stack granted replaces
    obtain ⟨⟨entry, found, flags⟩, _⟩ := replaces
    obtain ⟨⟨result, next⟩, write⟩ :=
      @resolveWrite_isSome host middle m type page keeps.kept inside entry
        found _ honest.copyAligned
    refine ⟨result, next, write, .inl ?_⟩
    have accessible : Accessible host w m type replies page := by
      rw [Accessible, absent]
      exact ⟨stack, granted⟩
    cases resolveWrite_spec inside found write with
    | kept _ succeeded same =>
      exact ⟨succeeded, accessible, same ▸ resolved⟩
    | refused _ _ reason _ _ _ =>
      rw [flags] at reason
      exact absurd reason (by
        rw [show hasFlag (writeFlags false stackFlags) pWrite = true by
          decide, show hasFlag (writeFlags false stackFlags) pCow = false by
          decide]
        simp)
    | copied _ _ isCow _ _ _ _ =>
      rw [flags] at isCow
      cases isCow
  | mapped isMapped succeeded same =>
    subst succeeded
    subst same
    obtain ⟨entry, found⟩ := ne_none_iff_exists'.mp isMapped
    obtain ⟨⟨result, next⟩, write⟩ :=
      @resolveWrite_isSome host middle m type page kept inside entry found _
        honest.copyAligned
    refine ⟨result, next, write, ?_⟩
    cases resolveWrite_spec inside found write with
    | kept permitted _ _ => exact absurd ⟨entry, found, permitted⟩ notUsable
    | refused code writing reason failed _ filled =>
      have refused := reason.resolve_left (by
        rw [show hasFlag (writeFlags false entry.flags) pWrite = true from
          notReadOnly found]
        exact Bool.noConfusion)
      refine .inr ⟨⟨code, failed⟩, ?_, ?_⟩
      · rw [Accessible, found]
        rintro (isRead | ⟨_, needsCopy⟩)
        · exact writing isRead
        · exact refused.2 (needsCopy refused.1)
      · rcases filled with rfl | ⟨memory, record, replied, live, rfl⟩
        · exact ⟨kept, rfl, fun _ => rfl, fun _ _ => rfl⟩
        · exact .filled kept
            (kept.filledFrom (honest.copyFresh replied) _)
    | copied _ isWrite _ succeeded granted replaces mapped =>
      obtain ⟨memory, record, replied, live, mapped⟩ := mapped
      subst succeeded
      have keeps : FaultKeeps middle next m page :=
        .copy kept inMm inside honest.copyFresh found live replied mapped
      refine .inl ⟨rfl, ?_,
        .copied keeps found isWrite granted replaces⟩
      rw [Accessible, found]
      exact .inr ⟨isWrite, fun _ => granted⟩

end GuestKernel
