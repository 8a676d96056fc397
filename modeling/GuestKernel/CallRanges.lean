import GuestKernel.HeapCalls

namespace GuestKernel
open List Option

/-!
# The pages a mapping call looks at

`mmap`, `munmap`, `mprotect`, `mremap` and `brk` each compute a page range from
32-bit arguments and hand it to the page-table operations.  `RangeCall.pages`
lists the page numbers a call passes to `mem_pt`, in the order of the source,
and `RangeCall.Covers` says what a success has to have done to the range that
was asked for.  Ranges that were asked for are counted without overflow.
-/

/-- The pages that `bytes` bytes take, without the overflow of `PAGE_ROUND_UP`. -/
def ceilPages (bytes : Nat) : Nat :=
  (bytes + pageSize - 1) / pageSize

/-- A range whose rounded length does not wrap and that ends in time. -/
def RangeFits (addr len : Nat) : Prop :=
  ceilPages len * pageSize < 2 ^ 32 ∧
    addr + ceilPages len * pageSize ≤ 2 ^ 32

/-- A page of `[addr, addr + len)`, rounded to pages. -/
def InRange (addr len other : Nat) : Prop :=
  page addr ≤ other ∧ other < page addr + ceilPages len

theorem page_mul_pageSize (chosen : Nat) :
    page (chosen * pageSize) = chosen :=
  Nat.mul_div_cancel chosen (by decide)

variable {addr len start : Nat} {mem : Mem} {range : List Nat}

theorem page_mul_of_aligned
    (aligned : pgOffset addr = 0) :
    page addr * pageSize = addr :=
  Nat.div_mul_cancel (Nat.dvd_of_mod_eq_zero aligned)

theorem ceilPages_eq (len : Nat) :
    ceilPages len = if len % pageSize = 0 then page len else page len + 1 := by
  simp only [ceilPages, page, pageSize]
  split <;> omega

theorem pageRoundUp_eq
    (bounded : len < 2 ^ 32) :
    pageRoundUp len =
      if ceilPages len * pageSize < 2 ^ 32 then ceilPages len else 0 := by
  by_cases unwrapped : ceilPages len * pageSize < 2 ^ 32
  · rw [if_pos unwrapped]
    simp only [ceilPages, pageSize] at unwrapped
    simp only [pageRoundUp, page, ceilPages, pageSize]
    omega
  · rw [if_neg unwrapped]
    simp only [ceilPages, pageSize] at unwrapped
    simp only [pageRoundUp, page, pageSize]
    omega

theorem RangeFits.pages
    (fits : RangeFits addr len)
    (bounded : len < 2 ^ 32) :
    pageRoundUp len = ceilPages len ∧
      page addr + ceilPages len ≤ memPages := by
  rw [pageRoundUp_eq bounded, if_pos fits.1]
  refine ⟨rfl, ?_⟩
  have ends := fits.2
  simp only [page, ceilPages, pageSize, memPages] at ends ⊢
  omega

/-- A rounded length that keeps the range in the directory makes it fit. -/
theorem rangeFits_of_pages
    (bounded : len < 2 ^ 32)
    (aligned : pgOffset addr = 0)
    (rounded : pageRoundUp len ≠ 0)
    (inside : page addr + pageRoundUp len ≤ memPages) :
    RangeFits addr len := by
  have unwrapped : ceilPages len * pageSize < 2 ^ 32 := by
    by_contra wraps
    rw [pageRoundUp_eq bounded, if_neg wraps] at rounded
    exact rounded rfl
  rw [pageRoundUp_eq bounded, if_pos unwrapped] at inside
  refine ⟨unwrapped, ?_⟩
  simp only [page, ceilPages, pageSize, memPages, pgOffset] at *
  omega

theorem mem_pageRange_of_lt
    {pages other : Nat}
    (bounded : start + pages < 2 ^ 32) :
    other ∈ pageRange start pages ↔
      start ≤ other ∧ other < start + pages := by
  rw [mem_pageRange, Nat.mod_eq_of_lt bounded]

theorem pageRange_eq
    {pages : Nat}
    (bounded : start + pages < 2 ^ 32) :
    pageRange start pages = List.range' start pages := by
  rw [pageRange, Nat.mod_eq_of_lt bounded, Nat.add_sub_cancel_left]

theorem page_add_lt
    {pages : Nat}
    (bounded : addr < 2 ^ 32)
    (below : pages < memPages) :
    page addr + pages < 2 ^ 32 := by
  have inside := page_lt bounded
  simp only [memPages] at inside below
  omega

/-- The pages a loop looks up that stops at the first page with a property. -/
def scanned (stop : Nat → Bool) : List Nat → List Nat
  | [] => []
  | page :: rest =>
    if stop page then [page] else page :: scanned stop rest

/-- The pages `pt_is_hole` looks up: it stops at the first mapped one. -/
def holePages (mem : Mem) (start pages : Nat) : List Nat :=
  scanned (fun page => (mem.lookup page).isSome) (pageRange start pages)

/-- The pages a check for gaps looks up: it stops at the first gap. -/
def checkedPages (mem : Mem) (start pages : Nat) : List Nat :=
  scanned (fun page => (mem.lookup page).isNone) (pageRange start pages)

/-- The pages `pt_find_hole` looks up, at most. -/
def searchedPages : List Nat :=
  List.range' 0x40001 (0xf7ffd - 0x40000)

/-- The host's answer lets `pt_map` run its loop. -/
def MapReply.Grants (host : Host) (reply : MapReply) : Prop :=
  reply.malloc = true ∧
    ∃ memory,
      reply.memory = .ok memory ∧
        (memory % host.realPageSize = 0 ∨ memory = host.vdsoData)

/-- Whether the host grants memory can be computed. -/
instance (host : Host) (reply : MapReply) :
    Decidable (reply.Grants host) :=
  match shape : reply.memory with
  | .error _ => isFalse (by rintro ⟨_, _, replied, _⟩; simp [shape] at replied)
  | .ok memory =>
    decidable_of_iff
      (reply.malloc = true ∧
        (memory % host.realPageSize = 0 ∨ memory = host.vdsoData))
      (by simp [MapReply.Grants, shape])

section

variable
  {host : Host}
  {w next : World}
  {m : MmId}
  {pages : Nat}
  {reply : MapReply}
  {flags : Flags}

/-- A mapping that succeeds was granted by the host. -/
theorem ptMap_granted
    {offset : Nat}
    (mapped :
      ptMap host w m start pages reply offset flags =
        some (.ok (), next)) :
    reply.Grants host := by
  unfold ptMap at mapped
  split at mapped
  · cases mapped
  · rename_i memory replied
    split at mapped
    · rename_i aligned
      split at mapped
      · rename_i malloc
        exact ⟨malloc, memory, replied, aligned⟩
      · cases mapped
    · cases mapped

/-- So was one of `pt_map_nothing`, unless it is empty. -/
theorem grants_of_ptMapNothing
    (mapped :
      ptMapNothing host w m start pages reply flags =
        some (.ok (), next)) :
    pages = 0 ∨ reply.Grants host := by
  unfold ptMapNothing at mapped
  split at mapped
  · rename_i isEmpty
    exact .inl isEmpty
  · exact .inr (ptMap_granted mapped)

end

/-- The pages `pt_map` and `pt_map_nothing` work on. -/
def mapPages
    (host : Host) (reply : MapReply) (start pages : Nat) : List Nat :=
  if reply.Grants host then pageRange start pages else []

/-- The pages `pt_unmap_always` works on. -/
def unmapPages (mem : Mem) (start pages : Nat) : List Nat :=
  memWalk mem start ((start + pages) % 2 ^ 32)

/-- The pages `pt_unmap` looks up and works on. -/
def ptUnmapPages (mem : Mem) (start pages : Nat) : List Nat :=
  checkedPages mem start pages ++
    if allMapped mem (pageRange start pages) = some true then
      unmapPages mem start pages
    else
      []

/--
A scan of consecutive pages stays below a bound if its range does, or if it
stops at some page below the bound.
-/
theorem scanned_range_inside
    (stop : Nat → Bool)
    (bound start count : Nat) :
    (∀ other ∈ scanned stop (List.range' start count), other < bound) ↔
      count = 0 ∨ start + count ≤ bound ∨
        ∃ other,
          start ≤ other ∧ other < start + count ∧ other < bound ∧
            stop other = true := by
  induction count generalizing start with
  | zero =>
    simp [scanned]
  | succ count inductionHypothesis =>
    rw [List.range'_succ, scanned]
    by_cases stops : stop start = true
    · rw [if_pos stops]
      simp only [mem_singleton, forall_eq, Nat.add_eq_zero_iff,
        Nat.one_ne_zero, and_false, false_or]
      constructor
      · intro below
        exact .inr ⟨start, Nat.le_refl start, by omega, below, stops⟩
      · rintro (ends | ⟨other, after, _, below, _⟩) <;> omega
    · rw [if_neg stops]
      simp only [mem_cons, forall_eq_or_imp, inductionHypothesis,
        Nat.add_eq_zero_iff, Nat.one_ne_zero, and_false, false_or]
      constructor
      · rintro ⟨below, isEmpty | ends | ⟨other, after, before, facts⟩⟩
        · exact .inl (by omega)
        · exact .inl (by omega)
        · exact .inr ⟨other, by omega, by omega, facts⟩
      · rintro (ends | ⟨other, after, before, below, stopped⟩)
        · exact ⟨by omega, .inr (.inl (by omega))⟩
        · have isLater : other ≠ start := by
            rintro rfl
            exact stops stopped
          exact ⟨by omega, .inr (.inr
            ⟨other, by omega, by omega, below, stopped⟩)⟩

/-- The next page after one of the directory is not far beyond it. -/
theorem memNextPage_le
    (mem : Mem)
    {page : Nat}
    (inside : page < memPages) :
    memNextPage mem page ≤ memPages := by
  have skipped :
      ∀ page, page ≤ memPages → skipPgdirs mem page ≤ memPages := by
    intro page inside
    induction page using skipPgdirs.induct mem with
    | case1 page skips inductionHypothesis =>
      rw [skipPgdirs, if_pos skips]
      refine inductionHypothesis ?_
      have below := skips.1
      simp only [memPages, memPgdirSize] at below ⊢
      omega
    | case2 page stays =>
      rw [skipPgdirs, if_neg stays]
      exact inside
  unfold memNextPage
  split
  · exact inside
  · exact skipped _ inside

/-- A walk leaves the directory exactly when its end does. -/
theorem memWalk_inside
    (mem : Mem)
    (start stop : Nat) :
    (∀ other ∈ memWalk mem start stop, other < memPages) ↔
      stop ≤ start ∨ stop ≤ memPages := by
  constructor
  · intro inside
    by_contra leaves
    rw [not_or, Nat.not_le, Nat.not_le] at leaves
    obtain ⟨nonempty, beyond⟩ := leaves
    induction start using memWalk.induct mem stop with
    | case1 start isBefore inductionHypothesis =>
      rw [memWalk, if_pos isBefore] at inside
      have startInside := inside start mem_cons_self
      have nextInside := memNextPage_le mem startInside
      exact inductionHypothesis
        (fun other later => inside other (mem_cons_of_mem _ later))
        (Nat.lt_of_le_of_lt nextInside beyond)
    | case2 start isAfter =>
      exact isAfter nonempty
  · intro ends other walked
    obtain ⟨after, before⟩ := memWalk_bounds walked
    omega

/-- `pt_is_hole` has an answer exactly if it stays in the directory. -/
theorem isHoleLoop_isSome :
    (∃ hole, isHoleLoop mem range = some hole) ↔
      ∀ other ∈ scanned (fun page => (mem.lookup page).isSome) range,
        other < memPages := by
  induction range with
  | nil =>
    simp [isHoleLoop, scanned]
  | cons page rest inductionHypothesis =>
    by_cases inside : page < memPages
    · cases found : mem.lookup page <;>
        simp [isHoleLoop, scanned, memPt, inside, found,
          inductionHypothesis]
    · cases found : mem.lookup page <;>
        simp [isHoleLoop, scanned, memPt, inside, found]

/-- The check for gaps has an answer exactly if it stays in the directory. -/
theorem allMapped_isSome :
    (∃ mapped, allMapped mem range = some mapped) ↔
      ∀ other ∈ scanned (fun page => (mem.lookup page).isNone) range,
        other < memPages := by
  induction range with
  | nil =>
    simp [allMapped, scanned]
  | cons page rest inductionHypothesis =>
    by_cases inside : page < memPages
    · cases found : mem.lookup page <;>
        simp [allMapped, scanned, memPt, inside, found,
          inductionHypothesis]
    · cases found : mem.lookup page <;>
        simp [allMapped, scanned, memPt, inside, found]

/-- A failed check for gaps met one inside the directory. -/
theorem allMapped_false
    (gap : allMapped mem range = some false) :
    ∃ other ∈ range, other < memPages ∧ mem.lookup other = none := by
  induction range with
  | nil =>
    cases gap
  | cons page rest inductionHypothesis =>
    by_cases inside : page < memPages
    · cases found : mem.lookup page with
      | none =>
        exact ⟨page, mem_cons_self, inside, found⟩
      | some entry =>
        simp only [allMapped, memPt, inside, found, if_true] at gap
        obtain ⟨other, member, facts⟩ := inductionHypothesis gap
        exact ⟨other, mem_cons_of_mem _ member, facts⟩
    · simp [allMapped, memPt, inside] at gap

/-- A mapping call with its arguments and the answers of the host to it. -/
inductive RangeCall where
  | mmap (args : MmapArgs) (anonymous : MapReply) (mapping : FileReply)
  | munmap (addr len : Nat)
  | mprotect
      (addr len : Nat) (prot : Flags)
      (hostMprotect : Nat → Except Errno Unit)
  | mremap (addr oldLen newLen : Nat) (flags : Flags) (reply : MapReply)
  | brk (newBrk : Nat) (reply : MapReply)

/-- The answer to the mapping stage of an `mmap`, if it asks the host. -/
def mmapReply
    (args : MmapArgs) (anonymous : MapReply) (mapping : FileReply) :
    Option MapReply :=
  if hasFlag args.flags mmapAnonymous then
    some anonymous
  else
    match args.file with
    | none => none
    | some file => if file.hasMmap then some mapping.map else none

/-- The mapping stage of an `mmap` runs the loop of `pt_map`. -/
def MmapMaps
    (host : Host)
    (args : MmapArgs) (anonymous : MapReply) (mapping : FileReply) : Prop :=
  ∃ reply, mmapReply args anonymous mapping = some reply ∧ reply.Grants host

namespace RangeCall

/-- The arguments, and the break of the address space, are 32-bit values. -/
def Words (w : World) (m : MmId) : RangeCall → Prop
  | mmap args _ _ => args.addr < 2 ^ 32 ∧ args.len < 2 ^ 32
  | munmap addr len => addr < 2 ^ 32 ∧ len < 2 ^ 32
  | mprotect addr len _ _ => addr < 2 ^ 32 ∧ len < 2 ^ 32
  | mremap addr oldLen newLen _ _ =>
    addr < 2 ^ 32 ∧ oldLen < 2 ^ 32 ∧ newLen < 2 ^ 32
  | brk newBrk _ => (w.mm m).brk < 2 ^ 32 ∧ newBrk < 2 ^ 32

/-- The call gets past its argument checks. -/
def PastChecks (w : World) (m : MmId) : RangeCall → Prop
  | mmap args _ _ =>
    args.len ≠ 0 ∧ hasFlag args.prot (~~~pRwx) = false ∧
      ¬(hasFlag args.flags mmapPrivate ∧ hasFlag args.flags mmapShared) ∧
      pageRoundUp args.len ≠ 0 ∧ pgOffset args.addr = 0
  | munmap addr len => pgOffset addr = 0 ∧ len ≠ 0
  | mprotect addr _ prot _ =>
    pgOffset addr = 0 ∧ hasFlag prot (~~~pRwx) = false
  | mremap addr _ _ flags _ => MremapChecked addr flags
  | brk newBrk _ => (w.mm m).startBrk ≤ newBrk

/-- The call; `brk` answers with the break it leaves. -/
def run (host : Host) (w : World) (m : MmId) :
    RangeCall → Option (Except Errno Nat × World)
  | mmap args anonymous mapping =>
    mmapCommon host w m args anonymous mapping
  | munmap addr len =>
    (sysMunmap host w m addr len).map fun (result, next) =>
      (result.map fun _ => 0, next)
  | mprotect addr len prot hostMprotect =>
    (sysMprotect w m addr len prot hostMprotect).map
      fun (result, next) => (result.map fun _ => 0, next)
  | mremap addr oldLen newLen flags reply =>
    (sysMremap host w m addr oldLen newLen flags reply).map
      fun (result, next) => (result.map fun _ => addr, next)
  | brk newBrk reply =>
    (sysBrk host w m newBrk reply).map fun next =>
      (.ok (next.mm m).brk, next)

/-- The page numbers the call passes to `mem_pt` after its checks. -/
def pages (host : Host) (w : World) (m : MmId) : RangeCall → List Nat
  | mmap args anonymous mapping =>
    let count := pageRoundUp args.len
    let mapped := fun start =>
      match mmapReply args anonymous mapping with
      | none => []
      | some reply => mapPages host reply start count
    if args.addr = 0 then
      let found := ptFindHole (w.mem m) count
      searchedPages ++ if found = badPage then [] else mapped found
    else
      (if hasFlag args.flags mmapFixed then []
        else holePages (w.mem m) (page args.addr) count) ++
          mapped (page args.addr)
  | munmap addr len => unmapPages (w.mem m) (page addr) (pageRoundUp len)
  | mprotect addr len _ _ =>
    -- the second loop goes over the pages the first one has seen
    checkedPages (w.mem m) (page addr) (pageRoundUp len)
  | mremap addr oldLen newLen _ reply =>
    let oldPages := page oldLen
    let newPages := page newLen
    if newPages ≤ oldPages then
      ptUnmapPages (w.mem m) (page addr + newPages) (oldPages - newPages)
    else
      page addr ::
        match w.lookup m (page addr) with
        | none => []
        | some entry =>
          checkedPages (w.mem m) (page addr) oldPages ++
            if allMapped (w.mem m) (pageRange (page addr) oldPages) ≠
                  some true ∨
                hasFlag entry.flags pAnonymous = false then
              []
            else
              let start := page addr + oldPages
              let extra := newPages - oldPages
              holePages (w.mem m) start extra ++
                if ptIsHole (w.mem m) start extra = some true then
                  mapPages host reply start extra
                else
                  []
  | brk newBrk reply =>
    let oldBrk := (w.mm m).brk
    if oldBrk < newBrk then
      let start := pageRoundUp oldBrk
      let size :=
        (pageRoundUp newBrk + 2 ^ 32 - pageRoundUp oldBrk) % 2 ^ 32
      holePages (w.mem m) start size ++
        if ptIsHole (w.mem m) start size = some true ∧ size ≠ 0 then
          mapPages host reply start size
        else
          []
    else
      unmapPages (w.mem m) (page newBrk) (page oldBrk - page newBrk)

/--
What a success has to have done: `mmap` mapped the range it answers with,
`munmap` unmapped its range, `mprotect` gave every page the protection,
`mremap` left the new range mapped, and `brk` mapped or unmapped the pages
between the two breaks.  A range that does not fit must not succeed.
-/
def Covers (w next : World) (m : MmId) (result : Nat) :
    RangeCall → Prop
  | mmap args _ _ =>
    (args.addr ≠ 0 → result = args.addr) ∧
      RangeFits result args.len ∧
      ∀ other, InRange result args.len other →
        ∃ entry,
          next.lookup m other = some entry ∧ entry.data = w.nextData
  | munmap addr len =>
    RangeFits addr len ∧
      ∀ other, InRange addr len other → next.lookup m other = none
  | mprotect addr len prot _ =>
    RangeFits addr len ∧
      ∀ other, InRange addr len other →
        ∃ entry,
          next.lookup m other = some entry ∧ entry.flags = prot
  | mremap addr _ newLen _ _ =>
    RangeFits addr newLen ∧
      ∀ other, InRange addr newLen other → next.lookup m other ≠ none
  | brk newBrk _ =>
    result = newBrk →
      ((w.mm m).brk < newBrk →
      RangeFits 0 newBrk ∧
        ∀ other,
          ceilPages (w.mm m).brk ≤ other → other < ceilPages newBrk →
          next.lookup m other ≠ none) ∧
      ∀ other,
        ceilPages newBrk ≤ other → other < ceilPages (w.mm m).brk →
        next.lookup m other = none

/-- The call stays in the directory, and a success covers its range. -/
structure KeepsToRange
    (host : Host) (w : World) (m : MmId) (call : RangeCall) : Prop where
  inside : ∀ other ∈ call.pages host w m, other < memPages
  covers :
    ∀ {result next},
      call.run host w m = some (.ok result, next) →
      call.Covers w next m result

end RangeCall

end GuestKernel
