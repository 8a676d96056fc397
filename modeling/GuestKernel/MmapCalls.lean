import GuestKernel.AddressSpaceFrames

namespace GuestKernel
open Option

/-!
# The mapping system calls

`kernel/mmap.c` over the page-table operations: `mmap`, `munmap`, `mremap`,
`mprotect`, `brk`, and the copy of an address space made by `fork`.  The calls
that take the write lock are single steps.  The table of open files and the
content of a file are arguments, since other parts of the kernel decide them.
-/

def mmapShared : Flags := 0x1
def mmapPrivate : Flags := 0x2
def mmapFixed : Flags := 0x10
def mmapAnonymous : Flags := 0x20
def mremapMaymove : Flags := 1
def mremapFixed : Flags := 2

/-- What `f_get` finds behind a file descriptor. -/
structure OpenFile where
  fd : FdId
  hasMmap : Bool
  deriving Repr, DecidableEq

/-- A file mapping of the host: its answer and the bytes it shows. -/
structure FileReply where
  map : MapReply
  content : Nat → UInt8

/-- The content is in place once the host has mapped the file. -/
def FileReply.fill (reply : FileReply) (w : World) (length : Nat) : World :=
  match reply.map.memory with
  | .error _ => w
  | .ok memory => w.fillBytes memory length reply.content

/-- The distance of a file offset from the host page boundary below it. -/
def realCorrection (host : Host) (offset : Nat) : Nat :=
  offset - offset / host.realPageSize * host.realPageSize

/--
`realfs_mmap`.  The reply carries the content of the file at the time; what the
host shows of later changes is no matter of one address space.
-/
def realfsMmap
    (host : Host)
    (w : World)
    (m : MmId)
    (start pages offset : Nat)
    (prot : Flags)
    (reply : FileReply) : Option Outcome :=
  let correction := realCorrection host offset
  ptMap host (reply.fill w (pages * pageSize % 2 ^ 32 + correction)) m
    start pages reply.map correction prot

/--
The page `do_mmap` decides to map at.  A hint over mapped pages resets `addr`
but leaves the page chosen from it, and only an `addr` that was zero on entry
starts the search for a hole.
-/
def choosePage
    (mem : Mem) (addr pages : Nat) (flags : Flags) :
    Option (Except Errno Nat) :=
  if addr ≠ 0 then
    if pgOffset addr ≠ 0 then
      some (.error .inval)
    else if hasFlag flags mmapFixed then
      some (.ok (page addr))
    else do
      let _ ← ptIsHole mem (page addr) pages
      pure (.ok (page addr))
  else
    let found := ptFindHole mem pages
    if found = badPage then
      some (.error .nomem)
    else
      some (.ok found)

/-- The mapping stage of `do_mmap`, at the page it chose. -/
def mapChosen
    (host : Host)
    (w : World)
    (m : MmId)
    (chosen pages : Nat)
    (prot flags : Flags)
    (file : Option OpenFile)
    (offset : Nat)
    (anonymous : MapReply)
    (mapping : FileReply) : Option Outcome :=
  if hasFlag flags mmapAnonymous then
    ptMapNothing host w m chosen pages anonymous prot
  else
    match file with
    | none => some (.error .badf, w)
    | some file =>
      if file.hasMmap then do
        match ← realfsMmap host w m chosen pages offset prot mapping with
        | (.error code, w) => pure (.error code, w)
        | (.ok (), w) =>
          let w ← w.attachFile m chosen file.fd offset
          pure (.ok (), w)
      else
        some (.error .nodev, w)

/-- The arguments of `mmap`, and the open file behind its descriptor. -/
structure MmapArgs where
  addr : Nat
  len : Nat
  prot : Flags
  flags : Flags
  file : Option OpenFile
  offset : Nat

/-- The flags a mapping gets: its protection and whether it is shared. -/
def mappingFlags (args : MmapArgs) : Flags :=
  if hasFlag args.flags mmapShared then args.prot ||| pShared
  else args.prot

/-- `do_mmap`; a success carries the mapped address. -/
def doMmap
    (host : Host)
    (w : World)
    (m : MmId)
    (args : MmapArgs)
    (anonymous : MapReply)
    (mapping : FileReply) : Option (Except Errno Nat × World) :=
  let pages := pageRoundUp args.len
  if pages = 0 then
    some (.error .inval, w)
  else do
    match ← choosePage (w.mem m) args.addr pages args.flags with
    | .error code => pure (.error code, w)
    | .ok chosen =>
      match ← mapChosen host w m chosen pages (mappingFlags args)
          args.flags args.file args.offset anonymous mapping with
      | (.error code, w) => pure (.error code, w)
      | (.ok (), w) => pure (.ok (chosen * pageSize), w)

/-- `mmap_common`. -/
def mmapCommon
    (host : Host)
    (w : World)
    (m : MmId)
    (args : MmapArgs)
    (anonymous : MapReply)
    (mapping : FileReply) : Option (Except Errno Nat × World) :=
  if args.len = 0 then
    some (.error .inval, w)
  else if hasFlag args.prot (~~~pRwx) then
    some (.error .inval, w)
  else if hasFlag args.flags mmapPrivate ∧
      hasFlag args.flags mmapShared then
    some (.error .inval, w)
  else
    doMmap host w m args anonymous mapping

/-- `sys_mmap2`, whose offset counts pages. -/
def sysMmap2
    (host : Host)
    (w : World)
    (m : MmId)
    (args : MmapArgs)
    (anonymous : MapReply)
    (mapping : FileReply) : Option (Except Errno Nat × World) :=
  mmapCommon host w m
    { args with offset := args.offset * pageSize % 2 ^ 32 }
    anonymous mapping

/-- `sys_mmap`, whose arguments `user_get` reads from guest memory. -/
def sysMmap
    (host : Host)
    (w : World)
    (m : MmId)
    (args : Option MmapArgs)
    (anonymous : MapReply)
    (mapping : FileReply) : Option (Except Errno Nat × World) :=
  match args with
  | none => some (.error .fault, w)
  | some args => mmapCommon host w m args anonymous mapping

/-- `sys_munmap`. -/
def sysMunmap
    (host : Host) (w : World) (m : MmId) (addr len : Nat) :
    Option Outcome :=
  if pgOffset addr ≠ 0 then
    some (.error .inval, w)
  else if len = 0 then
    some (.error .inval, w)
  else do
    let w ← ptUnmapAlways host w m (page addr) (pageRoundUp len)
    pure (.ok (), w)

/--
The growing half of `sys_mremap`.  The check loop tests
`entry == NULL && entry->flags != pt_flags`, so an unmapped page inside the
old range is a null dereference.
-/
def mremapGrow
    (host : Host)
    (w : World)
    (m : MmId)
    (start oldPages newPages : Nat)
    (reply : MapReply) : Option Outcome := do
  match ← memPt (w.mem m) start with
  | none => pure (.error .fault, w)
  | some entry =>
    if ← allMapped (w.mem m) (pageRange start oldPages) then
      if hasFlag entry.flags pAnonymous = false then
        pure (.error .fault, w)
      else
        let extraStart := (start + oldPages) % 2 ^ 32
        let extraPages := newPages - oldPages
        if ← ptIsHole (w.mem m) extraStart extraPages then
          ptMapNothing host w m extraStart extraPages reply entry.flags
        else
          pure (.error .nomem, w)
    else
      none

/-- `sys_mremap`; a success returns the old address. -/
def sysMremap
    (host : Host)
    (w : World)
    (m : MmId)
    (addr oldLen newLen : Nat)
    (flags : Flags)
    (reply : MapReply) : Option Outcome :=
  if pgOffset addr ≠ 0 then
    some (.error .inval, w)
  else if hasFlag flags (~~~(mremapMaymove ||| mremapFixed)) then
    some (.error .inval, w)
  else if hasFlag flags mremapFixed then
    some (.error .inval, w)
  else
    let oldPages := page oldLen
    let newPages := page newLen
    if newPages ≤ oldPages then do
      match ← ptUnmap host w m ((page addr + newPages) % 2 ^ 32)
          (oldPages - newPages) with
      | (true, w) => pure (.ok (), w)
      | (false, w) => pure (.error .fault, w)
    else
      mremapGrow host w m (page addr) oldPages newPages reply

/-- `sys_mprotect`. -/
def sysMprotect
    (w : World)
    (m : MmId)
    (addr len : Nat)
    (prot : Flags)
    (hostMprotect : Nat → Except Errno Unit) : Option Outcome :=
  if pgOffset addr ≠ 0 then
    some (.error .inval, w)
  else if hasFlag prot (~~~pRwx) then
    some (.error .inval, w)
  else
    ptSetFlags w m (page addr) (pageRoundUp len) prot hostMprotect

/-- Set the breaks of an address space. -/
def World.setBrks (w : World) (m : MmId) (startBrk brk : Nat) : World :=
  { w with
    mm :=
      Function.update w.mm m
        { w.mm m with startBrk := startBrk, brk := brk } }

/-- `mm->brk = brk`. -/
def World.setBrk (w : World) (m : MmId) (brk : Nat) : World :=
  w.setBrks m (w.mm m).startBrk brk

/-- `sys_brk`, which returns the break the address space then has. -/
def sysBrk
    (host : Host)
    (w : World)
    (m : MmId)
    (newBrk : Nat)
    (reply : MapReply) : Option World :=
  let oldBrk := (w.mm m).brk
  if newBrk < (w.mm m).startBrk then
    some w
  else if oldBrk < newBrk then do
    let start := pageRoundUp oldBrk
    let size :=
      (pageRoundUp newBrk + 2 ^ 32 - pageRoundUp oldBrk) % 2 ^ 32
    if ← ptIsHole (w.mem m) start size then
      match ← ptMapNothing host w m start size reply pWrite with
      | (.error _, w) => pure w
      | (.ok (), w) => pure (w.setBrk m newBrk)
    else
      pure w
  else if newBrk < oldBrk then do
    let w ←
      ptUnmapAlways host w m (page newBrk) (page oldBrk - page newBrk)
    pure (w.setBrk m newBrk)
  else
    some (w.setBrk m newBrk)

/-- `mm_copy`: the breaks are inherited, the pages are shared. -/
def mmCopy (host : Host) (w : World) (m : MmId) : Option World :=
  ptCopyOnWrite host (w.addMm (w.mm m).startBrk (w.mm m).brk) m w.mmCount
    0 memPages

variable {w next : World} {m : MmId} {host : Host} {result : Except Errno Unit}
  {addr : Nat} {anonymous : MapReply} {mapping : FileReply}

/-- The mapping stage fails early, or maps zeros, or maps a file. -/
theorem mapChosen_cases
    {chosen pages offset : Nat}
    {prot flags : Flags}
    {file : Option OpenFile}
    (mapped :
      mapChosen host w m chosen pages prot flags file offset anonymous
          mapping =
        some (result, next)) :
    (∃ code, result = .error code ∧ next = w) ∨
      ptMapNothing host w m chosen pages anonymous prot =
        some (result, next) ∨
      ∃ middle,
        realfsMmap host w m chosen pages offset prot mapping =
            some (result, middle) ∧
          ((∃ code, result = .error code ∧ next = middle) ∨
            (result = .ok () ∧
              ∃ fd, middle.attachFile m chosen fd offset =
                some next)) := by
  unfold mapChosen at mapped
  split at mapped
  · exact .inr (.inl mapped)
  · split at mapped
    · cases mapped
      exact .inl ⟨.badf, rfl, rfl⟩
    · split at mapped
      · obtain ⟨⟨stage, middle⟩, call, rest⟩ :=
          bind_eq_some_iff.mp mapped
        cases stage with
        | error code =>
          cases rest
          exact .inr (.inr ⟨_, call, .inl ⟨code, rfl, rfl⟩⟩)
        | ok _ =>
          obtain ⟨attached, attach, finish⟩ :=
            bind_eq_some_iff.mp rest
          cases finish
          exact .inr (.inr ⟨_, call, .inr ⟨rfl, _, attach⟩⟩)
      · cases mapped
        exact .inl ⟨.nodev, rfl, rfl⟩

/-- A mapping stage that succeeds is one `pt_map`, of the same pages. -/
theorem mapChosen_ptMap
    {chosen pages offset : Nat}
    {prot flags : Flags}
    {file : Option OpenFile}
    (nonempty : pages ≠ 0)
    (mapped :
      mapChosen host w m chosen pages prot flags file offset anonymous
          mapping =
        some (.ok (), next)) :
    ∃ filled middle reply correction prot,
      filled.lookup = w.lookup ∧ filled.nextData = w.nextData ∧
      ptMap host filled m chosen pages reply correction prot =
        some (.ok (), middle) ∧
      next.lookup = middle.lookup := by
  rcases mapChosen_cases mapped with
    ⟨_, failed, _⟩ | nothing | ⟨middle, fileMap, rest⟩
  · cases failed
  · rcases ptMapNothing_cases nothing with
      ⟨isEmpty, _⟩ | ⟨fresh, isFresh, call⟩
    · exact absurd isEmpty nonempty
    · refine ⟨_, _, _, _, _, ?_, ?_, call, rfl⟩ <;>
        rcases isFresh with rfl | ⟨_, _, rfl⟩ <;> rfl
  · rcases rest with ⟨_, failed, _⟩ | ⟨_, fd, attached⟩
    · cases failed
    refine ⟨_, middle, _, _, _, ?_, ?_, fileMap, ?_⟩
    · unfold FileReply.fill
      split <;> rfl
    · unfold FileReply.fill
      split <;> rfl
    · obtain ⟨_, _, _, _, rfl⟩ := World.attachFile_eq_some.mp attached
      rfl

/-- `mmap` refuses its arguments, or maps at the page it chose. -/
theorem mmapCommon_cases
    {args : MmapArgs}
    {result : Except Errno Nat}
    (call :
      mmapCommon host w m args anonymous mapping =
        some (result, next)) :
    (∃ code, result = .error code ∧ next = w) ∨
      pageRoundUp args.len ≠ 0 ∧
        hasFlag args.prot (~~~pRwx) = false ∧
        ∃ chosen stage,
          choosePage (w.mem m) args.addr (pageRoundUp args.len)
              args.flags = some (.ok chosen) ∧
            mapChosen host w m chosen (pageRoundUp args.len)
                (mappingFlags args) args.flags args.file args.offset
                anonymous mapping = some (stage, next) ∧
              result = stage.map fun _ => chosen * pageSize := by
  unfold mmapCommon at call
  split at call
  · cases call
    exact .inl ⟨.inval, rfl, rfl⟩
  split at call
  · cases call
    exact .inl ⟨.inval, rfl, rfl⟩
  rename_i protection
  split at call
  · cases call
    exact .inl ⟨.inval, rfl, rfl⟩
  unfold doMmap at call
  simp only at call
  split at call
  · cases call
    exact .inl ⟨.inval, rfl, rfl⟩
  rename_i nonempty
  obtain ⟨choice, chosenPage, rest⟩ := bind_eq_some_iff.mp call
  cases choice with
  | error code =>
    cases rest
    exact .inl ⟨code, rfl, rfl⟩
  | ok chosen =>
    obtain ⟨⟨stage, state⟩, mapped, finish⟩ :=
      bind_eq_some_iff.mp rest
    refine .inr ⟨nonempty, Bool.not_eq_true _ ▸ protection, chosen,
      stage, chosenPage, ?_⟩
    cases stage <;>
      cases finish <;>
      exact ⟨mapped, rfl⟩

/-- `munmap` refuses its arguments or unmaps the range. -/
theorem sysMunmap_cases
    {len : Nat}
    (call : sysMunmap host w m addr len = some (result, next)) :
    next = w ∨
      ptUnmapAlways host w m (page addr) (pageRoundUp len) =
        some next := by
  unfold sysMunmap at call
  split at call
  · cases call
    exact .inl rfl
  split at call
  · cases call
    exact .inl rfl
  obtain ⟨state, always, finish⟩ := bind_eq_some_iff.mp call
  cases finish
  exact .inr always

/-- `mremap` refuses, unmaps the tail, or maps more of the same. -/
theorem sysMremap_cases
    {oldLen newLen : Nat}
    {flags : Flags}
    {reply : MapReply}
    (call :
      sysMremap host w m addr oldLen newLen flags reply =
        some (result, next)) :
    next = w ∨
      (∃ start pages, ptUnmapAlways host w m start pages = some next) ∨
      ∃ start entry,
        w.lookup m (page addr) = some entry ∧
          (∀ other ∈ pageRange start (page newLen - page oldLen),
            w.lookup m other = none) ∧
            ptMapNothing host w m start (page newLen - page oldLen)
              reply entry.flags = some (result, next) := by
  unfold sysMremap at call
  split at call
  · cases call
    exact .inl rfl
  split at call
  · cases call
    exact .inl rfl
  split at call
  · cases call
    exact .inl rfl
  simp only at call
  split at call
  · obtain ⟨⟨success, state⟩, unmap, finish⟩ :=
      bind_eq_some_iff.mp call
    rcases ptUnmap_cases unmap with ⟨rfl, rfl⟩ | ⟨rfl, _, always⟩ <;>
      cases finish
    · exact .inl rfl
    · exact .inr (.inl ⟨_, _, always⟩)
  · unfold mremapGrow at call
    obtain ⟨found, lookedUp, rest⟩ := bind_eq_some_iff.mp call
    obtain ⟨_, isEntry⟩ := memPt_eq_some.mp lookedUp
    cases found with
    | none =>
      cases rest
      exact .inl rfl
    | some entry =>
      obtain ⟨mapped, _, rest⟩ := bind_eq_some_iff.mp rest
      split at rest
      · split at rest
        · cases rest
          exact .inl rfl
        · obtain ⟨hole, holeCheck, rest⟩ :=
            bind_eq_some_iff.mp rest
          cases hole with
          | false =>
            cases rest
            exact .inl rfl
          | true =>
            refine .inr (.inr ⟨_, entry, isEntry, ?_, rest⟩)
            intro other inRange
            exact (ptIsHole_true.mp holeCheck other inRange).2
      · cases rest

/-- `brk` does nothing, maps more heap or unmaps some. -/
theorem sysBrk_cases
    {newBrk : Nat}
    {reply : MapReply}
    (call : sysBrk host w m newBrk reply = some next) :
    next = w ∨
      (∃ result state,
        ptMapNothing host w m (pageRoundUp (w.mm m).brk)
            ((pageRoundUp newBrk + 2 ^ 32 - pageRoundUp (w.mm m).brk) %
              2 ^ 32) reply pWrite = some (result, state) ∧
          (next = state ∨ next = state.setBrk m newBrk)) ∨
      ∃ state,
        (state = w ∨
          ∃ start pages,
            ptUnmapAlways host w m start pages = some state) ∧
          next = state.setBrk m newBrk := by
  unfold sysBrk at call
  simp only at call
  split at call
  · cases call
    exact .inl rfl
  split at call
  · obtain ⟨hole, _, rest⟩ := bind_eq_some_iff.mp call
    cases hole with
    | false =>
      cases rest
      exact .inl rfl
    | true =>
      obtain ⟨⟨result, state⟩, mapped, finish⟩ :=
        bind_eq_some_iff.mp rest
      refine .inr (.inl ⟨result, state, mapped, ?_⟩)
      cases result <;> cases finish
      · exact .inl rfl
      · exact .inr rfl
  split at call
  · obtain ⟨state, always, finish⟩ := bind_eq_some_iff.mp call
    cases finish
    exact .inr (.inr ⟨state, .inr ⟨_, _, always⟩, rfl⟩)
  · cases call
    exact .inr (.inr ⟨w, .inl rfl, rfl⟩)

/-- `mprotect` refuses its arguments or sets the flags. -/
theorem sysMprotect_cases
    {len : Nat}
    {prot : Flags}
    {hostMprotect : Nat → Except Errno Unit}
    (call :
      sysMprotect w m addr len prot hostMprotect =
        some (result, next)) :
    next = w ∨
      (hasFlag prot (~~~pRwx) = false ∧
        ptSetFlags w m (page addr) (pageRoundUp len) prot hostMprotect =
          some (result, next)) := by
  unfold sysMprotect at call
  split at call
  · cases call
    exact .inl rfl
  split at call
  · cases call
    exact .inl rfl
  · rename_i protection
    exact .inr ⟨Bool.not_eq_true _ ▸ protection, call⟩

end GuestKernel
