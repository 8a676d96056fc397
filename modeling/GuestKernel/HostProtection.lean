import GuestKernel.HostRegions

namespace GuestKernel

/-!
# What the host lets the guest write

The host keeps a protection for every page of its own, which may be larger than
a guest page: `mmap` gives one to all pages of a new region, and `pt_set_flags`
changes the one page that the start of a guest page lies on, and only when the
guest protection increases.
-/

/-- All address spaces, and the host pages that the host lets be written. -/
structure HostedWorld where
  world : World
  writable : Nat → Bool

/-- The host page of a byte of a guest page. -/
def hostPageOf
    (host : Host) (record : Data) (entry : PtEntry) (index : Nat) : Nat :=
  (record.data + entry.offset + index) % 2 ^ 64 / host.realPageSize

/-- The host maps whole pages, all with one protection. -/
def MapReply.grant
    (reply : MapReply)
    (host : Host)
    (length : Nat)
    (canWrite : Bool)
    (writable : Nat → Bool) : Nat → Bool :=
  match reply.memory with
  | .error _ => writable
  | .ok memory => fun hostPage =>
    if memory / host.realPageSize ≤ hostPage ∧
        hostPage * host.realPageSize < memory + length then
      canWrite
    else
      writable hostPage

/-- The pages that the host maps have no byte of live data. -/
def MapReply.SparesPages
    (reply : MapReply) (host : Host) (w : World) (length : Nat) : Prop :=
  ∀ {memory},
    reply.memory = .ok memory →
    ∀ {id record},
      w.data id = some record →
      ∀ address, record.data ≤ address →
      address < record.data + record.size →
      ¬(memory / host.realPageSize ≤
            address % 2 ^ 64 / host.realPageSize ∧
          address % 2 ^ 64 / host.realPageSize * host.realPageSize <
            memory + length)

/--
The host pages whose protection the loop of `pt_set_flags` changes: the host's
`mprotect` is asked where the guest protection increases, for the host page
that the guest page starts on, and the loop ends where it refuses.
-/
def protectedPages
    (host : Host)
    (w : World)
    (m : MmId)
    (flags : Flags)
    (hostMprotect : Nat → Except Errno Unit) : List Nat → List Nat
  | [] => []
  | page :: rest =>
    match w.lookup m page with
    | none => []
    | some entry =>
      if hasFlag (flags &&& ~~~entry.flags) (pRead ||| pWrite) then
        match w.data entry.data, hostMprotect page with
        | some record, .ok () =>
          hostPageOf host record entry 0 ::
            protectedPages host w m flags hostMprotect rest
        | _, _ => []
      else
        protectedPages host w m flags hostMprotect rest

/-- The pages whose flags one `mprotect` call of the guest rewrites. -/
def mprotectRewrites
    (w : World)
    (m : MmId)
    (addr len : Nat)
    (prot : Flags)
    (hostMprotect : Nat → Except Errno Unit) : List Nat :=
  if pgOffset addr ≠ 0 ∨ hasFlag prot (~~~pRwx) = true then
    []
  else
    setPages w m (page addr) (pageRoundUp len) prot hostMprotect

/-- The host pages that one `mprotect` call of the guest changes. -/
def mprotectPages
    (host : Host)
    (w : World)
    (m : MmId)
    (addr len : Nat)
    (prot : Flags)
    (hostMprotect : Nat → Except Errno Unit) : List Nat :=
  if pgOffset addr ≠ 0 ∨ hasFlag prot (~~~pRwx) = true then
    []
  else if allMapped (w.mem m) (pageRange (page addr) (pageRoundUp len)) =
      some true then
    protectedPages host w m prot hostMprotect
      (pageRange (page addr) (pageRoundUp len))
  else
    []

namespace MemoryAction

/-- The host regions an action may map, with their protections. -/
def grant (host : Host) (w : World) :
    MemoryAction → (Nat → Bool) → Nat → Bool
  | execMap _ _ pages reply offset flags =>
    if reply.map.memory = .ok host.vdsoData then
      -- the vdso is in our data segment and is not mapped again
      id
    else
      reply.map.grant host (pages * pageSize % 2 ^ 32 + offset)
        (hasFlag flags pWrite)
  | execNothing _ _ pages reply _ =>
    reply.grant host (pages * pageSize % 2 ^ 32) true
  | mmap _ args anonymous mapping =>
    if hasFlag args.flags mmapAnonymous then
      anonymous.grant host (pageRoundUp args.len * pageSize % 2 ^ 32) true
    else
      mapping.map.grant host
        (pageRoundUp args.len * pageSize % 2 ^ 32 +
          realCorrection host args.offset)
        (hasFlag args.prot pWrite)
  | mremap _ _ oldLen newLen _ reply =>
    reply.grant host ((page newLen - page oldLen) * pageSize % 2 ^ 32) true
  | brk m newBrk reply =>
    reply.grant host
      ((pageRoundUp newBrk + 2 ^ 32 - pageRoundUp (w.mm m).brk) % 2 ^ 32 *
        pageSize % 2 ^ 32)
      true
  | resolveFault _ _ _ _ grow copy => fun writable =>
    copy.grant host pageSize true (grow.grant host pageSize true writable)
  | mprotect m addr len prot hostMprotect => fun writable hostPage =>
    if hostPage ∈ mprotectPages host w m addr len prot hostMprotect then
      hasFlag prot pWrite
    else
      writable hostPage
  | _ => id

/--
A file is mapped to pages without live data, and the vdso is mapped without
write permission.
-/
def mapsFresh (host : Host) (w : World) : MemoryAction → Prop
  | execMap _ _ pages reply offset flags =>
    (reply.map.memory = .ok host.vdsoData → hasFlag flags pWrite = false) ∧
      reply.map.SparesPages host w (pages * pageSize % 2 ^ 32 + offset)
  | mmap _ args _ mapping =>
    mapping.map.SparesPages host w
      (pageRoundUp args.len * pageSize % 2 ^ 32 +
        realCorrection host args.offset)
  | _ => True

end MemoryAction

/-- All processes, with the protections of the host. -/
def hostedMachine (host : Host) : Machine HostedWorld MemoryAction where
  initial state := state.world = World.empty
  step state action next :=
    (memoryMachine host).step state.world action next.world ∧
      action.mapsFresh host state.world ∧
      next.writable = action.grant host state.world state.writable

/-- Some byte of a page with `P_WRITABLE` flags lies on a host page. -/
def WritesTo
    (host : Host) (w : World) (m : MmId) (page hostPage : Nat) : Prop :=
  ∃ entry record index,
    w.lookup m page = some entry ∧ pWritable entry.flags = true ∧
      w.data entry.data = some record ∧ index < pageSize ∧
      hostPageOf host record entry index = hostPage

/-- The host lets all of them be written. -/
def HostWritable (host : Host) (state : HostedWorld) : Prop :=
  ∀ m page hostPage,
    WritesTo host state.world m page hostPage →
    state.writable hostPage = true

/--
What an `mprotect` has to find.  If it grants write access: every host page
under the pages that it rewrites is writable already, or the call makes it so.
If not: no byte of another page that is writable lies on a host page that the
call makes read-only.
-/
def MprotectGrants (host : Host) (state : HostedWorld) :
    MemoryAction → Prop
  | .mprotect m addr len prot hostMprotect =>
    (hasFlag prot pWrite = true →
        ∀ page ∈ mprotectRewrites state.world m addr len prot hostMprotect,
          ∀ entry record index,
            state.world.lookup m page = some entry →
            state.world.data entry.data = some record →
            index < pageSize →
            state.writable (hostPageOf host record entry index) =
                true ∨
              hostPageOf host record entry index ∈
                mprotectPages host state.world m addr len prot
                  hostMprotect) ∧
      (hasFlag prot pWrite = false →
        ∀ hostPage ∈
            mprotectPages host state.world m addr len prot hostMprotect,
          ∀ other otherPage,
            WritesTo host state.world other otherPage hostPage →
            other = m ∧
              otherPage ∈
                mprotectRewrites state.world m addr len prot
                  hostMprotect)
  | _ => True

/-- A step of a run that keeps the rule; it wraps no count either. -/
def GrantingStep
    (host : Host) (state : HostedWorld) (action : MemoryAction) : Prop :=
  MprotectGrants host state action ∧
    ∀ next, action.run host state.world = some next → next.wrapped = false

end GuestKernel
