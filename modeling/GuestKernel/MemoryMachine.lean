import Mathlib.Logic.Relation
import GuestKernel.BackingCount
import GuestKernel.MmapCalls

namespace GuestKernel
open Option

/-!
# Processes sharing guest memory

The machine whose steps are the mapping system calls, the page faults and the
guest writes of any number of processes, in any interleaving.  Each step runs
under the lock of its address space.

`Effect` is the vocabulary of what such a step can do to the system: every
step except `mprotect` is a run of effects, so an invariant is checked once
per effect and not once per system call.
-/

/-- A host region that overlaps no live data. -/
def Fresh (w : World) (memory length : Nat) : Prop :=
  memory + length ≤ 2 ^ 64 ∧
    ∀ {id record},
      w.data id = some record →
      memory + length ≤ record.data ∨
        record.data + record.size ≤ memory

/-- The memory the host hands out, if any, is not in use. -/
def MapReply.Fresh (reply : MapReply) (w : World) (length : Nat) : Prop :=
  ∀ {memory},
    reply.memory = .ok memory → GuestKernel.Fresh w memory length

/-- Replacing one byte of host memory. -/
def World.writeByte (w : World) (address : Nat) (value : UInt8) :
    World :=
  w.fillBytes address 1 fun _ => value

/-- The outcome of one round of the loop of `mem_ptr`. -/
inductive MemPtr where
  | pointer (address : Nat)
  | null
  | resolve
  deriving Repr, DecidableEq

/--
One round of the loop of `mem_ptr`, under the read lock: it returns a pointer,
gives up, or goes on to resolve a fault under the write lock.
-/
def memPtrRound
    (w : World)
    (m : MmId)
    (addr : Nat)
    (type : Access)
    (ptraceCopy : Bool) : Option MemPtr := do
  let entry ← memPt (w.mem m) (page addr)
  let writing := type ≠ .read
  let usable : Bool :=
    match entry with
    | none => false
    | some entry =>
      !ptraceCopy && (!decide writing || pWritable entry.flags)
  let refused : Bool :=
    match entry with
    | none => false
    | some entry =>
      decide (type = .write) && !hasFlag entry.flags pWrite
  if usable then
    pure (match memPtrNofault w m addr type with
      | some address => .pointer address
      | none => .null)
  else if refused then
    pure .null
  else
    pure .resolve

/-- What one process, or the host, does to guest memory. -/
inductive MemoryAction where
  | mmNew
  | execMap
      (m : MmId) (start pages : Nat) (reply : FileReply)
      (offset : Nat) (flags : Flags)
  | execNothing
      (m : MmId) (start pages : Nat) (reply : MapReply) (flags : Flags)
  | execBrk (m : MmId) (newBrk : Nat)
  | mmap
      (m : MmId) (args : MmapArgs) (anonymous : MapReply)
      (mapping : FileReply)
  | munmap (m : MmId) (addr len : Nat)
  | mremap
      (m : MmId) (addr oldLen newLen : Nat) (flags : Flags)
      (reply : MapReply)
  | mprotect
      (m : MmId) (addr len : Nat) (prot : Flags)
      (hostMprotect : Nat → Except Errno Unit)
  | brk (m : MmId) (newBrk : Nat) (reply : MapReply)
  | fork (m : MmId)
  | exit (m : MmId)
  | resolveFault
      (m : MmId) (page : Nat) (type : Access) (ptraceCopy : Bool)
      (grow copy : MapReply)
  | store (m : MmId) (addr : Nat) (type : Access) (value : UInt8)
  | translatedStore (m : MmId) (addr : Nat) (value : UInt8)

/-- The mappings `exec` makes for a new program. -/
def execMap
    (host : Host)
    (w : World)
    (m : MmId)
    (start pages : Nat)
    (reply : FileReply)
    (offset : Nat)
    (flags : Flags) : Option Outcome :=
  ptMap host (reply.fill w (pages * pageSize % 2 ^ 32 + offset)) m
    start pages reply.map offset flags

namespace MemoryAction

/-- The address space the action works on. -/
def actor (w : World) : MemoryAction → MmId
  | mmNew => w.mmCount
  | execMap m .. => m
  | execNothing m .. => m
  | execBrk m _ => m
  | mmap m .. => m
  | munmap m .. => m
  | mremap m .. => m
  | mprotect m .. => m
  | brk m .. => m
  | fork m => m
  | exit m => m
  | resolveFault m .. => m
  | store m .. => m
  | translatedStore m .. => m

/--
What the host promises: `mmap` returns memory that is not in use.  A fault that
grows the stack and then copies gets two separate regions.
-/
def hostHonest (host : Host) (w : World) : MemoryAction → Prop
  | execMap _ _ pages reply offset _ =>
    reply.map.Fresh w (pages * pageSize % 2 ^ 32 + offset)
  | execNothing _ _ pages reply _ =>
    reply.Fresh w (pages * pageSize % 2 ^ 32)
  | mmap _ args anonymous mapping =>
    anonymous.Fresh w (pageRoundUp args.len * pageSize % 2 ^ 32) ∧
      mapping.map.Fresh w
        (pageRoundUp args.len * pageSize % 2 ^ 32 +
          realCorrection host args.offset)
  | mremap _ _ oldLen newLen _ reply =>
    reply.Fresh w ((page newLen - page oldLen) * pageSize % 2 ^ 32)
  | brk m newBrk reply =>
    reply.Fresh w
      ((pageRoundUp newBrk + 2 ^ 32 - pageRoundUp (w.mm m).brk) %
        2 ^ 32 * pageSize % 2 ^ 32)
  | resolveFault _ _ _ _ grow copy =>
    grow.Fresh w pageSize ∧
      copy.Fresh w pageSize ∧
      ∀ {grown copied},
        grow.memory = .ok grown →
        copy.memory = .ok copied →
        grown + pageSize ≤ copied ∨ copied + pageSize ≤ grown
  | _ => True

/-- The state after the action, whether or not it returns an error. -/
def run (host : Host) (w : World) : MemoryAction → Option World
  | mmNew => some (GuestKernel.mmNew w)
  | execMap m start pages reply offset flags =>
    (GuestKernel.execMap host w m start pages reply offset flags).map
      Prod.snd
  | execNothing m start pages reply flags =>
    (ptMapNothing host w m start pages reply flags).map Prod.snd
  | execBrk m newBrk => some (w.setBrks m newBrk newBrk)
  | mmap m args anonymous mapping =>
    (mmapCommon host w m args anonymous mapping).map Prod.snd
  | munmap m addr len => (sysMunmap host w m addr len).map Prod.snd
  | mremap m addr oldLen newLen flags reply =>
    (sysMremap host w m addr oldLen newLen flags reply).map Prod.snd
  | mprotect m addr len prot hostMprotect =>
    (sysMprotect w m addr len prot hostMprotect).map Prod.snd
  | brk m newBrk reply => sysBrk host w m newBrk reply
  | fork m => mmCopy host w m
  | exit m => memDestroy host w m
  | resolveFault m page type ptraceCopy grow copy =>
    (memResolveFault host w m page type ptraceCopy grow copy).map
      Prod.snd
  | store m addr type value =>
    if type = .read then
      none
    else
      match memPtrRound w m addr type false with
      | some (.pointer address) => some (w.writeByte address value)
      | _ => none
  | translatedStore m addr value =>
    (memPtrNofault w m addr .write).map fun address =>
      w.writeByte address value

end MemoryAction

/-- All processes, starting without any address space. -/
def memoryMachine (host : Host) : Machine World MemoryAction where
  initial w := w = World.empty
  step w action next :=
    (action ≠ .mmNew → action.actor w < w.mmCount) ∧
      action.hostHonest host w ∧
      action.run host w = some next

/-- One elementary change of the shared state, made for one process. -/
inductive Effect (host : Host) (m : MmId) : World → World → Prop where
  | fill {w : World} {memory length : Nat} {content : Nat → UInt8} :
      Fresh w memory length →
      Effect host m w (w.fillBytes memory length content)
  | map
      {w next : World} {start pages offset : Nat}
      {reply : MapReply} {flags : Flags} {result : Except Errno Unit} :
      m < w.mmCount →
      reply.Fresh w (pages * pageSize % 2 ^ 32 + offset) →
      ptMap host w m start pages reply offset flags =
        some (result, next) →
      Effect host m w next
  | attach {w next : World} {page offset : Nat} {fd : FdId} :
      w.attachFile m page fd offset = some next →
      Effect host m w next
  | unmap {w next : World} {start pages : Nat} :
      ptUnmapAlways host w m start pages = some next →
      Effect host m w next
  | breaks {w : World} {startBrk brk : Nat} :
      Effect host m w (w.setBrks m startBrk brk)
  | create {w : World} {startBrk brk : Nat} :
      Effect host m w (w.addMm startBrk brk)
  | share {w next : World} {dst : MmId} {start pages : Nat} :
      m ≠ dst →
      dst < w.mmCount →
      (∀ page, w.lookup dst page = none) →
      ptCopyOnWrite host w m dst start pages = some next →
      Effect host m w next
  | destroy {w next : World} :
      memDestroy host w m = some next →
      Effect host m w next
  | store
      {w : World} {addr : Nat} {address : Nat}
      {value : UInt8} {entry : PtEntry} :
      w.lookup m (page addr) = some entry →
      pWritable entry.flags = true →
      memPtrNofault w m addr .write = some address →
      Effect host m w (w.writeByte address value)

/-- A run of effects made for one process. -/
abbrev Effects (host : Host) (m : MmId) : World → World → Prop :=
  Relation.ReflTransGen (Effect host m)

variable {w next : World} {host : Host} {m : MmId} {result : Except Errno Unit}
  {action : MemoryAction}

/-- `pt_map_nothing` fills fresh memory with zeros and maps it. -/
theorem ptMapNothing_effects
    {start pages : Nat}
    {reply : MapReply}
    {flags : Flags}
    (inMm : m < w.mmCount)
    (fresh : reply.Fresh w (pages * pageSize % 2 ^ 32))
    (mapped :
      ptMapNothing host w m start pages reply flags =
        some (result, next)) :
    Effects host m w next := by
  rcases ptMapNothing_cases mapped with
      ⟨_, rfl⟩ | ⟨_, rfl | ⟨memory, replied, rfl⟩, call⟩
  · exact .refl
  · exact .single (.map inMm fresh call)
  · exact .head (.fill (fresh replied)) (.single (.map inMm fresh call))

/-- A file mapping puts the content in place and maps it. -/
theorem FileReply.fill_effects
    {start pages offset : Nat}
    {reply : FileReply}
    {flags : Flags}
    (inMm : m < w.mmCount)
    (fresh : reply.map.Fresh w (pages * pageSize % 2 ^ 32 + offset))
    (mapped :
      ptMap host (reply.fill w (pages * pageSize % 2 ^ 32 + offset)) m
          start pages reply.map offset flags =
        some (result, next)) :
    Effects host m w next := by
  unfold FileReply.fill at mapped
  split at mapped
  · exact .single (.map inMm fresh mapped)
  · rename_i memory replied
    exact .head (.fill (fresh replied)) (.single (.map inMm fresh mapped))

/-- `mmap` maps fresh memory and may attach a file to it. -/
theorem mmapCommon_effects
    {args : MmapArgs}
    {anonymous : MapReply}
    {mapping : FileReply}
    {result : Except Errno Nat}
    (inMm : m < w.mmCount)
    (freshAnonymous :
      anonymous.Fresh w (pageRoundUp args.len * pageSize % 2 ^ 32))
    (freshMapping :
      mapping.map.Fresh w
        (pageRoundUp args.len * pageSize % 2 ^ 32 +
          realCorrection host args.offset))
    (call :
      mmapCommon host w m args anonymous mapping =
        some (result, next)) :
    Effects host m w next := by
  rcases mmapCommon_cases call with
      ⟨_, _, rfl⟩ | ⟨_, _, chosen, stage, _, mapped, _⟩
  · exact .refl
  rcases mapChosen_cases mapped with
      ⟨_, _, rfl⟩ | nothing | ⟨middle, fileMap, rest⟩
  · exact .refl
  · exact ptMapNothing_effects inMm freshAnonymous nothing
  · have mapped := FileReply.fill_effects inMm freshMapping fileMap
    rcases rest with ⟨_, _, rfl⟩ | ⟨_, fd, attached⟩
    · exact mapped
    · exact mapped.tail (.attach attached)

/-- Growing the stack and copying a page are two mappings. -/
theorem memResolveFault_effects
    {faulting : Nat}
    {type : Access}
    {ptraceCopy : Bool}
    {grow copy : MapReply}
    (accounted : Accounted w)
    (inMm : m < w.mmCount)
    (freshGrow : grow.Fresh w pageSize)
    (freshCopy : copy.Fresh w pageSize)
    (apart :
      ∀ {grown copied},
        grow.memory = .ok grown →
        copy.memory = .ok copied →
        grown + pageSize ≤ copied ∨ copied + pageSize ≤ grown)
    (resolved :
      memResolveFault host w m faulting type ptraceCopy grow copy =
        some (result, next)) :
    Effects host m w next := by
  have onePage : 1 * pageSize % 2 ^ 32 = pageSize := by
    simp [pageSize]
  obtain ⟨grown, middle, growth, rest⟩ := memResolveFault_cases resolved
  -- the copy is still fresh once the stack page is mapped
  have grownFacts :
      Effects host m w middle ∧
        m < middle.mmCount ∧
        copy.Fresh middle pageSize := by
    rcases (growStack_cases growth).2 with rfl | ⟨_, mapped⟩
    · exact ⟨.refl, inMm, freshCopy⟩
    refine ⟨ptMapNothing_effects inMm (onePage ▸ freshGrow) mapped,
      (ptMapNothing_records mapped).mmCount ▸ inMm, ?_⟩
    intro copied replied
    refine ⟨(freshCopy replied).1, ?_⟩
    intro id record live
    have accountedMiddle := accounted.ptMapNothing inMm mapped
    rcases ptMapNothing_cases mapped with ⟨_, rfl⟩ | ⟨fresh, isFresh, call⟩
    · exact (freshCopy replied).2 live
    have sameData : fresh.data = w.data := by
      rcases isFresh with rfl | ⟨_, _, rfl⟩ <;> rfl
    rcases ptMap_records call (accountedMiddle.numbered live) live with
        ⟨before, _, wasLive, same⟩ | ⟨_, isGrown, size⟩
    · have apartBefore := (freshCopy replied).2 (sameData ▸ wasLive)
      rw [same]
      exact apartBefore
    · rw [size, Nat.add_zero, onePage]
      exact (apart isGrown replied).symm
  obtain ⟨effects, inMiddle, freshMiddle⟩ := grownFacts
  rcases rest with rfl | rest
  · exact effects
  rcases resolveWrite_cases rest with
      rfl | ⟨entry, record, memory, _, _, replied, copied⟩
  · exact effects
  · refine (effects.tail (.fill (freshMiddle replied))).tail
      (.map inMiddle ?_ copied)
    rw [onePage, Nat.add_zero]
    exact freshMiddle

/-- A pointer handed out for writing is the translation of the address. -/
theorem memPtrRound_pointer
    {addr : Nat}
    {type : Access}
    {address : Nat}
    (writing : type ≠ .read)
    (round :
      memPtrRound w m addr type false = some (.pointer address)) :
    ∃ entry,
      w.lookup m (page addr) = some entry ∧
        pWritable entry.flags = true ∧
        memPtrNofault w m addr .write = some address := by
  unfold memPtrRound at round
  obtain ⟨found, lookedUp, rest⟩ := bind_eq_some_iff.mp round
  obtain ⟨_, isEntry⟩ := memPt_eq_some.mp lookedUp
  cases found with
  | none =>
    simp at rest
  | some entry =>
    have foundEntry : w.lookup m (page addr) = some entry := isEntry
    cases writable : pWritable entry.flags with
    | false =>
      simp only [writing, writable, ne_eq, not_false_eq_true,
        decide_true, Bool.not_true, Bool.not_false, Bool.or_false,
        Bool.and_false, Bool.false_eq_true, if_false] at rest
      split at rest <;> cases rest
    | true =>
      refine ⟨entry, foundEntry, writable, ?_⟩
      have sameTranslation :
          memPtrNofault w m addr type =
            memPtrNofault w m addr .write := by
        simp [memPtrNofault, foundEntry, writable]
      simp only [writable, Bool.or_true, Bool.not_false,
        Bool.and_true, if_true, sameTranslation] at rest
      split at rest
      · rename_i found translated
        cases rest
        exact translated
      · cases rest

/-- Every step but `mprotect` is a run of effects. -/
theorem MemoryAction.effects
    (accounted : Accounted w)
    (notMprotect :
      ∀ {m addr len prot hostMprotect},
        action ≠ .mprotect m addr len prot hostMprotect)
    (taken : (memoryMachine host).step w action next) :
    Effects host (action.actor w) w next := by
  obtain ⟨inUse, honest, run⟩ := taken
  cases action with
  | mmNew =>
    cases run
    exact .single .create
  | execMap m start pages reply offset flags =>
    obtain ⟨⟨_, _⟩, call, rfl⟩ := map_eq_some_iff.mp run
    exact FileReply.fill_effects (inUse (by simp)) honest call
  | execNothing m start pages reply flags =>
    obtain ⟨⟨_, _⟩, call, rfl⟩ := map_eq_some_iff.mp run
    exact ptMapNothing_effects (inUse (by simp)) honest call
  | execBrk m newBrk =>
    cases run
    exact .single .breaks
  | mmap m args anonymous mapping =>
    obtain ⟨⟨_, _⟩, call, rfl⟩ := map_eq_some_iff.mp run
    exact mmapCommon_effects (inUse (by simp)) honest.1 honest.2 call
  | munmap m addr len =>
    obtain ⟨⟨_, _⟩, call, rfl⟩ := map_eq_some_iff.mp run
    rcases sysMunmap_cases call with rfl | always
    · exact .refl
    · exact .single (.unmap always)
  | mremap m addr oldLen newLen flags reply =>
    obtain ⟨⟨_, _⟩, call, rfl⟩ := map_eq_some_iff.mp run
    rcases sysMremap_cases call with
        rfl | ⟨start, pages, always⟩ | ⟨start, entry, _, _, mapped⟩
    · exact .refl
    · exact .single (.unmap always)
    · exact ptMapNothing_effects (inUse (by simp)) honest mapped
  | mprotect m addr len prot hostMprotect =>
    exact absurd rfl notMprotect
  | brk m newBrk reply =>
    rcases sysBrk_cases run with
        rfl | ⟨_, state, mapped, shape⟩ | ⟨state, shape, rfl⟩
    · exact .refl
    · have grown := ptMapNothing_effects (inUse (by simp)) honest mapped
      rcases shape with rfl | rfl
      · exact grown
      · exact grown.tail .breaks
    · rcases shape with rfl | ⟨start, pages, always⟩
      · exact .single .breaks
      · exact .tail (.single (.unmap always)) .breaks
  | fork m =>
    have inMm : m < w.mmCount := inUse (by simp)
    refine .head .create (.single (.share (Nat.ne_of_lt inMm)
      (Nat.lt_succ_self _) ?_ run))
    intro page
    simp [World.lookup, World.mem, World.addMm]
  | exit m =>
    exact .single (.destroy run)
  | resolveFault m page type ptraceCopy grow copy =>
    obtain ⟨⟨_, _⟩, call, rfl⟩ := map_eq_some_iff.mp run
    exact memResolveFault_effects accounted (inUse (by simp)) honest.1
      honest.2.1 honest.2.2 call
  | store m addr type value =>
    simp only [MemoryAction.run] at run
    split at run
    · cases run
    · rename_i writing
      split at run
      · rename_i address round
        cases run
        obtain ⟨entry, found, writable, translated⟩ :=
          memPtrRound_pointer writing round
        exact .single (.store found writable translated)
      · cases run
  | translatedStore m addr value =>
    obtain ⟨address, translated, rfl⟩ := map_eq_some_iff.mp run
    obtain ⟨entry, found, rest⟩ :=
      bind_eq_some_iff.mp translated
    cases writable : pWritable entry.flags with
    | false =>
      simp [writable] at rest
    | true =>
      exact .single (.store found writable translated)

theorem Accounted.effect
    (accounted : Accounted w)
    (taken : Effect host m w next) :
    Accounted next := by
  cases taken with
  | fill _ | store _ _ _ =>
    exact accounted.fillBytes ..
  | map inMm _ mapped =>
    exact accounted.ptMap inMm mapped
  | attach attached =>
    exact accounted.attachFile attached
  | unmap always =>
    exact accounted.ptUnmapAlways always
  | breaks =>
    rename_i startBrk brk
    refine accounted.congr ?_ rfl rfl rfl rfl rfl rfl
    funext other page
    by_cases same : other = m
    · subst other
      simp [World.lookup, World.mem, World.setBrks]
    · simp [World.lookup, World.mem, World.setBrks,
        Function.update_of_ne same]
  | create =>
    exact accounted.addMm ..
  | share different dstInMm _ copied =>
    exact accounted.ptCopyOnWrite different dstInMm copied
  | destroy destroyed =>
    exact accounted.memDestroy destroyed

theorem Accounted.effects
    (accounted : Accounted w)
    (run : Effects host m w next) :
    Accounted next := by
  induction run with
  | refl =>
    exact accounted
  | tail _ taken inductionHypothesis =>
    exact inductionHypothesis.effect taken

/-- A step is a call of `mprotect` or a run of effects. -/
theorem memoryStep_cases
    (accounted : Accounted w)
    (taken : (memoryMachine host).step w action next) :
    (∃ m addr len prot hostMprotect result,
      action = .mprotect m addr len prot hostMprotect ∧
        sysMprotect w m addr len prot hostMprotect = some (result, next)) ∨
      Effects host (action.actor w) w next := by
  by_cases isMprotect :
      ∃ m addr len prot hostMprotect,
        action = .mprotect m addr len prot hostMprotect
  · obtain ⟨m, addr, len, prot, hostMprotect, rfl⟩ := isMprotect
    obtain ⟨⟨_, _⟩, call, rfl⟩ := map_eq_some_iff.mp taken.2.2
    exact .inl ⟨_, _, _, _, _, _, rfl, call⟩
  · refine .inr (MemoryAction.effects accounted ?_ taken)
    rintro m addr len prot hostMprotect rfl
    exact isMprotect ⟨m, addr, len, prot, hostMprotect, rfl⟩

/-- One step of the machine keeps the bookkeeping invariant. -/
theorem Accounted.memoryStep
    (accounted : Accounted w)
    (taken : (memoryMachine host).step w action next) :
    Accounted next := by
  obtain ⟨m, addr, len, prot, hostMprotect, result, rfl, call⟩ | run :=
    memoryStep_cases accounted taken
  · rcases sysMprotect_cases call with rfl | ⟨_, changed⟩
    · exact accounted
    · exact accounted.ptSetFlags changed
  · exact accounted.effects run

theorem Accounted.memoryReachable
    (reachable : (memoryMachine host).Reachable w) :
    Accounted w :=
  reachable.invariant
    (fun isInitial => isInitial ▸ Accounted.initial)
    (fun accounted taken => accounted.memoryStep taken)

/-- Arguments of a private anonymous mapping of one page with a hint. -/
def hintedArgs : MmapArgs where
  addr := 0x50000000
  len := 4096
  prot := pRead ||| pWrite
  flags := mmapPrivate ||| mmapAnonymous
  file := none
  offset := 0

/-- The host answers an anonymous mapping with this memory. -/
def grantMemory (memory : Nat) : MapReply where
  memory := .ok memory
  malloc := true

/-- No file is mapped. -/
def noFile : FileReply where
  map := { memory := .error .nodev, malloc := false }
  content := fun _ => 0

/-- One address space with one private page at `0x50000000`. -/
structure OnePage (w : World) (record : Data) : Prop where
  found : w.lookup 0 0x50000 = some ⟨0, 0, 0x43⟩
  live : w.data 0 = some record
  memory : record.data = 8192
  size : record.size = 4096
  zero : w.bytes 8192 = 0
  nextData : w.nextData = 1
  mmCount : w.mmCount = 1
  notWrapped : w.wrapped = false

theorem OnePage.inMm
    {w : World}
    {record : Data}
    (one : OnePage w record) :
    0 < w.mmCount :=
  one.mmCount.symm ▸ Nat.one_pos

theorem OnePage.isMapped
    {w : World}
    {record : Data}
    (one : OnePage w record) :
    memPt (w.mem 0) 0x50000 = some (some ⟨0, 0, 0x43⟩) :=
  memPt_eq_some.mpr ⟨by decide, one.found⟩

/-- `mmap` in a new address space leads there. -/
theorem exists_onePage :
    ∃ result w record,
      mmapCommon plainHost (mmNew World.empty) 0 hintedArgs
          (grantMemory 8192) noFile = some (result, w) ∧
        OnePage w record := by
  have succeeds :
      (mmapCommon plainHost (mmNew World.empty) 0 hintedArgs
        (grantMemory 8192) noFile).isSome = true := by
    rfl
  obtain ⟨⟨result, w⟩, call⟩ := isSome_iff_exists.mp succeeds
  have evaluate :
      ∀ {Value : Type} (value : World → Value),
        (mmapCommon plainHost (mmNew World.empty) 0 hintedArgs
            (grantMemory 8192) noFile).map (value ∘ Prod.snd) =
          some (value w) := by
    intro Value value
    rw [call]
    rfl
  have live :
      (w.data 0).map (fun record => (record.data, record.size)) =
        some (8192, 4096) :=
    some.inj ((evaluate fun w => (w.data 0).map fun record =>
      (record.data, record.size)).symm.trans (by rfl))
  obtain ⟨record, live, shape⟩ := map_eq_some_iff.mp live
  simp only [Prod.mk.injEq] at shape
  exact ⟨result, w, record, call, {
    found := some.inj
      ((evaluate fun w => w.lookup 0 0x50000).symm.trans (by rfl))
    live := live
    memory := shape.1
    size := shape.2
    zero := some.inj
      ((evaluate fun w => w.bytes 8192).symm.trans (by decide))
    nextData := some.inj
      ((evaluate World.nextData).symm.trans (by rfl))
    mmCount := some.inj
      ((evaluate World.mmCount).symm.trans (by rfl))
    notWrapped := some.inj
      ((evaluate World.wrapped).symm.trans (by rfl)) }⟩

theorem onePage_steps
    {result : Except Errno Nat}
    (call :
      mmapCommon plainHost (mmNew World.empty) 0 hintedArgs
        (grantMemory 8192) noFile = some (result, w)) :
    (memoryMachine plainHost).step World.empty .mmNew (mmNew World.empty) ∧
      (memoryMachine plainHost).step (mmNew World.empty)
        (.mmap 0 hintedArgs (grantMemory 8192) noFile) w := by
  refine ⟨⟨fun absent => absurd rfl absent, trivial, rfl⟩,
    fun _ => Nat.one_pos, ⟨?_, ?_⟩, ?_⟩
  · rintro memory ⟨⟩
    exact ⟨by decide, nofun⟩
  · rintro memory ⟨⟩
  · simp only [MemoryAction.run, call, map_some]

end GuestKernel
