import GuestKernel.Machine
import GuestKernel.PageTable

namespace GuestKernel
open List Function

/-!
# The block cache

`asbestos/asbestos.c` finds the compiled blocks of an address space by their
address, chains them by patching the ip values at their ends, and disconnects
those of pages that change.  A disconnected block is freed when no thread runs.
-/

/-- The identity of one `struct fiber_block`. -/
abbrev BlockId := Nat

/-- `*jump_ip[i]`: an ip with flags above it, or the code of a block. -/
inductive JumpValue where
  | ip (value : BitVec 64)
  | code (block : BlockId)
  deriving Repr, DecidableEq

/-- `struct fiber_block` without its links; `false` is the index 0. -/
structure FiberBlock where
  addr : Nat
  endAddr : Nat
  jumpIp : Bool → Option JumpValue
  oldJumpIp : Bool → BitVec 64
  isJetsam : Bool

/-- The page of `page[i]`. -/
def FiberBlock.pageOf (block : FiberBlock) (i : Bool) : Nat :=
  page (if i then block.endAddr else block.addr)

/-- `page[i]` is on a list. -/
def FiberBlock.Spans (block : FiberBlock) (i : Bool) : Prop :=
  i = true → page block.addr ≠ page block.endAddr

instance (block : FiberBlock) (i : Bool) : Decidable (block.Spans i) :=
  inferInstanceAs (Decidable (_ → _))

/--
`struct asbestos`, with the blocks in memory and the lists `jumps_from` of all
of them.
-/
structure Asbestos where
  block : BlockId → FiberBlock
  allocated : BlockId → Bool
  numBlocks : Nat
  hash : Nat → List BlockId
  hashSize : Nat
  pageHash : Bool → Nat → List BlockId
  jumpsFrom : BlockId → Bool → List BlockId
  jetsam : List BlockId

/-- `FIBER_PAGE_HASH_SIZE`. -/
def fiberPageHashSize : Nat := 2 ^ 10

/-- `list_init_add` to one of some lists. -/
def addTo (lists : Nat → List BlockId) (place : Nat) (id : BlockId) :
    Nat → List BlockId :=
  update lists place (id :: lists place)

namespace Asbestos

/-- The block can be found: it is allocated and was not disconnected. -/
def Live (cache : Asbestos) (id : BlockId) : Prop :=
  cache.allocated id = true ∧ (cache.block id).isJetsam = false

instance (cache : Asbestos) (id : BlockId) : Decidable (cache.Live id) :=
  inferInstanceAs (Decidable (_ ∧ _))

/-- `fiber_lookup`. -/
def fiberLookup (cache : Asbestos) (addr : Nat) : Option BlockId :=
  (cache.hash (addr % cache.hashSize)).find? fun id =>
    (cache.block id).addr == addr

/-- `fiber_resize_hash`. -/
def fiberResizeHash (cache : Asbestos) (newSize : Nat) : Asbestos :=
  { cache with
    hash := fun place =>
      -- each block is put in front of those before it
      (((range cache.hashSize).flatMap cache.hash).filter fun id =>
        (cache.block id).addr % newSize = place).reverse
    hashSize := newSize }

/-- The first part of `fiber_insert`. -/
def makeRoom (cache : Asbestos) : Asbestos :=
  let cache := { cache with numBlocks := cache.numBlocks + 1 }
  if cache.hashSize * 2 ≤ cache.numBlocks then
    cache.fiberResizeHash (cache.hashSize * 2)
  else
    cache

/-- `fiber_insert`. -/
def fiberInsert (cache : Asbestos) (id : BlockId) : Asbestos :=
  let block := cache.block id
  let cache := cache.makeRoom
  { cache with
    hash := addTo cache.hash (block.addr % cache.hashSize) id
    pageHash := fun i =>
      if block.Spans i then
        addTo (cache.pageHash i) (block.pageOf i % fiberPageHashSize) id
      else
        cache.pageHash i }

/--
`fiber_block_disconnect`.  The own links of the block are removed before those
of the blocks that jump to it, so a jump to itself stays.
-/
def fiberBlockDisconnect (cache : Asbestos) (id : BlockId) : Asbestos :=
  { cache with
    numBlocks := cache.numBlocks - 1
    hash := fun place => (cache.hash place).filter (· ≠ id)
    pageHash := fun i place => (cache.pageHash i place).filter (· ≠ id)
    block := fun other =>
      { cache.block other with
        jumpIp := fun i =>
          if other ≠ id ∧ other ∈ cache.jumpsFrom id i then
            ((cache.block other).jumpIp i).map fun _ =>
              .ip ((cache.block other).oldJumpIp i)
          else
            (cache.block other).jumpIp i }
    jumpsFrom := fun other i =>
      if other = id then [] else (cache.jumpsFrom other i).filter (· ≠ id) }

/-- One round of the loop over a list of `asbestos_invalidate_range`. -/
def discard (cache : Asbestos) (id : BlockId) : Asbestos :=
  let cache := cache.fiberBlockDisconnect id
  { cache with
    block := fun other =>
      { cache.block other with
        isJetsam := decide (other = id) || (cache.block other).isJetsam }
    jetsam := id :: cache.jetsam }

/-- The two lists of a page. -/
def invalidatePage (cache : Asbestos) (page : Nat) : Asbestos :=
  [false, true].foldl (fun cache i =>
    (cache.pageHash i (page % fiberPageHashSize)).foldl discard cache) cache

/-- `asbestos_invalidate_range`. -/
def asbestosInvalidateRange
    (cache : Asbestos) (start finish : Nat) : Asbestos :=
  (range' start (finish - start)).foldl invalidatePage cache

/-- `fiber_free_jetsam`. -/
def fiberFreeJetsam (cache : Asbestos) : Asbestos :=
  { cache with
    allocated := fun id => cache.allocated id && decide (id ∉ cache.jetsam)
    jetsam := [] }

/-- `*jump_ip[i] & 0xffffffff`, with these bits of the code of the blocks. -/
def jumpLow (codeLow : BlockId → Nat) : JumpValue → Nat
  | .ip value => value.toNat % 2 ^ 32
  | .code id => codeLow id

/-- The slot of a block leads to the address of another one. -/
def leadsTo
    (codeLow : BlockId → Nat) (cache : Asbestos) (last next : BlockId)
    (i : Bool) : Bool :=
  ((cache.block last).jumpIp i).any fun value =>
    jumpLow codeLow value == (cache.block next).addr

/-- The chaining of two blocks in `cpu_step_to_interrupt`. -/
def chain
    (codeLow : BlockId → Nat) (cache : Asbestos) (last next : BlockId) :
    Asbestos :=
  if (cache.block last).isJetsam || (cache.block next).isJetsam then
    cache
  else
    { cache with
      block := fun other =>
        { cache.block other with
          jumpIp := fun i =>
            if other = last ∧ leadsTo codeLow cache last next i then
              some (.code next)
            else
              (cache.block other).jumpIp i }
      jumpsFrom := fun other i =>
        if other = next ∧ leadsTo codeLow cache last next i then
          last :: cache.jumpsFrom next i
        else
          cache.jumpsFrom other i }

/-- `asbestos_new`. -/
def new (memory : BlockId → FiberBlock) : Asbestos where
  block := memory
  allocated := fun _ => false
  numBlocks := 0
  hash := fun _ => []
  hashSize := 2 ^ 10
  pageHash := fun _ _ => []
  jumpsFrom := fun _ _ => []
  jetsam := []

end Asbestos

/-- What the threads do under `lock`, and the freeing under `jetsam_lock`. -/
inductive CacheStep where
  | compile (id : BlockId) (block : FiberBlock)
  | chain (last next : BlockId)
  | invalidate (start finish : Nat)
  | free

/-- `gen_end` leaves the ip values in the slots. -/
def FiberBlock.Fresh (block : FiberBlock) : Prop :=
  block.isJetsam = false ∧
    ∀ i value, block.jumpIp i = some value → value = .ip (block.oldJumpIp i)

/--
All runs of the threads of one address space.  A block is compiled after a
lookup failed, and a thread holds no block that was freed.
-/
def cacheMachine (codeLow : BlockId → Nat) : Machine Asbestos CacheStep where
  initial cache := ∃ memory, cache = .new memory
  step cache action next :=
    match action with
    | .compile id block =>
      cache.fiberLookup block.addr = none ∧ cache.allocated id = false ∧
        block.Fresh ∧
        next = Asbestos.fiberInsert
          { cache with
            block := update cache.block id block
            allocated := update cache.allocated id true } id
    | .chain last other =>
      cache.allocated last = true ∧ cache.allocated other = true ∧
        next = cache.chain codeLow last other
    | .invalidate start finish =>
      next = cache.asbestosInvalidateRange start finish
    | .free => next = cache.fiberFreeJetsam

/-- No patched slot looks like the address of the block that is entered. -/
def NoCollision
    (codeLow : BlockId → Nat) (cache : Asbestos) : CacheStep → Prop
  | .chain last next =>
    ∀ i other,
      (cache.block last).jumpIp i = some (.code other) →
      codeLow other ≠ (cache.block next).addr
  | _ => True

namespace Asbestos

/--
The live blocks are those on the lists: in the bucket of their address, on the
lists of their pages, and on the list of the block that a slot was patched to.
-/
structure Linked (cache : Asbestos) : Prop where
  sized : 0 < cache.hashSize
  hashed :
    ∀ id place,
      id ∈ cache.hash place ↔
        cache.Live id ∧ place = (cache.block id).addr % cache.hashSize
  paged :
    ∀ id i place,
      id ∈ cache.pageHash i place ↔
        cache.Live id ∧ (cache.block id).Spans i ∧
          place = (cache.block id).pageOf i % fiberPageHashSize
  distinct :
    ∀ id other,
      cache.Live id → cache.Live other →
      (cache.block id).addr = (cache.block other).addr → id = other
  chained :
    ∀ id other i,
      id ∈ cache.jumpsFrom other i ↔
        cache.Live id ∧ (cache.block id).jumpIp i = some (.code other)
  target :
    ∀ id other i,
      cache.Live id → (cache.block id).jumpIp i = some (.code other) →
      cache.Live other ∧
        (cache.block other).addr =
          ((cache.block id).oldJumpIp i).toNat % 2 ^ 32
  unpatched :
    ∀ id i value,
      cache.Live id → (cache.block id).jumpIp i = some (.ip value) →
      value = (cache.block id).oldJumpIp i
  dropped :
    ∀ id ∈ cache.jetsam,
      cache.allocated id = true ∧ (cache.block id).isJetsam = true

namespace Linked

variable {cache : Asbestos}

theorem new (memory : BlockId → FiberBlock) : Linked (.new memory) := by
  constructor <;> simp [Asbestos.new, Live]

/-- A lookup finds the live block of the address. -/
theorem fiberLookup_eq_some
    (linked : Linked cache)
    {addr : Nat}
    {id : BlockId} :
    cache.fiberLookup addr = some id ↔
      cache.Live id ∧ (cache.block id).addr = addr := by
  have found :
      ∀ {id},
        cache.fiberLookup addr = some id →
        cache.Live id ∧ (cache.block id).addr = addr := by
    intro id isFound
    unfold fiberLookup at isFound
    exact ⟨((linked.hashed id _).mp (mem_of_find?_eq_some isFound)).1,
      by simpa using find?_some isFound⟩
  refine ⟨found, ?_⟩
  rintro ⟨live, isAddr⟩
  cases isFound : cache.fiberLookup addr with
  | none =>
    have missed := find?_eq_none.mp isFound id
      ((linked.hashed id _).mpr ⟨live, by rw [isAddr]⟩)
    simp [isAddr] at missed
  | some other =>
    obtain ⟨isLive, sameAddr⟩ := found isFound
    rw [linked.distinct other id isLive live (sameAddr.trans isAddr.symm)]

end Linked

section

variable {cache : Asbestos} {id other : BlockId}

theorem live_discard :
    (cache.discard id).Live other ↔ cache.Live other ∧ other ≠ id := by
  simp only [Live, discard, fiberBlockDisconnect, Bool.or_eq_false_iff,
    decide_eq_false_iff_not]
  exact ⟨fun live => ⟨⟨live.1, live.2.2⟩, live.2.1⟩,
    fun live => ⟨live.1.1, live.2, live.1.2⟩⟩

theorem Linked.discard
    (linked : Linked cache)
    (isThere : cache.allocated id = true) :
    Linked (cache.discard id) := by
  have jumps :
      ∀ other i value,
        other ≠ id →
        (((cache.discard id).block other).jumpIp i = some value ↔
          if cache.Live other ∧
              (cache.block other).jumpIp i = some (.code id) then
            value = .ip ((cache.block other).oldJumpIp i)
          else
            (cache.block other).jumpIp i = some value) := by
    intro other i value isOther
    have := linked.chained other id i
    simp only [Asbestos.discard, fiberBlockDisconnect]
    grind
  constructor
  case sized => exact linked.sized
  case hashed =>
    intro other place
    rw [live_discard]
    have := linked.hashed other place
    simp only [Asbestos.discard, fiberBlockDisconnect, mem_filter]
    grind
  case paged =>
    intro other i place
    rw [live_discard]
    have := linked.paged other i place
    simp only [Asbestos.discard, fiberBlockDisconnect, mem_filter,
      FiberBlock.Spans, FiberBlock.pageOf] at this ⊢
    grind
  case distinct =>
    intro first second firstLive secondLive same
    rw [live_discard] at firstLive secondLive
    exact linked.distinct first second firstLive.1 secondLive.1 same
  case chained =>
    intro first second i
    rw [live_discard]
    have listed :
        (cache.discard id).jumpsFrom second i =
          if second = id then []
          else (cache.jumpsFrom second i).filter (· ≠ id) :=
      rfl
    have := linked.chained first second i
    have := jumps first i (.code second)
    rw [listed]
    grind
  case target =>
    intro first second i firstLive patched
    rw [live_discard] at firstLive ⊢
    have := linked.target first second i firstLive.1
    have := (jumps first i _ firstLive.2).mp patched
    show _ ∧ (cache.block second).addr =
      ((cache.block first).oldJumpIp i).toNat % 2 ^ 32
    grind
  case unpatched =>
    intro other i value otherLive isIp
    rw [live_discard] at otherLive
    have := linked.unpatched other i value otherLive.1
    have := (jumps other i _ otherLive.2).mp isIp
    show value = (cache.block other).oldJumpIp i
    grind
  case dropped =>
    intro other isDropped
    have := linked.dropped other
    simp only [Asbestos.discard, fiberBlockDisconnect, mem_cons] at *
    grind

/--
Some blocks were disconnected, those with a property among them, and none moved.
-/
structure Discards (cache next : Asbestos) (gone : BlockId → Prop) :
    Prop where
  linked : Linked next
  live : ∀ id, next.Live id → cache.Live id ∧ ¬gone id
  addr : ∀ id, (next.block id).addr = (cache.block id).addr
  endAddr : ∀ id, (next.block id).endAddr = (cache.block id).endAddr

theorem Discards.trans
    {mid next : Asbestos}
    {gone others all : BlockId → Prop}
    (first : Discards cache mid gone)
    (second : Discards mid next others)
    (covers : ∀ id, mid.Live id → ¬gone id → ¬others id → ¬all id) :
    Discards cache next all where
  linked := second.linked
  live := by
    intro id live
    obtain ⟨midLive, notSecond⟩ := second.live id live
    obtain ⟨wasLive, notFirst⟩ := first.live id midLive
    exact ⟨wasLive, covers id midLive notFirst notSecond⟩
  addr := fun id => (second.addr id).trans (first.addr id)
  endAddr := fun id => (second.endAddr id).trans (first.endAddr id)

theorem discards_list
    {ids : List BlockId}
    (linked : Linked cache)
    (areThere : ∀ id ∈ ids, cache.allocated id = true) :
    Discards cache (ids.foldl discard cache) (· ∈ ids) := by
  induction ids generalizing cache with
  | nil =>
    exact ⟨linked, fun _ live => ⟨live, not_mem_nil⟩, fun _ => rfl,
      fun _ => rfl⟩
  | cons first rest inductionHypothesis =>
    obtain ⟨firstThere, restThere⟩ := forall_mem_cons.mp areThere
    have one : Discards cache (cache.discard first) (· = first) :=
      ⟨linked.discard firstThere, fun _ => live_discard.mp, fun _ => rfl,
        fun _ => rfl⟩
    exact one.trans (inductionHypothesis one.linked restThere)
      (by simp +contextual)

/-- The two lists of a page have all blocks that are in it. -/
theorem discards_page
    (linked : Linked cache)
    (page : Nat) :
    Discards cache (cache.invalidatePage page) fun id =>
      ∃ i, (cache.block id).pageOf i = page := by
  have byList :
      ∀ {cache : Asbestos} (i : Bool),
        Linked cache →
        Discards cache
          ((cache.pageHash i (page % fiberPageHashSize)).foldl discard cache)
          (· ∈ cache.pageHash i (page % fiberPageHashSize)) :=
    fun i linked => discards_list linked fun id listed =>
      ((linked.paged id i _).mp listed).1.1
  have first := byList false linked
  refine first.trans (byList true first.linked) ?_
  intro id live notFirst notSecond
  have wasLive := (first.live id live).1
  rw [linked.paged] at notFirst
  rw [first.linked.paged] at notSecond
  simp only [FiberBlock.Spans, FiberBlock.pageOf, first.addr, first.endAddr]
    at notFirst notSecond ⊢
  rintro ⟨i, inPage⟩
  cases i <;> grind

theorem discards_pages
    {pages : List Nat}
    (linked : Linked cache) :
    Discards cache (pages.foldl invalidatePage cache) fun id =>
      ∃ i, (cache.block id).pageOf i ∈ pages := by
  induction pages generalizing cache with
  | nil => exact ⟨linked, by simp, fun _ => rfl, fun _ => rfl⟩
  | cons page rest inductionHypothesis =>
    have first := discards_page linked page
    refine first.trans (inductionHypothesis first.linked) ?_
    simp only [FiberBlock.pageOf, first.addr, first.endAddr, mem_cons]
    rintro id _ notFirst notLater ⟨i, isFirst | inRest⟩
    · exact notFirst ⟨i, isFirst⟩
    · exact notLater ⟨i, inRest⟩

end

theorem mem_addTo
    {lists : Nat → List BlockId}
    {place other : Nat}
    {first id : BlockId} :
    id ∈ addTo lists place first other ↔
      id ∈ lists other ∨ id = first ∧ other = place := by
  unfold addTo
  by_cases same : other = place
  · subst same
    simp [or_comm]
  · simp [same]

/-- The blocks of the hash are in the buckets of the new one. -/
theorem makeRoom_spec
    {cache : Asbestos}
    {inHash : BlockId → Prop}
    (sized : 0 < cache.hashSize)
    (hashed :
      ∀ id place,
        id ∈ cache.hash place ↔
          inHash id ∧ place = (cache.block id).addr % cache.hashSize) :
    ∃ numBlocks hash hashSize,
      cache.makeRoom =
          { cache with
            numBlocks := numBlocks, hash := hash, hashSize := hashSize } ∧
        0 < hashSize ∧
        ∀ id place,
          id ∈ hash place ↔
            inHash id ∧ place = (cache.block id).addr % hashSize := by
  unfold makeRoom
  dsimp only
  split
  · refine ⟨_, _, _, rfl, Nat.mul_pos sized Nat.two_pos, ?_⟩
    intro id place
    have inRange := Nat.mod_lt (cache.block id).addr sized
    have listed := hashed id ((cache.block id).addr % cache.hashSize)
    simp only [mem_reverse, mem_filter, mem_flatMap, mem_range]
    grind
  · exact ⟨_, _, _, rfl, sized, hashed⟩

namespace Linked

variable {cache : Asbestos}

/-- A block is compiled where a lookup found none. -/
theorem compile
    (linked : Linked cache)
    {id : BlockId}
    {block : FiberBlock}
    (missed : cache.fiberLookup block.addr = none)
    (isNew : cache.allocated id = false)
    (fresh : block.Fresh) :
    Linked (fiberInsert
      { cache with
        block := update cache.block id block
        allocated := update cache.allocated id true } id) := by
  let next : Asbestos := { cache with
    block := update cache.block id block
    allocated := update cache.allocated id true }
  have noOther :
      ∀ other, cache.Live other → (cache.block other).addr ≠ block.addr := by
    intro other isLive same
    cases missed.symm.trans (linked.fiberLookup_eq_some.mpr ⟨isLive, same⟩)
  have isNext :
      ∀ other,
        next.block other = (if other = id then block else cache.block other) ∧
          (next.Live other ↔ cache.Live other ∨ other = id) ∧
          (cache.Live other → other ≠ id) := by
    intro other
    have := fresh.1
    simp only [next, Live, update_apply]
    grind
  have hashedNext := linked.hashed
  obtain ⟨numBlocks, hash, hashSize, isRoom, sized, hashed⟩ :=
    @makeRoom_spec next cache.Live linked.sized (by grind)
  have insert : next.fiberInsert id =
      { next with
        numBlocks := numBlocks
        hash := addTo hash (block.addr % hashSize) id
        hashSize := hashSize
        pageHash := fun i =>
          if block.Spans i then
            addTo (cache.pageHash i) (block.pageOf i % fiberPageHashSize) id
          else
            cache.pageHash i } := by
    simp only [fiberInsert, isNext, if_true, isRoom]
    rfl
  show Linked (next.fiberInsert id)
  rw [insert]
  constructor
  case sized => exact sized
  case hashed =>
    intro other place
    show _ ↔ next.Live other ∧ place = (next.block other).addr % hashSize
    rw [mem_addTo, hashed]
    grind
  case paged =>
    intro other i place
    show other ∈ (if _ then _ else _ : Nat → List BlockId) place ↔
      next.Live other ∧ (next.block other).Spans i ∧
        place = (next.block other).pageOf i % fiberPageHashSize
    have := linked.paged other i place
    have := @mem_addTo (cache.pageHash i)
    grind
  case distinct =>
    have := linked.distinct
    show ∀ first second, next.Live first → next.Live second →
      (next.block first).addr = (next.block second).addr → _
    grind
  case chained =>
    intro first second i
    show _ ↔ next.Live first ∧ (next.block first).jumpIp i = _
    have := linked.chained first second i
    have := fresh.2 i
    grind
  case target =>
    intro first second i
    show next.Live first → (next.block first).jumpIp i = _ → next.Live second ∧
      (next.block second).addr = ((next.block first).oldJumpIp i).toNat % 2 ^ 32
    have := linked.target first second i
    have := fresh.2 i
    grind
  case unpatched =>
    intro other i value
    show next.Live other → (next.block other).jumpIp i = _ →
      value = (next.block other).oldJumpIp i
    have := linked.unpatched other i value
    have := fresh.2 i
    grind
  case dropped =>
    have := linked.dropped
    show ∀ other ∈ cache.jetsam,
      next.allocated other = true ∧ (next.block other).isJetsam = true
    simp only [next, update_apply]
    grind

theorem chain
    (linked : Linked cache)
    {codeLow : BlockId → Nat}
    {last next : BlockId}
    (isLast : cache.allocated last = true)
    (isNext : cache.allocated next = true)
    (noCollision : NoCollision codeLow cache (.chain last next)) :
    Linked (cache.chain codeLow last next) := by
  unfold Asbestos.chain
  split
  case isTrue => exact linked
  case isFalse notJetsam =>
    rw [Bool.or_eq_true, not_or, Bool.not_eq_true, Bool.not_eq_true]
      at notJetsam
    have lastLive : cache.Live last := ⟨isLast, notJetsam.1⟩
    have nextLive : cache.Live next := ⟨isNext, notJetsam.2⟩
    have leads :
        ∀ i, leadsTo codeLow cache last next i = true →
          (cache.block last).jumpIp i =
              some (.ip ((cache.block last).oldJumpIp i)) ∧
            (cache.block next).addr =
              ((cache.block last).oldJumpIp i).toNat % 2 ^ 32 := by
      intro i isLed
      obtain ⟨value, isValue, isAddr⟩ := (Option.any_eq_true _ _).mp isLed
      cases value with
      | code other =>
        exact absurd (beq_iff_eq.mp isAddr) (noCollision i other isValue)
      | ip value =>
        cases linked.unpatched last i value lastLive isValue
        exact ⟨isValue, (beq_iff_eq.mp isAddr).symm⟩
    constructor
    case sized => exact linked.sized
    case hashed => exact linked.hashed
    case paged => exact linked.paged
    case distinct => exact linked.distinct
    case dropped => exact linked.dropped
    case chained =>
      intro first second i
      have := linked.chained first second i
      have := leads i
      show _ ↔ cache.Live first ∧ _
      grind
    case target =>
      intro first second i
      have := linked.target first second i
      have := leads i
      show cache.Live first → _ → cache.Live second ∧ _
      grind
    case unpatched =>
      intro other i value
      have := linked.unpatched other i value
      show cache.Live other → _
      grind

/-- The blocks that are freed were disconnected. -/
theorem free
    (linked : Linked cache) :
    Linked cache.fiberFreeJetsam := by
  have live : cache.fiberFreeJetsam.Live = cache.Live := by
    funext id
    have := linked.dropped id
    simp only [Live, fiberFreeJetsam]
    grind
  constructor
  case sized => exact linked.sized
  case hashed => exact live ▸ linked.hashed
  case paged => exact live ▸ linked.paged
  case distinct => exact live ▸ linked.distinct
  case chained => exact live ▸ linked.chained
  case target => exact live ▸ linked.target
  case unpatched => exact live ▸ linked.unpatched
  case dropped => exact nofun

theorem reachable
    {codeLow : BlockId → Nat}
    (reachable :
      ((cacheMachine codeLow).restrict (NoCollision codeLow)).Reachable
        cache) :
    Linked cache := by
  refine reachable.invariant ?_ ?_
  · rintro _ ⟨memory, rfl⟩
    exact .new memory
  · rintro cache action next linked ⟨noCollision, step⟩
    cases action with
    | compile id block =>
      obtain ⟨missed, isNew, fresh, rfl⟩ := step
      exact linked.compile missed isNew fresh
    | chain last other =>
      obtain ⟨isLast, isNext, rfl⟩ := step
      exact linked.chain isLast isNext noCollision
    | invalidate start finish =>
      cases step
      exact (discards_pages linked).linked
    | free =>
      cases step
      exact linked.free

end Linked

/--
In every run in which the code of no block looks like the address that is
entered, a lookup finds exactly the live block of its address, a patched slot
leads to the live block that it was made for, its link is on the list of that
block alone, and no block that can be found after an invalidation is in its pages.
-/
theorem invalidated_pages_are_left
    {codeLow : BlockId → Nat}
    {cache : Asbestos}
    (reachable :
      ((cacheMachine codeLow).restrict (NoCollision codeLow)).Reachable
        cache) :
    (∀ addr id,
      cache.fiberLookup addr = some id ↔
        cache.Live id ∧ (cache.block id).addr = addr) ∧
      (∀ id other i,
        cache.Live id →
        (cache.block id).jumpIp i = some (.code other) →
        cache.Live other ∧
          (cache.block other).addr =
              ((cache.block id).oldJumpIp i).toNat % 2 ^ 32 ∧
            ∀ target, id ∈ cache.jumpsFrom target i ↔ target = other) ∧
      ∀ start finish id addr,
        (cache.asbestosInvalidateRange start finish).fiberLookup addr =
            some id →
        cache.fiberLookup addr = some id ∧
          ∀ i, (cache.block id).pageOf i < start ∨
            finish ≤ (cache.block id).pageOf i := by
  have linked := Linked.reachable reachable
  refine ⟨fun _ _ => linked.fiberLookup_eq_some, ?_, ?_⟩
  · intro id other i live patched
    obtain ⟨isLive, isTarget⟩ := linked.target id other i live patched
    refine ⟨isLive, isTarget, fun target => ?_⟩
    have := linked.chained id target i
    grind
  · intro start finish id addr found
    have left :=
      @discards_pages cache (range' start (finish - start)) linked
    obtain ⟨live, isAddr⟩ := left.linked.fiberLookup_eq_some.mp found
    obtain ⟨wasLive, notIn⟩ := left.live id live
    refine ⟨linked.fiberLookup_eq_some.mpr
      ⟨wasLive, (left.addr id).symm.trans isAddr⟩, fun i => ?_⟩
    by_contra inside
    rw [not_or, Nat.not_lt, Nat.not_le] at inside
    exact notIn ⟨i, mem_range'_1.mpr ⟨inside.1, by omega⟩⟩

/-- A block that does nothing but jump. -/
def jumpBlock (addr : Nat) (target : BitVec 64) : FiberBlock where
  addr := addr
  endAddr := addr
  jumpIp := fun i => if i then none else some (.ip target)
  oldJumpIp := fun _ => target
  isJetsam := false

/-- A block that was chained to is left when its page is invalidated. -/
theorem chained_block_is_left :
    ∃ cache,
      (cacheMachine fun _ => 0).Reachable cache ∧
        (cache.block 0).jumpIp false = some (.code 1) ∧
        cache.fiberLookup 8192 = some 1 ∧
        (cache.asbestosInvalidateRange 2 3).fiberLookup 8192 ≠ some 1 := by
  let machine := (cacheMachine fun _ => 0).restrict (NoCollision fun _ => 0)
  have fresh : ∀ addr target, (jumpBlock addr target).Fresh := by
    refine fun addr target => ⟨rfl, fun i value isValue => ?_⟩
    cases i <;> cases isValue
    rfl
  have start : machine.Reachable (.new fun _ => jumpBlock 0 0) :=
    .initial ⟨_, rfl⟩
  have first :=
    start.step (a := CacheStep.compile 0 (jumpBlock 4096 8192))
      ⟨trivial, rfl, rfl, fresh _ _, rfl⟩
  have second :=
    first.step (a := CacheStep.compile 1 (jumpBlock 8192 4096))
      ⟨trivial, by decide, rfl, fresh _ _, rfl⟩
  have chained :=
    second.step (a := CacheStep.chain 0 1)
      ⟨fun i other patched => (by cases i <;> cases patched), rfl, rfl, rfl⟩
  have left := invalidated_pages_are_left chained
  refine ⟨_, chained.of_restrict, by decide, by decide, fun found => ?_⟩
  have outside := (left.2.2 2 3 1 8192 found).2 false
  exact absurd outside (by decide)

end Asbestos

end GuestKernel
