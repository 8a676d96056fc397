import GuestKernel.HeapRangeSpecs
import GuestKernel.PageContents

namespace GuestKernel
open Option
open RangeCall

/-!
# The heap over a run of `brk`

The machine of one program that moves its break and stores to its heap, with
the values its bytes must have as a second part of the state.  A `brk` that
shrinks unmaps from the rounded-down new break to the rounded-down old one, so
the heap is what it should be as long as both are whole pages, or lie in one.
-/

/-- What a program does with its heap; `brk` notes the value it got. -/
inductive HeapAction where
  | brk (newBrk : Nat) (reply : MapReply) (returned : Nat)
  | store (addr : Nat) (value : UInt8)

/--
An address space, and the value of every byte that was written, or was there
at the start, and was below all breaks since.
-/
structure HeapState where
  world : World
  known : Nat → Option UInt8

/-- After a `brk` only the bytes below the new break have to stay. -/
def HeapState.afterBrk (state : HeapState) (m : MmId) (next : World) :
    HeapState where
  world := next
  known addr := if addr < (next.mm m).brk then state.known addr else none

/-- After a store the byte has the new value, if it is below the break. -/
def HeapState.afterStore
    (state : HeapState) (m : MmId) (addr address : Nat) (value : UInt8) :
    HeapState where
  world := state.world.writeByte address value
  known other :=
    if other = addr then
      if addr < (state.world.mm m).brk then some value else none
    else
      state.known other

/-- A page that is mapped when the break is where it is. -/
def HeapPage (w : World) (m : MmId) (other : Nat) : Prop :=
  ceilPages (w.mm m).startBrk ≤ other ∧ other < ceilPages (w.mm m).brk

/-- One call of `brk`, or one store to a heap page. -/
inductive HeapStep (host : Host) (m : MmId) :
    HeapState → HeapAction → HeapState → Prop where
  | brk
      {state : HeapState} {newBrk returned : Nat}
      {reply : MapReply} {next : World} :
      newBrk < 2 ^ 32 →
      reply.Fresh state.world
        (brkGrowth (state.world.mm m).brk newBrk * pageSize % 2 ^ 32) →
      (RangeCall.brk newBrk reply).run host state.world m =
        some (.ok returned, next) →
      HeapStep host m state (.brk newBrk reply returned)
        (state.afterBrk m next)
  | store
      {state : HeapState} {addr address : Nat} {value : UInt8} :
      HeapPage state.world m (page addr) →
      memPtrNofault state.world m addr .write = some address →
      HeapStep host m state (.store addr value)
        (state.afterStore m addr address value)

/-- The bytes below the break have to stay as they are. -/
def HeapState.first (start : World) (m : MmId) : HeapState where
  world := start
  known addr :=
    if addr < (start.mm m).brk then readByte start m addr else none

/-- All runs of one program from an address space `exec` has just set up. -/
def heapMachine (host : Host) (m : MmId) (start : World) :
    Machine HeapState HeapAction where
  initial state := state = .first start m
  step := HeapStep host m

/-- The break of a new program is where its heap starts. -/
structure HeapStart (start : World) (m : MmId) : Prop where
  kept : WellKept start
  inMm : m < start.mmCount
  empty : (start.mm m).brk = (start.mm m).startBrk
  bounded : (start.mm m).brk < 2 ^ 32

/--
The heap pages are mapped, all other pages are as they were, and every byte
that has to keep its value does.
-/
structure HeapExact
    (start : World) (m : MmId) (state : HeapState) : Prop where
  mapped :
    ∀ {other},
      HeapPage state.world m other → state.world.lookup m other ≠ none
  rest :
    ∀ {other},
      ¬HeapPage state.world m other →
      state.world.lookup m other = start.lookup m other
  known :
    ∀ {addr value},
      state.known addr = some value →
      readByte state.world m addr = some value

/-- A `brk` answers with the break, and one that is refused changes nothing. -/
def AnswersBreak
    (m : MmId) (state : HeapState) (action : HeapAction)
    (next : HeapState) : Prop :=
  match action with
  | .store _ _ => True
  | .brk newBrk _ returned =>
    returned = (next.world.mm m).brk ∧
      (returned ≠ newBrk →
        (next.world.mm m).brk = (state.world.mm m).brk ∧
          ∀ other, SamePage state.world next.world m other)

/-- Rounding both breaks down unmaps what rounding both up would. -/
def ShrinksWhole (oldBrk newBrk : Nat) : Prop :=
  page newBrk = ceilPages newBrk ∧ page oldBrk = ceilPages oldBrk ∨
    page newBrk = page oldBrk ∧ ceilPages newBrk = ceilPages oldBrk

/-- A growing `brk` does not wrap, or fails, and a shrinking one is whole. -/
def BrkWhole (host : Host) (m : MmId) (state : HeapState) :
    HeapAction → Prop
  | .store _ _ => True
  | .brk newBrk reply _ =>
    (state.world.mm m).startBrk ≤ newBrk →
      ((state.world.mm m).brk < newBrk →
      RangeCall.BrkGrows host (state.world.mm m).brk newBrk reply) ∧
      (newBrk < (state.world.mm m).brk →
        ShrinksWhole (state.world.mm m).brk newBrk)

variable
  {host : Host}
  {w next start : World}
  {m : MmId}
  {newBrk : Nat}
  {reply : MapReply}

theorem samePage_setBrk (w : World) (m : MmId) (newBrk other : Nat) :
    SamePage w (w.setBrk m newBrk) m other where
  entry := by rw [lookup_setBrk]
  bytes := by
    intro addr _
    unfold readByte memPtrNofault
    rw [lookup_setBrk]
    rfl

theorem WellKept.setBrk
    (kept : WellKept w)
    (m : MmId)
    (newBrk : Nat) :
    WellKept (w.setBrk m newBrk) where
  accounted :=
    kept.accounted.congr (lookup_setBrk w m newBrk) rfl rfl rfl rfl rfl rfl
  notWrapped := kept.notWrapped
  layout := kept.layout.congr rfl (lookup_setBrk w m newBrk)

/-- Everything a whole `brk` can do. -/
inductive BrkOutcome
    (w : World) (m : MmId) (newBrk : Nat) (next : World) : Prop where
  | refused :
      newBrk ≠ (w.mm m).brk →
      (next.mm m).brk = (w.mm m).brk →
      (∀ other, SamePage w next m other) →
      BrkOutcome w m newBrk next
  | moved :
      (w.mm m).startBrk ≤ newBrk →
      (next.mm m).brk = newBrk →
      (∀ other,
        ceilPages (w.mm m).brk ≤ other → other < ceilPages newBrk →
        next.lookup m other ≠ none ∧ w.lookup m other = none) →
      (∀ other,
        ceilPages newBrk ≤ other → other < ceilPages (w.mm m).brk →
        next.lookup m other = none) →
      (∀ other,
        (other < ceilPages newBrk ∧ other < ceilPages (w.mm m).brk ∨
            ceilPages newBrk ≤ other ∧ ceilPages (w.mm m).brk ≤ other) →
          SamePage w next m other) →
      BrkOutcome w m newBrk next

/-- What stays in an address space whatever its `brk` does. -/
structure BrkKeeps (w next : World) (m : MmId) : Prop where
  kept : WellKept next
  inMm : m < next.mmCount
  startBrk : (next.mm m).startBrk = (w.mm m).startBrk

/-- A `brk` that grows without a wrap, or fails. -/
theorem brkOutcome_grow
    (kept : WellKept w)
    (inMm : m < w.mmCount)
    (oldBounded : (w.mm m).brk < 2 ^ 32)
    (bounded : newBrk < 2 ^ 32)
    (fresh :
      reply.Fresh w (brkGrowth (w.mm m).brk newBrk * pageSize % 2 ^ 32))
    (above : (w.mm m).startBrk ≤ newBrk)
    (grows : (w.mm m).brk < newBrk)
    (condition : RangeCall.BrkGrows host (w.mm m).brk newBrk reply)
    (call : sysBrk host w m newBrk reply = some next) :
    BrkKeeps w next m ∧ BrkOutcome w m newBrk next := by
  rcases sysBrk_grow_cases above grows call with
    filled | ⟨state, hole, mapped, rfl⟩
  · have sameCount : next.mmCount = w.mmCount := by
      rcases filled with rfl | ⟨_, _, rfl⟩ <;> rfl
    exact ⟨⟨filled.wellKept kept, sameCount ▸ inMm, by rw [filled.mm]⟩,
      .refused (Nat.ne_of_gt grows) (by rw [filled.mm])
        (filled.samePage kept fresh)⟩
  have fits : RangeFits 0 newBrk := by
    by_contra wraps
    obtain ⟨nonempty, refused⟩ := condition.resolve_left wraps
    rcases grants_of_ptMapNothing mapped with isEmpty | grants
    · exact nonempty
        ((pageRange_of_wrap bounded wraps).2.mp isEmpty)
    · exact refused grants
  obtain ⟨rounded, growth, ordered, inside⟩ :=
    brkGrowth_of_fits oldBounded bounded grows fits
  have limit := memPages_eq
  rw [rounded, growth] at hole mapped
  rw [growth] at fresh
  have inGrowth :
      ∀ other,
        other ∈ pageRange (ceilPages (w.mm m).brk)
            (ceilPages newBrk - ceilPages (w.mm m).brk) ↔
          ceilPages (w.mm m).brk ≤ other ∧ other < ceilPages newBrk := by
    intro other
    rw [mem_pageRange_of_lt (by omega)]
    omega
  have records := ptMapNothing_records mapped
  obtain ⟨keptState, samePages⟩ :=
    kept.ptMapNothing inMm
      (Nat.lt_of_le_of_lt
        (Nat.mul_le_mul_right pageSize (Nat.sub_le _ _)) fits.1)
      fresh (fun other member => (hole other member).2) mapped
  refine ⟨⟨keptState.setBrk m newBrk, ?_, ?_⟩, .moved above ?_ ?_ ?_ ?_⟩
  · rw [← records.mmCount] at inMm
    exact inMm
  · rw [startBrk_setBrk, records.startBrk]
  · exact brk_setBrk state m newBrk
  · intro other after before
    have member := (inGrowth other).mpr ⟨after, before⟩
    refine ⟨?_, (hole other member).2⟩
    rw [lookup_setBrk]
    rcases ptMapNothing_cases mapped with
      ⟨isEmpty, _⟩ | ⟨fresh, _, call⟩
    · omega
    · obtain ⟨_, _, found, _⟩ := ptMap_new call other member
      rw [found]
      exact some_ne_none _
  · intro other after before
    omega
  · intro other outside
    refine (samePages other ?_).trans (samePage_setBrk state m newBrk other)
    rw [inGrowth]
    omega

/-- A `brk` that does not grow, and is whole if it shrinks. -/
theorem brkOutcome_shrink
    (kept : WellKept w)
    (inMm : m < w.mmCount)
    (oldBounded : (w.mm m).brk < 2 ^ 32)
    (above : (w.mm m).startBrk ≤ newBrk)
    (shrinks : newBrk ≤ (w.mm m).brk)
    (condition :
      newBrk < (w.mm m).brk → ShrinksWhole (w.mm m).brk newBrk)
    (call : sysBrk host w m newBrk reply = some next) :
    BrkKeeps w next m ∧ BrkOutcome w m newBrk next := by
  have limit := memPages_eq
  obtain ⟨state, rfl, ⟨rfl, same⟩ | unmapped⟩ :=
    sysBrk_shrink_cases above shrinks call
  · refine ⟨⟨kept.setBrk m newBrk, inMm, startBrk_setBrk ..⟩,
      .moved above (brk_setBrk ..) ?_ ?_ ?_⟩
    · intro other after before
      rw [same] at before
      omega
    · intro other after before
      rw [same] at after
      omega
    · exact fun other _ => samePage_setBrk ..
  obtain ⟨frame, _, _, lookups⟩ := ptUnmapAlways_spec unmapped
  obtain ⟨keptState, samePages⟩ := kept.ptUnmapAlways unmapped
  have oldInside := page_lt oldBounded
  have ordered : page newBrk ≤ page (w.mm m).brk :=
    Nat.div_le_div_right shrinks
  have ceilOrdered : ceilPages newBrk ≤ ceilPages (w.mm m).brk := by
    simp only [ceilPages, pageSize]
    omega
  have inTail :
      ∀ other,
        other ∈ pageRange (page newBrk)
            (page (w.mm m).brk - page newBrk) ↔
          ceilPages newBrk ≤ other ∧ other < ceilPages (w.mm m).brk := by
    intro other
    rw [mem_pageRange_of_lt (by omega)]
    rcases Nat.lt_or_eq_of_le shrinks with isLess | same
    · rcases condition isLess with ⟨newWhole, oldWhole⟩ | ⟨onePage, oneEnd⟩ <;>
        omega
    · rw [same]
      omega
  refine ⟨⟨keptState.setBrk m newBrk, ?_, ?_⟩, .moved above ?_ ?_ ?_ ?_⟩
  · rw [← frame.mmCount] at inMm
    exact inMm
  · rw [startBrk_setBrk, frame.startBrk]
  · exact brk_setBrk state m newBrk
  · intro other after before
    omega
  · intro other after before
    rw [lookup_setBrk, lookups, if_pos ⟨rfl, (inTail other).mpr ⟨after, before⟩⟩]
  · intro other outside
    refine (samePages other ?_).trans (samePage_setBrk state m newBrk other)
    rw [inTail]
    omega

variable {state : HeapState} {addr : Nat}

/-- Every `brk` that meets the condition has one of these outcomes. -/
theorem brkOutcome
    {returned : Nat}
    (kept : WellKept state.world)
    (inMm : m < state.world.mmCount)
    (oldBounded : (state.world.mm m).brk < 2 ^ 32)
    (aboveStart :
      (state.world.mm m).startBrk ≤ (state.world.mm m).brk)
    (bounded : newBrk < 2 ^ 32)
    (fresh :
      reply.Fresh state.world
        (brkGrowth (state.world.mm m).brk newBrk * pageSize % 2 ^ 32))
    (allowed : BrkWhole host m state (.brk newBrk reply returned))
    (call : sysBrk host state.world m newBrk reply = some next) :
    BrkKeeps state.world next m ∧
      BrkOutcome state.world m newBrk next := by
  rcases Nat.lt_or_ge newBrk (state.world.mm m).startBrk with below | above
  · obtain rfl := sysBrk_below below call
    exact ⟨⟨kept, inMm, rfl⟩, .refused (by omega) rfl
      (fun other => .refl _ m other)⟩
  · obtain ⟨growing, shrinking⟩ := allowed above
    rcases Nat.lt_or_ge (state.world.mm m).brk newBrk with grows | shrinks
    · exact brkOutcome_grow kept inMm oldBounded bounded fresh above grows
        (growing grows) call
    · exact brkOutcome_shrink kept inMm oldBounded above shrinks shrinking
        call

/-- What a run of whole `brk`s and stores keeps. -/
structure HeapInvariant
    (start : World) (m : MmId) (state : HeapState) : Prop where
  exact : HeapExact start m state
  kept : WellKept state.world
  inMm : m < state.world.mmCount
  bounded : (state.world.mm m).brk < 2 ^ 32
  above : (state.world.mm m).startBrk ≤ (state.world.mm m).brk
  free :
    ∀ {other}, HeapPage state.world m other → start.lookup m other = none
  below :
    ∀ {addr value},
      state.known addr = some value → addr < (state.world.mm m).brk

theorem page_lt_ceilPages
    {brk : Nat}
    (below : addr < brk) :
    page addr < ceilPages brk := by
  simp only [page, ceilPages, pageSize]
  omega

theorem known_afterBrk
    {value : UInt8}
    (isKnown : (state.afterBrk m next).known addr = some value) :
    addr < (next.mm m).brk ∧ state.known addr = some value := by
  simp only [HeapState.afterBrk] at isKnown
  split at isKnown
  · exact ⟨‹_›, isKnown⟩
  · cases isKnown

/-- The invariant holds before the first step. -/
theorem HeapInvariant.initial
    (ready : HeapStart start m) :
    HeapInvariant start m (.first start m) := by
  have noHeap : ∀ other, ¬HeapPage start m other := by
    rintro other ⟨after, before⟩
    rw [ready.empty] at before
    omega
  have known :
      ∀ addr value,
        (HeapState.first start m).known addr = some value →
        addr < (start.mm m).brk ∧ readByte start m addr = some value := by
    intro addr value isKnown
    simp only [HeapState.first] at isKnown
    split at isKnown
    · exact ⟨‹_›, isKnown⟩
    · cases isKnown
  exact {
    exact := {
      mapped := fun isHeap => absurd isHeap (noHeap _)
      rest := fun _ => rfl
      known := fun isKnown => (known _ _ isKnown).2 }
    kept := ready.kept
    inMm := ready.inMm
    bounded := ready.bounded
    above := Nat.le_of_eq ready.empty.symm
    free := fun isHeap => absurd isHeap (noHeap _)
    below := fun isKnown => (known _ _ isKnown).1 }

section

variable (holds : HeapInvariant start m state)
include holds

theorem HeapInvariant.refused
    (keeps : BrkKeeps state.world next m)
    (sameBrk : (next.mm m).brk = (state.world.mm m).brk)
    (samePages : ∀ other, SamePage state.world next m other) :
    HeapInvariant start m (state.afterBrk m next) := by
  have sameHeap :
      ∀ other, HeapPage next m other ↔ HeapPage state.world m other := by
    intro other
    simp only [HeapPage, keeps.startBrk, sameBrk]
  constructor
  case exact =>
    constructor
    case mapped =>
      intro other isHeap
      rw [HeapState.afterBrk, (samePages other).entry]
      exact holds.exact.mapped ((sameHeap other).mp isHeap)
    case rest =>
      intro other notHeap
      rw [HeapState.afterBrk, (samePages other).entry]
      exact holds.exact.rest fun isHeap =>
        notHeap ((sameHeap other).mpr isHeap)
    case known =>
      intro addr value isKnown
      rw [HeapState.afterBrk, (samePages _).bytes rfl]
      exact holds.exact.known (known_afterBrk isKnown).2
  case kept => exact keeps.kept
  case inMm => exact keeps.inMm
  case bounded => exact sameBrk ▸ holds.bounded
  case above =>
    rw [HeapState.afterBrk, sameBrk, keeps.startBrk]
    exact holds.above
  case free => exact fun isHeap => holds.free ((sameHeap _).mp isHeap)
  case below => exact fun isKnown => (known_afterBrk isKnown).1

/-- A `brk` that moves the break by whole pages keeps the invariant. -/
theorem HeapInvariant.moved
    (keeps : BrkKeeps state.world next m)
    (bounded : newBrk < 2 ^ 32)
    (above : (state.world.mm m).startBrk ≤ newBrk)
    (moved : (next.mm m).brk = newBrk)
    (grown :
      ∀ other,
        ceilPages (state.world.mm m).brk ≤ other →
        other < ceilPages newBrk →
        next.lookup m other ≠ none ∧
          state.world.lookup m other = none)
    (shrunk :
      ∀ other,
        ceilPages newBrk ≤ other →
        other < ceilPages (state.world.mm m).brk →
        next.lookup m other = none)
    (samePages :
      ∀ other,
        (other < ceilPages newBrk ∧
              other < ceilPages (state.world.mm m).brk ∨
            ceilPages newBrk ≤ other ∧
              ceilPages (state.world.mm m).brk ≤ other) →
          SamePage state.world next m other) :
    HeapInvariant start m (state.afterBrk m next) := by
  have startOrdered :
      ceilPages (state.world.mm m).startBrk ≤ ceilPages newBrk := by
    simp only [ceilPages, pageSize]
    omega
  have heapIff :
      ∀ other,
        HeapPage next m other ↔
          ceilPages (state.world.mm m).startBrk ≤ other ∧
            other < ceilPages newBrk := by
    intro other
    simp only [HeapPage, keeps.startBrk, moved]
  constructor
  case exact =>
    constructor
    case mapped =>
      intro other isHeap
      obtain ⟨after, before⟩ := (heapIff other).mp isHeap
      by_cases isOld : other < ceilPages (state.world.mm m).brk
      · rw [HeapState.afterBrk,
          (samePages other (.inl ⟨before, isOld⟩)).entry]
        exact holds.exact.mapped ⟨after, isOld⟩
      · exact (grown other (Nat.not_lt.mp isOld) before).1
    case rest =>
      intro other notHeap
      have beyond :
          ceilPages (state.world.mm m).startBrk ≤ other →
            ceilPages newBrk ≤ other := by
        intro after
        by_contra before
        exact notHeap ((heapIff other).mpr ⟨after, Nat.not_le.mp before⟩)
      by_cases wasHeap : HeapPage state.world m other
      · -- a page the heap has given up was free at the start
        rw [holds.free wasHeap]
        exact shrunk other (beyond wasHeap.1) wasHeap.2
      · have outside :
            other < ceilPages newBrk ∧
                other < ceilPages (state.world.mm m).brk ∨
              ceilPages newBrk ≤ other ∧
                ceilPages (state.world.mm m).brk ≤ other := by
          have oldOrdered :
              ceilPages (state.world.mm m).startBrk ≤
                ceilPages (state.world.mm m).brk := by
            have ordered := holds.above
            simp only [ceilPages, pageSize]
            omega
          unfold HeapPage at wasHeap
          by_cases after : ceilPages (state.world.mm m).startBrk ≤ other
          · have further := beyond after
            omega
          · omega
        rw [HeapState.afterBrk, (samePages other outside).entry]
        exact holds.exact.rest wasHeap
    case known =>
      intro addr value isKnown
      obtain ⟨belowNew, wasKnown⟩ := known_afterBrk isKnown
      rw [moved] at belowNew
      rw [HeapState.afterBrk, (samePages _ (.inl ⟨
        page_lt_ceilPages belowNew,
        page_lt_ceilPages (holds.below wasKnown)⟩)).bytes rfl]
      exact holds.exact.known wasKnown
  case kept => exact keeps.kept
  case inMm => exact keeps.inMm
  case bounded => exact moved ▸ bounded
  case above =>
    rw [HeapState.afterBrk, moved, keeps.startBrk]
    exact above
  case free =>
    intro other isHeap
    obtain ⟨after, before⟩ := (heapIff other).mp isHeap
    by_cases isOld : other < ceilPages (state.world.mm m).brk
    · exact holds.free ⟨after, isOld⟩
    · rw [← holds.exact.rest fun wasHeap => isOld wasHeap.2]
      exact (grown other (Nat.not_lt.mp isOld) before).2
  case below => exact fun isKnown => (known_afterBrk isKnown).1

theorem HeapInvariant.store
    {address : Nat}
    {value : UInt8}
    (pointer : memPtrNofault state.world m addr .write = some address) :
    HeapInvariant start m (state.afterStore m addr address value) := by
  have known :
      ∀ {other byte},
        (state.afterStore m addr address value).known other = some byte →
        (other = addr ∧ addr < (state.world.mm m).brk ∧ byte = value) ∨
          (other ≠ addr ∧ state.known other = some byte) := by
    intro other byte isKnown
    simp only [HeapState.afterStore] at isKnown
    split at isKnown
    · rename_i isWritten
      split at isKnown
      · exact .inl ⟨isWritten, ‹_›, (some.inj isKnown).symm⟩
      · cases isKnown
    · exact .inr ⟨‹_›, isKnown⟩
  constructor
  case exact =>
    constructor
    case mapped => exact fun isHeap => holds.exact.mapped isHeap
    case rest => exact fun notHeap => holds.exact.rest notHeap
    case known =>
      intro other byte isKnown
      rw [HeapState.afterStore, holds.kept.readByte_writeByte pointer]
      rcases known isKnown with ⟨isWritten, _, isValue⟩ | ⟨notWritten, wasKnown⟩
      · rw [if_pos isWritten, isValue]
      · rw [if_neg notWritten]
        exact holds.exact.known wasKnown
  case kept => exact holds.kept.writeByte address value
  case inMm => exact holds.inMm
  case bounded => exact holds.bounded
  case above => exact holds.above
  case free => exact fun isHeap => holds.free isHeap
  case below =>
    intro other byte isKnown
    rcases known isKnown with ⟨isWritten, isBelow, _⟩ | ⟨_, wasKnown⟩
    · exact isWritten ▸ isBelow
    · exact holds.below wasKnown

/-- Every step that meets the condition keeps the invariant, and answers. -/
theorem HeapInvariant.step
    {after : HeapState}
    {action : HeapAction}
    (allowed : BrkWhole host m state action)
    (taken : HeapStep host m state action after) :
    HeapInvariant start m after ∧ AnswersBreak m state action after := by
  cases taken with
  | store _ pointer => exact ⟨holds.store pointer, trivial⟩
  | brk bounded fresh ran =>
    rename_i newBrk returned reply next
    obtain ⟨_, call, finish⟩ := map_eq_some_iff.mp ran
    cases finish
    obtain ⟨keeps, outcome⟩ :=
      brkOutcome holds.kept holds.inMm holds.bounded holds.above bounded
        fresh allowed call
    cases outcome with
    | refused _ sameBrk samePages =>
      exact ⟨holds.refused keeps sameBrk samePages, rfl,
        fun _ => ⟨sameBrk, samePages⟩⟩
    | moved above moved grown shrunk samePages =>
      exact ⟨holds.moved keeps bounded above moved grown shrunk
        samePages, rfl, fun different => absurd moved different⟩

end

theorem HeapInvariant.reachable
    (ready : HeapStart start m)
    (reachable :
      ((heapMachine host m start).restrict
        (BrkWhole host m)).Reachable state) :
    HeapInvariant start m state :=
  reachable.invariant
    (fun isInitial => isInitial ▸ .initial ready)
    (fun holds taken => (holds.step taken.1 taken.2).1)

/--
In every run of whole `brk`s and stores to the heap, the heap pages are
exactly those between the rounded start and the rounded break, every byte that
was below all breaks since it was written keeps its value, and every `brk`
answers with the break and changes nothing if it is refused.
-/
theorem heap_exact_of_whole_breaks
    {state after : HeapState}
    {action : HeapAction}
    (ready : HeapStart start m)
    (reachable :
      ((heapMachine host m start).restrict
        (BrkWhole host m)).Reachable state)
    (allowed : BrkWhole host m state action)
    (taken : (heapMachine host m start).step state action after) :
    HeapExact start m state ∧ HeapExact start m after ∧
      AnswersBreak m state action after := by
  have holds := HeapInvariant.reachable ready reachable
  obtain ⟨holdsAfter, answers⟩ := holds.step allowed taken
  exact ⟨holds.exact, holdsAfter.exact, answers⟩

/-- A new program whose heap starts at `0x10000000`. -/
def heapWorld : World :=
  (mmNew World.empty).setBrks 0 0x10000000 0x10000000

theorem heapWorld_start : HeapStart heapWorld 0 where
  kept := by
    have reachable : (memoryMachine plainHost).Reachable heapWorld :=
      .step
        (.step (.initial rfl)
          ⟨fun absent => absurd rfl absent, trivial, rfl⟩)
        (show (memoryMachine plainHost).step (mmNew World.empty)
            (.execBrk 0 0x10000000) heapWorld from
          ⟨fun _ => Nat.one_pos, trivial, rfl⟩)
    exact wellKept_of_reachable reachable rfl
  inMm := Nat.one_pos
  empty := rfl
  bounded := by decide

/-- Its heap can grow by part of a page or more. -/
private theorem heapWorld_grows
    (newBrk : Nat)
    (bounded : newBrk < 2 ^ 32)
    (grows : 0x10000000 < newBrk)
    (fits : RangeFits 0 newBrk) :
    ∃ next,
      (next.mm 0).startBrk = 0x10000000 ∧ (next.mm 0).brk = newBrk ∧
        BrkWhole plainHost 0 (.first heapWorld 0)
            (.brk newBrk (grantMemory 8192) newBrk) ∧
          (heapMachine plainHost 0 heapWorld).step (.first heapWorld 0)
            (.brk newBrk (grantMemory 8192) newBrk)
            ((HeapState.first heapWorld 0).afterBrk 0 next) := by
  have limit := memPages_eq
  obtain ⟨rounded, growth, ordered, inside⟩ :=
    @brkGrowth_of_fits 0x10000000 newBrk (by decide) bounded grows
      fits
  have hole :
      ∀ other ∈
          pageRange (pageRoundUp 0x10000000) (brkGrowth 0x10000000 newBrk),
        other < memPages ∧ heapWorld.lookup 0 other = none := by
    intro other member
    rw [rounded, growth, mem_pageRange_of_lt (by omega)] at member
    exact ⟨by omega, rfl⟩
  have holeCheck :
      ptIsHole (heapWorld.mem 0) (pageRoundUp 0x10000000)
          (brkGrowth 0x10000000 newBrk) =
        some true :=
    ptIsHole_true.mpr hole
  obtain ⟨state, mapped⟩ :
      ∃ state,
        ptMapNothing plainHost heapWorld 0 (pageRoundUp 0x10000000)
            (brkGrowth 0x10000000 newBrk) (grantMemory 8192) pWrite =
          some (.ok (), state) := by
    unfold ptMapNothing
    split
    · exact ⟨heapWorld, rfl⟩
    · obtain ⟨state, call, _⟩ :=
        ptMap_isSome plainHost 8192 0 (pWrite ||| pAnonymous)
          (.inl (by decide))
          (w := mapAnonymous heapWorld (grantMemory 8192)
            (brkGrowth 0x10000000 newBrk * pageSize % 2 ^ 32))
          hole
      exact ⟨state, call⟩
  have call :
      sysBrk plainHost heapWorld 0 newBrk (grantMemory 8192) =
        some (state.setBrk 0 newBrk) := by
    have startBrk : (heapWorld.mm 0).startBrk = 0x10000000 := rfl
    have brk : (heapWorld.mm 0).brk = 0x10000000 := rfl
    unfold brkGrowth at holeCheck mapped
    simp only [sysBrk, startBrk, brk, Nat.not_lt.mpr (Nat.le_of_lt grows),
      grows, holeCheck, mapped, if_true, if_false, bind_eq_bind,
      bind_some]
    rfl
  have records := ptMapNothing_records mapped
  refine ⟨state.setBrk 0 newBrk, ?_, brk_setBrk state 0 newBrk,
    fun _ => ⟨fun _ => .inl fits, fun shrinks => ?_⟩, ?_⟩
  · rw [startBrk_setBrk, records.startBrk]
    rfl
  · exact absurd grows (Nat.lt_asymm shrinks)
  · refine .brk bounded ?_ ?_
    · intro memory replied
      cases replied
      refine ⟨?_, fun live => by cases live⟩
      have := Nat.mod_lt
        (brkGrowth 0x10000000 newBrk * pageSize) (Nat.two_pow_pos 32)
      omega
    simp only [run, HeapState.first, call, map_some,
      brk_setBrk]

/-- The first two pages of the heap, through the theorem. -/
theorem heap_exact_of_first_brk :
    ∃ next,
      (next.mm 0).brk = 0x10002000 ∧
        HeapExact heapWorld 0
          ((HeapState.first heapWorld 0).afterBrk 0 next) := by
  obtain ⟨next, _, brk, whole, taken⟩ :=
    heapWorld_grows 0x10002000 (by decide) (by decide)
      ⟨by decide, by decide⟩
  obtain ⟨_, exact, _⟩ :=
    heap_exact_of_whole_breaks heapWorld_start (.initial rfl) whole taken
  exact ⟨next, brk, exact⟩

/--
Growing to the middle of the second page and shrinking back to the middle of
the first unmaps the first page, which the heap still needs.
-/
theorem heap_loses_first_page :
    ∃ state,
      (heapMachine plainHost 0 heapWorld).Reachable state ∧
        (state.world.mm 0).brk = 0x10000800 ∧
        state.world.lookup 0 0x10000 = none ∧
        ¬HeapExact heapWorld 0 state := by
  obtain ⟨grown, startBrk, brk, whole, taken⟩ :=
    heapWorld_grows 0x10001800 (by decide) (by decide)
      ⟨by decide, by decide⟩
  obtain ⟨holds, _⟩ :=
    (HeapInvariant.initial heapWorld_start).step whole taken
  have kept : WellKept grown := holds.kept
  obtain ⟨shrunk, unmapped⟩ :=
    ptUnmapAlways_isSome plainHost kept.accounted kept.notWrapped
      ((unmapPages_inside (grown.mem 0)
        (show 0x10000 + 1 < 2 ^ 32 by decide)).mpr (.inr (by decide)))
  let refusal : MapReply := ⟨.error .nomem, true⟩
  have call :
      sysBrk plainHost grown 0 0x10000800 refusal =
        some (shrunk.setBrk 0 0x10000800) := by
    have oldPage : page 0x10001800 = 0x10001 := rfl
    have newPage : page 0x10000800 = 0x10000 := rfl
    simp only [sysBrk, startBrk, brk, oldPage, newPage]
    rw [if_neg (by decide), if_neg (by decide), if_pos (by decide), unmapped]
    rfl
  obtain ⟨frame, _, _, lookups⟩ := ptUnmapAlways_spec unmapped
  have gone :
      (shrunk.setBrk 0 0x10000800).lookup 0 0x10000 = none := by
    rw [lookup_setBrk, lookups, if_pos]
    exact ⟨rfl, (mem_pageRange_of_lt (by decide)).mpr (by decide)⟩
  have newBrk := brk_setBrk shrunk 0 0x10000800
  have newStart :
      ((shrunk.setBrk 0 0x10000800).mm 0).startBrk = 0x10000000 := by
    rw [startBrk_setBrk, frame.startBrk, startBrk]
  have second :
      (heapMachine plainHost 0 heapWorld).step
        ((HeapState.first heapWorld 0).afterBrk 0 grown)
        (.brk 0x10000800 refusal 0x10000800)
        (((HeapState.first heapWorld 0).afterBrk 0 grown).afterBrk 0
          (shrunk.setBrk 0 0x10000800)) := by
    refine .brk (by decide) (fun replied => by cases replied) ?_
    simp only [run, HeapState.afterBrk, call, map_some,
      newBrk]
  refine ⟨_, .step (.step (.initial rfl) taken) second, newBrk, gone, ?_⟩
  intro exact
  have isHeap : HeapPage (shrunk.setBrk 0 0x10000800) 0 0x10000 := by
    rw [HeapPage, newBrk, newStart]
    decide
  exact exact.mapped isHeap gone

end GuestKernel
