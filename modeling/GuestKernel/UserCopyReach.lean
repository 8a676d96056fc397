import GuestKernel.ScatteredStores
import GuestKernel.UserCopyWrap

namespace GuestKernel
open List

/-!
# How far a copy gets in its buffer

The chunks of a copy cover its buffer from the first byte on without a gap.  A
copy that reaches the last page goes on at address 0, and its buffer goes on as
well, until it meets a page that is not accessible.  So it stays inside what
was allocated exactly if it ends below the last page, or has to stop before.
-/

/-- The guest address of a byte of the buffer, with a cursor that wraps. -/
def UserCopy.place (call : UserCopy) (index : Nat) : Nat :=
  (call.addr + index) % 2 ^ 32

/-- The end of the last chunk, once the cursor has gone through all pages. -/
def UserCopy.lap (call : UserCopy) : Nat :=
  2 ^ 32 + (2 ^ 32 - call.addr) % pageSize

/-- Every chunk that a call touches ends in the first `limit` bytes. -/
def UserCopy.Inside
    (host : Host) (replies : PageReplies) (call : UserCopy) (w : World)
    (buffer : Nat → UInt8) (limit : Nat) : Prop :=
  ∀ state,
    call.Reaches host replies (call.start w buffer) state →
    ∀ chunk ∈ state.touched, chunk.1 + chunk.2 ≤ limit

/--
The range is empty, or ends below the last page and has room in the buffer; or
the whole address space has room; or a page that is not accessible comes first.
-/
def UserCopy.StopsBefore
    (host : Host) (replies : PageReplies) (call : UserCopy) (w : World)
    (limit : Nat) : Prop :=
  call.count = 0 ∨
    call.addr + call.count ≤ 0xfffff000 ∧ call.count ≤ limit ∨
    call.lap ≤ limit ∨
    ∃ index,
      index ≤ limit ∧
        ¬Accessible host w call.m call.direction.access replies
          (page (call.place index))

/-- The arguments are those of a 32-bit guest. -/
structure UserCopy.Narrow (call : UserCopy) : Prop where
  addr : call.addr < 2 ^ 32
  count : call.count < 2 ^ 32

/--
A range that is empty, or ends below the last page and is accessible: the copy
succeeds.
-/
def UserCopy.Copyable
    (host : Host) (replies : PageReplies) (call : UserCopy) (w : World) :
    Prop :=
  call.count = 0 ∨
    call.addr + call.count ≤ 0xfffff000 ∧
      ∀ index,
        index < call.count →
        Accessible host w call.m call.direction.access replies
          (page (call.addr + index))

variable
  {host : Host}
  {replies : PageReplies}
  {call : UserCopy}
  {w : World}
  {buffer : Nat → UInt8}
  {state next last : CopyState}
  {covered limit : Nat}

theorem UserCopy.Narrow.bound
    (narrow : call.Narrow) :
    call.addr + call.count = call.bound := by
  obtain ⟨addr, count⟩ := narrow
  unfold UserCopy.bound
  omega

/-- The first `covered` bytes of the buffer were touched, and no others. -/
structure CopyReach
    (host : Host) (replies : PageReplies) (call : UserCopy) (w : World)
    (state : CopyState) (covered : Nat) : Prop where
  base : CopyBase host replies call w state
  cursor :
    state.p = call.place covered ∨
      covered = call.lap ∧ state.p % pageSize = 0
  fits : covered ≤ call.lap
  low : call.bound ≤ 0xfffff000 → covered ≤ call.count
  aligned :
    0xfffff000 < call.bound →
      covered = 0 ∨ (call.addr + covered) % pageSize = 0
  touched : ∀ chunk ∈ state.touched, chunk.1 + chunk.2 ≤ covered
  accessible :
    ∀ index,
      index < covered →
      Accessible host w call.m call.direction.access replies
        (page (call.place index))

theorem CopyReach.start
    (kept : WellKept w)
    (inMm : call.m < w.mmCount)
    (narrow : call.Narrow) :
    CopyReach host replies call w (call.start w buffer) 0 where
  base := ⟨kept, inMm, narrow.addr, fun _ _ => Iff.rfl⟩
  cursor := .inl (Nat.mod_eq_of_lt narrow.addr).symm
  fits := Nat.zero_le _
  low _ := Nat.zero_le _
  aligned _ := .inl rfl
  touched _ member := by cases member
  accessible _ below := absurd below (Nat.not_lt_zero _)

/-- Where the next chunk lies in the buffer, and where it leads the cursor. -/
structure NextChunk (call : UserCopy) (p covered reached : Nat) : Prop where
  offset : call.offset p = covered
  length : call.offset p + call.length p = reached
  forward : covered < reached
  fits : reached ≤ call.lap
  low : call.bound ≤ 0xfffff000 → reached ≤ call.count
  aligned : 0xfffff000 < call.bound → (call.addr + reached) % pageSize = 0
  cursor : chunkEnd p call.bound = call.place reached
  inPage :
    ∀ index,
      covered ≤ index → index < reached → page (call.place index) = page p

variable {p : Nat}

/-- The next chunk of a range that ends below the last page. -/
private theorem nextChunk_low
    (narrow : call.Narrow)
    (isLow : call.bound ≤ 0xfffff000)
    (below : p < call.bound)
    (cursor : p = call.place covered)
    (fits : covered ≤ call.count) :
    ∃ reached, NextChunk call p covered reached := by
  have bound := narrow.bound
  have isCursor : p = call.addr + covered := by
    rw [cursor, UserCopy.place]
    exact Nat.mod_eq_of_lt (by omega)
  have inPage :=
    @InPage.low call p (isCursor ▸ Nat.le_add_right _ _) (by omega) below
  obtain ⟨offset, length⟩ := inPage.chunk
  have ends := @chunkEnd_low p call.bound (by omega)
  obtain ⟨above, small, forward, chunk⟩ := inPage
  have small := narrow.addr
  refine ⟨chunkEnd p call.bound - call.addr, ?_⟩
  refine ⟨by omega, by omega, by omega, ?_, fun _ => by omega,
    fun high => by omega, ?_, ?_⟩
  · unfold UserCopy.lap
    omega
  · rw [UserCopy.place, Nat.add_sub_of_le (by omega), Nat.mod_eq_of_lt]
    omega
  · intro index after before
    have isPlace : call.place index = call.addr + index := by
      unfold UserCopy.place
      exact Nat.mod_eq_of_lt (by omega)
    rw [isPlace]
    simp only [page, pageSize] at *
    omega

/-- The next chunk of a range that reaches the last page. -/
private theorem nextChunk_high
    (narrow : call.Narrow)
    (high : 0xfffff000 < call.bound)
    (cursor : p = call.place covered)
    (aligned : covered = 0 ∨ (call.addr + covered) % pageSize = 0)
    (fits : covered < call.lap) :
    ∃ reached, NextChunk call p covered reached := by
  have addr := narrow.addr
  have ends := (@chunkEnd_high p call.bound high).1
  -- the first byte of the buffer that lies in the next page
  refine ⟨covered + (pageSize - p % pageSize), ?_⟩
  unfold UserCopy.lap at fits
  unfold UserCopy.place at cursor
  have notWrapped : covered < 2 ^ 32 := by
    simp only [pageSize] at *
    omega
  have offset : call.offset p = covered := by
    unfold UserCopy.offset
    omega
  have length : call.length p = pageSize - p % pageSize := by
    unfold UserCopy.length
    rw [ends]
    simp only [page, pageSize] at *
    omega
  refine ⟨offset, by rw [offset, length], ?_, ?_, fun low => by omega,
    fun _ => ?_, ?_, ?_⟩
  · simp only [pageSize]
    omega
  · unfold UserCopy.lap
    simp only [pageSize] at *
    omega
  · simp only [pageSize] at *
    omega
  · rw [ends, UserCopy.place]
    simp only [page, pageSize] at *
    omega
  · intro index after before
    unfold UserCopy.place
    simp only [page, pageSize] at *
    omega

/-- A chunk that begins at a page lies within the lap. -/
private theorem chunk_within_lap
    (narrow : call.Narrow)
    (high : 0xfffff000 < call.bound)
    (aligned : p % pageSize = 0) :
    call.offset p + call.length p ≤ call.lap ∧
      chunkEnd p call.bound % pageSize = 0 := by
  have addr := narrow.addr
  have ends := (@chunkEnd_high p call.bound high).1
  constructor
  · unfold UserCopy.length UserCopy.offset UserCopy.lap
    rw [ends]
    simp only [page, pageSize] at *
    omega
  · rw [ends]
    simp only [page, pageSize] at *
    omega

theorem CopyReach.nextChunk
    (narrow : call.Narrow)
    (holds : CopyReach host replies call w state covered)
    (below : state.p < call.bound)
    (notWhole : covered ≠ call.lap) :
    ∃ reached, NextChunk call state.p covered reached := by
  have fits := Nat.lt_of_le_of_ne holds.fits notWhole
  have cursor := holds.cursor.resolve_right fun both => notWhole both.1
  by_cases isLow : call.bound ≤ 0xfffff000
  · exact nextChunk_low narrow isLow below cursor (holds.low isLow)
  · have high := Nat.lt_of_not_le isLow
    exact nextChunk_high narrow high cursor (holds.aligned high) fits

/-- A new chunk covers the buffer up to its own end. -/
theorem CopyReach.cover
    {world : World}
    {reached : Nat}
    (holds : CopyReach host replies call w state covered)
    (base : CopyBase host replies call w { state with world := world })
    (accessible :
      Accessible host w call.m call.direction.access replies (page state.p))
    (address : Nat)
    (chunk : NextChunk call state.p covered reached) :
    CopyReach host replies call w
      (call.copyChunk { state with world := world } address) reached := by
  refine ⟨base.copyChunk address, .inl chunk.cursor, chunk.fits, chunk.low,
    fun high => .inr (chunk.aligned high), ?_, ?_⟩
  · intro part member
    rcases mem_append.mp member with earlier | isLast
    · exact Nat.le_trans (holds.touched part earlier)
        (Nat.le_of_lt chunk.forward)
    · cases mem_singleton.mp isLast
      exact Nat.le_of_eq chunk.length
  · intro index before
    by_cases isOld : index < covered
    · exact holds.accessible index isOld
    · rw [chunk.inPage index (Nat.le_of_not_lt isOld) before]
      exact accessible

/-- Copying a chunk covers more of the buffer, or all there is. -/
theorem CopyReach.copyChunk
    {world : World}
    (narrow : call.Narrow)
    (holds : CopyReach host replies call w state covered)
    (below : state.p < call.bound)
    (base : CopyBase host replies call w { state with world := world })
    (accessible :
      Accessible host w call.m call.direction.access replies (page state.p))
    (address : Nat) :
    ∃ reached,
      CopyReach host replies call w
          (call.copyChunk { state with world := world } address) reached ∧
        (covered = call.lap ∨
          covered < reached ∧
            ∃ chunk ∈
                (call.copyChunk { state with world := world }
                  address).touched,
              chunk.1 + chunk.2 = reached) := by
  have next := base.copyChunk address
  by_cases whole : covered = call.lap
  · have high : 0xfffff000 < call.bound := by
      refine Nat.lt_of_not_le fun isLow => ?_
      have fits := holds.low isLow
      have count := narrow.count
      unfold UserCopy.lap at whole
      omega
    have aligned : state.p % pageSize = 0 := by
      rcases holds.cursor with isPlace | ⟨_, aligned⟩
      · rw [isPlace, whole, UserCopy.place, UserCopy.lap]
        have addr := narrow.addr
        simp only [pageSize]
        omega
      · exact aligned
    obtain ⟨within, nextAligned⟩ :=
      chunk_within_lap narrow high aligned
    refine ⟨covered, ⟨next, .inr ⟨whole, nextAligned⟩, holds.fits, holds.low,
      holds.aligned, ?_, holds.accessible⟩, .inl whole⟩
    intro chunk member
    rcases mem_append.mp member with earlier | isLast
    · exact holds.touched chunk earlier
    · cases mem_singleton.mp isLast
      exact whole.symm ▸ within
  · obtain ⟨reached, chunk⟩ := holds.nextChunk narrow below whole
    exact ⟨reached, holds.cover base accessible address chunk,
      .inr ⟨chunk.forward, _,
        mem_append_right _ (mem_singleton.mpr rfl),
        chunk.length⟩⟩

/-- A pointer is handed out for a usable page only. -/
theorem usable_of_pointer
    {m : MmId}
    {addr address : Nat}
    {type : Access}
    (round :
      memPtrRound w m addr type false = some (.pointer address)) :
    Usable w m type (page addr) := by
  obtain ⟨entry, isMapped, rest⟩ := Option.bind_eq_some_iff.mp round
  have lookup := (memPt_eq_some.mp isMapped).2
  cases entry with
  | none => cases rest
  | some entry =>
    refine ⟨entry, lookup, ?_⟩
    by_cases isRead : type = .read
    · exact .inl isRead
    · refine .inr (Bool.of_not_eq_false fun notWritable => ?_)
      simp only [notWritable, isRead, ne_eq, not_false_eq_true,
        decide_true, Bool.not_true, Bool.not_false, Bool.or_false,
        Bool.and_false, Bool.false_eq_true, if_false] at rest
      split at rest <;> cases rest

variable
  (kept : WellKept w)
  (inMm : call.m < w.mmCount)
  (narrow : call.Narrow)
  (honest :
    ∀ state,
      call.Reaches host replies (call.start w buffer) state →
      call.HonestAt host replies state)

include kept inMm narrow honest in
/-- Whatever a call has reached, it has covered some of the buffer. -/
theorem CopyReach.reached
    (reached : call.Reaches host replies (call.start w buffer) state) :
    ∃ covered, CopyReach host replies call w state covered := by
  induction reached with
  | refl => exact ⟨0, .start kept inMm narrow⟩
  | tail earlier step inductionHypothesis =>
    rename_i before after
    obtain ⟨covered, holds⟩ := inductionHypothesis
    have next := holds.base.step (honest before earlier) step
    rcases call.round_cases step with ⟨_, isReturn⟩ |
      ⟨below, ⟨address, pointer, isNext⟩ | ⟨_, isReturn⟩ |
        ⟨world, _, _, isNext⟩⟩
    · cases isReturn
    · cases isNext
      have accessible :=
        (holds.base.stays _ _).mp
          (usable_of_pointer pointer).accessible
      obtain ⟨reached, isReach, _⟩ :=
        holds.copyChunk narrow below holds.base accessible address
      exact ⟨reached, isReach⟩
    · cases isReturn
    · cases isNext
      exact ⟨covered, next, holds.cursor, holds.fits, holds.low,
        holds.aligned, holds.touched, holds.accessible⟩

include narrow honest in
/-- A call goes on over pages that are accessible. -/
theorem CopyReach.passes
    (nonempty : call.count ≠ 0)
    (room :
      call.addr + call.count ≤ 0xfffff000 → limit < call.count)
    (short : limit < call.lap)
    (accessible :
      ∀ index,
        index ≤ limit →
        Accessible host w call.m call.direction.access replies
          (page (call.place index)))
    (state : CopyState)
    (covered : Nat)
    (reached : call.Reaches host replies (call.start w buffer) state)
    (holds : CopyReach host replies call w state covered)
    (within : covered ≤ limit) :
    ∃ later,
      call.Reaches host replies (call.start w buffer) later ∧
        ∃ chunk ∈ later.touched, limit < chunk.1 + chunk.2 := by
  have bound := narrow.bound
  have notWhole : covered ≠ call.lap := by omega
  have cursor := holds.cursor.resolve_right fun both => notWhole both.1
  have below : state.p < call.bound := by
    by_cases isLow : call.addr + call.count ≤ 0xfffff000
    · have fits := room isLow
      rw [cursor, UserCopy.place, Nat.mod_eq_of_lt (by omega)]
      omega
    · have aligned := holds.aligned (by omega)
      have addr := narrow.addr
      have small := holds.base.small
      unfold UserCopy.place at cursor
      simp only [pageSize] at aligned
      omega
  have canCopy := accessible covered within
  rw [← cursor] at canCopy
  rcases UserCopy.visit holds.base below (honest state reached) with
    ⟨_, world, address, base, _, _, _, reaches⟩ | ⟨inaccessible, _⟩
  case inr => exact absurd canCopy inaccessible
  have reachedNext := reached.trans reaches.to_reflTransGen
  obtain ⟨covers, isReach, isWhole | ⟨forward, chunk, member, ends⟩⟩ :=
    holds.copyChunk narrow below base canCopy address
  · exact absurd isWhole notWhole
  by_cases beyond : limit < covers
  · exact ⟨_, reachedNext, chunk, member, ends.symm ▸ beyond⟩
  · exact CopyReach.passes nonempty room short accessible
      _ covers reachedNext isReach (Nat.le_of_not_lt beyond)
termination_by limit - covered

section

include kept inMm narrow honest

/-- A copy stays inside its buffer exactly if it has to stop in time. -/
theorem UserCopy.inside_iff :
    call.Inside host replies w buffer limit ↔
      call.StopsBefore host replies w limit := by
  constructor
  · intro inside
    by_contra passes
    unfold UserCopy.StopsBefore at passes
    simp only [not_or, not_and, not_exists, not_le, not_not] at passes
    obtain ⟨nonempty, room, short, accessible⟩ := passes
    obtain ⟨later, reached, chunk, member, beyond⟩ :=
      CopyReach.passes narrow honest nonempty room short accessible _
        0 .refl (.start kept inMm narrow) (Nat.zero_le _)
    exact absurd (inside later reached chunk member) (Nat.not_le_of_lt beyond)
  · intro stops state reached chunk member
    obtain ⟨covered, holds⟩ :=
      CopyReach.reached kept inMm narrow honest reached
    refine Nat.le_trans (holds.touched chunk member) ?_
    rcases stops with isEmpty | ⟨isLow, room⟩ | room |
      ⟨index, within, inaccessible⟩
    · have atEnd : ¬call.addr < call.bound := by
        have bound := narrow.bound
        omega
      rcases reached.cases_head with rfl | ⟨after, step, _⟩
      · cases member
      · cases (UserCopy.returns_at_once atEnd).symm.trans step
    · exact Nat.le_trans (holds.low (narrow.bound ▸ isLow)) room
    · exact Nat.le_trans holds.fits room
    · by_contra beyond
      exact inaccessible (holds.accessible index (by omega))

/-- What a copy that returned 0 leaves behind. -/
structure CopySuccess
    (host : Host) (replies : PageReplies) (call : UserCopy) (w : World)
    (buffer : Nat → UInt8) (last : CopyState) : Prop where
  base : CopyBase host replies call w last
  copied : call.Copied w buffer call.count last

/-- A range below the last page is copied exactly if it is accessible. -/
private theorem returns_zero_low_iff
    (isLow : call.bound ≤ 0xfffff000) :
    (call.Returns host replies (call.start w buffer) 0 last →
        CopySuccess host replies call w buffer last) ∧
      ((∃ last, call.Returns host replies (call.start w buffer) 0 last) ↔
        ∀ index,
          index < call.count →
          Accessible host w call.m call.direction.access replies
            (page (call.addr + index))) := by
  have base : CopyBase host replies call w (call.start w buffer) :=
    ⟨kept, inMm, narrow.addr, fun _ _ => Iff.rfl⟩
  have bound := narrow.bound
  have forward :
      CopyForward host replies call w buffer (call.start w buffer) :=
    ⟨base, Nat.le_refl _,
      (Nat.sub_self call.addr).symm ▸ .start call w buffer,
      fun _ member => by cases member⟩
  obtain ⟨result, other, returned, isZero, copied, _⟩ :=
    UserCopy.returns_low bound isLow honest _ .refl forward
      (bound ▸ Nat.le_add_right _ _)
  constructor
  · intro returns
    obtain ⟨rfl, rfl⟩ := returns.unique_last returned
    obtain ⟨_, reach⟩ :=
      CopyReach.reached kept inMm narrow honest returns.reaches_of_zero
    exact ⟨reach.base, copied rfl⟩
  · constructor
    · rintro ⟨last, returns⟩ index below
      obtain ⟨rfl, _⟩ := returns.unique_last returned
      exact isZero.mp rfl _ (Nat.le_add_right _ _) (by omega)
    · intro accessible
      have same : result = 0 := by
        refine isZero.mpr fun addr after before => ?_
        change call.addr ≤ addr at after
        have place := accessible (addr - call.addr) (by omega)
        rwa [Nat.add_sub_of_le after] at place
      exact ⟨other, same ▸ returned⟩

end

private theorem returns_zero_empty
    (narrow : call.Narrow)
    (isEmpty : call.count = 0) :
    call.Returns host replies (call.start w buffer) 0
      (call.start w buffer) := by
  refine ⟨_, .refl, UserCopy.returns_at_once fun below => ?_⟩
  have bound := narrow.bound
  change call.addr < call.bound at below
  omega

section

include kept inMm narrow honest

/-- A range that reaches the last page is never copied. -/
private theorem not_returns_zero_high
    (nonempty : call.count ≠ 0)
    (high : 0xfffff000 < call.bound) :
    ¬call.Returns host replies (call.start w buffer) 0 last := by
  intro returns
  have bound := narrow.bound
  have holds : CopyHigh host replies call w buffer :=
    ⟨bound, by omega, high,
      ⟨kept, inMm, narrow.addr, fun _ _ => Iff.rfl⟩, honest⟩
  cases holds.returns_one returns

theorem CopySuccess.of_returns
    (returns : call.Returns host replies (call.start w buffer) 0 last) :
    CopySuccess host replies call w buffer last := by
  by_cases isLow : call.bound ≤ 0xfffff000
  · exact (returns_zero_low_iff kept inMm narrow honest isLow).1 returns
  by_cases isEmpty : call.count = 0
  · obtain ⟨_, rfl⟩ :=
      returns.unique_last (returns_zero_empty narrow isEmpty)
    exact ⟨⟨kept, inMm, narrow.addr, fun _ _ => Iff.rfl⟩,
      isEmpty.symm ▸ .start call w buffer⟩
  · exact absurd returns (not_returns_zero_high kept inMm narrow honest
      isEmpty (Nat.lt_of_not_le isLow))

/-- Which copies return 0. -/
theorem UserCopy.copyable_iff :
    (∃ last, call.Returns host replies (call.start w buffer) 0 last) ↔
      call.Copyable host replies w := by
  unfold UserCopy.Copyable
  have bound := narrow.bound
  by_cases isEmpty : call.count = 0
  · exact iff_of_true ⟨_, returns_zero_empty narrow isEmpty⟩ (.inl isEmpty)
  rw [or_iff_right isEmpty]
  by_cases isLow : call.bound ≤ 0xfffff000
  · rw [and_iff_right (bound.symm ▸ isLow)]
    exact (@returns_zero_low_iff host replies call w buffer
      (call.start w buffer) kept inMm narrow honest isLow).2
  · refine iff_of_false ?_ fun both => isLow (bound ▸ both.1)
    rintro ⟨last, returns⟩
    exact not_returns_zero_high kept inMm narrow honest isEmpty
      (Nat.lt_of_not_le isLow) returns

end

section

variable (success : CopySuccess host replies call w buffer last)
include success

theorem CopySuccess.memoryByte_of_read
    (isRead : call.direction = .read) :
    memoryByte last.world call.m = memoryByte w call.m := by
  funext addr
  by_cases inRange : call.addr ≤ addr ∧ addr < call.addr + call.count
  · have guest := success.copied.guest (addr - call.addr) (by omega)
    rw [Nat.add_sub_of_le inRange.1, UserCopy.byte, isRead,
      Nat.add_sub_of_le inRange.1] at guest
    rw [memoryByte, guest]
    rfl
  · exact success.copied.guestRest addr (by omega)

theorem CopySuccess.buffer_of_read
    (isRead : call.direction = .read)
    {index : Nat}
    (inRange : index < call.count) :
    last.buffer index = memoryByte w call.m (call.addr + index) := by
  rw [success.copied.kernel index inRange, UserCopy.byte, isRead]

/-- Writing stores the buffer in the range. -/
theorem CopySuccess.memoryByte_of_write
    (isWrite : call.direction = .write) :
    memoryByte last.world call.m =
      storeAll (memoryByte w call.m) (List.range' call.addr call.count)
        buffer := by
  funext addr
  rw [storeAll_range]
  split
  · rename_i inRange
    have guest := success.copied.guest (addr - call.addr) (by omega)
    rw [Nat.add_sub_of_le inRange.1, UserCopy.byte, isWrite] at guest
    rw [memoryByte, guest]
    rfl
  · exact success.copied.guestRest addr (by omega)

theorem CopySuccess.buffer_of_write
    (isWrite : call.direction = .write) :
    last.buffer = buffer := by
  funext index
  by_cases inRange : index < call.count
  · rw [success.copied.kernel index inRange, UserCopy.byte, isWrite]
  · exact success.copied.kernelRest index (Nat.le_of_not_lt inRange)

end

end GuestKernel
