import GuestKernel.UserCopyReach

namespace GuestKernel

/-!
# What a failed read leaves in its buffer

`user_read` stores page by page and returns 1 at the first page that it cannot
read.  What it has stored by then stays in the buffer.
-/

variable
  {host : Host}
  {replies : PageReplies}
  {call : UserCopy}
  {w : World}
  {buffer : Nat → UInt8}
  {state last : CopyState}
  {covered limit result index : Nat}

/--
A byte of the buffer that the call stores to: it belongs to the range, unless
the range reaches the last page, and every page up to it is accessible.
-/
def UserCopy.Stored
    (host : Host) (replies : PageReplies) (call : UserCopy) (w : World)
    (index : Nat) : Prop :=
  call.count ≠ 0 ∧
    (call.addr + call.count ≤ 0xfffff000 → index < call.count) ∧
    ∀ earlier,
      earlier ≤ index →
      Accessible host w call.m call.direction.access replies
        (page (call.place earlier))

/-- A read that has covered some of its buffer. -/
structure ReadReach
    (host : Host) (replies : PageReplies) (call : UserCopy) (w : World)
    (buffer : Nat → UInt8) (state : CopyState) (covered : Nat) : Prop where
  reach : CopyReach host replies call w state covered
  bytes :
    ∀ addr, memoryByte state.world call.m addr = memoryByte w call.m addr
  stored :
    ∀ index,
      index < covered →
      state.buffer index = memoryByte w call.m (call.place index)
  rest : ∀ index, covered ≤ index → state.buffer index = buffer index
  nonempty : 0 < covered → call.count ≠ 0

/-- How a read ends. -/
structure ReadEnd
    (host : Host) (replies : PageReplies) (call : UserCopy) (w : World)
    (buffer : Nat → UInt8) (last : CopyState) : Prop where
  bytes :
    ∀ addr, memoryByte last.world call.m addr = memoryByte w call.m addr
  stored :
    ∀ index,
      call.Stored host replies w index →
      last.buffer index = memoryByte w call.m (call.place index)
  rest :
    ∀ index,
      ¬call.Stored host replies w index → last.buffer index = buffer index

theorem ReadReach.start
    (kept : WellKept w)
    (inMm : call.m < w.mmCount)
    (narrow : call.Narrow) :
    ReadReach host replies call w buffer (call.start w buffer) 0 where
  reach := .start kept inMm narrow
  bytes _ := rfl
  stored _ below := absurd below (Nat.not_lt_zero _)
  rest _ _ := rfl
  nonempty below := absurd below (Nat.lt_irrefl 0)

theorem ReadReach.stored_of_lt
    (narrow : call.Narrow)
    (holds : ReadReach host replies call w buffer state covered)
    (before : index < covered) :
    call.Stored host replies w index := by
  have nonempty := holds.nonempty (Nat.zero_lt_of_lt before)
  refine ⟨nonempty, fun isLow => ?_, fun earlier notAfter => ?_⟩
  · exact Nat.lt_of_lt_of_le before (holds.reach.low (narrow.bound ▸ isLow))
  · exact holds.reach.accessible earlier (Nat.lt_of_le_of_lt notAfter before)

/-- One more chunk is read. -/
theorem ReadReach.cover
    {world : World}
    {address reached : Nat}
    (isRead : call.direction = .read)
    (narrow : call.Narrow)
    (below : state.p < call.bound)
    (holds : ReadReach host replies call w buffer state covered)
    (base : CopyBase host replies call w { state with world := world })
    (keeps : FaultKeeps state.world world call.m (page state.p))
    (accessible :
      Accessible host w call.m call.direction.access replies (page state.p))
    (pointer :
      memPtrNofault world call.m state.p call.direction.access =
        some address)
    (cursor : state.p = call.place covered)
    (chunk : NextChunk call state.p covered reached)
    (short : reached ≤ pageSize) :
    ReadReach host replies call w buffer
      (call.copyChunk { state with world := world } address) reached := by
  have bytes :
      ∀ addr, memoryByte world call.m addr = memoryByte w call.m addr :=
    fun addr => (keeps.bytes addr).trans (holds.bytes addr)
  have inChunk :
      ∀ index,
        (call.offset state.p ≤ index ∧
            index < call.offset state.p + call.length state.p) ↔
          covered ≤ index ∧ index < reached := by
    intro index
    rw [chunk.length, chunk.offset]
  have buffered :
      ∀ index,
        (call.copyChunk { state with world := world } address).buffer index =
          if call.offset state.p ≤ index ∧
              index < call.offset state.p + call.length state.p then
            world.bytes (address + (index - call.offset state.p))
          else
            state.buffer index := by
    intro index
    simp only [UserCopy.copyChunk, isRead, Direction.memcpy]
  refine ⟨holds.reach.cover base accessible address chunk, ?_, ?_, ?_, ?_⟩
  · intro addr
    refine Eq.trans ?_ (bytes addr)
    simp only [UserCopy.copyChunk, isRead, Direction.memcpy]
  · intro index before
    rw [buffered]
    by_cases isOld : index < covered
    · rw [if_neg fun within => ?_]
      · exact holds.stored index isOld
      · have notBefore := ((inChunk index).mp within).1
        omega
    · have notBefore := Nat.le_of_not_lt isOld
      rw [if_pos ((inChunk index).mpr ⟨notBefore, before⟩), chunk.offset]
      -- the chunk lies in one page, so its bytes follow the cursor
      have samePage := chunk.inPage index notBefore before
      have isPlace :
          state.p + (index - covered) = call.place index ∧
            pgOffset state.p + (index - covered) < pageSize := by
        rw [cursor] at samePage ⊢
        unfold UserCopy.place page at samePage
        unfold UserCopy.place pgOffset
        simp only [pageSize] at *
        omega
      rw [base.kept.bytes_pointer pointer isPlace.2, isPlace.1]
      exact bytes _
  · intro index notBefore
    rw [buffered, if_neg fun within => ?_]
    · exact holds.rest index (by have := chunk.forward; omega)
    · have before := ((inChunk index).mp within).2
      omega
  · intro _ isEmpty
    by_cases fresh : covered = 0
    · rw [cursor, fresh, UserCopy.place, ← narrow.bound, isEmpty] at below
      have small := narrow.addr
      omega
    · exact holds.nonempty (Nat.pos_of_ne_zero fresh) isEmpty

/-- A read that has to stop within a page returns. -/
theorem ReadReach.returns
    (isRead : call.direction = .read)
    (narrow : call.Narrow)
    (honest :
      ∀ state,
        call.Reaches host replies (call.start w buffer) state →
        call.HonestAt host replies state)
    (short : limit ≤ pageSize)
    (inside : call.Inside host replies w buffer limit)
    (state : CopyState)
    (covered : Nat)
    (reached : call.Reaches host replies (call.start w buffer) state)
    (holds : ReadReach host replies call w buffer state covered)
    (within : covered ≤ limit) :
    ∃ result last,
      call.Returns host replies (call.start w buffer) result last ∧
        (result = 0 ∨ result = 1) ∧
        ReadEnd host replies call w buffer last := by
  have bound := narrow.bound
  have notWhole : covered ≠ call.lap := by
    unfold UserCopy.lap
    simp only [pageSize] at *
    omega
  have cursor := holds.reach.cursor.resolve_right fun both => notWhole both.1
  by_cases below : state.p < call.bound
  case neg =>
    have round :
        call.round host replies state = some (.returned 0 state) :=
      if_neg below
    refine ⟨0, state, ⟨state, reached, round⟩, .inl rfl, holds.bytes, ?_, ?_⟩
    · rintro index ⟨nonempty, inRange, _⟩
      refine holds.stored index ?_
      by_cases isLow : call.addr + call.count ≤ 0xfffff000
      · have := inRange isLow
        have := holds.reach.low (bound ▸ isLow)
        rw [cursor, UserCopy.place, Nat.mod_eq_of_lt (by omega)] at below
        omega
      · -- a cursor at a page cannot reach beyond the last one
        have aligned := holds.reach.aligned (by omega)
        have small := holds.reach.base.small
        have addr := narrow.addr
        unfold UserCopy.place at cursor
        simp only [pageSize] at aligned
        omega
    · intro index notStored
      exact holds.rest index (Nat.le_of_not_lt fun before =>
        notStored (holds.stored_of_lt narrow before))
  case pos =>
    rcases UserCopy.visit holds.reach.base below (honest state reached) with
      ⟨accessible, world, address, base, keeps, usable, pointer, reaches⟩ |
        ⟨inaccessible, last, returns, _, sameBuffer, keeps⟩
    · obtain ⟨next, chunk⟩ := holds.reach.nextChunk narrow below notWhole
      have reachedNext := reached.trans reaches.to_reflTransGen
      have within : next ≤ limit := by
        have ends := inside _ reachedNext (call.offset state.p,
          call.length state.p) (List.mem_append_right _
            (List.mem_singleton.mpr rfl))
        exact chunk.length ▸ ends
      have forward := chunk.forward
      exact ReadReach.returns isRead narrow honest short inside _ next
        reachedNext
        (holds.cover isRead narrow below base keeps accessible pointer cursor chunk
          (Nat.le_trans within short))
        within
    · refine ⟨1, last, returns.after reached, .inr rfl, fun addr => ?_, ?_,
        ?_⟩
      · exact (keeps.bytes addr).trans (holds.bytes addr)
      · rintro index ⟨_, _, accessible⟩
        rw [sameBuffer]
        refine holds.stored index (Nat.lt_of_not_le fun notAfter => ?_)
        exact inaccessible (cursor ▸ accessible covered notAfter)
      · intro index notStored
        rw [sameBuffer]
        exact holds.rest index (Nat.le_of_not_lt fun before =>
          notStored (holds.stored_of_lt narrow before))
termination_by limit - covered

theorem UserCopy.read_returns
    (kept : WellKept w)
    (inMm : call.m < w.mmCount)
    (isRead : call.direction = .read)
    (narrow : call.Narrow)
    (honest :
      ∀ state,
        call.Reaches host replies (call.start w buffer) state →
        call.HonestAt host replies state)
    (short : limit ≤ pageSize)
    (inside : call.Inside host replies w buffer limit) :
    ∃ result last,
      call.Returns host replies (call.start w buffer) result last ∧
        (result = 0 ∨ result = 1) ∧
        ReadEnd host replies call w buffer last :=
  ReadReach.returns isRead narrow honest short inside _ 0 .refl
    (.start kept inMm narrow) (Nat.zero_le _)

end GuestKernel
