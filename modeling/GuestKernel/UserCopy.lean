import GuestKernel.UserPages

namespace GuestKernel
open Option

/-!
# Copying between the kernel and guest memory

`__user_read_task` and `__user_write_task` walk over the pages of a range with
a 32-bit cursor and a 64-bit bound.  The end of a chunk wraps to 0 in the last
page of the address space, and the cursor with it.
-/

/-- Which way the bytes go. -/
inductive Direction where
  | read
  | write

/-- `MEM_READ` or `MEM_WRITE`. -/
def Direction.access : Direction → Access
  | .read => .read
  | .write => .write

/-- The arguments of one call. -/
structure UserCopy where
  direction : Direction
  m : MmId
  addr : Nat
  count : Nat

/-- `__user_read_task`. -/
def userReadTask (m : MmId) (addr count : Nat) : UserCopy where
  direction := .read
  m := m
  addr := addr
  count := count

/-- `__user_write_task`, but for a debugger. -/
def userWriteTask (m : MmId) (addr count : Nat) : UserCopy where
  direction := .write
  m := m
  addr := addr
  count := count

/--
The state of a call: the cursor `p`, the kernel buffer from its first byte on,
and the chunks of it that were touched, each an offset and a length.
-/
structure CopyState where
  world : World
  p : Nat
  buffer : Nat → UInt8
  touched : List (Nat × Nat)

/-- The loop goes on, or the call returns. -/
inductive CopyProgress where
  | running (state : CopyState)
  | returned (result : Nat) (state : CopyState)

/-- `addr + count`, in the 64 bits of `size_t`. -/
def UserCopy.bound (call : UserCopy) : Nat :=
  (call.addr + call.count) % 2 ^ 64

/-- `chunk_end`, in the 32 bits of `addr_t`. -/
def chunkEnd (p bound : Nat) : Nat :=
  let pageEnd := (page p + 1) * pageSize % 2 ^ 32
  if bound < pageEnd then bound % 2 ^ 32 else pageEnd

/-- `p - addr`, an index of the buffer. -/
def UserCopy.offset (call : UserCopy) (p : Nat) : Nat :=
  (p + 2 ^ 32 - call.addr) % 2 ^ 32

/-- `chunk_end - p`, the length of a chunk. -/
def UserCopy.length (call : UserCopy) (p : Nat) : Nat :=
  (chunkEnd p call.bound + 2 ^ 32 - p) % 2 ^ 32

/-- The `memcpy` between the buffer and the host address of a chunk. -/
def Direction.memcpy
    (state : CopyState) (address offset length : Nat) :
    Direction → CopyState
  | .read =>
    { state with
      buffer := fun index =>
        if offset ≤ index ∧ index < offset + length then
          state.world.bytes (address + (index - offset))
        else
          state.buffer index }
  | .write =>
    { state with
      world :=
        state.world.fillBytes address length fun index =>
          state.buffer (offset + index) }

/-- The rest of the round once `mem_ptr` has returned a pointer. -/
def UserCopy.copyChunk
    (call : UserCopy) (state : CopyState) (address : Nat) : CopyState :=
  { call.direction.memcpy state address (call.offset state.p)
      (call.length state.p) with
    p := chunkEnd state.p call.bound
    touched :=
      state.touched ++ [(call.offset state.p, call.length state.p)] }

/--
One round of the loop of `mem_ptr` inside one round of the copying loop, or the
return of the call.  A resolved fault leaves the cursor where it is.
-/
def UserCopy.round
    (host : Host) (replies : PageReplies) (call : UserCopy)
    (state : CopyState) : Option CopyProgress :=
  if state.p < call.bound then do
    match ← memPtrRound state.world call.m state.p call.direction.access
        false with
    | .pointer address => pure (.running (call.copyChunk state address))
    | .null => pure (.returned 1 state)
    | .resolve =>
      match ← memResolveFault host state.world call.m (page state.p)
          call.direction.access false (replies.grow (page state.p))
          (replies.copy (page state.p)) with
      | (.error _, world) =>
        pure (.returned 1 { state with world := world })
      | (.ok (), world) => pure (.running { state with world := world })
  else
    pure (.returned 0 state)

/-- One round that does not return. -/
def UserCopy.Step
    (host : Host) (replies : PageReplies) (call : UserCopy)
    (state next : CopyState) : Prop :=
  call.round host replies state = some (.running next)

/-- The states of a call before it returns. -/
def UserCopy.Reaches
    (host : Host) (replies : PageReplies) (call : UserCopy) :
    CopyState → CopyState → Prop :=
  Relation.ReflTransGen (call.Step host replies)

/-- The call ends with a result. -/
def UserCopy.Returns
    (host : Host) (replies : PageReplies) (call : UserCopy)
    (state : CopyState) (result : Nat) (last : CopyState) : Prop :=
  ∃ before,
    call.Reaches host replies state before ∧
      call.round host replies before = some (.returned result last)

/-- The state a call starts in. -/
def UserCopy.start
    (call : UserCopy) (w : World) (buffer : Nat → UInt8) : CopyState where
  world := w
  p := call.addr
  buffer := buffer
  touched := []

/-- The byte that goes from one side to the other. -/
def UserCopy.byte
    (call : UserCopy) (w : World) (buffer : Nat → UInt8) (index : Nat) :
    UInt8 :=
  match call.direction with
  | .read => memoryByte w call.m (call.addr + index)
  | .write => buffer index

/-- The first `count` bytes are on both sides, and all others as they were. -/
structure UserCopy.Copied
    (call : UserCopy) (w : World) (buffer : Nat → UInt8) (count : Nat)
    (last : CopyState) : Prop where
  guest :
    ∀ index,
      index < count →
      readByte last.world call.m (call.addr + index) =
        some (call.byte w buffer index)
  guestRest :
    ∀ addr,
      addr < call.addr ∨ call.addr + count ≤ addr →
      memoryByte last.world call.m addr = memoryByte w call.m addr
  kernel :
    ∀ index, index < count → last.buffer index = call.byte w buffer index
  kernelRest :
    ∀ index, count ≤ index → last.buffer index = buffer index

/-- Every byte of the range lies below 2^32 and is accessible. -/
def UserCopy.AllAccessible
    (host : Host) (replies : PageReplies) (call : UserCopy) (w : World) :
    Prop :=
  ∀ index,
    index < call.count →
    call.addr + index < 2 ^ 32 ∧
      Accessible host w call.m call.direction.access replies
        (page (call.addr + index))

/--
The call returns; with 0 exactly if the range is accessible, and then it has
copied it; and it touched only the first `count` bytes of the buffer.
-/
def UserCopy.Correct
    (host : Host) (replies : PageReplies) (call : UserCopy)
    (w : World) (buffer : Nat → UInt8) : Prop :=
  ∃ result last,
    call.Returns host replies (call.start w buffer) result last ∧
      (result = 0 ↔ call.AllAccessible host replies w) ∧
      (result = 0 → call.Copied w buffer call.count last) ∧
      ∀ chunk ∈ last.touched, chunk.1 + chunk.2 ≤ call.count

/--
The range is empty; or its end does not wrap, and it ends before the last page,
or has a page that is not accessible, or is so long that the cursor, once it
has wrapped, meets such a page before the end of the buffer.
-/
def UserCopy.EndsBelowLastPage
    (host : Host) (replies : PageReplies) (call : UserCopy) (w : World) :
    Prop :=
  call.count = 0 ∨
    call.addr + call.count < 2 ^ 64 ∧
      (call.addr + call.count ≤ 0xfffff000 ∨
        (∃ other,
          page call.addr ≤ other ∧ other < memPages ∧
            ¬Accessible host w call.m call.direction.access replies other) ∨
        2 ^ 32 < call.addr + call.count ∧
          ∃ other,
            2 ^ 32 + other * pageSize ≤ call.addr + call.count ∧
              other < memPages ∧
              ¬Accessible host w call.m call.direction.access replies
                other ∧
              ∀ below,
                below < other →
                Accessible host w call.m call.direction.access replies
                  below)

variable
  {host : Host}
  {replies : PageReplies}
  {call : UserCopy}
  {w : World}
  {buffer : Nat → UInt8}
  {state next : CopyState}

/-- What every round keeps: the books, and which pages are accessible. -/
structure CopyBase
    (host : Host) (replies : PageReplies) (call : UserCopy) (w : World)
    (state : CopyState) : Prop where
  kept : WellKept state.world
  inMm : call.m < state.world.mmCount
  small : state.p < 2 ^ 32
  stays :
    ∀ access other,
      Accessible host state.world call.m access replies other ↔
        Accessible host w call.m access replies other

/-- What the host promises where a fault has to be resolved. -/
def UserCopy.HonestAt
    (host : Host) (replies : PageReplies) (call : UserCopy)
    (state : CopyState) : Prop :=
  state.p < call.bound →
    ¬Usable state.world call.m call.direction.access (page state.p) →
    replies.Honest host state.world (page state.p)

theorem chunkEnd_lt (p bound : Nat) :
    chunkEnd p bound < 2 ^ 32 := by
  unfold chunkEnd
  dsimp only
  split <;> exact Nat.mod_lt _ (by decide)

/-- Copying a chunk keeps all of it. -/
theorem CopyBase.copyChunk
    (base : CopyBase host replies call w state)
    (address : Nat) :
    CopyBase host replies call w (call.copyChunk state address) := by
  have world :
      ∀ offset length,
        WellKept
            (call.direction.memcpy state address offset length).world ∧
          (call.direction.memcpy state address offset length).world.mmCount =
              state.world.mmCount ∧
            (call.direction.memcpy state address offset length).world.lookup =
              state.world.lookup := by
    intro offset length
    cases call.direction with
    | read => exact ⟨base.kept, rfl, rfl⟩
    | write =>
      have kept := base.kept.fillBytes address length fun index =>
        state.buffer (offset + index)
      exact ⟨kept, rfl, rfl⟩
  obtain ⟨kept, mmCount, lookup⟩ :=
    world (call.offset state.p) (call.length state.p)
  refine ⟨kept, ?_, chunkEnd_lt _ _, fun access other => ?_⟩
  · exact mmCount.symm ▸ base.inMm
  · refine Iff.trans ?_ (base.stays access other)
    simp only [UserCopy.copyChunk, Accessible, StackAbove, lookup]

/--
A page that is accessible is copied from or to after one fault at most, and
one that is not ends the call.
-/
theorem UserCopy.visit
    (base : CopyBase host replies call w state)
    (below : state.p < call.bound)
    (honest : call.HonestAt host replies state) :
    (Accessible host w call.m call.direction.access replies (page state.p) ∧
        ∃ world address,
          CopyBase host replies call w { state with world := world } ∧
            FaultKeeps state.world world call.m (page state.p) ∧
            Usable world call.m call.direction.access (page state.p) ∧
            memPtrNofault world call.m state.p call.direction.access =
                some address ∧
              Relation.TransGen (call.Step host replies) state
                (call.copyChunk { state with world := world } address)) ∨
      ¬Accessible host w call.m call.direction.access replies
          (page state.p) ∧
        ∃ last,
          call.Returns host replies state 1 last ∧
            last.touched = state.touched ∧
            last.buffer = state.buffer ∧
            FaultKeeps state.world last.world call.m (page state.p) := by
  have inside := page_lt base.small
  have notPtrace : call.direction.access ≠ .writePtrace := by
    cases call.direction <;> decide
  have stays := base.stays call.direction.access (page state.p)
  by_cases usable :
      Usable state.world call.m call.direction.access (page state.p)
  · obtain ⟨address, pointer, round⟩ :=
      usable.memPtrRound base.kept inside notPtrace
    refine .inl ⟨stays.mp usable.accessible, state.world, address, base,
      ⟨base.kept, rfl, fun _ => rfl, fun _ _ => rfl⟩, usable, pointer,
      .single ?_⟩
    simp only [UserCopy.Step, UserCopy.round, below, if_true, round,
      bind_eq_bind, bind_some, Option.pure_def]
  by_cases readOnly :
      ∃ entry,
        state.world.lookup call.m (page state.p) = some entry ∧
          hasFlag entry.flags pWrite = false
  · obtain ⟨entry, found, isReadOnly⟩ := readOnly
    have isWrite : call.direction.access = .write := by
      cases direction : call.direction with
      | write => rfl
      | read =>
        rw [direction] at usable
        exact absurd ⟨entry, found, .inl rfl⟩ usable
    have round := memPtrRound_readOnly inside found isReadOnly
    refine .inr ⟨?_, state, ⟨state, .refl, ?_⟩, rfl, rfl,
      ⟨base.kept, rfl, fun _ => rfl, fun _ _ => rfl⟩⟩
    · rw [← stays, Accessible, found, isWrite]
      rintro (isRead | ⟨canWrite, _⟩)
      · cases isRead
      · rw [isReadOnly] at canWrite
        cases canWrite
    · simp only [UserCopy.round, below, if_true, isWrite, round,
        bind_eq_bind, bind_some, Option.pure_def]
  have notReadOnly :
      ∀ {entry},
        state.world.lookup call.m (page state.p) = some entry →
        hasFlag entry.flags pWrite = true := by
    intro entry found
    exact Bool.of_not_eq_false fun isReadOnly =>
      readOnly ⟨entry, found, isReadOnly⟩
  have round := memPtrRound_resolve inside usable notReadOnly
  obtain ⟨result, world, resolved, outcome⟩ :=
    resolveFault_spec base.kept base.inMm inside (honest below usable) usable
      notReadOnly
  rcases outcome with
    ⟨rfl, accessible, fault⟩ | ⟨⟨code, rfl⟩, inaccessible, keeps⟩
  · have inWorld : call.m < world.mmCount :=
      fault.mmCount.symm ▸ base.inMm
    obtain ⟨address, pointer, again⟩ :=
      fault.usable.memPtrRound fault.kept inside notPtrace
    have first :
        call.round host replies state =
          some (.running { state with world := world }) := by
      simp only [UserCopy.round, below, if_true, round, resolved,
        bind_eq_bind, bind_some, Option.pure_def]
    have second :
        call.round host replies { state with world := world } =
          some (.running
            (call.copyChunk { state with world := world } address)) := by
      simp only [UserCopy.round, below, if_true, again, bind_eq_bind,
        bind_some, Option.pure_def]
    refine .inl ⟨stays.mp accessible, world, address,
      ⟨fault.kept, inWorld, base.small, fun access other =>
        (fault.stays access other).trans (base.stays access other)⟩,
      fault.toFaultKeeps, fault.usable, pointer,
      .tail (.single first) second⟩
  · refine .inr ⟨fun accessible => inaccessible (stays.mpr accessible),
      { state with world := world }, ⟨state, .refl, ?_⟩, rfl, rfl, keeps⟩
    simp only [UserCopy.round, below, if_true, round, resolved,
      bind_eq_bind, bind_some, Option.pure_def]

theorem UserCopy.Copied.start
    (call : UserCopy) (w : World) (buffer : Nat → UInt8) :
    call.Copied w buffer 0 (call.start w buffer) where
  guest _ below := absurd below (Nat.not_lt_zero _)
  guestRest _ _ := rfl
  kernel _ below := absurd below (Nat.not_lt_zero _)
  kernelRest _ _ := rfl

theorem UserCopy.Copied.fault
    {count other : Nat}
    {world : World}
    (copied : call.Copied w buffer count state)
    (keeps : FaultKeeps state.world world call.m other)
    (usable : Usable world call.m call.direction.access other) :
    call.Copied w buffer count { state with world := world } where
  guest index below := keeps.readByte usable (copied.guest index below)
  guestRest addr outside :=
    (keeps.bytes addr).trans (copied.guestRest addr outside)
  kernel := copied.kernel
  kernelRest := copied.kernelRest

/-- A chunk that ends in the page of the cursor, without a wrap. -/
structure InPage (call : UserCopy) (p : Nat) : Prop where
  above : call.addr ≤ p
  small : p < 2 ^ 32
  forward : p < chunkEnd p call.bound
  inPage : pgOffset p + (chunkEnd p call.bound - p) ≤ pageSize

variable {p : Nat}

theorem InPage.chunk
    (inPage : InPage call p) :
    call.offset p = p - call.addr ∧
      call.length p = chunkEnd p call.bound - p := by
  obtain ⟨above, small, forward, _⟩ := inPage
  have ends := chunkEnd_lt p call.bound
  unfold UserCopy.offset UserCopy.length
  omega

/-- Copying such a chunk adds it to what was copied. -/
theorem UserCopy.Copied.copyChunk
    {address : Nat}
    (copied : call.Copied w buffer (state.p - call.addr) state)
    (kept : WellKept state.world)
    (usable : Usable state.world call.m call.direction.access (page state.p))
    (pointer :
      memPtrNofault state.world call.m state.p call.direction.access =
        some address)
    (inPage : InPage call state.p) :
    call.Copied w buffer (chunkEnd state.p call.bound - call.addr)
      (call.copyChunk state address) := by
  obtain ⟨offset, length⟩ := inPage.chunk
  obtain ⟨above, small, forward, fits⟩ := inPage
  unfold UserCopy.copyChunk
  rw [offset, length]
  generalize chunkEnd state.p call.bound = last at forward fits
  -- the chunk as guest addresses and as indices of the buffer
  have mapped :
      ∀ index,
        state.p - call.addr ≤ index → index < last - call.addr →
        readByte state.world call.m (call.addr + index) =
          some (memoryByte state.world call.m (call.addr + index)) := by
    intro index after before
    refine kept.readByte_mapped ?_
    obtain ⟨entry, found, _⟩ := usable
    have samePage : page (call.addr + index) = page state.p := by
      simp only [page, pgOffset, pageSize] at *
      omega
    rw [samePage, found]
    exact some_ne_none _
  have stays :
      ∀ index,
        state.p - call.addr ≤ index →
        memoryByte state.world call.m (call.addr + index) =
          memoryByte w call.m (call.addr + index) :=
    fun index after => copied.guestRest _ (.inr (by omega))
  cases direction : call.direction with
  | read =>
    have isByte :
        ∀ index,
          call.byte w buffer index =
            memoryByte w call.m (call.addr + index) := by
      intro index
      rw [UserCopy.byte, direction]
    constructor
    case guest =>
      intro index before
      by_cases isOld : index < state.p - call.addr
      · exact copied.guest index isOld
      · have after := Nat.le_of_not_lt isOld
        rw [isByte, ← stays index after]
        exact mapped index after before
    case guestRest =>
      intro addr outside
      exact copied.guestRest addr (by omega)
    case kernel =>
      intro index before
      by_cases isOld : index < state.p - call.addr
      · refine (if_neg ?_).trans (copied.kernel index isOld)
        omega
      · have after := Nat.le_of_not_lt isOld
        have isIndex :
            state.p + (index - (state.p - call.addr)) =
              call.addr + index := by
          omega
        refine (if_pos ⟨after, by omega⟩).trans ?_
        rw [kept.bytes_pointer pointer (by omega), isIndex, isByte,
          stays index after]
    case kernelRest =>
      intro index after
      refine (if_neg ?_).trans (copied.kernelRest index (by omega))
      omega
  | write =>
    have isByte : ∀ index, call.byte w buffer index = buffer index := by
      intro index
      rw [UserCopy.byte, direction]
    have sameBuffer : state.buffer = buffer := by
      funext index
      by_cases isOld : index < state.p - call.addr
      · exact (copied.kernel index isOld).trans (isByte index)
      · exact copied.kernelRest index (Nat.le_of_not_lt isOld)
    have written :=
      kept.readByte_fillBytes pointer fits fun index =>
        state.buffer (state.p - call.addr + index)
    constructor
    case guest =>
      intro index before
      refine (written (call.addr + index)).trans ?_
      by_cases isOld : index < state.p - call.addr
      · rw [if_neg (by omega)]
        exact copied.guest index isOld
      · have isIndex :
            state.p - call.addr + (call.addr + index - state.p) =
              index := by
          omega
        rw [if_pos (by omega), isIndex, isByte, sameBuffer]
    case guestRest =>
      intro addr outside
      refine Eq.trans ?_ (copied.guestRest addr (by omega))
      unfold memoryByte
      refine congrArg (Option.getD · 0) ((written addr).trans ?_)
      rw [if_neg (by omega)]
    case kernel =>
      intro index before
      rw [isByte]
      exact congrFun sameBuffer index
    case kernelRest =>
      intro index after
      exact congrFun sameBuffer index

theorem chunkEnd_low
    {bound : Nat}
    (low : p < 0xfffff000) :
    chunkEnd p bound = min bound ((page p + 1) * pageSize) := by
  unfold chunkEnd
  have noWrap : (page p + 1) * pageSize % 2 ^ 32 = (page p + 1) * pageSize := by
    simp only [page, pageSize]
    omega
  have inside : (page p + 1) * pageSize < 2 ^ 32 := by
    simp only [page, pageSize]
    omega
  simp only [noWrap]
  split <;> omega

theorem InPage.low
    (above : call.addr ≤ p)
    (low : p < 0xfffff000)
    (below : p < call.bound) :
    InPage call p := by
  refine ⟨above, by omega, ?_, ?_⟩ <;>
    rw [chunkEnd_low low] <;>
    simp only [page, pgOffset, pageSize] <;>
    omega

theorem UserCopy.Returns.after
    {result : Nat}
    {last : CopyState}
    (reaches : call.Reaches host replies state next)
    (returns : call.Returns host replies next result last) :
    call.Returns host replies state result last := by
  obtain ⟨before, later, round⟩ := returns
  exact ⟨before, reaches.trans later, round⟩

/-- What the loop keeps while the cursor has not wrapped. -/
structure CopyForward
    (host : Host) (replies : PageReplies) (call : UserCopy) (w : World)
    (buffer : Nat → UInt8) (state : CopyState) : Prop where
  base : CopyBase host replies call w state
  above : call.addr ≤ state.p
  copied : call.Copied w buffer (state.p - call.addr) state
  touched :
    ∀ chunk ∈ state.touched, chunk.1 + chunk.2 ≤ state.p - call.addr

theorem CopyForward.copyChunk
    {world : World}
    {address : Nat}
    (holds : CopyForward host replies call w buffer state)
    (base : CopyBase host replies call w { state with world := world })
    (keeps : FaultKeeps state.world world call.m (page state.p))
    (usable : Usable world call.m call.direction.access (page state.p))
    (pointer :
      memPtrNofault world call.m state.p call.direction.access =
        some address)
    (inPage : InPage call state.p) :
    CopyForward host replies call w buffer
      (call.copyChunk { state with world := world } address) where
  base := base.copyChunk address
  above := Nat.le_of_lt (Nat.lt_of_le_of_lt inPage.above inPage.forward)
  copied :=
    (holds.copied.fault keeps usable).copyChunk base.kept usable pointer
      inPage
  touched := by
    intro chunk member
    obtain ⟨offset, length⟩ := inPage.chunk
    obtain ⟨above, _, forward, _⟩ := inPage
    rcases List.mem_append.mp member with earlier | isLast
    · have before := holds.touched chunk earlier
      show _ ≤ chunkEnd state.p call.bound - call.addr
      omega
    · cases List.mem_singleton.mp isLast
      show call.offset state.p + call.length state.p ≤
        chunkEnd state.p call.bound - call.addr
      omega

/-- A range that ends below the last page is copied, or found inaccessible. -/
theorem UserCopy.returns_low
    (noWrap : call.addr + call.count = call.bound)
    (low : call.bound ≤ 0xfffff000)
    (honest :
      ∀ state,
        call.Reaches host replies (call.start w buffer) state →
        call.HonestAt host replies state)
    (state : CopyState)
    (reached : call.Reaches host replies (call.start w buffer) state)
    (holds : CopyForward host replies call w buffer state)
    (notAfter : state.p ≤ call.bound) :
    ∃ result last,
      call.Returns host replies state result last ∧
        (result = 0 ↔
          ∀ addr,
            state.p ≤ addr → addr < call.bound →
            Accessible host w call.m call.direction.access replies
              (page addr)) ∧
          (result = 0 → call.Copied w buffer call.count last) ∧
            ∀ chunk ∈ last.touched, chunk.1 + chunk.2 ≤ call.count := by
  by_cases below : state.p < call.bound
  case neg =>
    have isEnd : state.p = call.bound := by omega
    have round :
        call.round host replies state = some (.returned 0 state) :=
      if_neg below
    have isCount : state.p - call.addr = call.count := by omega
    exact ⟨0, state, ⟨state, .refl, round⟩,
      ⟨fun _ addr after before => by omega, fun _ => rfl⟩,
      fun _ => isCount ▸ holds.copied, isCount ▸ holds.touched⟩
  case pos =>
    rcases UserCopy.visit holds.base below (honest state reached) with
      ⟨accessible, world, address, base, keeps, usable, pointer, reaches⟩ |
        ⟨inaccessible, last, returns, touched, _⟩
    · have inPage := InPage.low holds.above (by omega) below
      have forward := holds.copyChunk base keeps usable pointer inPage
      have shape := @chunkEnd_low state.p call.bound (by omega)
      have ends : chunkEnd state.p call.bound ≤ call.bound := by omega
      have later := inPage.forward
      have reaches := reaches.to_reflTransGen
      obtain ⟨result, last, returns, isZero, copied, touched⟩ :=
        UserCopy.returns_low noWrap low honest _ (reached.trans reaches)
          forward ends
      refine ⟨result, last, returns.after reaches, isZero.trans ?_, copied,
        touched⟩
      constructor
      · intro rest addr after before
        by_cases inChunk : addr < chunkEnd state.p call.bound
        · have samePage : page addr = page state.p := by
            rw [shape] at inChunk
            simp only [page, pageSize] at *
            omega
          exact samePage ▸ accessible
        · exact rest addr (Nat.le_of_not_lt inChunk) before
      · exact fun all addr after before =>
          all addr (Nat.le_trans (Nat.le_of_lt later) after) before
    · refine ⟨1, last, returns, ?_,
        fun isZero => absurd isZero Nat.one_ne_zero, ?_⟩
      · refine ⟨fun isZero => absurd isZero Nat.one_ne_zero, fun all => ?_⟩
        exact absurd (all state.p (Nat.le_refl _) below) inaccessible
      · intro chunk member
        have before := holds.touched chunk (touched ▸ member)
        omega
termination_by call.bound - state.p
decreasing_by
  show call.bound - chunkEnd state.p call.bound < call.bound - state.p
  omega

end GuestKernel
