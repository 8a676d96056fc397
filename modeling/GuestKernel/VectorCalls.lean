import GuestKernel.FlatCopies

namespace GuestKernel
open List

/-!
# `readv` and `writev`

Both read the array of vectors into kernel memory and flatten the transfer into
one buffer.  The size of the array is a 32-bit product, while its members are
counted with the count itself; and `readv` copies out by the lengths of the
vectors, not by how much was read.
-/

/-- What `malloc` answers: memory with anything in it, or none. -/
structure Malloc where
  granted : Bool
  junk : Nat → UInt8

/-- The arguments of both calls, and what the kernel is given for them. -/
structure VectorCall where
  host : Host
  replies : PageReplies
  m : MmId
  iovecAddr : Nat
  iovecCount : Nat
  iovecMalloc : Malloc
  bufMalloc : Malloc
  addrNarrow : iovecAddr < 2 ^ 32
  countNarrow : iovecCount < 2 ^ 32

/-- `sizeof(struct iovec_) * iovec_count`, in the 32 bits of `dword_t`. -/
def VectorCall.iovecBytes (call : VectorCall) : Nat :=
  8 * call.iovecCount % 2 ^ 32

/-- The copies from the guest. -/
def VectorCall.readLoop (call : VectorCall) : FlatLoop where
  host := call.host
  replies := call.replies
  direction := .read
  m := call.m

/-- The copies to the guest. -/
def VectorCall.writeLoop (call : VectorCall) : FlatLoop where
  host := call.host
  replies := call.replies
  direction := .write
  m := call.m

/-- The range of the array. -/
def VectorCall.array (call : VectorCall) : IoVector where
  base := call.iovecAddr
  len := call.iovecBytes

/-- The state in which `read_iovec` calls `user_read`. -/
def VectorCall.arrayStart (call : VectorCall) (w : World) : FlatState where
  world := w
  flat := call.iovecMalloc.junk
  offset := 0

/-- A 32-bit word in memory, its low byte first. -/
def dwordAt (bytes : Nat → UInt8) (index : Nat) : Nat :=
  (bytes index).toNat + 2 ^ 8 * (bytes (index + 1)).toNat +
    2 ^ 16 * (bytes (index + 2)).toNat + 2 ^ 24 * (bytes (index + 3)).toNat

/-- `iovec[i]`. -/
def iovecAt (bytes : Nat → UInt8) (i : Nat) : IoVector where
  base := dwordAt bytes (8 * i)
  len := dwordAt bytes (8 * i + 4)

/-- All members that the loops go through. -/
def vectorsOf (bytes : Nat → UInt8) (count : Nat) : List IoVector :=
  (List.range count).map (iovecAt bytes)

/-- Every member that the loops go through lies in the array. -/
def VectorCall.SubscriptsInside (call : VectorCall) : Prop :=
  ∀ i, i < call.iovecCount → 8 * i + 8 ≤ call.iovecBytes

/-- Both calls have their vectors and their buffer. -/
structure VectorCall.Prepared
    (call : VectorCall) (w : World) (after : FlatState) : Prop where
  iovecGranted : call.iovecMalloc.granted = true
  array : call.readLoop.Runs (call.arrayStart w) [call.array] after
  subscripts : call.SubscriptsInside
  bufGranted : call.bufMalloc.granted = true

/-- How both calls end: with a 32-bit count, or with an error. -/
inductive TransferEnd where
  | moved (count : Nat)
  | failed (code : Errno)
  | refused (result : Int)

/-- Both calls can end before anything is read or written. -/
inductive VectorCall.Unprepared (call : VectorCall) (w : World) :
    TransferEnd → World → Prop where
  | iovecNoMemory
      (denied : call.iovecMalloc.granted = false) :
      Unprepared call w (.failed .nomem) w
  | iovecFault
      {last : CopyState}
      (iovecGranted : call.iovecMalloc.granted = true)
      (returns :
        call.readLoop.Returns (call.arrayStart w) call.array 1 last) :
      Unprepared call w (.failed .fault) last.world
  | bufNoMemory
      {after : FlatState}
      (iovecGranted : call.iovecMalloc.granted = true)
      (array : call.readLoop.Runs (call.arrayStart w) [call.array] after)
      (subscripts : call.SubscriptsInside)
      (denied : call.bufMalloc.granted = false) :
      Unprepared call w (.failed .nomem) after.world

/-- `readv`, and what `sys_read_buf` returns and leaves in the buffer. -/
structure Readv extends VectorCall where
  result : Int
  flat : Nat → UInt8

/-- The state in which the loop of `sys_readv` starts. -/
def Readv.bufferStart (call : Readv) (after : FlatState) : FlatState where
  world := after.world
  flat := call.flat
  offset := 0

/-- `sys_readv`. -/
inductive SysReadv (call : Readv) (w : World) :
    TransferEnd → World → Prop where
  | unprepared
      {outcome : TransferEnd}
      {world : World}
      (ended : call.Unprepared w outcome world) :
      SysReadv call w outcome world
  | readFailed
      {after : FlatState}
      (prepared : call.Prepared w after)
      (negative : call.result < 0) :
      SysReadv call w (.refused call.result) after.world
  | copyFault
      {after middle : FlatState}
      {vector : IoVector}
      {done rest : List IoVector}
      {last : CopyState}
      (prepared : call.Prepared w after)
      (succeeded : 0 ≤ call.result)
      (split :
        vectorsOf after.flat call.iovecCount = done ++ vector :: rest)
      (runs : call.writeLoop.Runs (call.bufferStart after) done middle)
      (returns : call.writeLoop.Returns middle vector 1 last) :
      SysReadv call w (.failed .fault) last.world
  | moved
      {after final : FlatState}
      (prepared : call.Prepared w after)
      (succeeded : 0 ≤ call.result)
      (runs :
        call.writeLoop.Runs (call.bufferStart after)
          (vectorsOf after.flat call.iovecCount) final) :
      SysReadv call w (.moved (call.result.toNat % 2 ^ 32)) final.world

/-- `writev`, and what `sys_write_buf` returns. -/
structure Writev extends VectorCall where
  result : Int

/-- The state in which the loop of `sys_writev` starts. -/
def Writev.bufferStart (call : Writev) (after : FlatState) : FlatState where
  world := after.world
  flat := call.bufMalloc.junk
  offset := 0

/-- The vectors as the guest wrote them. -/
def VectorCall.guestVectors
    (call : VectorCall) (w : World) : List IoVector :=
  vectorsOf (fun index => memoryByte w call.m (call.iovecAddr + index))
    call.iovecCount

/-- Nothing outside of the array is read or written for it. -/
structure VectorCall.ArrayInside (call : VectorCall) (w : World) : Prop where
  copy :
    call.iovecMalloc.granted = true →
      call.readLoop.Inside call.iovecBytes (call.arrayStart w) [call.array]
  subscripts :
    ∀ {after},
      call.iovecMalloc.granted = true →
      call.readLoop.Runs (call.arrayStart w) [call.array] after →
      call.SubscriptsInside

/--
`readv` stays inside the array and the buffer; and if it returns a count, guest
memory has the first bytes of the buffer in the first so many places, in order,
and is otherwise as it was.
-/
structure Readv.Bounded (call : Readv) (w : World) : Prop where
  array : call.ArrayInside w
  buffer :
    ∀ {after},
      call.Prepared w after →
      0 ≤ call.result →
      call.writeLoop.Inside
        (iovecSize (vectorsOf after.flat call.iovecCount))
        (call.bufferStart after) (vectorsOf after.flat call.iovecCount)
  frame :
    ∀ {count world},
      SysReadv call w (.moved count) world →
      memoryByte world call.m =
        storeAll (memoryByte w call.m)
          ((destination (call.guestVectors w)).take count) call.flat

/-- `writev` stays inside the array and the buffer. -/
structure Writev.Bounded (call : Writev) (w : World) : Prop where
  array : call.ArrayInside w
  buffer :
    ∀ {after},
      call.Prepared w after →
      call.readLoop.Inside
        (iovecSize (vectorsOf after.flat call.iovecCount))
        (call.bufferStart after) (vectorsOf after.flat call.iovecCount)

/-- The copy of the array stops in time, and its size does not wrap. -/
structure VectorCall.ArrayFits (call : VectorCall) (w : World) : Prop where
  copy :
    call.iovecMalloc.granted = true →
      call.readLoop.StopsInTime w call.iovecBytes 0 [call.array]
  count :
    call.iovecMalloc.granted = true →
      call.readLoop.Copyable w call.array →
      call.iovecCount < 2 ^ 29

/-- The call gets its vectors and its buffer. -/
structure VectorCall.Prepares (call : VectorCall) (w : World) : Prop where
  iovecGranted : call.iovecMalloc.granted = true
  copyable : call.readLoop.Copyable w call.array
  count : call.iovecCount < 2 ^ 29
  bufGranted : call.bufMalloc.granted = true

/--
Every byte of the buffer behind the first `count`, unless a later one goes to
the same address, is there already.
-/
def TailInPlace
    (memory : Nat → UInt8) (vectors : List IoVector)
    (flat : Nat → UInt8) (count : Nat) : Prop :=
  ∀ index address,
    count ≤ index →
    LastStore (destination vectors) index address →
    flat index =
      storeAll memory ((destination vectors).take count) flat address

/--
The array fits, the copies stop in time, and the bytes behind those that were
read are in place.
-/
structure Readv.Fits (call : Readv) (w : World) : Prop where
  array : call.ArrayFits w
  buffer :
    call.Prepares w →
      0 ≤ call.result →
      call.writeLoop.StopsInTime w (iovecSize (call.guestVectors w)) 0
        (call.guestVectors w)
  tail :
    call.Prepares w →
      0 ≤ call.result →
      (∀ vector ∈ call.guestVectors w,
          call.writeLoop.Copyable w vector) →
        TailInPlace (memoryByte w call.m) (call.guestVectors w) call.flat
          (call.result.toNat % 2 ^ 32)

/-- The array fits, and the copies stop in time. -/
structure Writev.Fits (call : Writev) (w : World) : Prop where
  array : call.ArrayFits w
  buffer :
    call.Prepares w →
      call.readLoop.StopsInTime w (iovecSize (call.guestVectors w)) 0
        (call.guestVectors w)

/-- What the host promises in the copy of the array. -/
def VectorCall.HonestArray (call : VectorCall) (w : World) : Prop :=
  call.readLoop.Honest (call.arrayStart w) [call.array]

/-- What the host promises in all copies of `readv`. -/
structure Readv.HonestHost (call : Readv) (w : World) : Prop where
  array : call.HonestArray w
  buffer :
    ∀ {after},
      call.Prepared w after →
      call.writeLoop.Honest (call.bufferStart after)
        (vectorsOf after.flat call.iovecCount)

/-- What the host promises in all copies of `writev`. -/
structure Writev.HonestHost (call : Writev) (w : World) : Prop where
  array : call.HonestArray w
  buffer :
    ∀ {after},
      call.Prepared w after →
      call.readLoop.Honest (call.bufferStart after)
        (vectorsOf after.flat call.iovecCount)

variable
  {call : VectorCall}
  {w : World}
  {after final : FlatState}

theorem dwordAt_lt (bytes : Nat → UInt8) (index : Nat) :
    dwordAt bytes index < 2 ^ 32 := by
  have first := (bytes index).toNat_lt
  have second := (bytes (index + 1)).toNat_lt
  have third := (bytes (index + 2)).toNat_lt
  have fourth := (bytes (index + 3)).toNat_lt
  unfold dwordAt
  omega

theorem dwordAt_congr
    {bytes other : Nat → UInt8}
    {index : Nat}
    (same : ∀ place, place < 4 → bytes (index + place) = other (index + place)) :
    dwordAt bytes index = dwordAt other index := by
  unfold dwordAt
  rw [← same 1 (by decide), ← same 2 (by decide), ← same 3 (by decide)]
  exact congrArg (· + _ + _ + _) (congrArg UInt8.toNat (same 0 (by decide)))

theorem vectorsOf_narrow
    {bytes : Nat → UInt8}
    {count : Nat} :
    ∀ vector ∈ vectorsOf bytes count, vector.Narrow := by
  intro vector member
  obtain ⟨i, _, rfl⟩ := List.mem_map.mp member
  exact ⟨dwordAt_lt _ _, dwordAt_lt _ _⟩

theorem VectorCall.array_narrow (call : VectorCall) :
    ∀ vector ∈ [call.array], vector.Narrow := by
  intro vector member
  cases mem_singleton.mp member
  exact ⟨call.addrNarrow, Nat.mod_lt _ (by decide)⟩

theorem VectorCall.subscriptsInside_iff :
    call.SubscriptsInside ↔ call.iovecCount < 2 ^ 29 := by
  have narrow := call.countNarrow
  unfold VectorCall.SubscriptsInside VectorCall.iovecBytes
  constructor
  · intro inside
    by_contra wraps
    have last := inside (call.iovecCount - 1) (by omega)
    omega
  · intro short i below
    omega

theorem VectorCall.keeps
    (kept : WellKept w)
    (inMm : call.m < w.mmCount) :
    call.readLoop.Keeps w (call.arrayStart w).world ∧
      call.writeLoop.Keeps w (call.arrayStart w).world :=
  ⟨.refl kept inMm, .refl kept inMm⟩

/-- What reading the array leaves behind. -/
structure VectorCall.ArrayRead
    (call : VectorCall) (w : World) (after : FlatState) : Prop where
  reads : call.readLoop.Keeps w after.world
  writes : call.writeLoop.Keeps w after.world
  bytes : memoryByte after.world call.m = memoryByte w call.m
  vectors :
    call.SubscriptsInside →
      vectorsOf after.flat call.iovecCount = call.guestVectors w

section

variable
  (kept : WellKept w)
  (inMm : call.m < w.mmCount)
  (honest : call.HonestArray w)
include kept inMm honest

/-- It is what the copy of the array does. -/
theorem VectorCall.ArrayRead.of_runs
    (runs : call.readLoop.Runs (call.arrayStart w) [call.array] after) :
    call.ArrayRead w after := by
  have keeps := (VectorCall.keeps kept inMm).1
  have later := runs.keeps keeps call.array_narrow honest
  refine ⟨later, ⟨later.kept, later.inMm, later.stays⟩,
    runs.memoryByte_of_read rfl keeps call.array_narrow honest, ?_⟩
  intro inside
  refine map_congr_left fun i member => ?_
  have fits := inside i (mem_range.mp member)
  have same :
      ∀ index,
        index < call.iovecBytes →
        after.flat index =
          memoryByte w call.m (call.iovecAddr + index) :=
    fun index below =>
      runs.flat_of_read rfl rfl keeps
        (call.array_narrow _ (mem_singleton.mpr rfl)) honest below
  rw [iovecAt, iovecAt, IoVector.mk.injEq]
  exact ⟨dwordAt_congr fun place below => same _ (by omega),
    dwordAt_congr fun place below => same _ (by omega)⟩

theorem VectorCall.array_runs_iff :
    (∃ after, call.readLoop.Runs (call.arrayStart w) [call.array] after) ↔
      call.readLoop.Copyable w call.array :=
  (FlatLoop.runs_iff (VectorCall.keeps kept inMm).1 call.array_narrow
    honest).trans forall_mem_singleton

/-- The array is kept to exactly if it fits. -/
theorem VectorCall.arrayInside_iff :
    call.ArrayInside w ↔ call.ArrayFits w := by
  have copy :
      call.readLoop.Inside call.iovecBytes (call.arrayStart w)
          [call.array] ↔
        call.readLoop.StopsInTime w call.iovecBytes 0 [call.array] :=
    FlatLoop.inside_iff (VectorCall.keeps kept inMm).1 call.array_narrow
      honest
  have runs := VectorCall.array_runs_iff kept inMm honest
  constructor
  · intro inside
    refine ⟨fun granted => copy.mp (inside.copy granted), ?_⟩
    intro granted copyable
    obtain ⟨after, array⟩ := runs.mpr copyable
    exact VectorCall.subscriptsInside_iff.mp (inside.subscripts granted array)
  · intro fits
    refine ⟨fun granted => copy.mpr (fits.copy granted), ?_⟩
    intro after granted array
    exact VectorCall.subscriptsInside_iff.mpr
      (fits.count granted (runs.mp ⟨after, array⟩))

theorem VectorCall.Prepared.arrayRead
    (prepared : call.Prepared w after) :
    call.ArrayRead w after ∧
      vectorsOf after.flat call.iovecCount = call.guestVectors w := by
  have read : call.ArrayRead w after :=
    .of_runs kept inMm honest prepared.array
  exact ⟨read, read.vectors prepared.subscripts⟩

/-- When they succeed. -/
theorem VectorCall.prepares_iff :
    (∃ after, call.Prepared w after) ↔ call.Prepares w := by
  have runs := VectorCall.array_runs_iff kept inMm honest
  constructor
  · rintro ⟨after, prepared⟩
    exact ⟨prepared.iovecGranted, runs.mp ⟨after, prepared.array⟩,
      VectorCall.subscriptsInside_iff.mp prepared.subscripts,
      prepared.bufGranted⟩
  · intro prepares
    obtain ⟨after, array⟩ := runs.mpr prepares.copyable
    exact ⟨after, prepares.iovecGranted, array,
      VectorCall.subscriptsInside_iff.mpr prepares.count,
      prepares.bufGranted⟩

end

/-- `writev` stays inside its memory exactly if everything fits. -/
theorem Writev.bounded_iff
    {call : Writev}
    (kept : WellKept w)
    (inMm : call.m < w.mmCount)
    (honest : call.HonestHost w) :
    call.Bounded w ↔ call.Fits w := by
  have array := VectorCall.arrayInside_iff kept inMm honest.array
  have prepares := VectorCall.prepares_iff kept inMm honest.array
  have buffer :
      ∀ {after},
        call.Prepared w after →
        (call.readLoop.Inside
            (iovecSize (vectorsOf after.flat call.iovecCount))
            (call.bufferStart after)
            (vectorsOf after.flat call.iovecCount) ↔
          call.readLoop.StopsInTime w (iovecSize (call.guestVectors w)) 0
            (call.guestVectors w)) := by
    intro after prepared
    obtain ⟨read, vectors⟩ := prepared.arrayRead kept inMm honest.array
    rw [← vectors]
    exact @FlatLoop.inside_iff call.readLoop w (call.bufferStart after) _ _
      read.reads vectorsOf_narrow (honest.buffer prepared)
  constructor
  · intro bounded
    refine ⟨array.mp bounded.array, fun isPrepared => ?_⟩
    obtain ⟨after, prepared⟩ := prepares.mpr isPrepared
    exact (buffer prepared).mp (bounded.buffer prepared)
  · intro fits
    refine ⟨array.mpr fits.array, fun prepared => ?_⟩
    exact (buffer prepared).mpr (fits.buffer (prepares.mp ⟨_, prepared⟩))

theorem Readv.copiesOut
    {call : Readv}
    (kept : WellKept w)
    (inMm : call.m < w.mmCount)
    (honest : call.HonestHost w)
    (prepared : call.Prepared w after) :
    (∀ {size},
        call.writeLoop.Inside size (call.bufferStart after)
            (vectorsOf after.flat call.iovecCount) ↔
          call.writeLoop.StopsInTime w size 0 (call.guestVectors w)) ∧
      ((∃ final,
          call.writeLoop.Runs (call.bufferStart after)
            (vectorsOf after.flat call.iovecCount) final) ↔
        ∀ vector ∈ call.guestVectors w, call.writeLoop.Copyable w vector) ∧
        ∀ {final},
          call.writeLoop.Runs (call.bufferStart after)
              (vectorsOf after.flat call.iovecCount) final →
            memoryByte final.world call.m =
              storeAll (memoryByte w call.m)
                (destination (call.guestVectors w)) call.flat := by
  obtain ⟨read, vectors⟩ := prepared.arrayRead kept inMm honest.array
  have promised := honest.buffer prepared
  rw [← vectors]
  refine ⟨fun {size} => @FlatLoop.inside_iff call.writeLoop w
      (call.bufferStart after) _ size read.writes vectorsOf_narrow promised,
    @FlatLoop.runs_iff call.writeLoop w (call.bufferStart after) _
      read.writes vectorsOf_narrow promised, ?_⟩
  intro final runs
  have rest : (call.bufferStart after).rest = call.flat := by
    funext index
    exact congrArg call.flat (Nat.zero_add index)
  have written := runs.memoryByte_of_write rfl
    (show call.writeLoop.Keeps w (call.bufferStart after).world from
      read.writes)
    vectorsOf_narrow promised
  rw [rest] at written
  exact written.trans (congrArg (storeAll · _ _) read.bytes)

/--
`readv` keeps to the array, to the buffer and to the bytes it has read exactly
if everything fits and the bytes behind them are in place.
-/
theorem Readv.bounded_iff
    {call : Readv}
    (kept : WellKept w)
    (inMm : call.m < w.mmCount)
    (honest : call.HonestHost w) :
    call.Bounded w ↔ call.Fits w := by
  have array := VectorCall.arrayInside_iff kept inMm honest.array
  have prepares := VectorCall.prepares_iff kept inMm honest.array
  constructor
  · intro bounded
    refine ⟨array.mp bounded.array, ?_, ?_⟩
    · intro isPrepared succeeded
      obtain ⟨after, prepared⟩ := prepares.mpr isPrepared
      obtain ⟨inside, _, _⟩ :=
        Readv.copiesOut kept inMm honest prepared
      have vectors := (prepared.arrayRead kept inMm honest.array).2
      exact vectors ▸ inside.mp (bounded.buffer prepared succeeded)
    · intro isPrepared succeeded copyable
      obtain ⟨after, prepared⟩ := prepares.mpr isPrepared
      obtain ⟨_, runs, written⟩ :=
        Readv.copiesOut kept inMm honest prepared
      obtain ⟨final, runs⟩ := runs.mpr copyable
      have frame := bounded.frame (.moved prepared succeeded runs)
      exact storeAll_eq_take_iff.mp ((written runs).symm.trans frame)
  · intro fits
    refine ⟨array.mpr fits.array, ?_, ?_⟩
    · intro after prepared succeeded
      obtain ⟨inside, _, _⟩ :=
        Readv.copiesOut kept inMm honest prepared
      have vectors := (prepared.arrayRead kept inMm honest.array).2
      refine inside.mpr ?_
      rw [vectors]
      exact fits.buffer (prepares.mp ⟨after, prepared⟩) succeeded
    · intro count world moved
      cases moved with
      | unprepared ended => cases ended
      | moved prepared succeeded runs =>
        obtain ⟨_, copyable, written⟩ :=
          Readv.copiesOut kept inMm honest prepared
        refine (written runs).trans (storeAll_eq_take_iff.mpr ?_)
        exact fits.tail (prepares.mp ⟨_, prepared⟩) succeeded
          (copyable.mp ⟨_, runs⟩)

end GuestKernel
