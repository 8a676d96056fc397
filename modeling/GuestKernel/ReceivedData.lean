import GuestKernel.VectorCalls

namespace GuestKernel
open List
open FlatLoop

/-!
# `recvfrom`

The data is received into a buffer of the length the guest asked for, which
`malloc` may have refused, and all of that length is copied to the guest, not
only what was received.  The address of the sender follows.
-/

/-- `sa_family` of the address that the host has filled in. -/
inductive HostFamily where
  | unix
  | inet
  | inet6
  | other

/-- `sock_family_from_real`, but for the families that have none. -/
def sockFamilyFromReal : HostFamily → Option UInt8
  | .unix => some 1
  | .inet => some 2
  | .inet6 => some 10
  | .other => none

/-- What `recvfrom` of the host returns, and leaves in its three results. -/
structure Received where
  result : Int
  flat : Nat → UInt8
  family : HostFamily
  sockaddr : Nat → UInt8
  sockaddrLen : Nat

/-- The arguments, and what the kernel is given for them. -/
structure Recvfrom where
  host : Host
  replies : PageReplies
  m : MmId
  sock : Bool
  bufferAddr : Nat
  len : Nat
  sockaddrAddr : Nat
  sockaddrLenAddr : Nat
  malloc : Malloc
  received : Received
  bufferNarrow : bufferAddr < 2 ^ 32
  lenNarrow : len < 2 ^ 32
  sockaddrNarrow : sockaddrAddr < 2 ^ 32
  sockaddrLenNarrow : sockaddrLenAddr < 2 ^ 32

/-- The copies of the call. -/
def Recvfrom.loop (call : Recvfrom) (direction : Direction) : FlatLoop where
  host := call.host
  replies := call.replies
  direction := direction
  m := call.m

/-- The state in which one copy of a kernel buffer starts. -/
def copyStart (w : World) (bytes : Nat → UInt8) : FlatState where
  world := w
  flat := bytes
  offset := 0

/-- The range that the guest gave for the data. -/
def Recvfrom.data (call : Recvfrom) : IoVector where
  base := call.bufferAddr
  len := call.len

/-- The word that has the length of the address. -/
def Recvfrom.lengthWord (call : Recvfrom) : IoVector where
  base := call.sockaddrLenAddr
  len := 4

/-- The range for the address: what fits of it. -/
def Recvfrom.addressRange
    (call : Recvfrom) (bufferLen sockaddrLen : Nat) : IoVector where
  base := call.sockaddrAddr
  len := min bufferLen sockaddrLen

/-- How many bytes of the buffer were allocated; nobody checks. -/
def Recvfrom.allocated (call : Recvfrom) : Nat :=
  if call.malloc.granted then call.len else 0

/-- The local `sockaddr_len` behind the receiving. -/
def Recvfrom.sockaddrLen (call : Recvfrom) : Nat :=
  if call.sockaddrLenAddr = 0 then 0 else call.received.sockaddrLen

/--
The address that `sockaddr_write` hands out, and its length; the name of a unix
peer is not known.
-/
def Recvfrom.sockaddrOut
    (call : Recvfrom) : Option ((Nat → UInt8) × Nat) := do
  let family ← sockFamilyFromReal call.received.family
  match call.received.family with
  | .unix => pure (fun index => if index = 0 then family else 0, 16)
  | _ =>
    pure (fun index =>
        if index = 0 then family
        else if index = 1 then 0
        else call.received.sockaddr index,
      call.sockaddrLen)

/-- The bytes of a 32-bit word, its low byte first. -/
def dwordBytes (value index : Nat) : UInt8 :=
  UInt8.ofNat (value / 2 ^ (8 * index))

/-- `user_get` of the length, if the guest has one. -/
inductive Recvfrom.GotLength (call : Recvfrom) (w : World) :
    Nat → World → Prop where
  | absent
      (isNull : call.sockaddrLenAddr = 0) :
      GotLength call w 0 w
  | got
      {after : FlatState}
      (isGiven : call.sockaddrLenAddr ≠ 0)
      (runs :
        (call.loop .read).Runs (copyStart w fun _ => 0) [call.lengthWord]
          after) :
      GotLength call w (dwordAt after.flat 0) after.world

/-- `sockaddr_write`, if the guest wants the address. -/
inductive Recvfrom.WroteAddress
    (call : Recvfrom) (bufferLen : Nat) (w : World) :
    Nat → World → Prop where
  | absent
      (isNull : call.sockaddrAddr = 0) :
      WroteAddress call bufferLen w call.sockaddrLen w
  | wrote
      {bytes : Nat → UInt8}
      {length : Nat}
      {after : FlatState}
      (isGiven : call.sockaddrAddr ≠ 0)
      (isOut : call.sockaddrOut = some (bytes, length))
      (runs :
        (call.loop .write).Runs (copyStart w bytes)
          [call.addressRange bufferLen length] after) :
      WroteAddress call bufferLen w length after.world

/-- `user_put` of the length, if the guest has one. -/
inductive Recvfrom.PutLength (call : Recvfrom) (length : Nat) (w : World) :
    World → Prop where
  | absent
      (isNull : call.sockaddrLenAddr = 0) :
      PutLength call length w w
  | put
      {after : FlatState}
      (isGiven : call.sockaddrLenAddr ≠ 0)
      (runs :
        (call.loop .write).Runs (copyStart w (dwordBytes length))
          [call.lengthWord] after) :
      PutLength call length w after.world

/-- The data is received, and is about to be copied. -/
structure Recvfrom.HasData
    (call : Recvfrom) (w : World) (bufferLen : Nat) (before : World) :
    Prop where
  sock : call.sock = true
  length : call.GotLength w bufferLen before
  succeeded : 0 ≤ call.received.result

/-- The data is with the guest. -/
structure Recvfrom.Delivered
    (call : Recvfrom) (w : World) (bufferLen : Nat) (before : World)
    (after : FlatState) : Prop extends call.HasData w bufferLen before where
  runs :
    (call.loop .write).Runs (copyStart before call.received.flat)
      [call.data] after

/--
`recvfrom` stays inside its buffer; and if it returns a count, the copy of the
data has put the first bytes of the buffer in the first so many places, in
order, and left everything else as it was.
-/
structure Recvfrom.Bounded (call : Recvfrom) (w : World) : Prop where
  buffer :
    ∀ {bufferLen before},
      call.HasData w bufferLen before →
      (call.loop .write).Inside call.allocated
        (copyStart before call.received.flat) [call.data]
  frame :
    ∀ {bufferLen before after length world final},
      call.Delivered w bufferLen before after →
      call.WroteAddress bufferLen after.world length world →
      call.PutLength length world final →
      memoryByte after.world call.m =
        storeAll (memoryByte w call.m)
          ((destination [call.data]).take
            (call.received.result.toNat % 2 ^ 32))
          call.received.flat

/-- The length of the address as the guest wrote it. -/
def Recvfrom.guestLength (call : Recvfrom) (w : World) : Nat :=
  if call.sockaddrLenAddr = 0 then
    0
  else
    dwordAt (fun index => memoryByte w call.m (call.sockaddrLenAddr + index))
      0

/-- The call gets to the copy of the data. -/
structure Recvfrom.Receives (call : Recvfrom) (w : World) : Prop where
  sock : call.sock = true
  length :
    call.sockaddrLenAddr ≠ 0 →
      (call.loop .read).Copyable w call.lengthWord
  succeeded : 0 ≤ call.received.result

/-- The call gets from there to its end. -/
structure Recvfrom.Answers (call : Recvfrom) (w : World) : Prop where
  address :
    call.sockaddrAddr ≠ 0 →
      ∃ bytes length,
        call.sockaddrOut = some (bytes, length) ∧
          (call.loop .write).Copyable w
            (call.addressRange (call.guestLength w) length)
  put :
    call.sockaddrLenAddr ≠ 0 →
      (call.loop .write).Copyable w call.lengthWord

/--
The copy of the data stops in time, and the bytes behind those that were
received are in place.
-/
structure Recvfrom.Fits (call : Recvfrom) (w : World) : Prop where
  buffer :
    call.Receives w →
      (call.loop .write).StopsInTime w call.allocated 0 [call.data]
  tail :
    call.Receives w →
      (call.loop .write).Copyable w call.data →
      call.Answers w →
      TailInPlace (memoryByte w call.m) [call.data] call.received.flat
        (call.received.result.toNat % 2 ^ 32)

/-- What the host promises in all copies. -/
structure Recvfrom.HonestHost (call : Recvfrom) (w : World) : Prop where
  length :
    (call.loop .read).Honest (copyStart w fun _ => 0) [call.lengthWord]
  data :
    ∀ {bufferLen before},
      call.HasData w bufferLen before →
      (call.loop .write).Honest (copyStart before call.received.flat)
        [call.data]
  address :
    ∀ {bufferLen before after bytes length},
      call.Delivered w bufferLen before after →
      call.sockaddrOut = some (bytes, length) →
      (call.loop .write).Honest (copyStart after.world bytes)
        [call.addressRange bufferLen length]
  put :
    ∀ {bufferLen before after length world},
      call.Delivered w bufferLen before after →
      call.WroteAddress bufferLen after.world length world →
      (call.loop .write).Honest (copyStart world (dwordBytes length))
        [call.lengthWord]

variable
  {call : Recvfrom}
  {w before world : World}
  {direction : Direction}
  {bufferLen length : Nat}
  {after : FlatState}

theorem Recvfrom.turn
    {other : Direction}
    (keeps : (call.loop direction).Keeps w world) :
    (call.loop other).Keeps w world :=
  ⟨keeps.kept, keeps.inMm, keeps.stays⟩

theorem Recvfrom.copies_iff
    {vector : IoVector}
    {bytes : Nat → UInt8}
    (keeps : (call.loop direction).Keeps w world)
    (narrow : vector.Narrow)
    (honest :
      (call.loop direction).Honest (copyStart world bytes) [vector]) :
    (∃ after,
        (call.loop direction).Runs (copyStart world bytes) [vector] after) ↔
      (call.loop direction).Copyable w vector :=
  (@runs_iff (call.loop direction) w (copyStart world bytes) _
    keeps (forall_mem_singleton.mpr narrow) honest).trans
      forall_mem_singleton

theorem Recvfrom.data_narrow (call : Recvfrom) : call.data.Narrow :=
  ⟨call.bufferNarrow, call.lenNarrow⟩

theorem Recvfrom.lengthWord_narrow (call : Recvfrom) :
    call.lengthWord.Narrow :=
  ⟨call.sockaddrLenNarrow, show 4 < 2 ^ 32 by decide⟩

/-- What `user_get` of the length leaves behind. -/
structure Recvfrom.LengthRead
    (call : Recvfrom) (w : World) (bufferLen : Nat) (before : World) :
    Prop where
  keeps : ∀ direction, (call.loop direction).Keeps w before
  bytes : memoryByte before call.m = memoryByte w call.m
  isLength : bufferLen = call.guestLength w

section

variable
  (kept : WellKept w)
  (inMm : call.m < w.mmCount)
  (honest : call.HonestHost w)
include kept inMm honest

theorem Recvfrom.GotLength.lengthRead
    (got : call.GotLength w bufferLen before) :
    call.LengthRead w bufferLen before := by
  have keeps : ∀ direction, (call.loop direction).Keeps w w :=
    fun _ => .refl kept inMm
  cases got with
  | absent isNull => exact ⟨keeps, rfl, (if_pos isNull).symm⟩
  | got isGiven runs =>
    rename_i after
    have narrow := call.lengthWord_narrow
    have all := forall_mem_singleton.mpr narrow
    have first :
        (call.loop .read).Keeps w (copyStart w fun _ => 0).world :=
      keeps .read
    have later := runs.keeps first all honest.length
    refine ⟨fun _ => Recvfrom.turn later,
      runs.memoryByte_of_read rfl first all honest.length, ?_⟩
    rw [Recvfrom.guestLength, if_neg isGiven]
    refine dwordAt_congr fun place below => ?_
    rw [Nat.zero_add]
    exact runs.flat_of_read rfl rfl first narrow honest.length below

/-- Which calls get to the copy of the data. -/
theorem Recvfrom.hasData_iff :
    (∃ bufferLen before, call.HasData w bufferLen before) ↔
      call.Receives w := by
  have copies :=
    @Recvfrom.copies_iff call w w .read call.lengthWord (fun _ => 0)
      (.refl kept inMm) call.lengthWord_narrow honest.length
  constructor
  · rintro ⟨bufferLen, before, hasData⟩
    refine ⟨hasData.sock, fun isGiven => ?_, hasData.succeeded⟩
    cases hasData.length with
    | absent isNull => exact absurd isNull isGiven
    | got _ runs => exact copies.mp ⟨_, runs⟩
  · intro receives
    by_cases isNull : call.sockaddrLenAddr = 0
    · exact ⟨0, w, receives.sock, .absent isNull, receives.succeeded⟩
    · obtain ⟨after, runs⟩ := copies.mpr (receives.length isNull)
      exact ⟨_, _, receives.sock, .got isNull runs, receives.succeeded⟩

theorem Recvfrom.Delivered.written
    (delivered : call.Delivered w bufferLen before after) :
    (call.loop .write).Keeps w after.world ∧
      memoryByte after.world call.m =
        storeAll (memoryByte w call.m) (destination [call.data])
          call.received.flat := by
  have read := delivered.length.lengthRead kept inMm honest
  have all := forall_mem_singleton.mpr call.data_narrow
  have promised := honest.data delivered.toHasData
  have first :
      (call.loop .write).Keeps w
        (copyStart before call.received.flat).world :=
    read.keeps .write
  refine ⟨delivered.runs.keeps first all promised, ?_⟩
  have rest :
      (copyStart before call.received.flat).rest = call.received.flat := by
    funext index
    exact congrArg call.received.flat (Nat.zero_add index)
  have written := delivered.runs.memoryByte_of_write rfl first all promised
  rw [rest] at written
  exact written.trans (congrArg (storeAll · _ _) read.bytes)

/-- Which calls get from there to their end. -/
theorem Recvfrom.Delivered.answers_iff
    (delivered : call.Delivered w bufferLen before after) :
    (∃ length world final,
        call.WroteAddress bufferLen after.world length world ∧
          call.PutLength length world final) ↔
      call.Answers w := by
  have isLength :=
    (delivered.length.lengthRead kept inMm honest).isLength
  have keeps := (delivered.written kept inMm honest).1
  have narrow : ∀ length, (call.addressRange bufferLen length).Narrow := by
    intro length
    refine ⟨call.sockaddrNarrow, ?_⟩
    refine Nat.lt_of_le_of_lt (Nat.min_le_left _ _) ?_
    rw [isLength, Recvfrom.guestLength]
    split
    · decide
    · exact dwordAt_lt _ _
  have address :
      ∀ {bytes length},
        call.sockaddrOut = some (bytes, length) →
        ((∃ last,
            (call.loop .write).Runs (copyStart after.world bytes)
              [call.addressRange bufferLen length] last) ↔
          (call.loop .write).Copyable w
            (call.addressRange bufferLen length)) :=
    fun isOut =>
      Recvfrom.copies_iff keeps (narrow _) (honest.address delivered isOut)
  have put :
      ∀ {length world},
        call.WroteAddress bufferLen after.world length world →
        ((∃ last,
            (call.loop .write).Runs (copyStart world (dwordBytes length))
              [call.lengthWord] last) ↔
          (call.loop .write).Copyable w call.lengthWord) := by
    intro length world wrote
    have later : (call.loop .write).Keeps w world := by
      cases wrote with
      | absent isNull => exact keeps
      | wrote isGiven isOut runs =>
        exact runs.keeps
          (show (call.loop .write).Keeps w
              (copyStart after.world _).world from keeps)
          (forall_mem_singleton.mpr (narrow _))
          (honest.address delivered isOut)
    exact Recvfrom.copies_iff later call.lengthWord_narrow
      (honest.put delivered wrote)
  constructor
  · rintro ⟨length, world, final, wrote, last⟩
    constructor
    · intro isGiven
      cases wrote with
      | absent isNull => exact absurd isNull isGiven
      | wrote _ isOut runs =>
        exact ⟨_, _, isOut, isLength ▸ (address isOut).mp ⟨_, runs⟩⟩
    · intro isGiven
      cases last with
      | absent isNull => exact absurd isNull isGiven
      | put _ runs => exact (put wrote).mp ⟨_, runs⟩
  · intro answers
    obtain ⟨length, world, wrote⟩ :
        ∃ length world,
          call.WroteAddress bufferLen after.world length world := by
      by_cases isNull : call.sockaddrAddr = 0
      · exact ⟨_, _, .absent isNull⟩
      · obtain ⟨bytes, length, isOut, copyable⟩ := answers.address isNull
        obtain ⟨last, runs⟩ := (address isOut).mpr (isLength ▸ copyable)
        exact ⟨length, last.world, .wrote isNull isOut runs⟩
    by_cases isNull : call.sockaddrLenAddr = 0
    · exact ⟨length, world, world, wrote, .absent isNull⟩
    · obtain ⟨last, runs⟩ := (put wrote).mpr (answers.put isNull)
      exact ⟨length, world, last.world, wrote, .put isNull runs⟩

/--
`recvfrom` keeps to its buffer and to the bytes it has received exactly if the
copy stops in time and the bytes behind them are in place.
-/
theorem Recvfrom.bounded_iff :
    call.Bounded w ↔ call.Fits w := by
  have hasData := Recvfrom.hasData_iff kept inMm honest
  have all := forall_mem_singleton.mpr call.data_narrow
  have inside :
      ∀ {bufferLen before},
        call.HasData w bufferLen before →
        ((call.loop .write).Inside call.allocated
            (copyStart before call.received.flat) [call.data] ↔
          (call.loop .write).StopsInTime w call.allocated 0
            [call.data]) := by
    intro bufferLen before isData
    have read := isData.length.lengthRead kept inMm honest
    exact @inside_iff (call.loop .write) w
      (copyStart before call.received.flat) _ _ (read.keeps .write) all
      (honest.data isData)
  have runs :
      ∀ {bufferLen before},
        call.HasData w bufferLen before →
        ((∃ after,
            (call.loop .write).Runs (copyStart before call.received.flat)
              [call.data] after) ↔
          (call.loop .write).Copyable w call.data) :=
    fun isData =>
      Recvfrom.copies_iff
        ((isData.length.lengthRead kept inMm honest).keeps .write)
        call.data_narrow (honest.data isData)
  constructor
  · intro bounded
    constructor
    · intro receives
      obtain ⟨bufferLen, before, isData⟩ := hasData.mpr receives
      exact (inside isData).mp (bounded.buffer isData)
    · intro receives copyable answers
      obtain ⟨bufferLen, before, isData⟩ := hasData.mpr receives
      obtain ⟨after, data⟩ := (runs isData).mpr copyable
      have delivered : call.Delivered w bufferLen before after :=
        ⟨isData, data⟩
      obtain ⟨length, world, final, wrote, put⟩ :=
        (delivered.answers_iff kept inMm honest).mpr answers
      have frame := bounded.frame delivered wrote put
      have written := (delivered.written kept inMm honest).2
      exact storeAll_eq_take_iff.mp (written.symm.trans frame)
  · intro fits
    constructor
    · intro bufferLen before isData
      exact (inside isData).mpr
        (fits.buffer (hasData.mp ⟨bufferLen, before, isData⟩))
    · intro bufferLen before after length world final delivered wrote put
      refine (delivered.written kept inMm honest).2.trans
        (storeAll_eq_take_iff.mpr ?_)
      exact fits.tail (hasData.mp ⟨bufferLen, before, delivered.toHasData⟩)
        ((runs delivered.toHasData).mp ⟨after, delivered.runs⟩)
        ((delivered.answers_iff kept inMm honest).mp
          ⟨length, world, final, wrote, put⟩)

end

/--
Each of the three calls keeps to its memory, and to the bytes it has moved,
exactly if the array and the ranges fit and the rest of what is copied out is
in place.
-/
theorem transfers_are_bounded_iff
    (kept : WellKept w) :
    (∀ call : Readv,
        call.m < w.mmCount →
        call.HonestHost w → (call.Bounded w ↔ call.Fits w)) ∧
      (∀ call : Writev,
        call.m < w.mmCount →
        call.HonestHost w → (call.Bounded w ↔ call.Fits w)) ∧
        ∀ call : Recvfrom,
          call.m < w.mmCount →
          call.HonestHost w → (call.Bounded w ↔ call.Fits w) :=
  ⟨fun _ inMm honest => Readv.bounded_iff kept inMm honest,
    fun _ inMm honest => Writev.bounded_iff kept inMm honest,
    fun _ inMm honest => Recvfrom.bounded_iff kept inMm honest⟩

theorem FlatLoop.honest_of_refuse
    {loop : FlatLoop}
    (refuses : loop.replies = refuseReplies)
    (state : FlatState)
    (vectors : List IoVector) :
    loop.Honest state vectors := by
  induction vectors generalizing state with
  | nil => trivial
  | cons vector rest inductionHypothesis =>
    refine ⟨fun inner _ _ _ => ?_, fun last _ => inductionHypothesis _⟩
    rw [refuses]
    exact refuseReplies_honest _ _ _

theorem Readv.honestHost_of_refuse
    {call : Readv}
    (refuses : call.replies = refuseReplies) :
    call.HonestHost w where
  array := honest_of_refuse refuses _ _
  buffer _ := honest_of_refuse refuses _ _

theorem Recvfrom.honestHost_of_refuse
    (refuses : call.replies = refuseReplies) :
    call.HonestHost w where
  length := honest_of_refuse refuses _ _
  data _ := honest_of_refuse refuses _ _
  address _ _ := honest_of_refuse refuses _ _
  put _ _ := honest_of_refuse refuses _ _

/-- `readv` of so many vectors at the only page. -/
def pageReadv (count : Nat) (narrow : count < 2 ^ 32) : Readv where
  host := plainHost
  replies := refuseReplies
  m := 0
  iovecAddr := 0x50000000
  iovecCount := count
  iovecMalloc := ⟨true, fun _ => 0⟩
  bufMalloc := ⟨true, fun _ => 0⟩
  addrNarrow := by decide
  countNarrow := narrow
  result := 0
  flat := fun _ => 0

/-- `recv` of two bytes to the only page, with something else behind them. -/
def pageRecvfrom (w : World) (result : Int) : Recvfrom where
  host := plainHost
  replies := refuseReplies
  m := 0
  sock := true
  bufferAddr := 0x50000000
  len := 2
  sockaddrAddr := 0
  sockaddrLenAddr := 0
  malloc := ⟨true, fun _ => 0⟩
  received :=
    { result := result
      flat := fun index =>
        if memoryByte w 0 (0x50000000 + index) = 0 then 1 else 0
      family := .other
      sockaddr := fun _ => 0
      sockaddrLen := 0 }
  bufferNarrow := by decide
  lenNarrow := by decide
  sockaddrNarrow := by decide
  sockaddrLenNarrow := by decide

/--
An array of 2^29 vectors has no byte, and `readv` reads its members all the
same; and a `recv` of two bytes that gets one writes both.
-/
theorem transfers_leave_their_memory :
    ∃ w,
      WellKept w ∧
        (∃ call : Readv,
          call.m < w.mmCount ∧ call.HonestHost w ∧ ¬call.Bounded w) ∧
          ∃ call : Recvfrom,
            call.m < w.mmCount ∧ call.HonestHost w ∧ ¬call.Bounded w := by
  obtain ⟨w, record, one, kept, _⟩ := exists_onePage_wellKept
  have inMm := one.inMm
  have honest : (pageRecvfrom w 1).HonestHost w :=
    Recvfrom.honestHost_of_refuse rfl
  refine ⟨w, kept,
    ⟨pageReadv (2 ^ 29) (by decide), inMm,
      Readv.honestHost_of_refuse rfl, ?_⟩,
    pageRecvfrom w 1, inMm, honest, ?_⟩
  · intro bounded
    obtain ⟨after, runs⟩ :=
      (@VectorCall.array_runs_iff (pageReadv (2 ^ 29) (by decide)).toVectorCall
        w kept inMm (honest_of_refuse rfl _ _)).mpr
        (.inl (show 8 * 2 ^ 29 % 2 ^ 32 = 0 by decide))
    have short :=
      VectorCall.subscriptsInside_iff.mp (bounded.array.subscripts rfl runs)
    exact absurd short (by decide)
  · rw [Recvfrom.bounded_iff kept inMm honest]
    intro fits
    have receives : (pageRecvfrom w 1).Receives w :=
      ⟨rfl, fun isGiven => absurd rfl isGiven, show (0 : Int) ≤ 1 by decide⟩
    have answers : (pageRecvfrom w 1).Answers w :=
      ⟨fun isGiven => absurd rfl isGiven, fun isGiven => absurd rfl isGiven⟩
    have copyable :
        ((pageRecvfrom w 1).loop .write).Copyable w
          (pageRecvfrom w 1).data := by
      refine .inr ⟨show 0x50000000 + 2 ≤ 0xfffff000 by decide,
        fun index below => ?_⟩
      have isPage : page (0x50000000 + index) = 0x50000 := by
        change index < 2 at below
        simp only [page, pageSize]
        omega
      show Accessible plainHost w 0 .write refuseReplies
        (page (0x50000000 + index))
      rw [isPage, Accessible, one.found]
      exact .inr ⟨rfl, fun isCow => by cases isCow⟩
    -- the second byte was not received
    have inPlace :=
      fits.tail receives copyable answers 1 0x50000001 (Nat.le_refl 1)
        ⟨rfl, fun later after found => by
          have inside := (List.getElem?_eq_some_iff.mp found).1
          have length : (destination [(pageRecvfrom w 1).data]).length = 2 :=
            rfl
          omega⟩
    have unchanged :
        storeAll (memoryByte w 0)
            ((destination [(pageRecvfrom w 1).data]).take 1)
            (pageRecvfrom w 1).received.flat 0x50000001 =
          memoryByte w 0 0x50000001 :=
      storeAll_of_not_mem (show 0x50000001 ∉ [0x50000000] by decide)
    have same :
        (if memoryByte w 0 0x50000001 = 0 then (1 : UInt8) else 0) =
          memoryByte w 0 0x50000001 :=
      inPlace.trans unchanged
    split at same
    · rename_i isZero
      rw [isZero] at same
      cases same
    · rename_i notZero
      exact notZero same.symm

/-- `readv` of one vector that gets two bytes. -/
def twoBytesReadv : Readv :=
  { pageReadv 1 (by decide) with result := 2 }

/-- A vector of the two bytes behind it. -/
def vectorBytes (index : Nat) : UInt8 :=
  [8, 0, 0, 0x50, 2].getD index 0

/-- A `readv` and a `recv` that get both bytes. -/
theorem full_transfers_are_bounded :
    ∃ w,
      WellKept w ∧
        twoBytesReadv.guestVectors w = [⟨0x50000008, 2⟩] ∧
        twoBytesReadv.Bounded w ∧ (pageRecvfrom w 2).Bounded w := by
  obtain ⟨w, record, one, kept, _⟩ := exists_onePage_wellKept
  have inMm := one.inMm
  have pointer : memPtrNofault w 0 0x50000000 .read = some 8192 := by
    rw [memPtrNofault, show page 0x50000000 = 0x50000 from rfl, one.found]
    simp [one.live, one.memory, pgOffset, pageSize]
  let filled := w.fillBytes 8192 8 vectorBytes
  have bytes :
      ∀ index, index < 8 →
        memoryByte filled 0 (0x50000000 + index) = vectorBytes index := by
    intro index below
    rw [memoryByte, kept.readByte_fillBytes pointer (by decide),
      if_pos ⟨Nat.le_add_right _ _, by omega⟩, Nat.add_sub_cancel_left]
    rfl
  have isVector : twoBytesReadv.guestVectors filled = [⟨0x50000008, 2⟩] := by
    have word :
        ∀ place, place ≤ 4 →
          dwordAt (fun index => memoryByte filled 0 (0x50000000 + index))
              place = dwordAt vectorBytes place :=
      fun place inside => dwordAt_congr fun index below =>
        bytes (place + index) (by omega)
    exact congrArg₂ (fun base len => [IoVector.mk base len])
      ((word 0 (by decide)).trans (by decide))
      ((word 4 (by decide)).trans (by decide))
  have full :
      ∀ {memory base flat}, TailInPlace memory [⟨base, 2⟩] flat 2 :=
    fun _ _ after isLast => absurd after
      (Nat.not_le.mpr (List.getElem?_eq_some_iff.mp isLast.1).1)
  obtain ⟨readv, _, recvfrom⟩ :=
    transfers_are_bounded_iff (kept.fillBytes 8192 8 vectorBytes)
  refine ⟨filled, kept.fillBytes .., isVector,
    (readv _ inMm (Readv.honestHost_of_refuse rfl)).mpr ⟨⟨?_, ?_⟩, ?_, ?_⟩,
    (recvfrom _ inMm (Recvfrom.honestHost_of_refuse rfl)).mpr ⟨?_, ?_⟩⟩
  · exact fun _ =>
      ⟨.inr (.inl ⟨show 0x50000000 + 8 ≤ 0xfffff000 by decide,
        show 8 ≤ 8 by decide⟩), fun _ => trivial⟩
  · exact fun _ _ => (by decide : 1 < 2 ^ 29)
  · rw [isVector]
    exact fun _ _ =>
      ⟨.inr (.inl ⟨show 0x50000008 + 2 ≤ 0xfffff000 by decide,
        show 2 ≤ 2 by decide⟩), fun _ => trivial⟩
  · exact fun _ _ _ => isVector ▸ full
  · exact fun _ =>
      ⟨.inr (.inl ⟨show 0x50000000 + 2 ≤ 0xfffff000 by decide,
        show 2 ≤ 2 by decide⟩), fun _ => trivial⟩
  · exact fun _ _ _ => full

end GuestKernel
