import GuestKernel.UserCopyWrap

namespace GuestKernel

/-!
# Strings from guest memory

`user_read_string` reads one byte at a time until it finds a NUL or has filled
the buffer, and returns 0 in both cases.
-/

/-- The arguments of `user_read_string`, in the current address space. -/
structure UserReadString where
  m : MmId
  addr : Nat
  max : Nat

/-- The index `i` of the loop, with the buffer from its first byte on. -/
structure StringState where
  world : World
  index : Nat
  buffer : Nat → UInt8

/-- `__user_read_task(current, addr + i, &buf[i], sizeof(buf[i]))`. -/
def UserReadString.readByte
    (call : UserReadString) (state : StringState) : UserCopy :=
  userReadTask call.m ((call.addr + state.index) % 2 ^ 32) 1

/-- The state in which that call starts. -/
def UserReadString.startByte
    (call : UserReadString) (state : StringState) : CopyState :=
  (call.readByte state).start state.world fun offset =>
    state.buffer (state.index + offset)

/-- The state after that call. -/
def StringState.afterByte
    (state : StringState) (last : CopyState) : StringState where
  world := last.world
  index := state.index
  buffer index :=
    if index < state.index then state.buffer index
    else last.buffer (index - state.index)

/-- A round of the loop that goes on. -/
inductive UserReadString.Step
    (host : Host) (replies : PageReplies) (call : UserReadString) :
    StringState → StringState → Prop where
  | more {state : StringState} {last : CopyState} :
      state.index < call.max →
      (call.readByte state).Returns host replies (call.startByte state) 0
        last →
      (state.afterByte last).buffer state.index ≠ 0 →
      Step host replies call state
        { state.afterByte last with index := state.index + 1 }

/-- A round of the loop that returns. -/
inductive UserReadString.Exit
    (host : Host) (replies : PageReplies) (call : UserReadString) :
    StringState → Nat → StringState → Prop where
  | full {state : StringState} :
      ¬state.index < call.max →
      Exit host replies call state 0 state
  | nul {state : StringState} {last : CopyState} :
      state.index < call.max →
      (call.readByte state).Returns host replies (call.startByte state) 0
        last →
      (state.afterByte last).buffer state.index = 0 →
      Exit host replies call state 0 (state.afterByte last)
  | fault {state : StringState} {last : CopyState} {result : Nat} :
      state.index < call.max →
      (call.readByte state).Returns host replies (call.startByte state)
        result last →
      result ≠ 0 →
      Exit host replies call state 1 (state.afterByte last)

/-- The states of the loop. -/
def UserReadString.Reaches
    (host : Host) (replies : PageReplies) (call : UserReadString) :
    StringState → StringState → Prop :=
  Relation.ReflTransGen (call.Step host replies)

/-- The state the loop starts in. -/
def StringState.start
    (w : World) (buffer : Nat → UInt8) : StringState where
  world := w
  index := 0
  buffer := buffer

/-- The call ends with a result; address 0 is refused. -/
def UserReadString.Returns
    (host : Host) (replies : PageReplies) (call : UserReadString)
    (w : World) (buffer : Nat → UInt8) (result : Nat) (last : StringState) :
    Prop :=
  if call.addr = 0 then
    result = 1 ∧ last = .start w buffer
  else
    ∃ before,
      call.Reaches host replies (.start w buffer) before ∧
        call.Exit host replies before result last

/--
The buffer holds the guest string up to and with its NUL, in its first `max`
bytes, and nothing was written after these.
-/
structure UserReadString.Terminated
    (host : Host) (replies : PageReplies) (call : UserReadString)
    (w : World) (buffer : Nat → UInt8) (last : StringState) : Prop where
  string :
    ∃ length,
      length < call.max ∧ last.buffer length = 0 ∧
        (∀ index, index < length → last.buffer index ≠ 0) ∧
        ∀ index,
          index ≤ length →
          call.addr + index < 2 ^ 32 ∧
            Accessible host w call.m .read replies
                (page (call.addr + index)) ∧
              last.buffer index = memoryByte w call.m (call.addr + index)
  rest : ∀ index, call.max ≤ index → last.buffer index = buffer index

/-- Whenever the call returns 0, the buffer holds the string. -/
def UserReadString.Correct
    (host : Host) (replies : PageReplies) (call : UserReadString)
    (w : World) (buffer : Nat → UInt8) : Prop :=
  ∀ last,
    call.Returns host replies w buffer 0 last →
    call.Terminated host replies w buffer last

/--
The address is 0, or one of the first `max` bytes is a NUL, cannot be read, or
lies in the last page.
-/
def UserReadString.StopsInBuffer
    (host : Host) (replies : PageReplies) (call : UserReadString)
    (w : World) : Prop :=
  call.addr = 0 ∨
    ∃ index,
      index < call.max ∧
        (0xfffff000 ≤ call.addr + index ∨
          ¬Accessible host w call.m .read replies
              (page (call.addr + index)) ∨
            memoryByte w call.m (call.addr + index) = 0)

variable
  {host : Host}
  {replies : PageReplies}
  {w : World}
  {m : MmId}
  {addr : Nat}
  {buffer : Nat → UInt8}

theorem CopyBase.reaches
    {call : UserCopy}
    {state next : CopyState}
    (base : CopyBase host replies call w state)
    (honest :
      ∀ next,
        call.Reaches host replies state next →
        call.HonestAt host replies next)
    (reaches : call.Reaches host replies state next) :
    CopyBase host replies call w next := by
  induction reaches with
  | refl => exact base
  | tail earlier step inductionHypothesis =>
    exact inductionHypothesis.step (honest _ earlier) step

/-- What one byte was read from, if the call for it returned 0. -/
structure ByteRead
    (host : Host) (replies : PageReplies) (w : World) (m : MmId)
    (addr : Nat) (buffer : Nat → UInt8) (last : CopyState) : Prop where
  base : CopyBase host replies (userReadTask m addr 1) w last
  bytes : ∀ other, memoryByte last.world m other = memoryByte w m other
  low : addr < 0xfffff000
  accessible : Accessible host w m .read replies (page addr)
  byte : last.buffer 0 = memoryByte w m addr
  rest : ∀ index, 0 < index → last.buffer index = buffer index

theorem bound_one
    (small : addr < 2 ^ 32) :
    addr + 1 = (userReadTask m addr 1).bound := by
  unfold UserCopy.bound
  exact (Nat.mod_eq_of_lt (by
    show addr + 1 < 2 ^ 64
    omega)).symm

/-- The call for a byte below the last page returns, and with 0 if it can. -/
theorem readByte_low
    (kept : WellKept w)
    (inMm : m < w.mmCount)
    (low : addr < 0xfffff000)
    (honest :
      ∀ state,
        (userReadTask m addr 1).Reaches host replies
            ((userReadTask m addr 1).start w buffer) state →
          (userReadTask m addr 1).HonestAt host replies state) :
    ∃ result last,
      (userReadTask m addr 1).Returns host replies
          ((userReadTask m addr 1).start w buffer) result last ∧
        (result = 0 ↔ Accessible host w m .read replies (page addr)) ∧
          (result = 0 → (userReadTask m addr 1).Copied w buffer 1 last) := by
  have bound := @bound_one m addr (by omega)
  have base :
      CopyBase host replies (userReadTask m addr 1) w
        ((userReadTask m addr 1).start w buffer) :=
    ⟨kept, inMm, show addr < 2 ^ 32 by omega, fun _ _ => Iff.rfl⟩
  have forward :
      CopyForward host replies (userReadTask m addr 1) w buffer
        ((userReadTask m addr 1).start w buffer) :=
    ⟨base, Nat.le_refl _, (Nat.sub_self addr).symm ▸ .start _ w buffer,
      fun _ member => by cases member⟩
  obtain ⟨result, last, returns, isZero, copied, _⟩ :=
    UserCopy.returns_low bound (bound ▸ by omega) honest _ .refl forward
      (bound ▸ Nat.le_succ addr)
  refine ⟨result, last, returns, isZero.trans ?_, copied⟩
  rw [← bound]
  constructor
  · exact fun all => all addr (Nat.le_refl _) (Nat.lt_succ_self _)
  · intro accessible other after before
    have same : other = addr :=
      Nat.le_antisymm (Nat.le_of_lt_succ before) after
    exact same ▸ accessible

theorem byteRead_of_returns
    {last : CopyState}
    (kept : WellKept w)
    (inMm : m < w.mmCount)
    (small : addr < 2 ^ 32)
    (honest :
      ∀ state,
        (userReadTask m addr 1).Reaches host replies
            ((userReadTask m addr 1).start w buffer) state →
          (userReadTask m addr 1).HonestAt host replies state)
    (returns :
      (userReadTask m addr 1).Returns host replies
        ((userReadTask m addr 1).start w buffer) 0 last) :
    ByteRead host replies w m addr buffer last := by
  have base :
      CopyBase host replies (userReadTask m addr 1) w
        ((userReadTask m addr 1).start w buffer) :=
    ⟨kept, inMm, small, fun _ _ => Iff.rfl⟩
  have bound := @bound_one m addr small
  have low : addr < 0xfffff000 := by
    by_contra inLastPage
    have high :
        CopyHigh host replies (userReadTask m addr 1) w buffer :=
      ⟨bound, bound ▸ Nat.lt_succ_self addr, by omega, base, honest⟩
    cases high.returns_one returns
  obtain ⟨result, other, otherReturns, isZero, copied⟩ :=
    readByte_low kept inMm low honest
  obtain ⟨rfl, rfl⟩ := returns.unique_last otherReturns
  have copied := copied rfl
  refine ⟨base.reaches honest returns.reaches_of_zero, ?_, low, isZero.mp rfl,
    copied.kernel 0 Nat.one_pos, copied.kernelRest⟩
  intro address
  by_cases isRead : address = addr
  · have guest := copied.guest 0 Nat.one_pos
    rw [isRead, memoryByte,
      show readByte other.world m addr = some (memoryByte w m addr) from
        guest]
    rfl
  · refine copied.guestRest address ?_
    show address < addr ∨ addr + 1 ≤ address
    omega

variable
  {call : UserReadString}
  {state : StringState}

/-- The host keeps its promise in every state of the loop. -/
def UserReadString.HonestHost
    (host : Host) (replies : PageReplies) (call : UserReadString)
    (w : World) (buffer : Nat → UInt8) : Prop :=
  ∀ state,
    call.Reaches host replies (.start w buffer) state →
    ∀ inner,
      (call.readByte state).Reaches host replies (call.startByte state)
          inner →
        (call.readByte state).HonestAt host replies inner

/-- The bytes before the index are read, and none of them is a NUL. -/
structure StringLoop
    (host : Host) (replies : PageReplies) (call : UserReadString)
    (w : World) (buffer : Nat → UInt8) (state : StringState) : Prop where
  kept : WellKept state.world
  inMm : call.m < state.world.mmCount
  stays :
    ∀ other,
      Accessible host state.world call.m .read replies other ↔
        Accessible host w call.m .read replies other
  bytes :
    ∀ addr, memoryByte state.world call.m addr = memoryByte w call.m addr
  inside : state.index ≤ call.max
  low :
    ∀ index,
      index < state.index →
      call.addr + index < 0xfffff000 ∧
        Accessible host w call.m .read replies (page (call.addr + index)) ∧
        state.buffer index = memoryByte w call.m (call.addr + index)
  noNul : ∀ index, index < state.index → state.buffer index ≠ 0
  rest : ∀ index, state.index ≤ index → state.buffer index = buffer index

theorem StringLoop.start
    (kept : WellKept w)
    (inMm : call.m < w.mmCount) :
    StringLoop host replies call w buffer (.start w buffer) where
  kept := kept
  inMm := inMm
  stays _ := Iff.rfl
  bytes _ := rfl
  inside := Nat.zero_le _
  low _ before := absurd before (Nat.not_lt_zero _)
  noNul _ before := absurd before (Nat.not_lt_zero _)
  rest _ _ := rfl

theorem StringLoop.address
    (holds : StringLoop host replies call w buffer state)
    (small : call.addr < 2 ^ 32) :
    (call.addr + state.index) % 2 ^ 32 = call.addr + state.index := by
  refine Nat.mod_eq_of_lt ?_
  cases isIndex : state.index with
  | zero => exact small
  | succ before =>
    have low := (holds.low before (isIndex ▸ Nat.lt_succ_self _)).1
    omega

/-- What is known once the next byte is read. -/
structure NextByte
    (host : Host) (replies : PageReplies) (call : UserReadString)
    (w : World) (buffer : Nat → UInt8) (state after : StringState) :
    Prop where
  kept : WellKept after.world
  inMm : call.m < after.world.mmCount
  stays :
    ∀ other,
      Accessible host after.world call.m .read replies other ↔
        Accessible host w call.m .read replies other
  bytes :
    ∀ addr, memoryByte after.world call.m addr = memoryByte w call.m addr
  low :
    ∀ index,
      index ≤ state.index →
      call.addr + index < 0xfffff000 ∧
        Accessible host w call.m .read replies (page (call.addr + index)) ∧
        after.buffer index = memoryByte w call.m (call.addr + index)
  noNul : ∀ index, index < state.index → after.buffer index ≠ 0
  rest : ∀ index, state.index < index → after.buffer index = buffer index

/-- A byte whose call returns 0 is the next one of the string. -/
theorem StringLoop.nextByte
    {last : CopyState}
    (holds : StringLoop host replies call w buffer state)
    (small : call.addr < 2 ^ 32)
    (honest :
      ∀ inner,
        (call.readByte state).Reaches host replies (call.startByte state)
            inner →
          (call.readByte state).HonestAt host replies inner)
    (returns :
      (call.readByte state).Returns host replies (call.startByte state) 0
        last) :
    NextByte host replies call w buffer state (state.afterByte last) := by
  have address := holds.address small
  unfold UserReadString.startByte UserReadString.readByte at honest returns
  rw [address] at honest returns
  have isSmall : call.addr + state.index < 2 ^ 32 := by omega
  have read :=
    byteRead_of_returns holds.kept holds.inMm isSmall honest returns
  have atIndex :
      (state.afterByte last).buffer state.index =
        memoryByte w call.m (call.addr + state.index) := by
    refine (if_neg (Nat.lt_irrefl _)).trans ?_
    rw [Nat.sub_self, read.byte, holds.bytes]
  constructor
  case kept => exact read.base.kept
  case inMm => exact read.base.inMm
  case stays =>
    exact fun other =>
      (read.base.stays .read other).trans (holds.stays other)
  case bytes => exact fun addr => (read.bytes addr).trans (holds.bytes addr)
  case low =>
    intro index before
    rcases Nat.lt_or_eq_of_le before with earlier | rfl
    · obtain ⟨low, accessible, byte⟩ := holds.low index earlier
      exact ⟨low, accessible, (if_pos earlier).trans byte⟩
    · exact ⟨read.low, (holds.stays _).mp read.accessible, atIndex⟩
  case noNul =>
    intro index before
    rw [show (state.afterByte last).buffer index = state.buffer index from
      if_pos before]
    exact holds.noNul index before
  case rest =>
    intro index after
    have isIndex : state.index + (index - state.index) = index := by omega
    refine (if_neg (Nat.lt_asymm after)).trans ?_
    rw [read.rest _ (Nat.sub_pos_of_lt after), isIndex]
    exact holds.rest index (Nat.le_of_lt after)

section

variable
  (kept : WellKept w)
  (inMm : call.m < w.mmCount)
  (small : call.addr < 2 ^ 32)
  (honest : call.HonestHost host replies w buffer)
include kept inMm small honest

/-- The loop keeps what it has read. -/
theorem StringLoop.reached
    (reached : call.Reaches host replies (.start w buffer) state) :
    StringLoop host replies call w buffer state := by
  induction reached with
  | refl => exact .start kept inMm
  | tail earlier step inductionHypothesis =>
    rename_i before after
    cases step with
    | more below returns notNul =>
      rename_i last
      have next :=
        inductionHypothesis.nextByte small (honest before earlier) returns
      constructor
      case kept => exact next.kept
      case inMm => exact next.inMm
      case stays => exact next.stays
      case bytes => exact next.bytes
      case inside => exact below
      case low =>
        exact fun index before => next.low index (Nat.le_of_lt_succ before)
      case noNul =>
        intro index isBefore
        rcases Nat.lt_or_eq_of_le (Nat.le_of_lt_succ isBefore) with
          earlier | rfl
        · exact next.noNul index earlier
        · exact notNul
      case rest => exact fun index after => next.rest index after

/-- A string of readable bytes other than NUL is read to any length. -/
theorem UserReadString.reaches_of_long
    (long :
      ∀ index,
        index < call.max →
        call.addr + index < 0xfffff000 ∧
          Accessible host w call.m .read replies
              (page (call.addr + index)) ∧
            memoryByte w call.m (call.addr + index) ≠ 0)
    {count : Nat}
    (inside : count ≤ call.max) :
    ∃ state,
      call.Reaches host replies (.start w buffer) state ∧
        state.index = count := by
  induction count with
  | zero => exact ⟨.start w buffer, .refl, rfl⟩
  | succ count inductionHypothesis =>
    obtain ⟨state, reached, rfl⟩ :=
      inductionHypothesis (Nat.le_of_succ_le inside)
    have holds := StringLoop.reached kept inMm small honest reached
    obtain ⟨low, accessible, notNul⟩ := long state.index inside
    have address := holds.address small
    have promised := honest state reached
    unfold UserReadString.startByte UserReadString.readByte at promised
    rw [address] at promised
    obtain ⟨result, last, returns, isZero, _⟩ :=
      readByte_low holds.kept holds.inMm low promised
    obtain rfl := isZero.mpr ((holds.stays _).mpr accessible)
    have read :
        (call.readByte state).Returns host replies (call.startByte state) 0
          last := by
      unfold UserReadString.startByte UserReadString.readByte
      rw [address]
      exact returns
    have next := holds.nextByte small (honest state reached) read
    have byte := (next.low state.index (Nat.le_refl _)).2.2
    exact ⟨_, reached.tail (.more inside read (byte.symm ▸ notNul)), rfl⟩

end

/--
`user_read_string` returns 0 only with a string in the buffer exactly if the
address is 0, or one of the first `max` bytes is a NUL, cannot be read, or lies
in the last page.
-/
theorem userReadString_correct_iff
    (kept : WellKept w)
    (inMm : call.m < w.mmCount)
    (small : call.addr < 2 ^ 32)
    (honest : call.HonestHost host replies w buffer) :
    call.Correct host replies w buffer ↔
      call.StopsInBuffer host replies w := by
  unfold UserReadString.Correct UserReadString.Returns
    UserReadString.StopsInBuffer
  by_cases isNull : call.addr = 0
  · refine iff_of_true ?_ (.inl isNull)
    simp only [if_pos isNull]
    rintro last ⟨failed, _⟩
    cases failed
  simp only [if_neg isNull]
  rw [or_iff_right isNull]
  constructor
  · intro correct
    by_contra runsOn
    have long :
        ∀ index,
          index < call.max →
          call.addr + index < 0xfffff000 ∧
            Accessible host w call.m .read replies
                (page (call.addr + index)) ∧
              memoryByte w call.m (call.addr + index) ≠ 0 := by
      intro index inside
      refine ⟨?_, ?_, fun isNul => ?_⟩
      · by_contra inLastPage
        exact runsOn ⟨index, inside, .inl (Nat.le_of_not_lt inLastPage)⟩
      · by_contra inaccessible
        exact runsOn ⟨index, inside, .inr (.inl inaccessible)⟩
      · exact runsOn ⟨index, inside, .inr (.inr isNul)⟩
    obtain ⟨state, reached, isFull⟩ :=
      UserReadString.reaches_of_long kept inMm small honest long
        (Nat.le_refl call.max)
    have holds := StringLoop.reached kept inMm small honest reached
    obtain ⟨⟨length, inside, isNul, _⟩, _⟩ :=
      correct state ⟨state, reached, .full (by omega)⟩
    exact holds.noNul length (isFull ▸ inside) isNul
  · rintro ⟨index, inside, stops⟩ last ⟨before, reached, exit⟩
    have holds := StringLoop.reached kept inMm small honest reached
    cases exit with
    | full isFull =>
      obtain ⟨low, accessible, byte⟩ :=
        holds.low index (Nat.lt_of_lt_of_le inside (Nat.le_of_not_lt isFull))
      have notNul :=
        holds.noNul index
          (Nat.lt_of_lt_of_le inside (Nat.le_of_not_lt isFull))
      rcases stops with inLastPage | inaccessible | isNul
      · exact absurd low (Nat.not_lt.mpr inLastPage)
      · exact absurd accessible inaccessible
      · exact absurd (byte.trans isNul) notNul
    | nul below returns isNul =>
      have next := holds.nextByte small (honest before reached) returns
      constructor
      case string =>
        refine ⟨before.index, below, isNul, next.noNul, ?_⟩
        intro other upTo
        obtain ⟨low, accessible, byte⟩ := next.low other upTo
        exact ⟨by omega, accessible, byte⟩
      case rest =>
        exact fun other after =>
          next.rest other (Nat.lt_of_lt_of_le below after)

/-- A page that starts with a letter and the end of a string. -/
private theorem exists_letter :
    ∃ w record,
      WellKept w ∧ 0 < w.mmCount ∧
        w.lookup 0 0x50000 = some ⟨0, 0, 0x43⟩ ∧
        w.data 0 = some record ∧
        memoryByte w 0 0x50000000 = 65 ∧ memoryByte w 0 0x50000001 = 0 := by
  obtain ⟨w, record, one, kept, _⟩ := exists_onePage_wellKept
  have inMm := one.inMm
  let string := (w.writeByte 8192 65).writeByte 8193 0
  refine ⟨string, record, (kept.writeByte _ _).writeByte _ _, inMm, one.found,
    one.live, ?_, ?_⟩
  · rw [memoryByte, readByte_eq (show string.lookup 0 (page 0x50000000) = _
      from one.found) one.live, one.memory]
    rfl
  · rw [memoryByte, readByte_eq (show string.lookup 0 (page 0x50000001) = _
      from one.found) one.live, one.memory]
    rfl

/-- The letter and the end of the string fill a buffer of two bytes. -/
theorem userReadString_of_letter :
    ∃ w,
      memoryByte w 0 0x50000000 = 65 ∧
        UserReadString.Correct plainHost refuseReplies ⟨0, 0x50000000, 2⟩ w
          fun _ => 1 := by
  obtain ⟨w, _, kept, inMm, _, _, letter, isEnd⟩ := exists_letter
  refine ⟨w, letter, ?_⟩
  refine (@userReadString_correct_iff plainHost refuseReplies w (fun _ => 1)
    ⟨0, 0x50000000, 2⟩ kept inMm (by decide)
    fun _ _ _ _ _ _ => refuseReplies_honest ..).mpr ?_
  exact .inr ⟨1, Nat.one_lt_two, .inr (.inr isEnd)⟩

/-- A buffer of one byte is filled with that letter, and the call returns 0. -/
theorem userReadString_without_nul :
    ∃ w last,
      UserReadString.Returns plainHost refuseReplies ⟨0, 0x50000000, 1⟩ w
          (fun _ => 1) 0 last ∧
        (∀ index, last.buffer index ≠ 0) ∧
          ¬UserReadString.Correct plainHost refuseReplies ⟨0, 0x50000000, 1⟩ w
            fun _ => 1 := by
  obtain ⟨w, record, kept, inMm, found, live, letter, _⟩ := exists_letter
  let call : UserReadString := ⟨0, 0x50000000, 1⟩
  have honest :
      call.HonestHost plainHost refuseReplies w fun _ => 1 :=
    fun _ _ _ _ _ _ => refuseReplies_honest ..
  have accessible :
      Accessible plainHost w 0 .read refuseReplies (page 0x50000000) := by
    rw [Accessible, show w.lookup 0 (page 0x50000000) = _ from found]
    exact .inl rfl
  have long :
      ∀ index,
        index < call.max →
        call.addr + index < 0xfffff000 ∧
          Accessible plainHost w call.m .read refuseReplies
              (page (call.addr + index)) ∧
            memoryByte w call.m (call.addr + index) ≠ 0 := by
    intro index inside
    obtain rfl : index = 0 := Nat.lt_one_iff.mp inside
    exact ⟨by decide, accessible, by
      rw [show memoryByte w call.m (call.addr + 0) = 65 from letter]
      decide⟩
  obtain ⟨state, reached, isFull⟩ :=
    UserReadString.reaches_of_long kept inMm (by decide) honest long
      (Nat.le_refl 1)
  have holds := StringLoop.reached kept inMm (by decide) honest reached
  have returns :
      call.Returns plainHost refuseReplies w (fun _ => 1) 0 state := by
    unfold UserReadString.Returns
    rw [if_neg (by decide)]
    exact ⟨state, reached, .full (by rw [isFull]; decide)⟩
  have notNul : ∀ index, state.buffer index ≠ 0 := by
    intro index
    by_cases isRead : index < state.index
    · exact holds.noNul index isRead
    · rw [holds.rest index (Nat.le_of_not_lt isRead)]
      decide
  refine ⟨w, state, returns, notNul, fun correct => ?_⟩
  obtain ⟨⟨length, _, isNul, _⟩, _⟩ := correct state returns
  exact notNul length isNul

end GuestKernel
