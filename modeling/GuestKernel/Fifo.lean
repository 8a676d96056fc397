import Mathlib.Data.List.Basic

namespace GuestKernel
open List Option

/-!
# The fifo

`util/fifo.c`: a ring buffer, and the queue that it stands for.  Sizes are
`size_t`, and `memcpy` answers nothing where it leaves the buffer.
-/

/-- A `size_t`. -/
abbrev sizeT (n : Nat) : Nat :=
  n % 18446744073709551616

/-- The difference of two `size_t`. -/
abbrev sizeSub (a b : Nat) : Nat :=
  sizeT (a + (18446744073709551616 - b))

/-- `struct fifo`. -/
structure Fifo where
  buf : Nat → UInt8
  capacity : Nat
  size : Nat
  start : Nat

/-- Calls; the flags of `fifo_read` are `FIFO_PEEK` and `FIFO_LAST`. -/
inductive FifoCall where
  | write (data : List UInt8) (overwrite : Bool)
  | read (size : Nat) (peek last : Bool)
  | flush

namespace Fifo

/-- `fifo_init`, with what `malloc` finds in the memory. -/
def fifoInit (buf : Nat → UInt8) (capacity : Nat) : Fifo where
  buf := buf
  capacity := capacity
  size := 0
  start := 0

/-- `memcpy` into the buffer. -/
def copyIn (fifo : Fifo) (offset : Nat) (bytes : List UInt8) : Option Fifo :=
  if offset + bytes.length ≤ fifo.capacity then
    some
      { fifo with
        buf := fun i =>
          if offset ≤ i ∧ i < offset + bytes.length then bytes.getD (i - offset) 0
          else fifo.buf i }
  else
    none

/-- `memcpy` out of the buffer. -/
def copyOut (fifo : Fifo) (offset n : Nat) : Option (List UInt8) :=
  if offset + n ≤ fifo.capacity then
    some ((List.range n).map fun i => fifo.buf (offset + i))
  else
    none

/-- `fifo_remaining`. -/
def fifoRemaining (fifo : Fifo) : Nat :=
  sizeSub fifo.capacity fifo.size

/-- The end of `fifo_write`, from the tail on. -/
def append (fifo : Fifo) (data : List UInt8) : Option Fifo := do
  let tail := sizeT (fifo.start + fifo.size) % fifo.capacity
  let first := min (fifo.capacity - tail) data.length
  let fifo ← fifo.copyIn tail (data.take first)
  let fifo ← fifo.copyIn 0 (data.drop first)
  some { fifo with size := sizeT (fifo.size + data.length) }

/-- `fifo_write`. -/
def fifoWrite (fifo : Fifo) (data : List UInt8) (overwrite : Bool) :
    Option (Nat × Fifo) :=
  if data.length > fifo.fifoRemaining then
    if overwrite then
      let excess := sizeSub data.length fifo.fifoRemaining
      (append
        { fifo with
          start := sizeT (fifo.start + excess) % fifo.capacity
          size := sizeSub fifo.size excess }
        data).map (0, ·)
    else
      some (1, fifo)
  else
    (fifo.append data).map (0, ·)

/-- `fifo_read`. -/
def fifoRead (fifo : Fifo) (size : Nat) (peek last : Bool) :
    Option ((Nat × List UInt8) × Fifo) :=
  if size > fifo.size then
    some ((1, []), fifo)
  else do
    let start :=
      if last then sizeT (fifo.start + sizeSub fifo.size size) % fifo.capacity
      else fifo.start
    -- The split goes by `fifo->start`, also where `start` is another place.
    let first := min (sizeSub fifo.capacity fifo.start) size
    let bytes ← fifo.copyOut start first
    let rest ← fifo.copyOut 0 (size - first)
    some
      ((0, bytes ++ rest),
        if peek then fifo
        else
          { fifo with
            start := sizeT (start + size) % fifo.capacity
            size := sizeSub fifo.size size })

/-- `fifo_flush`. -/
def fifoFlush (fifo : Fifo) : Fifo :=
  { fifo with size := 0 }

/-- One call: its result, the bytes it returns, and the fifo after it. -/
def run (fifo : Fifo) : FifoCall → Option ((Nat × List UInt8) × Fifo)
  | .write data overwrite =>
    (fifo.fifoWrite data overwrite).map fun (error, fifo) => ((error, []), fifo)
  | .read size peek last => fifo.fifoRead size peek last
  | .flush => some ((0, []), fifo.fifoFlush)

/-- Several calls. -/
def runAll (fifo : Fifo) :
    List FifoCall → Option (List (Nat × List UInt8) × Fifo)
  | [] => some ([], fifo)
  | call :: rest => do
    let (answer, fifo) ← fifo.run call
    let (answers, fifo) ← fifo.runAll rest
    some (answer :: answers, fifo)

end Fifo

/-- A write to a queue of at most `capacity` bytes. -/
def queueWrite
    (capacity : Nat)
    (queue data : List UInt8)
    (overwrite : Bool) : Nat × List UInt8 :=
  if queue.length + data.length ≤ capacity then
    (0, queue ++ data)
  else if overwrite then
    (0, (queue ++ data).drop (queue.length + data.length - capacity))
  else
    (1, queue)

/-- A read from a queue. -/
def queueRead (queue : List UInt8) (size : Nat) (peek last : Bool) :
    (Nat × List UInt8) × List UInt8 :=
  if size > queue.length then
    ((1, []), queue)
  else if last then
    ((0, queue.drop (queue.length - size)),
      if peek then queue else queue.take (queue.length - size))
  else
    ((0, queue.take size), if peek then queue else queue.drop size)

/-- What a call does to a queue of at most `capacity` bytes. -/
def queueRun (capacity : Nat) (queue : List UInt8) :
    FifoCall → (Nat × List UInt8) × List UInt8
  | .write data overwrite =>
    let (error, queue) := queueWrite capacity queue data overwrite
    ((error, []), queue)
  | .read size peek last => queueRead queue size peek last
  | .flush => ((0, []), [])

/-- Several calls. -/
def queueRunAll (capacity : Nat) (queue : List UInt8) :
    List FifoCall → List (Nat × List UInt8) × List UInt8
  | [] => ([], queue)
  | call :: rest =>
    let (answer, queue) := queueRun capacity queue call
    let (answers, queue) := queueRunAll capacity queue rest
    (answer :: answers, queue)

namespace Fifo

/-- The bytes of the fifo, oldest first. -/
def contents (fifo : Fifo) : List UInt8 :=
  (List.range fifo.size).map fun i =>
    fifo.buf ((fifo.start + i) % fifo.capacity)

/-- The place of the first of the last bytes. -/
def lastStart (fifo : Fifo) (size : Nat) : Nat :=
  (fifo.start + (fifo.size - size)) % fifo.capacity

/--
A write is at most as long as the buffer.  A read from the end is refused, or
it begins where the fifo does, or it is a peek that neither the fifo's start
nor its own makes wrap.
-/
def IsServed (fifo : Fifo) : FifoCall → Prop
  | .write data overwrite => overwrite = true → data.length ≤ fifo.capacity
  | .read size peek last =>
    last = true → size ≤ fifo.size →
      fifo.lastStart size = fifo.start ∨
        (peek = true ∧ fifo.start + size ≤ fifo.capacity ∧
          fifo.lastStart size + size ≤ fifo.capacity)
  | .flush => True

/-- Every call is served when its turn comes. -/
def AreServed (fifo : Fifo) : List FifoCall → Prop
  | [] => True
  | call :: rest =>
    fifo.IsServed call ∧
      ∀ answer next, fifo.run call = some (answer, next) → next.AreServed rest

/-- The bounds that the calls keep. -/
structure InBounds (fifo : Fifo) : Prop where
  positive : 0 < fifo.capacity
  allocatable : fifo.capacity ≤ 9223372036854775808
  holds : fifo.size ≤ fifo.capacity
  starts : fifo.start < fifo.capacity

theorem mod_wraps
    (capacity a : Nat)
    (below : a < 2 * capacity) :
    (a < capacity ∧ a % capacity = a) ∨
      (capacity ≤ a ∧ a % capacity = a - capacity) := by
  rcases Nat.lt_or_ge a capacity with isBelow | isAbove
  · exact .inl ⟨isBelow, Nat.mod_eq_of_lt isBelow⟩
  · refine .inr ⟨isAbove, ?_⟩
    rw [Nat.mod_eq_sub_mod isAbove, Nat.mod_eq_of_lt (by omega)]

@[simp]
theorem length_contents (fifo : Fifo) : fifo.contents.length = fifo.size := by
  simp [contents]

theorem getElem_contents
    (fifo : Fifo)
    (i : Nat)
    (inside : i < fifo.contents.length) :
    fifo.contents[i] = fifo.buf ((fifo.start + i) % fifo.capacity) := by
  simp [contents]

/-- Bytes that fit come after the others. -/
theorem InBounds.append_spec
    {fifo : Fifo}
    {data : List UInt8}
    (bounds : fifo.InBounds)
    (fits : fifo.size + data.length ≤ fifo.capacity) :
    ∃ next, fifo.append data = some next ∧ next.InBounds ∧
      next.capacity = fifo.capacity ∧
      next.contents = fifo.contents ++ data := by
  obtain ⟨positive, allocatable, holds, starts⟩ := bounds
  have noWrap : sizeT (fifo.start + fifo.size) = fifo.start + fifo.size :=
    Nat.mod_eq_of_lt (by omega)
  have newSize : sizeT (fifo.size + data.length) = fifo.size + data.length :=
    Nat.mod_eq_of_lt (by omega)
  have tailBelow := Nat.mod_lt (fifo.start + fifo.size) positive
  have tailPlace :=
    mod_wraps fifo.capacity (fifo.start + fifo.size) (by omega)
  unfold Fifo.append
  dsimp only
  rw [noWrap]
  generalize (fifo.start + fifo.size) % fifo.capacity = tail at *
  generalize isFirst : min (fifo.capacity - tail) data.length = first
  have firstLength : (data.take first).length = first := by
    rw [length_take]
    omega
  have restLength : (data.drop first).length = data.length - first :=
    length_drop ..
  simp only [copyIn, firstLength, restLength, bind_eq_bind]
  rw [if_pos (by omega), bind_some, if_pos (by dsimp only; omega),
    bind_some]
  refine ⟨_, rfl, ⟨positive, allocatable, by rwa [newSize], starts⟩, rfl, ?_⟩
  refine ext_getElem ?_ ?_
  · simp [newSize]
  intro i inNext inBoth
  have inSize : i < fifo.size + data.length := by
    simpa using inBoth
  rw [getElem_contents, getElem_append]
  have place :=
    mod_wraps fifo.capacity (fifo.start + i) (by omega)
  simp only [getElem_contents, length_contents]
  generalize (fifo.start + i) % fifo.capacity = p at *
  by_cases isOld : i < fifo.size
  · rw [dif_pos isOld, if_neg (by omega), if_neg (by omega)]
  · have inData : i - fifo.size < data.length := by omega
    have read (j : Nat) (same : j = i - fifo.size) :
        data[j]?.getD 0 = data[i - fifo.size] := by
      subst same
      rw [List.getElem?_eq_getElem inData, getD_some]
    rw [dif_neg isOld]
    simp only [List.getD_eq_getElem?_getD, List.getElem?_take,
      List.getElem?_drop]
    by_cases inFirst : i - fifo.size < first
    · rw [if_neg (by omega), if_pos (by omega), if_pos (by omega)]
      exact read _ (by omega)
    · rw [if_pos (by omega)]
      exact read _ (by omega)

/-- What is left after the oldest bytes go. -/
theorem contents_drop (fifo : Fifo) (n : Nat) :
    contents
        { fifo with
          start := (fifo.start + n) % fifo.capacity
          size := fifo.size - n } =
      fifo.contents.drop n := by
  refine ext_getElem ?_ ?_
  · simp
  intro i _ _
  rw [getElem_contents, getElem_drop, getElem_contents]
  dsimp only
  rw [Nat.mod_add_mod, Nat.add_assoc]

/-- Bytes that are read in one or two pieces. -/
theorem copyOut_pieces
    {fifo : Fifo}
    {place size : Nat}
    (first : Nat)
    (starts : place < fifo.capacity)
    (below : size ≤ fifo.capacity)
    (isFirst : first = min (fifo.capacity - place) size ∨
      (first = size ∧ place + size ≤ fifo.capacity)) :
    ∃ bytes rest,
      fifo.copyOut place first = some bytes ∧
        fifo.copyOut 0 (size - first) = some rest ∧
        bytes ++ rest =
          (List.range size).map fun i =>
            fifo.buf ((place + i) % fifo.capacity) := by
  have inside : first ≤ size ∧ place + first ≤ fifo.capacity ∧
      (first = size ∨ place + first = fifo.capacity) := by
    omega
  obtain ⟨firstBelow, firstInside, isSplit⟩ := inside
  unfold copyOut
  rw [if_pos firstInside, if_pos (by omega)]
  refine ⟨_, _, rfl, rfl, ?_⟩
  refine ext_getElem ?_ ?_
  · simp [firstBelow]
  intro i _ inBoth
  have inSize : i < size := by simpa using inBoth
  rw [getElem_append]
  simp only [length_map, length_range, getElem_map,
    getElem_range]
  have wraps :=
    mod_wraps fifo.capacity (place + i) (by omega)
  split
  case isTrue inFirst =>
    congr 1
    omega
  case isFalse notInFirst =>
    congr 1
    omega

/-- A write that is not too long is a write to the queue. -/
theorem InBounds.fifoWrite_spec
    {fifo : Fifo}
    {data : List UInt8}
    {overwrite : Bool}
    (bounds : fifo.InBounds)
    (isShort : overwrite = true → data.length ≤ fifo.capacity) :
    ∃ next,
      fifo.fifoWrite data overwrite =
          some ((queueWrite fifo.capacity fifo.contents data overwrite).1, next) ∧
        next.InBounds ∧ next.capacity = fifo.capacity ∧
          next.contents =
            (queueWrite fifo.capacity fifo.contents data overwrite).2 := by
  obtain ⟨positive, allocatable, holds, starts⟩ := id bounds
  have remaining : fifo.fifoRemaining = fifo.capacity - fifo.size := by
    unfold fifoRemaining sizeSub sizeT
    omega
  unfold fifoWrite queueWrite
  rw [remaining, length_contents]
  by_cases fits : fifo.size + data.length ≤ fifo.capacity
  · obtain ⟨next, appended, after⟩ := bounds.append_spec fits
    rw [if_neg (by omega), if_pos fits, appended]
    exact ⟨next, rfl, after⟩
  rw [if_pos (by omega), if_neg fits]
  cases overwrite with
  | false => exact ⟨fifo, rfl, bounds, rfl, rfl⟩
  | true =>
    have isShort := isShort rfl
    rw [if_pos rfl, if_pos rfl]
    generalize isExcess : fifo.size + data.length - fifo.capacity = excess
    have moved :
        sizeSub data.length (fifo.capacity - fifo.size) = excess ∧
          sizeT (fifo.start + excess) = fifo.start + excess ∧
          sizeSub fifo.size excess = fifo.size - excess := by
      unfold sizeSub sizeT
      omega
    dsimp only
    rw [moved.1, moved.2.1, moved.2.2]
    have dropped : InBounds
        { fifo with
          start := (fifo.start + excess) % fifo.capacity
          size := fifo.size - excess } :=
      ⟨positive, allocatable, Nat.le_trans (Nat.sub_le ..) holds,
        Nat.mod_lt _ positive⟩
    obtain ⟨next, appended, inBounds, sameCapacity, after⟩ :=
      @append_spec _ data dropped (by dsimp only; omega)
    rw [appended]
    refine ⟨next, rfl, inBounds, sameCapacity, after.trans ?_⟩
    rw [contents_drop, drop_append_of_le_length]
    rw [length_contents]
    omega

/-- A read that is served is a read from the queue. -/
theorem InBounds.fifoRead_spec
    {fifo : Fifo}
    {size : Nat}
    {peek last : Bool}
    (bounds : fifo.InBounds)
    (served : fifo.IsServed (.read size peek last)) :
    ∃ next,
      fifo.fifoRead size peek last =
          some ((queueRead fifo.contents size peek last).1, next) ∧
        next.InBounds ∧ next.capacity = fifo.capacity ∧
          next.contents = (queueRead fifo.contents size peek last).2 := by
  obtain ⟨positive, allocatable, holds, starts⟩ := id bounds
  unfold fifoRead queueRead
  rw [length_contents]
  by_cases refused : size > fifo.size
  · rw [if_pos refused, if_pos refused]
    exact ⟨fifo, rfl, bounds, rfl, rfl⟩
  rw [if_neg refused, if_neg refused]
  have noWrap :
      sizeSub fifo.capacity fifo.start = fifo.capacity - fifo.start ∧
        sizeSub fifo.size size = fifo.size - size ∧
        sizeT (fifo.start + (fifo.size - size)) =
          fifo.start + (fifo.size - size) ∧
          sizeT (fifo.start + size) = fifo.start + size := by
    unfold sizeSub sizeT
    omega
  rw [noWrap.1, noWrap.2.1, noWrap.2.2.1]
  have removed : InBounds
      { fifo with
        start := (fifo.start + size) % fifo.capacity
        size := fifo.size - size } :=
    ⟨positive, allocatable, Nat.le_trans (Nat.sub_le ..) holds,
      Nat.mod_lt _ positive⟩
  cases last with
  | false =>
    obtain ⟨bytes, rest, isBytes, isRest, isBoth⟩ :=
      copyOut_pieces _ starts (by omega : size ≤ fifo.capacity) (.inl rfl)
    have isTake : bytes ++ rest = fifo.contents.take size := by
      rw [isBoth, contents, ← map_take, take_range,
        Nat.min_eq_left (by omega)]
    simp only [Bool.false_eq_true, ↓reduceIte, isBytes, isRest,
      bind_eq_bind, bind_some, isTake, noWrap.2.2.2]
    refine ⟨_, rfl, ?_⟩
    cases peek with
    | true => exact ⟨bounds, rfl, rfl⟩
    | false => exact ⟨removed, rfl, contents_drop fifo size⟩
  | true =>
    have place := served rfl (by omega)
    have isPlace :
        (fifo.start + (fifo.size - size)) % fifo.capacity =
          fifo.lastStart size := rfl
    have placeBelow : fifo.lastStart size < fifo.capacity :=
      Nat.mod_lt _ positive
    obtain ⟨bytes, rest, isBytes, isRest, isBoth⟩ :=
      copyOut_pieces (min (fifo.capacity - fifo.start) size) placeBelow
        (by omega : size ≤ fifo.capacity)
        (by
          rcases place with same | ⟨_, startFits, lastFits⟩
          · exact .inl (by rw [same])
          · exact .inr ⟨by omega, lastFits⟩)
    have isDrop : bytes ++ rest = fifo.contents.drop (fifo.size - size) := by
      rw [isBoth, ← contents_drop, contents]
      dsimp only
      rw [isPlace, Nat.sub_sub_self (by omega)]
    simp only [↓reduceIte, isPlace, isBytes, isRest, bind_eq_bind,
      bind_some, isDrop]
    refine ⟨_, rfl, ?_⟩
    cases peek with
    | true => exact ⟨bounds, rfl, rfl⟩
    | false =>
      obtain same | ⟨isPeek, _⟩ := place
      · have whole : size = fifo.size ∨ size = 0 := by
          unfold lastStart at same
          have wraps :=
            mod_wraps fifo.capacity (fifo.start + (fifo.size - size)) (by omega)
          omega
        rw [same, noWrap.2.2.2]
        refine ⟨removed, rfl, (contents_drop fifo size).trans ?_⟩
        rcases whole with rfl | rfl
        · simp
        · rw [Nat.sub_zero, ← length_contents, take_length, drop_zero,
            if_neg Bool.false_ne_true]
      · cases isPeek

/-- A served call does what it does to a queue. -/
theorem InBounds.run_spec
    {fifo : Fifo}
    {call : FifoCall}
    (bounds : fifo.InBounds)
    (served : fifo.IsServed call) :
    ∃ next,
      fifo.run call =
          some ((queueRun fifo.capacity fifo.contents call).1, next) ∧
        next.InBounds ∧ next.capacity = fifo.capacity ∧
          next.contents = (queueRun fifo.capacity fifo.contents call).2 := by
  cases call with
  | write data overwrite =>
    obtain ⟨next, written, after⟩ := bounds.fifoWrite_spec served
    exact ⟨next, by rw [run, written]; rfl, after⟩
  | read size peek last => exact bounds.fifoRead_spec served
  | flush =>
    exact ⟨_, rfl,
      ⟨bounds.positive, bounds.allocatable, Nat.zero_le _, bounds.starts⟩,
      rfl, rfl⟩

/-- So do several calls, if each of them is served. -/
theorem InBounds.runAll_spec
    {calls : List FifoCall}
    {fifo : Fifo}
    (bounds : fifo.InBounds)
    (served : fifo.AreServed calls) :
    ∃ next,
      fifo.runAll calls =
          some ((queueRunAll fifo.capacity fifo.contents calls).1, next) ∧
        next.InBounds ∧ next.capacity = fifo.capacity ∧
          next.contents =
            (queueRunAll fifo.capacity fifo.contents calls).2 := by
  induction calls generalizing fifo with
  | nil => exact ⟨fifo, rfl, bounds, rfl, rfl⟩
  | cons call rest inductionHypothesis =>
    obtain ⟨isServed, restServed⟩ := served
    obtain ⟨next, isRun, nextBounds, sameCapacity, after⟩ :=
      bounds.run_spec isServed
    obtain ⟨final, isRunAll, finalBounds, finalCapacity, atEnd⟩ :=
      inductionHypothesis nextBounds (restServed _ _ isRun)
    rw [sameCapacity, after] at isRunAll atEnd
    refine ⟨final, ?_, finalBounds, finalCapacity.trans sameCapacity, atEnd⟩
    rw [runAll, isRun, bind_eq_bind, bind_some]
    dsimp only
    rw [isRunAll]
    rfl

/--
From an empty fifo, calls that are all served answer and leave what a queue of
`capacity` bytes does, and none of them leaves the buffer.
-/
theorem fifo_is_queue
    {capacity : Nat}
    (positive : 0 < capacity)
    (allocatable : capacity ≤ 9223372036854775808)
    (buf : Nat → UInt8)
    (calls : List FifoCall)
    (served : (fifoInit buf capacity).AreServed calls) :
    ∃ next,
      (fifoInit buf capacity).runAll calls =
          some ((queueRunAll capacity [] calls).1, next) ∧
        next.contents = (queueRunAll capacity [] calls).2 ∧
          next.contents.length ≤ capacity := by
  have bounds : (fifoInit buf capacity).InBounds :=
    ⟨positive, allocatable, Nat.zero_le _, positive⟩
  obtain ⟨next, isRun, nextBounds, sameCapacity, after⟩ :=
    bounds.runAll_spec served
  refine ⟨next, isRun, after, ?_⟩
  rw [length_contents, ← show next.capacity = capacity from sameCapacity]
  exact nextBounds.holds

/-- A write of two bytes, and a read of the first one. -/
theorem fifo_is_queue_of_two :
    ∃ next,
      (fifoInit (fun _ => 0) 2).runAll [.write [1, 2] false, .read 1 false false] =
          some ([(0, []), (0, [1])], next) ∧
        next.contents = [2] ∧ next.contents.length ≤ 2 :=
  fifo_is_queue (by decide) (by decide) _ _
    ⟨nofun, fun _ _ _ => ⟨nofun, fun _ _ _ => trivial⟩⟩

/--
A write of four bytes that overwrites a buffer of two leaves the buffer; and
after a read of the last byte of two the other one is not the first.
-/
theorem fifo_is_no_queue :
    (fifoInit (fun _ => 0) 2).runAll
        [.write [1] false, .write [2, 3, 4, 5] true] = none ∧
      ((fifoInit (fun _ => 0) 4).runAll
        [.write [1, 2] false, .read 1 false true, .read 1 false false]).map
          Prod.fst = some [(0, []), (0, [2]), (0, [0])] ∧
        (queueRunAll 4 []
          [.write [1, 2] false, .read 1 false true, .read 1 false false]).1 =
          [(0, []), (0, [2]), (0, [1])] := by
  decide +kernel

end Fifo

end GuestKernel
