import GuestKernel.TtyLineRuns

namespace GuestKernel
open List

/-!
# Bytes of a terminal in raw mode

The buffer should hold what was put there: bytes of the raw branch, and bytes
with flags of the canonical one.  Line editing in canonical mode may erase bytes
that were put there in raw mode, and a flush discards everything.
-/

/-- What was put into one place of the buffer. -/
inductive TtyItem where
  | raw (ch : UInt8)
  | typed (ch : UInt8) (flag : Bool)
  deriving Repr, DecidableEq

namespace TtyItem

/-- The byte of the raw branch. -/
def rawByte? : TtyItem → Option UInt8
  | raw ch => some ch
  | typed _ _ => none

/-- A place holds what was put there; the raw branch sets no flag. -/
def Holds (cell : UInt8 × Bool) : TtyItem → Prop
  | raw ch => cell.1 = ch
  | typed ch flag => cell = (ch, flag)

end TtyItem

/-- The raw bytes among some items. -/
def rawBytes (items : List TtyItem) : List UInt8 :=
  items.filterMap TtyItem.rawByte?

/-- The bytes of a read that lie in the places of raw bytes. -/
def rawData (data : List UInt8) (items : List TtyItem) : List UInt8 :=
  (data.zip items).filterMap fun place =>
    match place.2 with
    | .raw _ => some place.1
    | .typed _ _ => none

/--
A tty, what was put into its buffer, and the raw bytes that were counted and
those that were read, since the last flush.
-/
structure RawTty where
  tty : Tty
  items : List TtyItem
  accepted : List UInt8
  delivered : List UInt8

/--
Rounds of `tty_input` and reads, each with the modes that its call saw first,
and changes of the modes and the group.
-/
inductive RawStep where
  | input (lflags iflags : TermFlags) (ch : UInt8)
  | setTermios (termios : Termios)
  | setForeground (group : Nat)
  | flush
  | read (lflags : TermFlags) (bufsize vmin : Nat) (timedOut : Bool)

namespace RawTty

/-- Nothing was put into the buffer or read since the last flush. -/
def afterFlush (tty : Tty) : RawTty where
  tty := tty
  items := []
  accepted := []
  delivered := []

/-- A signal was typed. -/
def afterSignal (state : RawTty) (tty : Tty) : RawTty :=
  if state.tty.signalFlushes then afterFlush tty
  else { state with tty := tty }

/-- A byte was put into the buffer in canonical mode, or erased others. -/
def afterKey (state : RawTty) (tty : Tty) : TypedKey → RawTty
  | .ignored => { state with tty := tty }
  | .data ch =>
    { state with tty := tty, items := state.items ++ [.typed ch false] }
  | .endOfFile =>
    { state with tty := tty, items := state.items ++ [.typed 0 true] }
  | .lineEnd ch =>
    { state with tty := tty, items := state.items ++ [.typed ch true] }
  | .signal _ => state.afterSignal tty
  | _ =>
    { state with
      tty := tty
      items := state.items.take tty.bufsize
      accepted := state.accepted.take
        (state.accepted.length -
          (rawBytes (state.items.drop tty.bufsize)).length) }

/-- A read took some bytes. -/
def afterRead (state : RawTty) (taken : List UInt8 × Tty) : RawTty :=
  let left := state.items.drop taken.1.length
  { state with
    tty := taken.2
    items :=
      -- the eof behind a line goes with the line
      if left.head? = some (.typed 0 true) then left.drop 1 else left
    delivered := state.delivered ++ rawData taken.1 state.items }

/-- One step; a round that finds the buffer full counts no byte. -/
def run (state : RawTty) : RawStep → Option RawTty
  | .input lflags iflags ch =>
    match inputRound state.tty lflags iflags ch with
    | (.full, _) => none
    | (.counted _, tty) =>
      if termHas lflags termIcanon then
        some (state.afterKey tty (state.tty.key iflags ch))
      else
        match state.tty.inputSignal ch with
        | some _ => some (state.afterSignal tty)
        | none =>
          some { state with
            tty := tty
            items := state.items ++ [.raw ch]
            accepted := state.accepted ++ [ch] }
  | .setTermios termios =>
    some { state with tty := { state.tty with termios := termios } }
  | .setForeground group =>
    some { state with tty := { state.tty with fgGroup := group } }
  | .flush => some (afterFlush state.tty.flush)
  | .read lflags bufsize vmin timedOut =>
    (ttyRead state.tty lflags bufsize vmin timedOut).map state.afterRead

end RawTty

/-- A tty from the start on. -/
def rawMachine : Machine RawTty RawStep where
  initial state :=
    ∃ tty : Tty, tty.bufsize = 0 ∧ state = .afterFlush tty
  step state action next := state.run action = some next

/--
The buffer holds what was put there, and the raw bytes that were counted are
those that were read, followed by those in the buffer.
-/
structure Transparent (state : RawTty) : Prop where
  holds : List.Forall₂ TtyItem.Holds state.tty.cells state.items
  accounted : state.accepted = state.delivered ++ rawBytes state.items

/-- The places a read takes. -/
def readSize
    (tty : Tty) (lflags : TermFlags) (bufsize vmin : Nat) (timedOut : Bool) :
    Option Nat :=
  if termHas lflags termIcanon then canonReadSize tty bufsize
  else rawReadSize tty bufsize vmin timedOut

/--
Behind the bytes that a read takes comes a null byte of the raw branch, and an
older flag lies at its place.
-/
def RawTty.losesNull (state : RawTty) : RawStep → Prop
  | .read lflags bufsize vmin timedOut =>
    ∃ size,
      readSize state.tty lflags bufsize vmin timedOut = some size ∧
        state.items[size]? = some (.raw 0) ∧
        state.tty.bufFlag size = true
  | _ => False

/-- The machine without such reads. -/
def nullSparingMachine : Machine RawTty RawStep :=
  rawMachine.restrict fun state action => ¬state.losesNull action

theorem cells_eraseLoop_take
    (count : Nat)
    (tty : Tty) :
    (eraseLoop count tty).cells =
        tty.cells.take (eraseLoop count tty).bufsize ∧
      (eraseLoop count tty).bufsize ≤ tty.bufsize := by
  induction count generalizing tty with
  | zero =>
    refine ⟨?_, Nat.le_refl _⟩
    rw [eraseLoop, take_of_length_le (Nat.le_of_eq tty.length_cells)]
  | succ count inductionHypothesis =>
    rw [eraseLoop]
    split
    · refine ⟨?_, Nat.le_refl _⟩
      rw [take_of_length_le (Nat.le_of_eq tty.length_cells)]
    · obtain ⟨isTake, shorter⟩ :=
        inductionHypothesis { tty with bufsize := tty.bufsize - 1 }
      have atMost :
          (eraseLoop count { tty with bufsize := tty.bufsize - 1 }).bufsize ≤
            tty.cells.length - 1 := by
        rw [Tty.length_cells]
        exact shorter
      refine ⟨?_, Nat.le_trans shorter (Nat.sub_le _ _)⟩
      rw [isTake, Tty.cells_shrink, dropLast_eq_take, take_take,
        Nat.min_eq_left atMost]

theorem rawBytes_append
    (first second : List TtyItem) :
    rawBytes (first ++ second) = rawBytes first ++ rawBytes second :=
  filterMap_append

/-- A read returns the raw bytes of the places that it takes. -/
theorem rawData_eq
    {cells : List (UInt8 × Bool)}
    {items : List TtyItem}
    (holds : List.Forall₂ TtyItem.Holds cells items)
    (size : Nat) :
    rawData ((cells.take size).map Prod.fst) items =
      rawBytes (items.take size) := by
  induction holds generalizing size with
  | nil => simp [rawData, rawBytes]
  | @cons cell item cells items holds _ inductionHypothesis =>
    cases size with
    | zero => rfl
    | succ size =>
      have later := inductionHypothesis size
      unfold rawData rawBytes at later ⊢
      cases item with
      | raw ch =>
        simp only [take_succ_cons, map_cons,
          zip_cons_cons, filterMap_cons, TtyItem.rawByte?,
          later]
        rw [show cell.1 = ch from holds]
      | typed ch flag =>
        simp only [take_succ_cons, map_cons,
          zip_cons_cons, filterMap_cons, TtyItem.rawByte?,
          later]

namespace Transparent

variable {state next : RawTty}

variable {tty : Tty} {ch : UInt8}

theorem afterFlush
    (empty : tty.cells = []) :
    Transparent (.afterFlush tty) where
  holds := empty ▸ .nil
  accounted := rfl

section

variable (transparent : Transparent state)
include transparent

theorem of_same_cells
    (sameCells : tty.cells = state.tty.cells) :
    Transparent { state with tty := tty } where
  holds := sameCells ▸ transparent.holds
  accounted := transparent.accounted

/-- A signal flushes or leaves the buffer. -/
theorem afterSignal
    {signal : InputSignal}
    {queued : Option InputSignal}
    (sent : state.tty.sendInputSignal signal = (.counted queued, tty)) :
    Transparent (state.afterSignal tty) := by
  have after := LineTty.sendInputSignal_spec sent
  unfold RawTty.afterSignal
  split
  case isTrue flushes =>
    rw [if_pos flushes] at after
    exact .afterFlush (after ▸ rfl)
  case isFalse keeps =>
    rw [if_neg keeps] at after
    rw [after]
    exact transparent

theorem push
    {flag : Bool}
    (pushed : tty.cells = state.tty.cells ++ [(ch, flag)]) :
    Transparent
      { state with
        tty := tty
        items := state.items ++ [.typed ch flag] } where
  holds := pushed ▸ rel_append transparent.holds (.cons rfl .nil)
  accounted := by
    dsimp only
    rw [rawBytes_append, ← append_assoc, ← transparent.accounted]
    exact (append_nil _).symm

theorem pushRaw
    {flag : Bool}
    (pushed : tty.cells = state.tty.cells ++ [(ch, flag)]) :
    Transparent
      { state with
        tty := tty
        items := state.items ++ [.raw ch]
        accepted := state.accepted ++ [ch] } where
  holds := pushed ▸ rel_append transparent.holds (.cons rfl .nil)
  accounted := by
    dsimp only
    rw [rawBytes_append, ← append_assoc, ← transparent.accounted]
    rfl

/-- The erase loop erases the last places. -/
theorem erase
    (count : Nat) :
    Transparent
      { state with
        tty := eraseLoop count state.tty
        items := state.items.take (eraseLoop count state.tty).bufsize
        accepted := state.accepted.take
          (state.accepted.length -
            (rawBytes (state.items.drop
              (eraseLoop count state.tty).bufsize)).length) } where
  holds := by
    dsimp only
    rw [(cells_eraseLoop_take count state.tty).1]
    exact forall₂_take _ transparent.holds
  accounted := by
    dsimp only
    have split := rawBytes_append
      (state.items.take (eraseLoop count state.tty).bufsize)
      (state.items.drop (eraseLoop count state.tty).bufsize)
    rw [take_append_drop] at split
    rw [transparent.accounted, split, ← append_assoc,
      length_append, Nat.add_sub_cancel, take_left]

/-- A counted round keeps the rule. -/
theorem input
    {lflags iflags : TermFlags}
    (step : state.run (.input lflags iflags ch) = some next) :
    Transparent next := by
  simp only [RawTty.run] at step
  split at step
  · cases step
  case h_2 queued tty round =>
    unfold inputRound at round
    split at step
    case isTrue canonical =>
      rw [if_pos canonical, canonInput_eq] at round
      cases step
      cases isKey : state.tty.key iflags ch with
      | ignored =>
        rw [isKey] at round
        cases round
        exact transparent
      | data ch | endOfFile | lineEnd ch =>
        rw [isKey] at round
        exact transparent.push (Tty.pushChar_counted round).1
      | erase | kill =>
        rw [isKey] at round
        cases round
        exact transparent.erase _
      | signal signal =>
        rw [isKey] at round
        exact transparent.afterSignal round
    case isFalse raw =>
      rw [if_neg raw, rawInput] at round
      split at step
      case h_1 signal isSignal =>
        cases step
        simp only [isSignal] at round
        exact transparent.afterSignal round
      case h_2 noSignal =>
        cases step
        simp only [noSignal] at round
        split at round
        · cases round
        · cases round
          exact transparent.pushRaw (Tty.cells_pushRaw state.tty ch)

end

end Transparent

/-- What a read takes lies in the buffer. -/
theorem readSize_le
    {tty : Tty}
    {lflags : TermFlags}
    {bufsize vmin size : Nat}
    {timedOut : Bool}
    (isSize : readSize tty lflags bufsize vmin timedOut = some size) :
    size ≤ tty.bufsize := by
  unfold readSize at isSize
  split at isSize
  · obtain ⟨canonSize, _, rfl⟩ := Option.map_eq_some_iff.mp isSize
    exact Nat.min_le_right _ _
  · unfold rawReadSize at isSize
    split at isSize
    · cases isSize
    · cases isSize
      exact Nat.min_le_right _ _

namespace RawTty

variable {state : RawTty} {lflags iflags : TermFlags}

/-- A read removes what it should, or a null byte of the raw branch too. -/
theorem read_cells
    (transparent : Transparent state)
    {size : Nat}
    (fits : size ≤ state.tty.bufsize) :
    (state.afterRead (ttyTake state.tty size)).tty.cells =
        (ttyTake state.tty size).2.cells ∧
      (state.afterRead (ttyTake state.tty size)).accepted =
        (state.afterRead (ttyTake state.tty size)).delivered ++
          rawBytes (state.items.drop size) ∧
      (state.afterRead (ttyTake state.tty size)).items =
        if (state.items.drop size).head? = some (.typed 0 true) then
          (state.items.drop size).drop 1
        else
          state.items.drop size := by
  obtain ⟨isData, _, _⟩ := ttyTake_spec fits
  have length : (ttyTake state.tty size).1.length = size := by
    rw [isData, length_map, length_take, Tty.length_cells,
      Nat.min_eq_left fits]
  refine ⟨rfl, ?_, ?_⟩
  · have split := rawBytes_append (state.items.take size)
      (state.items.drop size)
    rw [take_append_drop] at split
    dsimp only [afterRead]
    rw [isData, rawData_eq transparent.holds, transparent.accounted, split,
      append_assoc]
  · dsimp only [afterRead]
    rw [length]

/-- A read keeps the rule exactly if it loses no null byte. -/
theorem read_iff
    {next : RawTty}
    {bufsize vmin : Nat}
    {timedOut : Bool}
    (transparent : Transparent state)
    (step : state.run (.read lflags bufsize vmin timedOut) = some next) :
    Transparent next ↔
      ¬state.losesNull (.read lflags bufsize vmin timedOut) := by
  obtain ⟨taken, read, rfl⟩ := Option.map_eq_some_iff.mp step
  obtain ⟨size, isSize, rfl⟩ := Option.map_eq_some_iff.mp read
  have fits : size ≤ state.tty.bufsize := readSize_le isSize
  obtain ⟨_, _, isCells⟩ := ttyTake_spec fits
  obtain ⟨sameCells, isAccounted, isItems⟩ := read_cells transparent fits
  have left := forall₂_drop size transparent.holds
  have headCell := state.tty.getElem?_cells size
  have loses :
      state.losesNull (.read lflags bufsize vmin timedOut) ↔
        state.items[size]? = some (.raw 0) ∧
          state.tty.bufFlag size = true := by
    constructor
    · rintro ⟨other, isOther, isRaw, flagged⟩
      cases isSize.symm.trans isOther
      exact ⟨isRaw, flagged⟩
    · rintro ⟨isRaw, flagged⟩
      exact ⟨size, isSize, isRaw, flagged⟩
  rw [loses, ← List.head?_drop]
  rw [← List.head?_drop] at headCell
  generalize state.tty.cells.drop size = cellsLeft at left isCells headCell
  generalize state.items.drop size = itemsLeft at left isItems isAccounted ⊢
  cases left with
  | nil =>
    refine iff_of_true ⟨?_, ?_⟩ (fun isRaw => by cases isRaw.1)
    · rw [sameCells, isCells, isItems]
      exact .nil
    · rw [isAccounted, isItems]
      rfl
  | @cons cell item cells items isHeld rest =>
    have isCell : cell = (state.tty.buf size, state.tty.bufFlag size) := by
      split at headCell
      · exact Option.some.inj headCell
      · cases headCell
    simp only [List.head?_cons, Option.some.injEq, drop_one,
      tail_cons] at isCells isItems ⊢
    cases item with
    | typed ch flag =>
      have same : cell = (ch, flag) := isHeld
      refine iff_of_true ⟨?_, ?_⟩ (fun isRaw => by cases isRaw.1)
      · rw [sameCells, isCells, isItems, same]
        by_cases isEof : ch = 0 ∧ flag = true
        · rw [if_pos (by rw [isEof.1, isEof.2]),
            if_pos (by rw [isEof.1, isEof.2])]
          exact rest
        · rw [if_neg (fun isPair => isEof (Prod.mk.inj isPair)),
            if_neg (fun isItem => isEof (TtyItem.typed.inj isItem))]
          exact .cons rfl rest
      · rw [isAccounted, isItems]
        split
        · rfl
        · rfl
    | raw ch =>
      have same : cell.1 = ch := isHeld
      rw [if_neg (fun isItem => by cases isItem)] at isItems
      constructor
      · rintro after ⟨isNull, flagged⟩
        cases isNull
        have isPair : cell = (0, true) := by
          rw [isCell] at same ⊢
          exact Prod.ext same flagged
        rw [if_pos isPair] at isCells
        have lengths := after.holds.length_eq
        rw [sameCells, isCells, isItems, length_cons,
          rest.length_eq] at lengths
        exact absurd lengths (Nat.ne_of_lt (Nat.lt_succ_self _))
      · intro spared
        have notPair : cell ≠ (0, true) := by
          intro isPair
          refine spared ⟨?_, ?_⟩
          · rw [← same, isPair]
          · have flagged := congrArg Prod.snd (isCell.symm.trans isPair)
            exact flagged
        rw [if_neg notPair] at isCells
        refine ⟨?_, ?_⟩
        · rw [sameCells, isCells, isItems]
          exact .cons isHeld rest
        · rw [isAccounted, isItems]

/-- A step that loses no null byte keeps the rule. -/
theorem transparent_step
    {next : RawTty}
    {action : RawStep}
    (transparent : Transparent state)
    (spares : ¬state.losesNull action)
    (step : state.run action = some next) :
    Transparent next := by
  cases action with
  | input lflags iflags ch => exact transparent.input step
  | setTermios termios | setForeground group =>
    cases step
    exact transparent.of_same_cells rfl
  | flush =>
    cases step
    exact .afterFlush rfl
  | read lflags bufsize vmin timedOut =>
    exact (read_iff transparent step).mpr spares

/--
In every run without such reads the raw bytes that were counted since the last
flush, but for those that line editing erased, are those that were read, in
order, followed by those in the buffer, which are unchanged.  The next read
keeps this exactly if it loses no null byte.
-/
theorem raw_bytes_are_delivered
    {state : RawTty}
    (reachable : nullSparingMachine.Reachable state) :
    (state.accepted = state.delivered ++ rawBytes state.items ∧
        List.Forall₂ TtyItem.Holds state.tty.cells state.items) ∧
      ∀ lflags bufsize vmin timedOut next,
        rawMachine.step state (.read lflags bufsize vmin timedOut) next →
        (Transparent next ↔
          ¬state.losesNull (.read lflags bufsize vmin timedOut)) := by
  have transparent : Transparent state := by
    refine reachable.invariant ?_ ?_
    · rintro state ⟨tty, empty, rfl⟩
      refine .afterFlush ?_
      rw [Tty.cells, empty]
      rfl
    · rintro state action next transparent ⟨spares, step⟩
      exact transparent_step transparent spares step
  exact ⟨⟨transparent.accounted, transparent.holds⟩,
    fun lflags bufsize vmin timedOut next step => read_iff transparent step⟩

/-- Raw modes: no line editing and no signals. -/
def rawTermios : Termios :=
  { LineTty.defaultTermios with iflags := 0, lflags := 0 }

/-- A null byte between others is read. -/
theorem null_byte_is_delivered :
    ∃ state,
      nullSparingMachine.Reachable state ∧
        state.delivered = [97, 0, 98] ∧
        state.accepted = state.delivered ++ rawBytes state.items := by
  have start :
      nullSparingMachine.Reachable
        (.afterFlush { LineTty.newTty with termios := rawTermios }) :=
    .initial ⟨_, rfl, rfl⟩
  have input :=
    ((start.step (a := RawStep.input 0 0 97) ⟨not_false, rfl⟩).step
      (a := RawStep.input 0 0 0) ⟨not_false, rfl⟩).step
      (a := RawStep.input 0 0 98) ⟨not_false, rfl⟩
  have reads := fun spares =>
    input.step (a := RawStep.read 0 10 1 false) ⟨spares, rfl⟩
  have read := reads (by
    rintro ⟨size, isSize, isRaw, _⟩
    cases Option.some.inj (isSize.symm.trans (by rfl : _ = some 3))
    cases isRaw)
  exact ⟨_, read, by rfl, (raw_bytes_are_delivered read).1.1⟩

/--
A line that was read leaves its flag behind, and a null byte that raw input
puts at that place later is dropped.
-/
theorem null_byte_under_old_flag_is_lost :
    ∃ state,
      rawMachine.Reachable state ∧
        state.tty.termios.lflags = 0 ∧
        state.accepted = [97, 0] ∧
        state.delivered = [97] ∧
        state.tty.cells = [] ∧ ¬Transparent state := by
  have start : rawMachine.Reachable (.afterFlush LineTty.newTty) :=
    .initial ⟨_, rfl, rfl⟩
  have typed :=
    (start.step (a := RawStep.input termIcanon 0 97) rfl).step
      (a := RawStep.input termIcanon 0 10) rfl
  have line := typed.step (a := RawStep.read termIcanon 10 0 false) rfl
  have raw := line.step (a := RawStep.setTermios rawTermios) rfl
  have input :=
    (raw.step (a := RawStep.input 0 0 97) rfl).step
      (a := RawStep.input 0 0 0) rfl
  have read := input.step (a := RawStep.read 0 1 1 false) rfl
  refine ⟨_, read, rfl, rfl, by rfl, by rfl, ?_⟩
  intro transparent
  exact absurd transparent.holds.length_eq (by decide)

end RawTty

end GuestKernel
