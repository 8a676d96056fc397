import GuestKernel.Errno
import GuestKernel.Machine

namespace GuestKernel
open List Function

/-!
# Terminals

The input side of `fs/tty.c`.  The canonical branch of `tty_input` writes a
byte and its flag, the raw branch only a byte, and `memmove` moves both arrays
for as many places as are in use: the flags past `bufsize` are whatever was
there before.
-/

/-- `TTY_BUF_SIZE`. -/
abbrev ttyBufSize : Nat := 4096

/-- The flags of `struct termios_`. -/
abbrev TermFlags := BitVec 32

abbrev termIsig : TermFlags := 1#32 <<< 0
abbrev termIcanon : TermFlags := 1#32 <<< 1
abbrev termNoflsh : TermFlags := 1#32 <<< 7
abbrev termInlcr : TermFlags := 1#32 <<< 6
abbrev termIgncr : TermFlags := 1#32 <<< 7
abbrev termIcrnl : TermFlags := 1#32 <<< 8

/-- Whether some of the bits of a mask are set. -/
def termHas (flags mask : TermFlags) : Bool :=
  (flags &&& mask) != 0

/-- The control characters that the input side compares with. -/
inductive TermChar where
  | intr
  | quit
  | erase
  | kill
  | eof
  | susp
  | eol
  deriving Repr, DecidableEq

/-- `struct termios_`, as far as input depends on it. -/
structure Termios where
  iflags : TermFlags
  lflags : TermFlags
  cc : TermChar → UInt8
  vmin : UInt8

/-- The signals that a control character sends. -/
inductive InputSignal where
  | int
  | quit
  | tstp
  deriving Repr, DecidableEq

/-- `struct tty`, as far as input depends on it. -/
structure Tty where
  buf : Nat → UInt8
  bufFlag : Nat → Bool
  bufsize : Nat
  termios : Termios
  fgGroup : Nat

/-- The bytes in use, with their flags. -/
def Tty.cells (tty : Tty) : List (UInt8 × Bool) :=
  (List.range tty.bufsize).map fun place => (tty.buf place, tty.bufFlag place)

/-- A `char` is signed, so only a byte below 128 can equal an unsigned one. -/
def isCc (ch control : UInt8) : Bool :=
  decide (ch < 128) && ch == control

/-- Whether a byte is one of the control characters in force. -/
def Tty.isChar (tty : Tty) (ch : UInt8) (control : TermChar) : Bool :=
  isCc ch (tty.termios.cc control)

/-- What one round of an input loop did with its byte. -/
inductive InputRound where
  | full
  | counted (signal : Option InputSignal)
  deriving Repr, DecidableEq

/-- `tty_push_char`, when the buffer has room. -/
def Tty.push (tty : Tty) (ch : UInt8) (flag : Bool) : Tty :=
  { tty with
    buf := update tty.buf tty.bufsize ch
    bufFlag := update tty.bufFlag tty.bufsize flag
    bufsize := tty.bufsize + 1 }

/-- The assignment of the raw branch, when the buffer has room. -/
def Tty.pushRaw (tty : Tty) (ch : UInt8) : Tty :=
  { tty with
    buf := update tty.buf tty.bufsize ch
    bufsize := tty.bufsize + 1 }

/-- `tty->bufsize = 0`. -/
def Tty.flush (tty : Tty) : Tty :=
  { tty with bufsize := 0 }

/-- The signal that a byte stands for, if signals are generated. -/
def Tty.inputSignal (tty : Tty) (ch : UInt8) : Option InputSignal :=
  if termHas tty.termios.lflags termIsig = false then none
  else if ch = 0 then none
  else if tty.isChar ch .intr then some .int
  else if tty.isChar ch .quit then some .quit
  else if tty.isChar ch .susp then some .tstp
  else none

/-- Whether a signal that was typed discards the input. -/
def Tty.signalFlushes (tty : Tty) : Bool :=
  decide (tty.fgGroup ≠ 0) && !termHas tty.termios.lflags termNoflsh

/--
`tty_send_input_signal` for a byte that stands for a signal, which is queued
for a foreground group only.
-/
def Tty.sendInputSignal (tty : Tty) (signal : InputSignal) :
    InputRound × Tty :=
  if tty.fgGroup = 0 then
    (.counted none, tty)
  else if tty.signalFlushes then
    (.counted (some signal), tty.flush)
  else
    (.counted (some signal), tty)

/-- `tty_push_char`, which fails or waits when the buffer is full. -/
def Tty.pushChar (tty : Tty) (ch : UInt8) (flag : Bool) : InputRound × Tty :=
  if ttyBufSize ≤ tty.bufsize then (.full, tty)
  else (.counted none, tty.push ch flag)

/-- The erase loop: it does not delete past a flag. -/
def eraseLoop : Nat → Tty → Tty
  | 0, tty => tty
  | count + 1, tty =>
    if tty.bufFlag (tty.bufsize - 1) then tty
    else eraseLoop count { tty with bufsize := tty.bufsize - 1 }

/-- The mapping of CR and NL; `none` is an ignored byte. -/
def mapInput (iflags : TermFlags) (ch : UInt8) : Option UInt8 :=
  let mapped :=
    if termHas iflags termInlcr ∧ ch = 10 then 13
    else if termHas iflags termIcrnl ∧ ch = 13 then 10
    else ch
  if termHas iflags termIgncr ∧ mapped = 13 then none
  else some mapped

/-- One round of the canonical branch of `tty_input`, with mapped input. -/
def canonMapped (tty : Tty) (ch : UInt8) : InputRound × Tty :=
  if ch = 0 then
    tty.pushChar ch false
  else if tty.isChar ch .erase ∨ tty.isChar ch .kill then
    let count :=
      if tty.isChar ch .erase ∧ 0 < tty.bufsize then 1 else tty.bufsize
    (.counted none, eraseLoop count tty)
  else if tty.isChar ch .eof then
    tty.pushChar 0 true
  else if ch = 10 ∨ tty.isChar ch .eol then
    tty.pushChar ch true
  else
    match tty.inputSignal ch with
    | some signal => tty.sendInputSignal signal
    | none => tty.pushChar ch false

/-- One round of the canonical branch of `tty_input`. -/
def canonInput (tty : Tty) (iflags : TermFlags) (ch : UInt8) :
    InputRound × Tty :=
  match mapInput iflags ch with
  | none => (.counted none, tty)
  | some ch => canonMapped tty ch

/-- One round of the raw branch of `tty_input`. -/
def rawInput (tty : Tty) (ch : UInt8) : InputRound × Tty :=
  match tty.inputSignal ch with
  | some signal => tty.sendInputSignal signal
  | none =>
    if ttyBufSize ≤ tty.bufsize then (.full, tty)
    else (.counted none, tty.pushRaw ch)

/-- One round of the branch that `lflags` chose when the call began. -/
def inputRound
    (tty : Tty) (lflags iflags : TermFlags) (ch : UInt8) : InputRound × Tty :=
  if termHas lflags termIcanon then canonInput tty iflags ch
  else rawInput tty ch

/-- `tty_read_into_buf`. -/
def readIntoBuf (tty : Tty) (size : Nat) : List UInt8 × Tty :=
  ((List.range size).map tty.buf,
    { tty with
      buf := fun place =>
        if place < tty.bufsize - size then tty.buf (place + size)
        else tty.buf place
      bufFlag := fun place =>
        if place < tty.bufsize - size then tty.bufFlag (place + size)
        else tty.bufFlag place
      bufsize := tty.bufsize - size })

/-- `tty_canon_size`. -/
def ttyCanonSize (tty : Tty) : Option Nat :=
  ((List.range tty.bufsize).find? tty.bufFlag).map (· + 1)

/-- The bytes that a canonical read takes; `none` if there is no whole line. -/
def canonReadSize (tty : Tty) (bufsize : Nat) : Option Nat :=
  (ttyCanonSize tty).map fun canonSize =>
    -- a null byte means that eof was typed
    min (min bufsize
      (if tty.buf (canonSize - 1) = 0 then canonSize - 1 else canonSize))
      tty.bufsize

/-- The bytes that a raw read takes; `none` if it has to wait for more. -/
def rawReadSize (tty : Tty) (bufsize vmin : Nat) (timedOut : Bool) :
    Option Nat :=
  if tty.bufsize < vmin ∧ ¬(timedOut = true ∧ 0 < tty.bufsize) then none
  else some (min bufsize tty.bufsize)

/-- Whether the buffer starts with an eof character. -/
def Tty.startsWithEof (tty : Tty) : Bool :=
  decide (0 < tty.bufsize) && tty.buf 0 == 0 && tty.bufFlag 0

/-- The end of `tty_read`, which removes an eof so the next read can succeed. -/
def ttyTake (tty : Tty) (size : Nat) : List UInt8 × Tty :=
  let (data, tty) := readIntoBuf tty size
  if tty.startsWithEof then (data, (readIntoBuf tty 1).2) else (data, tty)

/--
`tty_read` with a positive size on a tty that is not hung up, by a task that is
not in the background; `none` is a read that waits or returns an error.
-/
def ttyRead
    (tty : Tty) (lflags : TermFlags) (bufsize vmin : Nat) (timedOut : Bool) :
    Option (List UInt8 × Tty) :=
  (if termHas lflags termIcanon then canonReadSize tty bufsize
    else rawReadSize tty bufsize vmin timedOut).map (ttyTake tty)

namespace Tty

@[simp]
theorem length_cells
    (tty : Tty) :
    tty.cells.length = tty.bufsize := by
  simp [cells]

theorem getElem?_cells
    (tty : Tty)
    (place : Nat) :
    tty.cells[place]? =
      if place < tty.bufsize then
        some (tty.buf place, tty.bufFlag place)
      else
        none := by
  split
  case isTrue inside =>
    rw [cells, List.getElem?_map, List.getElem?_range inside]
    rfl
  case isFalse outside =>
    rw [List.getElem?_eq_none_iff, length_cells]
    exact Nat.not_lt.mp outside

theorem cells_push
    (tty : Tty)
    (ch : UInt8)
    (flag : Bool) :
    (tty.push ch flag).cells = tty.cells ++ [(ch, flag)] := by
  simp only [cells, push, range_succ, map_append, map_cons,
    map_nil, update_self]
  congr 1
  apply map_congr_left
  intro place isBefore
  have notLast := Nat.ne_of_lt (mem_range.mp isBefore)
  rw [update_of_ne notLast, update_of_ne notLast]

theorem cells_pushRaw
    (tty : Tty)
    (ch : UInt8) :
    (tty.pushRaw ch).cells = tty.cells ++ [(ch, tty.bufFlag tty.bufsize)] := by
  simp only [cells, pushRaw, range_succ, map_append, map_cons,
    map_nil, update_self]
  congr 1
  apply map_congr_left
  intro place isBefore
  rw [update_of_ne (Nat.ne_of_lt (mem_range.mp isBefore))]

theorem cells_shrink
    (tty : Tty) :
    ({ tty with bufsize := tty.bufsize - 1 } : Tty).cells =
      tty.cells.dropLast := by
  cases size : tty.bufsize with
  | zero => simp [cells, size]
  | succ before =>
    simp [cells, size, range_succ]

variable {tty : Tty}

theorem readIntoBuf_data
    {size : Nat}
    (fits : size ≤ tty.bufsize) :
    (readIntoBuf tty size).1 = (tty.cells.take size).map Prod.fst := by
  simp only [readIntoBuf, cells, ← map_take, take_range,
    Nat.min_eq_left fits, List.map_map]
  rfl

theorem cells_readIntoBuf
    (tty : Tty)
    (size : Nat) :
    (readIntoBuf tty size).2.cells = tty.cells.drop size := by
  apply List.ext_getElem?
  intro place
  rw [List.getElem?_drop, getElem?_cells, getElem?_cells]
  simp only [readIntoBuf]
  split
  case isTrue inside =>
    rw [if_pos (by omega), Nat.add_comm]
  case isFalse outside =>
    rw [if_neg (by omega)]

theorem startsWithEof_iff :
    tty.startsWithEof = true ↔ tty.cells.head? = some (0, true) := by
  rw [List.head?_eq_getElem?, getElem?_cells, startsWithEof]
  split
  case isTrue positive => simp [positive]
  case isFalse empty => simp [empty]

/-- The erase loop deletes cells up to a flag, at most as many as it may. -/
theorem cells_eraseLoop
    {count : Nat}
    (line : List (UInt8 × Bool))
    (rest : List (UInt8 × Bool))
    (split : tty.cells = rest ++ line)
    (noFlag : ∀ cell ∈ line, cell.2 = false)
    (isFlag : ∀ cell, rest.getLast? = some cell → cell.2 = true)
    (enough : count ≤ tty.bufsize) :
    (eraseLoop count tty).cells = rest ++ line.take (line.length - count) := by
  induction count generalizing tty line with
  | zero =>
    rw [eraseLoop, split, Nat.sub_zero, take_length]
  | succ count inductionHypothesis =>
    have positive : 0 < tty.bufsize := Nat.lt_of_lt_of_le count.succ_pos enough
    have lastCell :
        tty.cells.getLast? =
          some (tty.buf (tty.bufsize - 1), tty.bufFlag (tty.bufsize - 1)) := by
      rw [List.getLast?_eq_getElem?, length_cells, getElem?_cells,
        if_pos (Nat.sub_lt positive Nat.one_pos)]
    rw [split] at lastCell
    rw [eraseLoop]
    rcases eq_nil_or_concat line with rfl | ⟨front, last, rfl⟩
    · rw [append_nil] at lastCell
      rw [if_pos (isFlag _ lastCell), split, take_nil]
    · rw [concat_eq_append, ← append_assoc,
        List.getLast?_concat] at lastCell
      have isLast := Option.some.inj lastCell
      have unflagged : tty.bufFlag (tty.bufsize - 1) = false :=
        (congrArg Prod.snd isLast).symm.trans
          (noFlag last (by simp))
      rw [unflagged, if_neg Bool.false_ne_true]
      have shorter :
          ({ tty with bufsize := tty.bufsize - 1 } : Tty).cells =
            rest ++ front := by
        rw [cells_shrink, split, concat_eq_append, ← append_assoc,
          dropLast_concat]
      rw [inductionHypothesis front shorter
        (fun cell inFront => noFlag cell (by simp [inFront]))
        (Nat.le_sub_one_of_lt enough)]
      rw [concat_eq_append, length_append, length_singleton,
        Nat.add_sub_add_right]
      rw [take_append_of_le_length (Nat.sub_le _ _)]

end Tty

end GuestKernel
