import GuestKernel.Tty
import Mathlib.Data.List.Forall2

namespace GuestKernel

/-!
# Lines of a terminal in canonical mode

The edited input is a list of lines: the characters that were typed and not
erased, and what ended the line.  A reader is given the lines one after the
other, and an eof character at the start of a line as an empty read.  A flush
discards what was typed, so both start anew there.
-/

/-- A line that was typed; one without a terminator was ended by an eof. -/
structure TypedLine where
  text : List UInt8
  terminator : Option UInt8
  deriving Repr, DecidableEq

/-- What a reader gets of a line. -/
def TypedLine.bytes (line : TypedLine) : List UInt8 :=
  line.text ++ line.terminator.toList

/-- How the buffer holds a line. -/
def TypedLine.cells (line : TypedLine) : List (UInt8 × Bool) :=
  line.text.map (·, false) ++ [(line.terminator.getD 0, true)]

/-- The edited input: the whole lines, and the one that is being typed. -/
structure Typing where
  lines : List TypedLine
  current : List UInt8
  deriving Repr, DecidableEq

/-- What a typed byte means to the line editor. -/
inductive TypedKey where
  | ignored
  | data (ch : UInt8)
  | erase
  | kill
  | endOfFile
  | lineEnd (ch : UInt8)
  | signal (signal : InputSignal)
  deriving Repr, DecidableEq

/-- The meaning of a mapped byte. -/
def Tty.mappedKey (tty : Tty) (ch : UInt8) : TypedKey :=
  if ch = 0 then .data ch
  else if tty.isChar ch .erase then .erase
  else if tty.isChar ch .kill then .kill
  else if tty.isChar ch .eof then .endOfFile
  else if ch = 10 ∨ tty.isChar ch .eol then .lineEnd ch
  else
    match tty.inputSignal ch with
    | some signal => .signal signal
    | none => .data ch

/-- The meaning of a typed byte, after the mapping of CR and NL. -/
def Tty.key (tty : Tty) (iflags : TermFlags) (ch : UInt8) : TypedKey :=
  match mapInput iflags ch with
  | none => .ignored
  | some ch => tty.mappedKey ch

/-- Typing edits the current line, or ends it. -/
def Typing.type (typed : Typing) : TypedKey → Typing
  | .ignored => typed
  | .data ch => { typed with current := typed.current ++ [ch] }
  | .erase => { typed with current := typed.current.dropLast }
  | .kill => { typed with current := [] }
  | .endOfFile => ⟨typed.lines ++ [⟨typed.current, none⟩], []⟩
  | .lineEnd ch => ⟨typed.lines ++ [⟨typed.current, some ch⟩], []⟩
  | .signal _ => typed

/-- A tty, the edited input, and what was read, since the last flush. -/
structure LineTty where
  tty : Tty
  typed : Typing
  reads : List (List UInt8)

/-- Rounds of `tty_input`, reads, and changes that stay in canonical mode. -/
inductive LineStep where
  | type (iflags : TermFlags) (ch : UInt8)
  | setTermios (termios : Termios)
  | setForeground (group : Nat)
  | flush
  | read (bufsize : Nat)

namespace LineTty

/-- Nothing was typed or read since the last flush. -/
def afterFlush (tty : Tty) : LineTty where
  tty := tty
  typed := ⟨[], []⟩
  reads := []

/-- One step; a round that finds the buffer full counts no byte. -/
def run (state : LineTty) : LineStep → Option LineTty
  | .type iflags ch =>
    match canonInput state.tty iflags ch, state.tty.key iflags ch with
    | (.full, _), _ => none
    | (.counted _, tty), .signal _ =>
      if state.tty.signalFlushes then some (afterFlush tty)
      else some { state with tty := tty }
    | (.counted _, tty), key =>
      some { state with tty := tty, typed := state.typed.type key }
  | .setTermios termios =>
    if termHas termios.lflags termIcanon then
      some { state with tty := { state.tty with termios := termios } }
    else
      none
  | .setForeground group =>
    some { state with tty := { state.tty with fgGroup := group } }
  | .flush => some (afterFlush state.tty.flush)
  | .read bufsize =>
    if bufsize = 0 then
      none
    else
      (ttyRead state.tty state.tty.termios.lflags bufsize 0 false).map
        fun taken =>
          { state with tty := taken.2, reads := state.reads ++ [taken.1] }

end LineTty

/-- A tty that stays in canonical mode. -/
def lineMachine : Machine LineTty LineStep where
  initial state :=
    ∃ tty : Tty,
      tty.bufsize = 0 ∧ termHas tty.termios.lflags termIcanon = true ∧
        state = .afterFlush tty
  step state action next := state.run action = some next

/-- One line was read by its own calls; an empty one by one empty read. -/
def ReadsAs (chunks : List (List UInt8)) (line : TypedLine) : Prop :=
  if line.bytes = [] then chunks = [[]]
  else (∀ chunk ∈ chunks, chunk ≠ []) ∧ chunks.flatten = line.bytes

/-- The calls that read part of the first line still in the buffer. -/
def Opens (opened : List (List UInt8)) (pending : List TypedLine) : Prop :=
  (∀ chunk ∈ opened, chunk ≠ []) ∧
    (opened = [] ∨
      ∃ line rest remaining,
        pending = line :: rest ∧ remaining ≠ [] ∧
          line.bytes = opened.flatten ++ remaining)

/-- The cells of the lines still in the buffer. -/
def pendingCells
    (opened : List (List UInt8)) (pending : List TypedLine) :
    List (UInt8 × Bool) :=
  (pending.flatMap TypedLine.cells).drop opened.flatten.length

/--
The reads so far are, one group after the other, those of the first lines of
the edited input and a part of the next; the buffer holds the rest of it.
-/
structure Follows
    (state : LineTty)
    (groups : List (List (List UInt8)))
    (opened : List (List UInt8))
    (finished pending : List TypedLine) : Prop where
  reads : state.reads = groups.flatten ++ opened
  lines : state.typed.lines = finished ++ pending
  grouped : List.Forall₂ ReadsAs groups finished
  opens : Opens opened pending
  buffered :
    state.tty.cells =
      pendingCells opened pending ++ state.typed.current.map (·, false)

/-- The reads follow the lines that were typed. -/
def ReadsFollowLines (state : LineTty) : Prop :=
  ∃ groups opened finished pending,
    Follows state groups opened finished pending

/--
A read that takes a whole line up to its newline, while the buffer goes on with
an eof that was typed at the start of the next line.
-/
def Tty.swallowsEof (tty : Tty) (bufsize : Nat) : Prop :=
  ∃ canonSize,
    ttyCanonSize tty = some canonSize ∧ tty.buf (canonSize - 1) ≠ 0 ∧
      canonSize ≤ bufsize ∧ canonSize < tty.bufsize ∧
      tty.buf canonSize = 0 ∧ tty.bufFlag canonSize = true

/-- No read swallows an eof. -/
def SparesEof (state : LineTty) : LineStep → Prop
  | .read bufsize => ¬state.tty.swallowsEof bufsize
  | _ => True

/-- The machine with these steps only. -/
def sparingMachine : Machine LineTty LineStep :=
  lineMachine.restrict SparesEof

end GuestKernel
