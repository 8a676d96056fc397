import GuestKernel.TtyRaw
import Mathlib.Algebra.Group.Nat.Defs

namespace GuestKernel
open List Option

/-!
# Writes to the other end of a pty

`tty_write` processes the output and hands it to `tty_input` of the other end,
which takes it byte by byte and may wait for room between two bytes.  Whenever
it has neither lock anything may happen to both ends.  The echo, which goes the
other way, is left out.
-/

abbrev termOpost : TermFlags := 1#32 <<< 0
abbrev termOnlcr : TermFlags := 1#32 <<< 2
abbrev termOcrnl : TermFlags := 1#32 <<< 3
abbrev termOnlret : TermFlags := 1#32 <<< 5

/-- What one round of the loop of `tty_write` puts into `postbuf`. -/
def outputByte (oflags : TermFlags) (ch : UInt8) : List UInt8 :=
  if ch = 13 ∧ termHas oflags termOnlret then []
  else if ch = 13 ∧ termHas oflags termOcrnl then [10]
  else if ch = 10 ∧ termHas oflags termOnlcr then [13, 10]
  else [ch]

/-- The output-processed form of some bytes. -/
def outputProcessed (oflags : TermFlags) (buf : List UInt8) : List UInt8 :=
  if termHas oflags termOpost then buf.flatMap (outputByte oflags) else buf

/-- The end that is written to, as far as `tty_write` looks at it. -/
structure PtyNear where
  isMaster : Bool
  hungUp : Bool
  oflags : TermFlags

/-- The other end. -/
structure PtyFar where
  tty : Tty
  everOpened : Bool
  hungUp : Bool
  refcount : Nat

/-- `pty_is_half_closed_master`; `none` if the other end is `NULL`. -/
def PtyNear.isHalfClosedMaster (near : PtyNear) (far : Option PtyFar) :
    Option Bool :=
  if near.isMaster then
    far.map fun slave =>
      slave.everOpened && (slave.refcount == 1 || slave.hungUp)
  else
    some false

/-- Put a byte into a buffer that has room. -/
def Tty.put (tty : Tty) : TtyItem → Tty
  | .raw ch => tty.pushRaw ch
  | .typed ch flag => tty.push ch flag

/-- What waits for room, once the branch for a byte is chosen. -/
def waitingItem
    (tty : Tty) (lflags iflags : TermFlags) (ch : UInt8) : TtyItem :=
  if termHas lflags termIcanon then
    match tty.key iflags ch with
    | .data ch => .typed ch false
    | .endOfFile => .typed 0 true
    | .lineEnd ch => .typed ch true
    -- no other key needs room
    | _ => .typed ch false
  else
    .raw ch

/-- What `tty_write` returns below zero. -/
inductive WriteError where
  | code (code : Errno)
  /-- A count of bytes that is negative as an `int`. -/
  | count (done : Nat)
  deriving Repr, DecidableEq

/-- Where a call of `tty_write` is. -/
inductive WritePhase where
  | called
  /-- The output is processed, and the lock of this end released. -/
  | processed
  /-- In `tty_input`, with the lock of the other end. -/
  | inputting (lflags iflags : TermFlags) (rest : List UInt8) (done : Nat)
  /-- In `wait_for`, with a byte for which there was no room. -/
  | waiting
      (item : TtyItem)
      (ch : UInt8)
      (lflags iflags : TermFlags)
      (rest : List UInt8)
      (done : Nat)
  | returned (result : Except WriteError Nat)

/-- A call of `tty_write`, and the bytes that the other end took from it. -/
structure PtyWrite where
  near : PtyNear
  /-- `pty.other`, or `NULL`. -/
  far : Option PtyFar
  buf : List UInt8
  nonblock : Bool
  /-- The copy that the call made. -/
  oflags : TermFlags
  phase : WritePhase
  received : List UInt8

/-- What happens during a call. -/
inductive WriteStep where
  /-- The call looks at its end, and processes the output. -/
  | checks
  /-- `tty_input` begins. -/
  | locks
  /-- It takes a byte. -/
  | takes
  /-- There is no room, and the call waits. -/
  | waits
  /-- There is room, and the byte that waited is taken. -/
  | pushes
  /-- A signal ends the wait. -/
  | interrupted
  /-- There is no room, and the call does not block. -/
  | givesUp
  /-- All is taken. -/
  | ends
  /-- Other tasks, while the call has no lock. -/
  | others (near : PtyNear) (far : Option PtyFar)

/-- What `tty_input` returns: how many bytes it took, or an error if none. -/
def inputReturns (done : Nat) (error : Option Errno) : Except Errno Nat :=
  if 0 < done then
    .ok done
  else
    match error with
    | none => .ok 0
    | some code => .error code

/-- `pty_write` converts that to an `int`. -/
def ptyWriteReturns : Except Errno Nat → Except WriteError Nat
  | .ok done =>
    if done % 2 ^ 32 < 2 ^ 31 then .ok (done % 2 ^ 32) else .error (.count done)
  | .error code => .error (.code code)

namespace PtyWrite

/-- The return from `tty_input`, `pty_write` and `tty_write`. -/
def finish (state : PtyWrite) (done : Nat) (error : Option Errno) : PtyWrite :=
  { state with
    phase :=
      .returned
        ((ptyWriteReturns (inputReturns done error)).map
          fun _ => state.buf.length) }

/-- One step; `none` where it cannot happen, or where `pty.other` is `NULL`. -/
def run (state : PtyWrite) : WriteStep → Option PtyWrite
  | .checks =>
    match state.phase with
    | .called =>
      if state.near.hungUp then
        some { state with phase := .returned (.error (.code .io)) }
      else do
        let halfClosed ← state.near.isHalfClosedMaster state.far
        if halfClosed then
          some { state with phase := .returned (.error (.code .io)) }
        else
          some
            { state with
              oflags := state.near.oflags
              phase := .processed }
    | _ => none
  | .locks =>
    match state.phase with
    | .processed => do
        let far ← state.far
        some
          { state with
            phase :=
              .inputting far.tty.termios.lflags far.tty.termios.iflags
                (outputProcessed state.oflags state.buf) 0 }
    | _ => none
  | .takes =>
    match state.phase with
    | .inputting lflags iflags (ch :: rest) done => do
        let far ← state.far
        match inputRound far.tty lflags iflags ch with
        | (.full, _) => none
        | (.counted _, tty) =>
          some
            { state with
              far := some { far with tty := tty }
              phase := .inputting lflags iflags rest (done + 1)
              received := state.received ++ [ch] }
    | _ => none
  | .waits =>
    match state.phase with
    | .inputting lflags iflags (ch :: rest) done => do
        let far ← state.far
        let item := waitingItem far.tty lflags iflags ch
        match inputRound far.tty lflags iflags ch with
        | (.full, _) =>
          if state.nonblock then
            none
          else
            some
              { state with
                phase := .waiting item ch lflags iflags rest done }
        | (.counted _, _) => none
    | _ => none
  | .pushes =>
    match state.phase with
    | .waiting item ch lflags iflags rest done => do
        let far ← state.far
        if ttyBufSize ≤ far.tty.bufsize then
          none
        else
          some
            { state with
              far := some { far with tty := far.tty.put item }
              phase := .inputting lflags iflags rest (done + 1)
              received := state.received ++ [ch] }
    | _ => none
  | .interrupted =>
    match state.phase with
    | .waiting _ _ _ _ _ done => some (state.finish done (some .intr))
    | _ => none
  | .givesUp =>
    match state.phase with
    | .inputting lflags iflags (ch :: _) done => do
        let far ← state.far
        match inputRound far.tty lflags iflags ch with
        | (.full, _) =>
          if state.nonblock then
            some (state.finish done (some .again))
          else
            none
        | (.counted _, _) => none
    | _ => none
  | .ends =>
    match state.phase with
    | .inputting _ _ [] done => some (state.finish done none)
    | _ => none
  | .others near far =>
    match state.phase with
    | .inputting .. => none
    | _ => some { state with near := near, far := far }

end PtyWrite

/-- All runs of a call, on any two ends. -/
def ptyWriteMachine : Machine PtyWrite WriteStep where
  initial state := state.phase = .called ∧ state.received = []
  step state action next := state.run action = some next

/--
A call that has returned a number of bytes has given their output-processed form
to the other end, and one that has failed has given it nothing.
-/
def PtyWrite.Honest (state : PtyWrite) : Prop :=
  ∀ result,
    state.phase = .returned result →
    (∀ count,
        result = .ok count →
        state.received =
          outputProcessed state.oflags (state.buf.take count)) ∧
      ∀ code, result = .error code → state.received = []

/--
The call is not cut short when the other end has taken some of its bytes; and
the number of all of them is not negative as an `int`.
-/
def PtyWrite.NotCutShort (state : PtyWrite) : WriteStep → Prop
  | .givesUp => state.received = []
  | .interrupted => state.received = []
  | .ends => state.received.length % 2 ^ 32 < 2 ^ 31
  | _ => True

namespace PtyWrite

variable
  {state next : PtyWrite}
  {action : WriteStep}

/-- All that a step can do. -/
inductive Moves (state : PtyWrite) : WriteStep → PtyWrite → Prop
  | refused
      (isCalled : state.phase = .called) :
      Moves state .checks { state with phase := .returned (.error (.code .io)) }
  | checked
      (isCalled : state.phase = .called) :
      Moves state .checks
        { state with oflags := state.near.oflags, phase := .processed }
  | locks
      (lflags iflags : TermFlags)
      (isProcessed : state.phase = .processed) :
      Moves state .locks
        { state with
          phase :=
            .inputting lflags iflags
              (outputProcessed state.oflags state.buf) 0 }
  | takes
      {lflags iflags : TermFlags}
      {ch : UInt8}
      {rest : List UInt8}
      {done : Nat}
      (far : PtyFar)
      (isInput : state.phase = .inputting lflags iflags (ch :: rest) done) :
      Moves state .takes
        { state with
          far := some far
          phase := .inputting lflags iflags rest (done + 1)
          received := state.received ++ [ch] }
  | waits
      {lflags iflags : TermFlags}
      {ch : UInt8}
      {rest : List UInt8}
      {done : Nat}
      (item : TtyItem)
      (isInput : state.phase = .inputting lflags iflags (ch :: rest) done) :
      Moves state .waits
        { state with phase := .waiting item ch lflags iflags rest done }
  | pushes
      {item : TtyItem}
      {lflags iflags : TermFlags}
      {ch : UInt8}
      {rest : List UInt8}
      {done : Nat}
      (far : PtyFar)
      (isWaiting :
        state.phase = .waiting item ch lflags iflags rest done) :
      Moves state .pushes
        { state with
          far := some far
          phase := .inputting lflags iflags rest (done + 1)
          received := state.received ++ [ch] }
  | interrupted
      {item : TtyItem}
      {lflags iflags : TermFlags}
      {ch : UInt8}
      {rest : List UInt8}
      {done : Nat}
      (isWaiting :
        state.phase = .waiting item ch lflags iflags rest done) :
      Moves state .interrupted (state.finish done (some .intr))
  | givesUp
      {lflags iflags : TermFlags}
      {ch : UInt8}
      {rest : List UInt8}
      {done : Nat}
      (isInput : state.phase = .inputting lflags iflags (ch :: rest) done) :
      Moves state .givesUp (state.finish done (some .again))
  | ends
      {lflags iflags : TermFlags}
      {done : Nat}
      (isInput : state.phase = .inputting lflags iflags [] done) :
      Moves state .ends (state.finish done none)
  | others
      (near : PtyNear)
      (far : Option PtyFar) :
      Moves state (.others near far) { state with near := near, far := far }

/-- A step does one of these. -/
theorem moves_of_run
    (ran : state.run action = some next) :
    Moves state action next := by
  cases action with
  | checks =>
    simp only [run] at ran
    split at ran
    case h_2 => cases ran
    case h_1 isCalled =>
      split at ran
      · cases ran
        exact .refused isCalled
      obtain ⟨halfClosed, _, ran⟩ := bind_eq_some_iff.mp ran
      split at ran <;> cases ran
      · exact .refused isCalled
      · exact .checked isCalled
  | locks =>
    simp only [run] at ran
    split at ran
    case h_2 => cases ran
    case h_1 isProcessed =>
      obtain ⟨far, _, ran⟩ := bind_eq_some_iff.mp ran
      cases ran
      exact .locks _ _ isProcessed
  | takes =>
    simp only [run] at ran
    split at ran
    case h_2 => cases ran
    case h_1 isInput =>
      obtain ⟨far, _, ran⟩ := bind_eq_some_iff.mp ran
      split at ran <;> cases ran
      exact .takes _ isInput
  | waits =>
    simp only [run] at ran
    split at ran
    case h_2 => cases ran
    case h_1 isInput =>
      obtain ⟨far, _, ran⟩ := bind_eq_some_iff.mp ran
      split at ran
      · split at ran <;> cases ran
        exact .waits _ isInput
      · cases ran
  | pushes =>
    simp only [run] at ran
    split at ran
    case h_2 => cases ran
    case h_1 isWaiting =>
      obtain ⟨far, _, ran⟩ := bind_eq_some_iff.mp ran
      split at ran <;> cases ran
      exact .pushes _ isWaiting
  | interrupted =>
    simp only [run] at ran
    split at ran <;> cases ran
    next isWaiting => exact .interrupted isWaiting
  | givesUp =>
    simp only [run] at ran
    split at ran
    case h_2 => cases ran
    case h_1 isInput =>
      obtain ⟨far, _, ran⟩ := bind_eq_some_iff.mp ran
      split at ran
      · split at ran <;> cases ran
        exact .givesUp isInput
      · cases ran
  | ends =>
    simp only [run] at ran
    split at ran <;> cases ran
    next isInput => exact .ends isInput
  | others near far =>
    simp only [run] at ran
    split at ran <;> cases ran
    exact .others near far

/-- What was taken and what is left are the output. -/
def Law (state : PtyWrite) : Prop :=
  match state.phase with
  | .called => state.received = []
  | .processed => state.received = []
  | .inputting _ _ rest done =>
    state.received ++ rest = outputProcessed state.oflags state.buf ∧
      done = state.received.length
  | .waiting _ ch _ _ rest done =>
    state.received ++ ch :: rest =
        outputProcessed state.oflags state.buf ∧
      done = state.received.length
  | .returned _ => True

private theorem taken
    {ch : UInt8}
    {rest output received : List UInt8}
    {done : Nat}
    (law : received ++ ch :: rest = output ∧ done = received.length) :
    (received ++ [ch]) ++ rest = output ∧
      done + 1 = (received ++ [ch]).length := by
  obtain ⟨whole, counted⟩ := law
  rw [append_assoc, length_append, counted]
  exact ⟨whole, rfl⟩

theorem Law.step
    (law : state.Law)
    (moves : Moves state action next) :
    next.Law := by
  unfold Law at law
  cases moves with
  | refused isCalled | interrupted isWaiting | givesUp isInput | ends isInput =>
    exact trivial
  | checked isCalled =>
    rw [isCalled] at law
    exact law
  | locks lflags iflags isProcessed =>
    rw [isProcessed] at law
    refine ⟨?_, ?_⟩
    · show state.received ++ _ = _
      rw [law, nil_append]
    · show 0 = state.received.length
      rw [law, length_nil]
  | takes far isInput =>
    rw [isInput] at law
    exact taken law
  | waits item isInput =>
    rw [isInput] at law
    exact law
  | pushes far isWaiting =>
    rw [isWaiting] at law
    exact taken law
  | others near far => exact law

/-- A call that returns before all is taken. -/
private theorem honest_cut_iff
    {ch : UInt8}
    {rest : List UInt8}
    {done : Nat}
    {code : Errno}
    (law :
      state.received ++ ch :: rest =
          outputProcessed state.oflags state.buf ∧
        done = state.received.length) :
    (state.finish done (some code)).Honest ↔ state.received = [] := by
  obtain ⟨whole, rfl⟩ := law
  by_cases nothing : state.received = []
  · refine iff_of_true ?_ nothing
    rintro result ⟨⟩
    refine ⟨fun count isOk => ?_, fun _ _ => nothing⟩
    rw [nothing] at isOk
    cases isOk
  · refine iff_of_false (fun honest => ?_) nothing
    have positive : 0 < state.received.length :=
      length_pos_iff.mpr nothing
    have isCount :
        inputReturns state.received.length (some code) =
          .ok state.received.length :=
      if_pos positive
    by_cases isInt : state.received.length % 2 ^ 32 < 2 ^ 31
    · have all :=
        (honest (.ok state.buf.length)
          (by rw [finish, isCount, ptyWriteReturns, if_pos isInt]; rfl)).1
          state.buf.length rfl
      change state.received =
        outputProcessed state.oflags (state.buf.take state.buf.length) at all
      rw [take_length, ← whole] at all
      exact cons_ne_nil ch rest (self_eq_append_right.mp all)
    · exact nothing
        ((honest (.error (.count state.received.length))
          (by rw [finish, isCount, ptyWriteReturns, if_neg isInt]; rfl)).2
          _ rfl)

/-- A call that returns when all is taken. -/
private theorem honest_end_iff
    {done : Nat}
    (counted : done = state.received.length)
    (whole : state.received = outputProcessed state.oflags state.buf) :
    (state.finish done none).Honest ↔
      state.received.length % 2 ^ 32 < 2 ^ 31 := by
  have isCount : inputReturns done none = .ok done := by
    unfold inputReturns
    split
    · rfl
    case isFalse notPositive => rw [Nat.eq_zero_of_not_pos notPositive]
  subst counted
  constructor
  · intro honest
    by_contra negative
    have nothing :=
      (honest (.error (.count state.received.length))
        (by rw [finish, isCount, ptyWriteReturns, if_neg negative]; rfl)).2
        _ rfl
    change state.received = [] at nothing
    rw [nothing] at negative
    exact negative (by decide)
  · intro isInt result isReturned
    rw [finish, isCount, ptyWriteReturns, if_pos isInt] at isReturned
    cases isReturned
    refine ⟨?_, nofun⟩
    rintro count ⟨⟩
    show state.received =
      outputProcessed state.oflags (state.buf.take state.buf.length)
    rw [take_length]
    exact whole

theorem honest_step_iff
    (law : state.Law)
    (honest : state.Honest)
    (moves : Moves state action next) :
    next.Honest ↔ state.NotCutShort action := by
  unfold Law at law
  cases moves with
  | refused isCalled =>
    rw [isCalled] at law
    refine iff_of_true ?_ trivial
    rintro result ⟨⟩
    exact ⟨nofun, fun _ _ => law⟩
  | checked isCalled | locks lflags iflags isProcessed | takes far isInput
  | waits item isInput | pushes far isWaiting => exact iff_of_true nofun trivial
  | interrupted isWaiting =>
    rw [isWaiting] at law
    exact honest_cut_iff law
  | givesUp isInput =>
    rw [isInput] at law
    exact honest_cut_iff law
  | ends isInput =>
    rw [isInput] at law
    obtain ⟨whole, counted⟩ := law
    rw [append_nil] at whole
    exact honest_end_iff counted whole
  | others near far => exact iff_of_true honest trivial

theorem law_of_reachable
    (reachable : ptyWriteMachine.Reachable state) :
    state.Law := by
  refine Machine.Reachable.invariant
    (motive := fun state => state.Law) ?_ ?_ reachable
  · rintro start ⟨isCalled, nothing⟩
    unfold Law
    rw [isCalled]
    exact nothing
  · exact fun law ran => law.step (moves_of_run ran)

/--
Whatever happens during a call, if it is not cut short when some of its bytes
were taken, and their number is an `int`, it returns what the other end has
received; and otherwise it does not.
-/
theorem tty_write_honest_iff
    (state : PtyWrite) :
    ((ptyWriteMachine.restrict NotCutShort).Reachable state →
        state.Honest) ∧
      ∀ (action : WriteStep) (next : PtyWrite),
        ptyWriteMachine.Reachable state →
        state.Honest →
        state.run action = some next →
        (next.Honest ↔ state.NotCutShort action) := by
  constructor
  · intro reachable
    have lawful : state.Law ∧ state.Honest := by
      refine Machine.Reachable.invariant
        (motive := fun state => state.Law ∧ state.Honest) ?_ ?_ reachable
      · rintro start ⟨isCalled, nothing⟩
        refine ⟨law_of_reachable (.initial ⟨isCalled, nothing⟩), ?_⟩
        intro result isReturned
        cases isCalled.symm.trans isReturned
      · rintro before action after ⟨law, honest⟩ ⟨notCut, ran⟩
        have moves := moves_of_run ran
        exact ⟨law.step moves, (honest_step_iff law honest moves).mpr notCut⟩
    exact lawful.2
  · intro action next reachable honest ran
    exact honest_step_iff (law_of_reachable reachable) honest
      (moves_of_run ran)

/-- Another end in raw mode with this much in its buffer. -/
def rawFar (bufsize : Nat) : PtyFar where
  tty :=
    { LineTty.newTty with
      bufsize := bufsize
      termios := RawTty.rawTermios }
  everOpened := true
  hungUp := false
  refcount := 2

/-- A write of two bytes that does not block, with NL mapped to CR-NL. -/
def writeTwo (buf : List UInt8) (bufsize : Nat) : PtyWrite where
  near := ⟨false, false, termOpost ||| termOnlcr⟩
  far := some (rawFar bufsize)
  buf := buf
  nonblock := true
  oflags := 0
  phase := .called
  received := []

/-- A newline takes two places. -/
theorem newline_is_received :
    ∃ state : PtyWrite,
      state.phase = .returned (.ok 2) ∧
        state.received = [97, 13, 10] ∧
        state.received = outputProcessed state.oflags [97, 10] := by
  have start :
      (ptyWriteMachine.restrict NotCutShort).Reachable
        (writeTwo [97, 10] 0) :=
    .initial ⟨rfl, rfl⟩
  have input :=
    (start.step (a := WriteStep.checks) ⟨trivial, rfl⟩).step
      (a := WriteStep.locks) ⟨trivial, rfl⟩
  have taken :=
    ((input.step (a := WriteStep.takes) ⟨trivial, rfl⟩).step
      (a := WriteStep.takes) ⟨trivial, rfl⟩).step
      (a := WriteStep.takes) ⟨trivial, rfl⟩
  have ended :=
    taken.step (a := WriteStep.ends)
      ⟨show 3 % 2 ^ 32 < 2 ^ 31 by decide, rfl⟩
  exact ⟨_, rfl, rfl, ((tty_write_honest_iff _).1 ended _ rfl).1 2 rfl⟩

/-- With one place left the second byte is lost, and both are reported. -/
theorem full_buffer_loses_a_byte :
    ∃ state : PtyWrite,
      ptyWriteMachine.Reachable state ∧
        state.buf = [97, 98] ∧
        state.phase = .returned (.ok 2) ∧
        state.received = [97] ∧ ¬ state.Honest := by
  have start :
      ptyWriteMachine.Reachable (writeTwo [97, 98] 4095) :=
    .initial ⟨rfl, rfl⟩
  have input :=
    (start.step (a := WriteStep.checks) rfl).step (a := WriteStep.locks) rfl
  have taken := input.step (a := WriteStep.takes) rfl
  have cut := taken.step (a := WriteStep.givesUp) rfl
  refine ⟨_, cut, rfl, rfl, rfl, fun honest => ?_⟩
  have all := (honest _ rfl).1 2 rfl
  exact absurd all (by decide)

end PtyWrite

end GuestKernel
