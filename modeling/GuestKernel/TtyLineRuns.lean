import GuestKernel.TtyLines
import Mathlib.Data.List.Count

namespace GuestKernel
open List Option Function

/-!
# Reads of a terminal in canonical mode

The round of a typed byte changes the current line or appends a line, and a read
takes a part of the first line in the buffer.
-/

/-- What a round does, by the meaning of its byte. -/
def Tty.typeKey (tty : Tty) : TypedKey → InputRound × Tty
  | .ignored => (.counted none, tty)
  | .data ch => tty.pushChar ch false
  | .erase =>
    (.counted none,
      eraseLoop (if 0 < tty.bufsize then 1 else tty.bufsize) tty)
  | .kill => (.counted none, eraseLoop tty.bufsize tty)
  | .endOfFile => tty.pushChar 0 true
  | .lineEnd ch => tty.pushChar ch true
  | .signal signal => tty.sendInputSignal signal

/-- The round follows the meaning of its byte. -/
theorem canonInput_eq
    (tty : Tty)
    (iflags : TermFlags)
    (ch : UInt8) :
    canonInput tty iflags ch = tty.typeKey (tty.key iflags ch) := by
  unfold canonInput Tty.key
  cases mapInput iflags ch with
  | none => rfl
  | some mapped =>
    dsimp only
    unfold canonMapped Tty.mappedKey
    by_cases isNull : mapped = 0
    · rw [if_pos isNull, if_pos isNull]
      rfl
    rw [if_neg isNull, if_neg isNull]
    by_cases isErase : tty.isChar mapped .erase = true
    · rw [if_pos (.inl isErase), if_pos isErase]
      simp only [isErase, true_and]
      rfl
    rw [if_neg isErase]
    by_cases isKill : tty.isChar mapped .kill = true
    · rw [if_pos (.inr isKill), if_pos isKill]
      dsimp only
      rw [if_neg fun both => isErase both.1]
      rfl
    rw [if_neg (not_or.mpr ⟨isErase, isKill⟩), if_neg isKill]
    by_cases isEof : tty.isChar mapped .eof = true
    · rw [if_pos isEof, if_pos isEof]
      rfl
    rw [if_neg isEof, if_neg isEof]
    by_cases isEnd : mapped = 10 ∨ tty.isChar mapped .eol = true
    · rw [if_pos isEnd, if_pos isEnd]
      rfl
    rw [if_neg isEnd, if_neg isEnd]
    cases tty.inputSignal mapped with
    | none => rfl
    | some signal => rfl

variable {opened : List (List UInt8)} {tty : Tty} {state : LineTty}
  {bufsize : Nat} {line : TypedLine} {rest pending finished : List TypedLine}
  {groups : List (List (List UInt8))} {taken : List UInt8 × Tty}
  {more : List (UInt8 × Bool)}

/-- A null byte does not end a line. -/
theorem Tty.ne_zero_of_lineEnd
    {iflags : TermFlags}
    {ch terminator : UInt8}
    (isEnd : tty.key iflags ch = .lineEnd terminator) :
    terminator ≠ 0 := by
  unfold key at isEnd
  split at isEnd
  · cases isEnd
  case h_2 mapped _ =>
    unfold mappedKey at isEnd
    by_cases isNull : mapped = 0
    · rw [if_pos isNull] at isEnd
      cases isEnd
    rw [if_neg isNull] at isEnd
    split at isEnd
    · cases isEnd
    split at isEnd
    · cases isEnd
    split at isEnd
    · cases isEnd
    split at isEnd
    · cases isEnd
      exact isNull
    split at isEnd
    · cases isEnd
    · cases isEnd

theorem Tty.pushChar_counted
    {next : Tty}
    {ch : UInt8}
    {flag : Bool}
    {signal : Option InputSignal}
    (pushed : tty.pushChar ch flag = (.counted signal, next)) :
    next.cells = tty.cells ++ [(ch, flag)] ∧
      next.termios = tty.termios := by
  unfold pushChar at pushed
  split at pushed
  · cases pushed
  · cases pushed
    exact ⟨cells_push tty ch flag, rfl⟩

namespace TypedLine

@[simp]
theorem length_cells
    (line : TypedLine) :
    line.cells.length = line.text.length + 1 := by
  simp [cells]

/-- The bytes in the cells are those of the line, but for an eof. -/
theorem bytes_take
    {line : TypedLine}
    {size : Nat}
    (fits : size ≤ line.bytes.length) :
    (line.cells.take size).map Prod.fst = line.bytes.take size := by
  obtain ⟨text, terminator⟩ := line
  cases terminator with
  | none =>
    simp only [bytes, toList_none, append_nil] at fits
    simp only [bytes, cells, toList_none, append_nil,
      map_take, map_append, List.map_map, map_cons,
      map_nil]
    rw [take_append_of_le_length (by simpa using fits)]
    simp [comp_def]
  | some ch =>
    simp [bytes, cells, comp_def]

theorem countP_cells
    (line : TypedLine) :
    line.cells.countP (·.2) = 1 := by
  simp [cells, countP_append, countP_map, comp_def]

end TypedLine

theorem countP_flatMap_cells
    (lines : List TypedLine) :
    (lines.flatMap TypedLine.cells).countP (·.2) = lines.length := by
  induction lines with
  | nil => rfl
  | cons line rest inductionHypothesis =>
    rw [flatMap_cons, countP_append, line.countP_cells,
      inductionHypothesis, length_cons, Nat.add_comm]

theorem countP_current
    (current : List UInt8) :
    (current.map fun ch => (ch, false)).countP (·.2) = 0 := by
  simp [countP_map, comp_def]

/-- The rest of the first line in the buffer. -/
structure Front
    (opened : List (List UInt8))
    (line : TypedLine)
    (rest : List TypedLine)
    (front : TypedLine) : Prop where
  terminator : front.terminator = line.terminator
  bytes : line.bytes = opened.flatten ++ front.bytes
  cells :
    pendingCells opened (line :: rest) =
      front.cells ++ rest.flatMap TypedLine.cells
  opened : front.bytes = [] → opened = []

/-- A line that is read in part leaves a line to be read. -/
theorem Opens.front
    (opens : Opens opened (line :: rest)) :
    ∃ front, Front opened line rest front := by
  have inside : opened.flatten.length ≤ line.text.length := by
    rcases opens.2 with rfl | ⟨_, _, remaining, same, notEmpty, split⟩
    · exact Nat.zero_le _
    · cases same
      have lengths := congrArg List.length split
      have positive := length_pos_of_ne_nil notEmpty
      obtain ⟨text, terminator⟩ := line
      cases terminator with
      | none =>
        simp only [TypedLine.bytes, toList_none, append_nil,
          length_append] at lengths
        dsimp only
        omega
      | some ch =>
        simp only [TypedLine.bytes, toList_some, length_append,
          length_cons, length_nil] at lengths
        dsimp only
        omega
  have splits : line.text = opened.flatten ++
      line.text.drop opened.flatten.length := by
    rcases opens.2 with rfl | ⟨_, _, remaining, same, _, split⟩
    · rfl
    · cases same
      have starts : opened.flatten = line.text.take opened.flatten.length := by
        have taken := congrArg (List.take opened.flatten.length) split
        rw [TypedLine.bytes, take_append_of_le_length inside,
          take_left] at taken
        exact taken.symm
      conv_lhs => rw [← take_append_drop opened.flatten.length line.text]
      rw [← starts]
  refine ⟨⟨line.text.drop opened.flatten.length, line.terminator⟩,
    rfl, ?_, ?_, ?_⟩
  · rw [TypedLine.bytes, TypedLine.bytes, ← append_assoc, ← splits]
  · rw [pendingCells, flatMap_cons, drop_append_of_le_length
      (Nat.le_trans inside (by simp)), TypedLine.cells,
      drop_append_of_le_length (by simpa using inside), ← map_drop]
    rfl
  · intro isEmpty
    rcases opens.2 with rfl | ⟨_, _, remaining, same, notEmpty, split⟩
    · rfl
    · cases same
      rw [TypedLine.bytes] at isEmpty split
      have dropped := congrArg (List.drop opened.flatten.length) split
      rw [drop_append_of_le_length inside, drop_left] at dropped
      exact absurd (dropped.symm.trans isEmpty) notEmpty

theorem Opens.eq_nil
    (opens : Opens opened []) :
    opened = [] := by
  rcases opens.2 with rfl | ⟨_, _, _, same, _⟩
  · rfl
  · cases same

theorem Opens.append
    (opens : Opens opened pending)
    (line : TypedLine) :
    Opens opened (pending ++ [line]) := by
  refine ⟨opens.1, ?_⟩
  rcases opens.2 with rfl | ⟨first, rest, remaining, rfl, notEmpty, split⟩
  · exact .inl rfl
  · exact .inr ⟨first, rest ++ [line], remaining, rfl, notEmpty, split⟩

/-- Its cells come last. -/
theorem Opens.pendingCells_append
    (opens : Opens opened pending)
    (line : TypedLine) :
    pendingCells opened (pending ++ [line]) =
      pendingCells opened pending ++ line.cells := by
  have inside :
      opened.flatten.length ≤ (pending.flatMap TypedLine.cells).length := by
    cases pending with
    | nil =>
      rw [opens.eq_nil]
      exact Nat.le_refl _
    | cons first rest =>
      obtain ⟨front, isFront⟩ := opens.front
      have lengths := congrArg List.length isFront.cells
      rw [pendingCells, length_drop, length_append,
        TypedLine.length_cells] at lengths
      omega
  rw [pendingCells, flatMap_append, drop_append_of_le_length inside]
  simp [pendingCells]

/-- The last cell of the whole lines is flagged. -/
theorem Opens.getLast_flagged
    (opens : Opens opened pending)
    {cell : UInt8 × Bool}
    (isLast : (pendingCells opened pending).getLast? = some cell) :
    cell.2 = true := by
  cases pending with
  | nil =>
    rw [opens.eq_nil] at isLast
    cases isLast
  | cons first rest =>
    obtain ⟨front, isFront⟩ := opens.front
    rw [isFront.cells] at isLast
    rcases eq_nil_or_concat rest with rfl | ⟨before, last, rfl⟩
    · rw [flatMap_nil, append_nil, TypedLine.cells,
        List.getLast?_concat] at isLast
      cases isLast
      rfl
    · rw [concat_eq_append, flatMap_append, flatMap_singleton,
        TypedLine.cells.eq_1 last, ← append_assoc, ← append_assoc,
        List.getLast?_concat] at isLast
      cases isLast
      rfl

namespace Follows

variable
  {state : LineTty}
  {groups : List (List (List UInt8))}
  {opened : List (List UInt8)}
  {finished pending : List TypedLine}

section

variable (follows : Follows state groups opened finished pending)
include follows

theorem edit
    {tty : Tty}
    {current : List UInt8}
    (buffered :
      tty.cells = pendingCells opened pending ++ current.map (·, false)) :
    Follows
      { state with tty := tty, typed := ⟨state.typed.lines, current⟩ }
      groups opened finished pending where
  reads := follows.reads
  lines := follows.lines
  grouped := follows.grouped
  opens := follows.opens
  buffered := buffered

/-- The current line was ended. -/
theorem endLine
    {tty : Tty}
    (terminator : Option UInt8)
    (pushed :
      tty.cells = state.tty.cells ++ [(terminator.getD 0, true)]) :
    Follows
      { state with
        tty := tty
        typed :=
          ⟨state.typed.lines ++ [⟨state.typed.current, terminator⟩], []⟩ }
      groups opened finished
      (pending ++ [⟨state.typed.current, terminator⟩]) where
  reads := follows.reads
  lines := by
    dsimp only
    rw [follows.lines, append_assoc]
  grouped := follows.grouped
  opens := follows.opens.append _
  buffered := by
    dsimp only
    rw [pushed, follows.buffered, follows.opens.pendingCells_append,
      TypedLine.cells, append_assoc, map_nil, append_nil]

/-- The erase loop shortens the current line. -/
theorem erased
    {count : Nat}
    (enough : count ≤ state.tty.bufsize) :
    (eraseLoop count state.tty).cells =
      pendingCells opened pending ++
        (state.typed.current.take (state.typed.current.length - count)).map
          (·, false) := by
  have unflagged :
      ∀ cell ∈ state.typed.current.map fun ch => (ch, false),
        cell.2 = false := by
    intro cell isCell
    obtain ⟨ch, _, rfl⟩ := List.mem_map.mp isCell
    rfl
  rw [Tty.cells_eraseLoop _ _ follows.buffered unflagged
    (fun _ isLast => follows.opens.getLast_flagged isLast) enough,
    length_map, map_take]

end

end Follows

theorem eraseLoop_termios
    (count : Nat)
    (tty : Tty) :
    (eraseLoop count tty).termios = tty.termios := by
  induction count generalizing tty with
  | zero => rfl
  | succ count inductionHypothesis =>
    rw [eraseLoop]
    split
    · rfl
    · rw [inductionHypothesis]

/-- What holds of a tty in canonical mode in every state. -/
structure LineInvariant (state : LineTty) : Prop where
  canonical : termHas state.tty.termios.lflags termIcanon = true
  terminated : ∀ line ∈ state.typed.lines, line.terminator ≠ some 0
  follows : ReadsFollowLines state

namespace LineInvariant

variable {state next : LineTty}

variable {tty : Tty}

theorem afterFlush
    (canonical : termHas tty.termios.lflags termIcanon = true)
    (empty : tty.cells = []) :
    LineInvariant (.afterFlush tty) where
  canonical := canonical
  terminated := fun _ isLine => by cases isLine
  follows := ⟨[], [], [], [], {
    reads := rfl
    lines := rfl
    grouped := .nil
    opens := ⟨fun _ isChunk => (not_mem_nil isChunk).elim, .inl rfl⟩
    buffered := empty }⟩

/-- The rule speaks of the buffer, the edited input and the reads. -/
theorem of_same_cells
    (invariant : LineInvariant state)
    (canonical : termHas tty.termios.lflags termIcanon = true)
    (sameCells : tty.cells = state.tty.cells) :
    LineInvariant { state with tty := tty } := by
  obtain ⟨groups, opened, finished, pending, follows⟩ := invariant.follows
  exact {
    canonical := canonical
    terminated := invariant.terminated
    follows := ⟨groups, opened, finished, pending, {
      reads := follows.reads
      lines := follows.lines
      grouped := follows.grouped
      opens := follows.opens
      buffered := sameCells.trans follows.buffered }⟩ }

/-- A byte that is no signal edits the input. -/
theorem typeKey
    (invariant : LineInvariant state)
    {key : TypedKey}
    {signal : Option InputSignal}
    (noSignal : ∀ signal, key ≠ .signal signal)
    (isEnd : ∀ ch, key = .lineEnd ch → ch ≠ 0)
    (typed : state.tty.typeKey key = (.counted signal, tty)) :
    LineInvariant
      { state with tty := tty, typed := state.typed.type key } := by
  obtain ⟨groups, opened, finished, pending, follows⟩ := invariant.follows
  cases key with
  | ignored =>
    cases typed
    exact invariant
  | data ch =>
    obtain ⟨pushed, sameTermios⟩ := Tty.pushChar_counted typed
    refine ⟨sameTermios ▸ invariant.canonical, invariant.terminated,
      groups, opened, finished, pending, follows.edit ?_⟩
    rw [pushed, follows.buffered, map_append, append_assoc]
    rfl
  | erase =>
    cases typed
    refine ⟨(eraseLoop_termios _ _).symm ▸ invariant.canonical,
      invariant.terminated, groups, opened, finished, pending,
      follows.edit ?_⟩
    split
    case isTrue positive =>
      rw [follows.erased positive, dropLast_eq_take]
    case isFalse empty =>
      have noCells : state.tty.bufsize = 0 := Nat.eq_zero_of_not_pos empty
      have lengths := congrArg List.length follows.buffered
      rw [Tty.length_cells, noCells, length_append,
        length_map] at lengths
      have isNil : state.typed.current = [] :=
        eq_nil_of_length_eq_zero (by omega)
      rw [follows.erased (Nat.le_refl _), isNil, take_nil]
      rfl
  | kill =>
    cases typed
    refine ⟨(eraseLoop_termios _ _).symm ▸ invariant.canonical,
      invariant.terminated, groups, opened, finished, pending,
      follows.edit ?_⟩
    have lengths := congrArg List.length follows.buffered
    rw [Tty.length_cells, length_append, length_map] at lengths
    rw [follows.erased (Nat.le_refl _), Nat.sub_eq_zero_of_le (by omega),
      take_zero]
  | endOfFile =>
    obtain ⟨pushed, sameTermios⟩ := Tty.pushChar_counted typed
    refine ⟨sameTermios ▸ invariant.canonical, ?_,
      groups, opened, finished, _, follows.endLine none pushed⟩
    intro line isLine
    rcases mem_append.mp isLine with isOld | isNew
    · exact invariant.terminated line isOld
    · rw [mem_singleton.mp isNew]
      exact fun absurd => by cases absurd
  | lineEnd ch =>
    obtain ⟨pushed, sameTermios⟩ := Tty.pushChar_counted typed
    refine ⟨sameTermios ▸ invariant.canonical, ?_,
      groups, opened, finished, _, follows.endLine (some ch)
        pushed⟩
    intro line isLine
    rcases mem_append.mp isLine with isOld | isNew
    · exact invariant.terminated line isOld
    · rw [mem_singleton.mp isNew]
      exact fun isNull => isEnd ch rfl (some.inj isNull)
  | signal signal => exact absurd rfl (noSignal signal)

end LineInvariant

/-- The first line in the buffer ends at the first flag. -/
theorem ttyCanonSize_of_front
    {front : TypedLine}
    (isFront : tty.cells = front.cells ++ more) :
    ttyCanonSize tty = some (front.text.length + 1) ∧
      tty.buf front.text.length = front.terminator.getD 0 ∧
      tty.bufsize = front.text.length + 1 + more.length := by
  have size := congrArg List.length isFront
  rw [Tty.length_cells, length_append, TypedLine.length_cells] at size
  have cellAt : ∀ place, place < front.text.length + 1 →
      front.cells[place]? = some (tty.buf place, tty.bufFlag place) := by
    intro place inside
    have isCell := tty.getElem?_cells place
    rw [if_pos (by omega), isFront,
      List.getElem?_append_left (by simpa using inside)] at isCell
    exact isCell
  have last := cellAt front.text.length (Nat.lt_succ_self _)
  rw [TypedLine.cells, List.getElem?_append_right (by simp)] at last
  simp only [length_map, Nat.sub_self, List.getElem?_cons_zero,
    some.injEq, Prod.mk.injEq] at last
  refine ⟨?_, last.1.symm, size⟩
  rw [ttyCanonSize, map_eq_some_iff]
  refine ⟨front.text.length, ?_, rfl⟩
  rw [List.find?_range_eq_some]
  refine ⟨last.2.symm, mem_range.mpr (by omega), ?_⟩
  intro place before
  have isCell := cellAt place (Nat.lt_succ_of_lt before)
  rw [TypedLine.cells, List.getElem?_append_left (by simpa using before),
    List.getElem?_map] at isCell
  obtain ⟨ch, _, same⟩ := map_eq_some_iff.mp isCell
  rw [← (Prod.mk.inj same).2]
  rfl

theorem ttyCanonSize_eq_none
    {current : List UInt8}
    (noLine : tty.cells = current.map fun ch => (ch, false)) :
    ttyCanonSize tty = none := by
  rw [ttyCanonSize, map_eq_none_iff, List.find?_eq_none]
  intro place inside
  have isCell := tty.getElem?_cells place
  rw [if_pos (mem_range.mp inside), noLine, List.getElem?_map] at isCell
  obtain ⟨ch, _, same⟩ := map_eq_some_iff.mp isCell
  rw [← (Prod.mk.inj same).2]
  exact Bool.false_ne_true

/-- The cells after a read, whether or not it removes an eof. -/
theorem ttyTake_spec
    {size : Nat}
    (fits : size ≤ tty.bufsize) :
    (ttyTake tty size).1 = (tty.cells.take size).map Prod.fst ∧
      (ttyTake tty size).2.termios = tty.termios ∧
      (ttyTake tty size).2.cells =
        if (tty.cells.drop size).head? = some (0, true) then
          (tty.cells.drop size).drop 1
        else
          tty.cells.drop size := by
  have isRest := Tty.cells_readIntoBuf tty size
  unfold ttyTake
  dsimp only
  split
  case isTrue isEof =>
    rw [Tty.startsWithEof_iff, isRest] at isEof
    rw [if_pos isEof, Tty.cells_readIntoBuf, isRest]
    exact ⟨Tty.readIntoBuf_data fits, rfl, rfl⟩
  case isFalse notEof =>
    rw [Tty.startsWithEof_iff, isRest] at notEof
    rw [if_neg notEof, isRest]
    exact ⟨Tty.readIntoBuf_data fits, rfl, rfl⟩

/-- A read of a tty whose buffer starts with a line. -/
theorem canonRead_of_front
    {front : TypedLine}
    (isFront : tty.cells = front.cells ++ more)
    (terminated : front.terminator ≠ some 0)
    (bufsize : Nat) :
    canonReadSize tty bufsize = some (min bufsize front.bytes.length) ∧
      (ttyTake tty (min bufsize front.bytes.length)).1 =
        front.bytes.take bufsize := by
  obtain ⟨isSize, isLast, size⟩ := ttyCanonSize_of_front isFront
  have isLength :
      (if front.terminator.getD 0 = 0 then front.text.length
        else front.text.length + 1) = front.bytes.length := by
    cases isEnd : front.terminator with
    | none => simp [TypedLine.bytes, isEnd]
    | some ch =>
      have notNull : ch ≠ 0 := fun isNull =>
        terminated (isEnd.trans (congrArg some isNull))
      simp [TypedLine.bytes, isEnd, notNull]
  have fits : front.bytes.length ≤ front.text.length + 1 := by
    rw [← isLength]
    split
    · exact Nat.le_succ _
    · exact Nat.le_refl _
  have fitsBuffer : min bufsize front.bytes.length ≤ tty.bufsize :=
    Nat.le_trans (Nat.min_le_right _ _) (by omega)
  refine ⟨?_, ?_⟩
  · rw [canonReadSize, isSize, map_some, Nat.add_sub_cancel, isLast,
      isLength, Nat.min_eq_left fitsBuffer]
  · rw [(ttyTake_spec fitsBuffer).1, isFront,
      take_append_of_le_length
        (Nat.le_trans (Nat.min_le_right _ _) (by simpa using fits)),
      TypedLine.bytes_take (Nat.min_le_right _ _), ← take_take,
      take_length]

/-- What a read of a tty with a whole line finds and leaves. -/
structure ReadOf
    (state : LineTty)
    (bufsize : Nat)
    (taken : List UInt8 × Tty)
    (opened : List (List UInt8))
    (line : TypedLine)
    (rest : List TypedLine)
    (front : TypedLine) : Prop where
  isFront : Front opened line rest front
  wasCells :
    state.tty.cells =
      front.cells ++
        (rest.flatMap TypedLine.cells ++
          state.typed.current.map (·, false))
  data : taken.1 = front.bytes.take bufsize
  termios : taken.2.termios = state.tty.termios
  cells :
    taken.2.cells =
      let left := state.tty.cells.drop (min bufsize front.bytes.length)
      if left.head? = some (0, true) then left.drop 1 else left

/-- A read that returns finds a whole line. -/
theorem Follows.readOf
    (follows : Follows state groups opened finished pending)
    (terminated : ∀ line ∈ state.typed.lines, line.terminator ≠ some 0)
    (read :
      (canonReadSize state.tty bufsize).map (ttyTake state.tty) =
        some taken) :
    ∃ line rest front,
      pending = line :: rest ∧ line.terminator ≠ some 0 ∧
        ReadOf state bufsize taken opened line rest front := by
  cases pending with
  | nil =>
    have noLine := follows.buffered
    rw [pendingCells, flatMap_nil, drop_nil, nil_append]
      at noLine
    rw [canonReadSize, ttyCanonSize_eq_none noLine] at read
    cases read
  | cons line rest =>
    obtain ⟨front, isFront⟩ := follows.opens.front
    have isEnd : line.terminator ≠ some 0 :=
      terminated line (follows.lines ▸ by simp)
    have wasCells := follows.buffered
    rw [isFront.cells, append_assoc] at wasCells
    obtain ⟨isSize, isData⟩ :=
      canonRead_of_front wasCells (isFront.terminator ▸ isEnd) bufsize
    rw [isSize, map_some] at read
    cases read
    have fits : min bufsize front.bytes.length ≤ state.tty.bufsize := by
      have size := congrArg List.length wasCells
      have short : front.bytes.length ≤ front.text.length + 1 := by
        rw [TypedLine.bytes, length_append]
        cases front.terminator with
        | none => exact Nat.le_succ _
        | some ch => exact Nat.le_refl _
      rw [Tty.length_cells, length_append,
        TypedLine.length_cells] at size
      omega
    obtain ⟨_, sameTermios, isCells⟩ := ttyTake_spec fits
    exact ⟨line, rest, front, rfl, isEnd, isFront, wasCells, isData,
      sameTermios, isCells⟩

/-- A read that ends inside of a line leaves the rest of the line. -/
theorem Follows.readPart
    {front : TypedLine}
    (follows : Follows state groups opened finished (line :: rest))
    (isEnd : line.terminator ≠ some 0)
    (readOf : ReadOf state bufsize taken opened line rest front)
    (positive : 0 < bufsize)
    (inside : bufsize < front.bytes.length) :
    Follows
      { state with tty := taken.2, reads := state.reads ++ [taken.1] }
      groups (opened ++ [taken.1]) finished (line :: rest) := by
  have isMin : min bufsize front.bytes.length = bufsize :=
    Nat.min_eq_left (Nat.le_of_lt inside)
  have notEmpty : taken.1 ≠ [] := by
    rw [readOf.data]
    intro isNil
    have length := congrArg List.length isNil
    rw [length_take, isMin] at length
    exact Nat.ne_of_gt positive length
  have notEof :
      (state.tty.cells.drop bufsize).head? ≠ some (0, true) := by
    rw [readOf.wasCells, TypedLine.cells, List.head?_drop]
    have inText : bufsize ≤ front.text.length := by
      rw [TypedLine.bytes, length_append] at inside
      cases isSome : front.terminator with
      | none =>
        rw [isSome] at inside
        exact Nat.le_of_lt inside
      | some ch =>
        rw [isSome] at inside
        exact Nat.le_of_lt_succ inside
    rw [append_assoc]
    rcases Nat.lt_or_eq_of_le inText with before | isLast
    · rw [List.getElem?_append_left (by simpa using before),
        List.getElem?_map]
      intro isEof
      obtain ⟨ch, _, same⟩ := map_eq_some_iff.mp isEof
      cases (Prod.mk.inj same).2
    · rw [List.getElem?_append_right (by simp [isLast])]
      simp only [isLast, length_map, Nat.sub_self,
        cons_append, List.getElem?_cons_zero, ne_eq, some.injEq,
        Prod.mk.injEq, and_true]
      cases isSome : front.terminator with
      | none =>
        rw [TypedLine.bytes, isSome, toList_none,
          append_nil] at inside
        exact absurd inside (Nat.not_lt.mpr (Nat.le_of_eq isLast.symm))
      | some ch =>
        intro isNull
        exact isEnd (readOf.isFront.terminator.symm.trans
          (isSome.trans (congrArg some isNull)))
  exact {
    reads := by
      dsimp only
      rw [follows.reads, append_assoc]
    lines := follows.lines
    grouped := follows.grouped
    opens := by
      refine ⟨?_, .inr ⟨line, rest, front.bytes.drop bufsize, rfl, ?_, ?_⟩⟩
      · intro chunk isChunk
        rcases mem_append.mp isChunk with isOld | isNew
        · exact follows.opens.1 chunk isOld
        · rw [mem_singleton.mp isNew]
          exact notEmpty
      · intro isNil
        have length := congrArg List.length isNil
        rw [length_drop] at length
        exact absurd (Nat.sub_eq_zero_iff_le.mp length)
          (Nat.not_le.mpr inside)
      · rw [readOf.isFront.bytes, flatten_append, flatten_singleton,
          readOf.data, append_assoc, take_append_drop]
    buffered := by
      have isCells := readOf.cells
      dsimp only at isCells ⊢
      have length : taken.1.length = bufsize := by
        rw [readOf.data, length_take, isMin]
      rw [isMin, if_neg notEof] at isCells
      rw [isCells, follows.buffered, drop_append_of_le_length,
        pendingCells, pendingCells, drop_drop, flatten_append,
        flatten_singleton, length_append, length]
      rw [readOf.isFront.cells, length_append, TypedLine.length_cells]
      have short : front.bytes.length ≤ front.text.length + 1 := by
        rw [TypedLine.bytes, length_append]
        cases front.terminator with
        | none => exact Nat.le_succ _
        | some ch => exact Nat.le_refl _
      omega }

/-- What is left behind the bytes of a line. -/
theorem TypedLine.drop_cells
    (line : TypedLine)
    (more : List (UInt8 × Bool)) :
    (line.cells ++ more).drop line.bytes.length =
      match line.terminator with
      | none => (0, true) :: more
      | some _ => more := by
  obtain ⟨text, terminator⟩ := line
  cases terminator with
  | none =>
    simp only [cells, bytes, toList_none, append_nil,
      append_assoc]
    rw [drop_left' (by simp)]
    rfl
  | some ch =>
    simp only [cells, bytes]
    rw [drop_left' (by simp)]

/-- When a read swallows an eof, in terms of the lines in the buffer. -/
theorem Tty.swallowsEof_iff
    {front : TypedLine}
    (isFront : tty.cells = front.cells ++ more)
    (terminated : front.terminator ≠ some 0) :
    tty.swallowsEof bufsize ↔
      front.terminator ≠ none ∧ front.bytes.length ≤ bufsize ∧
        more.head? = some (0, true) := by
  obtain ⟨isSize, isLast, size⟩ := ttyCanonSize_of_front isFront
  have next : tty.cells[front.text.length + 1]? = more.head? := by
    rw [isFront, List.getElem?_append_right (by simp), TypedLine.length_cells,
      Nat.sub_self, List.head?_eq_getElem?]
  rw [tty.getElem?_cells] at next
  constructor
  · rintro ⟨canonSize, isCanon, notNull, fits, inside, isNull, flagged⟩
    cases isSize.symm.trans isCanon
    rw [Nat.add_sub_cancel, isLast] at notNull
    rw [if_pos inside, isNull, flagged] at next
    cases isEnd : front.terminator with
    | none =>
      rw [isEnd] at notNull
      exact absurd rfl notNull
    | some ch =>
      refine ⟨some_ne_none ch, ?_, next.symm⟩
      simpa [TypedLine.bytes, isEnd] using fits
  · rintro ⟨isSome, fits, isEof⟩
    cases isEnd : front.terminator with
    | none => exact absurd isEnd isSome
    | some ch =>
      rw [TypedLine.bytes, isEnd, toList_some, length_append]
        at fits
      rw [isEof] at next
      split at next
      case isFalse => cases next
      case isTrue inside =>
        have isCell := Prod.mk.inj (some.inj next)
        refine ⟨_, isSize, ?_, fits, inside, isCell.1, isCell.2⟩
        rw [Nat.add_sub_cancel, isLast, isEnd]
        exact fun isNull =>
          terminated (isEnd.trans (congrArg some isNull))

/-- The calls that read a line to its end. -/
theorem ReadOf.readsAs
    {front : TypedLine}
    (readOf : ReadOf state bufsize taken opened line rest front)
    (opens : Opens opened (line :: rest))
    (whole : front.bytes.length ≤ bufsize) :
    ReadsAs (opened ++ [taken.1]) line := by
  have isData : taken.1 = front.bytes := by
    rw [readOf.data, take_of_length_le whole]
  have isBytes := readOf.isFront.bytes
  rw [isData]
  unfold ReadsAs
  split
  case isTrue isEmpty =>
    rw [isEmpty] at isBytes
    have isNil := append_eq_nil_iff.mp isBytes.symm
    rw [readOf.isFront.opened isNil.2, isNil.2]
    rfl
  case isFalse notEmpty =>
    refine ⟨?_, ?_⟩
    · intro chunk isChunk
      rcases mem_append.mp isChunk with isOld | isNew
      · exact opens.1 chunk isOld
      · rw [mem_singleton.mp isNew]
        intro isNil
        rw [readOf.isFront.opened isNil, isNil] at isBytes
        exact notEmpty isBytes
    · rw [flatten_append, flatten_singleton, isBytes]

/-- A read to the end of a line leaves the next lines. -/
theorem Follows.readLine
    {front : TypedLine}
    (follows : Follows state groups opened finished (line :: rest))
    (readOf : ReadOf state bufsize taken opened line rest front)
    (whole : front.bytes.length ≤ bufsize)
    (isRest :
      taken.2.cells =
        rest.flatMap TypedLine.cells ++
          state.typed.current.map (·, false)) :
    Follows
      { state with tty := taken.2, reads := state.reads ++ [taken.1] }
      (groups ++ [opened ++ [taken.1]]) [] (finished ++ [line]) rest where
  reads := by
    dsimp only
    rw [follows.reads, flatten_append, flatten_singleton,
      append_nil, append_assoc]
  lines := by
    dsimp only
    rw [follows.lines, append_assoc]
    rfl
  grouped :=
    rel_append follows.grouped
      (.cons (readOf.readsAs follows.opens whole) .nil)
  opens := ⟨fun _ isChunk => (not_mem_nil isChunk).elim, .inl rfl⟩
  buffered := isRest

/-- As many empty reads as lines that only an eof ended, and a flag a line. -/
theorem Follows.counts
    (follows : Follows state groups opened finished pending) :
    state.reads.count [] = finished.countP (fun line => line.bytes.isEmpty) ∧
      state.tty.cells.countP (·.2) = pending.length := by
  have openedCount : opened.count [] = 0 :=
    count_eq_zero.mpr fun isChunk => follows.opens.1 [] isChunk rfl
  refine ⟨?_, ?_⟩
  · rw [follows.reads, count_append, openedCount, Nat.add_zero]
    have grouped := follows.grouped
    clear follows
    induction grouped with
    | nil => rfl
    | @cons chunks line groups finished readsAs _ inductionHypothesis =>
      rw [flatten_cons, count_append, inductionHypothesis,
        countP_cons, Nat.add_comm]
      congr 1
      unfold ReadsAs at readsAs
      split at readsAs
      case isTrue isEmpty =>
        rw [readsAs, isEmpty]
        rfl
      case isFalse notEmpty =>
        rw [if_neg (by simpa using notEmpty)]
        exact count_eq_zero.mpr fun isChunk =>
          readsAs.1 [] isChunk rfl
  · rw [follows.buffered, countP_append, countP_current, Nat.add_zero]
    cases pending with
    | nil =>
      rw [follows.opens.eq_nil]
      rfl
    | cons line rest =>
      obtain ⟨front, isFront⟩ := follows.opens.front
      rw [isFront.cells, countP_append, front.countP_cells,
        countP_flatMap_cells, length_cons, Nat.add_comm]

/-- A read that swallows an eof breaks the rule. -/
theorem Follows.not_swallowed
    {front : TypedLine}
    (follows : Follows state groups opened finished (line :: rest))
    (terminated : ∀ line ∈ state.typed.lines, line.terminator ≠ some 0)
    (readOf : ReadOf state bufsize taken opened line rest front)
    (isEnd : front.terminator ≠ none)
    (whole : front.bytes.length ≤ bufsize)
    (isEof :
      (rest.flatMap TypedLine.cells ++
        state.typed.current.map (·, false)).head? = some (0, true)) :
    ¬ReadsFollowLines
      { state with tty := taken.2, reads := state.reads ++ [taken.1] } := by
  rintro ⟨otherGroups, otherOpened, otherFinished, otherPending, other⟩
  have isData : taken.1 = front.bytes := by
    rw [readOf.data, take_of_length_le whole]
  have notEmpty : front.bytes ≠ [] := by
    intro isNil
    have isNone := (append_eq_nil_iff.mp isNil).2
    cases isSome : front.terminator with
    | none => exact isEnd isSome
    | some ch =>
      rw [isSome] at isNone
      cases isNone
  -- the next line is the eof that the read removes
  have isCells := readOf.cells
  dsimp only at isCells
  rw [Nat.min_eq_right whole, readOf.wasCells, front.drop_cells] at isCells
  cases isSome : front.terminator with
  | none => exact isEnd isSome
  | some ch =>
    simp only [isSome, isEof, if_true] at isCells
    cases rest with
    | nil =>
      simp only [flatMap_nil, nil_append, List.head?_map,
        map_eq_some_iff, Prod.mk.injEq, Bool.false_eq_true,
        and_false, exists_false] at isEof
    | cons eofLine others =>
      have isEmpty : eofLine.bytes = [] := by
        have wellEnded : eofLine.terminator ≠ some 0 :=
          terminated eofLine (follows.lines ▸ by simp)
        obtain ⟨text, terminator⟩ := eofLine
        cases text with
        | cons first others =>
          simp [TypedLine.cells] at isEof
        | nil =>
          cases terminator with
          | none => rfl
          | some other =>
            simp only [flatMap_cons, TypedLine.cells,
              map_nil, nil_append, getD_some,
              cons_append, List.head?_cons, some.injEq,
              Prod.mk.injEq, and_true] at isEof
            exact absurd (congrArg some isEof) wellEnded
      -- so one line too many counts as read
      have flags := other.counts.2
      dsimp only at flags
      have oneLess :
          (eofLine :: others).flatMap TypedLine.cells ++
              state.typed.current.map (·, false) =
            (0, true) ::
              ((eofLine :: others).flatMap TypedLine.cells ++
                state.typed.current.map (·, false)).drop 1 := by
        rw [drop_one]
        exact (List.cons_head?_tail isEof).symm
      have allFlags := congrArg (List.countP (·.2)) oneLess
      rw [countP_append, countP_flatMap_cells, countP_current,
        countP_cons_of_pos rfl, ← isCells, flags] at allFlags
      have lengths := congrArg List.length
        (follows.lines.symm.trans other.lines)
      simp only [length_append, length_cons] at lengths allFlags
      have isFinished : otherFinished = finished ++ [line, eofLine] := by
        have split :=
          (append_eq_append_iff.mp
            (follows.lines.symm.trans other.lines))
        rcases split with ⟨more, longer, tail⟩ | ⟨more, shorter, tail⟩
        · have two : more.length = 2 := by
            rw [longer, length_append] at lengths
            omega
          have isMore : more = [line, eofLine] := by
            have firsts := congrArg (List.take 2) tail
            rw [take_append_of_le_length (Nat.le_of_eq two.symm),
              take_of_length_le (Nat.le_of_eq two)] at firsts
            exact firsts.symm
          rw [longer, isMore]
        · rw [shorter, length_append] at lengths
          omega
      have empties := other.counts.1
      dsimp only at empties
      rw [count_append, follows.counts.1, isData, isFinished,
        countP_append, count_eq_zero.mpr
          (fun isChunk => notEmpty (mem_singleton.mp isChunk).symm)]
        at empties
      simp [isEmpty] at empties

namespace LineTty

variable {state next : LineTty}

/-- A read in canonical mode. -/
theorem run_read
    {bufsize : Nat}
    (canonical : termHas state.tty.termios.lflags termIcanon = true)
    (step : state.run (.read bufsize) = some next) :
    0 < bufsize ∧
      ∃ taken,
        (canonReadSize state.tty bufsize).map (ttyTake state.tty) =
            some taken ∧
          next =
            { state with
              tty := taken.2
              reads := state.reads ++ [taken.1] } := by
  simp only [run] at step
  split at step
  · cases step
  case isFalse notZero =>
    obtain ⟨taken, read, rfl⟩ := map_eq_some_iff.mp step
    rw [ttyRead, if_pos canonical] at read
    exact ⟨Nat.pos_of_ne_zero notZero, taken, read, rfl⟩

/-- A read keeps the rule exactly if it swallows no eof. -/
theorem read_iff
    {bufsize : Nat}
    (invariant : LineInvariant state)
    (step : state.run (.read bufsize) = some next) :
    ReadsFollowLines next ↔ ¬state.tty.swallowsEof bufsize := by
  obtain ⟨positive, taken, read, rfl⟩ := run_read invariant.canonical step
  obtain ⟨groups, opened, finished, pending, follows⟩ := invariant.follows
  obtain ⟨line, rest, front, rfl, isEnd, readOf⟩ :=
    follows.readOf invariant.terminated read
  rw [Tty.swallowsEof_iff readOf.wasCells
    (readOf.isFront.terminator ▸ isEnd)]
  rcases Nat.lt_or_ge bufsize front.bytes.length with inside | whole
  · exact iff_of_true
      ⟨groups, _, finished, _,
        follows.readPart isEnd readOf positive inside⟩
      (fun swallowed => Nat.not_le.mpr inside swallowed.2.1)
  · constructor
    · rintro after ⟨isSome, _, isEof⟩
      exact follows.not_swallowed invariant.terminated readOf isSome whole
        isEof after
    · intro spared
      refine ⟨_, _, _, _, follows.readLine readOf whole ?_⟩
      have isCells := readOf.cells
      dsimp only at isCells
      rw [Nat.min_eq_right whole, readOf.wasCells,
        front.drop_cells] at isCells
      cases isSome : front.terminator with
      | none =>
        simp only [isSome, List.head?_cons, if_true] at isCells
        exact isCells
      | some ch =>
        rw [isCells]
        simp only [isSome]
        rw [if_neg fun isEof =>
          spared ⟨isSome ▸ some_ne_none ch, whole, isEof⟩]

theorem sendInputSignal_spec
    {tty next : Tty}
    {signal : InputSignal}
    {queued : Option InputSignal}
    (sent : tty.sendInputSignal signal = (.counted queued, next)) :
    if tty.signalFlushes then next = tty.flush else next = tty := by
  unfold Tty.sendInputSignal at sent
  split at sent
  case isTrue noGroup =>
    cases sent
    rw [if_neg (by simp [Tty.signalFlushes, noGroup])]
  case isFalse =>
    split at sent
    case isTrue flushes =>
      cases sent
      rw [if_pos flushes]
    case isFalse keeps =>
      cases sent
      rw [if_neg keeps]

/-- A step that swallows no eof keeps the rule. -/
theorem LineInvariant.step
    {action : LineStep}
    (invariant : LineInvariant state)
    (spares : SparesEof state action)
    (step : state.run action = some next) :
    LineInvariant next := by
  cases action with
  | type iflags ch =>
    simp only [run] at step
    split at step
    · cases step
    case h_2 queued tty signal typed isKey =>
      rw [canonInput_eq, isKey] at typed
      have after := sendInputSignal_spec typed
      split at step
      case isTrue flushes =>
        cases step
        rw [if_pos flushes] at after
        rw [after]
        exact .afterFlush invariant.canonical rfl
      case isFalse keeps =>
        cases step
        rw [if_neg keeps] at after
        rw [after]
        exact invariant
    case h_3 queued tty typed notSignal =>
      cases step
      rw [canonInput_eq] at typed
      exact invariant.typeKey notSignal
        (fun ch isEnd => Tty.ne_zero_of_lineEnd isEnd) typed
  | setTermios termios =>
    simp only [run] at step
    split at step
    case isTrue canonical =>
      cases step
      exact invariant.of_same_cells canonical rfl
    · cases step
  | setForeground group =>
    cases step
    exact invariant.of_same_cells invariant.canonical rfl
  | flush =>
    cases step
    exact .afterFlush invariant.canonical rfl
  | read bufsize =>
    have follows := (read_iff invariant step).mpr spares
    obtain ⟨_, taken, read, rfl⟩ := run_read invariant.canonical step
    obtain ⟨size, _, same⟩ := map_eq_some_iff.mp read
    cases same
    have sameTermios : (ttyTake state.tty size).2.termios =
        state.tty.termios := by
      unfold ttyTake
      dsimp only
      split
      · rfl
      · rfl
    exact ⟨sameTermios ▸ invariant.canonical, invariant.terminated, follows⟩

theorem lineInvariant_of_reachable
    (reachable : sparingMachine.Reachable state) :
    LineInvariant state := by
  refine reachable.invariant ?_ ?_
  · rintro state ⟨tty, empty, canonical, rfl⟩
    refine .afterFlush canonical ?_
    rw [Tty.cells, empty]
    rfl
  · rintro state action next invariant ⟨spares, step⟩
    exact LineInvariant.step invariant spares step

/-- Grouped reads concatenate to the lines they read. -/
theorem flatten_of_grouped
    {groups : List (List (List UInt8))}
    {finished : List TypedLine}
    (grouped : List.Forall₂ ReadsAs groups finished) :
    groups.flatten.flatten = finished.flatMap TypedLine.bytes := by
  induction grouped with
  | nil => rfl
  | @cons chunks line groups finished readsAs _ inductionHypothesis =>
    rw [flatten_cons, flatten_append, inductionHypothesis,
      flatMap_cons]
    congr 1
    unfold ReadsAs at readsAs
    split at readsAs
    case isTrue isEmpty =>
      rw [readsAs, isEmpty]
      rfl
    case isFalse => exact readsAs.2

/--
In every run that swallows no eof, the reads since the last flush are, one group
after the other, those of the lines of the edited input: each line by its own
reads, without loss or duplication, and an eof at the start of a line by one
empty read.  Together they are a prefix of the edited input, and as many of them
are empty as such lines were read.  The next read keeps this exactly if it
swallows no eof.
-/
theorem reads_follow_lines
    {state : LineTty}
    (reachable : sparingMachine.Reachable state) :
    (∃ groups opened finished pending,
        Follows state groups opened finished pending ∧
          (∃ remaining,
            state.typed.lines.flatMap TypedLine.bytes =
              state.reads.flatten ++ remaining) ∧
            state.reads.count [] =
              finished.countP fun line => line.bytes.isEmpty) ∧
      ∀ bufsize next,
        lineMachine.step state (.read bufsize) next →
        (ReadsFollowLines next ↔ ¬state.tty.swallowsEof bufsize) := by
  have invariant := lineInvariant_of_reachable reachable
  refine ⟨?_, fun bufsize next step => read_iff invariant step⟩
  obtain ⟨groups, opened, finished, pending, follows⟩ := invariant.follows
  refine ⟨groups, opened, finished, pending, follows, ?_, follows.counts.1⟩
  have isPrefix : ∃ remaining,
      pending.flatMap TypedLine.bytes = opened.flatten ++ remaining := by
    rcases follows.opens.2 with rfl | ⟨line, rest, remaining, rfl, _, split⟩
    · exact ⟨_, rfl⟩
    · refine ⟨remaining ++ rest.flatMap TypedLine.bytes, ?_⟩
      rw [flatMap_cons, split, append_assoc]
  obtain ⟨remaining, isRest⟩ := isPrefix
  refine ⟨remaining, ?_⟩
  rw [follows.lines, follows.reads, flatMap_append, isRest,
    flatten_append, flatten_of_grouped follows.grouped,
    append_assoc]

/-- The control characters of a new tty. -/
def defaultChars : TermChar → UInt8
  | .intr => 3
  | .quit => 28
  | .erase => 127
  | .kill => 21
  | .eof => 4
  | .susp => 26
  | .eol => 0

/-- The modes of a new tty. -/
def defaultTermios : Termios where
  iflags := termIcrnl
  lflags := termIsig ||| termIcanon
  cc := defaultChars
  vmin := 1

/-- A new tty, to which nothing was typed. -/
def newTty : Tty where
  buf := fun _ => 0
  bufFlag := fun _ => false
  bufsize := 0
  termios := defaultTermios
  fgGroup := 0

/-- An eof that is typed after the line was read ends the input. -/
theorem eof_after_read_is_empty_read :
    ∃ state groups opened finished pending,
      sparingMachine.Reachable state ∧
        state.reads = [[97, 10], []] ∧
        Follows state groups opened finished pending := by
  have start : sparingMachine.Reachable (.afterFlush newTty) :=
    .initial ⟨newTty, rfl, by decide, rfl⟩
  have typed :=
    (start.step (a := LineStep.type termIcrnl 97) ⟨trivial, rfl⟩).step
      (a := LineStep.type termIcrnl 10) ⟨trivial, rfl⟩
  have reads := fun spares =>
    typed.step (a := LineStep.read 10) ⟨spares, rfl⟩
  have read := reads (by
    rintro ⟨canonSize, isCanon, _, _, inside, _⟩
    cases some.inj (isCanon.symm.trans (by rfl : _ = some 2))
    exact Nat.lt_irrefl 2 inside)
  have ended := read.step (a := LineStep.type termIcrnl 4) ⟨trivial, rfl⟩
  have readsAgain := fun spares =>
    ended.step (a := LineStep.read 10) ⟨spares, rfl⟩
  have again := readsAgain (by
    rintro ⟨canonSize, isCanon, _, _, inside, _⟩
    cases some.inj (isCanon.symm.trans (by rfl : _ = some 1))
    exact Nat.lt_irrefl 1 inside)
  obtain ⟨⟨groups, opened, finished, pending, follows, _⟩, _⟩ :=
    reads_follow_lines again
  exact ⟨_, groups, opened, finished, pending, again, rfl, follows⟩

/-- An eof that is typed before the line was read is lost with the read. -/
theorem eof_before_read_is_lost :
    ∃ state,
      lineMachine.Reachable state ∧
        state.typed.lines = [⟨[97], some 10⟩, ⟨[], none⟩] ∧
        state.reads = [[97, 10]] ∧
        (∀ bufsize, state.run (.read bufsize) = none) ∧
        ¬ReadsFollowLines state := by
  have start : lineMachine.Reachable (.afterFlush newTty) :=
    .initial ⟨newTty, rfl, by decide, rfl⟩
  have typed :=
    ((start.step (a := LineStep.type termIcrnl 97) rfl).step
      (a := LineStep.type termIcrnl 10) rfl).step
      (a := LineStep.type termIcrnl 4) rfl
  have read := typed.step (a := LineStep.read 10) rfl
  refine ⟨_, read, rfl, by rfl, ?_, ?_⟩
  · intro bufsize
    simp only [run]
    split
    · rfl
    · rfl
  · rintro ⟨groups, opened, finished, pending, follows⟩
    have flags : 0 = pending.length := follows.counts.2
    have empties := follows.counts.1
    have lines := follows.lines
    rw [eq_nil_of_length_eq_zero flags.symm, append_nil] at lines
    rw [← lines] at empties
    exact absurd empties (by decide)

end LineTty

end GuestKernel
