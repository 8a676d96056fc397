import GuestKernel.ExecArgs

namespace GuestKernel
open List Option

/-!
# Vectors in flat buffers

What `user_read_string_array` writes to a buffer, how `args_size` and the count
of `do_execve` walk through it, and what `shebang_exec` makes of it.  Only the
count stops at an empty string.
-/

/-- The strings, each with its NUL. -/
def packed : List (List Byte) → List Byte
  | [] => []
  | string :: rest => string ++ 0 :: packed rest

/-- The strings have no NUL in them. -/
def NoNul (strings : List (List Byte)) : Prop :=
  ∀ string ∈ strings, (0 : Byte) ∉ string

/-- A buffer and a count that stand for these strings. -/
def Packs (args : ExecArgs) (strings : List (List Byte)) : Prop :=
  args.count = strings.length ∧
    ∃ junk, args.args = packed strings ++ 0 :: junk

/-- The strings up to the first empty one. -/
def upToEmpty (strings : List (List Byte)) : List (List Byte) :=
  strings.takeWhile (· ≠ [])

namespace Packing

variable {string : List Byte}
variable {strings : List (List Byte)}
variable {memory : FlatMemory}

theorem length_le_packed
    (strings : List (List Byte)) :
    strings.length ≤ (packed strings).length := by
  induction strings with
  | nil => exact Nat.le_refl 0
  | cons string rest inductionHypothesis =>
    rw [packed, length_cons, length_append, length_cons]
    omega

theorem skipString_append
    (noNul : (0 : Byte) ∉ string)
    (rest : List Byte) :
    skipString (string ++ 0 :: rest) = some rest := by
  induction string with
  | nil => exact if_pos rfl
  | cons byte string inductionHypothesis =>
    rw [mem_cons, not_or] at noNul
    rw [cons_append, skipString, if_neg (Ne.symm noNul.1)]
    exact inductionHypothesis noNul.2

/-- The size of the strings and the last NUL. -/
theorem argsSize_packed
    (noNul : NoNul strings)
    (junk : List Byte) :
    argsSize strings.length (packed strings ++ 0 :: junk) =
      some ((packed strings).length + 1) := by
  induction strings with
  | nil => exact if_pos rfl
  | cons string rest inductionHypothesis =>
    have noNulRest : NoNul rest := fun other isOther =>
      noNul other (mem_cons_of_mem _ isOther)
    rw [packed, append_assoc, cons_append, length_cons,
      argsSize, skipString_append (noNul string mem_cons_self),
      bind_some, inductionHypothesis noNulRest, map_some]
    congr 1
    simp only [length_append, length_cons]
    omega

variable {interpreter content : List Byte} {argument : Option (List Byte)}
  {rounds max address : Nat}

/-- The count stops at the first empty string. -/
theorem countStrings_packed
    (noNul : NoNul strings)
    (notEmpty : ∀ string ∈ strings, string ≠ [])
    (junk : List Byte)
    (enough : strings.length < rounds) :
    countStrings rounds (packed strings ++ 0 :: junk) =
      some strings.length := by
  induction strings generalizing rounds with
  | nil =>
    cases rounds with
    | zero => omega
    | succ rounds => rfl
  | cons string rest inductionHypothesis =>
    cases rounds with
    | zero => omega
    | succ rounds =>
      have isFirst : string ∈ string :: rest := mem_cons_self
      have later := inductionHypothesis
        (fun other isOther => noNul other (mem_cons_of_mem _ isOther))
        (fun other isOther =>
          notEmpty other (mem_cons_of_mem _ isOther))
        (Nat.lt_of_succ_lt_succ enough)
      have skipped := skipString_append (noNul string isFirst)
        (packed rest ++ 0 :: junk)
      rw [packed, append_assoc, cons_append]
      cases string with
      | nil => exact absurd rfl (notEmpty [] isFirst)
      | cons byte string =>
        have notNul : byte ≠ 0 := fun isNul =>
          noNul _ isFirst (isNul ▸ mem_cons_self)
        rw [cons_append] at skipped ⊢
        rw [countStrings, if_neg notNul, skipped, bind_some, later]
        rfl

/-- The buffer of a vector is also that of its strings up to an empty one. -/
theorem packed_upToEmpty
    (strings : List (List Byte))
    (junk : List Byte) :
    ∃ more,
      packed strings ++ 0 :: junk =
        packed (upToEmpty strings) ++ 0 :: more := by
  induction strings with
  | nil => exact ⟨junk, rfl⟩
  | cons string rest inductionHypothesis =>
    obtain ⟨more, isMore⟩ := inductionHypothesis
    unfold upToEmpty at *
    by_cases isEmpty : string = []
    · rw [takeWhile_cons_of_neg (by simpa using isEmpty), packed, isEmpty]
      exact ⟨packed rest ++ 0 :: junk, rfl⟩
    · rw [takeWhile_cons_of_pos (by simpa using isEmpty), packed, packed]
      refine ⟨more, ?_⟩
      rw [append_assoc, cons_append, isMore, append_assoc,
        cons_append]

/-- What `do_execve` takes the environment for. -/
theorem packs_environment
    {buffer junk : List Byte}
    (noNul : NoNul strings)
    (isBuffer : buffer = packed strings ++ 0 :: junk) :
    ∃ count,
      countStrings (buffer.length + 1) buffer = some count ∧
        Packs ⟨count, buffer⟩ (upToEmpty strings) := by
  obtain ⟨more, isMore⟩ := packed_upToEmpty strings junk
  rw [isMore] at isBuffer
  have atMost : (upToEmpty strings).length < buffer.length + 1 := by
    have inBuffer := length_le_packed (upToEmpty strings)
    rw [isBuffer, length_append]
    omega
  refine ⟨(upToEmpty strings).length, ?_, rfl, more, isBuffer⟩
  conv_lhs => rw [isBuffer]
  rw [isBuffer] at atMost
  refine countStrings_packed ?_ ?_ more atMost
  · exact fun other isOther =>
      noNul other (( takeWhile_prefix _).mem isOther)
  · intro other isOther
    have notEmpty := mem_takeWhile_imp isOther
    simpa using notEmpty

/-- A string is read to the end of the buffer, or does not fit. -/
theorem readString_spec
    {buf : List Byte}
    (isString : StringAt memory address string)
    (noNul : (0 : Byte) ∉ string)
    (fits : buf.length ≤ max)
    (enough : max < rounds + buf.length) :
    readString memory max rounds address buf =
      if buf.length + string.length + 1 ≤ max then
        .ok (buf ++ (string ++ [0]))
      else
        .error .e2big := by
  induction string generalizing rounds address buf with
  | nil =>
    have isNul : memory address = some 0 := isString 0 0 rfl
    cases rounds with
    | zero => omega
    | succ rounds =>
      rw [readString, isNul]
      by_cases isFull : max ≤ buf.length
      · rw [if_pos isFull, if_neg (by simp only [length_nil]; omega)]
      · rw [if_neg isFull, if_pos (by simp only [length_nil]; omega)]
        rfl
  | cons byte string inductionHypothesis =>
    rw [mem_cons, not_or] at noNul
    obtain ⟨isByte, isRest⟩ := FlatMemory.holds_cons.mp isString
    cases rounds with
    | zero => omega
    | succ rounds =>
      rw [readString, isByte]
      by_cases isFull : max ≤ buf.length
      · rw [if_pos isFull, if_neg (by simp only [length_cons]; omega)]
      · have later := @inductionHypothesis rounds _ (buf ++ [byte])
          isRest noNul.2
          (by
            rw [length_append, length_singleton]
            omega)
          (by
            rw [length_append, length_singleton]
            omega)
        rw [if_neg isFull]
        dsimp only
        rw [if_neg (Ne.symm noNul.1), later]
        refine if_congr ?_ ?_ rfl
        · rw [length_append, length_singleton, length_cons]
          omega
        · rw [append_assoc]
          rfl

/-- A vector is read into the buffer, or does not fit. -/
theorem readStrings_spec
    {count : Nat}
    {buf : List Byte}
    (isVector : VectorAt memory address strings)
    (noNul : NoNul strings)
    (fits : buf.length ≤ max)
    (enough : max < rounds + buf.length) :
    readStrings memory max rounds address count buf =
      if buf.length + (packed strings).length + 1 ≤ max then
        .ok ⟨count + strings.length, buf ++ (packed strings ++ [0])⟩
      else
        .error .e2big := by
  induction strings generalizing rounds address count buf with
  | nil =>
    have isEnd : FlatMemory.readWord memory address = some 0 := isVector
    cases rounds with
    | zero => omega
    | succ rounds =>
      rw [readStrings, isEnd]
      dsimp only
      rw [if_pos rfl, packed]
      by_cases isFull : max ≤ buf.length
      · rw [if_pos isFull, if_neg (by simp only [length_nil]; omega)]
      · rw [if_neg isFull, if_pos (by simp only [length_nil]; omega)]
        rfl
  | cons string rest inductionHypothesis =>
    obtain ⟨⟨pointer, isPointer, notNull, isString⟩, isRest⟩ := isVector
    have noNulFirst : (0 : Byte) ∉ string := noNul string mem_cons_self
    have noNulRest : NoNul rest := fun other isOther =>
      noNul other (mem_cons_of_mem _ isOther)
    cases rounds with
    | zero => omega
    | succ rounds =>
      rw [readStrings, isPointer]
      dsimp only
      rw [if_neg notNull, readString_spec isString noNulFirst fits (by omega),
        packed]
      by_cases stringFits : buf.length + string.length + 1 ≤ max
      · have longer :
            (buf ++ (string ++ [0])).length =
              buf.length + string.length + 1 := by
          simp only [length_append, length_singleton]
          omega
        have later := @inductionHypothesis rounds (address + 4) (count + 1)
          (buf ++ (string ++ [0])) isRest noNulRest (by omega) (by omega)
        rw [if_pos stringFits]
        refine later.trans (if_congr ?_ ?_ rfl)
        · rw [longer, length_append, length_cons]
          omega
        · rw [length_cons]
          simp only [append_assoc, cons_append, nil_append,
            Nat.add_assoc, Nat.add_comm 1]
      · rw [if_neg stringFits, if_neg (by
          rw [length_append, length_cons]
          omega)]
        rfl

theorem userReadStringArray_spec
    (isVector : VectorAt memory address strings)
    (noNul : NoNul strings) :
    userReadStringArray memory address max =
      if (packed strings).length + 1 ≤ max then
        .ok ⟨strings.length, packed strings ++ [0]⟩
      else
        .error .e2big := by
  have spec := @readStrings_spec strings memory (max + 1) max address 0 []
    isVector noNul (Nat.zero_le _) (Nat.lt_succ_self _)
  unfold userReadStringArray
  simpa only [length_nil, Nat.zero_add, nil_append] using spec

/-- The spaces before a text are skipped. -/
theorem dropSpaces
    {text : List Byte}
    (count : Nat)
    (noSpace : text.head? ≠ some 0x20) :
    (List.replicate count (0x20 : Byte) ++ text).dropWhile (· = 0x20) =
      text := by
  rw [dropWhile_append_of_pos (fun byte isByte => by
    rw [eq_of_mem_replicate isByte]
    rfl)]
  cases text with
  | nil => rfl
  | cons byte text =>
    refine dropWhile_cons_of_neg ?_
    intro isSpace
    exact noSpace (congrArg some (of_decide_eq_true isSpace))

theorem stripSpaces
    {text : List Byte}
    (count : Nat)
    (noSpace : text.getLast? ≠ some 0x20) :
    (text ++ List.replicate count (0x20 : Byte)).rdropWhile (· = 0x20) =
      text := by
  unfold List.rdropWhile
  rw [reverse_append, reverse_replicate, dropSpaces,
    reverse_reverse]
  rwa [List.head?_reverse]

/-- A word ends at the first space or with the text. -/
theorem word_split
    {word rest : List Byte}
    (noSpace : ∀ byte ∈ word, byte ≠ 0x20)
    (isEnd : rest = [] ∨ rest.head? = some 0x20) :
    (word ++ rest).takeWhile (· ≠ 0x20) = word ∧
      (word ++ rest).dropWhile (· ≠ 0x20) = rest := by
  have all : ∀ byte ∈ word, decide (byte ≠ 0x20) = true := fun byte isByte =>
    decide_eq_true (noSpace byte isByte)
  rw [takeWhile_append_of_pos all, dropWhile_append_of_pos all]
  rcases isEnd with rfl | isSpace
  · exact ⟨append_nil word, rfl⟩
  · cases rest with
    | nil => cases isSpace
    | cons byte rest =>
      cases isSpace
      exact ⟨append_nil word, rfl⟩

/-- The text behind the interpreter. -/
def argumentText (between : Nat) : Option (List Byte) → List Byte
  | none => []
  | some text => List.replicate (between + 1) 0x20 ++ text

theorem parseShebang_line
    {between : Nat}
    (isWord :
      interpreter ≠ [] ∧ ∀ byte ∈ interpreter, byte ∉ [0, 0x0a, 0x20])
    (isArgument :
      ∀ text ∈ argument,
        (∀ byte ∈ text, byte ∉ [0, 0x0a]) ∧
          (∃ first, text.head? = some first ∧ first ≠ 0x20) ∧
          ∃ last, text.getLast? = some last ∧ last ≠ 0x20)
    (before after : Nat) :
    parseShebang
        (0x23 :: 0x21 :: (List.replicate before 0x20 ++ interpreter ++
          argumentText between argument ++ List.replicate after 0x20)) =
      some (interpreter, argument) := by
  have noSpace : ∀ byte ∈ interpreter, byte ≠ 0x20 := by
    rintro byte isByte rfl
    exact isWord.2 _ isByte (by decide)
  have headNoSpace : ∀ rest, (interpreter ++ rest).head? ≠ some 0x20 := by
    intro rest isSpace
    cases interpreter with
    | nil => exact isWord.1 rfl
    | cons byte interpreter =>
      exact noSpace byte mem_cons_self (some.inj isSpace)
  rw [parseShebang, if_pos ⟨rfl, rfl⟩]
  dsimp only
  rw [append_assoc, append_assoc, dropSpaces before (headNoSpace _),
    if_neg (by
      rw [append_eq_nil_iff]
      exact fun isNil => isWord.1 isNil.1)]
  cases argument with
  | none =>
    have isEnd :
        argumentText between none ++ List.replicate after (0x20 : Byte) = [] ∨
          (argumentText between none ++
            List.replicate after (0x20 : Byte)).head? = some 0x20 := by
      cases after with
      | zero => exact .inl rfl
      | succ after => exact .inr rfl
    obtain ⟨taken, dropped⟩ := word_split noSpace isEnd
    rw [taken, dropped]
    have noText : ([] : List Byte).head? ≠ some 0x20 := fun isSpace => by
      cases isSpace
    have stripped := dropSpaces after noText
    rw [append_nil] at stripped
    rw [argumentText, nil_append, stripped]
    exact if_pos rfl
  | some text =>
    obtain ⟨_, ⟨first, isFirst, notSpace⟩, last, isLast, lastNotSpace⟩ :=
      isArgument text rfl
    have isEnd :
        (argumentText between (some text) ++
          List.replicate after (0x20 : Byte)).head? = some 0x20 :=
      rfl
    obtain ⟨taken, dropped⟩ := word_split noSpace (.inr isEnd)
    have textNoSpace :
        (text ++ List.replicate after (0x20 : Byte)).head? ≠ some 0x20 := by
      rw [List.head?_append, isFirst]
      exact fun isSpace => notSpace (some.inj isSpace)
    have endNoSpace : text.getLast? ≠ some 0x20 := by
      rw [isLast]
      exact fun isSpace => lastNotSpace (some.inj isSpace)
    rw [taken, dropped, argumentText, append_assoc,
      dropSpaces _ textNoSpace, stripSpaces after endNoSpace, if_neg]
    rintro rfl
    cases isFirst

theorem line_bytes
    (before between after : Nat)
    (isWord : ∀ byte ∈ interpreter, byte ∉ [0, 0x0a, 0x20])
    (isArgument : ∀ text ∈ argument, ∀ byte ∈ text, byte ∉ [0, 0x0a]) :
    ∀ byte ∈
      0x23 :: 0x21 :: (List.replicate before 0x20 ++ interpreter ++
        argumentText between argument ++ List.replicate after 0x20),
      byte ≠ 0 ∧ byte ≠ 0x0a := by
  have spaces : ∀ count, ∀ byte ∈ List.replicate count (0x20 : Byte),
      byte ≠ 0 ∧ byte ≠ 0x0a := by
    intro count byte isByte
    rw [eq_of_mem_replicate isByte]
    decide
  intro byte isByte
  rcases mem_cons.mp isByte with rfl | isByte
  · decide
  rcases mem_cons.mp isByte with rfl | isByte
  · decide
  rcases mem_append.mp isByte with isByte | isByte
  · rcases mem_append.mp isByte with isByte | isByte
    · rcases mem_append.mp isByte with isByte | isByte
      · exact spaces before byte isByte
      · have others := isWord byte isByte
        simp only [mem_cons, not_or] at others
        exact ⟨others.1, others.2.1⟩
    · cases argument with
      | none => cases isByte
      | some text =>
        rcases mem_append.mp isByte with isByte | isByte
        · exact spaces (between + 1) byte isByte
        · have others := isArgument text rfl byte isByte
          simp only [mem_cons, not_or] at others
          exact ⟨others.1, others.2.1⟩
  · exact spaces after byte isByte

/-- The first line is found, or is too long. -/
theorem firstLine_of_line
    {line : List Byte}
    (isLine : ∀ byte ∈ line, byte ≠ 0 ∧ byte ≠ 0x0a)
    (rest : List Byte) :
    firstLine (line ++ 0x0a :: rest) = none ∨
      firstLine (line ++ 0x0a :: rest) = some line := by
  have noNul : ∀ byte ∈ line, decide (byte ≠ 0) = true := fun byte isByte =>
    decide_eq_true (isLine byte isByte).1
  have noNewline : ∀ byte ∈ line, decide (byte ≠ 0x0a) = true :=
    fun byte isByte => decide_eq_true (isLine byte isByte).2
  unfold firstLine
  dsimp only
  rw [take_append]
  rcases Nat.lt_or_ge line.length 127 with isShort | isLong
  · refine .inr ?_
    obtain ⟨left, isLeft⟩ : ∃ left, 127 - line.length = left + 1 :=
      ⟨127 - line.length - 1, by omega⟩
    rw [take_of_length_le (Nat.le_of_lt isShort), isLeft,
      take_succ_cons, takeWhile_append_of_pos noNul,
      takeWhile_cons_of_pos (by decide), if_pos (by simp),
      takeWhile_append_of_pos noNewline,
      takeWhile_cons_of_neg (by decide), append_nil]
  · refine .inl ?_
    rw [Nat.sub_eq_zero_of_le isLong, take_zero, append_nil, if_neg]
    intro isNewline
    have inLine := mem_of_mem_take
      (( takeWhile_prefix _).mem isNewline)
    exact (isLine _ inLine).2 rfl

/-- What `shebang_exec` finds in a script. -/
theorem parse_of_shebang
    (isShebang : IsShebang content interpreter argument) :
    (firstLine content).bind parseShebang = none ∨
      (firstLine content).bind parseShebang = some (interpreter, argument) := by
  obtain ⟨before, between, after, rest, isWord, isArgument, isContent⟩ :=
    isShebang
  have isLine := line_bytes before between after isWord.2
    fun text isText => (isArgument text isText).1
  have shape :
      content =
        (0x23 :: 0x21 :: (List.replicate before 0x20 ++ interpreter ++
          argumentText between argument ++ List.replicate after 0x20)) ++
            0x0a :: rest := by
    rw [isContent]
    cases argument with
    | none | some text => simp only [argumentText, cons_append, append_assoc]
  rw [shape]
  rcases firstLine_of_line isLine rest with isNone | isSome
  · rw [isNone]
    exact .inl rfl
  · rw [isSome]
    exact .inr (parseShebang_line isWord isArgument before after)

theorem ok_bind
    {α β : Type}
    (value : α)
    (next : α → Except ExecError β) :
    (Except.ok value >>= next) = next value :=
  rfl

theorem countLess_succ
    {count : Nat}
    (atMost : count + 1 ≤ argvMax) :
    countLess (count + 1) = count := by
  unfold countLess
  unfold argvMax at atMost
  omega

theorem packs_interpreter
    (interpreter file : List Byte)
    (argument : Option (List Byte))
    (rest : List (List Byte)) :
    extraArgs interpreter argument file ++ (packed rest ++ [0]) =
      packed (interpreter :: argument.toList ++ file :: rest) ++ [0] := by
  unfold extraArgs
  cases argument with
  | none =>
    simp only [toList_none, cons_append, nil_append, packed,
      append_assoc]
  | some text =>
    simp only [toList_some, cons_append, nil_append, packed,
      append_assoc]

/-- `shebang_exec` when it neither refuses the line nor leaves the buffer. -/
theorem shebangArgs_eq
    {file rest : List Byte}
    {argv : ExecArgs}
    {restSize : Nat}
    (isParsed :
      (firstLine content).bind parseShebang = some (interpreter, argument))
    (skipped : skipString argv.args = some rest)
    (sized : argsSize (countLess argv.count) rest = some restSize) :
    shebangArgs content file argv =
      if argvMax ≤ restSize + (extraArgs interpreter argument file).length then
        .error .e2big
      else
        .ok (interpreter,
          ⟨((if argument.isSome then 3 else 2) + countLess argv.count) % 2 ^ 64,
            extraArgs interpreter argument file ++ rest.take restSize⟩) := by
  unfold shebangArgs
  rw [isParsed]
  dsimp only
  rw [skipped, orUndefined, ok_bind, sized, orUndefined, ok_bind]

/--
What `shebang_exec` passes on: the interpreter's vector, unless it refuses the
script; but without any argument it walks out of its buffer.
-/
theorem shebangArgs_spec
    {file : List Byte}
    {argv : ExecArgs}
    (isShebang : IsShebang content interpreter argument)
    (noNul : NoNul strings)
    (isBuffer : argv = ⟨strings.length, packed strings ++ [0]⟩)
    (atMost : strings.length ≤ argvMax) :
    (∃ error, shebangArgs content file argv = .error error ∧
        error ≠ .undefined) ∨
      strings = [] ∧ shebangArgs content file argv = .error .undefined ∨
        strings ≠ [] ∧
          ∃ args,
            shebangArgs content file argv = .ok (interpreter, args) ∧
              Packs args
                (interpreter :: argument.toList ++ file :: strings.tail) := by
  subst isBuffer
  rcases parse_of_shebang isShebang with isNone | isParsed
  · refine .inl ⟨.noexec, ?_, fun isUndefined => by cases isUndefined⟩
    unfold shebangArgs
    rw [isNone]
  cases strings with
  | nil =>
    obtain ⟨count, isCount⟩ : ∃ count, countLess 0 = count + 1 :=
      ⟨2 ^ 64 - 2, by
        unfold countLess
        omega⟩
    refine .inr (.inl ⟨rfl, ?_⟩)
    unfold shebangArgs
    rw [isParsed]
    dsimp only
    rw [show skipString (packed [] ++ [0]) = some [] from rfl,
      length_nil, isCount]
    rfl
  | cons first rest =>
    have noNulRest : NoNul rest := fun other isOther =>
      noNul other (mem_cons_of_mem _ isOther)
    have skipped :
        skipString (packed (first :: rest) ++ [0]) =
          some (packed rest ++ [0]) := by
      rw [packed, append_assoc, cons_append]
      exact skipString_append (noNul first mem_cons_self) _
    have isLess : countLess (first :: rest).length = rest.length :=
      countLess_succ atMost
    have sized :
        argsSize (countLess (first :: rest).length) (packed rest ++ [0]) =
          some ((packed rest).length + 1) := by
      rw [isLess]
      exact argsSize_packed noNulRest []
    have isResult :
        shebangArgs content file
            ⟨(first :: rest).length, packed (first :: rest) ++ [0]⟩ = _ :=
      shebangArgs_eq isParsed skipped sized
    rw [isResult]
    by_cases isFull :
        argvMax ≤
          (packed rest).length + 1 +
            (extraArgs interpreter argument file).length
    · rw [if_pos isFull]
      exact .inl ⟨.e2big, rfl, fun isUndefined => by cases isUndefined⟩
    · rw [if_neg isFull]
      refine .inr (.inr ⟨cons_ne_nil _ _, _, rfl, ?_, [], ?_⟩)
      · dsimp only
        rw [isLess, tail_cons]
        rw [length_cons] at atMost
        unfold argvMax at atMost
        cases argument with
        | none =>
          simp only [isSome_none, Bool.false_eq_true, if_false,
            toList_none, length_cons, length_append,
            length_nil]
          omega
        | some text =>
          simp only [isSome_some, if_true, toList_some,
            length_cons, length_append, length_nil]
          omega
      · have whole :
            (packed rest ++ [0]).take ((packed rest).length + 1) =
              packed rest ++ [0] := by
          refine take_of_length_le ?_
          rw [length_append, length_singleton]
        rw [whole, tail_cons]
        exact packs_interpreter interpreter file argument rest

end Packing

end GuestKernel
