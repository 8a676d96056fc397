import GuestKernel.ExecPacking

namespace GuestKernel
open List
open FlatMemory

/-!
# The vectors on the new stack

Every write of the stack setup lies below the ones before it, or among the
pointers between the new `esp` and the strings.  So the strings stay, the loops
that walk over them find each one, and what no loop writes is still zero.
-/

open FlatMemory (store HoldsBytes readWord)
open ByteMemory (wordBytes wordsBytes)

namespace Packing

/-- A call that neither leaves a buffer nor fails an assertion. -/
def Defined {α : Type} (result : Except ExecError α) : Prop :=
  result ≠ .error .undefined

theorem bind_ok
    {α β : Type}
    {first : Except ExecError α}
    {next : α → Except ExecError β}
    {value : β}
    (step : (first >>= next) = .ok value) :
    ∃ middle, first = .ok middle ∧ next middle = .ok value := by
  cases first with
  | error error => cases step
  | ok middle => exact ⟨middle, rfl, step⟩

theorem Defined.bind
    {α β : Type}
    {first : Except ExecError α}
    {next : α → Except ExecError β}
    (isFirst : Defined first)
    (isNext : ∀ middle, first = .ok middle → Defined (next middle)) :
    Defined (first >>= next) := by
  cases first with
  | error error =>
    intro isUndefined
    refine isFirst ?_
    cases isUndefined
    rfl
  | ok middle => exact isNext middle rfl

variable {memory next : FlatMemory}
variable {strings : List (List Byte)}
variable {args : ExecArgs}
variable {below start sp after p address last : Nat}
variable {bytes : List Byte}

/-- Only bytes of the stack are mapped. -/
def InStack (below : Nat) (memory : FlatMemory) : Prop :=
  ∀ address, (memory address).isSome → below < address ∧ address < stackTop

theorem userWrite_ok
    (step : userWrite memory start bytes = .ok next) :
    next = store memory start bytes ∧
      ∀ offset, offset < bytes.length → (memory (start + offset)).isSome := by
  unfold userWrite at step
  split at step
  case isTrue isMapped =>
    cases step
    exact ⟨rfl, isMapped⟩
  case isFalse => cases step

/-- A write maps nothing new. -/
theorem InStack.write
    (inStack : InStack below memory)
    (step : userWrite memory start bytes = .ok next) :
    InStack below next := by
  obtain ⟨rfl, isMapped⟩ := userWrite_ok step
  intro address isSome
  by_cases inside : start ≤ address ∧ address < start + bytes.length
  · have wasMapped := isMapped (address - start) (by omega)
    rw [Nat.add_sub_cancel' inside.1] at wasMapped
    exact inStack address wasMapped
  · rcases Nat.lt_or_ge address start with before | behind
    · rw [store_before before] at isSome
      exact inStack address isSome
    · rw [store_after (by omega)] at isSome
      exact inStack address isSome

theorem InStack.start_of_write
    (inStack : InStack below memory)
    (step : userWrite memory start bytes = .ok next)
    (notEmpty : 0 < bytes.length) :
    below < start ∧ start < stackTop :=
  inStack start ((userWrite_ok step).2 0 notEmpty)

theorem pushBytes_ok
    (step : pushBytes memory sp bytes = .ok (next, after)) :
    userWrite memory after bytes = .ok next ∧ 0 < after ∧
      after + bytes.length = sp := by
  obtain ⟨middle, written, rest⟩ := bind_ok step
  split at rest
  · cases rest
  · cases rest
    exact ⟨written, by omega, by omega⟩

/-- What `args_copy` does with the strings of a vector. -/
theorem argsCopy_ok
    (noNul : NoNul strings)
    (packs : Packs args strings)
    (step : argsCopy memory sp args = .ok (next, after)) :
    userWrite memory after (packed strings ++ [0]) = .ok next ∧ 0 < after ∧
      after + ((packed strings).length + 1) = sp := by
  obtain ⟨isCount, junk, isBuffer⟩ := packs
  have sized := argsSize_packed noNul junk
  unfold argsCopy at step
  rw [isCount, isBuffer, sized] at step
  have taken :
      (packed strings ++ 0 :: junk).take ((packed strings).length + 1) =
        packed strings ++ [0] := by
    rw [take_append, take_of_length_le (Nat.le_succ _),
      Nat.add_sub_cancel_left, take_succ_cons, take_zero]
  have pushed :
      pushBytes memory sp (packed strings ++ [0]) = .ok (next, after) := by
    rw [← taken]
    exact step
  have spec := pushBytes_ok pushed
  rwa [length_append, length_singleton] at spec

/-- The addresses of strings that follow each other. -/
def pointers (address : Nat) : List (List Byte) → List (BitVec 32)
  | [] => []
  | string :: rest =>
    BitVec.ofNat 32 address :: pointers (address + string.length + 1) rest

theorem pointers_length
    (address : Nat)
    (strings : List (List Byte)) :
    (pointers address strings).length = strings.length := by
  induction strings generalizing address with
  | nil => rfl
  | cons string rest inductionHypothesis =>
    rw [pointers, length_cons, inductionHypothesis, length_cons]

/-- `user_strlen` finds the end of a string. -/
theorem userStrlen_spec
    {string more : List Byte}
    {rounds : Nat}
    (isString : HoldsBytes memory address (string ++ 0 :: more))
    (noNul : (0 : Byte) ∉ string)
    (enough : string.length < rounds) :
    userStrlen memory rounds address = some string.length := by
  induction string generalizing rounds address with
  | nil =>
    have isNul := (holds_cons.mp isString).1
    cases rounds with
    | zero => omega
    | succ rounds =>
      rw [userStrlen, isNul]
      rfl
  | cons byte string inductionHypothesis =>
    rw [mem_cons, not_or] at noNul
    obtain ⟨isByte, isRest⟩ := holds_cons.mp isString
    cases rounds with
    | zero => omega
    | succ rounds =>
      rw [userStrlen, isByte, Option.bind_some, if_neg (Ne.symm noNul.1),
        inductionHypothesis isRest noNul.2 (Nat.lt_of_succ_lt_succ enough)]
      rfl

/-- A loop writes the pointers to the strings, and nothing else. -/
theorem putPointers_ok
    (holds : HoldsBytes memory address (packed strings))
    (noNul : NoNul strings)
    (isBelow : p + 4 * strings.length ≤ address)
    (small : address + (packed strings).length ≤ 2 ^ 32)
    (step : putPointers strings.length memory p address = .ok (next, last)) :
    last = p + 4 * strings.length ∧
      (∀ other, other < p ∨ p + 4 * strings.length ≤ other →
        next other = memory other) ∧
        HoldsBytes next p (wordsBytes (pointers address strings)) := by
  induction strings generalizing memory p address with
  | nil =>
    cases step
    refine ⟨rfl, fun _ _ => rfl, ?_⟩
    intro index byte isByte
    cases isByte
  | cons string rest inductionHypothesis =>
    rw [length_cons] at isBelow step ⊢
    rw [packed, length_append, length_cons] at small
    obtain ⟨written, isWritten, later⟩ := bind_ok step
    obtain ⟨rfl, _⟩ := userWrite_ok isWritten
    have stays :
        HoldsBytes (store memory p (wordBytes (BitVec.ofNat 32 address)))
          address (packed (string :: rest)) :=
      holds.store_below (show p + 4 ≤ address by omega)
    have isLength := userStrlen_spec stays (noNul string mem_cons_self)
      (show string.length < 2 ^ 32 by omega)
    have isAfter :
        afterString
            (store memory p (wordBytes (BitVec.ofNat 32 address))) address =
          address + string.length + 1 := by
      unfold afterString
      rw [isLength]
    rw [isAfter] at later
    have holdsRest :
        HoldsBytes (store memory p (wordBytes (BitVec.ofNat 32 address)))
          (address + string.length + 1) (packed rest) := by
      rw [packed] at stays
      exact (holds_cons.mp (holds_append.mp stays).2).2
    obtain ⟨isLast, same, isPointers⟩ := inductionHypothesis holdsRest
      (fun other isOther => noNul other (mem_cons_of_mem _ isOther))
      (by omega) (by omega) later
    refine ⟨by omega, ?_, ?_⟩
    · intro other outside
      rw [same other (by omega)]
      rcases outside with before | behind
      · exact store_before before
      · refine store_after ?_
        rw [ByteMemory.wordBytes_length]
        omega
    · rw [pointers, wordsBytes, holds_append]
      have isFirst :
          HoldsBytes (store memory p (wordBytes (BitVec.ofNat 32 address))) p
            (wordBytes (BitVec.ofNat 32 address)) :=
        holds_store
      refine ⟨isFirst.congr ?_, isPointers⟩
      intro other _ isBefore
      rw [ByteMemory.wordBytes_length] at isBefore
      exact same other (.inl isBefore)

/-- Pointers to strings, with a null pointer behind them, are a vector. -/
theorem vectorAt_of_pointers
    (isPointers : HoldsBytes memory p (wordsBytes (pointers address strings)))
    (holds : HoldsBytes memory address (packed strings))
    (notNull : 0 < address)
    (small : address + (packed strings).length ≤ 2 ^ 32)
    (isEnd : readWord memory (p + 4 * strings.length) = some 0) :
    VectorAt memory p strings := by
  induction strings generalizing p address with
  | nil => exact isEnd
  | cons string rest inductionHypothesis =>
    rw [packed, length_append, length_cons] at small
    rw [pointers, wordsBytes, holds_append] at isPointers
    have isAddress : (BitVec.ofNat 32 address).toNat = address := by
      rw [BitVec.toNat_ofNat, Nat.mod_eq_of_lt (by omega)]
    have holdsParts := holds
    rw [packed, ← singleton_append, ← append_assoc,
      holds_append, length_append, length_singleton]
      at holdsParts
    refine ⟨⟨BitVec.ofNat 32 address,
      readWord_of_holds isPointers.1, ?_, ?_⟩, ?_⟩
    · intro isNull
      rw [isNull] at isAddress
      exact absurd isAddress (Nat.ne_of_lt notNull)
    · rw [isAddress]
      exact holdsParts.1
    · refine inductionHypothesis isPointers.2 holdsParts.2 (by omega)
        (by omega) ?_
      rw [length_cons] at isEnd
      rwa [Nat.add_assoc, Nat.add_comm 4, ← Nat.mul_succ]

/-- At most one string lies at an address. -/
theorem stringAt_unique
    {first second : List Byte}
    (isFirst : StringAt memory address first)
    (isSecond : StringAt memory address second)
    (firstNoNul : (0 : Byte) ∉ first)
    (secondNoNul : (0 : Byte) ∉ second) :
    first = second := by
  induction first generalizing second address with
  | nil =>
    cases second with
    | nil => rfl
    | cons byte second =>
      have isNul := (holds_cons.mp isFirst).1
      have isByte := (holds_cons.mp isSecond).1
      rw [isNul] at isByte
      rw [Option.some.inj isByte] at secondNoNul
      exact absurd mem_cons_self secondNoNul
  | cons byte first inductionHypothesis =>
    obtain ⟨isByte, firstRest⟩ := holds_cons.mp isFirst
    cases second with
    | nil =>
      have isNul := (holds_cons.mp isSecond).1
      rw [isNul] at isByte
      rw [Option.some.inj isByte] at firstNoNul
      exact absurd mem_cons_self firstNoNul
    | cons other second =>
      obtain ⟨isOther, secondRest⟩ := holds_cons.mp isSecond
      rw [isByte] at isOther
      rw [Option.some.inj isOther,
        inductionHypothesis firstRest secondRest
          (fun isMember => firstNoNul (mem_cons_of_mem _ isMember))
          (fun isMember => secondNoNul (mem_cons_of_mem _ isMember))]

/-- At most one vector lies at an address. -/
theorem vectorAt_unique
    {first second : List (List Byte)}
    (isFirst : VectorAt memory address first)
    (isSecond : VectorAt memory address second)
    (firstNoNul : NoNul first)
    (secondNoNul : NoNul second) :
    first = second := by
  induction first generalizing second address with
  | nil =>
    cases second with
    | nil => rfl
    | cons string second =>
      obtain ⟨⟨pointer, isPointer, notNull, _⟩, _⟩ := isSecond
      have isEnd : readWord memory address = some 0 := isFirst
      rw [isEnd] at isPointer
      exact absurd (Option.some.inj isPointer).symm notNull
  | cons string first inductionHypothesis =>
    obtain ⟨⟨pointer, isPointer, notNull, isString⟩, firstRest⟩ := isFirst
    cases second with
    | nil =>
      have isEnd : readWord memory address = some 0 := isSecond
      rw [isEnd] at isPointer
      exact absurd (Option.some.inj isPointer).symm notNull
    | cons other second =>
      obtain ⟨⟨otherPointer, isOther, _, otherString⟩, secondRest⟩ :=
        isSecond
      rw [isPointer] at isOther
      rw [← Option.some.inj isOther] at otherString
      rw [stringAt_unique isString otherString
          (firstNoNul string mem_cons_self)
          (secondNoNul other mem_cons_self),
        inductionHypothesis firstRest secondRest
          (fun later isLater =>
            firstNoNul later (mem_cons_of_mem _ isLater))
          (fun later isLater =>
            secondNoNul later (mem_cons_of_mem _ isLater))]

end Packing

end GuestKernel
