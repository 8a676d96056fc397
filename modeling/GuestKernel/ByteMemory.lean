import Mathlib.Data.BitVec
import Mathlib.Data.List.Basic

namespace GuestKernel
open List Option

/-!
# Byte memories

A memory of bytes with addresses of any width, in which some addresses hold
nothing, and the 32-bit words in it, low byte first.  Addresses wrap; a block
that is written reads back as long as it does not meet itself.
-/

/-- Bytes at addresses of `w` bits. -/
abbrev ByteMemory (w : Nat) := BitVec w → Option (BitVec 8)

namespace ByteMemory

variable {w : Nat}

/-- The bytes of a word. -/
def wordBytes (word : BitVec 32) : List (BitVec 8) :=
  [word.extractLsb' 0 8, word.extractLsb' 8 8, word.extractLsb' 16 8,
    word.extractLsb' 24 8]

/-- The bytes of some words, one after the other. -/
def wordsBytes : List (BitVec 32) → List (BitVec 8)
  | [] => []
  | word :: rest => wordBytes word ++ wordsBytes rest

/-- Write bytes from an address on. -/
def writeBytes
    (memory : ByteMemory w)
    (start : BitVec w)
    (bytes : List (BitVec 8)) : ByteMemory w :=
  fun address => bytes[(address - start).toNat]?.or (memory address)

/-- The word at an address. -/
def readWord
    (memory : ByteMemory w) (address : BitVec w) : Option (BitVec 32) := do
  let first ← memory address
  let second ← memory (address + 1)
  let third ← memory (address + 2)
  let fourth ← memory (address + 3)
  pure (fourth ++ third ++ second ++ first)

/-- The words from an address on. -/
def readWords
    (memory : ByteMemory w)
    (address : BitVec w) : Nat → Option (List (BitVec 32))
  | 0 => some []
  | count + 1 => do
      let word ← readWord memory address
      let rest ← readWords memory (address + 4) count
      pure (word :: rest)

/-- Two memories have the same bytes in a block. -/
def AgreeOn
    (start : BitVec w) (size : Nat) (memory other : ByteMemory w) : Prop :=
  ∀ offset, offset < size →
    memory (start + BitVec.ofNat w offset) =
      other (start + BitVec.ofNat w offset)

@[simp] theorem wordBytes_length (word : BitVec 32) :
    (wordBytes word).length = 4 :=
  rfl

@[simp] theorem wordsBytes_length (words : List (BitVec 32)) :
    (wordsBytes words).length = 4 * words.length := by
  induction words with
  | nil =>
    rfl
  | cons word rest inductionHypothesis =>
    rw [wordsBytes, length_append, inductionHypothesis,
      wordBytes_length, length_cons]
    omega

theorem wordsBytes_append (words others : List (BitVec 32)) :
    wordsBytes (words ++ others) = wordsBytes words ++ wordsBytes others := by
  induction words with
  | nil =>
    rfl
  | cons word rest inductionHypothesis =>
    rw [cons_append, wordsBytes, wordsBytes, inductionHypothesis,
      append_assoc]

theorem append_wordBytes (word : BitVec 32) :
    word.extractLsb' 24 8 ++ word.extractLsb' 16 8 ++
      word.extractLsb' 8 8 ++ word.extractLsb' 0 8 = word := by
  apply BitVec.eq_of_getLsbD_eq
  intro index inside
  simp only [BitVec.getLsbD_append, BitVec.getLsbD_extractLsb']
  have place :
      index < 8 ∨ (8 ≤ index ∧ index < 16) ∨ (16 ≤ index ∧ index < 24) ∨
        24 ≤ index := by
    omega
  rcases place with low | ⟨least, most⟩ | ⟨least, most⟩ | least
  · simp [low]
  · have second : 8 + (index - 8) = index := by omega
    simp [second, show ¬ index < 8 by omega, show index - 8 < 8 by omega]
  · have third : 16 + (index - 8 - 8) = index := by omega
    simp [third, show ¬ index < 8 by omega, show ¬ index - 8 < 8 by omega,
      show index - 8 - 8 < 8 by omega]
  · have fourth : 24 + (index - 8 - 8 - 8) = index := by omega
    simp [fourth, show ¬ index < 8 by omega, show ¬ index - 8 < 8 by omega,
      show ¬ index - 8 - 8 < 8 by omega,
      show index - 8 - 8 - 8 < 8 by omega]

/-- A byte that was written reads back. -/
theorem writeBytes_at
    {bytes : List (BitVec 8)}
    {offset : Nat}
    {byte : BitVec 8}
    (memory : ByteMemory w)
    (start : BitVec w)
    (isByte : bytes[offset]? = some byte)
    (noWrap : bytes.length ≤ 2 ^ w) :
    writeBytes memory start bytes (start + BitVec.ofNat w offset) =
      some byte := by
  obtain ⟨inside, _⟩ := List.getElem?_eq_some_iff.mp isByte
  have back : (start + BitVec.ofNat w offset - start).toNat = offset := by
    rw [BitVec.add_comm, BitVec.add_sub_cancel, BitVec.toNat_ofNat]
    exact Nat.mod_eq_of_lt (by omega)
  unfold writeBytes
  rw [back, isByte]
  rfl

/-- A block of words that was written reads back from any of its words on. -/
theorem readWords_writeBytes_append
    {done words : List (BitVec 32)}
    (memory : ByteMemory w)
    (start : BitVec w)
    (noWrap : 4 * (done ++ words).length ≤ 2 ^ w) :
    readWords (writeBytes memory start (wordsBytes (done ++ words)))
        (start + BitVec.ofNat w (4 * done.length)) words.length =
      some words := by
  induction words generalizing done with
  | nil =>
    rfl
  | cons word rest inductionHypothesis =>
    have byteAt :
        ∀ index byte,
          (wordBytes word)[index]? = some byte →
          writeBytes memory start (wordsBytes (done ++ word :: rest))
              (start + BitVec.ofNat w (4 * done.length) +
                BitVec.ofNat w index) = some byte := by
      intro index byte isByte
      rw [BitVec.add_assoc, ← BitVec.ofNat_add]
      apply writeBytes_at
      · rw [wordsBytes_append, List.getElem?_append_right (by simp)]
        rw [wordsBytes_length, Nat.add_sub_cancel_left, wordsBytes]
        obtain ⟨inside, _⟩ := List.getElem?_eq_some_iff.mp isByte
        rw [List.getElem?_append_left inside]
        exact isByte
      · rw [wordsBytes_length]
        exact noWrap
    have isWord :
        readWord (writeBytes memory start (wordsBytes (done ++ word :: rest)))
            (start + BitVec.ofNat w (4 * done.length)) = some word := by
      have first := byteAt 0 _ rfl
      rw [BitVec.add_zero] at first
      have second := byteAt 1 _ rfl
      have third := byteAt 2 _ rfl
      have fourth := byteAt 3 _ rfl
      simp only [readWord, BitVec.ofNat_eq_ofNat, first, second, third,
        fourth, bind_eq_bind, bind_some]
      exact congrArg some (append_wordBytes word)
    have shape : done ++ word :: rest = (done ++ [word]) ++ rest := by
      rw [append_assoc, singleton_append]
    have onward :
        start + BitVec.ofNat w (4 * done.length) + 4 =
          start + BitVec.ofNat w (4 * (done ++ [word]).length) := by
      rw [length_append, length_singleton, Nat.mul_add,
        BitVec.ofNat_add, BitVec.add_assoc]
      rfl
    have isRest :=
      @inductionHypothesis (done ++ [word]) (by
        rw [← shape]
        exact noWrap)
    rw [← shape, ← onward] at isRest
    rw [length_cons, readWords, isWord, bind_eq_bind,
      bind_some, isRest]
    rfl

theorem readWords_writeBytes
    {words : List (BitVec 32)}
    (memory : ByteMemory w)
    (start : BitVec w)
    (noWrap : 4 * words.length ≤ 2 ^ w) :
    readWords (writeBytes memory start (wordsBytes words)) start
      words.length = some words := by
  have readBack :=
    @readWords_writeBytes_append w [] words memory start noWrap
  rwa [length_nil, Nat.mul_zero, BitVec.add_zero, nil_append]
    at readBack

/-- Words only depend on the bytes of their block. -/
theorem readWords_congr
    {memory other : ByteMemory w}
    {count : Nat} :
    ∀ {start : BitVec w},
      AgreeOn start (4 * count) memory other →
      readWords memory start count = readWords other start count := by
  induction count with
  | zero =>
    intro start _
    rfl
  | succ count inductionHypothesis =>
    intro start agree
    have byteAt :
        ∀ index, index < 4 →
          memory (start + BitVec.ofNat w index) =
            other (start + BitVec.ofNat w index) := fun index inside =>
      agree index (by omega)
    have sameWord : readWord memory start = readWord other start := by
      have first := byteAt 0 (by omega)
      rw [BitVec.add_zero] at first
      have second := byteAt 1 (by omega)
      have third := byteAt 2 (by omega)
      have fourth := byteAt 3 (by omega)
      simp only [readWord, BitVec.ofNat_eq_ofNat, first, second, third,
        fourth]
    have sameRest :=
      @inductionHypothesis (start + 4) (by
        intro offset inside
        have further := agree (4 + offset) (by omega)
        rwa [BitVec.ofNat_add, ← BitVec.add_assoc] at further)
    rw [readWords, readWords, sameWord, sameRest]

end ByteMemory

end GuestKernel
