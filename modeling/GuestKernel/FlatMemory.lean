import GuestKernel.ByteMemory

namespace GuestKernel

/-!
# Memories with plain addresses

A memory of bytes whose addresses are numbers, blocks written to it one after
the other, and what a block still holds after later writes elsewhere.
-/

/-- Bytes at numbered addresses. -/
abbrev FlatMemory := Nat → Option (BitVec 8)

namespace FlatMemory

open ByteMemory (wordBytes wordsBytes)

/-- Write bytes from an address on. -/
def store
    (memory : FlatMemory)
    (start : Nat)
    (bytes : List (BitVec 8)) : FlatMemory :=
  fun address =>
    if start ≤ address then
      bytes[address - start]?.or (memory address)
    else
      memory address

/-- The word at an address, low byte first. -/
def readWord (memory : FlatMemory) (address : Nat) : Option (BitVec 32) := do
  let first ← memory address
  let second ← memory (address + 1)
  let third ← memory (address + 2)
  let fourth ← memory (address + 3)
  pure (fourth ++ third ++ second ++ first)

/-- A block has these bytes. -/
def HoldsBytes
    (memory : FlatMemory)
    (start : Nat)
    (bytes : List (BitVec 8)) : Prop :=
  ∀ index byte, bytes[index]? = some byte → memory (start + index) = some byte

variable {memory other : FlatMemory}
variable {start later : Nat}
variable {bytes more : List (BitVec 8)}

theorem store_before
    {address : Nat}
    (isBefore : address < start) :
    store memory start bytes address = memory address :=
  if_neg (Nat.not_le.mpr isBefore)

theorem store_after
    {address : Nat}
    (isAfter : start + bytes.length ≤ address) :
    store memory start bytes address = memory address := by
  unfold store
  rw [if_pos (Nat.le_trans (Nat.le_add_right _ _) isAfter),
    List.getElem?_eq_none (by omega)]
  rfl

theorem holds_store :
    HoldsBytes (store memory start bytes) start bytes := by
  intro index byte isByte
  unfold store
  rw [if_pos (Nat.le_add_right _ _), Nat.add_sub_cancel_left, isByte]
  rfl

theorem holds_of_bytes
    (same :
      ∀ index, index < bytes.length → memory (start + index) = bytes[index]?) :
    HoldsBytes memory start bytes := by
  intro index byte isByte
  obtain ⟨inside, _⟩ := List.getElem?_eq_some_iff.mp isByte
  rw [same index inside, isByte]

theorem HoldsBytes.congr
    (holds : HoldsBytes memory start bytes)
    (same :
      ∀ address,
        start ≤ address → address < start + bytes.length →
        other address = memory address) :
    HoldsBytes other start bytes := by
  intro index byte isByte
  obtain ⟨inside, _⟩ := List.getElem?_eq_some_iff.mp isByte
  rw [same (start + index) (Nat.le_add_right _ _)
    (Nat.add_lt_add_left inside _)]
  exact holds index byte isByte

theorem HoldsBytes.store_below
    (holds : HoldsBytes memory later bytes)
    (isBelow : start + more.length ≤ later) :
    HoldsBytes (store memory start more) later bytes :=
  holds.congr fun _ atLeast _ => store_after (Nat.le_trans isBelow atLeast)

/-- Two blocks, one after the other. -/
theorem holds_append :
    HoldsBytes memory start (bytes ++ more) ↔
      HoldsBytes memory start bytes ∧
        HoldsBytes memory (start + bytes.length) more := by
  constructor
  · intro holds
    refine ⟨?_, ?_⟩
    · intro index byte isByte
      obtain ⟨inside, _⟩ := List.getElem?_eq_some_iff.mp isByte
      exact holds index byte ((List.getElem?_append_left inside).trans isByte)
    · intro index byte isByte
      rw [Nat.add_assoc]
      refine holds (bytes.length + index) byte ?_
      rw [List.getElem?_append_right (Nat.le_add_right _ _),
        Nat.add_sub_cancel_left]
      exact isByte
  · rintro ⟨first, second⟩ index byte isByte
    rcases Nat.lt_or_ge index bytes.length with inside | outside
    · rw [List.getElem?_append_left inside] at isByte
      exact first index byte isByte
    · rw [List.getElem?_append_right outside] at isByte
      have isSecond := second (index - bytes.length) byte isByte
      rwa [Nat.add_assoc, Nat.add_sub_cancel' outside] at isSecond

theorem holds_cons
    {byte : BitVec 8} :
    HoldsBytes memory start (byte :: bytes) ↔
      memory start = some byte ∧ HoldsBytes memory (start + 1) bytes := by
  rw [← List.singleton_append, holds_append]
  refine and_congr_left fun _ => ⟨fun holds => holds 0 byte rfl, ?_⟩
  intro isByte index other isOther
  cases index with
  | zero =>
    cases isOther
    exact isByte
  | succ index => cases isOther

theorem readWord_of_holds
    {word : BitVec 32}
    (holds : HoldsBytes memory start (wordBytes word)) :
    readWord memory start = some word := by
  have first := holds 0 _ rfl
  rw [Nat.add_zero] at first
  have second := holds 1 _ rfl
  have third := holds 2 _ rfl
  have fourth := holds 3 _ rfl
  simp only [readWord, first, second, third, fourth, Option.bind_eq_bind,
    Option.bind_some]
  exact congrArg some (ByteMemory.append_wordBytes word)

theorem readWord_zero
    (isZero : ∀ offset, offset < 4 → memory (start + offset) = some 0) :
    readWord memory start = some 0 := by
  refine readWord_of_holds ?_
  intro index byte isByte
  obtain ⟨inside, rfl⟩ := List.getElem?_eq_some_iff.mp isByte
  have inside : index < 4 := inside
  rw [isZero index inside]
  rcases index with _ | _ | _ | _ | index
  · rfl
  · rfl
  · rfl
  · rfl
  · omega

end FlatMemory

end GuestKernel
