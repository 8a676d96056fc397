import Mathlib.Logic.Function.Basic
import Mathlib.Data.List.Basic

namespace GuestKernel
open List

/-!
# Storing values one after the other

A sequence of values is stored at a sequence of addresses that may repeat.  The
last store to an address decides what it holds, so the stores behind the first
few change nothing exactly if each of them that is the last one to its address
finds its value there.
-/

variable
  {α β : Type}
  {memory : α → β}
  {addresses first second : List α}
  {values : Nat → β}
  {address : α}
  {index count : Nat}

/-- The store with this index is the last one to the address. -/
def LastStore
    (addresses : List α) (index : Nat) (address : α) : Prop :=
  addresses[index]? = some address ∧
    ∀ later, index < later → addresses[later]? ≠ some address

theorem lastStore_cons {head : α} :
    LastStore (head :: addresses) (index + 1) address ↔
      LastStore addresses index address := by
  refine and_congr Iff.rfl ⟨fun none later after => ?_, ?_⟩
  · exact none (later + 1) (Nat.succ_lt_succ after)
  · intro none later after
    cases later with
    | zero => exact absurd after (Nat.not_lt_zero _)
    | succ later => exact none later (Nat.lt_of_succ_lt_succ after)

theorem exists_lastStore
    (member : address ∈ addresses) :
    ∃ index, LastStore addresses index address := by
  induction addresses with
  | nil => cases member
  | cons head rest inductionHypothesis =>
    by_cases inRest : address ∈ rest
    · obtain ⟨index, isLast⟩ := inductionHypothesis inRest
      exact ⟨index + 1, lastStore_cons.mpr isLast⟩
    · obtain rfl := (mem_cons.mp member).resolve_right inRest
      refine ⟨0, rfl, fun later after found => ?_⟩
      cases later with
      | zero => exact absurd after (Nat.lt_irrefl 0)
      | succ later => exact inRest (List.mem_of_getElem? found)

theorem lastStore_drop :
    LastStore (addresses.drop count) index address ↔
      LastStore addresses (count + index) address := by
  unfold LastStore
  rw [List.getElem?_drop]
  refine and_congr Iff.rfl ⟨fun none later after found => ?_, ?_⟩
  · refine none (later - count) (by omega) ?_
    rw [List.getElem?_drop, Nat.add_sub_of_le (by omega)]
    exact found
  · intro none later after found
    rw [List.getElem?_drop] at found
    exact none (count + later) (by omega) found

variable [DecidableEq α]

/-- The values go to the addresses in order. -/
def storeAll (memory : α → β) : List α → (Nat → β) → α → β
  | [], _ => memory
  | address :: rest, values =>
    storeAll (Function.update memory address (values 0)) rest fun index =>
      values (index + 1)

theorem storeAll_append :
    storeAll memory (first ++ second) values =
      storeAll (storeAll memory first values) second fun index =>
        values (first.length + index) := by
  induction first generalizing memory values with
  | nil =>
    simp only [nil_append, storeAll, length_nil, Nat.zero_add]
  | cons head rest inductionHypothesis =>
    simp only [cons_append, storeAll, length_cons,
      inductionHypothesis]
    congr 1
    funext index
    congr 1
    omega

theorem storeAll_of_not_mem
    (absent : address ∉ addresses) :
    storeAll memory addresses values address = memory address := by
  induction addresses generalizing memory values with
  | nil => rfl
  | cons head rest inductionHypothesis =>
    obtain ⟨notHead, notRest⟩ := not_or.mp (mt mem_cons.mpr absent)
    exact (inductionHypothesis notRest).trans
      (Function.update_of_ne notHead _ _)

theorem storeAll_of_last
    (isLast : LastStore addresses index address) :
    storeAll memory addresses values address = values index := by
  induction addresses generalizing memory values index with
  | nil => cases isLast.1
  | cons head rest inductionHypothesis =>
    cases index with
    | zero =>
      obtain ⟨isHead, none⟩ := isLast
      obtain rfl := Option.some.inj isHead
      have absent : head ∉ rest := by
        intro member
        obtain ⟨later, found⟩ := List.mem_iff_getElem?.mp member
        exact none (later + 1) (Nat.succ_pos _) found
      exact (storeAll_of_not_mem absent).trans
        (Function.update_self ..)
    | succ index => exact inductionHypothesis (lastStore_cons.mp isLast)

/-- Stores that change nothing. -/
theorem storeAll_eq_self_iff :
    storeAll memory addresses values = memory ↔
      ∀ index address,
        LastStore addresses index address →
        values index = memory address := by
  constructor
  · intro same index address isLast
    have stored : storeAll memory addresses values address = values index :=
      storeAll_of_last isLast
    rw [← stored, same]
  · intro same
    funext address
    by_cases member : address ∈ addresses
    · obtain ⟨index, isLast⟩ := exists_lastStore member
      rw [storeAll_of_last isLast, same index address isLast]
    · exact storeAll_of_not_mem member

/-- The stores behind the first few change nothing. -/
theorem storeAll_eq_take_iff :
    storeAll memory addresses values =
        storeAll memory (addresses.take count) values ↔
      ∀ index address,
        count ≤ index → LastStore addresses index address →
        values index =
          storeAll memory (addresses.take count) values address := by
  by_cases short : addresses.length ≤ count
  · rw [take_of_length_le short]
    refine iff_of_true rfl fun index address after isLast => ?_
    exact Eq.symm (storeAll_of_last isLast)
  have length : (addresses.take count).length = count := by
    rw [length_take]
    omega
  have split :
      storeAll memory (addresses.take count ++ addresses.drop count) values =
        storeAll (storeAll memory (addresses.take count) values)
          (addresses.drop count) fun index =>
            values ((addresses.take count).length + index) :=
    storeAll_append
  rw [take_append_drop, length] at split
  rw [split, storeAll_eq_self_iff]
  constructor
  · intro same index address after isLast
    obtain ⟨place, rfl⟩ := Nat.exists_eq_add_of_le after
    exact same place address (lastStore_drop.mpr isLast)
  · intro same index address isLast
    exact same _ address (Nat.le_add_right _ _) (lastStore_drop.mp isLast)

/-- Values stored one behind the other. -/
theorem storeAll_range
    {memory : Nat → β}
    {base address : Nat} :
    storeAll memory (List.range' base count) values address =
      if base ≤ address ∧ address < base + count then
        values (address - base)
      else
        memory address := by
  by_cases inRange : base ≤ address ∧ address < base + count
  · rw [if_pos inRange]
    refine storeAll_of_last ⟨?_, fun later after found => ?_⟩
    · rw [List.getElem?_range' (by omega)]
      congr 1
      omega
    · obtain ⟨inside, isPlace⟩ := List.getElem?_eq_some_iff.mp found
      rw [getElem_range'] at isPlace
      omega
  · rw [if_neg inRange]
    refine storeAll_of_not_mem fun member => inRange ?_
    rw [List.mem_range'_1] at member
    exact member

end GuestKernel
