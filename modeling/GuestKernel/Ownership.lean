import Mathlib.Logic.ExistsUnique

/-!
# Slots that own numbered items

Items are numbered as they are made, slots hold them, and some are released.
The law is that a slot holds only items that were made and not released, that no
two slots hold one item, and that no item is lost.
-/

namespace Ownership

variable {Slot : Type}

/-- Every item made and not released is in one slot. -/
structure Owned
    (slots : Slot → Option Nat)
    (released : Nat → Prop)
    (bound : Nat) : Prop where
  made : ∀ slot item, slots slot = some item → item < bound
  unreleased : ∀ slot item, slots slot = some item → ¬released item
  alone :
    ∀ first second item,
      slots first = some item → slots second = some item → first = second
  kept :
    ∀ item, item < bound → ¬released item → ∃ slot, slots slot = some item

namespace Owned

variable {slots after : Slot → Option Nat}
variable {released releasedAfter : Nat → Prop}
variable {bound item : Nat}
variable {slot : Slot}

theorem exactly_one
    (owned : Owned slots released bound)
    (isMade : item < bound)
    (isKept : ¬released item) :
    ∃! slot, slots slot = some item := by
  obtain ⟨slot, holds⟩ := owned.kept item isMade isKept
  exact ⟨slot, holds, fun other otherHolds =>
    owned.alone other slot item otherHolds holds⟩

theorem nothing
    (allEmpty : ∀ slot, slots slot = none) :
    Owned slots released 0 where
  made := fun slot item holds => by
    rw [allEmpty slot] at holds
    cases holds
  unreleased := fun slot item holds => by
    rw [allEmpty slot] at holds
    cases holds
  alone := fun first second item holds => by
    rw [allEmpty first] at holds
    cases holds
  kept := fun item isMade => absurd isMade (Nat.not_lt_zero item)

theorem congr
    (owned : Owned slots released bound)
    (sameSlots : ∀ slot, after slot = slots slot)
    (sameReleased : ∀ item, releasedAfter item ↔ released item) :
    Owned after releasedAfter bound := by
  obtain rfl : after = slots := funext sameSlots
  obtain rfl : releasedAfter = released :=
    funext fun item => propext (sameReleased item)
  exact owned

/-- A new item is put into an empty slot. -/
theorem put
    (owned : Owned slots released bound)
    (isEmpty : slots slot = none)
    (holds : after slot = some bound)
    (elsewhere : ∀ other, other ≠ slot → after other = slots other)
    (sameReleased : ∀ item, item < bound → (releasedAfter item ↔ released item))
    (isNew : ¬releasedAfter bound) :
    Owned after releasedAfter (bound + 1) := by
  have cases_of : ∀ other item, after other = some item →
      other = slot ∧ item = bound ∨ other ≠ slot ∧ slots other = some item := by
    intro other item otherHolds
    by_cases same : other = slot
    · rw [same, holds] at otherHolds
      exact .inl ⟨same, (Option.some.inj otherHolds).symm⟩
    · rw [elsewhere other same] at otherHolds
      exact .inr ⟨same, otherHolds⟩
  refine ⟨?_, ?_, ?_, ?_⟩
  · intro other item otherHolds
    rcases cases_of other item otherHolds with ⟨_, rfl⟩ | ⟨_, old⟩
    · exact Nat.lt_succ_self _
    · exact Nat.lt_succ_of_lt (owned.made other item old)
  · intro other item otherHolds
    rcases cases_of other item otherHolds with ⟨_, rfl⟩ | ⟨_, old⟩
    · exact isNew
    · rw [sameReleased item (owned.made other item old)]
      exact owned.unreleased other item old
  · intro first second item firstHolds secondHolds
    rcases cases_of first item firstHolds with ⟨rfl, rfl⟩ | ⟨_, old⟩
    · rcases cases_of second _ secondHolds with ⟨same, _⟩ | ⟨_, old⟩
      · exact same.symm
      · exact absurd (owned.made second _ old) (Nat.lt_irrefl _)
    · rcases cases_of second item secondHolds with ⟨_, rfl⟩ | ⟨_, other⟩
      · exact absurd (owned.made first _ old) (Nat.lt_irrefl _)
      · exact owned.alone first second item old other
  · intro item isMade isKept
    rcases Nat.lt_succ_iff_lt_or_eq.mp isMade with isOld | rfl
    · rw [sameReleased item isOld] at isKept
      obtain ⟨other, otherHolds⟩ := owned.kept item isOld isKept
      have isOther : other ≠ slot := by
        rintro rfl
        rw [isEmpty] at otherHolds
        cases otherHolds
      exact ⟨other, (elsewhere other isOther).trans otherHolds⟩
    · exact ⟨slot, holds⟩

/-- The item of a slot is released and the slot emptied. -/
theorem take
    (owned : Owned slots released bound)
    (holds : slots slot = some item)
    (isEmpty : after slot = none)
    (elsewhere : ∀ other, other ≠ slot → after other = slots other)
    (oneMore : ∀ other, releasedAfter other ↔ released other ∨ other = item) :
    Owned after releasedAfter bound := by
  have old_of : ∀ other kept, after other = some kept →
      other ≠ slot ∧ slots other = some kept := by
    intro other kept otherHolds
    by_cases same : other = slot
    · rw [same, isEmpty] at otherHolds
      cases otherHolds
    · exact ⟨same, (elsewhere other same).symm.trans otherHolds⟩
  refine ⟨?_, ?_, ?_, ?_⟩
  · intro other kept otherHolds
    exact owned.made other kept (old_of other kept otherHolds).2
  · intro other kept otherHolds isReleased
    obtain ⟨isOther, old⟩ := old_of other kept otherHolds
    rcases (oneMore kept).mp isReleased with before | rfl
    · exact owned.unreleased other kept old before
    · exact isOther (owned.alone other slot kept old holds)
  · intro first second kept firstHolds secondHolds
    exact owned.alone first second kept (old_of first kept firstHolds).2
      (old_of second kept secondHolds).2
  · intro kept isMade isKept
    rw [oneMore, not_or] at isKept
    obtain ⟨other, otherHolds⟩ := owned.kept kept isMade isKept.1
    have isOther : other ≠ slot := by
      rintro rfl
      rw [holds] at otherHolds
      exact isKept.2 (Option.some.inj otherHolds).symm
    exact ⟨other, (elsewhere other isOther).trans otherHolds⟩

end Owned

end Ownership
