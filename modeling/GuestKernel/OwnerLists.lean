import Mathlib.Data.List.Nodup
import Mathlib.Logic.Function.Basic

/-!
# Items on the lists of their owners

An item names its owner, and an owner keeps a list of its items.  The law is that
the lists hold what the items say.  Putting an item on a list and taking it off
keep the law, if the item is told.
-/

variable {Item Owner : Type}

/-- Each owner lists exactly the items that name it, each once. -/
structure OwnerLists
    (owner : Item → Option Owner)
    (lists : Owner → List Item) : Prop where
  mem_iff : ∀ item who, item ∈ lists who ↔ owner item = some who
  once : ∀ who, (lists who).Nodup

namespace OwnerLists
open List Option Function

variable {owner : Item → Option Owner}
variable {lists : Owner → List Item}
variable {item : Item} {who : Owner}

theorem nothing :
    OwnerLists (fun _ : Item => (none : Option Owner)) (fun _ => []) where
  mem_iff := fun _ _ =>
    iff_of_false not_mem_nil (some_ne_none _).symm
  once := fun _ => nodup_nil

section Updates

variable [DecidableEq Item] [DecidableEq Owner]

/-- An item without an owner is put on a list. -/
theorem put
    (listed : OwnerLists owner lists)
    (isFree : owner item = none)
    (who : Owner) :
    OwnerLists (update owner item (some who))
      (update lists who (item :: lists who)) where
  mem_iff := by
    intro other someone
    by_cases isItem : other = item
    · subst isItem
      have absent : other ∉ lists someone := by
        rw [listed.mem_iff other someone, isFree]
        exact (some_ne_none _).symm
      rw [update_self]
      by_cases same : someone = who
      · subst same
        rw [update_self]
        exact iff_of_true mem_cons_self rfl
      · rw [update_of_ne same]
        exact iff_of_false absent fun isOwner =>
          same (some.inj isOwner).symm
    · rw [update_of_ne isItem, ← listed.mem_iff other someone]
      by_cases same : someone = who
      · subst same
        rw [update_self, mem_cons, or_iff_right isItem]
      · rw [update_of_ne same]
  once := by
    intro someone
    by_cases same : someone = who
    · subst same
      rw [update_self, nodup_cons, listed.mem_iff, isFree]
      exact ⟨(some_ne_none _).symm, listed.once someone⟩
    · rw [update_of_ne same]
      exact listed.once someone

/-- An item is taken off the list of its owner. -/
theorem take
    (listed : OwnerLists owner lists)
    (isOwner : owner item = some who) :
    OwnerLists (update owner item none)
      (update lists who ((lists who).erase item)) where
  mem_iff := by
    intro other someone
    by_cases isItem : other = item
    · subst isItem
      rw [update_self]
      refine iff_of_false ?_ (some_ne_none _).symm
      by_cases same : someone = who
      · subst same
        rw [update_self]
        exact (listed.once _).not_mem_erase
      · rw [update_of_ne same, listed.mem_iff, isOwner]
        exact fun isSomeone => same (some.inj isSomeone).symm
    · rw [update_of_ne isItem, ← listed.mem_iff other someone]
      by_cases same : someone = who
      · subst same
        rw [update_self, mem_erase_of_ne isItem]
      · rw [update_of_ne same]
  once := by
    intro someone
    by_cases same : someone = who
    · subst same
      rw [update_self]
      exact (listed.once _).erase item
    · rw [update_of_ne same]
      exact listed.once someone

end Updates

end OwnerLists
