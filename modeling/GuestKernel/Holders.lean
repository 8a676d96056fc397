import Mathlib.Algebra.BigOperators.Group.Finset.Basic
import Mathlib.Data.Finset.Card
import Mathlib.Data.Finset.Prod
import Mathlib.Logic.Function.Basic

namespace GuestKernel
open Function

/-!
# Counting the holders of a target

A table of slots, each holding at most one target, is a function into
`Option`.  `holders` counts the slots of a finite domain that hold one target:
it is what a reference count is supposed to say.  The balance law states how
the count moves when one slot is overwritten.

Where the slots are grouped, a count is a sum over the groups, and where
somebody holds references outside of the slots, `oneMore` is one of them.
-/

variable {Slot Target : Type} [DecidableEq Target]

/-- How many slots of the domain hold the target. -/
def holders
    (hold : Slot → Option Target)
    (domain : Finset Slot)
    (target : Target) : Nat :=
  (domain.filter fun slot => hold slot = some target).card

variable {domain : Finset Slot} {hold : Slot → Option Target} {target : Target}

/-- Overwriting one slot trades its old content for the new one. -/
theorem holders_update_balance
    [DecidableEq Slot]
    (hold : Slot → Option Target)
    {slot : Slot}
    (member : slot ∈ domain)
    (content : Option Target)
    (target : Target) :
    holders (update hold slot content) domain target +
        (if hold slot = some target then 1 else 0) =
      holders hold domain target +
        (if content = some target then 1 else 0) := by
  have splitDomain := Finset.insert_erase member
  have notMember : slot ∉ domain.erase slot :=
    Finset.notMem_erase slot domain
  have sameElsewhere :
      ((domain.erase slot).filter fun other =>
          update hold slot content other = some target) =
        (domain.erase slot).filter fun other =>
          hold other = some target := by
    apply Finset.filter_congr
    intro other otherMember
    rw [update_of_ne (Finset.ne_of_mem_erase otherMember)]
  unfold holders
  rw [← splitDomain, Finset.filter_insert, Finset.filter_insert,
    sameElsewhere, update_self]
  have absent :
      slot ∉ (domain.erase slot).filter fun other =>
        hold other = some target := by
    intro inFilter
    exact notMember (Finset.mem_of_mem_filter slot inFilter)
  by_cases old : hold slot = some target <;>
    by_cases new : content = some target <;>
      simp [old, new, absent]

theorem holders_eq_zero_iff :
    holders hold domain target = 0 ↔
      ∀ slot ∈ domain, hold slot ≠ some target := by
  simp [holders, Finset.filter_eq_empty_iff]

theorem holders_pos
    {slot : Slot}
    (member : slot ∈ domain)
    (held : hold slot = some target) :
    0 < holders hold domain target := by
  apply Nat.pos_of_ne_zero
  intro isZero
  exact holders_eq_zero_iff.mp isZero slot member held

theorem holders_congr
    {first second : Slot → Option Target}
    (agree : ∀ slot ∈ domain, first slot = second slot)
    (target : Target) :
    holders first domain target = holders second domain target := by
  unfold holders
  congr 1
  apply Finset.filter_congr
  intro slot member
  rw [agree slot member]

/-- Empty slots added to the domain do not change a count. -/
theorem holders_of_subset
    {small large : Finset Slot}
    (subset : small ⊆ large)
    (emptyOutside : ∀ slot ∈ large, slot ∉ small → hold slot = none)
    (target : Target) :
    holders hold large target = holders hold small target := by
  unfold holders
  congr 1
  ext slot
  simp only [Finset.mem_filter]
  constructor
  · rintro ⟨inLarge, held⟩
    refine ⟨?_, held⟩
    by_contra outside
    rw [emptyOutside slot inLarge outside] at held
    cases held
  · rintro ⟨inSmall, held⟩
    exact ⟨subset inSmall, held⟩

/-- Overwriting one summand trades its old value for the new one. -/
theorem sum_update_balance
    {Group : Type}
    [DecidableEq Group]
    {domain : Finset Group}
    {group : Group}
    (count : Group → Nat)
    (member : group ∈ domain)
    (value : Nat) :
    (∑ other ∈ domain, update count group value other) +
        count group =
      (∑ other ∈ domain, count other) + value := by
  have splitNew := Finset.add_sum_erase domain
    (update count group value) member
  have splitOld := Finset.add_sum_erase domain count member
  have sameElsewhere :
      (∑ other ∈ domain.erase group,
          update count group value other) =
        ∑ other ∈ domain.erase group, count other := by
    apply Finset.sum_congr rfl
    intro other inRest
    exact update_of_ne (Finset.ne_of_mem_erase inRest) ..
  rw [update_self, sameElsewhere] at splitNew
  omega

/-- One more reference to a target. -/
def oneMore (count : Target → Nat) (target : Target) : Target → Nat :=
  fun other => count other + if other = target then 1 else 0

@[simp] theorem oneMore_self (count : Target → Nat) (target : Target) :
    oneMore count target target = count target + 1 := by
  simp [oneMore]

theorem oneMore_of_ne
    {count : Target → Nat}
    {other : Target}
    (different : other ≠ target) :
    oneMore count target other = count other := by
  simp [oneMore, different]

end GuestKernel
