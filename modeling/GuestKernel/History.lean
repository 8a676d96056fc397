import Mathlib.Data.List.Basic

namespace GuestKernel
open List

/-!
# What holds since something happened

A history lists what happened, newest first.  `since` says that something was
set and not cleared again since then.
-/

variable {Item : Type}

/-- The newest item that sets or clears is one that sets. -/
def since (sets clears : Item → Bool) : List Item → Bool
  | [] => false
  | item :: older => sets item || (!clears item && since sets clears older)

section

variable {sets clears : Item → Bool}

theorem since_append_of_silent
    {newer older : List Item}
    (silent :
      ∀ item ∈ newer, sets item = false ∧ clears item = false) :
    since sets clears (newer ++ older) = since sets clears older := by
  induction newer with
  | nil =>
    rfl
  | cons item rest inductionHypothesis =>
    obtain ⟨first, others⟩ := forall_mem_cons.mp silent
    rw [cons_append, since, first.1, first.2, Bool.false_or,
      Bool.not_false, Bool.true_and, inductionHypothesis others]

/-- What does not hold any more after it was set was cleared. -/
theorem exists_clears_of_not_since
    {newer older : List Item}
    {item : Item}
    (isSet : sets item = true)
    (isOver : since sets clears (newer ++ item :: older) = false) :
    ∃ other ∈ newer, clears other = true := by
  induction newer with
  | nil =>
    rw [nil_append, since, isSet, Bool.true_or] at isOver
    cases isOver
  | cons first rest inductionHypothesis =>
    rw [cons_append, since, Bool.or_eq_false_iff] at isOver
    by_cases isCleared : clears first = true
    · exact ⟨first, mem_cons_self, isCleared⟩
    · rw [Bool.not_eq_true] at isCleared
      rw [isCleared, Bool.not_false, Bool.true_and] at isOver
      obtain ⟨other, isOther, clearsOther⟩ := inductionHypothesis isOver.2
      exact ⟨other, mem_cons_of_mem _ isOther, clearsOther⟩

end

end GuestKernel
