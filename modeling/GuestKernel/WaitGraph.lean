import Mathlib.Logic.Relation

/-!
# Threads that wait for each other's locks

One thread waits for another if it asks for a lock that the other one holds.  A
cycle of waiting threads is a deadlock; there is none where a rank of the
threads falls along the waiting.
-/

namespace WaitGraph

variable {Thread Lock : Type}

/-- The first thread asks for a lock that the second one holds. -/
def WaitsFor
    (wants : Thread → Option Lock)
    (holder : Lock → Option Thread)
    (first second : Thread) : Prop :=
  ∃ lock, wants first = some lock ∧ holder lock = some second

/-- Some thread waits, over others or not, for itself. -/
def Deadlocked
    (wants : Thread → Option Lock)
    (holder : Lock → Option Thread) : Prop :=
  ∃ thread, Relation.TransGen (WaitsFor wants holder) thread thread

variable {wants : Thread → Option Lock} {holder : Lock → Option Thread}

/-- No cycle can close where the rank falls with each step. -/
theorem not_deadlocked_of_rank
    (rank : Thread → Nat)
    (falls :
      ∀ first second,
        WaitsFor wants holder first second → rank second < rank first) :
    ¬Deadlocked wants holder := by
  rintro ⟨thread, cycle⟩
  have below : ∀ other, Relation.TransGen (WaitsFor wants holder) thread other →
      rank other < rank thread := by
    intro other path
    induction path with
    | single step => exact falls _ _ step
    | tail _ step inductionHypothesis =>
      exact Nat.lt_trans (falls _ _ step) inductionHypothesis
  exact Nat.lt_irrefl _ (below thread cycle)

theorem deadlocked_of_pair
    (first second : Thread)
    (there : WaitsFor wants holder first second)
    (back : WaitsFor wants holder second first) :
    Deadlocked wants holder :=
  ⟨first, .tail (.single there) back⟩

end WaitGraph
