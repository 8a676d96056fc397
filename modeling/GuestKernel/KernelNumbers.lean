import Mathlib.Algebra.Group.Nat.Defs

namespace GuestKernel

/-!
# Numbers of the kernel

The 32-bit counters of the kernel structures, which wrap, and the numbers and
identities that several subsystems share.
-/

/-- The identity of one `struct fd`. -/
abbrev FdId := Nat

/-- `MAX_PID`. -/
abbrev maxPid : Nat := 2 ^ 15

/-- The number of a task. -/
abbrev Pid := Fin (maxPid + 1)

/-- The number of values of a `dword_t`. -/
abbrev dwordRange : Nat := 2 ^ 32

/-- `++` on an `atomic_uint`. -/
def incremented (count : Nat) : Nat :=
  (count + 1) % dwordRange

/-- `--` on an `atomic_uint`. -/
def decremented (count : Nat) : Nat :=
  (count + (dwordRange - 1)) % dwordRange

variable {count : Nat}

theorem incremented_of_small
    (small : count + 1 < dwordRange) :
    incremented count = count + 1 :=
  Nat.mod_eq_of_lt small

theorem decremented_of_pos
    (positive : 0 < count)
    (small : count < dwordRange) :
    decremented count = count - 1 := by
  have turn : count + (dwordRange - 1) = count - 1 + dwordRange := by
    omega
  rw [decremented, turn, Nat.add_mod_right]
  exact Nat.mod_eq_of_lt (by omega)

theorem decremented_incremented
    (small : count < dwordRange) :
    decremented (incremented count) = count := by
  have turn : count + 1 + (dwordRange - 1) = count + dwordRange := by
    omega
  rw [decremented, incremented, Nat.mod_add_mod, turn, Nat.add_mod_right]
  exact Nat.mod_eq_of_lt small

end GuestKernel
