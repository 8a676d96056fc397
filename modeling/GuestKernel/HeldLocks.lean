import Mathlib.Data.List.Basic

namespace GuestKernel
open List

/-!
# Computations that take and give back locks

A computation carries the list of the locks that its thread holds, the one
taken last first.  `none` is an unlock of a lock that is not held.
-/

/-- A computation that takes and gives back locks. -/
def Locking (Lock Value : Type) :=
  List Lock → Option (Value × List Lock)

namespace Locking

variable {Lock Value Result : Type}

instance : Monad (Locking Lock) where
  pure value := fun held => some (value, held)
  bind first next := fun held =>
    (first held).bind fun outcome => next outcome.1 outcome.2

/-- Take a lock. -/
def lock (taken : Lock) : Locking Lock Unit :=
  fun held => some ((), taken :: held)

/-- Give a lock back. -/
def unlock [DecidableEq Lock] (given : Lock) : Locking Lock Unit :=
  fun held => if given ∈ held then some ((), held.erase given) else none

/-- The computation returns with exactly the locks it began with. -/
def Restores (action : Locking Lock Value) (held : List Lock) : Prop :=
  ∃ value, action held = some (value, held)

@[simp] theorem pure_apply
    (value : Value)
    (held : List Lock) :
    (pure value : Locking Lock Value) held = some (value, held) :=
  rfl

@[simp] theorem bind_apply
    (first : Locking Lock Value)
    (next : Value → Locking Lock Result)
    (held : List Lock) :
    (first >>= next) held =
      (first held).bind fun outcome => next outcome.1 outcome.2 :=
  rfl

@[simp] theorem lock_apply
    (taken : Lock)
    (held : List Lock) :
    lock taken held = some ((), taken :: held) :=
  rfl

@[simp] theorem unlock_head
    [DecidableEq Lock]
    (given : Lock)
    (held : List Lock) :
    unlock given (given :: held) = some ((), held) := by
  rw [unlock, if_pos mem_cons_self, erase_cons_head]

theorem Restores.pure
    (value : Value)
    (held : List Lock) :
    Restores (Pure.pure value : Locking Lock Value) held :=
  ⟨value, rfl⟩

variable {held : List Lock}

theorem Restores.bind
    {first : Locking Lock Value}
    {next : Value → Locking Lock Result}
    (restores : Restores first held)
    (then_ : ∀ value, Restores (next value) held) :
    Restores (first >>= next) held := by
  obtain ⟨value, ran⟩ := restores
  obtain ⟨result, ended⟩ := then_ value
  exact ⟨result, by rw [bind_apply, ran, Option.bind_some, ended]⟩

theorem Restores.around
    [DecidableEq Lock]
    {taken : Lock}
    {body : Locking Lock Value}
    (restores : Restores body (taken :: held)) :
    Restores
      (do
        lock taken
        let value ← body
        unlock taken
        Pure.pure value) held := by
  obtain ⟨value, ran⟩ := restores
  exact ⟨value, by simp [ran]⟩

theorem Restores.foldlM
    {Item : Type}
    {body : Value → Item → Locking Lock Value}
    (restores : ∀ value item, Restores (body value item) held)
    (items : List Item)
    (value : Value) :
    Restores (items.foldlM body value) held := by
  induction items generalizing value with
  | nil =>
    exact .pure value held
  | cons item rest inductionHypothesis =>
    rw [foldlM_cons]
    exact (restores value item).bind inductionHypothesis

theorem not_restores_of_held
    {action : Locking Lock Value}
    {after : List Lock}
    {value : Value}
    (ran : action held = some (value, after))
    (other : after ≠ held) :
    ¬Restores action held := by
  rintro ⟨result, restored⟩
  have same := ran.symm.trans restored
  cases same
  exact other rfl

theorem erase_ne
    [DecidableEq Lock]
    {given : Lock}
    (member : given ∈ held) :
    held.erase given ≠ held := by
  intro same
  have shorter := length_erase_of_mem member
  rw [same] at shorter
  have nonempty := length_pos_of_mem member
  omega

/-- A thread that gives one more lock back does not restore its locks. -/
theorem not_restores_unlock
    [DecidableEq Lock]
    (given : Lock)
    (value : Value)
    (held : List Lock) :
    ¬Restores
      (do
        unlock given
        Pure.pure value) held := by
  rintro ⟨result, ran⟩
  rw [bind_apply, unlock] at ran
  split at ran
  · rename_i member
    simp only [Option.bind_some, pure_apply, Option.some.injEq,
      Prod.mk.injEq] at ran
    exact erase_ne member ran.2
  · cases ran

end Locking

end GuestKernel
