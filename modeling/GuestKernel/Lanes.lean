import Mathlib.Logic.Function.Basic

namespace GuestKernel
open List Function

/-!
# Lanes and writes in place

A register is read and written by ranges of bits; a lane is one of many ranges
of one size.  An operation in place is a sequence of writes to its destination,
each of which reads the source as it is then.  Where the source is the
destination itself, this does no harm as long as no range is read after it was
overwritten.
-/

section Bits

variable {w len size : Nat}

/-- A register with other bits from one place on. -/
def setBits (register : BitVec w) (lo : Nat) (value : BitVec len) : BitVec w :=
  register &&& ~~~((BitVec.allOnes len).setWidth w <<< lo) |||
    value.setWidth w <<< lo

/-- The bits of a register after a write. -/
theorem getLsbD_setBits
    (register : BitVec w)
    (lo : Nat)
    (value : BitVec len)
    (i : Nat) :
    (setBits register lo value).getLsbD i =
      if lo ≤ i ∧ i < lo + len then
        decide (i < w) && value.getLsbD (i - lo)
      else
        register.getLsbD i := by
  unfold setBits
  rw [BitVec.getLsbD_or, BitVec.getLsbD_and, BitVec.getLsbD_not,
    BitVec.getLsbD_shiftLeft, BitVec.getLsbD_shiftLeft, BitVec.getLsbD_setWidth,
    BitVec.getLsbD_setWidth, BitVec.getLsbD_allOnes]
  by_cases inRegister : i < w
  · by_cases isWritten : lo ≤ i ∧ i < lo + len
    · have notBelow : ¬i < lo := by omega
      have inValue : i - lo < len := by omega
      have inWidth : i - lo < w := by omega
      simp [inRegister, isWritten, notBelow, inValue, inWidth]
    · rw [if_neg isWritten]
      by_cases isBelow : i < lo
      · simp [inRegister, isBelow]
      · have notInValue : ¬i - lo < len := by omega
        have noBit : value.getLsbD (i - lo) = false :=
          BitVec.getLsbD_of_ge _ _ (by omega)
        simp [inRegister, notInValue, noBit]
  · have noBit : register.getLsbD i = false :=
      BitVec.getLsbD_of_ge _ _ (by omega)
    simp [inRegister, noBit]

theorem extractLsb'_setBits_of_apart
    {lo start : Nat}
    (register : BitVec w)
    (value : BitVec len)
    (apart : lo + len ≤ start ∨ start + size ≤ lo) :
    (setBits register lo value).extractLsb' start size =
      register.extractLsb' start size := by
  apply BitVec.eq_of_getLsbD_eq
  intro i inRange
  rw [BitVec.getLsbD_extractLsb', BitVec.getLsbD_extractLsb', getLsbD_setBits,
    if_neg (by omega)]

theorem extractLsb'_setBits_inside
    {lo start : Nat}
    (register : BitVec w)
    (value : BitVec len)
    (above : lo ≤ start)
    (below : start + size ≤ lo + len)
    (inRegister : lo + len ≤ w) :
    (setBits register lo value).extractLsb' start size =
      value.extractLsb' (start - lo) size := by
  apply BitVec.eq_of_getLsbD_eq
  intro i inRange
  rw [BitVec.getLsbD_extractLsb', BitVec.getLsbD_extractLsb', getLsbD_setBits,
    if_pos (by omega), decide_eq_true (by omega : start + i < w), Bool.true_and,
    Nat.sub_add_comm above]

theorem extractLsb'_extractLsb'
    {start inner : Nat}
    (register : BitVec w)
    (inside : inner + size ≤ len) :
    (register.extractLsb' start len).extractLsb' inner size =
      register.extractLsb' (start + inner) size := by
  apply BitVec.eq_of_getLsbD_eq
  intro i inRange
  simp only [BitVec.getLsbD_extractLsb', inRange, decide_true, Bool.true_and,
    Nat.add_assoc]
  rw [decide_eq_true (by omega), Bool.true_and]

end Bits

section Lanes

variable {w size : Nat}

/-- A lane. -/
def lane (size : Nat) (register : BitVec w) (i : Nat) : BitVec size :=
  register.extractLsb' (size * i) size

/-- A register with another lane. -/
def setLane (register : BitVec w) (i : Nat) (value : BitVec size) : BitVec w :=
  setBits register (size * i) value

theorem lane_setLane_self
    {i : Nat}
    (register : BitVec w)
    (value : BitVec size)
    (inRegister : size * (i + 1) ≤ w) :
    lane size (setLane register i value) i = value := by
  rw [Nat.mul_succ] at inRegister
  unfold lane setLane
  rw [extractLsb'_setBits_inside register value (Nat.le_refl _)
    (Nat.le_refl _)
    inRegister, Nat.sub_self]
  apply BitVec.eq_of_getLsbD_eq
  intro bit inLane
  rw [BitVec.getLsbD_extractLsb', decide_eq_true inLane, Bool.true_and,
    Nat.zero_add]

theorem lane_setLane_of_ne
    {i j : Nat}
    (differs : j ≠ i)
    (register : BitVec w)
    (value : BitVec size) :
    lane size (setLane register i value) j = lane size register j := by
  refine extractLsb'_setBits_of_apart register value ?_
  rcases Nat.lt_or_gt_of_ne differs with isBelow | isAbove
  · exact .inr (by rw [← Nat.mul_succ]; exact Nat.mul_le_mul_left _ isBelow)
  · exact .inl (by rw [← Nat.mul_succ]; exact Nat.mul_le_mul_left _ isAbove)

/-- `for` over the lanes. -/
def forLanes {State : Type} (n : Nat) (body : Nat → State → State)
    (state : State) : State :=
  (List.range n).foldl (fun state i => body i state) state

/-- `for` over the lanes from the last to the first. -/
def forLanesDown {State : Type} (n : Nat) (body : Nat → State → State)
    (state : State) : State :=
  (List.range n).reverse.foldl (fun state i => body i state) state

end Lanes

section Writes

variable {w : Nat}

/--
One write to the destination: its range, the range of the source that it reads,
and the value, which may depend on all of the destination.
-/
structure RangeWrite (w : Nat) where
  lo : Nat
  len : Nat
  readLo : Nat
  readLen : Nat
  value : BitVec w → BitVec readLen → BitVec len

namespace RangeWrite

/-- The destination after a write. -/
def apply (write : RangeWrite w) (source target : BitVec w) : BitVec w :=
  setBits target write.lo
    (write.value target (source.extractLsb' write.readLo write.readLen))

/-- A write leaves the range that a later one reads. -/
def Spares (earlier later : RangeWrite w) : Prop :=
  earlier.lo + earlier.len ≤ later.readLo ∨
    later.readLo + later.readLen ≤ earlier.lo

instance (earlier later : RangeWrite w) : Decidable (earlier.Spares later) :=
  inferInstanceAs (Decidable (_ ∨ _))

/-- Writes that read ahead of themselves may read their own destination. -/
theorem foldl_aliased
    (source : BitVec w)
    {writes : List (RangeWrite w)}
    (readAhead : writes.Pairwise Spares) :
    ∀ now,
      (∀ write ∈ writes,
        now.extractLsb' write.readLo write.readLen =
          source.extractLsb' write.readLo write.readLen) →
        writes.foldl (fun now write => write.apply now now) now =
          writes.foldl (fun now write => write.apply source now) now := by
  induction writes with
  | nil =>
    intro now _
    rfl
  | cons write rest inductionHypothesis =>
    intro now unread
    obtain ⟨spared, readAhead⟩ := pairwise_cons.mp readAhead
    have same : write.apply now now = write.apply source now := by
      unfold apply
      rw [unread write (mem_cons_self ..)]
    rw [foldl_cons, foldl_cons, same]
    refine inductionHypothesis readAhead _ ?_
    intro later isLater
    rw [← unread later (mem_cons_of_mem _ isLater)]
    exact extractLsb'_setBits_of_apart _ _ (spared later isLater)

end RangeWrite

variable {Name : Type} [DecidableEq Name]

/-- What an operation does to the registers, for a source and a destination. -/
abbrev Operation (Name : Type) (w : Nat) : Type :=
  (Name → BitVec w) → Name → Name → Name → BitVec w

/-- The result where the destination is the source. -/
def aliased
    (operation : Operation Name w)
    (regs : Name → BitVec w)
    (register : Name) : BitVec w :=
  operation regs register register register

/-- The result where the source was copied elsewhere first. -/
def copied
    (operation : Operation Name w)
    (regs : Name → BitVec w)
    (register spare : Name) : BitVec w :=
  operation (update regs spare (regs register)) spare register register

/-- A copy of the source makes no difference. -/
def AliasFree (operation : Operation Name w) : Prop :=
  ∀ regs register spare, spare ≠ register →
    aliased operation regs register = copied operation regs register spare

/-- One write of the whole destination from what was in both registers. -/
def snapshot (result : BitVec w → BitVec w → BitVec w) : Operation Name w :=
  fun regs src dst => update regs dst (result (regs src) (regs dst))

/-- A sequence of writes, which may use what was in the registers at first. -/
def inPlace (writes : BitVec w → BitVec w → List (RangeWrite w)) :
    Operation Name w :=
  fun regs src dst =>
    (writes (regs src) (regs dst)).foldl
      (fun regs write =>
        update regs dst (write.apply (regs src) (regs dst)))
      regs

theorem snapshot_aliasFree
    (result : BitVec w → BitVec w → BitVec w) :
    AliasFree (snapshot result : Operation Name w) := by
  intro regs register spare elsewhere
  unfold aliased copied snapshot
  rw [update_self, update_self, update_self,
    update_of_ne elsewhere.symm]

/-- What a sequence of writes leaves where the source is the destination. -/
theorem foldl_update_aliased
    (register : Name)
    (writes : List (RangeWrite w)) :
    ∀ regs : Name → BitVec w,
      (writes.foldl
        (fun regs write =>
          update regs register
            (write.apply (regs register) (regs register)))
        regs) register =
        writes.foldl (fun now write => write.apply now now) (regs register) := by
  induction writes with
  | nil =>
    intro regs
    rfl
  | cons write rest inductionHypothesis =>
    intro regs
    rw [foldl_cons, foldl_cons, inductionHypothesis,
      update_self]

/-- What a sequence of writes leaves where the source is elsewhere. -/
theorem foldl_update_copied
    {src dst : Name}
    (elsewhere : src ≠ dst)
    (writes : List (RangeWrite w)) :
    ∀ regs : Name → BitVec w,
      (writes.foldl
        (fun regs write =>
          update regs dst (write.apply (regs src) (regs dst)))
        regs) dst =
        writes.foldl (fun now write => write.apply (regs src) now)
          (regs dst) := by
  induction writes with
  | nil =>
    intro regs
    rfl
  | cons write rest inductionHypothesis =>
    intro regs
    rw [foldl_cons, foldl_cons, inductionHypothesis,
      update_self, update_of_ne elsewhere]

theorem inPlace_aliasFree
    {writes : BitVec w → BitVec w → List (RangeWrite w)}
    (readAhead :
      ∀ source target, (writes source target).Pairwise RangeWrite.Spares) :
    AliasFree (inPlace writes : Operation Name w) := by
  intro regs register spare elsewhere
  unfold aliased copied inPlace
  rw [foldl_update_aliased, foldl_update_copied elsewhere,
    update_self, update_of_ne elsewhere.symm]
  exact RangeWrite.foldl_aliased _ (readAhead _ _) _ fun _ _ => rfl

end Writes

end GuestKernel
