import GuestKernel.FileLock
import GuestKernel.Grouped
import GuestKernel.Machine
import Mathlib.Data.List.Pairwise

namespace GuestKernel
open List

/-!
# What a lock request does to the held ranges

A lock list says, for every owner and every byte, which lock the owner holds
there (`heldType`).  The list is consistent when the locks of one owner stand
together, are disjoint and are merged, and no two owners conflict.  Both
operations keep it consistent, and `file_lock_acquire` changes the held type
exactly on the requested range of the requester.
-/

namespace FileLock

/-- The lock is about this byte. -/
def covers (lock : FileLock) (x : Int) : Prop :=
  lock.start ≤ x ∧ x ≤ lock.end

instance (lock : FileLock) (x : Int) : Decidable (lock.covers x) :=
  inferInstanceAs (Decidable (lock.start ≤ x ∧ x ≤ lock.end))

/-- A lock that can be in the list. -/
structure Valid (lock : FileLock) : Prop where
  nonneg : 0 ≤ lock.start
  ordered : lock.start ≤ lock.end
  holds : lock.type ≠ .unlck

/-- A nonempty part of the range of a lock. -/
structure Part (piece lock : FileLock) : Prop where
  owner : piece.owner = lock.owner
  type : piece.type = lock.type
  start : lock.start ≤ piece.start
  ordered : piece.start ≤ piece.end
  stop : piece.end ≤ lock.end

/-- Two locks that may be in one list. -/
structure Compatible (a b : FileLock) : Prop where
  noConflict : ¬ fileLocksConflict a b
  disjoint : a.owner = b.owner → ¬ fileLocksOverlap a b
  apart :
    a.owner = b.owner → a.type = b.type → ¬ fileLocksAdjacent a b

variable {lock request : FileLock} {x : Int}

theorem Part.refl
    (ordered : lock.start ≤ lock.end) :
    Part lock lock :=
  ⟨rfl, rfl, Int.le_refl _, ordered, Int.le_refl _⟩

theorem Part.valid
    {piece : FileLock}
    (part : Part piece lock)
    (valid : lock.Valid) :
    piece.Valid where
  nonneg := Int.le_trans valid.nonneg part.start
  ordered := part.ordered
  holds := part.type ▸ valid.holds

theorem overlap_of_covers
    {a b : FileLock}
    (inFirst : a.covers x)
    (inSecond : b.covers x) :
    fileLocksOverlap a b :=
  ⟨Int.le_trans inSecond.1 inFirst.2, Int.le_trans inFirst.1 inSecond.2⟩

theorem exists_covers_of_overlap
    {a b : FileLock}
    (orderedFirst : a.start ≤ a.end)
    (orderedSecond : b.start ≤ b.end)
    (overlap : fileLocksOverlap a b) :
    ∃ x, a.covers x ∧ b.covers x := by
  obtain ⟨above, below⟩ := overlap
  rcases Int.le_total a.start b.start with earlier | later
  · exact ⟨b.start, ⟨earlier, above⟩, Int.le_refl _, orderedSecond⟩
  · exact ⟨a.start, ⟨Int.le_refl _, orderedFirst⟩, later, below⟩

namespace Compatible

variable {a b : FileLock}

theorem symm
    (compatible : Compatible a b) :
    Compatible b a where
  noConflict := by
    rintro ⟨different, overlap, writes⟩
    exact compatible.noConflict
      ⟨Ne.symm different, And.symm overlap, Or.symm writes⟩
  disjoint same overlap :=
    compatible.disjoint same.symm (And.symm overlap)
  apart same sameType adjacent :=
    compatible.apart same.symm sameType.symm (Or.symm adjacent)

instance : Std.Symm Compatible where
  symm _ _ := Compatible.symm

/-- Parts of compatible locks are compatible. -/
theorem parts
    {first second : FileLock}
    (compatible : Compatible a b)
    (firstPart : Part first a)
    (secondPart : Part second b) :
    Compatible first second := by
  obtain ⟨firstOwner, firstType, firstStart, firstOrdered, firstStop⟩ :=
    firstPart
  obtain ⟨secondOwner, secondType, secondStart, secondOrdered,
    secondStop⟩ := secondPart
  have widen :
      fileLocksOverlap first second → fileLocksOverlap a b := by
    rintro ⟨above, below⟩
    constructor <;> omega
  refine ⟨?_, ?_, ?_⟩
  · rintro ⟨different, overlap, writes⟩
    rw [firstOwner, secondOwner] at different
    rw [firstType, secondType] at writes
    exact compatible.noConflict ⟨different, widen overlap, writes⟩
  · intro same overlap
    rw [firstOwner, secondOwner] at same
    exact compatible.disjoint same (widen overlap)
  · intro same sameType adjacent
    rw [firstOwner, secondOwner] at same
    rw [firstType, secondType] at sameType
    have separate := compatible.disjoint same
    have notAdjacent := compatible.apart same sameType
    simp only [fileLocksOverlap, fileLocksAdjacent] at *
    omega

theorem not_covers
    (compatible : Compatible a b)
    (same : a.owner = b.owner)
    {x : Int}
    (inFirst : a.covers x) :
    ¬ b.covers x :=
  fun inSecond =>
    compatible.disjoint same (overlap_of_covers inFirst inSecond)

end Compatible

/-- Every remaining piece is a part of the lock outside the request. -/
theorem subtract_part
    {piece : FileLock}
    (overlap : fileLocksOverlap lock request)
    (remains : piece ∈ lock.subtract request) :
    Part piece lock ∧
      (piece.end = request.start - 1 ∨
        piece.start = request.end + 1) := by
  obtain ⟨above, below⟩ := overlap
  unfold subtract at remains
  split at remains
  · rename_i inside
    rcases mem_pair.mp remains with rfl | rfl
    · exact ⟨⟨rfl, rfl, Int.le_refl _, by simp only; omega,
        by simp only; omega⟩, .inl rfl⟩
    · exact ⟨⟨rfl, rfl, by simp only; omega, by simp only; omega,
        Int.le_refl _⟩, .inr rfl⟩
  · split at remains
    · cases remains
    · split at remains
      · cases mem_singleton.mp remains
        exact ⟨⟨rfl, rfl, Int.le_refl _, by simp only; omega,
          by simp only; omega⟩, .inl rfl⟩
      · split at remains
        · cases mem_singleton.mp remains
          exact ⟨⟨rfl, rfl, by simp only; omega, by simp only; omega,
            Int.le_refl _⟩, .inr rfl⟩
        · -- one of the four branches above applies
          omega

/-- The remaining pieces cover what the request does not. -/
theorem subtract_covers
    (requestOrdered : request.start ≤ request.end)
    (overlap : fileLocksOverlap lock request) :
    (∃ piece ∈ lock.subtract request, piece.covers x) ↔
      lock.covers x ∧ ¬ request.covers x := by
  obtain ⟨above, below⟩ := overlap
  unfold subtract
  split
  · simp only [mem_cons, not_mem_nil, or_false,
      exists_eq_or_imp, exists_eq_left, covers]
    omega
  · split
    · rename_i covered
      refine iff_of_false (by simp) ?_
      simp only [covers]
      omega
    · split
      · simp only [mem_singleton, exists_eq_left, covers]
        omega
      · split
        · simp only [mem_singleton, exists_eq_left, covers]
          omega
        · simp only [mem_singleton, exists_eq_left, covers]
          omega

/-- Pieces of one lock are compatible. -/
theorem subtract_compatible
    (requestOrdered : request.start ≤ request.end)
    (overlap : fileLocksOverlap lock request) :
    (lock.subtract request).Pairwise Compatible := by
  obtain ⟨above, below⟩ := overlap
  unfold subtract
  split
  · refine pairwise_pair.mpr ⟨?_, ?_, ?_⟩
    · rintro ⟨different, _⟩
      exact different rfl
    · rintro _ ⟨overlapAbove, _⟩
      simp only at overlapAbove
      omega
    · intro _ _ adjacent
      simp only [fileLocksAdjacent] at adjacent
      omega
  · split
    · exact .nil
    · split
      · exact pairwise_singleton ..
      · split <;> exact pairwise_singleton ..

theorem extend_covers
    (requestOrdered : request.start ≤ request.end)
    (touches :
      fileLocksOverlap lock request ∨ fileLocksAdjacent request lock) :
    (request.extend lock).covers x ↔ request.covers x ∨ lock.covers x := by
  simp only [fileLocksOverlap, fileLocksAdjacent, covers, extend]
    at touches ⊢
  split <;> split <;> omega

end FileLock

/-- What the walk does with the requester's own locks. -/
structure OwnWalk
    (request : FileLock) (own : List FileLock) (walk : LockWalk) :
    Prop where
  after : walk.after = []
  owner : walk.request.owner = request.owner
  type : walk.request.type = request.type
  growsDown : walk.request.start ≤ request.start
  growsUp : request.end ≤ walk.request.end
  reach :
    ∀ {x},
      walk.request.covers x →
      request.covers x ∨
        ∃ lock ∈ own, lock.type = request.type ∧ lock.covers x
  parts : ∀ piece ∈ walk.before, ∃ lock ∈ own, piece.Part lock
  kept :
    ∀ {x type},
      (∃ piece ∈ walk.before, piece.type = type ∧ piece.covers x) ↔
        ¬ walk.request.covers x ∧
          ∃ lock ∈ own, lock.type = type ∧ lock.covers x
  apart :
    ∀ piece ∈ walk.before,
      piece.type = request.type →
      ¬ fileLocksAdjacent piece walk.request
  compatible : walk.before.Pairwise FileLock.Compatible

namespace OwnWalk

/-- With no own locks there is nothing to do. -/
theorem nil (request : FileLock) :
    OwnWalk request [] {
      before := []
      after := []
      request := request
      notified := false } where
  after := rfl
  owner := rfl
  type := rfl
  growsDown := Int.le_refl _
  growsUp := Int.le_refl _
  reach := .inl
  parts := nofun
  kept := by simp
  apart := nofun
  compatible := .nil

variable {request lock : FileLock} {rest : List FileLock}

/-- A lock disjoint from the request and the other locks is not reached. -/
theorem not_reached
    {walk : LockWalk}
    (spec : OwnWalk request rest walk)
    (sameOwner : ∀ other ∈ rest, lock.owner = other.owner)
    (compatible : ∀ other ∈ rest, lock.Compatible other)
    {x : Int}
    (inLock : lock.covers x)
    (outside : ¬ request.covers x) :
    ¬ walk.request.covers x := by
  intro inRequest
  rcases spec.reach inRequest with already | ⟨other, member, _, inOther⟩
  · exact outside already
  · exact (compatible other member).not_covers (sameOwner other member)
      inLock inOther

/-- Nor does the grown request come to touch a lock of its own type. -/
theorem not_adjacent
    {walk : LockWalk}
    (spec : OwnWalk request rest walk)
    (ordered : lock.start ≤ lock.end)
    (requestOrdered : request.start ≤ request.end)
    (sameOwner : ∀ other ∈ rest, lock.owner = other.owner)
    (compatible : ∀ other ∈ rest, lock.Compatible other)
    (distant : ¬ fileLocksAdjacent request lock)
    (sameType : lock.type = request.type) :
    ¬ fileLocksAdjacent lock walk.request := by
  have growsDown := spec.growsDown
  have growsUp := spec.growsUp
  -- the byte next to the lock would be the request's or a merged lock's
  have blocked :
      ∀ {x},
        walk.request.covers x →
        (lock.end = x - 1 ∧ x = walk.request.start) ∨
          (lock.start = x + 1 ∧ x = walk.request.end) →
        False := by
    intro x inRequest next
    rcases spec.reach inRequest with already | ⟨other, member, isType,
      inOther⟩
    · simp only [fileLocksAdjacent, FileLock.covers] at distant already
      omega
    · have separate := (compatible other member).disjoint
        (sameOwner other member)
      have apart := (compatible other member).apart
        (sameOwner other member) (sameType.trans isType.symm)
      simp only [fileLocksOverlap, fileLocksAdjacent, FileLock.covers]
        at separate apart inOther
      omega
  rintro (above | below)
  · exact blocked (x := walk.request.start)
      ⟨Int.le_refl _, by omega⟩ (.inl ⟨by omega, rfl⟩)
  · exact blocked (x := walk.request.end)
      ⟨by omega, Int.le_refl _⟩ (.inr ⟨by omega, rfl⟩)

/-- The walk leaves a lock alone that does not touch the request. -/
theorem skip
    {walk : LockWalk}
    (spec : OwnWalk request rest walk)
    (ordered : lock.start ≤ lock.end)
    (requestOrdered : request.start ≤ request.end)
    (sameOwner : ∀ other ∈ rest, lock.owner = other.owner)
    (compatible : ∀ other ∈ rest, lock.Compatible other)
    (separate : ¬ fileLocksOverlap lock request)
    (distant :
      lock.type = request.type → ¬ fileLocksAdjacent request lock) :
    OwnWalk request (lock :: rest) (walk.behind [lock]) where
  after := spec.after
  owner := spec.owner
  type := spec.type
  growsDown := spec.growsDown
  growsUp := spec.growsUp
  reach := by
    intro x inRequest
    rcases spec.reach inRequest with already | ⟨other, member, found⟩
    · exact .inl already
    · exact .inr ⟨other, mem_cons_of_mem _ member, found⟩
  parts := by
    intro piece member
    rcases mem_cons.mp member with rfl | inBefore
    · exact ⟨piece, mem_cons_self, .refl ordered⟩
    · obtain ⟨other, inRest, part⟩ := spec.parts piece inBefore
      exact ⟨other, mem_cons_of_mem _ inRest, part⟩
  kept := by
    intro x type
    have keepsRest := @spec.kept x type
    have notReached : lock.covers x → ¬ walk.request.covers x :=
      fun inLock =>
        spec.not_reached sameOwner compatible inLock fun inRequest =>
          separate (FileLock.overlap_of_covers inLock inRequest)
    simp only [LockWalk.behind, singleton_append, mem_cons,
      exists_eq_or_imp, keepsRest]
    constructor
    · rintro (⟨sameType, inLock⟩ | ⟨outside, found⟩)
      · exact ⟨notReached inLock, .inl ⟨sameType, inLock⟩⟩
      · exact ⟨outside, .inr found⟩
    · rintro ⟨outside, here | found⟩
      · exact .inl here
      · exact .inr ⟨outside, found⟩
  apart := by
    intro piece member sameType
    rcases mem_cons.mp member with rfl | inBefore
    · exact spec.not_adjacent ordered requestOrdered sameOwner compatible
        (distant sameType) sameType
    · exact spec.apart piece inBefore sameType
  compatible := by
    refine pairwise_cons.mpr ⟨?_, spec.compatible⟩
    intro piece inBefore
    obtain ⟨other, inRest, part⟩ := spec.parts piece inBefore
    exact (compatible other inRest).parts (.refl ordered) part

/-- The walk swallows a lock of the request's type that touches it. -/
theorem merge
    {walk : LockWalk}
    (spec : OwnWalk (request.extend lock) rest walk)
    (requestOrdered : request.start ≤ request.end)
    (sameType : request.type = lock.type)
    (touches :
      fileLocksOverlap lock request ∨ fileLocksAdjacent request lock) :
    OwnWalk request (lock :: rest) walk := by
  have union :
      ∀ {x},
        (request.extend lock).covers x ↔
          request.covers x ∨ lock.covers x :=
    FileLock.extend_covers requestOrdered touches
  have bounds :
      (request.extend lock).start ≤ request.start ∧
        request.end ≤ (request.extend lock).end ∧
        (request.extend lock).start ≤ lock.start ∧
        lock.end ≤ (request.extend lock).end := by
    simp only [FileLock.extend]
    split <;> split <;> omega
  have growsDown := spec.growsDown
  have growsUp := spec.growsUp
  have swallowed :
      ∀ {x}, lock.covers x → walk.request.covers x :=
    fun inLock =>
      ⟨Int.le_trans (Int.le_trans growsDown bounds.2.2.1) inLock.1,
        Int.le_trans inLock.2 (Int.le_trans bounds.2.2.2 growsUp)⟩
  exact {
    after := spec.after
    owner := spec.owner
    type := spec.type
    growsDown := Int.le_trans growsDown bounds.1
    growsUp := Int.le_trans bounds.2.1 growsUp
    reach := by
      intro x inRequest
      rcases spec.reach inRequest with already | ⟨other, member, found⟩
      · rcases union.mp already with inOld | inLock
        · exact .inl inOld
        · exact .inr ⟨lock, mem_cons_self, sameType.symm, inLock⟩
      · exact .inr ⟨other, mem_cons_of_mem _ member, found⟩
    parts := by
      intro piece member
      obtain ⟨other, inRest, part⟩ := spec.parts piece member
      exact ⟨other, mem_cons_of_mem _ inRest, part⟩
    kept := by
      intro x type
      rw [spec.kept]
      constructor
      · rintro ⟨outside, other, member, found⟩
        exact ⟨outside, other, mem_cons_of_mem _ member, found⟩
      · rintro ⟨outside, other, member, isType, inOther⟩
        rcases mem_cons.mp member with rfl | inRest
        · exact absurd (swallowed inOther) outside
        · exact ⟨outside, other, inRest, isType, inOther⟩
    apart := spec.apart
    compatible := spec.compatible }

/-- The walk cuts a lock of another type back to what sticks out. -/
theorem cut
    {walk : LockWalk}
    (spec : OwnWalk request rest walk)
    (requestOrdered : request.start ≤ request.end)
    (sameOwner : ∀ other ∈ rest, lock.owner = other.owner)
    (compatible : ∀ other ∈ rest, lock.Compatible other)
    (differs : request.type ≠ lock.type)
    (overlap : fileLocksOverlap lock request) :
    OwnWalk request (lock :: rest)
      { walk.behind (lock.subtract request) with notified := true } where
  after := spec.after
  owner := spec.owner
  type := spec.type
  growsDown := spec.growsDown
  growsUp := spec.growsUp
  reach := by
    intro x inRequest
    rcases spec.reach inRequest with already | ⟨other, member, found⟩
    · exact .inl already
    · exact .inr ⟨other, mem_cons_of_mem _ member, found⟩
  parts := by
    intro piece member
    rcases mem_append.mp member with remains | inBefore
    · exact ⟨lock, mem_cons_self,
        (FileLock.subtract_part overlap remains).1⟩
    · obtain ⟨other, inRest, part⟩ := spec.parts piece inBefore
      exact ⟨other, mem_cons_of_mem _ inRest, part⟩
  kept := by
    intro x type
    have remains :
        (∃ piece ∈ lock.subtract request,
            piece.type = type ∧ piece.covers x) ↔
          ¬ walk.request.covers x ∧ lock.type = type ∧ lock.covers x := by
      constructor
      · rintro ⟨piece, member, isType, inPiece⟩
        have part := (FileLock.subtract_part overlap member).1
        obtain ⟨inLock, outside⟩ :=
          (FileLock.subtract_covers requestOrdered overlap).mp
            ⟨piece, member, inPiece⟩
        exact ⟨spec.not_reached sameOwner compatible inLock outside,
          part.type.symm.trans isType, inLock⟩
      · rintro ⟨outside, isType, inLock⟩
        have notRequested : ¬ request.covers x :=
          fun inRequest => outside
            ⟨Int.le_trans spec.growsDown inRequest.1,
              Int.le_trans inRequest.2 spec.growsUp⟩
        obtain ⟨piece, member, inPiece⟩ :=
          (FileLock.subtract_covers requestOrdered overlap).mpr
            ⟨inLock, notRequested⟩
        have part := (FileLock.subtract_part overlap member).1
        exact ⟨piece, member, part.type.trans isType, inPiece⟩
    have keepsRest := @spec.kept x type
    simp only [LockWalk.behind, mem_append, or_and_right, exists_or,
      remains, keepsRest, mem_cons, exists_eq_left]
    rw [← and_or_left]
  apart := by
    intro piece member sameType
    rcases mem_append.mp member with remains | inBefore
    · have part := (FileLock.subtract_part overlap remains).1
      exact absurd (part.type.symm.trans sameType).symm differs
    · exact spec.apart piece inBefore sameType
  compatible := by
    refine pairwise_append.mpr
      ⟨FileLock.subtract_compatible requestOrdered overlap,
        spec.compatible, ?_⟩
    intro piece remains other inBefore
    have part := (FileLock.subtract_part overlap remains).1
    obtain ⟨later, inRest, laterPart⟩ := spec.parts other inBefore
    exact (compatible later inRest).parts part laterPart

/-- The walk over own locks, from the first one on. -/
theorem walk
    {own : List FileLock}
    (requestOrdered : request.start ≤ request.end)
    (isOwn : ∀ lock ∈ own, lock.owner = request.owner)
    (valid : ∀ lock ∈ own, lock.Valid)
    (compatible : own.Pairwise FileLock.Compatible) :
    OwnWalk request own (acquireLoop true request own) := by
  induction own generalizing request with
  | nil =>
    exact .nil request
  | cons lock rest inductionHypothesis =>
    have owned := isOwn lock mem_cons_self
    have ordered := (valid lock mem_cons_self).ordered
    have restOwn :
        ∀ other ∈ rest, other.owner = request.owner :=
      fun other member => isOwn other (mem_cons_of_mem _ member)
    have sameOwner : ∀ other ∈ rest, lock.owner = other.owner :=
      fun other member => owned.trans (restOwn other member).symm
    have restValid : ∀ other ∈ rest, other.Valid :=
      fun other member => valid other (mem_cons_of_mem _ member)
    obtain ⟨lockCompatible, restCompatible⟩ :=
      pairwise_cons.mp compatible
    have restSpec :=
      inductionHypothesis requestOrdered restOwn restValid
        restCompatible
    simp only [acquireLoop, owned, ne_eq, not_true_eq_false, if_false]
    split
    · rename_i sameType
      split
      · rename_i apart
        exact restSpec.skip ordered requestOrdered sameOwner
          lockCompatible apart.1 fun _ => apart.2
      · rename_i touches
        have touching :
            fileLocksOverlap lock request ∨
              fileLocksAdjacent request lock := by
          by_contra neither
          exact touches (not_or.mp neither)
        refine .merge (inductionHypothesis ?_ restOwn restValid
          restCompatible) requestOrdered sameType touching
        simp only [FileLock.extend]
        split <;> split <;> omega
    · rename_i differs
      split
      · rename_i overlap
        exact restSpec.cut requestOrdered sameOwner lockCompatible
          differs overlap
      · rename_i separate
        exact restSpec.skip ordered requestOrdered sameOwner
          lockCompatible separate fun same => absurd same.symm differs

end OwnWalk

variable {request : FileLock}
  {before after own locks replacement : List FileLock} {x : Int}
  {type : LockType} {owner : OwnerId}

/-- Locks of other owners before the own ones are passed. -/
theorem acquireLoop_before
    (others : ∀ lock ∈ before, lock.owner ≠ request.owner)
    (locks : List FileLock) :
    acquireLoop false request (before ++ locks) =
      (acquireLoop false request locks).behind before := by
  induction before with
  | nil =>
    rfl
  | cons lock rest inductionHypothesis =>
    have different := others lock mem_cons_self
    have restOthers :
        ∀ other ∈ rest, other.owner ≠ request.owner :=
      fun other member => others other (mem_cons_of_mem _ member)
    simp only [cons_append, acquireLoop, different, ne_eq,
      not_false_eq_true, if_true, Bool.false_eq_true, if_false,
      inductionHypothesis restOthers]
    rfl

/-- The walk stops at the first lock after the own ones. -/
theorem acquireLoop_after
    (isOwn : ∀ lock ∈ own, lock.owner = request.owner)
    (others : ∀ lock ∈ after, lock.owner ≠ request.owner) :
    acquireLoop true request (own ++ after) =
      { acquireLoop true request own with after := after } := by
  induction own generalizing request with
  | nil =>
    cases after with
    | nil =>
      rfl
    | cons lock rest =>
      have different := others lock mem_cons_self
      simp only [nil_append, acquireLoop, different, ne_eq,
        not_false_eq_true, if_true]
  | cons lock rest inductionHypothesis =>
    have owned := isOwn lock mem_cons_self
    have restOwn :
        ∀ other ∈ rest, other.owner = request.owner :=
      fun other member => isOwn other (mem_cons_of_mem _ member)
    have goesOn := inductionHypothesis restOwn others
    have grownGoesOn :=
      @inductionHypothesis (request.extend lock) restOwn others
    simp only [cons_append, acquireLoop, owned, ne_eq,
      not_true_eq_false, if_false, goesOn, grownGoesOn]
    split
    · split <;> rfl
    · split <;> rfl

theorem acquireLoop_found
    {lock : FileLock}
    {rest : List FileLock}
    (owned : lock.owner = request.owner) :
    acquireLoop false request (lock :: rest) =
      acquireLoop true request (lock :: rest) := by
  simp only [acquireLoop, owned, ne_eq, not_true_eq_false, if_false]

/-- On a grouped list, the walk is the walk over the own group. -/
theorem acquireLoop_split
    (parts : GroupSplit FileLock.owner request.owner before own after) :
    acquireLoop false request (before ++ (own ++ after)) =
      { acquireLoop true request own with
        before := before ++ (acquireLoop true request own).before
        after := after } := by
  rw [acquireLoop_before parts.notBefore]
  cases own with
  | nil =>
    rw [parts.last rfl]
    rfl
  | cons lock rest =>
    rw [cons_append,
      acquireLoop_found (parts.inGroup lock mem_cons_self),
      ← cons_append, acquireLoop_after parts.inGroup parts.notAfter]
    rfl

/-- What every reachable list of locks satisfies. -/
structure Consistent (locks : List FileLock) : Prop where
  valid : ∀ lock ∈ locks, lock.Valid
  compatible : locks.Pairwise FileLock.Compatible
  grouped : Grouped FileLock.owner locks

/-- The lock type an owner holds at a byte. -/
def heldType
    (locks : List FileLock) (owner : OwnerId) (x : Int) :
    Option LockType :=
  (locks.find? fun lock => lock.owner = owner ∧ lock.covers x).map
    FileLock.type

/-- Some lock of the owner has this type at this byte. -/
def Holds
    (locks : List FileLock) (owner : OwnerId) (x : Int)
    (type : LockType) : Prop :=
  ∃ lock ∈ locks,
    lock.owner = owner ∧ lock.type = type ∧ lock.covers x

/-- In a consistent list the held type is the type of the one lock. -/
theorem Consistent.heldType_eq_some
    (consistent : Consistent locks) :
    heldType locks owner x = some type ↔ Holds locks owner x type := by
  have compatible := consistent.compatible
  clear consistent
  induction locks with
  | nil =>
    simp [heldType, Holds]
  | cons lock rest inductionHypothesis =>
    obtain ⟨lockCompatible, restCompatible⟩ :=
      pairwise_cons.mp compatible
    by_cases here : lock.owner = owner ∧ lock.covers x
    · have onlyHere : ¬ Holds rest owner x type := by
        rintro ⟨other, member, isOwner, _, inOther⟩
        exact (lockCompatible other member).not_covers
          (here.1.trans isOwner.symm) here.2 inOther
      simp only [heldType, List.find?_cons, here, and_self, decide_true,
        Option.map_some, Option.some.injEq]
      constructor
      · intro isType
        exact ⟨lock, mem_cons_self, here.1, isType, here.2⟩
      · rintro ⟨other, member, found⟩
        rcases mem_cons.mp member with rfl | inRest
        · exact found.2.1
        · exact absurd ⟨other, inRest, found⟩ onlyHere
    · have skips :
          heldType (lock :: rest) owner x = heldType rest owner x := by
        simp only [heldType, List.find?_cons, here, decide_false]
      rw [skips]
      refine (inductionHypothesis restCompatible).trans ?_
      constructor
      · rintro ⟨other, member, found⟩
        exact ⟨other, mem_cons_of_mem _ member, found⟩
      · rintro ⟨other, member, found⟩
        rcases mem_cons.mp member with rfl | inRest
        · exact absurd ⟨found.1, found.2.2⟩ here
        · exact ⟨other, inRest, found⟩

/-- The requester's own locks after a granted request. -/
def newOwn (walk : LockWalk) : List FileLock :=
  if walk.request.type = .unlck then walk.before
  else walk.before ++ [walk.request]

/-- A granted request replaces the requester's group. -/
theorem fileLockAcquire_granted
    (parts : GroupSplit FileLock.owner request.owner before own after)
    (free :
      ¬ (request.type ≠ .unlck ∧
        ∃ lock ∈ before ++ (own ++ after),
          fileLocksConflict lock request))
    (spec : OwnWalk request own (acquireLoop true request own)) :
    (fileLockAcquire (before ++ (own ++ after)) request).locks =
      before ++ (newOwn (acquireLoop true request own) ++ after) := by
  simp only [fileLockAcquire, if_neg free, acquireLoop_split parts, newOwn,
    spec.type]
  by_cases unlocks : request.type = .unlck
  · simp [unlocks]
  · simp [unlocks]

theorem Consistent.ownWalk
    (consistent : Consistent (before ++ (own ++ after)))
    (parts : GroupSplit FileLock.owner request.owner before own after)
    (requestOrdered : request.start ≤ request.end) :
    OwnWalk request own (acquireLoop true request own) := by
  obtain ⟨_, compatible, _⟩ :=
    pairwise_append.mp consistent.compatible
  refine .walk requestOrdered parts.inGroup ?_
    (pairwise_append.mp compatible).1
  intro lock member
  exact consistent.valid lock
    (mem_append_right _ (mem_append_left _ member))

namespace OwnWalk

variable
  {request : FileLock}
  {own : List FileLock}
  {walk : LockWalk}

section

variable (spec : OwnWalk request own walk)
include spec

theorem mem_newOwn
    {lock : FileLock} :
    lock ∈ newOwn walk ↔
      lock ∈ walk.before ∨
        request.type ≠ .unlck ∧ lock = walk.request := by
  unfold newOwn
  by_cases unlocks : request.type = .unlck
  · simp [spec.type, unlocks]
  · simp [spec.type, unlocks]

theorem newOwn_owner
    (isOwn : ∀ lock ∈ own, lock.owner = request.owner) :
    ∀ lock ∈ newOwn walk, lock.owner = request.owner := by
  intro lock member
  rcases spec.mem_newOwn.mp member with inBefore | ⟨_, rfl⟩
  · obtain ⟨whole, inOwn, part⟩ := spec.parts lock inBefore
    exact part.owner.trans (isOwn whole inOwn)
  · exact spec.owner

theorem request_ordered
    (requestOrdered : request.start ≤ request.end) :
    walk.request.start ≤ walk.request.end :=
  Int.le_trans spec.growsDown (Int.le_trans requestOrdered spec.growsUp)

/-- They are valid locks. -/
theorem newOwn_valid
    (valid : ∀ lock ∈ own, lock.Valid)
    (nonneg : 0 ≤ request.start)
    (requestOrdered : request.start ≤ request.end) :
    ∀ lock ∈ newOwn walk, lock.Valid := by
  intro lock member
  rcases spec.mem_newOwn.mp member with inBefore | ⟨takes, rfl⟩
  · obtain ⟨whole, inOwn, part⟩ := spec.parts lock inBefore
    exact part.valid (valid whole inOwn)
  · have ordered := spec.request_ordered requestOrdered
    refine ⟨?_, ordered, spec.type ▸ takes⟩
    rcases spec.reach ⟨Int.le_refl _, ordered⟩ with
        inRequest | ⟨whole, inOwn, _, inWhole⟩
    · exact Int.le_trans nonneg inRequest.1
    · exact Int.le_trans (valid whole inOwn).nonneg inWhole.1

section

variable (isOwn : ∀ lock ∈ own, lock.owner = request.owner)
include isOwn

/-- They are compatible with each other. -/
theorem newOwn_compatible
    (requestOrdered : request.start ≤ request.end) :
    (newOwn walk).Pairwise FileLock.Compatible := by
  unfold newOwn
  split
  · exact spec.compatible
  · refine pairwise_append.mpr
      ⟨spec.compatible, pairwise_singleton .., ?_⟩
    intro piece inBefore other isRequest
    cases mem_singleton.mp isRequest
    obtain ⟨whole, inOwn, part⟩ := spec.parts piece inBefore
    have sameOwner : piece.owner = walk.request.owner :=
      (part.owner.trans (isOwn whole inOwn)).trans spec.owner.symm
    refine ⟨fun conflict => conflict.1 sameOwner, ?_, ?_⟩
    · intro _ overlap
      obtain ⟨x, inPiece, inRequest⟩ :=
        FileLock.exists_covers_of_overlap part.ordered
          (spec.request_ordered requestOrdered) overlap
      exact (spec.kept.mp ⟨piece, inBefore, rfl, inPiece⟩).1 inRequest
    · intro _ sameType
      exact spec.apart piece inBefore (sameType.trans spec.type)

/-- They are compatible with the locks of the other owners. -/
theorem newOwn_compatible_other
    (requestOrdered : request.start ≤ request.end)
    {other : FileLock}
    (different : other.owner ≠ request.owner)
    (ordered : other.start ≤ other.end)
    (compatible : ∀ lock ∈ own, lock.Compatible other)
    (free : request.type ≠ .unlck → ¬ fileLocksConflict other request) :
    ∀ lock ∈ newOwn walk, lock.Compatible other := by
  intro lock member
  have notOther : lock.owner ≠ other.owner := by
    rw [spec.newOwn_owner isOwn lock member]
    exact different.symm
  rcases spec.mem_newOwn.mp member with inBefore | ⟨takes, rfl⟩
  · obtain ⟨whole, inOwn, part⟩ := spec.parts lock inBefore
    exact (compatible whole inOwn).parts part (.refl ordered)
  · refine ⟨?_, fun same => absurd same notOther,
      fun same => absurd same notOther⟩
    rintro ⟨_, overlap, writes⟩
    obtain ⟨x, inGrown, inOther⟩ :=
      FileLock.exists_covers_of_overlap
        (spec.request_ordered requestOrdered) ordered overlap
    rw [spec.type] at writes
    rcases spec.reach inGrown with
        inRequest | ⟨whole, inOwn, sameType, inWhole⟩
    · exact free takes ⟨different,
        FileLock.overlap_of_covers inOther inRequest, writes.symm⟩
    · refine (compatible whole inOwn).noConflict ⟨?_,
        FileLock.overlap_of_covers inWhole inOther, ?_⟩
      · rw [isOwn whole inOwn]
        exact different.symm
      · rwa [sameType]

/-- They hold the requested type on the range, and the old ones outside. -/
theorem newOwn_holds
    (valid : ∀ lock ∈ own, lock.Valid)
    (compatible : own.Pairwise FileLock.Compatible)
    {x : Int}
    {type : LockType} :
    (∃ lock ∈ newOwn walk, lock.type = type ∧ lock.covers x) ↔
      if request.covers x then
        request.type ≠ .unlck ∧ request.type = type
      else
        ∃ lock ∈ own, lock.type = type ∧ lock.covers x := by
  have grows : request.covers x → walk.request.covers x :=
    fun inRequest =>
      ⟨Int.le_trans spec.growsDown inRequest.1,
        Int.le_trans inRequest.2 spec.growsUp⟩
  have expand :
      (∃ lock ∈ newOwn walk, lock.type = type ∧ lock.covers x) ↔
        (¬ walk.request.covers x ∧
            ∃ lock ∈ own, lock.type = type ∧ lock.covers x) ∨
          (request.type ≠ .unlck ∧ request.type = type ∧
            walk.request.covers x) := by
    rw [← spec.kept]
    constructor
    · rintro ⟨lock, member, isType, inLock⟩
      rcases spec.mem_newOwn.mp member with inBefore | ⟨takes, rfl⟩
      · exact .inl ⟨lock, inBefore, isType, inLock⟩
      · exact .inr ⟨takes, spec.type.symm.trans isType, inLock⟩
    · rintro (⟨lock, inBefore, found⟩ | ⟨takes, isType, inGrown⟩)
      · exact ⟨lock, spec.mem_newOwn.mpr (.inl inBefore), found⟩
      · exact ⟨walk.request, spec.mem_newOwn.mpr (.inr ⟨takes, rfl⟩),
          spec.type.trans isType, inGrown⟩
  rw [expand]
  split
  · rename_i inRequest
    have inGrown := grows inRequest
    constructor
    · rintro (⟨outside, _⟩ | ⟨takes, isType, _⟩)
      · exact absurd inGrown outside
      · exact ⟨takes, isType⟩
    · rintro ⟨takes, isType⟩
      exact .inr ⟨takes, isType, inGrown⟩
  · rename_i outside
    by_cases inGrown : walk.request.covers x
    · rcases spec.reach inGrown with
          inRequest | ⟨whole, inOwn, sameType, inWhole⟩
      · exact absurd inRequest outside
      · -- the grown request covers `x` with a lock it merged with
        have takes : request.type ≠ .unlck :=
          sameType ▸ (valid whole inOwn).holds
        have unique :
            ∀ lock ∈ own, lock.covers x → lock = whole := by
          intro lock member inLock
          by_contra differs
          refine (compatible.forall member inOwn differs).not_covers ?_
            inLock inWhole
          exact (isOwn lock member).trans (isOwn whole inOwn).symm
        constructor
        · rintro (⟨notGrown, _⟩ | ⟨_, isType, _⟩)
          · exact absurd inGrown notGrown
          · exact ⟨whole, inOwn, sameType.trans isType, inWhole⟩
        · rintro ⟨lock, member, isType, inLock⟩
          cases unique lock member inLock
          exact .inr ⟨takes, sameType.symm.trans isType, inGrown⟩
    · constructor
      · rintro (⟨_, found⟩ | ⟨_, _, reached⟩)
        · exact found
        · exact absurd reached inGrown
      · intro found
        exact .inl ⟨inGrown, found⟩

end

end

end OwnWalk

/-- A granted request keeps the list consistent. -/
theorem Consistent.replaceOwn
    (consistent : Consistent (before ++ (own ++ after)))
    (parts : GroupSplit FileLock.owner request.owner before own after)
    (nonneg : 0 ≤ request.start)
    (requestOrdered : request.start ≤ request.end)
    (free :
      request.type ≠ .unlck →
      ∀ lock ∈ before ++ (own ++ after),
        ¬ fileLocksConflict lock request) :
    Consistent
      (before ++ (newOwn (acquireLoop true request own) ++ after)) := by
  have spec := consistent.ownWalk parts requestOrdered
  obtain ⟨valid, compatible, grouped⟩ := consistent
  have validOwn : ∀ lock ∈ own, lock.Valid :=
    fun lock member => valid lock
      (mem_append_right _ (mem_append_left _ member))
  have validBefore : ∀ lock ∈ before, lock.Valid :=
    fun lock member => valid lock (mem_append_left _ member)
  have validAfter : ∀ lock ∈ after, lock.Valid :=
    fun lock member => valid lock
      (mem_append_right _ (mem_append_right _ member))
  obtain ⟨compatibleBefore, compatibleRest, across⟩ :=
    pairwise_append.mp compatible
  obtain ⟨compatibleOwn, compatibleAfter, ownAfter⟩ :=
    pairwise_append.mp compatibleRest
  have newAfter :
      ∀ lock ∈ newOwn (acquireLoop true request own),
        ∀ other ∈ after, lock.Compatible other := by
    intro lock member other inAfter
    exact spec.newOwn_compatible_other parts.inGroup requestOrdered
      (parts.notAfter other inAfter) (validAfter other inAfter).ordered
      (fun whole inOwn => ownAfter whole inOwn other inAfter)
      (fun takes => free takes other
        (mem_append_right _ (mem_append_right _ inAfter)))
      lock member
  have beforeNew :
      ∀ other ∈ before,
        ∀ lock ∈ newOwn (acquireLoop true request own),
          other.Compatible lock := by
    intro other inBefore lock member
    refine (spec.newOwn_compatible_other parts.inGroup requestOrdered
      (parts.notBefore other inBefore) (validBefore other inBefore).ordered
      (fun whole inOwn => ?_)
      (fun takes => free takes other (mem_append_left _ inBefore))
      lock member).symm
    exact (across other inBefore whole
      (mem_append_left _ inOwn)).symm
  refine ⟨?_, ?_, grouped.replace parts
    (spec.newOwn_owner parts.inGroup)⟩
  · intro lock member
    rcases mem_append.mp member with inBefore | inRest
    · exact validBefore lock inBefore
    · rcases mem_append.mp inRest with isNew | inAfter
      · exact spec.newOwn_valid validOwn nonneg requestOrdered lock isNew
      · exact validAfter lock inAfter
  · refine pairwise_append.mpr ⟨compatibleBefore, ?_, ?_⟩
    · exact pairwise_append.mpr
        ⟨spec.newOwn_compatible parts.inGroup requestOrdered,
          compatibleAfter, newAfter⟩
    · intro other inBefore lock inRest
      rcases mem_append.mp inRest with isNew | inAfter
      · exact beforeNew other inBefore lock isNew
      · exact across other inBefore lock
          (mem_append_right _ inAfter)

theorem holds_group
    {group : OwnerId}
    (parts : GroupSplit FileLock.owner group before own after)
    (isOwn : ∀ lock ∈ replacement, lock.owner = group) :
    Holds (before ++ (replacement ++ after)) group x type ↔
      ∃ lock ∈ replacement, lock.type = type ∧ lock.covers x := by
  constructor
  · rintro ⟨lock, member, isGroup, found⟩
    rcases mem_append.mp member with inBefore | inRest
    · exact absurd isGroup (parts.notBefore lock inBefore)
    rcases mem_append.mp inRest with inGroup | inAfter
    · exact ⟨lock, inGroup, found⟩
    · exact absurd isGroup (parts.notAfter lock inAfter)
  · rintro ⟨lock, member, found⟩
    exact ⟨lock,
      mem_append_right _ (mem_append_left _ member),
      isOwn lock member, found⟩

/-- What the other owners hold does not depend on the group. -/
theorem holds_other
    {group : OwnerId}
    (isOwn : ∀ lock ∈ replacement, lock.owner = group)
    (different : owner ≠ group) :
    Holds (before ++ (replacement ++ after)) owner x type ↔
      Holds (before ++ after) owner x type := by
  constructor
  · rintro ⟨lock, member, isOwner, found⟩
    rcases mem_append.mp member with inBefore | inRest
    · exact ⟨lock, mem_append_left _ inBefore, isOwner, found⟩
    rcases mem_append.mp inRest with inGroup | inAfter
    · exact absurd (isOwner.symm.trans (isOwn lock inGroup)) different
    · exact ⟨lock, mem_append_right _ inAfter, isOwner, found⟩
  · rintro ⟨lock, member, found⟩
    rcases mem_append.mp member with inBefore | inAfter
    · exact ⟨lock, mem_append_left _ inBefore, found⟩
    · exact ⟨lock, mem_append_right _
        (mem_append_right _ inAfter), found⟩

/-- Who holds what after a granted request. -/
theorem Consistent.holds_replaceOwn
    (consistent : Consistent (before ++ (own ++ after)))
    (parts : GroupSplit FileLock.owner request.owner before own after)
    (requestOrdered : request.start ≤ request.end) :
    Holds (before ++ (newOwn (acquireLoop true request own) ++ after))
        owner x type ↔
      if owner = request.owner ∧ request.covers x then
        request.type ≠ .unlck ∧ request.type = type
      else
        Holds (before ++ (own ++ after)) owner x type := by
  have spec := consistent.ownWalk parts requestOrdered
  have newIsOwn := spec.newOwn_owner parts.inGroup
  by_cases isRequester : owner = request.owner
  · subst isRequester
    obtain ⟨_, compatible, _⟩ :=
      pairwise_append.mp consistent.compatible
    have valid : ∀ lock ∈ own, lock.Valid :=
      fun lock member => consistent.valid lock
        (mem_append_right _ (mem_append_left _ member))
    rw [holds_group parts newIsOwn, holds_group parts parts.inGroup,
      spec.newOwn_holds parts.inGroup valid
        (pairwise_append.mp compatible).1]
    simp only [true_and]
  · rw [holds_other newIsOwn isRequester,
      holds_other parts.inGroup isRequester]
    simp only [isRequester, false_and, if_false]

/-- A lock request, or the close of a descriptor by an owner. -/
inductive LockAction where
  | acquire (request : FileLock)
  | removeOwnedBy (owner : OwnerId)
  deriving Repr, DecidableEq

/-- The lock list of one inode, under any sequence of operations. -/
def lockMachine : Machine (List FileLock) LockAction where
  initial locks := locks = []
  step locks action next :=
    match action with
    | .acquire request =>
      0 ≤ request.start ∧ request.start ≤ request.end ∧
        next = (fileLockAcquire locks request).locks
    | .removeOwnedBy owner =>
      next = fileLockRemoveOwnedBy locks owner

theorem Consistent.step
    {next : List FileLock}
    {action : LockAction}
    (consistent : Consistent locks)
    (taken : lockMachine.step locks action next) :
    Consistent next := by
  cases action with
  | acquire request =>
    obtain ⟨nonneg, requestOrdered, rfl⟩ := taken
    by_cases blocked :
        request.type ≠ .unlck ∧
          ∃ lock ∈ locks, fileLocksConflict lock request
    · simpa only [fileLockAcquire, if_pos blocked] using consistent
    · obtain ⟨before, own, after, rfl, parts⟩ :=
        consistent.grouped.split request.owner
      rw [fileLockAcquire_granted parts blocked
        (consistent.ownWalk parts requestOrdered)]
      exact consistent.replaceOwn parts nonneg requestOrdered
        fun takes lock member conflict =>
          blocked ⟨takes, lock, member, conflict⟩
  | removeOwnedBy owner =>
    cases taken
    exact {
      valid := fun lock member =>
        consistent.valid lock (mem_of_mem_filter member)
      compatible := consistent.compatible.filter _
      grouped := consistent.grouped.filter fun other =>
        decide (other ≠ owner) }

theorem Consistent.reachable
    (reachable : lockMachine.Reachable locks) :
    Consistent locks :=
  reachable.invariant
    (fun isInitial => isInitial ▸ ⟨nofun, .nil, trivial⟩)
    (fun consistent taken => consistent.step taken)

/--
In every reachable list, a granted request changes exactly what the requester
holds on the requested range; a refused one changes nothing; and a request is
refused exactly when it conflicts with a lock of another owner.
-/
theorem acquire_changes_requested_range
    {locks : List FileLock}
    {request : FileLock}
    (reachable : lockMachine.Reachable locks)
    (nonneg : 0 ≤ request.start)
    (requestOrdered : request.start ≤ request.end) :
    ((fileLockAcquire locks request).result = .ok () →
      ∀ owner x,
        heldType (fileLockAcquire locks request).locks owner x =
            (if owner = request.owner ∧ request.covers x then
              if request.type = .unlck then none else some request.type
            else
              heldType locks owner x) ∧
          ∀ type,
            heldType (fileLockAcquire locks request).locks owner x =
                some type ↔
              Holds (fileLockAcquire locks request).locks owner x type) ∧
      ((fileLockAcquire locks request).result = .error .again →
        (fileLockAcquire locks request).locks = locks ∧
          (fileLockAcquire locks request).request = request) ∧
      ((fileLockAcquire locks request).result = .error .again ↔
        request.type ≠ .unlck ∧
          ∃ lock ∈ locks,
            lock.owner ≠ request.owner ∧
              fileLocksOverlap lock request ∧
              (lock.type = .wrlck ∨ request.type = .wrlck)) := by
  have consistent := Consistent.reachable reachable
  have taken :
      lockMachine.step locks (.acquire request)
        (fileLockAcquire locks request).locks :=
    ⟨nonneg, requestOrdered, rfl⟩
  have consistentNext := consistent.step taken
  by_cases blocked :
      request.type ≠ .unlck ∧
        ∃ lock ∈ locks, fileLocksConflict lock request
  · have refused :
        fileLockAcquire locks request =
          { result := .error .again
            locks := locks
            request := request
            notified := false } :=
      if_pos blocked
    rw [refused]
    exact ⟨nofun, fun _ => ⟨rfl, rfl⟩, iff_of_true rfl blocked⟩
  · have granted : (fileLockAcquire locks request).result = .ok () := by
      simp only [fileLockAcquire, if_neg blocked]
    have notAgain :
        (fileLockAcquire locks request).result ≠ .error .again := by
      rw [granted]
      nofun
    refine ⟨fun _ owner x => ⟨?_, fun type =>
      consistentNext.heldType_eq_some⟩, fun again => absurd again notAgain,
      iff_of_false notAgain blocked⟩
    refine Option.ext fun type => ?_
    refine consistentNext.heldType_eq_some.trans ?_
    obtain ⟨before, own, after, rfl, parts⟩ :=
      consistent.grouped.split request.owner
    rw [fileLockAcquire_granted parts blocked
        (consistent.ownWalk parts requestOrdered),
      consistent.holds_replaceOwn parts requestOrdered]
    split
    · split
      · rename_i unlocks
        simp [unlocks]
      · rename_i takes
        simp [takes]
    · exact consistent.heldType_eq_some.symm

/-- A read lock inside a write lock of the same owner splits it. -/
theorem acquire_splits_own_lock :
    heldType
        (fileLockAcquire
          (fileLockAcquire [] ⟨0, 9, .wrlck, 1, 1⟩).locks
          ⟨3, 5, .rdlck, 1, 1⟩).locks 1 6 = some .wrlck := by
  have first : lockMachine.Reachable [⟨0, 9, .wrlck, 1, 1⟩] :=
    .step (a := .acquire ⟨0, 9, .wrlck, 1, 1⟩) (.initial rfl)
      ⟨by decide, by decide, by decide⟩
  have changes :=
    @acquire_changes_requested_range _ ⟨3, 5, .rdlck, 1, 1⟩ first
      (by decide) (by decide)
  rw [show (fileLockAcquire [] ⟨0, 9, .wrlck, 1, 1⟩).locks =
    [⟨0, 9, .wrlck, 1, 1⟩] by decide]
  rw [(changes.1 (by rfl) 1 6).1]
  decide

end GuestKernel
