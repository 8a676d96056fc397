import GuestKernel.UserCopyReach

namespace GuestKernel
open List

/-!
# One kernel buffer and many guest ranges

The vector calls copy between a flat kernel buffer and the ranges of an array
of vectors, one range after the other, until a copy fails.  Each range goes on
in the buffer where the one before it ended.
-/

/-- `struct iovec_`. -/
structure IoVector where
  base : Nat
  len : Nat

/-- Both members are 32-bit words. -/
structure IoVector.Narrow (vector : IoVector) : Prop where
  base : vector.base < 2 ^ 32
  len : vector.len < 2 ^ 32

/-- Which way the bytes go, and whose memory it is. -/
structure FlatLoop where
  host : Host
  replies : PageReplies
  direction : Direction
  m : MmId

/-- Guest memory, the flat buffer, and how much of the buffer is done. -/
structure FlatState where
  world : World
  flat : Nat → UInt8
  offset : Nat

/-- `buf + offset`. -/
def FlatState.rest (state : FlatState) : Nat → UInt8 :=
  fun index => state.flat (state.offset + index)

/-- The state behind the copy of one vector. -/
def FlatState.after
    (state : FlatState) (vector : IoVector) (last : CopyState) :
    FlatState where
  world := last.world
  flat index :=
    if index < state.offset then
      state.flat index
    else
      last.buffer (index - state.offset)
  offset := state.offset + vector.len

/-- `user_read` or `user_write` of one vector. -/
def FlatLoop.copy (loop : FlatLoop) (vector : IoVector) : UserCopy where
  direction := loop.direction
  m := loop.m
  addr := vector.base
  count := vector.len

/-- The state in which the copy of a vector starts. -/
def FlatLoop.start
    (loop : FlatLoop) (state : FlatState) (vector : IoVector) : CopyState :=
  (loop.copy vector).start state.world state.rest

/-- The copy of a vector returns. -/
def FlatLoop.Returns
    (loop : FlatLoop) (state : FlatState) (vector : IoVector)
    (result : Nat) (last : CopyState) : Prop :=
  (loop.copy vector).Returns loop.host loop.replies
    (loop.start state vector) result last

/-- The loop gets through all vectors. -/
inductive FlatLoop.Runs (loop : FlatLoop) :
    FlatState → List IoVector → FlatState → Prop where
  | done {state : FlatState} :
      Runs loop state [] state
  | more
      {state final : FlatState}
      {vector : IoVector}
      {rest : List IoVector}
      {last : CopyState}
      (returns : loop.Returns state vector 0 last)
      (later : Runs loop (state.after vector last) rest final) :
      Runs loop state (vector :: rest) final

/-- Something holds of every copy that the loop begins. -/
def FlatLoop.EveryCopy
    (loop : FlatLoop) (holds : FlatState → IoVector → Prop) :
    FlatState → List IoVector → Prop
  | _, [] => True
  | state, vector :: rest =>
    holds state vector ∧
      ∀ last,
        loop.Returns state vector 0 last →
        loop.EveryCopy holds (state.after vector last) rest

/-- Every copy stays inside a buffer of `size` bytes. -/
def FlatLoop.Inside (loop : FlatLoop) (size : Nat) :
    FlatState → List IoVector → Prop :=
  loop.EveryCopy fun state vector =>
    (loop.copy vector).Inside loop.host loop.replies state.world state.rest
      (size - state.offset)

/-- The host keeps its promise in every copy. -/
def FlatLoop.Honest (loop : FlatLoop) :
    FlatState → List IoVector → Prop :=
  loop.EveryCopy fun state vector =>
    ∀ inner,
      (loop.copy vector).Reaches loop.host loop.replies
          (loop.start state vector) inner →
        (loop.copy vector).HonestAt loop.host loop.replies inner

/-- The range of a vector can be copied. -/
def FlatLoop.Copyable
    (loop : FlatLoop) (w : World) (vector : IoVector) : Prop :=
  (loop.copy vector).Copyable loop.host loop.replies w

/--
As long as the ranges can be copied, the next one stops before the end of the
buffer.
-/
def FlatLoop.StopsInTime (loop : FlatLoop) (w : World) (size : Nat) :
    Nat → List IoVector → Prop
  | _, [] => True
  | offset, vector :: rest =>
    (loop.copy vector).StopsBefore loop.host loop.replies w
        (size - offset) ∧
      (loop.Copyable w vector →
        loop.StopsInTime w size (offset + vector.len) rest)

/-- The addresses of all ranges, one range after the other. -/
def destination (vectors : List IoVector) : List Nat :=
  vectors.flatMap fun vector => List.range' vector.base vector.len

/-- `iovec_size`. -/
def iovecSize (vectors : List IoVector) : Nat :=
  (vectors.map IoVector.len).sum

/-- The books are kept, and the same pages are accessible. -/
structure FlatLoop.Keeps
    (loop : FlatLoop) (w world : World) : Prop where
  kept : WellKept world
  inMm : loop.m < world.mmCount
  stays :
    ∀ access other,
      Accessible loop.host world loop.m access loop.replies other ↔
        Accessible loop.host w loop.m access loop.replies other

variable
  {loop : FlatLoop}
  {w : World}
  {state final : FlatState}
  {vector : IoVector}
  {vectors : List IoVector}
  {last : CopyState}
  {size : Nat}

theorem FlatLoop.Keeps.refl
    (kept : WellKept w)
    (inMm : loop.m < w.mmCount) :
    loop.Keeps w w :=
  ⟨kept, inMm, fun _ _ => Iff.rfl⟩

theorem FlatLoop.Keeps.copyable_iff
    {world : World}
    (keeps : loop.Keeps w world) :
    loop.Copyable world vector ↔ loop.Copyable w vector := by
  refine or_congr Iff.rfl (and_congr Iff.rfl ?_)
  exact forall_congr' fun _ => imp_congr Iff.rfl (keeps.stays _ _)

theorem FlatLoop.Keeps.stopsBefore_iff
    {world : World}
    {limit : Nat}
    (keeps : loop.Keeps w world) :
    (loop.copy vector).StopsBefore loop.host loop.replies world limit ↔
      (loop.copy vector).StopsBefore loop.host loop.replies w limit := by
  refine or_congr Iff.rfl (or_congr Iff.rfl (or_congr Iff.rfl ?_))
  refine exists_congr fun _ => and_congr Iff.rfl (not_congr ?_)
  exact keeps.stays _ _

section

variable (keeps : loop.Keeps w state.world)
include keeps

theorem FlatLoop.Keeps.after
    (success :
      CopySuccess loop.host loop.replies (loop.copy vector) state.world
        state.rest last) :
    loop.Keeps w (state.after vector last).world where
  kept := success.base.kept
  inMm := success.base.inMm
  stays access other :=
    (success.base.stays access other).trans (keeps.stays access other)

theorem FlatLoop.Keeps.success
    (narrow : vector.Narrow)
    (honest : loop.Honest state (vector :: vectors))
    (returns : loop.Returns state vector 0 last) :
    CopySuccess loop.host loop.replies (loop.copy vector) state.world
      state.rest last :=
  .of_returns keeps.kept keeps.inMm ⟨narrow.base, narrow.len⟩ honest.1 returns

theorem FlatLoop.Keeps.returns_iff
    (narrow : vector.Narrow)
    (honest : loop.Honest state (vector :: vectors)) :
    (∃ last, loop.Returns state vector 0 last) ↔ loop.Copyable w vector :=
  (UserCopy.copyable_iff keeps.kept keeps.inMm
      ⟨narrow.base, narrow.len⟩ honest.1).trans keeps.copyable_iff

/-- The loop stays inside the buffer exactly if every copy stops in time. -/
theorem FlatLoop.inside_iff
    (narrow : ∀ vector ∈ vectors, vector.Narrow)
    (honest : loop.Honest state vectors) :
    loop.Inside size state vectors ↔
      loop.StopsInTime w size state.offset vectors := by
  induction vectors generalizing state with
  | nil => exact Iff.rfl
  | cons vector rest inductionHypothesis =>
    obtain ⟨headNarrow, restNarrow⟩ := forall_mem_cons.mp narrow
    have first :=
      (UserCopy.inside_iff keeps.kept keeps.inMm
        ⟨headNarrow.base, headNarrow.len⟩ honest.1).trans
          (@FlatLoop.Keeps.stopsBefore_iff loop w vector state.world
            (size - state.offset) keeps)
    refine and_congr first ?_
    rw [← keeps.returns_iff headNarrow honest]
    have later :
        ∀ last,
          loop.Returns state vector 0 last →
          (loop.Inside size (state.after vector last) rest ↔
            loop.StopsInTime w size (state.offset + vector.len)
              rest) :=
      fun last returns =>
        inductionHypothesis (keeps.after (keeps.success headNarrow honest
          returns)) restNarrow (honest.2 last returns)
    constructor
    · rintro inside ⟨last, returns⟩
      exact (later last returns).mp (inside last returns)
    · intro stops last returns
      exact (later last returns).mpr (stops ⟨last, returns⟩)

/-- The loop gets through exactly if every vector can be copied. -/
theorem FlatLoop.runs_iff
    (narrow : ∀ vector ∈ vectors, vector.Narrow)
    (honest : loop.Honest state vectors) :
    (∃ final, loop.Runs state vectors final) ↔
      ∀ vector ∈ vectors, loop.Copyable w vector := by
  induction vectors generalizing state with
  | nil => exact iff_of_true ⟨state, .done⟩ fun _ member => by cases member
  | cons vector rest inductionHypothesis =>
    obtain ⟨headNarrow, restNarrow⟩ := forall_mem_cons.mp narrow
    rw [forall_mem_cons, ← keeps.returns_iff headNarrow honest]
    have later :
        ∀ last,
          loop.Returns state vector 0 last →
          ((∃ final, loop.Runs (state.after vector last) rest final) ↔
            ∀ vector ∈ rest, loop.Copyable w vector) :=
      fun last returns =>
        inductionHypothesis (keeps.after (keeps.success headNarrow honest
          returns)) restNarrow (honest.2 last returns)
    constructor
    · rintro ⟨final, runs⟩
      cases runs with
      | more returns runs =>
        exact ⟨⟨_, returns⟩, (later _ returns).mp ⟨final, runs⟩⟩
    · rintro ⟨⟨last, returns⟩, copyable⟩
      obtain ⟨final, runs⟩ := (later last returns).mpr copyable
      exact ⟨final, .more returns runs⟩

end

theorem FlatLoop.Runs.keeps
    (runs : loop.Runs state vectors final)
    (keeps : loop.Keeps w state.world)
    (narrow : ∀ vector ∈ vectors, vector.Narrow)
    (honest : loop.Honest state vectors) :
    loop.Keeps w final.world := by
  induction runs with
  | done => exact keeps
  | more returns later inductionHypothesis =>
    obtain ⟨headNarrow, restNarrow⟩ := forall_mem_cons.mp narrow
    exact inductionHypothesis
      (keeps.after (keeps.success headNarrow honest returns)) restNarrow
      (honest.2 _ returns)

/-- Reading changes no byte of the guest. -/
theorem FlatLoop.Runs.memoryByte_of_read
    (isRead : loop.direction = .read)
    (runs : loop.Runs state vectors final)
    (keeps : loop.Keeps w state.world)
    (narrow : ∀ vector ∈ vectors, vector.Narrow)
    (honest : loop.Honest state vectors) :
    memoryByte final.world loop.m = memoryByte state.world loop.m := by
  induction runs with
  | done => rfl
  | more returns later inductionHypothesis =>
    obtain ⟨headNarrow, restNarrow⟩ := forall_mem_cons.mp narrow
    have success := keeps.success headNarrow honest returns
    refine (inductionHypothesis (keeps.after success) restNarrow
      (honest.2 _ returns)).trans ?_
    exact success.memoryByte_of_read isRead

/-- What is read for one vector is at the start of the buffer. -/
theorem FlatLoop.Runs.flat_of_read
    (isRead : loop.direction = .read)
    (atStart : state.offset = 0)
    (runs : loop.Runs state [vector] final)
    (keeps : loop.Keeps w state.world)
    (narrow : vector.Narrow)
    (honest : loop.Honest state [vector])
    {index : Nat}
    (below : index < vector.len) :
    final.flat index =
      memoryByte state.world loop.m (vector.base + index) := by
  cases runs with
  | more returns rest =>
    cases rest with
    | done =>
      have success := keeps.success narrow honest returns
      simp only [FlatState.after, atStart, Nat.not_lt_zero, if_false,
        Nat.sub_zero]
      exact success.buffer_of_read isRead below

/-- Writing stores the buffer in the ranges, one after the other. -/
theorem FlatLoop.Runs.memoryByte_of_write
    (isWrite : loop.direction = .write)
    (runs : loop.Runs state vectors final)
    (keeps : loop.Keeps w state.world)
    (narrow : ∀ vector ∈ vectors, vector.Narrow)
    (honest : loop.Honest state vectors) :
    memoryByte final.world loop.m =
      storeAll (memoryByte state.world loop.m) (destination vectors)
        state.rest := by
  induction runs with
  | done => rfl
  | more returns later inductionHypothesis =>
    rename_i state _ vector rest last
    obtain ⟨headNarrow, restNarrow⟩ := forall_mem_cons.mp narrow
    have success := keeps.success headNarrow honest returns
    have sameFlat :
        (state.after vector last).rest =
          fun index => state.rest (vector.len + index) := by
      funext index
      have sameBuffer := success.buffer_of_write isWrite
      simp only [FlatState.rest, FlatState.after, sameBuffer]
      rw [if_neg (by omega)]
      congr 1
      omega
    have isDestination :
        destination (vector :: rest) =
          List.range' vector.base vector.len ++ destination rest :=
      flatMap_cons
    rw [inductionHypothesis (keeps.after success) restNarrow
      (honest.2 _ returns), sameFlat, isDestination, storeAll_append,
      length_range']
    exact congrArg (storeAll · _ _) (success.memoryByte_of_write isWrite)

end GuestKernel
