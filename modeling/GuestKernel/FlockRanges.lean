import GuestKernel.FileLockRanges

namespace GuestKernel
open Option

/-!
# The range of a lock request

`file_lock_from_flock` and `flock_from_file_lock` in the arithmetic of `off_t_`,
a signed number of 64 bits; `none` is a signed overflow.  The range of the lock
is compared with the bytes that POSIX assigns to the request.
-/

/-- The numbers of an `off_t_`. -/
def IsOffT (value : Int) : Prop :=
  -offTMax - 1 ≤ value ∧ value ≤ offTMax

instance (value : Int) : Decidable (IsOffT value) :=
  inferInstanceAs (Decidable (-offTMax - 1 ≤ value ∧ value ≤ offTMax))

theorem isOffT_zero : IsOffT 0 := by
  decide

/-- `left + right`. -/
def addOffT (left right : Int) : Option Int :=
  if IsOffT (left + right) then some (left + right) else none

theorem addOffT_eq_some
    {left right sum : Int} :
    addOffT left right = some sum ↔
      IsOffT (left + right) ∧ sum = left + right := by
  rw [addOffT, ite_none_right_eq_some, some.injEq, eq_comm]

/-- The ends of the range that begins, or for a negative length stops, here. -/
def flockEnds (start len : Int) : Option (Int × Int) :=
  if 0 < len then do
    let past ← addOffT start len
    let last ← addOffT past (-1)
    pure (start, last)
  else if len < 0 then do
    let last ← addOffT start (-1)
    let before ← addOffT last len
    let first ← addOffT before 1
    pure (first, last)
  else
    pure (start, offTMax)

/-- `file_lock_from_flock`, with its overflows. -/
def fileLockFromFlockChecked
    (file : LockFile)
    (flock : Flock)
    (type : LockType)
    (owner : OwnerId)
    (pid : Int) : Except Errno (Option FileLock) := do
  let offset ← flockOffset file flock
  pure do
    let start ← addOffT flock.start offset
    let (first, last) ← flockEnds start flock.len
    pure {
      start := first
      «end» := last
      type := type
      pid := pid
      owner := owner }

/-- The number of a lock type. -/
def LockType.number : LockType → Nat
  | .rdlck => 0
  | .wrlck => 1
  | .unlck => 2

/-- `flock_from_file_lock`. -/
def flockFromFileLock (lock : FileLock) : Option Flock :=
  if lock.end ≠ offTMax then do
    let distance ← addOffT lock.end (-lock.start)
    let len ← addOffT distance 1
    pure {
      type := lock.type.number
      whence := 0
      start := lock.start
      len := len }
  else
    pure {
      type := lock.type.number
      whence := 0
      start := lock.start
      len := 0 }

/--
The bytes of a request that counts from this offset: a positive length goes up,
a negative one goes down, and none at all means up to the last offset.
-/
def PosixBytes (offset : Int) (flock : Flock) (byte : Int) : Prop :=
  0 ≤ byte ∧ byte ≤ offTMax ∧
    if 0 < flock.len then
      offset + flock.start ≤ byte ∧ byte < offset + flock.start + flock.len
    else if flock.len < 0 then
      offset + flock.start + flock.len ≤ byte ∧ byte < offset + flock.start
    else
      offset + flock.start ≤ byte

/-- The range of the lock is valid, and holds the bytes of the request. -/
structure Denotes (offset : Int) (flock : Flock) (lock : FileLock) : Prop where
  nonneg : 0 ≤ lock.start
  ordered : lock.start ≤ lock.end
  bounded : lock.end ≤ offTMax
  bytes : ∀ byte, lock.covers byte ↔ PosixBytes offset flock byte

/-- An error, or a lock on the bytes of the request, without an overflow. -/
def GivesPosixRange
    (file : LockFile)
    (flock : Flock)
    (answer : Except Errno (Option FileLock)) : Prop :=
  match answer with
  | .error _ => True
  | .ok none => False
  | .ok (some lock) =>
    ∀ offset, flockOffset file flock = .ok offset → Denotes offset flock lock

/--
The request starts at the first byte of a file or later, and the byte behind
it, when it has a length, is an offset again.
-/
def FlockFits (offset : Int) (flock : Flock) : Prop :=
  if 0 < flock.len then
    0 ≤ offset + flock.start ∧
      offset + flock.start + flock.len ≤ offTMax
  else if flock.len < 0 then
    0 ≤ offset + flock.start + flock.len ∧ offset + flock.start ≤ offTMax
  else
    0 ≤ offset + flock.start ∧ offset + flock.start ≤ offTMax

/-- The ends, when nothing overflows. -/
theorem flockEnds_eq_some
    {start len first last : Int}
    (isEnds : flockEnds start len = some (first, last)) :
    (0 < len ∧ IsOffT (start + len) ∧
        first = start ∧ last = start + len - 1) ∨
      (len < 0 ∧ first = start + len ∧ last = start - 1) ∨
      (len = 0 ∧ first = start ∧ last = offTMax) := by
  unfold flockEnds at isEnds
  split at isEnds
  · rename_i positive
    obtain ⟨past, isPast, isEnds⟩ := bind_eq_some_iff.mp isEnds
    obtain ⟨stop, isStop, isEnds⟩ := bind_eq_some_iff.mp isEnds
    obtain ⟨fits, pastIs⟩ := addOffT_eq_some.mp isPast
    obtain ⟨_, stopIs⟩ := addOffT_eq_some.mp isStop
    cases isEnds
    exact .inl ⟨positive, fits, rfl, by omega⟩
  · rename_i notPositive
    split at isEnds
    · rename_i negative
      obtain ⟨stop, isStop, isEnds⟩ := bind_eq_some_iff.mp isEnds
      obtain ⟨before, isBefore, isEnds⟩ := bind_eq_some_iff.mp isEnds
      obtain ⟨start', isStart, isEnds⟩ := bind_eq_some_iff.mp isEnds
      obtain ⟨_, stopIs⟩ := addOffT_eq_some.mp isStop
      obtain ⟨_, beforeIs⟩ := addOffT_eq_some.mp isBefore
      obtain ⟨_, startIs⟩ := addOffT_eq_some.mp isStart
      cases isEnds
      exact .inr (.inl ⟨negative, by omega, by omega⟩)
    · cases isEnds
      exact .inr (.inr ⟨by omega, rfl, rfl⟩)

/-- A request that fits overflows nowhere. -/
theorem flockEnds_of_fits
    {offset : Int}
    {flock : Flock}
    (fits : FlockFits offset flock) :
    ∃ first last,
      addOffT flock.start offset = some (flock.start + offset) ∧
        flockEnds (flock.start + offset) flock.len = some (first, last) := by
  have isMax := offTMax_eq
  unfold FlockFits at fits
  unfold flockEnds
  split at fits
  · rename_i positive
    refine ⟨flock.start + offset, flock.start + offset + flock.len + -1,
      if_pos ⟨by omega, by omega⟩, ?_⟩
    have past :
        addOffT (flock.start + offset) flock.len =
          some (flock.start + offset + flock.len) :=
      if_pos ⟨by omega, by omega⟩
    have last :
        addOffT (flock.start + offset + flock.len) (-1) =
          some (flock.start + offset + flock.len + -1) :=
      if_pos ⟨by omega, by omega⟩
    rw [if_pos positive, past, bind_eq_bind, bind_some, last]
    rfl
  · rename_i notPositive
    split at fits
    · rename_i negative
      refine ⟨flock.start + offset + -1 + flock.len + 1,
        flock.start + offset + -1, if_pos ⟨by omega, by omega⟩, ?_⟩
      have last :
          addOffT (flock.start + offset) (-1) =
            some (flock.start + offset + -1) :=
        if_pos ⟨by omega, by omega⟩
      have before :
          addOffT (flock.start + offset + -1) flock.len =
            some (flock.start + offset + -1 + flock.len) :=
        if_pos ⟨by omega, by omega⟩
      have first :
          addOffT (flock.start + offset + -1 + flock.len) 1 =
            some (flock.start + offset + -1 + flock.len + 1) :=
        if_pos ⟨by omega, by omega⟩
      rw [if_neg notPositive, if_pos negative, last, bind_eq_bind,
        bind_some, before, bind_some, first]
      rfl
    · rename_i notNegative
      refine ⟨flock.start + offset, offTMax,
        if_pos ⟨by omega, by omega⟩, ?_⟩
      rw [if_neg notPositive, if_neg notNegative]
      rfl

/-- The ends denote the bytes of the request exactly when it fits. -/
theorem denotes_iff_fits
    {offset first last : Int}
    {flock : Flock}
    {type : LockType}
    {pid : Int}
    {owner : OwnerId}
    (isStart : IsOffT (flock.start + offset))
    (isEnds :
      flockEnds (flock.start + offset) flock.len = some (first, last)) :
    Denotes offset flock ⟨first, last, type, pid, owner⟩ ↔
      FlockFits offset flock := by
  have isMax := offTMax_eq
  obtain ⟨_, startFits⟩ := isStart
  constructor
  · rintro ⟨nonneg, ordered, bounded, _⟩
    simp only at nonneg ordered bounded
    unfold FlockFits
    rcases flockEnds_eq_some isEnds with
        ⟨positive, ⟨_, fits⟩, isFirst, isLast⟩ | ⟨negative, isFirst, isLast⟩ |
          ⟨isZero, isFirst, isLast⟩
    · rw [if_pos positive]
      omega
    · rw [if_neg (by omega), if_pos negative]
      omega
    · rw [if_neg (by omega), if_neg (by omega)]
      omega
  · intro fits
    unfold FlockFits at fits
    rcases flockEnds_eq_some isEnds with
        ⟨positive, ⟨_, pastFits⟩, isFirst, isLast⟩ |
          ⟨negative, isFirst, isLast⟩ | ⟨isZero, isFirst, isLast⟩
    · rw [if_pos positive] at fits
      refine ⟨by simp only; omega, by simp only; omega,
        by simp only; omega, fun byte => ?_⟩
      unfold PosixBytes FileLock.covers
      rw [if_pos positive]
      simp only
      omega
    · rw [if_neg (by omega), if_pos negative] at fits
      refine ⟨by simp only; omega, by simp only; omega,
        by simp only; omega, fun byte => ?_⟩
      unfold PosixBytes FileLock.covers
      rw [if_neg (by omega), if_pos negative]
      simp only
      omega
    · rw [if_neg (by omega), if_neg (by omega)] at fits
      refine ⟨by simp only; omega, by simp only; omega,
        by simp only; omega, fun byte => ?_⟩
      unfold PosixBytes FileLock.covers
      rw [if_neg (by omega), if_neg (by omega)]
      simp only
      omega

/-- A lock with a valid range comes back from its `struct flock_`. -/
theorem checked_of_flockFromFileLock
    {lock : FileLock}
    {owner : OwnerId}
    {pid : Int}
    (file : LockFile)
    (nonneg : 0 ≤ lock.start)
    (ordered : lock.start ≤ lock.end)
    (bounded : lock.end ≤ offTMax) :
    ∃ flock,
      flockFromFileLock lock = some flock ∧
        fileLockFromFlockChecked file flock lock.type owner pid =
          .ok (some { lock with owner := owner, pid := pid }) := by
  have isMax := offTMax_eq
  unfold flockFromFileLock
  split
  · rename_i notLast
    have distance :
        addOffT lock.end (-lock.start) = some (lock.end + -lock.start) :=
      if_pos ⟨by omega, by omega⟩
    have len :
        addOffT (lock.end + -lock.start) 1 =
          some (lock.end + -lock.start + 1) :=
      if_pos ⟨by omega, by omega⟩
    refine ⟨⟨lock.type.number, 0, lock.start, lock.end + -lock.start + 1⟩,
      ?_, ?_⟩
    · rw [distance, bind_eq_bind, bind_some, len]
      rfl
    · have start : addOffT lock.start 0 = some (lock.start + 0) :=
        if_pos ⟨by omega, by omega⟩
      have past :
          addOffT (lock.start + 0) (lock.end + -lock.start + 1) =
            some (lock.start + 0 + (lock.end + -lock.start + 1)) :=
        if_pos ⟨by omega, by omega⟩
      have last :
          addOffT (lock.start + 0 + (lock.end + -lock.start + 1)) (-1) =
            some (lock.start + 0 + (lock.end + -lock.start + 1) + -1) :=
        if_pos ⟨by omega, by omega⟩
      have isEnds :
          flockEnds (lock.start + 0) (lock.end + -lock.start + 1) =
            some (lock.start, lock.end) := by
        have isStart : lock.start + 0 = lock.start := by
          omega
        have isEnd :
            lock.start + 0 + (lock.end + -lock.start + 1) + -1 =
              lock.end := by
          omega
        rw [flockEnds, if_pos (by omega), past, bind_eq_bind,
          bind_some, last, isEnd, isStart]
        rfl
      show Except.ok _ = Except.ok _
      rw [start, bind_eq_bind, bind_some, isEnds]
      rfl
  · rename_i isLast
    have isEnd : lock.end = offTMax := by
      omega
    refine ⟨_, rfl, ?_⟩
    have start : addOffT lock.start 0 = some (lock.start + 0) :=
      if_pos ⟨by omega, by omega⟩
    have isStart : lock.start + 0 = lock.start := by
      omega
    show Except.ok _ = Except.ok _
    rw [start, bind_eq_bind, bind_some, isStart]
    show
      Except.ok
          (some (⟨lock.start, offTMax, lock.type, pid, owner⟩ : FileLock)) =
        Except.ok _
    rw [isEnd]

/--
A request gives an error or the bytes that POSIX assigns to it, without an
overflow, exactly when it fits into the offsets of a file; and every lock with a
valid range comes back from its `struct flock_`.
-/
theorem flock_gives_posix_range_iff
    (file : LockFile)
    (owner : OwnerId)
    (pid : Int) :
    (∀ flock type,
      GivesPosixRange file flock
          (fileLockFromFlockChecked file flock type owner pid) ↔
        ∀ offset, flockOffset file flock = .ok offset →
          FlockFits offset flock) ∧
      ∀ lock : FileLock,
        0 ≤ lock.start → lock.start ≤ lock.end → lock.end ≤ offTMax →
        ∃ flock,
          flockFromFileLock lock = some flock ∧
            fileLockFromFlockChecked file flock lock.type owner pid =
              .ok (some { lock with owner := owner, pid := pid }) := by
  refine ⟨fun flock type => ?_, fun lock =>
    checked_of_flockFromFileLock file⟩
  cases isOffset : flockOffset file flock with
  | error err =>
    refine iff_of_true ?_ nofun
    rw [fileLockFromFlockChecked, isOffset]
    trivial
  | ok offset =>
    have single :
        (∀ other, Except.ok offset = (.ok other : Except Errno Int) →
          FlockFits other flock) ↔ FlockFits offset flock :=
      ⟨fun all => all offset rfl, fun fits other same =>
        Except.ok.inj same ▸ fits⟩
    rw [single, fileLockFromFlockChecked, isOffset]
    by_cases fits : FlockFits offset flock
    · obtain ⟨first, last, isStart, isEnds⟩ := flockEnds_of_fits fits
      refine iff_of_true ?_ fits
      show GivesPosixRange file flock (.ok (Option.bind _ _))
      rw [isStart, bind_some, isEnds]
      intro other same
      cases Except.ok.inj (isOffset.symm.trans same)
      exact (denotes_iff_fits (addOffT_eq_some.mp isStart).1 isEnds).mpr fits
    · refine iff_of_false ?_ fits
      intro gives
      cases answer : addOffT flock.start offset with
      | none =>
        simp only [bind, Except.bind, answer] at gives
        exact gives
      | some start =>
        obtain ⟨isStart, startIs⟩ := addOffT_eq_some.mp answer
        subst startIs
        cases ends : flockEnds (flock.start + offset) flock.len with
        | none =>
          simp only [bind, Except.bind, answer, Option.bind, ends]
            at gives
          exact gives
        | some pair =>
          simp only [bind, Except.bind, answer, Option.bind, ends]
            at gives
          exact fits ((denotes_iff_fits isStart ends).mp
            (gives offset isOffset))

/-- The lock on three bytes comes back from its `struct flock_`. -/
theorem three_bytes_come_back :
    ∃ flock,
      flockFromFileLock ⟨3, 5, .rdlck, 1, 1⟩ = some flock ∧
        fileLockFromFlockChecked ⟨.readWrite, none, .ok 0⟩ flock .rdlck 2 2 =
          .ok (some ⟨3, 5, .rdlck, 2, 2⟩) :=
  (flock_gives_posix_range_iff ⟨.readWrite, none, .ok 0⟩ 2 2).2
    ⟨3, 5, .rdlck, 1, 1⟩ (by decide) (by decide) (by decide)

/-- A request for two bytes before the first one is a lock on them. -/
theorem flock_before_first_byte_is_taken :
    ¬ GivesPosixRange ⟨.readWrite, none, .ok 0⟩ ⟨0, 0, -5, 2⟩
      (fileLockFromFlockChecked ⟨.readWrite, none, .ok 0⟩ ⟨0, 0, -5, 2⟩
        .rdlck 1 1) := by
  intro gives
  exact absurd (gives 0 rfl).nonneg (by decide)

end GuestKernel
