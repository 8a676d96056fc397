import GuestKernel.Machine

namespace GuestKernel
open List

/-!
# The read-write lock on Darwin

The `wrlock_t` of `util/sync.h` as a mutex, two conditions and two counters.
What a call does with `state` held is one step, up to the unlock or to
`pthread_cond_wait`.  A thread that waits on a condition is blocked until a
signal, a broadcast or nothing at all wakes it; then it takes the mutex and tests
its predicate again.
-/

/-- The counters, the holders and the threads inside a wait. -/
structure WrLock where
  val : Int
  waitingWriters : Nat
  /-- Those that hold the lock. -/
  readers : List Nat
  writers : List Nat
  /-- Those that wait on `readers` and on `writers`. -/
  blockedReaders : List Nat
  blockedWriters : List Nat
  /-- Those whose wait is over, before their next test. -/
  wokenReaders : List Nat
  wokenWriters : List Nat
  deriving Repr, DecidableEq

/-- Steps of one thread; a signal wakes the waiter of the choice. -/
inductive WrLockStep where
  | readWrlock (thread : Nat)
  | readerTests (thread : Nat)
  | readWrunlock (thread choice : Nat)
  | writeWrlock (thread : Nat)
  | writerTests (thread : Nat)
  | writeWrunlock (thread choice : Nat)
  /-- A wait ends on its own. -/
  | readerWakes (thread : Nat)
  | writerWakes (thread : Nat)

namespace WrLock

/-- `wrlock_init`. -/
def init : WrLock where
  val := 0
  waitingWriters := 0
  readers := []
  writers := []
  blockedReaders := []
  blockedWriters := []
  wokenReaders := []
  wokenWriters := []

/-- The thread is inside a wait. -/
def waits (lock : WrLock) (thread : Nat) : Bool :=
  lock.blockedReaders.contains thread || lock.wokenReaders.contains thread ||
    lock.blockedWriters.contains thread || lock.wokenWriters.contains thread

/-- `pthread_cond_signal(&lock->writers)`. -/
def signalWriters (lock : WrLock) (choice : Nat) : WrLock :=
  match lock.blockedWriters[choice % lock.blockedWriters.length]? with
  | none => lock
  | some thread =>
    { lock with
      blockedWriters := lock.blockedWriters.erase thread
      wokenWriters := thread :: lock.wokenWriters }

/-- `pthread_cond_broadcast(&lock->readers)`. -/
def broadcastReaders (lock : WrLock) : WrLock :=
  { lock with
    blockedReaders := []
    wokenReaders := lock.blockedReaders ++ lock.wokenReaders }

/-- The loop of `read_wrlock`, from its test on. -/
def readLoop (lock : WrLock) (thread : Nat) : WrLock :=
  if lock.val < 0 ∨ lock.waitingWriters ≠ 0 then
    { lock with blockedReaders := thread :: lock.blockedReaders }
  else
    { lock with
      val := lock.val + 1
      readers := thread :: lock.readers }

/-- The loop of `__write_wrlock`, from its test on. -/
def writeLoop (lock : WrLock) (thread : Nat) : WrLock :=
  if lock.val ≠ 0 then
    { lock with blockedWriters := thread :: lock.blockedWriters }
  else
    { lock with
      waitingWriters := lock.waitingWriters - 1
      val := -1
      writers := thread :: lock.writers }

/-- `read_wrunlock`. -/
def readUnlock (lock : WrLock) (thread choice : Nat) : WrLock :=
  let lock :=
    { lock with
      val := lock.val - 1
      readers := lock.readers.erase thread }
  if lock.val = 0 ∧ lock.waitingWriters ≠ 0 then
    lock.signalWriters choice
  else
    lock

/-- `write_wrunlock`. -/
def writeUnlock (lock : WrLock) (thread choice : Nat) : WrLock :=
  let lock :=
    { lock with
      val := 0
      writers := lock.writers.erase thread }
  if lock.waitingWriters ≠ 0 then
    lock.signalWriters choice
  else
    lock.broadcastReaders

/-- One step. -/
def run (lock : WrLock) : WrLockStep → Option WrLock
  | .readWrlock thread =>
    if lock.waits thread then none else some (lock.readLoop thread)
  | .readerTests thread =>
    if thread ∈ lock.wokenReaders then
      some
        (readLoop
          { lock with wokenReaders := lock.wokenReaders.erase thread } thread)
    else
      none
  | .readWrunlock thread choice =>
    if thread ∈ lock.readers ∧ !lock.waits thread then
      some (lock.readUnlock thread choice)
    else
      none
  | .writeWrlock thread =>
    if lock.waits thread then
      none
    else
      some
        (writeLoop { lock with waitingWriters := lock.waitingWriters + 1 }
          thread)
  | .writerTests thread =>
    if thread ∈ lock.wokenWriters then
      some
        (writeLoop
          { lock with wokenWriters := lock.wokenWriters.erase thread } thread)
    else
      none
  | .writeWrunlock thread choice =>
    if thread ∈ lock.writers ∧ !lock.waits thread then
      some (lock.writeUnlock thread choice)
    else
      none
  | .readerWakes thread =>
    if thread ∈ lock.blockedReaders then
      some
        { lock with
          blockedReaders := lock.blockedReaders.erase thread
          wokenReaders := thread :: lock.wokenReaders }
    else
      none
  | .writerWakes thread =>
    if thread ∈ lock.blockedWriters then
      some
        { lock with
          blockedWriters := lock.blockedWriters.erase thread
          wokenWriters := thread :: lock.wokenWriters }
    else
      none

/-- How many threads are inside `__write_wrlock`, waiting. -/
def queuedWriters (lock : WrLock) : Nat :=
  lock.blockedWriters.length + lock.wokenWriters.length

/-- Some thread is blocked on the lock. -/
def HasWaiter (lock : WrLock) : Prop :=
  ∃ thread, lock.waits thread = true

/-- A thread that is awake takes the lock with its next test. -/
def HasWakeup (lock : WrLock) : Prop :=
  (∃ thread next,
      lock.run (.readerTests thread) = some next ∧ thread ∈ next.readers) ∨
    ∃ thread next,
      lock.run (.writerTests thread) = some next ∧ thread ∈ next.writers

end WrLock

/-- The lock from the start on, with any number of threads. -/
def wrLockMachine : Machine WrLock WrLockStep where
  initial lock := lock = .init
  step lock action next := lock.run action = some next

namespace WrLock

/-- What the counters say of the holders and of the waiting threads. -/
structure Lawful (lock : WrLock) : Prop where
  /-- One writer alone, or readers. -/
  held :
    (lock.val = -1 ∧ lock.writers.length = 1 ∧ lock.readers = []) ∨
      (lock.val = lock.readers.length ∧ lock.writers = [])
  queued : lock.waitingWriters = lock.queuedWriters
  /-- The free lock has a woken writer, if one is queued. -/
  told : lock.val = 0 → lock.waitingWriters ≠ 0 → lock.wokenWriters ≠ []
  /-- Readers are blocked for a writer only. -/
  excused : 0 ≤ lock.val → lock.waitingWriters = 0 → lock.blockedReaders = []

namespace Lawful

variable {lock next : WrLock}
variable {thread choice : Nat}

theorem init : Lawful .init where
  held := .inr ⟨rfl, rfl⟩
  queued := rfl
  told := fun _ some => absurd rfl some
  excused := fun _ _ => rfl

/-- A signal wakes a queued writer, if none is awake. -/
theorem signalWriters
    (held :
      (lock.val = -1 ∧ lock.writers.length = 1 ∧ lock.readers = []) ∨
        (lock.val = lock.readers.length ∧ lock.writers = []))
    (queued : lock.waitingWriters = lock.queuedWriters)
    (someQueued : lock.waitingWriters ≠ 0) :
    (lock.signalWriters choice).Lawful := by
  unfold WrLock.signalWriters
  split
  · case _ noneBlocked =>
      have allAwake : lock.blockedWriters.length = 0 := by
        have beyond := List.getElem?_eq_none_iff.mp noneBlocked
        by_contra notEmpty
        exact absurd (Nat.mod_lt choice (Nat.pos_of_ne_zero notEmpty))
          (Nat.not_lt.mpr beyond)
      exact
        { held := held
          queued := queued
          told := by
            rintro - - noneAwake
            rw [queuedWriters, allAwake, noneAwake] at queued
            exact someQueued queued
          excused := fun _ noneQueued => absurd noneQueued someQueued }
  · case _ thread isChosen =>
      have isBlocked := List.mem_of_getElem? isChosen
      exact
        { held := held
          queued := by
            have shorter := length_erase_of_mem isBlocked
            have some := length_pos_of_mem isBlocked
            simp only [queuedWriters, length_cons] at queued ⊢
            omega
          told := fun _ _ noneAwake => by cases noneAwake
          excused := fun _ noneQueued => absurd noneQueued someQueued }

/-- A reader that tests its predicate waits or reads. -/
theorem readLoop
    (lawful : lock.Lawful) :
    (lock.readLoop thread).Lawful := by
  unfold WrLock.readLoop
  split
  · case _ mustWait =>
      exact
        { lawful with
          excused := fun isFree noneQueued => by
            rcases mustWait with isWritten | isQueued
            · exact absurd isFree (Int.not_le.mpr isWritten)
            · exact absurd noneQueued isQueued }
  · case _ goesOn =>
      have isFree : 0 ≤ lock.val := by omega
      have noneQueued : lock.waitingWriters = 0 := by omega
      rcases lawful.held with ⟨isWritten, _⟩ | ⟨isCount, noWriter⟩
      · omega
      · refine
          { lawful with
            held := .inr ⟨?_, noWriter⟩
            told := fun _ someQueued => absurd noneQueued someQueued
            excused := fun _ _ => lawful.excused isFree noneQueued }
        simp only [length_cons, isCount]
        omega

/--
A writer tests its predicate.  It is counted in `waiting_writers` but not in the
queue until it waits again.
-/
theorem writeLoop
    (held :
      (lock.val = -1 ∧ lock.writers.length = 1 ∧ lock.readers = []) ∨
        (lock.val = lock.readers.length ∧ lock.writers = []))
    (queued : lock.waitingWriters = lock.queuedWriters + 1) :
    (lock.writeLoop thread).Lawful := by
  unfold WrLock.writeLoop
  split
  · case _ isHeld =>
      exact
        { held := held
          queued := by
            simp only [queuedWriters, length_cons] at queued ⊢
            omega
          told := fun isFree => absurd isFree isHeld
          excused := fun _ noneQueued => by
            rw [queued] at noneQueued
            cases noneQueued }
  · case _ isFree =>
      have isZero : lock.val = 0 := not_not.mp isFree
      rcases held with ⟨isWritten, _⟩ | ⟨isCount, noWriter⟩
      · omega
      · have noReader : lock.readers = [] :=
          length_eq_zero_iff.mp (by omega)
        exact
          { held := .inl ⟨rfl, by rw [noWriter]; rfl, noReader⟩
            queued := by
              simp only [queuedWriters] at queued ⊢
              omega
            told := fun isZero => by cases isZero
            excused := fun notWritten =>
              absurd notWritten (Int.not_le.mpr (by decide : (-1 : Int) < 0)) }

/-- The last reader to leave wakes a writer. -/
theorem readUnlock
    (lawful : lock.Lawful)
    (isReader : thread ∈ lock.readers) :
    (lock.readUnlock thread choice).Lawful := by
  have shorter := length_erase_of_mem isReader
  have someReader := length_pos_of_mem isReader
  rcases lawful.held with ⟨_, _, noReader⟩ | ⟨isCount, noWriter⟩
  · rw [noReader] at isReader
    cases isReader
  · have held : lock.val - 1 = ((lock.readers.erase thread).length : Int) := by
      omega
    unfold WrLock.readUnlock
    dsimp only
    split
    · case _ isLast =>
        exact signalWriters (.inr ⟨held, noWriter⟩) lawful.queued isLast.2
    · case _ notLast =>
        exact
          { held := .inr ⟨held, noWriter⟩
            queued := lawful.queued
            told := fun isZero someQueued =>
              absurd ⟨isZero, someQueued⟩ notLast
            excused := fun _ noneQueued =>
              lawful.excused (by omega) noneQueued }

/-- A writer that leaves wakes a writer, or else all readers. -/
theorem writeUnlock
    (lawful : lock.Lawful)
    (isWriter : thread ∈ lock.writers) :
    (lock.writeUnlock thread choice).Lawful := by
  have shorter := length_erase_of_mem isWriter
  rcases lawful.held with ⟨_, oneWriter, noReader⟩ | ⟨_, noWriter⟩
  · have held : (0 : Int) = lock.readers.length ∧
        lock.writers.erase thread = [] := by
      rw [noReader]
      exact ⟨rfl, length_eq_zero_iff.mp (by omega)⟩
    unfold WrLock.writeUnlock
    dsimp only
    split
    · case _ someQueued =>
        exact signalWriters (.inr held) lawful.queued someQueued
    · case _ noneQueued =>
        exact
          { held := .inr held
            queued := lawful.queued
            told := fun _ someQueued => absurd someQueued noneQueued
            excused := fun _ _ => rfl }
  · rw [noWriter] at isWriter
    cases isWriter

theorem step
    {action : WrLockStep}
    (lawful : lock.Lawful)
    (taken : lock.run action = some next) :
    next.Lawful := by
  cases action with
  | readWrlock thread =>
    simp only [run] at taken
    split at taken
    · cases taken
    · cases taken
      exact lawful.readLoop
  | readerTests thread =>
    simp only [run] at taken
    split at taken
    · cases taken
      exact readLoop { lawful with }
    · cases taken
  | readWrunlock thread choice =>
    simp only [run] at taken
    split at taken
    · case _ isReader =>
        cases taken
        exact lawful.readUnlock isReader.1
    · cases taken
  | writeWrlock thread =>
    simp only [run] at taken
    split at taken
    · cases taken
    · cases taken
      exact writeLoop lawful.held (congrArg (· + 1) lawful.queued)
  | writerTests thread =>
    simp only [run] at taken
    split at taken
    · case _ isAwake =>
        cases taken
        have shorter := length_erase_of_mem isAwake
        have someAwake := length_pos_of_mem isAwake
        have counted := lawful.queued
        refine writeLoop lawful.held ?_
        simp only [queuedWriters] at counted ⊢
        omega
    · cases taken
  | writeWrunlock thread choice =>
    simp only [run] at taken
    split at taken
    · case _ isWriter =>
        cases taken
        exact lawful.writeUnlock isWriter.1
    · cases taken
  | readerWakes thread =>
    simp only [run] at taken
    split at taken
    · cases taken
      exact
        { lawful with
          excused := fun isFree noneQueued => by
            rw [lawful.excused isFree noneQueued]
            rfl }
    · cases taken
  | writerWakes thread =>
    simp only [run] at taken
    split at taken
    · case _ isBlocked =>
        cases taken
        have shorter := length_erase_of_mem isBlocked
        have someBlocked := length_pos_of_mem isBlocked
        have counted := lawful.queued
        exact
          { lawful with
            queued := by
              simp only [queuedWriters, length_cons] at counted ⊢
              omega
            told := fun _ _ noneAwake => by cases noneAwake }
    · cases taken

/-- The free lock does not leave its waiters asleep. -/
theorem hasWakeup
    (lawful : lock.Lawful)
    (isFree : lock.val = 0)
    (hasWaiter : lock.HasWaiter) :
    lock.HasWakeup := by
  by_cases noneQueued : lock.waitingWriters = 0
  · have counted := lawful.queued
    have noneBlocked := lawful.excused (by omega) noneQueued
    have noWriter : lock.blockedWriters = [] ∧ lock.wokenWriters = [] := by
      simp only [queuedWriters] at counted
      exact ⟨length_eq_zero_iff.mp (by omega),
        length_eq_zero_iff.mp (by omega)⟩
    obtain ⟨thread, isWaiting⟩ := hasWaiter
    have isAwake : thread ∈ lock.wokenReaders := by
      simpa [waits, noneBlocked, noWriter.1, noWriter.2] using isWaiting
    refine .inl ⟨thread, _, if_pos isAwake, ?_⟩
    rw [WrLock.readLoop, if_neg (by simp [isFree, noneQueued])]
    exact mem_cons_self
  · obtain ⟨thread, isAwake⟩ :=
      exists_mem_of_ne_nil _ (lawful.told isFree noneQueued)
    refine .inr ⟨thread, _, if_pos isAwake, ?_⟩
    rw [WrLock.writeLoop, if_neg (by simp [isFree])]
    exact mem_cons_self

end Lawful

/-- What the users of the lock rely on. -/
structure IsSafe (lock : WrLock) : Prop where
  /-- A writer holds the lock alone. -/
  exclusive :
    lock.writers ≠ [] → lock.writers.length = 1 ∧ lock.readers = []
  /-- `val` stands for the holders. -/
  holders :
    lock.val =
      if lock.writers = [] then (lock.readers.length : Int) else -1
  queued : lock.waitingWriters = lock.queuedWriters
  /-- While the lock is free, a waiting thread is about to take it. -/
  progress : lock.val = 0 → lock.HasWaiter → lock.HasWakeup

/-- Over every run of any number of threads the lock is safe and goes on. -/
theorem lock_is_safe
    {lock : WrLock}
    (reachable : wrLockMachine.Reachable lock) :
    lock.IsSafe := by
  have lawful : lock.Lawful := by
    refine reachable.invariant ?_ ?_
    · rintro lock rfl
      exact Lawful.init
    · intro lock action next lawful taken
      exact lawful.step taken
  refine
    { exclusive := ?_
      holders := ?_
      queued := lawful.queued
      progress := lawful.hasWakeup }
  · intro someWriter
    rcases lawful.held with ⟨_, oneWriter, noReader⟩ | ⟨_, noWriter⟩
    · exact ⟨oneWriter, noReader⟩
    · exact absurd noWriter someWriter
  · rcases lawful.held with ⟨isWritten, oneWriter, _⟩ | ⟨isCount, noWriter⟩
    · rw [if_neg]
      · exact isWritten
      · rintro noWriter
        rw [noWriter] at oneWriter
        cases oneWriter
    · rw [if_pos noWriter]
      exact isCount

/-- A writer and then a reader wait for the first reader, which leaves. -/
theorem waiting_writer_is_woken :
    ∃ lock : WrLock,
      lock.blockedReaders = [3] ∧ lock.wokenWriters = [2] ∧ lock.IsSafe := by
  have start : wrLockMachine.Reachable .init := .initial rfl
  have reads := start.step (a := WrLockStep.readWrlock 1) rfl
  have writes := reads.step (a := WrLockStep.writeWrlock 2) rfl
  have waits := writes.step (a := WrLockStep.readWrlock 3) rfl
  have leaves := waits.step (a := WrLockStep.readWrunlock 1 0) rfl
  exact ⟨_, rfl, rfl, lock_is_safe leaves⟩

end WrLock

end GuestKernel
