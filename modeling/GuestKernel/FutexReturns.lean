import GuestKernel.FutexRuns

namespace GuestKernel
open List Option Function

/-!
# What a futex wait returns

The sleep inside of `futex_wait`: it ends by a notification or by its timeout
before `futex_lock` is taken again, and what `wait_for` makes of that is what
the waiter returns, whether or not a wake took it off the queue.
-/

/-- Where `wait_for` is: in the sleep, or out of it with its result. -/
inductive FutexSleep where
  | asleep (timed : Bool)
  | roused
  | timedOut
  deriving Repr, DecidableEq

/-- A return of `futex_wait`, and whether a wake had taken the waiter. -/
structure FutexReturn where
  task : Pid
  isWoken : Bool
  error : Option Errno
  deriving Repr, DecidableEq

/-- The futexes with the sleeps of all tasks and what was returned so far. -/
structure FutexWorld where
  table : FutexTable
  sleeps : Pid → FutexSleep
  pending : Pid → Bool
  returned : List FutexReturn

namespace FutexWorld

/-- Nobody waits. -/
def start : FutexWorld where
  table := .empty
  sleeps := fun _ => .roused
  pending := fun _ => false
  returned := []

/-- `futex_wait` from the return of `wait_for` on. -/
def finish
    (world : FutexWorld)
    (task : Pid)
    (error : Option Errno) : Option FutexWorld := do
  let wait ← world.table.waits task
  let table ← world.table.waitFinish task
  pure { world with
    table := table
    returned :=
      { task := task, isWoken := wait.cond, error := error } ::
        world.returned }

/-- What `wait_for` returns after the sleep. -/
def waitResult (world : FutexWorld) (task : Pid) : Option Errno :=
  match world.sleeps task with
  | .timedOut => some .timedout
  | _ => if world.pending task then some .intr else none

/-- `futex_wait` up to the sleep; a pending signal ends it before that. -/
def wait
    (world : FutexWorld)
    (task : Pid)
    (timed : Bool)
    (mem addr : Nat)
    (loaded : Option Nat)
    (val bitset : Nat)
    (allocated : Option FutexId) : Option FutexWorld := do
  match ← world.table.waitStart task mem addr loaded val bitset allocated with
  | (table, .returns _) => pure { world with table := table }
  | (table, .sleeps) =>
    if world.pending task then
      finish { world with table := table } task (some .intr)
    else
      pure { world with
        table := table
        sleeps := update world.sleeps task (.asleep timed) }

end FutexWorld

/-- What happens to the waiters. -/
inductive FutexStep where
  | wait
      (task : Pid)
      (timed : Bool)
      (mem addr : Nat)
      (loaded : Option Nat)
      (val bitset : Nat)
      (allocated : Option FutexId)
  | rouse (task : Pid)
  | timeout (task : Pid)
  | finish (task : Pid)
  | wakelike
      (op mem addr wakeMax requeueMax requeueAddr bitset : Nat)
      (allocated allocated2 : Option FutexId)
  | signal (task : Pid)
  | calm (task : Pid)

namespace FutexStep

/-- The code a step runs. -/
def run (world : FutexWorld) : FutexStep → Option FutexWorld
  | wait task timed mem addr loaded val bitset allocated =>
    world.wait task timed mem addr loaded val bitset allocated
  | rouse task =>
    some { world with
      sleeps := update world.sleeps task .roused }
  | timeout task =>
    some { world with
      sleeps := update world.sleeps task .timedOut }
  | finish task => world.finish task (world.waitResult task)
  | wakelike op mem addr wakeMax requeueMax requeueAddr bitset allocated
      allocated2 =>
      (world.table.wakelike op mem addr wakeMax requeueMax requeueAddr bitset
        allocated allocated2).map fun result =>
          { world with table := result.1 }
  | signal task =>
    some { world with pending := update world.pending task true }
  | calm task =>
    some { world with pending := update world.pending task false }

/--
When a step can happen.  A sleep may end without a notification, and a timeout
may be noticed after one; only the task itself takes its signals.
-/
def Enabled (world : FutexWorld) : FutexStep → Prop
  | wait task _ mem addr loaded val bitset allocated =>
    FutexAction.Enabled world.table
      (.wait task mem addr loaded val bitset allocated)
  | rouse task =>
    world.table.waits task ≠ none ∧ ∃ timed,
      world.sleeps task = .asleep timed
  | timeout task =>
    world.table.waits task ≠ none ∧ world.sleeps task = .asleep true
  | finish task =>
    world.table.waits task ≠ none ∧ ∀ timed,
      world.sleeps task ≠ .asleep timed
  | wakelike op mem addr wakeMax requeueMax requeueAddr bitset allocated
      allocated2 =>
      FutexAction.Enabled world.table
        (.wakelike op mem addr wakeMax requeueMax requeueAddr bitset
          allocated allocated2)
  | signal _ => True
  | calm task => world.table.waits task = none

end FutexStep

/-- All interleavings of waits, wakes, timeouts and signals. -/
def futexReturnMachine : Machine FutexWorld FutexStep where
  initial world := world = .start
  step world step next := step.Enabled world ∧ step.run world = some next

namespace FutexTable

/-- The wait of a task matches a bitset. -/
def matchesBitset (table : FutexTable) (bitset : Nat) (task : Pid) : Bool :=
  (table.waits task).any fun wait => wait.bitset &&& bitset ≠ 0

/-- The queue at an address. -/
def queueAt (table : FutexTable) (mem addr : Nat) : List Pid :=
  match (table.hash (futexHash mem addr)).find? (table.isAt mem addr) with
  | none => []
  | some id => ((table.futexes id).map Futex.queue).getD []

/-- The waiters that a call takes off the queue at an address. -/
def wakes
    (table : FutexTable) (mem addr wakeMax bitset : Nat) : List Pid :=
  ((table.queueAt mem addr).filter (table.matchesBitset bitset)).take wakeMax

/-- A waiter was notified. -/
def isNotified (table : FutexTable) (task : Pid) : Bool :=
  (table.waits task).any FutexWait.cond

variable {table next : FutexTable} {task : Pid}

theorem isNotified_iff :
    table.isNotified task = true ↔
      ∃ wait, table.waits task = some wait ∧ wait.cond = true := by
  unfold isNotified
  rw [Option.any_eq_true]

theorem isNotified_congr
    (same : next.waits = table.waits) :
    next.isNotified task = table.isNotified task := by
  unfold isNotified
  rw [same]

theorem isNotified_wakeWaiter
    {wait : FutexWait}
    (other : Pid) :
    (table.wakeWaiter task wait).isNotified other =
      (table.isNotified other || decide (other = task)) := by
  unfold isNotified wakeWaiter unlink setWait
  by_cases same : other = task
  · subst same
    simp
  · simp [same]

theorem matchesBitset_wakeWaiter
    {wait : FutexWait}
    (isWait : table.waits task = some wait)
    (bitset : Nat)
    (other : Pid) :
    (table.wakeWaiter task wait).matchesBitset bitset other =
      table.matchesBitset bitset other := by
  unfold matchesBitset wakeWaiter unlink setWait
  by_cases same : other = task
  · subst same
    simp [isWait]
  · simp [same]

variable {mem addr bitset : Nat} {allocated : Option FutexId}
  {loaded : Option Nat}

/-- The first loop wakes as many of the matching waiters as it may. -/
theorem isNotified_wakeLoop
    {wakeMax woken count : Nat}
    {queue : List Pid}
    (run : wakeLoop wakeMax bitset queue woken table = some (next, count))
    (other : Pid) :
    next.isNotified other =
      (table.isNotified other ||
        decide (other ∈
          (queue.filter (table.matchesBitset bitset)).take
            (wakeMax - woken))) := by
  induction queue generalizing table woken with
  | nil =>
    cases run
    simp
  | cons first rest inductionHypothesis =>
    unfold wakeLoop at run
    by_cases isEnough : wakeMax ≤ woken
    · rw [if_pos isEnough] at run
      cases run
      rw [Nat.sub_eq_zero_of_le isEnough]
      simp
    rw [if_neg isEnough] at run
    obtain ⟨wait, isWait, run⟩ := bind_eq_some_iff.mp run
    by_cases noMatch : wait.bitset &&& bitset = 0
    · rw [if_pos noMatch] at run
      have notMatched : table.matchesBitset bitset first = false := by
        simp [matchesBitset, isWait, noMatch]
      rw [inductionHypothesis run, filter_cons_of_neg (by
        rw [notMatched]
        exact Bool.false_ne_true)]
    · rw [if_neg noMatch] at run
      have isMatched : table.matchesBitset bitset first = true := by
        simp [matchesBitset, isWait, noMatch]
      have sameMatches :
          (table.wakeWaiter first wait).matchesBitset bitset =
            table.matchesBitset bitset :=
        funext (matchesBitset_wakeWaiter isWait bitset)
      have more : wakeMax - woken = (wakeMax - (woken + 1)) + 1 := by
        omega
      rw [inductionHypothesis run, isNotified_wakeWaiter, sameMatches,
        filter_cons_of_pos isMatched, more, take_succ_cons,
        Bool.or_assoc]
      simp [mem_cons]

theorem waits_getUnlocked
    {got : Option FutexId}
    (run : table.getUnlocked mem addr allocated = (next, got)) :
    next.waits = table.waits := by
  unfold getUnlocked at run
  dsimp only at run
  cases found :
      (table.hash (futexHash mem addr)).find? (table.isAt mem addr) with
  | some id =>
    rw [found] at run
    cases run
    rfl
  | none =>
    rw [found] at run
    cases allocated with
    | none | some id =>
      cases run
      rfl

/-- Giving a reference back changes no wait. -/
theorem waits_putUnlocked
    {id : FutexId}
    (run : table.putUnlocked id = some next) :
    next.waits = table.waits := by
  unfold putUnlocked at run
  obtain ⟨futex, _, run⟩ := bind_eq_some_iff.mp run
  by_cases isLast : decremented futex.refcount = 0
  · rw [if_pos isLast] at run
    by_cases isEmpty : futex.queue = []
    · rw [if_pos isEmpty] at run
      cases run
      rfl
    · rw [if_neg isEmpty] at run
      cases run
  · rw [if_neg isLast] at run
    cases run
    rfl

/-- Moving waiters to another futex notifies nobody. -/
theorem isNotified_requeueLoop
    {futex futex2 : FutexId}
    {rounds requeued count : Nat}
    {item : Option Pid}
    (run :
      requeueLoop futex futex2 rounds item requeued table =
        some (next, count))
    (other : Pid) :
    next.isNotified other = table.isNotified other := by
  induction rounds generalizing table item requeued with
  | zero =>
    cases run
    rfl
  | succ rounds inductionHypothesis =>
    cases item with
    | none =>
      cases run
      rfl
    | some first =>
      unfold requeueLoop at run
      obtain ⟨queued, _, run⟩ := bind_eq_some_iff.mp run
      obtain ⟨moved, isMoved, run⟩ := bind_eq_some_iff.mp run
      rw [inductionHypothesis run]
      unfold requeueWaiter at isMoved
      obtain ⟨wait, isWait, isMoved⟩ :=
        bind_eq_some_iff.mp isMoved
      obtain ⟨counted, _, isMoved⟩ := bind_eq_some_iff.mp isMoved
      by_cases isFew : counted.refcount ≤ 1
      · rw [if_pos isFew] at isMoved
        cases isMoved
      · rw [if_neg isFew] at isMoved
        cases isMoved
        unfold isNotified
        show Option.any _
          (update table.waits first _ other) = _
        by_cases same : other = first
        · subst same
          rw [update_self, isWait]
          rfl
        · rw [update_of_ne same]

/-- The queue that a call goes through. -/
theorem queueAt_of_getUnlocked
    {id : FutexId}
    {futex : Futex}
    (run : table.getUnlocked mem addr allocated = (next, some id))
    (isFutex : next.futexes id = some futex) :
    futex.queue = table.queueAt mem addr := by
  unfold getUnlocked at run
  unfold queueAt
  dsimp only at run
  cases found :
      (table.hash (futexHash mem addr)).find? (table.isAt mem addr) with
  | some old =>
    rw [found] at run
    cases run
    obtain ⟨before, isBefore, same⟩ := map_eq_some_iff.mp isFutex
    rw [if_pos rfl] at same
    dsimp only
    rw [isBefore, ← same]
    rfl
  | none =>
    rw [found] at run
    cases allocated with
    | none => cases run
    | some fresh =>
      cases run
      cases (update_self id _ table.futexes).symm.trans isFutex
      rfl

/-- The waits after a call are those after its last loop. -/
theorem waits_wakelike
    {op wakeMax requeueMax requeueAddr : Nat}
    {allocated2 : Option FutexId}
    {result : Except Errno Nat}
    (run :
      table.wakelike op mem addr wakeMax requeueMax requeueAddr bitset
        allocated allocated2 = some (next, result)) :
    next.waits = table.waits ∨
      ∃ held futex queued woke woken,
        table.getUnlocked mem addr allocated = (held, some futex) ∧
          held.futexes futex = some queued ∧
          wakeLoop wakeMax bitset queued.queue 0 held = some (woke, woken) ∧
          (next.waits = woke.waits ∨
            ∃ both futex2 cursor moved requeued,
              both.waits = woke.waits ∧
                requeueLoop futex futex2 requeueMax cursor 0 both =
                  some (moved, requeued) ∧
                next.waits = moved.waits) := by
  unfold wakelike at run
  cases got : table.getUnlocked mem addr allocated with
  | mk held id =>
    rw [got] at run
    cases id with
    | none =>
      cases run
      exact .inl (waits_getUnlocked got)
    | some futex =>
      obtain ⟨queued, isQueued, run⟩ := bind_eq_some_iff.mp run
      obtain ⟨⟨woke, woken⟩, wakeRun, run⟩ :=
        bind_eq_some_iff.mp run
      refine .inr ⟨held, futex, queued, woke, woken, rfl, isQueued, wakeRun, ?_⟩
      dsimp only at run
      split at run
      · cases got2 : woke.getUnlocked mem requeueAddr allocated2 with
        | mk both id2 =>
          have bothWaits := waits_getUnlocked got2
          rw [got2] at run
          cases id2 with
          | none =>
            obtain ⟨last, put, run⟩ := bind_eq_some_iff.mp run
            cases run
            exact .inl ((waits_putUnlocked put).trans bothWaits)
          | some futex2 =>
            obtain ⟨_, _, run⟩ := bind_eq_some_iff.mp run
            obtain ⟨⟨moved, requeued⟩, moveRun, run⟩ :=
              bind_eq_some_iff.mp run
            obtain ⟨one, put2, run⟩ := bind_eq_some_iff.mp run
            obtain ⟨last, put, run⟩ := bind_eq_some_iff.mp run
            cases run
            exact .inr ⟨both, futex2, _, moved, requeued, bothWaits, moveRun,
              (waits_putUnlocked put).trans (waits_putUnlocked put2)⟩
      · obtain ⟨last, put, run⟩ := bind_eq_some_iff.mp run
        cases run
        exact .inl (waits_putUnlocked put)

/-- A call notifies the waiters it takes off the queue, and nobody else. -/
theorem isNotified_wakelike
    {op wakeMax requeueMax requeueAddr : Nat}
    {allocated2 : Option FutexId}
    {result : Except Errno Nat}
    (run :
      table.wakelike op mem addr wakeMax requeueMax requeueAddr bitset
        allocated allocated2 = some (next, result))
    (other : Pid)
    (notified : next.isNotified other = true) :
    table.isNotified other = true ∨
      other ∈ table.wakes mem addr wakeMax bitset := by
  rcases waits_wakelike run with
    same | ⟨held, futex, queued, woke, woken, got, isQueued, wakeRun, rest⟩
  · exact .inl ((isNotified_congr same).symm.trans notified)
  have heldWaits := waits_getUnlocked got
  have sameMatches :
      held.matchesBitset bitset = table.matchesBitset bitset := by
    unfold matchesBitset
    rw [heldWaits]
  have afterWake : woke.isNotified other = true := by
    rw [← notified]
    rcases rest with same | ⟨both, _, _, moved, _, bothSame, moveRun, same⟩
    · exact (isNotified_congr same).symm
    · rw [isNotified_congr same, isNotified_requeueLoop moveRun,
        isNotified_congr bothSame]
  rwa [isNotified_wakeLoop wakeRun, Bool.or_eq_true, decide_eq_true_iff,
    queueAt_of_getUnlocked got isQueued, sameMatches,
    isNotified_congr heldWaits] at afterWake

/-- A waiter that has gone is not notified, and no other waiter changes. -/
theorem isNotified_waitFinish
    (run : table.waitFinish task = some next)
    (other : Pid) :
    next.isNotified other = true →
      table.isNotified other = true := by
  unfold waitFinish at run
  obtain ⟨wait, _, run⟩ := bind_eq_some_iff.mp run
  rw [isNotified_congr (waits_putUnlocked run)]
  unfold isNotified
  show Option.any _ (update table.waits task none other) = true → _
  by_cases same : other = task
  · subst same
    rw [update_self]
    intro impossible
    cases impossible
  · rw [update_of_ne same]
    exact id

/-- A wait returns without a trace among the waits, or it is a new one. -/
theorem waits_waitStart
    {val : Nat}
    {result : CallResult}
    (run :
      table.waitStart task mem addr loaded val bitset allocated =
        some (next, result)) :
    (∃ value, result = .returns value) ∧ next.waits = table.waits ∨
      ∃ futex,
        next.waits =
          update table.waits task (some ⟨false, futex, bitset⟩) := by
  unfold waitStart at run
  cases got : table.getUnlocked mem addr allocated with
  | mk held id =>
    have heldWaits := waits_getUnlocked got
    rw [got] at run
    cases id with
    | none =>
      cases run
      exact .inl ⟨⟨_, rfl⟩, heldWaits⟩
    | some futex =>
      cases loaded with
      | none =>
        obtain ⟨last, put, run⟩ := bind_eq_some_iff.mp run
        cases run
        exact .inl ⟨⟨_, rfl⟩, (waits_putUnlocked put).trans heldWaits⟩
      | some word =>
        dsimp only at run
        split at run
        · obtain ⟨last, put, run⟩ := bind_eq_some_iff.mp run
          cases run
          exact .inl ⟨⟨_, rfl⟩, (waits_putUnlocked put).trans heldWaits⟩
        · cases run
          exact .inr ⟨futex, congrArg (update · task _) heldWaits⟩

theorem isNotified_waitStart
    {val : Nat}
    {result : CallResult}
    (run :
      table.waitStart task mem addr loaded val bitset allocated =
        some (next, result))
    (other : Pid)
    (notified : next.isNotified other = true) :
    table.isNotified other = true := by
  rcases waits_waitStart run with ⟨_, same⟩ | ⟨futex, isNew⟩
  · exact (isNotified_congr same).symm.trans notified
  · unfold isNotified at notified
    rw [isNew] at notified
    by_cases same : other = task
    · rw [same, update_self] at notified
      cases notified
    · rwa [update_of_ne same] at notified

/-- The wait that has just started. -/
theorem waits_of_sleeps
    {val : Nat}
    (run :
      table.waitStart task mem addr loaded val bitset allocated =
        some (next, .sleeps)) :
    ∃ wait, next.waits task = some wait ∧ wait.cond = false := by
  rcases waits_waitStart run with ⟨⟨_, returns⟩, _⟩ | ⟨futex, isNew⟩
  · cases returns
  · exact ⟨_, (congrFun isNew task).trans (update_self ..), rfl⟩

end FutexTable

/--
The order of events that does not lose a wake: a call takes no waiter whose
sleep has timed out or that has a signal, and neither happens to a waiter that
was taken before it has returned.
-/
def FutexStep.Clean (world : FutexWorld) : FutexStep → Prop
  | timeout task => world.table.isNotified task = false
  | signal task => world.table.isNotified task = false
  | wakelike _ mem addr wakeMax _ _ bitset _ _ =>
    ∀ task ∈ world.table.wakes mem addr wakeMax bitset,
      world.sleeps task ≠ .timedOut ∧ world.pending task = false
  | _ => True

namespace FutexWorld

/-- A waiter that was taken will return success, and those before it did. -/
structure WakesKept (world : FutexWorld) : Prop where
  taken :
    ∀ task, world.table.isNotified task = true →
      world.sleeps task ≠ .timedOut ∧ world.pending task = false
  returned :
    ∀ ret ∈ world.returned, ret.isWoken = true → ret.error = none

variable {world next : FutexWorld}

/-- A return keeps that, if a waiter that was taken returns success. -/
theorem WakesKept.finish
    {task : Pid}
    {error : Option Errno}
    (kept : world.WakesKept)
    (succeeds : world.table.isNotified task = true → error = none)
    (run : world.finish task error = some next) :
    next.WakesKept := by
  unfold FutexWorld.finish at run
  obtain ⟨wait, isWait, run⟩ := bind_eq_some_iff.mp run
  obtain ⟨table, left, run⟩ := bind_eq_some_iff.mp run
  cases run
  constructor
  · intro other notified
    exact kept.taken other
      (FutexTable.isNotified_waitFinish left other notified)
  · intro ret isReturned isWoken
    rcases mem_cons.mp isReturned with rfl | isOld
    · exact succeeds (FutexTable.isNotified_iff.mpr ⟨wait, isWait, isWoken⟩)
    · exact kept.returned ret isOld isWoken

theorem WakesKept.step
    {step : FutexStep}
    (kept : world.WakesKept)
    (isClean : step.Clean world)
    (enabled : step.Enabled world)
    (run : step.run world = some next) :
    next.WakesKept := by
  cases step with
  | wait task timed mem addr loaded val bitset allocated =>
    obtain ⟨⟨table, result⟩, started, run⟩ :=
      bind_eq_some_iff.mp run
    have startKept :
        FutexWorld.WakesKept { world with table := table } :=
      ⟨fun other notified =>
        kept.taken other
          (FutexTable.isNotified_waitStart started other notified),
        kept.returned⟩
    cases result with
    | returns value =>
      cases run
      exact startKept
    | sleeps =>
      obtain ⟨wait, isWait, notWoken⟩ :=
        FutexTable.waits_of_sleeps started
      have notNotified : table.isNotified task = false := by
        unfold FutexTable.isNotified
        rw [isWait]
        exact notWoken
      dsimp only at run
      by_cases isPending : world.pending task = true
      · rw [if_pos isPending] at run
        refine startKept.finish (fun notified => ?_) run
        exact (Bool.false_ne_true (notNotified.symm.trans notified)).elim
      · rw [if_neg isPending] at run
        cases run
        constructor
        · intro other notified
          have different : other ≠ task := by
            rintro rfl
            exact Bool.false_ne_true (notNotified.symm.trans notified)
          obtain ⟨notTimed, noSignal⟩ := startKept.taken other notified
          exact ⟨by simpa [different] using notTimed, noSignal⟩
        · exact kept.returned
  | rouse task =>
    cases run
    constructor
    · intro other notified
      obtain ⟨notTimed, noSignal⟩ := kept.taken other notified
      refine ⟨?_, noSignal⟩
      by_cases same : other = task
      · subst same
        simp
      · simpa [same] using notTimed
    · exact kept.returned
  | timeout task =>
    cases run
    constructor
    · intro other notified
      have different : other ≠ task := by
        rintro rfl
        exact Bool.false_ne_true (isClean.symm.trans notified)
      obtain ⟨notTimed, noSignal⟩ := kept.taken other notified
      exact ⟨by simpa [different] using notTimed, noSignal⟩
    · exact kept.returned
  | finish task =>
    refine kept.finish ?_ run
    intro notified
    obtain ⟨notTimed, noSignal⟩ := kept.taken task notified
    unfold waitResult
    rw [noSignal]
    cases sleep : world.sleeps task with
    | asleep timed => rfl
    | roused => rfl
    | timedOut => exact (notTimed sleep).elim
  | wakelike op mem addr wakeMax requeueMax requeueAddr bitset allocated
      allocated2 =>
      obtain ⟨⟨table, result⟩, ran, same⟩ := map_eq_some_iff.mp run
      cases same
      constructor
      · intro other notified
        rcases FutexTable.isNotified_wakelike ran other notified with
          isOld | isTaken
        · exact kept.taken other isOld
        · exact isClean other isTaken
      · exact kept.returned
  | signal task =>
    cases run
    constructor
    · intro other notified
      have different : other ≠ task := by
        rintro rfl
        exact Bool.false_ne_true (isClean.symm.trans notified)
      obtain ⟨notTimed, noSignal⟩ := kept.taken other notified
      exact ⟨notTimed, by simpa [different] using noSignal⟩
    · exact kept.returned
  | calm task =>
    cases run
    constructor
    · intro other notified
      obtain ⟨notTimed, noSignal⟩ := kept.taken other notified
      refine ⟨notTimed, ?_⟩
      by_cases same : other = task
      · subst same
        simp
      · simpa [same] using noSignal
    · exact kept.returned

theorem wakesKept_of_reachable
    (reachable :
      (futexReturnMachine.restrict fun world step =>
        step.Clean world).Reachable world) :
    world.WakesKept := by
  refine Machine.Reachable.invariant
    (motive := fun world => world.WakesKept) ?_ ?_ reachable
  · rintro _ rfl
    refine ⟨fun task notified => ?_, fun ret isReturned => nomatch isReturned⟩
    cases notified
  · intro before step after kept taken
    exact kept.step taken.1 taken.2.1 taken.2.2

/--
In every run in which no call takes a waiter whose sleep has timed out or that
has a signal, and neither happens to a waiter after it was taken: a waiter
that was taken returns success, and one that returns a timeout or an
interruption was taken by no call.
-/
theorem wakes_are_reported
    (reachable :
      (futexReturnMachine.restrict fun world step =>
        step.Clean world).Reachable world) :
    ∀ ret ∈ world.returned,
      (ret.isWoken = true → ret.error = none) ∧
        (ret.error = some .timedout ∨ ret.error = some .intr →
          ret.isWoken = false) := by
  intro ret isReturned
  have kept := (wakesKept_of_reachable reachable).returned ret isReturned
  refine ⟨kept, fun failed => ?_⟩
  cases isWoken : ret.isWoken with
  | false => rfl
  | true =>
    rw [kept isWoken] at failed
    rcases failed with impossible | impossible
    · cases impossible
    · cases impossible

/-- The futex word is as expected, and task 1 sleeps with a timeout. -/
def firstSleep : FutexStep :=
  .wait 1 true 9 4096 (some 7) 7 1 (some 3)

/-- A call that wakes one waiter at the address. -/
def firstWake : FutexStep :=
  .wakelike 1 9 4096 1 0 0 1 none none

/-- The state after some steps. -/
def afterSteps (steps : List FutexStep) : FutexWorld :=
  (steps.foldlM FutexStep.run start).getD start

/-- A waiter that is woken in its sleep returns success. -/
theorem woken_waiter_succeeds :
    ∃ world ret,
      futexReturnMachine.Reachable world ∧ ret ∈ world.returned ∧
        ret.isWoken = true ∧ ret.error = none := by
  let machine :=
    futexReturnMachine.restrict fun world step => step.Clean world
  have slept : machine.Reachable (afterSteps [firstSleep]) :=
    .step (a := firstSleep) (.initial rfl)
      ⟨trivial, ⟨rfl, fun _ _ => rfl⟩, rfl⟩
  have woken : machine.Reachable (afterSteps [firstSleep, firstWake]) := by
    refine slept.step (a := firstWake) ⟨?_, ?_, rfl⟩
    · intro task isTaken
      have isFirst : task = 1 := by
        have only :
            (afterSteps [firstSleep]).table.wakes 9 4096 1 1 = [1] := by
          decide
        rw [only] at isTaken
        exact mem_singleton.mp isTaken
      subst isFirst
      exact ⟨by decide, rfl⟩
    · exact ⟨fun _ none => (nomatch none), fun _ none => (nomatch none),
        fun _ none => (nomatch none)⟩
  have roused :
      machine.Reachable
        (afterSteps [firstSleep, firstWake, .rouse 1]) :=
    woken.step (a := .rouse 1)
      ⟨trivial, ⟨by decide, true, rfl⟩, rfl⟩
  have ended :
      machine.Reachable
        (afterSteps [firstSleep, firstWake, .rouse 1, .finish 1]) :=
    roused.step (a := .finish 1)
      ⟨trivial, ⟨by decide, fun timed same =>
        nomatch (show FutexSleep.roused = .asleep timed from same)⟩, rfl⟩
  have reported :=
    wakes_are_reported ended ⟨1, true, none⟩ (by decide)
  exact ⟨_, ⟨1, true, none⟩, ended.of_restrict, by decide, rfl,
    reported.1 rfl⟩

/-- A waiter that is woken after its timeout returns the timeout. -/
theorem late_wake_is_lost :
    ∃ world ret,
      futexReturnMachine.Reachable world ∧ ret ∈ world.returned ∧
        ret.isWoken = true ∧ ret.error = some .timedout := by
  have slept : futexReturnMachine.Reachable (afterSteps [firstSleep]) :=
    .step (a := firstSleep) (.initial rfl) ⟨⟨rfl, fun _ _ => rfl⟩, rfl⟩
  have timedOut :
      futexReturnMachine.Reachable (afterSteps [firstSleep, .timeout 1]) :=
    slept.step (a := .timeout 1) ⟨⟨by decide, rfl⟩, rfl⟩
  have woken :
      futexReturnMachine.Reachable
        (afterSteps [firstSleep, .timeout 1, firstWake]) :=
    timedOut.step (a := firstWake)
      ⟨⟨fun _ none => (nomatch none), fun _ none => (nomatch none),
        fun _ none => (nomatch none)⟩, rfl⟩
  have ended :
      futexReturnMachine.Reachable
        (afterSteps [firstSleep, .timeout 1, firstWake, .finish 1]) :=
    woken.step (a := .finish 1)
      ⟨⟨by decide, fun timed same =>
        nomatch (show FutexSleep.timedOut = .asleep timed from same)⟩, rfl⟩
  exact ⟨_, ⟨1, true, some .timedout⟩, ended, by decide, rfl, rfl⟩

end FutexWorld

end GuestKernel
