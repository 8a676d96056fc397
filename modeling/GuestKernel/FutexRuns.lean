import GuestKernel.FutexAccounts

namespace GuestKernel
open List Option

/-!
# Runs of the futex calls

The loops of `futex_wakelike` and the three calls keep the accounts, so they
hold whenever `futex_lock` is free: over every interleaving of waits, wakes,
requeues, timeouts and interruptions, and no assertion of the code fails.
-/

namespace FutexTable

variable
  {table : FutexTable}
  {held : FutexId → Nat}
  {task : Pid}
  {id : FutexId}

theorem Accounted.wait_of_queued
    {futex : Futex}
    (accounted : table.Accounted held)
    (isFutex : table.futexes id = some futex)
    (member : task ∈ futex.queue) :
    table.awaits task = some id := by
  by_contra notAwaiting
  exact accounted.not_queued isFutex notAwaiting member

theorem exists_wait_of_awaits
    (waiting : table.awaits task = some id) :
    ∃ wait, table.waits task = some wait := by
  obtain ⟨wait, isWait, _⟩ := bind_eq_some_iff.mp waiting
  exact ⟨wait, isWait⟩

/--
The wake loop runs to its end: every item of the queue it started with still
has a wait when its turn comes.
-/
theorem Accounted.wakeLoop
    (wakeMax bitset : Nat)
    (items : List Pid) :
    ∀ {table : FutexTable} (woken : Nat),
      table.Accounted held →
      (∀ task ∈ items, ∃ wait, table.waits task = some wait) →
      ∃ last total,
        FutexTable.wakeLoop wakeMax bitset items woken table =
            some (last, total) ∧
          last.Accounted held ∧
          ∀ id, table.futexes id = none → last.futexes id = none := by
  induction items with
  | nil =>
    intro table woken accounted _
    exact ⟨table, woken, rfl, accounted, fun _ isNone => isNone⟩
  | cons task rest inductionHypothesis =>
    intro table woken accounted haveWaits
    obtain ⟨wait, isWait⟩ := haveWaits task mem_cons_self
    have restWaits :
        ∀ other ∈ rest, ∃ wait, table.waits other = some wait :=
      fun other member => haveWaits other (mem_cons_of_mem _ member)
    unfold FutexTable.wakeLoop
    by_cases enough : wakeMax ≤ woken
    · rw [if_pos enough]
      exact ⟨table, woken, rfl, accounted, fun _ isNone => isNone⟩
    · rw [if_neg enough, isWait, bind_eq_bind, bind_some]
      by_cases unmatched : wait.bitset &&& bitset = 0
      · rw [if_pos unmatched]
        exact inductionHypothesis woken accounted restWaits
      · rw [if_neg unmatched]
        have stillWait :
            ∀ other ∈ rest,
              ∃ wait',
                (table.wakeWaiter task wait).waits other = some wait' := by
          intro other member
          by_cases same : other = task
          · subst same
            exact ⟨{ wait with cond := true }, Function.update_self ..⟩
          · obtain ⟨otherWait, isOther⟩ := restWaits other member
            exact ⟨otherWait,
              (Function.update_of_ne same ..).trans isOther⟩
        obtain ⟨last, total, run, lastAccounted, kept⟩ :=
          inductionHypothesis (woken + 1) (accounted.wakeWaiter isWait)
            stillWait
        refine ⟨last, total, run, lastAccounted, ?_⟩
        intro id isNone
        apply kept
        show (table.futexes id).map _ = none
        rw [isNone, map_none]

/-- The next item of a queue without repetitions is another item of it. -/
theorem nextInQueue_spec
    {queue : List Pid}
    {tmp : Pid}
    (next : nextInQueue queue task = some tmp)
    (once : queue.count task ≤ 1) :
    tmp ∈ queue ∧ tmp ≠ task := by
  induction queue with
  | nil =>
    cases next
  | cons head tail inductionHypothesis =>
    unfold nextInQueue at next inductionHypothesis
    by_cases found : head = task
    · subst found
      rw [dropWhile_cons_of_neg (by simp), tail_cons] at next
      have member : tmp ∈ tail := List.mem_of_mem_head? next
      have absent : head ∉ tail := by
        rw [count_cons_self] at once
        exact count_eq_zero.mp (by omega)
      refine ⟨mem_cons_of_mem _ member, ?_⟩
      rintro rfl
      exact absent member
    · rw [dropWhile_cons_of_pos (by simpa using found)] at next
      rw [count_cons_of_ne found] at once
      obtain ⟨member, different⟩ := inductionHypothesis next once
      exact ⟨mem_cons_of_mem _ member, different⟩

/--
The requeue loop runs to its end.  The item it stands at is in the queue of
the first futex, also when the second is the same.
-/
theorem Accounted.requeueLoop
    {futex futex2 : FutexId}
    (holdsFirst : 0 < held futex)
    (holdsSecond : 0 < held futex2)
    (small : ∀ id, held id ≤ 8)
    (rounds : Nat) :
    ∀ {table : FutexTable} (cursor : Option Pid) (requeued : Nat),
      table.Accounted held →
      (∀ task ∈ cursor, table.awaits task = some futex) →
      ∃ last total,
        FutexTable.requeueLoop futex futex2 rounds cursor requeued table =
            some (last, total) ∧
          last.Accounted held := by
  induction rounds with
  | zero =>
    intro table cursor requeued accounted _
    exact ⟨table, requeued, rfl, accounted⟩
  | succ rounds inductionHypothesis =>
    intro table cursor requeued accounted atCursor
    cases cursor with
    | none =>
      exact ⟨table, requeued, rfl, accounted⟩
    | some task =>
      have waiting := atCursor task rfl
      obtain ⟨first, isFirst⟩ := accounted.exists_of_held holdsFirst
      obtain ⟨next, moved, nextAccounted, others, _⟩ :=
        accounted.requeueWaiter waiting holdsFirst holdsSecond small
      have once : first.queue.count task ≤ 1 := by
        rw [accounted.queued futex first isFirst task]
        split <;> omega
      have nextCursor :
          ∀ tmp ∈ nextInQueue first.queue task,
            next.awaits tmp = some futex := by
        intro tmp isNext
        obtain ⟨member, different⟩ := nextInQueue_spec isNext once
        rw [others tmp different]
        exact accounted.wait_of_queued isFirst member
      obtain ⟨last, total, run, lastAccounted⟩ :=
        inductionHypothesis _ (requeued + 1) nextAccounted nextCursor
      refine ⟨last, total, ?_, lastAccounted⟩
      unfold FutexTable.requeueLoop
      rw [isFirst, bind_eq_bind, bind_some, moved]
      exact run

/-- No reference of an operation: what holds while `futex_lock` is free. -/
def noneHeld : FutexId → Nat :=
  fun _ => 0

private theorem hold_small
    {bound : Nat}
    (small : ∀ id, held id ≤ bound)
    (id : FutexId) :
    ∀ other, hold held id other ≤ bound + 1 := by
  intro other
  have before := small other
  unfold hold
  split <;> omega

variable {allocated : Option FutexId}

/-- A wait ends or falls asleep, with the accounts in order. -/
theorem Accounted.waitStart
    {mem addr val bitset : Nat}
    {loaded : Option Nat}
    (accounted : table.Accounted noneHeld)
    (awake : table.waits task = none)
    (fresh : ∀ id ∈ allocated, table.futexes id = none) :
    ∃ next result,
      table.waitStart task mem addr loaded val bitset allocated =
          some (next, result) ∧
        next.Accounted noneHeld := by
  have nothing : ∀ id, noneHeld id ≤ 8 := fun _ => Nat.zero_le _
  unfold FutexTable.waitStart
  rcases accounted.get nothing fresh with
    failed | ⟨got, id, isGot, gotAccounted, sameWaits, _⟩
  · rw [failed]
    exact ⟨table, _, rfl, accounted⟩
  · rw [isGot]
    obtain ⟨after, put, putAccounted, _⟩ := gotAccounted.put (nothing id)
    cases loaded with
    | none =>
      simp only [put]
      exact ⟨after, _, rfl, putAccounted⟩
    | some word =>
      by_cases changed : word ≠ val
      · simp only [if_pos changed, put]
        exact ⟨after, _, rfl, putAccounted⟩
      · simp only [if_neg changed]
        exact ⟨_, _, rfl,
          gotAccounted.sleep ((congrFun sameWaits task).trans awake)⟩

theorem Accounted.waitFinish
    {wait : FutexWait}
    (accounted : table.Accounted noneHeld)
    (isWait : table.waits task = some wait) :
    ∃ next,
      table.waitFinish task = some next ∧ next.Accounted noneHeld := by
  obtain ⟨next, put, nextAccounted, _⟩ :=
    (accounted.wakeUp isWait).put (Nat.zero_le _)
  refine ⟨next, ?_, nextAccounted⟩
  unfold FutexTable.waitFinish
  rw [isWait]
  exact put

/-- A wake or a requeue keeps the accounts, also with both addresses equal. -/
theorem Accounted.wakelike
    {op mem addr wakeMax requeueMax requeueAddr bitset : Nat}
    {allocated2 : Option FutexId}
    (accounted : table.Accounted noneHeld)
    (fresh : ∀ id ∈ allocated, table.futexes id = none)
    (fresh2 : ∀ id ∈ allocated2, table.futexes id = none)
    (distinct : ∀ id ∈ allocated2, some id ≠ allocated) :
    ∃ next result,
      table.wakelike op mem addr wakeMax requeueMax requeueAddr bitset
          allocated allocated2 = some (next, result) ∧
        next.Accounted noneHeld := by
  have nothing : ∀ id, noneHeld id ≤ 6 := fun _ => Nat.zero_le _
  unfold FutexTable.wakelike
  rcases accounted.get (fun id => (nothing id).trans (by omega)) fresh with
    failed | ⟨got, futex, isGot, gotAccounted, _, ⟨first, isFirst⟩, gotNone⟩
  · rw [failed]
    exact ⟨table, _, rfl, accounted⟩
  · have haveWaits :
        ∀ task ∈ first.queue, ∃ wait, got.waits task = some wait :=
      fun task member =>
        exists_wait_of_awaits (gotAccounted.wait_of_queued isFirst member)
    obtain ⟨woke, woken, wakeRun, wokeAccounted, wokeNone⟩ :=
      gotAccounted.wakeLoop wakeMax bitset first.queue 0 haveWaits
    obtain ⟨after, put, putAccounted, _⟩ :=
      wokeAccounted.put (Nat.zero_le 8)
    rw [isGot]
    simp only [isFirst, bind_eq_bind, bind_some, wakeRun]
    by_cases requeue : op = futexRequeue
    · rw [if_pos requeue]
      have stillFresh : ∀ id ∈ allocated2, woke.futexes id = none := by
        intro id isNew
        exact wokeNone id (gotNone id (distinct id isNew) (fresh2 id isNew))
      have few := hold_small nothing futex
      rcases wokeAccounted.get (fun id => (few id).trans (by omega))
        stillFresh with
        failed | ⟨both, futex2, isBoth, bothAccounted, _, ⟨_, isSecond⟩, _⟩
      · rw [failed]
        simp only [put]
        exact ⟨after, _, rfl, putAccounted⟩
      · have holdsFirst : 0 < hold (hold noneHeld futex) futex2 futex := by
          have atLeast : 1 ≤ hold noneHeld futex futex := by
            rw [hold_self]
            omega
          exact atLeast.trans (Nat.le_add_right _ _)
        have holdsSecond : 0 < hold (hold noneHeld futex) futex2 futex2 := by
          rw [hold_self]
          omega
        have isFew := hold_small few futex2
        obtain ⟨queued, isQueued⟩ :=
          bothAccounted.exists_of_held holdsFirst
        have atHead :
            ∀ task ∈ queued.queue.head?, both.awaits task = some futex := by
          intro task isHead
          exact bothAccounted.wait_of_queued isQueued
            (List.mem_of_mem_head? isHead)
        obtain ⟨moved, requeued, moveRun, movedAccounted⟩ :=
          bothAccounted.requeueLoop holdsFirst holdsSecond isFew requeueMax
            queued.queue.head? 0 atHead
        obtain ⟨one, putSecond, oneAccounted, _⟩ :=
          movedAccounted.put ((few futex2).trans (by omega))
        obtain ⟨last, putFirst, lastAccounted, _⟩ :=
          oneAccounted.put (Nat.zero_le 8)
        rw [isBoth]
        simp only [isQueued, bind_some, moveRun, putSecond, putFirst]
        exact ⟨last, _, rfl, lastAccounted⟩
    · rw [if_neg requeue]
      simp only [put]
      exact ⟨after, _, rfl, putAccounted⟩

/-- No futex and no waiter. -/
def empty : FutexTable where
  futexes := fun _ => none
  hash := fun _ => []
  waits := fun _ => none

end FutexTable

/-- What happens between two moments at which `futex_lock` is free. -/
inductive FutexAction where
  | wait
      (task : Pid)
      (mem addr : Nat)
      (loaded : Option Nat)
      (val bitset : Nat)
      (allocated : Option FutexId)
  | resume (task : Pid)
  | wakelike
      (op mem addr wakeMax requeueMax requeueAddr bitset : Nat)
      (allocated allocated2 : Option FutexId)

namespace FutexAction

/-- The code an action runs. -/
def run (table : FutexTable) : FutexAction → Option FutexTable
  | wait task mem addr loaded val bitset allocated =>
    (table.waitStart task mem addr loaded val bitset allocated).map Prod.fst
  | resume task => table.waitFinish task
  | wakelike op mem addr wakeMax requeueMax requeueAddr bitset allocated
      allocated2 =>
      (table.wakelike op mem addr wakeMax requeueMax requeueAddr bitset
        allocated allocated2).map Prod.fst

/-- A sleeping task makes no call, and `malloc` returns memory not in use. -/
def Enabled (table : FutexTable) : FutexAction → Prop
  | wait task _ _ _ _ _ allocated =>
    table.waits task = none ∧
      ∀ id ∈ allocated, table.futexes id = none
  | resume task => table.waits task ≠ none
  | wakelike _ _ _ _ _ _ _ allocated allocated2 =>
    (∀ id ∈ allocated, table.futexes id = none) ∧
      (∀ id ∈ allocated2, table.futexes id = none) ∧
      ∀ id ∈ allocated2, some id ≠ allocated

end FutexAction

/--
All interleavings of the futex calls.  A sleeping waiter may run again at any
time: it was woken, timed out or was interrupted.
-/
def futexMachine : Machine FutexTable FutexAction where
  initial table := table = FutexTable.empty
  step table action next :=
    action.Enabled table ∧ action.run table = some next

namespace FutexTable

variable {table : FutexTable}

/-- Every action that can happen succeeds and keeps the accounts. -/
theorem Accounted.step
    {action : FutexAction}
    (accounted : table.Accounted noneHeld)
    (enabled : action.Enabled table) :
    ∃ next, action.run table = some next ∧ next.Accounted noneHeld := by
  cases action with
  | wait task mem addr loaded val bitset allocated =>
    obtain ⟨next, result, run, nextAccounted⟩ :=
      accounted.waitStart enabled.1 enabled.2
    exact ⟨next, by rw [FutexAction.run, run]; rfl, nextAccounted⟩
  | resume task =>
    obtain ⟨wait, isWait⟩ := ne_none_iff_exists'.mp enabled
    exact accounted.waitFinish isWait
  | wakelike op mem addr wakeMax requeueMax requeueAddr bitset allocated
      allocated2 =>
      obtain ⟨next, result, run, nextAccounted⟩ :=
        accounted.wakelike enabled.1 enabled.2.1 enabled.2.2
      exact ⟨next, by rw [FutexAction.run, run]; rfl, nextAccounted⟩

/-- Nothing is counted at the start. -/
theorem empty_accounted : empty.Accounted noneHeld := by
  have noWaiters : ∀ id, empty.waiters id = 0 := by
    intro id
    apply holders_eq_zero_iff.mpr
    intro task _
    exact (some_ne_none id).symm
  constructor
  case queued => exact fun _ _ isFutex => nomatch isFutex
  case counted => exact fun _ _ isFutex => nomatch isFutex
  case referred => exact fun _ _ isFutex => nomatch isFutex
  case dangling =>
    intro id _
    rw [noWaiters, noneHeld]
  case hashed =>
    intro bucket id
    constructor
    · exact fun member => nomatch member
    · exact fun ⟨_, isFutex, _⟩ => nomatch isFutex
  case chained => exact fun _ => nodup_nil
  case unique => exact fun isFutex => nomatch isFutex

theorem accounted_of_reachable
    (reachable : futexMachine.Reachable table) :
    table.Accounted noneHeld := by
  refine Machine.Reachable.invariant
    (motive := fun table => table.Accounted noneHeld) ?_ ?_ reachable
  · rintro _ rfl
    exact empty_accounted
  · intro before action next accounted taken
    obtain ⟨after, run, afterAccounted⟩ := accounted.step taken.1
    cases run.symm.trans taken.2
    exact afterAccounted

/--
Whenever `futex_lock` is free: a waiter that has not been woken is queued once
on its futex and nowhere else; a futex counts the waiters that refer to it;
there is one futex for an address space and address; and whatever happens
next succeeds, so a futex is freed with an empty queue.
-/
theorem futexes_accounted
    (reachable : futexMachine.Reachable table) :
    (∀ task wait,
      table.waits task = some wait → wait.cond = false →
      (table.futexes wait.futex).isSome ∧
        ∀ id futex, table.futexes id = some futex →
          futex.queue.count task = if id = wait.futex then 1 else 0) ∧
      (∀ id futex, table.futexes id = some futex →
        futex.refcount =
          (Finset.univ.filter fun task =>
            (table.waits task).map FutexWait.futex = some id).card) ∧
      (∀ id other futex otherFutex,
        table.futexes id = some futex →
        table.futexes other = some otherFutex →
        futex.mem = otherFutex.mem → futex.addr = otherFutex.addr →
        id = other) ∧
      ∀ action : FutexAction, action.Enabled table →
        ∃ next, action.run table = some next := by
  have accounted := accounted_of_reachable reachable
  refine ⟨?_, ?_, ?_, ?_⟩
  · intro task wait isWait notWoken
    have waiting : table.awaits task = some wait.futex := by
      simp [awaits, isWait, notWoken]
    have refers := waiters_pos (refersTo_of_awaits waiting)
    constructor
    · cases isFutex : table.futexes wait.futex with
      | none =>
        have dangling := accounted.dangling wait.futex isFutex
        omega
      | some futex =>
        rfl
    · intro id futex isFutex
      rw [accounted.queued id futex isFutex task, waiting]
      simp only [some.injEq, eq_comm]
  · intro id futex isFutex
    have counted := accounted.counted id futex isFutex
    rw [noneHeld, Nat.add_zero] at counted
    exact counted
  · intro id other futex otherFutex isFutex isOther
    exact accounted.unique isFutex isOther
  · intro action enabled
    obtain ⟨next, run, _⟩ := accounted.step enabled
    exact ⟨next, run⟩

/-- After one wait its task is queued once, on the futex it allocated. -/
theorem first_waiter_is_queued :
    ∃ table wait,
      futexMachine.Reachable table ∧
        table.waits 1 = some wait ∧
        (table.futexes wait.futex).isSome ∧
        ∀ id futex, table.futexes id = some futex →
          futex.queue.count 1 = if id = wait.futex then 1 else 0 := by
  let wait : FutexWait := { cond := false, futex := 3, bitset := 1 }
  have reachable :
      futexMachine.Reachable
        (((empty.allocate 3 9 4096).setWait 1 (some wait)).enqueue 3 1) :=
    .step (a := .wait 1 9 4096 (some 7) 7 1 (some 3)) (.initial rfl)
      ⟨⟨rfl, fun _ _ => rfl⟩, rfl⟩
  have queued := (futexes_accounted reachable).1 1 wait rfl rfl
  exact ⟨_, wait, reachable, rfl, queued.1, queued.2⟩

end FutexTable

end GuestKernel
