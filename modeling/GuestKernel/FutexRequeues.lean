import GuestKernel.FutexTraces

namespace GuestKernel
open List Option Function

/-!
# Which calls of `futex_wakelike` take every waiter once

A call that requeues to the address it wakes goes on at the tail of its own
list; and a call that has woken somebody fails if there is no memory for the
second futex.
-/

/-- `FUTEX_BITSET_MATCH_ANY_`. -/
abbrev futexBitsetMatchAny : Nat := 2 ^ 32 - 1

/-- The actions of `sys_futex`, which refuses an empty bitset. -/
def FutexAction.FromGuest : FutexAction → Prop
  | .wait _ _ _ _ _ bitset _ => bitset ≠ 0 ∧ bitset < 2 ^ 32
  | _ => True

/-- All interleavings of the calls that the guest can make. -/
def guestFutexMachine : Machine FutexTable FutexAction :=
  futexMachine.restrict fun _ action => action.FromGuest

/-- What the callers and `malloc` promise. -/
structure WakelikeCall.Proper
    (call : WakelikeCall) (table : FutexTable) : Prop where
  matchAny : call.op = futexRequeue → call.bitset = futexBitsetMatchAny
  fresh : ∀ id ∈ call.allocated, table.futexes id = none
  fresh2 : ∀ id ∈ call.allocated2, table.futexes id = none
  distinct : ∀ id ∈ call.allocated2, some id ≠ call.allocated

namespace FutexTable

/-- The waiters at the address of a call. -/
def waitersOf (table : FutexTable) (call : WakelikeCall) : List Pid :=
  table.queueAt call.mem call.addr

/--
The rounds of both loops are no more than the waiters there were, each waiter is
taken once at most, the result is their number, and those woken are as many as
asked for, or all that match.  A call that fails has taken nobody.
-/
structure Orderly
    (table : FutexTable) (call : WakelikeCall) (result : Except Errno Nat)
    (trace : WakelikeTrace) : Prop where
  steps :
    trace.wakeRounds + trace.requeued.length ≤
      (table.waitersOf call).length
  once : (trace.woken ++ trace.requeued).Nodup
  counted :
    ∀ value,
      result = .ok value →
      value = trace.woken.length + trace.requeued.length
  failed :
    ∀ code, result = .error code → trace.woken = [] ∧ trace.requeued = []
  woken :
    trace.woken.length =
      min call.wakeMax
        ((table.waitersOf call).filter
          (table.matchesBitset call.bitset)).length

/-- There is a futex at an address. -/
def HasFutex (table : FutexTable) (mem addr : Nat) : Prop :=
  ∃ id futex,
    table.futexes id = some futex ∧ futex.mem = mem ∧ futex.addr = addr

/--
A requeue has its second futex or memory for it, unless nobody is to be woken;
and to its own address it moves one waiter at most, or no more than are left.
-/
def Benign (table : FutexTable) (call : WakelikeCall) : Prop :=
  call.op = futexRequeue →
    (call.wakeMax = 0 ∨ table.waitersOf call = [] ∨
        call.requeueAddr = call.addr ∨
          table.HasFutex call.mem call.requeueAddr ∨
          call.allocated2 ≠ none) ∧
      (call.requeueAddr = call.addr →
        (table.waitersOf call).length ≤ call.wakeMax + 1 ∨
          call.wakeMax + call.requeueMax ≤ (table.waitersOf call).length)

variable
  {table next last : FutexTable}
  {held : FutexId → Nat}
  {task : Pid}
  {id futex futex2 : FutexId}
  {mem addr : Nat}
  {allocated : Option FutexId}

/-- Every waiter matches any other bitset than an empty one. -/
def AllMatch (table : FutexTable) : Prop :=
  ∀ task wait,
    table.waits task = some wait →
    wait.bitset &&& futexBitsetMatchAny ≠ 0

/-- The bitset of a waiter. -/
def bitsetOf (table : FutexTable) (task : Pid) : Option Nat :=
  (table.waits task).map FutexWait.bitset

theorem AllMatch.of_bitsets
    (allMatch : table.AllMatch)
    (kept :
      ∀ task bitset,
        next.bitsetOf task = some bitset →
        table.bitsetOf task = some bitset) :
    next.AllMatch := by
  intro task wait isWait
  have isOld :=
    kept task wait.bitset (by rw [bitsetOf, isWait, map_some])
  obtain ⟨old, isOldWait, same⟩ := map_eq_some_iff.mp isOld
  rw [← same]
  exact allMatch task old isOldWait

theorem bitsetOf_congr
    (same : next.waits = table.waits) :
    next.bitsetOf = table.bitsetOf := by
  funext task
  rw [bitsetOf, bitsetOf, same]

private theorem bitsetOf_setWait
    {wait changed : FutexWait}
    (isWait : table.waits task = some wait)
    (same : changed.bitset = wait.bitset) :
    (table.setWait task (some changed)).bitsetOf = table.bitsetOf := by
  funext other
  show (update table.waits task (some changed) other).map _ = _
  by_cases isTask : other = task
  · subst isTask
    rw [update_self, bitsetOf, isWait, map_some,
      map_some, same]
  · rw [update_of_ne isTask]
    rfl

variable {call : WakelikeCall} {wakeMax bitset rounds : Nat} {log : List Pid}
  {woke both : FutexTable} {result : Except Errno Nat}

/-- Waking keeps the bitsets. -/
private theorem bitsetOf_wakeLoop
    {woken count : Nat}
    {items : List Pid}
    (run : wakeLoop wakeMax bitset items woken table = some (last, count)) :
    last.bitsetOf = table.bitsetOf := by
  induction items generalizing table woken with
  | nil =>
    cases run
    rfl
  | cons task rest inductionHypothesis =>
    unfold wakeLoop at run
    split at run
    · cases run
      rfl
    obtain ⟨wait, isWait, run⟩ := bind_eq_some_iff.mp run
    split at run
    · exact inductionHypothesis run
    · refine (inductionHypothesis run).trans ?_
      exact bitsetOf_setWait isWait rfl

private theorem bitsetOf_requeueLoop
    {requeued count : Nat}
    {cursor : Option Pid}
    (run :
      requeueLoop futex futex2 rounds cursor requeued table =
        some (last, count)) :
    last.bitsetOf = table.bitsetOf := by
  induction rounds generalizing table cursor requeued with
  | zero =>
    cases run
    rfl
  | succ rounds inductionHypothesis =>
    cases cursor with
    | none =>
      cases run
      rfl
    | some task =>
      unfold requeueLoop at run
      obtain ⟨first, _, run⟩ := bind_eq_some_iff.mp run
      obtain ⟨moved, isMoved, run⟩ := bind_eq_some_iff.mp run
      refine (inductionHypothesis run).trans ?_
      unfold requeueWaiter at isMoved
      obtain ⟨wait, isWait, isMoved⟩ :=
        bind_eq_some_iff.mp isMoved
      obtain ⟨_, _, isMoved⟩ := bind_eq_some_iff.mp isMoved
      split at isMoved
      · cases isMoved
      · cases isMoved
        exact bitsetOf_setWait isWait rfl

/-- The whole call keeps the bitsets. -/
private theorem bitsetOf_wakelike
    {op requeueMax requeueAddr : Nat}
    {allocated2 : Option FutexId}
    (run :
      table.wakelike op mem addr wakeMax requeueMax requeueAddr bitset
        allocated allocated2 = some (next, result)) :
    next.bitsetOf = table.bitsetOf := by
  rcases waits_wakelike run with
    same | ⟨held, _, _, woke, _, got, _, wakeRun, rest⟩
  · exact bitsetOf_congr same
  have wokeSame :=
    (bitsetOf_wakeLoop wakeRun).trans (bitsetOf_congr (waits_getUnlocked got))
  rcases rest with same | ⟨both, _, _, _, _, bothSame, moveRun, same⟩
  · exact (bitsetOf_congr same).trans wokeSame
  · rw [bitsetOf_congr same, bitsetOf_requeueLoop moveRun,
      bitsetOf_congr bothSame, wokeSame]

private theorem bitsetOf_waitStart
    {val : Nat}
    {loaded : Option Nat}
    {result : CallResult}
    (run :
      table.waitStart task mem addr loaded val bitset allocated =
        some (next, result))
    (other : Pid) :
    next.bitsetOf other = table.bitsetOf other ∨
      next.bitsetOf other = some bitset := by
  rcases waits_waitStart run with ⟨_, same⟩ | ⟨futex, isNew⟩
  · exact .inl (congrFun (bitsetOf_congr same) other)
  · unfold bitsetOf
    rw [isNew]
    by_cases isTask : other = task
    · rw [isTask, update_self]
      exact .inr rfl
    · rw [update_of_ne isTask]
      exact .inl rfl

/-- A waiter that leaves brings in no bitset. -/
private theorem bitsetOf_waitFinish
    (run : table.waitFinish task = some next)
    (other : Pid)
    (bitset : Nat)
    (isBitset : next.bitsetOf other = some bitset) :
    table.bitsetOf other = some bitset := by
  unfold waitFinish at run
  obtain ⟨wait, _, run⟩ := bind_eq_some_iff.mp run
  rw [bitsetOf_congr (waits_putUnlocked run)] at isBitset
  change (update table.waits task none other).map _ = _ at isBitset
  by_cases isTask : other = task
  · subst isTask
    rw [update_self] at isBitset
    cases isBitset
  · rwa [update_of_ne isTask] at isBitset

/-- Whenever the lock is free every waiter has a bitset that matches. -/
theorem allMatch_of_reachable
    (reachable : guestFutexMachine.Reachable table) :
    table.AllMatch := by
  refine Machine.Reachable.invariant
    (motive := fun table => table.AllMatch) ?_ ?_ reachable
  · rintro _ rfl task wait isWait
    cases isWait
  · rintro before action next allMatch ⟨fromGuest, _, run⟩
    cases action with
    | wait task mem addr loaded val bitset allocated =>
      obtain ⟨⟨_, result⟩, started, rfl⟩ := map_eq_some_iff.mp run
      intro other wait isWait
      have isBitset :
          FutexTable.bitsetOf _ other = some wait.bitset :=
        congrArg (Option.map FutexWait.bitset) isWait
      rcases bitsetOf_waitStart started other with same | isNew
      · rw [same] at isBitset
        obtain ⟨old, isOld, sameBitset⟩ :=
          map_eq_some_iff.mp isBitset
        rw [← sameBitset]
        exact allMatch other old isOld
      · rw [some.inj (isBitset.symm.trans isNew),
          Nat.and_two_pow_sub_one_eq_mod, Nat.mod_eq_of_lt fromGuest.2]
        exact fromGuest.1
    | resume task => exact allMatch.of_bitsets (bitsetOf_waitFinish run)
    | wakelike op mem addr wakeMax requeueMax requeueAddr bitset allocated
        allocated2 =>
        obtain ⟨⟨_, result⟩, called, rfl⟩ := map_eq_some_iff.mp run
        refine allMatch.of_bitsets fun task bitset isBitset => ?_
        rwa [bitsetOf_wakelike called] at isBitset

/-- Where a futex is and who is queued on it. -/
structure SamePlace (old new : Futex) : Prop where
  mem : new.mem = old.mem
  addr : new.addr = old.addr
  queue : new.queue = old.queue

/-- What `futex_get_unlocked` changes when it succeeds. -/
structure Got
    (table next : FutexTable) (mem addr : Nat)
    (allocated : Option FutexId) (id : FutexId) : Prop where
  possible : table.HasFutex mem addr ∨ allocated ≠ none
  found :
    ∃ futex,
      next.futexes id = some futex ∧
        futex.mem = mem ∧ futex.addr = addr
  kept :
    ∀ other old,
      table.futexes other = some old →
      ∃ new, next.futexes other = some new ∧ SamePlace old new
  places :
    ∀ otherMem otherAddr,
      next.HasFutex otherMem otherAddr ↔
        table.HasFutex otherMem otherAddr ∨
          otherMem = mem ∧ otherAddr = addr

private theorem isAt_iff :
    table.isAt mem addr id = true ↔
      ∃ futex,
        table.futexes id = some futex ∧
          futex.addr = addr ∧ futex.mem = mem := by
  rw [isAt, Option.any_eq_true]
  exact exists_congr fun futex => and_congr_right fun _ => decide_eq_true_iff

private theorem Accounted.find_none_iff
    (accounted : table.Accounted held) :
    (table.hash (futexHash mem addr)).find? (table.isAt mem addr) = none ↔
      ¬ table.HasFutex mem addr := by
  rw [List.find?_eq_none]
  constructor
  · rintro absent ⟨id, futex, isFutex, rfl, rfl⟩
    exact absent id ((accounted.hashed _ id).mpr ⟨futex, isFutex, rfl⟩)
      (isAt_iff.mpr ⟨futex, isFutex, rfl, rfl⟩)
  · intro noFutex id _ isHere
    obtain ⟨futex, isFutex, sameAddr, sameMem⟩ := isAt_iff.mp isHere
    exact noFutex ⟨id, futex, isFutex, sameMem, sameAddr⟩

/-- Without a futex and without memory there is nothing to get. -/
theorem Accounted.getUnlocked_none
    (accounted : table.Accounted held)
    (run : table.getUnlocked mem addr allocated = (next, none)) :
    ¬ table.HasFutex mem addr ∧ allocated = none := by
  rw [← accounted.find_none_iff]
  unfold getUnlocked at run
  dsimp only at run
  cases found :
      (table.hash (futexHash mem addr)).find? (table.isAt mem addr) with
  | some id =>
    rw [found] at run
    cases run
  | none =>
    rw [found] at run
    cases allocated with
    | none => exact ⟨rfl, rfl⟩
    | some fresh => cases run

theorem Accounted.queueAt_nil
    (accounted : table.Accounted held)
    (noFutex : ¬ table.HasFutex mem addr) :
    table.queueAt mem addr = [] := by
  rw [queueAt, accounted.find_none_iff.mpr noFutex]

/-- A futex that is found gets a reference, a new one is put in its place. -/
theorem got_of_getUnlocked
    (fresh : ∀ id ∈ allocated, table.futexes id = none)
    (run : table.getUnlocked mem addr allocated = (next, some id)) :
    Got table next mem addr allocated id := by
  unfold getUnlocked at run
  dsimp only at run
  cases found :
      (table.hash (futexHash mem addr)).find? (table.isAt mem addr) with
  | some old =>
    rw [found] at run
    cases run
    obtain ⟨futex, isFutex, sameAddr, sameMem⟩ :=
      isAt_iff.mp (List.find?_some found)
    have kept :
        ∀ other old,
          table.futexes other = some old →
          ∃ new,
            (table.retain id).futexes other = some new ∧
              SamePlace old new := by
      intro other old isOld
      refine ⟨_, by rw [FutexTable.retain, modify_futexes, isOld]; rfl, ?_⟩
      split <;> exact ⟨rfl, rfl, rfl⟩
    obtain ⟨new, isNew, same⟩ := kept id futex isFutex
    refine ⟨.inl ⟨id, futex, isFutex, sameMem, sameAddr⟩,
      ⟨new, isNew, same.mem.trans sameMem, same.addr.trans sameAddr⟩,
      kept, fun otherMem otherAddr => ⟨?_, ?_⟩⟩
    · rintro ⟨other, late, isLate, rfl, rfl⟩
      rw [FutexTable.retain, modify_futexes] at isLate
      obtain ⟨early, isEarly, rfl⟩ := map_eq_some_iff.mp isLate
      refine .inl ⟨other, early, isEarly, ?_, ?_⟩ <;> split <;> rfl
    · rintro (⟨other, early, isEarly, rfl, rfl⟩ | ⟨rfl, rfl⟩)
      · obtain ⟨late, isLate, same⟩ := kept other early isEarly
        exact ⟨other, late, isLate, same.mem, same.addr⟩
      · exact ⟨id, new, isNew, same.mem.trans sameMem,
          same.addr.trans sameAddr⟩
  | none =>
    rw [found] at run
    cases allocated with
    | none => cases run
    | some new =>
      cases run
      have isNew :
          (table.allocate id mem addr).futexes id =
            some { refcount := 1, mem, addr, queue := [] } :=
        update_self ..
      have isOther :
          ∀ other,
            other ≠ id →
            (table.allocate id mem addr).futexes other =
              table.futexes other :=
        fun other different => update_of_ne different ..
      have notNew :
          ∀ other old, table.futexes other = some old → other ≠ id := by
        rintro other old isOld rfl
        cases (fresh other rfl).symm.trans isOld
      refine ⟨.inr (some_ne_none id), ⟨_, isNew, rfl, rfl⟩, ?_,
        fun otherMem otherAddr => ⟨?_, ?_⟩⟩
      · intro other old isOld
        exact ⟨old, (isOther other (notNew other old isOld)).trans isOld,
          rfl, rfl, rfl⟩
      · rintro ⟨other, late, isLate, rfl, rfl⟩
        by_cases isId : other = id
        · subst isId
          cases isNew.symm.trans isLate
          exact .inr ⟨rfl, rfl⟩
        · exact .inl ⟨other, late, (isOther other isId).symm.trans isLate,
            rfl, rfl⟩
      · rintro (⟨other, early, isEarly, rfl, rfl⟩ | ⟨rfl, rfl⟩)
        · exact ⟨other, early,
            (isOther other (notNew other early isEarly)).trans isEarly,
            rfl, rfl⟩
        · exact ⟨id, _, isNew, rfl, rfl⟩

/-- All that a call of `futex_wakelike` can come to. -/
inductive WakelikeOutcome (table : FutexTable) (call : WakelikeCall) :
    Except Errno Nat → WakelikeTrace → Prop
  | noFutex
      (nobody : table.waitersOf call = []) :
      WakelikeOutcome table call (.error .nomem) ⟨0, [], []⟩
  | woke
      {rounds : Nat}
      {woken : List Pid}
      (notRequeue : call.op ≠ futexRequeue)
      (few : rounds ≤ (table.waitersOf call).length)
      (isLog :
        woken =
          ((table.waitersOf call).filter
            (table.matchesBitset call.bitset)).take call.wakeMax) :
      WakelikeOutcome table call (.ok woken.length) ⟨rounds, woken, []⟩
  | noSecond
      (requeue : call.op = futexRequeue)
      (noFutex : ¬ table.HasFutex call.mem call.requeueAddr)
      (elsewhere : call.requeueAddr ≠ call.addr)
      (noMemory : call.allocated2 = none) :
      WakelikeOutcome table call (.error .nomem)
        ⟨((table.waitersOf call).take call.wakeMax).length,
          (table.waitersOf call).take call.wakeMax, []⟩
  | requeued
      {moved : List Pid}
      (requeue : call.op = futexRequeue)
      (possible :
        table.HasFutex call.mem call.requeueAddr ∨
          call.requeueAddr = call.addr ∨ call.allocated2 ≠ none)
      (once :
        call.requeueAddr ≠ call.addr ∨
            (table.waitersOf call).length ≤ call.wakeMax + 1 ∨
              call.wakeMax + call.requeueMax ≤
                (table.waitersOf call).length →
          moved =
            ((table.waitersOf call).drop call.wakeMax).take call.requeueMax)
      (circles :
        call.requeueAddr = call.addr →
          call.wakeMax + 2 ≤ (table.waitersOf call).length →
          moved.length = call.requeueMax) :
      WakelikeOutcome table call
        (.ok
          ((((table.waitersOf call).take call.wakeMax).length +
            moved.length) % dwordRange))
        ⟨((table.waitersOf call).take call.wakeMax).length,
          (table.waitersOf call).take call.wakeMax, moved⟩

/-- Whatever the second loop does to the queue that the first one left. -/
private theorem requeueTrace_left
    {queue : List Pid}
    (isQueue : table.queueOf futex = some (queue.drop wakeMax))
    (run :
      requeueTrace futex futex2 rounds (queue.drop wakeMax).head? table =
        some (last, log)) :
    (futex ≠ futex2 ∨ queue.length ≤ wakeMax + 1 ∨
          wakeMax + rounds ≤ queue.length →
        log = (queue.drop wakeMax).take rounds) ∧
      (futex = futex2 → wakeMax + 2 ≤ queue.length →
        log.length = rounds) := by
  have left : (queue.drop wakeMax).length = queue.length - wakeMax :=
    length_drop
  by_cases apart : futex = futex2
  · subst apart
    constructor
    · rintro (isApart | single | few)
      · exact absurd rfl isApart
      · exact requeueTrace_single isQueue (by omega) run
      · have fewLeft : rounds ≤ (queue.drop wakeMax).length := by
          omega
        have whole : queue.drop wakeMax = queue.drop wakeMax ++ [] :=
          (append_nil _).symm
        rw [whole] at isQueue run
        exact requeueTrace_once isQueue fewLeft run
    · intro _ several
      exact requeueTrace_circles isQueue (by omega) run
  · exact ⟨fun _ => requeueTrace_apart apart isQueue run,
      fun same => absurd same apart⟩

/-- The first loop keeps the accounts. -/
private theorem Accounted.wakeTrace
    {woken : Nat}
    {items : List Pid}
    (accounted : table.Accounted held)
    (haveWaits : ∀ task ∈ items, ∃ wait, table.waits task = some wait)
    (run :
      FutexTable.wakeTrace wakeMax bitset items woken table =
        some (last, rounds, log)) :
    last.Accounted held ∧
      ∀ id, table.futexes id = none → last.futexes id = none := by
  obtain ⟨after, total, loop, afterAccounted, kept⟩ :=
    accounted.wakeLoop wakeMax bitset items woken haveWaits
  rw [wakeLoop_eq_wakeTrace, run] at loop
  cases loop
  exact ⟨afterAccounted, kept⟩

theorem Accounted.filter_matchAny
    {futex : Futex}
    (accounted : table.Accounted held)
    (allMatch : table.AllMatch)
    (isFutex : table.futexes id = some futex) :
    ∀ task ∈ futex.queue,
      table.matchesBitset futexBitsetMatchAny task = true := by
  intro task member
  obtain ⟨wait, isWait⟩ :=
    exists_wait_of_awaits (accounted.wait_of_queued isFutex member)
  rw [matchesBitset, isWait, any_some]
  exact decide_eq_true (allMatch task wait isWait)

/-- A table where the first loop has taken some waiters of one queue. -/
structure Woke
    (table woke : FutexTable) (call : WakelikeCall)
    (futex : FutexId) : Prop where
  accounted : woke.Accounted (hold noneHeld futex)
  place :
    ∃ first,
      woke.futexes futex = some first ∧
        first.mem = call.mem ∧ first.addr = call.addr ∧
        first.queue = (table.waitersOf call).drop call.wakeMax
  places :
    ∀ mem addr,
      woke.HasFutex mem addr ↔
        table.HasFutex mem addr ∨ mem = call.mem ∧ addr = call.addr
  fresh2 : ∀ id ∈ call.allocated2, woke.futexes id = none

/-- The first loop of `FUTEX_REQUEUE` takes the first waiters. -/
private theorem woke_of_wakeTrace
    {got : FutexTable}
    {first : Futex}
    (accounted : got.Accounted (hold noneHeld futex))
    (allMatch : got.AllMatch)
    (matchAny : call.bitset = futexBitsetMatchAny)
    (place : Got table got call.mem call.addr call.allocated futex)
    (fresh2 : ∀ id ∈ call.allocated2, got.futexes id = none)
    (isFirst : got.futexes futex = some first)
    (isQueue : first.queue = table.waitersOf call)
    (run :
      FutexTable.wakeTrace call.wakeMax call.bitset first.queue 0 got =
        some (woke, rounds, log)) :
    log = (table.waitersOf call).take call.wakeMax ∧
      rounds = log.length ∧ Woke table woke call futex := by
  have everyMatch := accounted.filter_matchAny allMatch isFirst
  rw [← matchAny] at everyMatch
  have spec := wakeTrace_spec run
  have isLog : log = first.queue.take call.wakeMax := by
    rw [spec.isLog, filter_eq_self.mpr everyMatch, Nat.sub_zero]
  have haveWaits :
      ∀ task ∈ first.queue, ∃ wait, got.waits task = some wait :=
    fun task member =>
      exists_wait_of_awaits (accounted.wait_of_queued isFirst member)
  obtain ⟨wokeAccounted, wokeNone⟩ := accounted.wakeTrace haveWaits run
  refine ⟨isQueue ▸ isLog, spec.allMatch everyMatch, wokeAccounted, ?_, ?_,
    fun id isNew => wokeNone id (fresh2 id isNew)⟩
  · obtain ⟨found, isFound, sameMem, sameAddr⟩ := place.found
    cases isFirst.symm.trans isFound
    have isLeft := spec.futexes futex
    rw [isFirst, map_some] at isLeft
    refine ⟨_, isLeft, sameMem, sameAddr, ?_⟩
    rw [isLog, ← isQueue]
    exact foldl_erase_take first.queue call.wakeMax
  · intro mem addr
    rw [← place.places]
    constructor
    · rintro ⟨id, futex, isFutex, rfl, rfl⟩
      rw [spec.futexes] at isFutex
      obtain ⟨old, isOld, rfl⟩ := map_eq_some_iff.mp isFutex
      exact ⟨id, old, isOld, rfl, rfl⟩
    · rintro ⟨id, futex, isFutex, rfl, rfl⟩
      have isLeft := spec.futexes id
      rw [isFutex, map_some] at isLeft
      exact ⟨id, _, isLeft, rfl, rfl⟩

/-- There is a second futex: the waiters that are left are moved to it. -/
private theorem Woke.outcome_requeued
    {queued : Futex}
    (left : Woke table woke call futex)
    (requeue : call.op = futexRequeue)
    (got :
      woke.getUnlocked call.mem call.requeueAddr call.allocated2 =
        (both, some futex2))
    (accounted : both.Accounted held)
    (isQueued : both.futexes futex = some queued)
    (run :
      requeueTrace futex futex2 call.requeueMax queued.queue.head? both =
        some (last, log)) :
    WakelikeOutcome table call
      (.ok
        ((((table.waitersOf call).take call.wakeMax).length + log.length) %
          dwordRange))
      ⟨((table.waitersOf call).take call.wakeMax).length,
        (table.waitersOf call).take call.wakeMax, log⟩ := by
  have place := got_of_getUnlocked left.fresh2 got
  obtain ⟨first, isFirst, firstMem, firstAddr, firstQueue⟩ := left.place
  obtain ⟨kept, isKept, same⟩ := place.kept futex first isFirst
  cases isKept.symm.trans isQueued
  obtain ⟨second, isSecond, secondMem, secondAddr⟩ := place.found
  have sameFutex : futex = futex2 ↔ call.requeueAddr = call.addr := by
    constructor
    · rintro rfl
      cases isSecond.symm.trans isQueued
      exact secondAddr.symm.trans (same.addr.trans firstAddr)
    · intro sameAddr
      refine accounted.unique isQueued isSecond ?_ ?_
      · exact (same.mem.trans firstMem).trans secondMem.symm
      · exact ((same.addr.trans firstAddr).trans sameAddr.symm).trans
          secondAddr.symm
  rw [same.queue, firstQueue] at run
  have isQueue :
      both.queueOf futex =
        some ((table.waitersOf call).drop call.wakeMax) := by
    rw [queueOf, isQueued, map_some, same.queue, firstQueue]
  obtain ⟨once, circles⟩ := requeueTrace_left isQueue run
  refine .requeued requeue ?_ (fun orderly => once ?_)
    fun sameAddr => circles (sameFutex.mpr sameAddr)
  · rcases place.possible with hasFutex | hasMemory
    · rcases (left.places _ _).mp hasFutex with isOld | ⟨_, sameAddr⟩
      · exact .inl isOld
      · exact .inr (.inl sameAddr)
    · exact .inr (.inr hasMemory)
  · exact orderly.imp_left fun apart isSame => apart (sameFutex.mp isSame)

private theorem Woke.outcome_noSecond
    (left : Woke table woke call futex)
    (requeue : call.op = futexRequeue)
    (got :
      woke.getUnlocked call.mem call.requeueAddr call.allocated2 =
        (both, none)) :
    WakelikeOutcome table call (.error .nomem)
      ⟨((table.waitersOf call).take call.wakeMax).length,
        (table.waitersOf call).take call.wakeMax, []⟩ := by
  obtain ⟨noFutex, noMemory⟩ := left.accounted.getUnlocked_none got
  rw [left.places] at noFutex
  exact .noSecond requeue (fun isOld => noFutex (.inl isOld))
    (fun sameAddr => noFutex (.inr ⟨rfl, sameAddr⟩)) noMemory

/-- A call always returns, in one of these ways. -/
theorem Accounted.wakelike_outcome
    (accounted : table.Accounted noneHeld)
    (allMatch : table.AllMatch)
    (call : WakelikeCall)
    (proper : call.Proper table) :
    ∃ next result trace,
      table.wakelikeTrace call = some (next, result, trace) ∧
        WakelikeOutcome table call result trace := by
  have returns :
      ∃ next result,
        table.wakelike call.op call.mem call.addr call.wakeMax
            call.requeueMax call.requeueAddr call.bitset call.allocated
            call.allocated2 = some (next, result) ∧
          next.Accounted noneHeld :=
    accounted.wakelike proper.fresh proper.fresh2 proper.distinct
  obtain ⟨_, _, called, _⟩ := returns
  rw [wakelike_eq_wakelikeTrace] at called
  obtain ⟨⟨next, result, trace⟩, run, _⟩ := map_eq_some_iff.mp called
  refine ⟨next, result, trace, run, ?_⟩
  unfold wakelikeTrace at run
  rcases accounted.get (fun _ => Nat.zero_le 8) proper.fresh with
    failed | ⟨got, futex, isGot, gotAccounted, waits, ⟨first, isFirst⟩,
      gotNone⟩
  · rw [failed] at run
    cases run
    exact .noFutex
      (accounted.queueAt_nil (accounted.getUnlocked_none failed).1)
  have isQueue : first.queue = table.waitersOf call :=
    queueAt_of_getUnlocked isGot isFirst
  have sameMatches : got.matchesBitset = table.matchesBitset := by
    funext bitset task
    rw [matchesBitset, matchesBitset, waits]
  have gotMatch : got.AllMatch :=
    allMatch.of_bitsets fun _ _ isBitset =>
      congrFun (bitsetOf_congr waits) _ ▸ isBitset
  rw [isGot] at run
  obtain ⟨found, isFound, run⟩ := bind_eq_some_iff.mp run
  cases isFirst.symm.trans isFound
  obtain ⟨⟨woke, rounds, log⟩, wakeRun, run⟩ := bind_eq_some_iff.mp run
  dsimp only at run
  by_cases requeue : call.op = futexRequeue
  · rw [if_pos requeue] at run
    have fresh2 : ∀ id ∈ call.allocated2, got.futexes id = none :=
      fun id isNew =>
        gotNone id (proper.distinct id isNew) (proper.fresh2 id isNew)
    obtain ⟨rfl, rfl, left⟩ :=
      woke_of_wakeTrace gotAccounted gotMatch (proper.matchAny requeue)
        (got_of_getUnlocked proper.fresh isGot) fresh2 isFirst isQueue
        wakeRun
    have small : ∀ id, hold noneHeld futex id ≤ 8 := by
      intro id
      unfold hold noneHeld
      split <;> omega
    rcases left.accounted.get small left.fresh2 with
      failed | ⟨both, futex2, isBoth, bothAccounted, _⟩
    · rw [failed] at run
      obtain ⟨_, _, run⟩ := bind_eq_some_iff.mp run
      cases run
      exact left.outcome_noSecond requeue failed
    · rw [isBoth] at run
      obtain ⟨queued, isQueued, run⟩ := bind_eq_some_iff.mp run
      obtain ⟨⟨_, moved⟩, moveRun, run⟩ := bind_eq_some_iff.mp run
      obtain ⟨_, _, run⟩ := bind_eq_some_iff.mp run
      obtain ⟨_, _, run⟩ := bind_eq_some_iff.mp run
      cases run
      exact left.outcome_requeued requeue isBoth bothAccounted isQueued
        moveRun
  · rw [if_neg requeue] at run
    obtain ⟨_, _, run⟩ := bind_eq_some_iff.mp run
    cases run
    have spec := wakeTrace_spec wakeRun
    refine .woke requeue (isQueue ▸ spec.few) ?_
    rw [spec.isLog, isQueue, sameMatches, Nat.sub_zero]

private theorem length_lt_of_nodup
    {queue : List Pid}
    (once : queue.Nodup) :
    queue.length < dwordRange := by
  have few := once.length_le_card
  rw [Fintype.card_fin] at few
  exact Nat.lt_of_le_of_lt few (by decide)

/-- Nobody is queued twice. -/
theorem Accounted.waitersOf_nodup
    (accounted : table.Accounted held)
    (call : WakelikeCall) :
    (table.waitersOf call).Nodup := by
  unfold waitersOf queueAt
  split
  · exact nodup_nil
  · next id _ =>
      cases isFutex : table.futexes id with
      | none => exact nodup_nil
      | some futex =>
        rw [map_some, getD_some, nodup_iff_count_le_one]
        intro task
        rw [accounted.queued id futex isFutex task]
        split <;> omega

/-- All waiters match a call of `FUTEX_REQUEUE`. -/
theorem Accounted.filter_waitersOf
    (accounted : table.Accounted held)
    (allMatch : table.AllMatch)
    (call : WakelikeCall)
    (matchAny : call.bitset = futexBitsetMatchAny) :
    (table.waitersOf call).filter (table.matchesBitset call.bitset) =
      table.waitersOf call := by
  rw [filter_eq_self, matchAny]
  unfold waitersOf queueAt
  split
  · exact fun task member => absurd member not_mem_nil
  · next id _ =>
      cases isFutex : table.futexes id with
      | none => exact fun task member => absurd member not_mem_nil
      | some futex => exact accounted.filter_matchAny allMatch isFutex

/-- A call that fails has nobody to wake, or has woken somebody. -/
private theorem orderly_noSecond_iff :
    table.Orderly call (.error .nomem)
        ⟨((table.waitersOf call).take call.wakeMax).length,
          (table.waitersOf call).take call.wakeMax, []⟩ ↔
      call.wakeMax = 0 ∨ table.waitersOf call = [] := by
  rw [← take_eq_nil_iff]
  constructor
  · intro orderly
    exact (orderly.failed .nomem rfl).1
  · intro nobody
    rw [nobody]
    refine ⟨Nat.zero_le _, nodup_nil, fun _ isOk => (nomatch isOk),
      fun _ _ => ⟨rfl, rfl⟩, ?_⟩
    rcases take_eq_nil_iff.mp nobody with noWakes | nobodyWaits
    · rw [noWakes, Nat.zero_min, length_nil]
    · rw [nobodyWaits, filter_nil, length_nil, Nat.min_zero]

/-- Two loops that take the waiters in turn take each of them once. -/
private theorem orderly_of_turns
    (nodup : (table.waitersOf call).Nodup)
    (everyMatch :
      (table.waitersOf call).filter (table.matchesBitset call.bitset) =
        table.waitersOf call) :
    table.Orderly call
      (.ok
        ((((table.waitersOf call).take call.wakeMax).length +
          (((table.waitersOf call).drop call.wakeMax).take
            call.requeueMax).length) % dwordRange))
      ⟨((table.waitersOf call).take call.wakeMax).length,
        (table.waitersOf call).take call.wakeMax,
        ((table.waitersOf call).drop call.wakeMax).take
          call.requeueMax⟩ := by
  have few := length_lt_of_nodup nodup
  have whole :
      ((table.waitersOf call).take call.wakeMax).length +
          (((table.waitersOf call).drop call.wakeMax).take
            call.requeueMax).length ≤
        (table.waitersOf call).length := by
    rw [length_take, length_take, length_drop]
    omega
  have inOrder :
      ((table.waitersOf call).take call.wakeMax ++
        ((table.waitersOf call).drop call.wakeMax).take
          call.requeueMax).Sublist (table.waitersOf call) :=
    calc
      List.Sublist _
          ((table.waitersOf call).take call.wakeMax ++
            (table.waitersOf call).drop call.wakeMax) :=
        (take_sublist _ _).append_left _
      _ = table.waitersOf call := take_append_drop _ _
  refine ⟨whole, nodup.sublist inOrder, ?_, fun _ isError => (nomatch isError),
    ?_⟩
  · rintro value ⟨⟩
    exact Nat.mod_eq_of_lt (Nat.lt_of_le_of_lt whole few)
  · rw [everyMatch]
    exact length_take

/-- A call takes everybody once just if it is a benign one. -/
private theorem WakelikeOutcome.orderly_iff
    {trace : WakelikeTrace}
    (outcome : WakelikeOutcome table call result trace)
    (nodup : (table.waitersOf call).Nodup)
    (everyMatch :
      call.op = futexRequeue →
        (table.waitersOf call).filter (table.matchesBitset call.bitset) =
          table.waitersOf call) :
    table.Orderly call result trace ↔ table.Benign call := by
  cases outcome with
  | noFutex nobody =>
    refine ⟨fun _ _ => ⟨.inr (.inl nobody), fun _ => .inl ?_⟩, fun _ =>
      ⟨Nat.zero_le _, nodup_nil, fun _ isOk => (nomatch isOk),
        fun _ _ => ⟨rfl, rfl⟩, ?_⟩⟩
    · rw [nobody]
      exact Nat.zero_le _
    · rw [nobody, filter_nil, length_nil, Nat.min_zero]
  | woke notRequeue few isLog =>
    refine ⟨fun _ requeue => absurd requeue notRequeue, fun _ =>
      ⟨few, ?_, ?_, fun _ isError => (nomatch isError), ?_⟩⟩
    · rw [append_nil, isLog]
      exact (nodup.filter _).sublist (take_sublist _ _)
    · rintro value ⟨⟩
      rfl
    · rw [isLog, length_take]
  | noSecond requeue noFutex elsewhere noMemory =>
    rw [orderly_noSecond_iff]
    constructor
    · rintro nothing _
      exact ⟨nothing.imp_right .inl, fun same => absurd same elsewhere⟩
    · intro benign
      rcases (benign requeue).1 with noWakes | nobody | same | isFutex |
        hasMemory
      · exact .inl noWakes
      · exact .inr nobody
      · exact absurd same elsewhere
      · exact absurd isFutex noFutex
      · exact absurd noMemory hasMemory
  | requeued requeue possible once circles =>
    constructor
    · intro orderly _
      refine ⟨.inr (.inr ?_), fun same => ?_⟩
      · rcases possible with isFutex | same | hasMemory
        · exact .inr (.inl isFutex)
        · exact .inl same
        · exact .inr (.inr hasMemory)
      · by_contra unfit
        rw [not_or, Nat.not_le, Nat.not_le] at unfit
        have steps := orderly.steps
        rw [circles same unfit.1, length_take,
          Nat.min_eq_left (by omega)] at steps
        exact Nat.not_le_of_lt unfit.2 steps
    · intro benign
      rw [once ?_]
      · exact orderly_of_turns nodup (everyMatch requeue)
      · by_cases same : call.requeueAddr = call.addr
        · exact .inr ((benign requeue).2 same)
        · exact .inl same

/--
Every call returns.  It ends within as many rounds as there are waiters, takes
none of them twice and returns their number just if it is benign: a requeue to
its own address that goes on after its last waiter takes the same ones again,
and one that has woken somebody fails if it gets no second futex.
-/
theorem wakelike_orderly_iff
    (reachable : guestFutexMachine.Reachable table)
    (call : WakelikeCall)
    (proper : call.Proper table) :
    ∃ next result trace,
      table.wakelikeTrace call = some (next, result, trace) ∧
        table.wakelike call.op call.mem call.addr call.wakeMax
            call.requeueMax call.requeueAddr call.bitset call.allocated
            call.allocated2 = some (next, result) ∧
          (table.Orderly call result trace ↔ table.Benign call) := by
  have accounted := accounted_of_reachable reachable.of_restrict
  have allMatch := allMatch_of_reachable reachable
  obtain ⟨next, result, trace, run, outcome⟩ :=
    accounted.wakelike_outcome allMatch call proper
  refine ⟨next, result, trace, run, ?_, outcome.orderly_iff ?_ ?_⟩
  · rw [wakelike_eq_wakelikeTrace, run, map_some]
  · exact accounted.waitersOf_nodup call
  · exact fun requeue =>
      accounted.filter_waitersOf allMatch call (proper.matchAny requeue)

/-- The wait of a task that any wake can wake. -/
def anyWait : FutexWait where
  cond := false
  futex := 3
  bitset := futexBitsetMatchAny

/-- Two tasks wait at one address. -/
def twoWaiting (first second : Pid) : FutexTable :=
  (((((empty.allocate 3 9 4096).setWait first (some anyWait)).enqueue 3
    first).retain 3).setWait second (some anyWait)).enqueue 3 second

theorem twoWaiting_reachable :
    guestFutexMachine.Reachable (twoWaiting 1 2) :=
  have bitset : futexBitsetMatchAny ≠ 0 ∧ futexBitsetMatchAny < 2 ^ 32 := by
    decide
  .step
    (a := .wait 2 9 4096 (some 7) 7 futexBitsetMatchAny none)
    (.step
      (a := .wait 1 9 4096 (some 7) 7 futexBitsetMatchAny (some 3))
      (.initial rfl)
      ⟨bitset, ⟨rfl, fun _ _ => rfl⟩, rfl⟩)
    ⟨bitset, ⟨rfl, fun _ isNew => nomatch isNew⟩, rfl⟩

/-- `FUTEX_REQUEUE` of up to three waiters; `malloc` can return 4. -/
def requeueOfThree (requeueAddr : Nat) : WakelikeCall where
  op := futexRequeue
  mem := 9
  addr := 4096
  wakeMax := 0
  requeueMax := 3
  requeueAddr := requeueAddr
  bitset := futexBitsetMatchAny
  allocated := none
  allocated2 := some 4

theorem requeueOfThree_proper
    (requeueAddr : Nat) :
    (requeueOfThree requeueAddr).Proper (twoWaiting 1 2) where
  matchAny _ := rfl
  fresh _ isNew := nomatch isNew
  fresh2 := by
    rintro id ⟨⟩
    rfl
  distinct _ _ := some_ne_none _

/-- A requeue to another address moves both waiters once. -/
theorem requeue_to_another_address :
    ∃ next result trace,
      (twoWaiting 1 2).wakelikeTrace (requeueOfThree 8192) =
          some (next, result, trace) ∧
        (twoWaiting 1 2).Orderly (requeueOfThree 8192) result trace := by
  obtain ⟨next, result, trace, run, _, isOrderly⟩ :=
    wakelike_orderly_iff twoWaiting_reachable _ (requeueOfThree_proper 8192)
  refine ⟨next, result, trace, run, isOrderly.mpr fun _ => ⟨?_, ?_⟩⟩
  · exact .inl rfl
  · exact fun same => absurd same (by decide)

/-- A requeue to the same address moves the first waiter twice. -/
theorem requeue_to_the_same_address :
    guestFutexMachine.Reachable (twoWaiting 1 2) ∧
      (requeueOfThree 4096).Proper (twoWaiting 1 2) ∧
      (twoWaiting 1 2).waitersOf (requeueOfThree 4096) = [1, 2] ∧
      ∃ next trace,
        (twoWaiting 1 2).wakelikeTrace (requeueOfThree 4096) =
            some (next, .ok 3, trace) ∧
          trace.requeued = [1, 2, 1] ∧
            ¬ (twoWaiting 1 2).Orderly (requeueOfThree 4096) (.ok 3) trace := by
  refine ⟨twoWaiting_reachable, requeueOfThree_proper 4096, rfl, _,
    ⟨0, [], [1, 2, 1]⟩, rfl, rfl, fun orderly => ?_⟩
  exact absurd orderly.once (by decide)

end FutexTable

end GuestKernel
