import GuestKernel.FutexReturns

namespace GuestKernel
open List Option

/-!
# What the loops of `futex_wakelike` do

The two loops with a record of the waiters they wake and move, one entry a
round for the second.  The second loop goes on at the item that was next before
it moved the last one to the tail of a list, which can be the list it goes
through.
-/

/-- What one call does: the rounds of the first loop, and whom it took. -/
structure WakelikeTrace where
  wakeRounds : Nat
  woken : List Pid
  /-- One entry for each round of the second loop. -/
  requeued : List Pid
  deriving Repr, DecidableEq

/-- The arguments of `futex_wakelike`, and what `malloc` returns in it. -/
structure WakelikeCall where
  op : Nat
  mem : Nat
  addr : Nat
  wakeMax : Nat
  requeueMax : Nat
  requeueAddr : Nat
  bitset : Nat
  allocated : Option FutexId
  allocated2 : Option FutexId

namespace FutexTable

/-- The first loop: the table after it, its rounds and whom it woke. -/
def wakeTrace
    (wakeMax bitset : Nat) :
    List Pid → Nat → FutexTable → Option (FutexTable × Nat × List Pid)
  | [], _, table => some (table, 0, [])
  | task :: rest, woken, table =>
    if wakeMax ≤ woken then
      some (table, 0, [])
    else do
      let wait ← table.waits task
      if wait.bitset &&& bitset = 0 then
        let (last, rounds, log) ← wakeTrace wakeMax bitset rest woken table
        pure (last, rounds + 1, log)
      else
        let (last, rounds, log) ←
          wakeTrace wakeMax bitset rest (woken + 1)
            (table.wakeWaiter task wait)
        pure (last, rounds + 1, task :: log)

/-- The second loop: the table after it, and whom it moved in each round. -/
def requeueTrace
    (futex futex2 : FutexId) :
    Nat → Option Pid → FutexTable → Option (FutexTable × List Pid)
  | 0, _, table => some (table, [])
  | _ + 1, none, table => some (table, [])
  | rounds + 1, some task, table => do
      let queue := (← table.futexes futex).queue
      let tmp := nextInQueue queue task
      let (last, log) ←
        requeueTrace futex futex2 rounds tmp
          (← table.requeueWaiter futex futex2 task)
      pure (last, task :: log)

/-- `futex_wakelike`, with a record of what its loops do. -/
def wakelikeTrace (table : FutexTable) (call : WakelikeCall) :
    Option (FutexTable × Except Errno Nat × WakelikeTrace) :=
  match table.getUnlocked call.mem call.addr call.allocated with
  | (table, none) => some (table, .error .nomem, ⟨0, [], []⟩)
  | (table, some futex) => do
      let queue := (← table.futexes futex).queue
      let (table, rounds, woken) ←
        wakeTrace call.wakeMax call.bitset queue 0 table
      if call.op = futexRequeue then
        match table.getUnlocked call.mem call.requeueAddr call.allocated2 with
        | (table, none) =>
          pure (← table.putUnlocked futex, .error .nomem,
            ⟨rounds, woken, []⟩)
        | (table, some futex2) =>
          let queue := (← table.futexes futex).queue
          let (table, requeued) ←
            requeueTrace futex futex2 call.requeueMax queue.head? table
          let table ← table.putUnlocked futex2
          pure (← table.putUnlocked futex,
            .ok ((woken.length + requeued.length) % dwordRange),
            ⟨rounds, woken, requeued⟩)
      else
        pure (← table.putUnlocked futex, .ok woken.length,
          ⟨rounds, woken, []⟩)

variable
  {table next last : FutexTable}
  {held : FutexId → Nat}
  {task : Pid}
  {id futex futex2 : FutexId}
  {wakeMax bitset woken rounds : Nat}
  {log : List Pid}

/-- The first loop is the one of `futex_wakelike`. -/
theorem wakeLoop_eq_wakeTrace
    (items : List Pid)
    (woken : Nat)
    (table : FutexTable) :
    wakeLoop wakeMax bitset items woken table =
      (wakeTrace wakeMax bitset items woken table).map fun traced =>
        (traced.1, woken + traced.2.2.length) := by
  induction items generalizing woken table with
  | nil => rfl
  | cons task rest inductionHypothesis =>
    unfold wakeLoop wakeTrace
    split
    · rfl
    cases table.waits task with
    | none => rfl
    | some wait =>
      simp only [bind_eq_bind, bind_some]
      split
      · rw [inductionHypothesis]
        cases wakeTrace wakeMax bitset rest woken table <;> rfl
      · rw [inductionHypothesis]
        cases wakeTrace wakeMax bitset rest (woken + 1)
          (table.wakeWaiter task wait) with
        | none => rfl
        | some traced =>
          simp only [map_some, bind_some,
            Option.pure_def, length_cons]
          rw [Nat.add_assoc, Nat.add_comm 1]

theorem requeueLoop_eq_requeueTrace
    (rounds : Nat)
    (cursor : Option Pid)
    (requeued : Nat)
    (table : FutexTable) :
    requeueLoop futex futex2 rounds cursor requeued table =
      (requeueTrace futex futex2 rounds cursor table).map fun traced =>
        (traced.1, requeued + traced.2.length) := by
  induction rounds generalizing cursor requeued table with
  | zero => rfl
  | succ rounds inductionHypothesis =>
    cases cursor with
    | none => rfl
    | some task =>
      unfold requeueLoop requeueTrace
      cases table.futexes futex with
      | none => rfl
      | some first =>
        cases table.requeueWaiter futex futex2 task with
        | none => rfl
        | some next =>
          simp only [bind_eq_bind, bind_some,
            inductionHypothesis]
          cases requeueTrace futex futex2 rounds
            (nextInQueue first.queue task) next with
          | none => rfl
          | some traced =>
            simp only [map_some, bind_some,
              Option.pure_def, length_cons]
            rw [Nat.add_assoc, Nat.add_comm 1]

/-- The rest of the call, once it has both futexes. -/
private theorem afterGet
    {requeueMax : Nat}
    (table : FutexTable)
    (futex futex2 : FutexId)
    (rounds : Nat)
    (woken : List Pid) :
    ((table.futexes futex).bind fun first =>
        (requeueLoop futex futex2 requeueMax first.queue.head? 0 table).bind
          fun moved =>
            (moved.1.putUnlocked futex2).bind fun table =>
              (table.putUnlocked futex).bind fun last =>
                some
                  (last,
                    (.ok ((woken.length + moved.2) % dwordRange) :
                      Except Errno Nat))) =
      ((table.futexes futex).bind fun first =>
        (requeueTrace futex futex2 requeueMax first.queue.head? table).bind
          fun moved =>
            (moved.1.putUnlocked futex2).bind fun table =>
              (table.putUnlocked futex).bind fun last =>
                some
                  (last,
                    (.ok ((woken.length + moved.2.length) % dwordRange) :
                      Except Errno Nat),
                    WakelikeTrace.mk rounds woken moved.2)).map
        fun traced => (traced.1, traced.2.1) := by
  cases table.futexes futex with
  | none => rfl
  | some first =>
    simp only [bind_some, requeueLoop_eq_requeueTrace, Nat.zero_add]
    cases requeueTrace futex futex2 requeueMax first.queue.head? table with
    | none => rfl
    | some moved =>
      simp only [map_some, bind_some]
      cases moved.1.putUnlocked futex2 with
      | none => rfl
      | some one =>
        simp only [bind_some]
        cases one.putUnlocked futex <;> rfl

/-- The whole call is `futex_wakelike`. -/
theorem wakelike_eq_wakelikeTrace
    (table : FutexTable)
    (call : WakelikeCall) :
    table.wakelike call.op call.mem call.addr call.wakeMax call.requeueMax
        call.requeueAddr call.bitset call.allocated call.allocated2 =
      (table.wakelikeTrace call).map fun traced => (traced.1, traced.2.1) := by
  unfold wakelike wakelikeTrace
  cases table.getUnlocked call.mem call.addr call.allocated with
  | mk table id =>
    cases id with
    | none => rfl
    | some futex =>
      dsimp only
      cases table.futexes futex with
      | none => rfl
      | some first =>
        simp only [bind_eq_bind, bind_some,
          wakeLoop_eq_wakeTrace, Nat.zero_add]
        cases wakeTrace call.wakeMax call.bitset first.queue 0
          table with
        | none => rfl
        | some traced =>
          obtain ⟨woke, rounds, woken⟩ := traced
          simp only [map_some, bind_some]
          by_cases requeues : call.op = futexRequeue
          · simp only [if_pos requeues]
            cases woke.getUnlocked call.mem call.requeueAddr
              call.allocated2 with
            | mk both id2 =>
              cases id2 with
              | none =>
                dsimp only
                cases both.putUnlocked futex <;> rfl
              | some futex2 =>
                exact afterGet both futex futex2 rounds woken
          · simp only [if_neg requeues]
            cases woke.putUnlocked futex <;> rfl

theorem foldl_erase_take
    (queue : List Pid)
    (count : Nat) :
    (queue.take count).foldl List.erase queue = queue.drop count := by
  induction queue generalizing count with
  | nil => rw [take_nil, foldl_nil, drop_nil]
  | cons task rest inductionHypothesis =>
    cases count with
    | zero => rfl
    | succ count =>
      rw [take_succ_cons, foldl_cons, erase_cons_head,
        drop_succ_cons]
      exact inductionHypothesis count

/-- What the first loop leaves of the queues, and whom it has woken. -/
structure WakeTraceSpec
    (wakeMax bitset : Nat) (items : List Pid) (woken : Nat)
    (table last : FutexTable) (rounds : Nat) (log : List Pid) : Prop where
  isLog :
    log =
      (items.filter (table.matchesBitset bitset)).take (wakeMax - woken)
  few : rounds ≤ items.length
  allMatch :
    (∀ task ∈ items, table.matchesBitset bitset task = true) →
      rounds = log.length
  futexes :
    ∀ id,
      last.futexes id =
        (table.futexes id).map fun futex =>
          { futex with queue := log.foldl List.erase futex.queue }
  hash : last.hash = table.hash
  matching : ∀ bits, last.matchesBitset bits = table.matchesBitset bits

private theorem wakeTraceSpec_stop
    {items : List Pid}
    (nothing :
      (items.filter (table.matchesBitset bitset)).take (wakeMax - woken) =
        []) :
    WakeTraceSpec wakeMax bitset items woken table table 0 [] where
  isLog := nothing.symm
  few := Nat.zero_le _
  allMatch _ := rfl
  futexes id := by cases table.futexes id <;> rfl
  hash := rfl
  matching _ := rfl

/-- The first loop wakes the first of the waiters that match. -/
theorem wakeTrace_spec
    {items : List Pid}
    (run :
      wakeTrace wakeMax bitset items woken table =
        some (last, rounds, log)) :
    WakeTraceSpec wakeMax bitset items woken table last rounds log := by
  induction items generalizing table woken rounds log with
  | nil =>
    cases run
    exact wakeTraceSpec_stop (by rw [filter_nil, take_nil])
  | cons task rest inductionHypothesis =>
    unfold wakeTrace at run
    by_cases enough : wakeMax ≤ woken
    · rw [if_pos enough] at run
      cases run
      refine wakeTraceSpec_stop ?_
      rw [Nat.sub_eq_zero_of_le enough, take_zero]
    rw [if_neg enough] at run
    obtain ⟨wait, isWait, run⟩ := bind_eq_some_iff.mp run
    by_cases unmatched : wait.bitset &&& bitset = 0
    · rw [if_pos unmatched] at run
      obtain ⟨⟨after, before, earlier⟩, isRest, run⟩ :=
        bind_eq_some_iff.mp run
      cases run
      have notMatched : table.matchesBitset bitset task = false := by
        simp [matchesBitset, isWait, unmatched]
      obtain ⟨isLog, few, _, futexes, hash, matching⟩ :=
        inductionHypothesis isRest
      refine ⟨?_, Nat.succ_le_succ few, fun all => ?_, futexes, hash,
        matching⟩
      · rw [isLog, filter_cons_of_neg (Bool.not_eq_true _ ▸ notMatched)]
      · exact (Bool.false_ne_true
          (notMatched.symm.trans (all task mem_cons_self))).elim
    · rw [if_neg unmatched] at run
      obtain ⟨⟨after, before, earlier⟩, isRest, run⟩ :=
        bind_eq_some_iff.mp run
      cases run
      have isMatched : table.matchesBitset bitset task = true := by
        simp [matchesBitset, isWait, unmatched]
      have sameMatches :
          ∀ bits,
            (table.wakeWaiter task wait).matchesBitset bits =
              table.matchesBitset bits :=
        fun bits => funext (matchesBitset_wakeWaiter isWait bits)
      obtain ⟨isLog, few, allMatch, futexes, hash, matching⟩ :=
        inductionHypothesis isRest
      have more : wakeMax - woken = (wakeMax - (woken + 1)) + 1 := by
        omega
      refine ⟨?_, Nat.succ_le_succ few, fun all => ?_, fun id => ?_, hash,
        fun bits => (matching bits).trans (sameMatches bits)⟩
      · rw [isLog, sameMatches, filter_cons_of_pos isMatched, more,
          take_succ_cons]
      · rw [length_cons, allMatch]
        intro other member
        rw [sameMatches]
        exact all other (mem_cons_of_mem _ member)
      · rw [futexes id]
        show ((table.futexes id).map _).map _ = _
        rw [Option.map_map]
        rfl

theorem requeueWaiter_queue
    (run : table.requeueWaiter futex futex2 task = some next)
    (id : FutexId) :
    (next.futexes id).map Futex.queue =
      (table.futexes id).map fun old =>
        if id = futex2 then old.queue.erase task ++ [task]
        else old.queue.erase task := by
  unfold requeueWaiter at run
  obtain ⟨wait, _, run⟩ := bind_eq_some_iff.mp run
  obtain ⟨first, _, run⟩ := bind_eq_some_iff.mp run
  split at run
  · cases run
  cases run
  show (((((table.futexes id).map _).map _).map _).map _).map _ = _
  simp only [Option.map_map]
  cases table.futexes id with
  | none => rfl
  | some old =>
    refine congrArg some ?_
    simp only [Function.comp_apply]
    split <;> split <;> rfl

theorem nextInQueue_head
    (task : Pid)
    (rest : List Pid) :
    nextInQueue (task :: rest) task = rest.head? := by
  rw [nextInQueue, dropWhile_cons_of_neg (by simp), tail_cons]

/-- The queue of a futex, or nothing where there is none. -/
def queueOf (table : FutexTable) (id : FutexId) : Option (List Pid) :=
  (table.futexes id).map Futex.queue

/-- One round of the second loop at the head of the queue. -/
private theorem requeueTrace_head
    {rest : List Pid}
    (isQueue : table.queueOf futex = some (task :: rest))
    (run :
      requeueTrace futex futex2 (rounds + 1) (some task) table =
        some (last, log)) :
    ∃ next later,
      log = task :: later ∧
        requeueTrace futex futex2 rounds rest.head? next =
            some (last, later) ∧
          next.queueOf futex =
            some (if futex = futex2 then rest ++ [task] else rest) := by
  obtain ⟨first, isFirst, queue⟩ := map_eq_some_iff.mp isQueue
  unfold requeueTrace at run
  obtain ⟨found, isFound, run⟩ := bind_eq_some_iff.mp run
  cases isFirst.symm.trans isFound
  obtain ⟨next, moved, run⟩ := bind_eq_some_iff.mp run
  obtain ⟨⟨_, later⟩, isLater, run⟩ := bind_eq_some_iff.mp run
  cases run
  rw [queue, nextInQueue_head] at isLater
  refine ⟨next, later, rfl, isLater, ?_⟩
  rw [queueOf, requeueWaiter_queue moved, isFirst, map_some, queue,
    erase_cons_head]

variable {queue : List Pid}

/-- Between two futexes the loop moves the first waiters, each once. -/
theorem requeueTrace_apart
    (apart : futex ≠ futex2)
    (isQueue : table.queueOf futex = some queue)
    (run :
      requeueTrace futex futex2 rounds queue.head? table =
        some (last, log)) :
    log = queue.take rounds := by
  induction rounds generalizing table queue log with
  | zero =>
    cases run
    rfl
  | succ rounds inductionHypothesis =>
    cases queue with
    | nil =>
      cases run
      rfl
    | cons task rest =>
      obtain ⟨next, later, rfl, isLater, isNext⟩ :=
        requeueTrace_head isQueue run
      rw [if_neg apart] at isNext
      rw [take_succ_cons, inductionHypothesis isNext isLater]

/--
On one futex the loop moves the first waiters, each once, as long as it stops
before it comes to a waiter that it has moved.
-/
theorem requeueTrace_once
    {front moved : List Pid}
    (isQueue : table.queueOf futex = some (front ++ moved))
    (few : rounds ≤ front.length)
    (run :
      requeueTrace futex futex rounds (front ++ moved).head? table =
        some (last, log)) :
    log = front.take rounds := by
  induction rounds generalizing table front moved log with
  | zero =>
    cases run
    rfl
  | succ rounds inductionHypothesis =>
    cases front with
    | nil => exact absurd few (Nat.not_succ_le_zero _)
    | cons task rest =>
      have fewer : rounds ≤ rest.length := Nat.le_of_succ_le_succ few
      obtain ⟨next, later, rfl, isLater, isNext⟩ :=
        requeueTrace_head isQueue run
      rw [if_pos rfl] at isNext
      change next.queueOf futex = some ((rest ++ moved) ++ [task])
        at isNext
      rw [append_assoc] at isNext
      rw [take_succ_cons]
      refine congrArg (task :: ·) ?_
      cases rest with
      | nil =>
        cases Nat.le_zero.mp fewer
        cases isLater
        rfl
      | cons second others =>
        exact inductionHypothesis isNext fewer isLater

/-- With one waiter the loop ends after it has moved it. -/
theorem requeueTrace_single
    (isQueue : table.queueOf futex = some queue)
    (few : queue.length ≤ 1)
    (run :
      requeueTrace futex futex rounds queue.head? table =
        some (last, log)) :
    log = queue.take rounds := by
  cases rounds with
  | zero =>
    cases run
    rfl
  | succ rounds =>
    cases queue with
    | nil =>
      cases run
      rfl
    | cons task rest =>
      cases rest with
      | nil =>
        obtain ⟨next, later, rfl, isLater, _⟩ :=
          requeueTrace_head isQueue run
        rw [take_succ_cons, take_nil]
        cases rounds <;> cases isLater <;> rfl
      | cons second others =>
        exact absurd few (by simp)

/-- With two waiters or more it goes on in a circle up to its limit. -/
theorem requeueTrace_circles
    (isQueue : table.queueOf futex = some queue)
    (several : 2 ≤ queue.length)
    (run :
      requeueTrace futex futex rounds queue.head? table =
        some (last, log)) :
    log.length = rounds := by
  induction rounds generalizing table queue log with
  | zero =>
    cases run
    rfl
  | succ rounds inductionHypothesis =>
    obtain _ | ⟨task, _ | ⟨second, rest⟩⟩ := queue
    · exact absurd several (Nat.not_succ_le_zero 1)
    · exact absurd several (Nat.not_succ_le_self 1)
    obtain ⟨next, later, rfl, isLater, isNext⟩ :=
      requeueTrace_head isQueue run
    rw [if_pos rfl] at isNext
    rw [length_cons]
    refine congrArg (· + 1) (inductionHypothesis isNext ?_ isLater)
    rw [length_append, length_cons, length_singleton]
    omega

end FutexTable

end GuestKernel
