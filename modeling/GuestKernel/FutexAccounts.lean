import GuestKernel.Futex
import GuestKernel.Holders
import GuestKernel.Machine
import Mathlib.Data.Fintype.Card

namespace GuestKernel
open List Option Function

/-!
# Accounts of the futexes

A waiter that has not been woken is queued exactly on the futex its wait
refers to, and a futex counts the waits that refer to it and the references of
the running operation.  `Accounted` carries these references as `held`, so
that every step of an operation has its own law; between operations `held` is
zero.
-/

namespace FutexTable

/-- The futex a waiter that has not been woken waits for. -/
def awaits (table : FutexTable) (task : Pid) : Option FutexId :=
  (table.waits task).bind fun wait =>
    if wait.cond then none else some wait.futex

/-- The futex a sleeping waiter has a reference to. -/
def refersTo (table : FutexTable) (task : Pid) : Option FutexId :=
  (table.waits task).map FutexWait.futex

/-- How many waits refer to a futex. -/
def waiters (table : FutexTable) (id : FutexId) : Nat :=
  holders table.refersTo Finset.univ id

/-- One more reference of the running operation. -/
def hold (held : FutexId → Nat) (id : FutexId) : FutexId → Nat :=
  fun other => held other + if other = id then 1 else 0

@[simp] theorem hold_self (held : FutexId → Nat) (id : FutexId) :
    hold held id id = held id + 1 := by
  simp [hold]

theorem hold_of_ne
    {held : FutexId → Nat}
    {id other : FutexId}
    (different : other ≠ id) :
    hold held id other = held other := by
  simp [hold, different]

/--
What holds of the futexes while an operation has these references, and at
every release of the lock when it has none.
-/
structure Accounted (table : FutexTable) (held : FutexId → Nat) : Prop where
  queued :
    ∀ id futex, table.futexes id = some futex →
      ∀ task,
        futex.queue.count task =
          if table.awaits task = some id then 1 else 0
  counted :
    ∀ id futex, table.futexes id = some futex →
      futex.refcount = table.waiters id + held id
  referred :
    ∀ id futex, table.futexes id = some futex →
      0 < table.waiters id + held id
  dangling :
    ∀ id, table.futexes id = none → table.waiters id + held id = 0
  hashed :
    ∀ bucket id,
      id ∈ table.hash bucket ↔
        ∃ futex,
          table.futexes id = some futex ∧
            futexHash futex.mem futex.addr = bucket
  chained : ∀ bucket, (table.hash bucket).Nodup
  unique :
    ∀ {id other futex otherFutex},
      table.futexes id = some futex →
      table.futexes other = some otherFutex →
      futex.mem = otherFutex.mem → futex.addr = otherFutex.addr →
      id = other

variable
  {table : FutexTable}
  {held : FutexId → Nat}
  {task : Pid}
  {id : FutexId}

theorem modify_futexes
    (table : FutexTable)
    (id other : FutexId)
    (change : Futex → Futex) :
    (table.modify id change).futexes other =
      (table.futexes other).map fun futex =>
        if other = id then change futex else futex := by
  rfl

theorem waiters_le (table : FutexTable) (id : FutexId) :
    table.waiters id ≤ maxPid + 1 := by
  have bound := Finset.card_filter_le (Finset.univ : Finset Pid)
    fun task => table.refersTo task = some id
  rwa [Finset.card_univ, Fintype.card_fin] at bound

theorem refersTo_of_awaits
    (waiting : table.awaits task = some id) :
    table.refersTo task = some id := by
  unfold awaits at waiting
  obtain ⟨wait, isWait, notWoken⟩ := bind_eq_some_iff.mp waiting
  split at notWoken
  · cases notWoken
  · cases notWoken
    simp [refersTo, isWait]

theorem waiters_pos
    (refers : table.refersTo task = some id) :
    0 < table.waiters id :=
  holders_pos (Finset.mem_univ task) refers

/-- Changing one wait trades the old reference for the new one. -/
theorem waiters_setWait
    (table : FutexTable)
    (task : Pid)
    (wait : Option FutexWait)
    (id : FutexId) :
    (table.setWait task wait).waiters id +
        (if table.refersTo task = some id then 1 else 0) =
      table.waiters id +
        (if wait.map FutexWait.futex = some id then 1 else 0) := by
  have updated :
      (table.setWait task wait).refersTo =
        update table.refersTo task (wait.map FutexWait.futex) := by
    funext other
    by_cases same : other = task
    · subst same
      simp [refersTo, setWait]
    · simp [refersTo, setWait, same]
  unfold waiters
  rw [updated]
  exact holders_update_balance table.refersTo (Finset.mem_univ task) _ id

theorem awaits_setWait
    (table : FutexTable)
    (task other : Pid)
    (wait : Option FutexWait) :
    (table.setWait task wait).awaits other =
      if other = task then
        wait.bind fun wait => if wait.cond then none else some wait.futex
      else
        table.awaits other := by
  by_cases same : other = task
  · subst same
    simp [awaits, setWait]
  · simp [awaits, setWait, same]

theorem waiters_small (table : FutexTable) (id : FutexId) :
    table.waiters id + 10 < dwordRange := by
  have range : maxPid + 1 + 10 < dwordRange := by
    decide
  have bound := table.waiters_le id
  omega

variable {futex : Futex} {nextHeld : FutexId → Nat} {next : FutexTable}

/--
Changing futexes in place, without moving them: what is left to check is that
the queues and the counts follow.
-/
theorem Accounted.change
    (accounted : table.Accounted held)
    (change : FutexId → Futex → Futex)
    (changed : ∀ id, next.futexes id = (table.futexes id).map (change id))
    (sameHash : next.hash = table.hash)
    (samePlace :
      ∀ id futex,
        (change id futex).mem = futex.mem ∧
          (change id futex).addr = futex.addr)
    (queued :
      ∀ id futex, table.futexes id = some futex →
        ∀ task,
          (change id futex).queue.count task =
            if next.awaits task = some id then 1 else 0)
    (counted :
      ∀ id futex, table.futexes id = some futex →
        (change id futex).refcount = next.waiters id + nextHeld id ∧
          0 < next.waiters id + nextHeld id)
    (dangling :
      ∀ id, table.futexes id = none →
        next.waiters id + nextHeld id = 0) :
    next.Accounted nextHeld := by
  have before :
      ∀ {id futex},
        next.futexes id = some futex →
        ∃ old, table.futexes id = some old ∧ change id old = futex := by
    intro id futex isFutex
    rw [changed] at isFutex
    exact map_eq_some_iff.mp isFutex
  constructor
  case queued =>
    intro id futex isFutex task
    obtain ⟨old, isOld, rfl⟩ := before isFutex
    exact queued id old isOld task
  case counted =>
    intro id futex isFutex
    obtain ⟨old, isOld, rfl⟩ := before isFutex
    exact (counted id old isOld).1
  case referred =>
    intro id futex isFutex
    obtain ⟨old, isOld, rfl⟩ := before isFutex
    exact (counted id old isOld).2
  case dangling =>
    intro id isNone
    rw [changed] at isNone
    exact dangling id (map_eq_none_iff.mp isNone)
  case hashed =>
    intro bucket id
    rw [sameHash, accounted.hashed]
    constructor
    · rintro ⟨old, isOld, inBucket⟩
      refine ⟨change id old, by rw [changed, isOld]; rfl, ?_⟩
      rwa [(samePlace id old).1, (samePlace id old).2]
    · rintro ⟨futex, isFutex, inBucket⟩
      obtain ⟨old, isOld, rfl⟩ := before isFutex
      rw [(samePlace id old).1, (samePlace id old).2] at inBucket
      exact ⟨old, isOld, inBucket⟩
  case chained =>
    rw [sameHash]
    exact accounted.chained
  case unique =>
    intro id other futex otherFutex isFutex isOther sameMem sameAddr
    obtain ⟨old, isOld, rfl⟩ := before isFutex
    obtain ⟨otherOld, isOtherOld, rfl⟩ := before isOther
    rw [(samePlace id old).1, (samePlace other otherOld).1] at sameMem
    rw [(samePlace id old).2, (samePlace other otherOld).2] at sameAddr
    exact accounted.unique isOld isOtherOld sameMem sameAddr

/-- Retaining a futex adds a reference of the operation. -/
theorem Accounted.retain
    (accounted : table.Accounted held)
    (isFutex : table.futexes id = some futex)
    (small : held id ≤ 8) :
    (table.retain id).Accounted (hold held id) := by
  apply accounted.change
    (fun other futex =>
      if other = id then
        { futex with refcount := incremented futex.refcount }
      else futex)
  · intro other
    rfl
  · rfl
  · intro other futex
    split <;> exact ⟨rfl, rfl⟩
  · intro other old isOld task
    have queued := accounted.queued other old isOld task
    split <;> exact queued
  · intro other old isOld
    have counted := accounted.counted other old isOld
    have sameWaiters : (table.retain id).waiters other = table.waiters other :=
      rfl
    rw [sameWaiters]
    by_cases same : other = id
    · subst same
      have range := table.waiters_small other
      rw [if_pos rfl, incremented_of_small (by omega), hold_self]
      show old.refcount + 1 = _ ∧ _
      omega
    · have referred := accounted.referred other old isOld
      rw [if_neg same, hold_of_ne same]
      omega
  · intro other isNone
    have same : other ≠ id := by
      rintro rfl
      cases isNone.symm.trans isFutex
    rw [hold_of_ne same]
    exact accounted.dangling other isNone

/-- Put a new futex in the table and at the front of its bucket. -/
def allocate
    (table : FutexTable) (id : FutexId) (mem addr : Nat) : FutexTable :=
  { table with
    futexes := update table.futexes id
      (some { refcount := 1, mem := mem, addr := addr, queue := [] })
    hash := update table.hash (futexHash mem addr)
      (id :: table.hash (futexHash mem addr)) }

/-- A futex that no search finds is allocated, with the operation's reference. -/
theorem Accounted.allocate
    {mem addr : Nat}
    (accounted : table.Accounted held)
    (isNone : table.futexes id = none)
    (notFound :
      ∀ other ∈ table.hash (futexHash mem addr),
        ¬ table.isAt mem addr other = true) :
    (table.allocate id mem addr).Accounted (hold held id) := by
  have noRefs := accounted.dangling id isNone
  have cases :
      ∀ {other futex},
        (table.allocate id mem addr).futexes other = some futex →
        (other = id ∧
          futex =
            { refcount := 1, mem := mem, addr := addr, queue := [] }) ∨
          (other ≠ id ∧ table.futexes other = some futex) := by
    intro other futex isFutex
    exact eq_some_of_update isFutex
  have elsewhere :
      ∀ {other futex},
        table.futexes other = some futex →
        futex.mem = mem → futex.addr = addr → False := by
    intro other futex isFutex sameMem sameAddr
    have inBucket := (accounted.hashed (futexHash mem addr) other).mpr
      ⟨futex, isFutex, by rw [sameMem, sameAddr]⟩
    apply notFound other inBucket
    simp [isAt, isFutex, sameMem, sameAddr]
  have unhashed : ∀ bucket, id ∉ table.hash bucket := by
    intro bucket inBucket
    obtain ⟨futex, isFutex, _⟩ := (accounted.hashed bucket id).mp inBucket
    cases isNone.symm.trans isFutex
  constructor
  case queued =>
    intro other futex isFutex task
    rcases cases isFutex with ⟨rfl, rfl⟩ | ⟨_, isOld⟩
    · rw [if_neg]
      · rfl
      · intro waiting
        have positive := waiters_pos (refersTo_of_awaits waiting)
        have sameWaiters :
            (table.allocate other mem addr).waiters other =
              table.waiters other := rfl
        omega
    · exact accounted.queued other futex isOld task
  case counted =>
    intro other futex isFutex
    show futex.refcount = table.waiters other + hold held id other
    rcases cases isFutex with ⟨rfl, rfl⟩ | ⟨different, isOld⟩
    · show 1 = _
      rw [hold_self]
      omega
    · rw [hold_of_ne different]
      exact accounted.counted other futex isOld
  case referred =>
    intro other futex isFutex
    show 0 < table.waiters other + hold held id other
    rcases cases isFutex with ⟨rfl, rfl⟩ | ⟨different, isOld⟩
    · rw [hold_self]
      omega
    · rw [hold_of_ne different]
      exact accounted.referred other futex isOld
  case dangling =>
    intro other otherNone
    show table.waiters other + hold held id other = 0
    have different : other ≠ id := by
      rintro rfl
      simp [FutexTable.allocate] at otherNone
    simp only [FutexTable.allocate, update_of_ne different]
      at otherNone
    rw [hold_of_ne different]
    exact accounted.dangling other otherNone
  case hashed =>
    intro bucket other
    by_cases same : other = id
    · subst same
      have isNew :
          (table.allocate other mem addr).futexes other =
            some { refcount := 1, mem := mem, addr := addr, queue := [] } :=
        update_self ..
      by_cases here : bucket = futexHash mem addr
      · subst here
        simp [FutexTable.allocate]
      · simp [FutexTable.allocate, here, unhashed bucket, Ne.symm here]
    · rw [show (table.allocate id mem addr).futexes other =
        table.futexes other from update_of_ne same ..,
        ← accounted.hashed]
      by_cases here : bucket = futexHash mem addr
      · subst here
        simp [FutexTable.allocate, same]
      · simp [FutexTable.allocate, here]
  case chained =>
    intro bucket
    by_cases here : bucket = futexHash mem addr
    · subst here
      simpa [FutexTable.allocate] using
        ⟨unhashed _, accounted.chained (futexHash mem addr)⟩
    · simpa [FutexTable.allocate, here] using accounted.chained bucket
  case unique =>
    intro one other futex otherFutex isFutex isOther sameMem sameAddr
    rcases cases isFutex with ⟨rfl, rfl⟩ | ⟨_, isOld⟩
    · rcases cases isOther with ⟨rfl, rfl⟩ | ⟨_, isOtherOld⟩
      · rfl
      · exact (elsewhere isOtherOld sameMem.symm sameAddr.symm).elim
    · rcases cases isOther with ⟨rfl, rfl⟩ | ⟨_, isOtherOld⟩
      · exact (elsewhere isOld sameMem sameAddr).elim
      · exact accounted.unique isOld isOtherOld sameMem sameAddr

/-- Getting a futex adds a reference of the operation, if there is memory. -/
theorem Accounted.get
    {mem addr : Nat}
    {allocated : Option FutexId}
    (accounted : table.Accounted held)
    (small : ∀ id, held id ≤ 8)
    (fresh : ∀ id ∈ allocated, table.futexes id = none) :
    table.getUnlocked mem addr allocated = (table, none) ∨
      ∃ next id,
        table.getUnlocked mem addr allocated = (next, some id) ∧
          next.Accounted (hold held id) ∧ next.waits = table.waits ∧
          (∃ futex, next.futexes id = some futex) ∧
          ∀ other,
            some other ≠ allocated → table.futexes other = none →
            next.futexes other = none := by
  unfold getUnlocked
  simp only
  cases found : (table.hash (futexHash mem addr)).find?
      (table.isAt mem addr) with
  | some id =>
    have matching := List.find?_some found
    obtain ⟨futex, isFutex, _⟩ := (Option.any_eq_true ..).mp matching
    refine .inr ⟨_, id, rfl, accounted.retain isFutex (small id), rfl,
      ⟨_, by rw [FutexTable.retain, modify_futexes, isFutex]; rfl⟩, ?_⟩
    intro other _ isNone
    rw [FutexTable.retain, modify_futexes, isNone]
    rfl
  | none =>
    cases allocated with
    | none =>
      exact .inl rfl
    | some id =>
      refine .inr ⟨table.allocate id mem addr, id, rfl,
        accounted.allocate (fresh id rfl) (List.find?_eq_none.mp found),
        rfl, ⟨_, update_self ..⟩, ?_⟩
      intro other different isNone
      have notId : other ≠ id := fun same => different (same ▸ rfl)
      exact (update_of_ne notId ..).trans isNone

/-- A futex without waiters is freed by the last reference. -/
theorem Accounted.free
    (accounted : table.Accounted (hold held id))
    (isFutex : table.futexes id = some futex)
    (noWaiters : table.waiters id = 0)
    (last : held id = 0) :
    (table.free id futex).Accounted held := by
  have cases :
      ∀ {other otherFutex},
        (table.free id futex).futexes other = some otherFutex →
        other ≠ id ∧ table.futexes other = some otherFutex := by
    intro other otherFutex isOther
    exact ⟨ne_of_update_none isOther, eq_some_of_update_none isOther⟩
  constructor
  case queued =>
    intro other otherFutex isOther
    exact accounted.queued other otherFutex (cases isOther).2
  case counted =>
    intro other otherFutex isOther
    obtain ⟨different, isOld⟩ := cases isOther
    have counted := accounted.counted other otherFutex isOld
    rwa [hold_of_ne different] at counted
  case referred =>
    intro other otherFutex isOther
    obtain ⟨different, isOld⟩ := cases isOther
    have referred := accounted.referred other otherFutex isOld
    rwa [hold_of_ne different] at referred
  case dangling =>
    intro other isNone
    show table.waiters other + held other = 0
    by_cases same : other = id
    · subst same
      rw [noWaiters, last]
    · simp only [FutexTable.free, update_of_ne same] at isNone
      have dangling := accounted.dangling other isNone
      rwa [hold_of_ne same] at dangling
  case hashed =>
    intro bucket other
    have chained := accounted.chained (futexHash futex.mem futex.addr)
    have hashed := accounted.hashed bucket other
    by_cases same : other = id
    · subst same
      rw [show (table.free other futex).futexes other = none from
        update_self ..]
      by_cases here : bucket = futexHash futex.mem futex.addr
      · subst here
        simpa [FutexTable.free] using chained.not_mem_erase
      · simp [FutexTable.free, here, hashed, isFutex, Ne.symm here]
    · rw [show (table.free id futex).futexes other = table.futexes other from
        update_of_ne same .., ← hashed]
      by_cases here : bucket = futexHash futex.mem futex.addr
      · subst here
        simp [FutexTable.free, mem_erase_of_ne same]
      · simp [FutexTable.free, here]
  case chained =>
    intro bucket
    by_cases here : bucket = futexHash futex.mem futex.addr
    · subst here
      simpa [FutexTable.free] using (accounted.chained _).erase id
    · simpa [FutexTable.free, here] using accounted.chained bucket
  case unique =>
    intro one other oneFutex otherFutex isOne isOther
    exact accounted.unique (cases isOne).2 (cases isOther).2

theorem putUnlocked_last
    (isFutex : table.futexes id = some futex)
    (last : decremented futex.refcount = 0)
    (empty : futex.queue = []) :
    table.putUnlocked id = some (table.free id futex) := by
  unfold putUnlocked
  rw [isFutex, bind_eq_bind, bind_some, if_pos last,
    if_pos empty]
  rfl

theorem putUnlocked_not_last
    (isFutex : table.futexes id = some futex)
    (notLast : decremented futex.refcount ≠ 0) :
    table.putUnlocked id = some (table.unretain id) := by
  unfold putUnlocked
  rw [isFutex, bind_eq_bind, bind_some, if_neg notLast]
  rfl

/--
Putting a futex never fails: the last reference finds the queue empty.  It
takes one reference of the operation.
-/
theorem Accounted.put
    (accounted : table.Accounted (hold held id))
    (small : held id ≤ 8) :
    ∃ next,
      table.putUnlocked id = some next ∧ next.Accounted held ∧
        next.waits = table.waits := by
  have mine := hold_self held id
  cases isFutex : table.futexes id with
  | none =>
    have dangling := accounted.dangling id isFutex
    omega
  | some futex =>
    have counted := accounted.counted id futex isFutex
    have range := table.waiters_small id
    have less : decremented futex.refcount = table.waiters id + held id := by
      rw [decremented_of_pos (by omega) (by omega)]
      omega
    by_cases last : decremented futex.refcount = 0
    · have noWaiters : table.waiters id = 0 := by
        omega
      have empty : futex.queue = [] := by
        apply eq_nil_iff_forall_not_mem.mpr
        intro task member
        have queued := accounted.queued id futex isFutex task
        have positive := count_pos_iff.mpr member
        split at queued
        · have waiting :=
            waiters_pos (refersTo_of_awaits ‹_›)
          omega
        · omega
      exact ⟨table.free id futex, putUnlocked_last isFutex last empty,
        accounted.free isFutex noWaiters (by omega), rfl⟩
    · refine ⟨table.unretain id, putUnlocked_not_last isFutex last, ?_, rfl⟩
      apply accounted.change
        (fun other futex =>
          if other = id then
            { futex with refcount := decremented futex.refcount }
          else futex)
      · intro other
        rfl
      · rfl
      · intro other old
        split <;> exact ⟨rfl, rfl⟩
      · intro other old isOld task
        have queued := accounted.queued other old isOld task
        split <;> exact queued
      · intro other old isOld
        show _ = table.waiters other + held other ∧
          0 < table.waiters other + held other
        by_cases same : other = id
        · subst same
          cases isFutex.symm.trans isOld
          rw [if_pos rfl]
          exact ⟨less, by omega⟩
        · have oldCounted := accounted.counted other old isOld
          have referred := accounted.referred other old isOld
          rw [hold_of_ne same] at oldCounted referred
          rw [if_neg same]
          exact ⟨oldCounted, referred⟩
      · intro other isNone
        show table.waiters other + held other = 0
        have dangling := accounted.dangling other isNone
        have le : held other ≤ hold held id other :=
          Nat.le_add_right _ _
        omega

theorem Accounted.exists_of_held
    (accounted : table.Accounted held)
    (holds : 0 < held id) :
    ∃ futex, table.futexes id = some futex := by
  cases isFutex : table.futexes id with
  | none =>
    have dangling := accounted.dangling id isFutex
    omega
  | some futex =>
    exact ⟨futex, rfl⟩

/-- The futex a wait that has not been woken waits for. -/
def awaited (wait : Option FutexWait) : Option FutexId :=
  wait.bind fun wait => if wait.cond then none else some wait.futex

/-- The queue of a futex after a waiter left its queue and went to `target`. -/
def requeued
    (futex : Futex)
    (task : Pid)
    (target : Option FutexId)
    (id : FutexId) : List Pid :=
  futex.queue.erase task ++ if target = some id then [task] else []

/--
Every change of one wait: the waiter leaves the queue it is in, joins the one
it waits for now, and the counts follow.
-/
theorem Accounted.rewait
    {nextHeld : FutexId → Nat}
    (accounted : table.Accounted held)
    (task : Pid)
    (wait : Option FutexWait)
    (count : FutexId → Nat → Nat)
    (waits : next.waits = (table.setWait task wait).waits)
    (sameHash : next.hash = table.hash)
    (stillNone :
      ∀ id, table.futexes id = none → next.futexes id = none)
    (changed :
      ∀ id futex, table.futexes id = some futex →
        next.futexes id =
          some { futex with
            refcount := count id futex.refcount
            queue := requeued futex task (awaited wait) id })
    (counted :
      ∀ id futex, table.futexes id = some futex →
        count id futex.refcount = next.waiters id + nextHeld id ∧
          0 < next.waiters id + nextHeld id)
    (dangling :
      ∀ id, table.futexes id = none →
        next.waiters id + nextHeld id = 0) :
    next.Accounted nextHeld := by
  apply accounted.change
    (fun id futex =>
      { futex with
        refcount := count id futex.refcount
        queue := requeued futex task (awaited wait) id })
    _ sameHash (fun _ _ => ⟨rfl, rfl⟩) _ counted dangling
  · intro id
    cases isFutex : table.futexes id with
    | none =>
      exact stillNone id isFutex
    | some futex =>
      exact changed id futex isFutex
  · intro id futex isFutex other
    have queued := accounted.queued id futex isFutex
    have nextAwaits :
        next.awaits other =
          if other = task then awaited wait else table.awaits other :=
      calc
        next.awaits other = (table.setWait task wait).awaits other := by
          simp only [awaits, waits]
        _ = _ := awaits_setWait table task other wait
    rw [nextAwaits]
    show (requeued futex task (awaited wait) id).count other = _
    rw [requeued, count_append]
    by_cases same : other = task
    · subst same
      have once : futex.queue.count other ≤ 1 := by
        rw [queued other]
        split <;> omega
      rw [count_erase_self, if_pos rfl]
      by_cases here : awaited wait = some id
      · rw [if_pos here, if_pos here, count_singleton_self]
        omega
      · rw [if_neg here, if_neg here, count_nil]
        omega
    · rw [count_erase_of_ne same, queued other, if_neg same]
      have notAdded :
          (if awaited wait = some id then [task] else []).count other = 0 := by
        split
        · exact count_eq_zero.mpr fun member =>
            same (mem_singleton.mp member)
        · rfl
      omega

theorem Accounted.not_queued
    (accounted : table.Accounted held)
    (isFutex : table.futexes id = some futex)
    (notAwaiting : table.awaits task ≠ some id) :
    task ∉ futex.queue := by
  have queued := accounted.queued id futex isFutex task
  rw [if_neg notAwaiting] at queued
  exact count_eq_zero.mp queued

/-- Going to sleep turns the reference of the operation into the waiter's. -/
theorem Accounted.sleep
    {bitset : Nat}
    (accounted : table.Accounted (hold held id))
    (awake : table.waits task = none) :
    ((table.setWait task
      (some { cond := false, futex := id, bitset := bitset })).enqueue
        id task).Accounted held := by
  have balance := waiters_setWait table task
    (some { cond := false, futex := id, bitset := bitset })
  have noReference : table.refersTo task = none := by
    simp [refersTo, awake]
  have moved :
      ∀ other,
        (table.setWait task
          (some { cond := false, futex := id, bitset := bitset })).waiters
            other + held other =
          table.waiters other + hold held id other := by
    intro other
    have balanced := balance other
    simp only [noReference, map_some, some.injEq] at balanced
    by_cases same : other = id
    · subst same
      simp at balanced
      rw [hold_self]
      omega
    · simp [Ne.symm same] at balanced
      rw [hold_of_ne same, balanced]
  apply accounted.rewait task
    (some { cond := false, futex := id, bitset := bitset })
    (fun _ count => count)
  case waits =>
    rfl
  case sameHash =>
    rfl
  case stillNone =>
    intro other isNone
    show ((table.futexes other).map _) = none
    rw [isNone, map_none]
  case changed =>
    intro other futex isFutex
    have notAwaiting : table.awaits task ≠ some other := by
      simp [awaits, awake]
    have absent := accounted.not_queued isFutex notAwaiting
    show ((table.futexes other).map _) = _
    rw [isFutex, map_some, requeued, erase_of_not_mem absent]
    by_cases same : other = id
    · simp [awaited, same]
    · simp [awaited, same, Ne.symm same]
  case counted =>
    intro other futex isFutex
    have balanced := moved other
    have counted := accounted.counted other futex isFutex
    have referred := accounted.referred other futex isFutex
    show futex.refcount = _ + _ ∧ 0 < _ + _
    exact ⟨counted.trans balanced.symm, referred.trans_eq balanced.symm⟩
  case dangling =>
    intro other isNone
    exact (moved other).trans (accounted.dangling other isNone)

/--
Leaving the queue for a wait with the same futex, or for none: the reference
of the waiter stays or becomes the operation's.
-/
theorem Accounted.leave
    (accounted : table.Accounted held)
    (task : Pid)
    (wait : Option FutexWait)
    (notAwaiting : awaited wait = none)
    (moved :
      ∀ id,
        (table.setWait task wait).waiters id + nextHeld id =
          table.waiters id + held id) :
    ((table.unlink task).setWait task wait).Accounted nextHeld := by
  apply accounted.rewait task wait (fun _ count => count)
  case waits =>
    rfl
  case sameHash =>
    rfl
  case stillNone =>
    intro id isNone
    show ((table.futexes id).map _) = none
    rw [isNone, map_none]
  case changed =>
    intro id futex isFutex
    show ((table.futexes id).map _) = _
    rw [isFutex, map_some, requeued, notAwaiting]
    simp
  case counted =>
    intro id futex isFutex
    have balanced := moved id
    have counted := accounted.counted id futex isFutex
    have referred := accounted.referred id futex isFutex
    show futex.refcount = _ + _ ∧ 0 < _ + _
    exact ⟨counted.trans balanced.symm, referred.trans_eq balanced.symm⟩
  case dangling =>
    intro id isNone
    exact (moved id).trans (accounted.dangling id isNone)

/-- A waiter that runs again hands its reference to the operation. -/
theorem Accounted.wakeUp
    {wait : FutexWait}
    (accounted : table.Accounted held)
    (isWait : table.waits task = some wait) :
    ((table.unlink task).setWait task none).Accounted
      (hold held wait.futex) := by
  apply accounted.leave task none rfl
  intro id
  have balanced := waiters_setWait table task none id
  have reference : table.refersTo task = some wait.futex := by
    simp [refersTo, isWait]
  simp only [reference, map_none, reduceCtorEq, ↓reduceIte,
    some.injEq] at balanced
  by_cases same : id = wait.futex
  · subst same
    simp only [↓reduceIte] at balanced
    rw [hold_self]
    omega
  · simp only [Ne.symm same, ↓reduceIte] at balanced
    rw [hold_of_ne same]
    omega

theorem Accounted.wakeWaiter
    {wait : FutexWait}
    (accounted : table.Accounted held)
    (isWait : table.waits task = some wait) :
    (table.wakeWaiter task wait).Accounted held := by
  apply accounted.leave task (some { wait with cond := true }) rfl
  intro id
  have balanced :=
    waiters_setWait table task (some { wait with cond := true }) id
  have reference : table.refersTo task = some wait.futex := by
    simp [refersTo, isWait]
  simp only [reference, map_some] at balanced
  omega

/-- Reading a futex after a waiter was moved to another queue. -/
theorem unlink_enqueue_futexes
    (table : FutexTable)
    (target id : FutexId)
    (task : Pid) :
    ((table.unlink task).enqueue target task).futexes id =
      (table.futexes id).map fun futex =>
        { futex with queue := requeued futex task (some target) id } := by
  show ((table.futexes id).map _).map _ = _
  cases table.futexes id with
  | none =>
    rfl
  | some futex =>
    by_cases same : id = target
    · simp [requeued, same]
    · simp [requeued, same, Ne.symm same]

/-- The counts of the two futexes after one waiter moved between them. -/
def movedCount (futex futex2 id : FutexId) (count : Nat) : Nat :=
  if id = futex2 then
    incremented (if id = futex then decremented count else count)
  else if id = futex then
    decremented count
  else
    count

/--
Requeueing a waiter moves it and its reference.  The assertion holds because
the operation has a reference of its own besides the waiter's, also when both
addresses are the same.
-/
theorem Accounted.requeueWaiter
    {futex futex2 : FutexId}
    (accounted : table.Accounted held)
    (waiting : table.awaits task = some futex)
    (holdsFirst : 0 < held futex)
    (holdsSecond : 0 < held futex2)
    (small : ∀ id, held id ≤ 8) :
    ∃ next,
      table.requeueWaiter futex futex2 task = some next ∧
        next.Accounted held ∧
        (∀ other, other ≠ task → next.awaits other = table.awaits other) ∧
        ∀ id, table.futexes id = none → next.futexes id = none := by
  obtain ⟨wait, isWait, notWoken⟩ := bind_eq_some_iff.mp waiting
  have sleeping : wait.cond = false := by
    cases isCond : wait.cond with
    | true =>
      rw [isCond, if_pos rfl] at notWoken
      cases notWoken
    | false =>
      rfl
  rw [sleeping] at notWoken
  have waitFutex : wait.futex = futex := some.inj notWoken
  obtain ⟨first, isFirst⟩ := accounted.exists_of_held holdsFirst
  have counted := accounted.counted futex first isFirst
  have positive := waiters_pos (refersTo_of_awaits waiting)
  have several : ¬ first.refcount ≤ 1 := by
    omega
  let newWait : Option FutexWait := some { wait with futex := futex2 }
  have run :
      table.requeueWaiter futex futex2 task =
        some (((((table.unlink task).enqueue futex2 task).unretain
          futex).retain futex2).setWait task newWait) := by
    unfold FutexTable.requeueWaiter
    have isMoved :=
      unlink_enqueue_futexes table futex2 futex task
    rw [isFirst, map_some] at isMoved
    simp only [isWait, isMoved, bind_eq_bind, bind_some]
    rw [if_neg several]
    rfl
  have balance :
      ∀ id,
        (table.setWait task newWait).waiters id +
            (if futex = id then 1 else 0) =
          table.waiters id + (if futex2 = id then 1 else 0) := by
    intro id
    have balanced := waiters_setWait table task newWait id
    rw [refersTo_of_awaits waiting,
      show newWait.map FutexWait.futex = some futex2 from rfl] at balanced
    simpa only [some.injEq] using balanced
  refine ⟨_, run, ?_, ?_, ?_⟩
  · apply accounted.rewait task newWait (movedCount futex futex2)
    case waits =>
      rfl
    case sameHash =>
      rfl
    case stillNone =>
      intro id isNone
      show ((((table.futexes id).map _).map _).map _).map _ = none
      rw [isNone]
      rfl
    case changed =>
      intro id old isOld
      have target : awaited newWait = some futex2 := by
        simp [awaited, newWait, sleeping]
      have isMoved := unlink_enqueue_futexes table futex2 id task
      show ((((table.unlink task).enqueue futex2 task).futexes id).map
        _).map _ = _
      rw [isMoved, isOld, target]
      simp only [map_some, movedCount]
      by_cases isSecond : id = futex2 <;> by_cases isFutex : id = futex
      · rw [if_pos isSecond, if_pos isSecond, if_pos isFutex, if_pos isFutex]
      · rw [if_pos isSecond, if_pos isSecond, if_neg isFutex, if_neg isFutex]
      · rw [if_neg isSecond, if_neg isSecond, if_pos isFutex, if_pos isFutex]
      · rw [if_neg isSecond, if_neg isSecond, if_neg isFutex, if_neg isFutex]
    case counted =>
      intro id old isOld
      have oldCounted := accounted.counted id old isOld
      have referred := accounted.referred id old isOld
      have range := table.waiters_small id
      have few := small id
      have balanced := balance id
      show movedCount futex futex2 id old.refcount =
          (table.setWait task newWait).waiters id + held id ∧
        0 < (table.setWait task newWait).waiters id + held id
      unfold movedCount
      by_cases isSecond : id = futex2 <;> by_cases isFutex : id = futex
      · rw [if_pos isSecond, if_pos isFutex,
          decremented_of_pos (by omega) (by omega),
          incremented_of_small (by omega)]
        rw [if_pos isFutex.symm, if_pos isSecond.symm] at balanced
        omega
      · rw [if_pos isSecond, if_neg isFutex,
          incremented_of_small (by omega)]
        rw [if_neg (Ne.symm isFutex), if_pos isSecond.symm] at balanced
        omega
      · rw [if_neg isSecond, if_pos isFutex,
          decremented_of_pos (by omega) (by omega)]
        rw [if_pos isFutex.symm, if_neg (Ne.symm isSecond)] at balanced
        subst isFutex
        omega
      · rw [if_neg isSecond, if_neg isFutex]
        rw [if_neg (Ne.symm isFutex), if_neg (Ne.symm isSecond)] at balanced
        omega
    case dangling =>
      intro id isNone
      have dangling := accounted.dangling id isNone
      have notSecond : ¬ futex2 = id := by
        rintro rfl
        omega
      have balanced := balance id
      rw [if_neg notSecond] at balanced
      show (table.setWait task newWait).waiters id + held id = 0
      omega
  · intro other different
    exact (awaits_setWait table task other newWait).trans
      (if_neg different)
  · intro id isNone
    show ((((table.futexes id).map _).map _).map _).map _ = none
    rw [isNone]
    rfl

end FutexTable

end GuestKernel
