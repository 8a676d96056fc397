import GuestKernel.KernelNumbers
import GuestKernel.Machine
import Mathlib.Data.List.Count
import Mathlib.Logic.Function.Basic

namespace GuestKernel
open List Function

/-!
# Tasks that wait on sockets

The counters of `fs/sockrestart.c` around the host wait of `poll_wait`.  The
loops before and after the wait go over the poll set with its lock held, each in
one step; in between the lock is free and the set may change.
-/

/-- Where a task is; a host wait remembers how many sockets it was begun with. -/
inductive PollPlace where
  | outside
  | inside (poll : Nat)
  | waiting (poll sockets : Nat)
  deriving Repr, DecidableEq

/-- The poll sets, and `struct task_sockrestart` of each task. -/
structure RestartWorld where
  /-- `ops == &socket_fdops`. -/
  isSocket : FdId → Bool
  polls : Nat → List FdId
  places : Nat → PollPlace
  counts : Nat → Int
  listenTasks : List Nat

/-- Steps of tasks, and of the owners of the files. -/
inductive RestartStep where
  | enter (task poll : Nat)
  | beginWait (task : Nat)
  | endWait (task : Nat)
  | leave (task : Nat)
  /-- `poll_add_fd`. -/
  | add (poll : Nat) (fd : FdId)
  /-- `poll_del_fd`. -/
  | del (poll : Nat) (fd : FdId)
  /-- `poll_cleanup_fd`. -/
  | cleanup (fd : FdId)

namespace RestartWorld

/-- Nothing is polled. -/
def empty (isSocket : FdId → Bool) : RestartWorld where
  isSocket := isSocket
  polls := fun _ => []
  places := fun _ => .outside
  counts := fun _ => 0
  listenTasks := []

/-- The sockets of a poll set. -/
def socketsIn (world : RestartWorld) (poll : Nat) : Nat :=
  (world.polls poll).countP world.isSocket

/-- `sockrestart_begin_listen_wait`. -/
def beginListenWait (task : Nat) (world : RestartWorld) (fd : FdId) :
    RestartWorld :=
  if world.isSocket fd then
    { world with
      listenTasks :=
        if world.counts task = 0 then task :: world.listenTasks
        else world.listenTasks
      counts := update world.counts task (world.counts task + 1) }
  else
    world

/-- `sockrestart_end_listen_wait`. -/
def endListenWait (task : Nat) (world : RestartWorld) (fd : FdId) :
    RestartWorld :=
  if world.isSocket fd then
    { world with
      listenTasks :=
        if world.counts task - 1 = 0 then
          world.listenTasks.filter fun other => other != task
        else
          world.listenTasks
      counts := update world.counts task (world.counts task - 1) }
  else
    world

/-- Move a task. -/
def move (world : RestartWorld) (task : Nat) (place : PollPlace) :
    RestartWorld :=
  { world with places := update world.places task place }

/-- One step. -/
def run (world : RestartWorld) : RestartStep → Option RestartWorld
  | .enter task poll =>
    match world.places task with
    | .outside => some (world.move task (.inside poll))
    | _ => none
  | .beginWait task =>
    match world.places task with
    | .inside poll =>
      some
        (((world.polls poll).foldl (beginListenWait task) world).move task
          (.waiting poll (world.socketsIn poll)))
    | _ => none
  | .endWait task =>
    match world.places task with
    | .waiting poll _ =>
      some
        (((world.polls poll).foldl (endListenWait task) world).move task
          (.inside poll))
    | _ => none
  | .leave task =>
    match world.places task with
    | .inside _ => some (world.move task .outside)
    | _ => none
  | .add poll fd =>
    some
      { world with
        polls := update world.polls poll (fd :: world.polls poll) }
  | .del poll fd =>
    some
      { world with
        polls :=
          update world.polls poll ((world.polls poll).erase fd) }
  | .cleanup fd =>
    some
      { world with
        polls := fun poll => (world.polls poll).filter fun other => other != fd }

/-- The counts say who waits. -/
structure CountsRight (world : RestartWorld) : Prop where
  outside :
    ∀ task, world.places task = .outside →
      world.counts task = 0 ∧ task ∉ world.listenTasks
  waiting :
    ∀ task poll sockets, world.places task = .waiting poll sockets →
      (task ∈ world.listenTasks ↔ 0 < world.counts task)

end RestartWorld

/-- The tasks and the files from the start on. -/
def restartMachine : Machine RestartWorld RestartStep where
  initial world := ∃ isSocket, world = .empty isSocket
  step world action next := world.run action = some next

/-- A wait ends with as many sockets in the set as it was begun with. -/
def RestartWorld.EndsBalanced (world : RestartWorld) : RestartStep → Prop
  | .endWait task =>
    match world.places task with
    | .waiting poll sockets => world.socketsIn poll = sockets
    | _ => True
  | _ => True

/-- The machine with these steps only. -/
def balancedMachine : Machine RestartWorld RestartStep :=
  restartMachine.restrict RestartWorld.EndsBalanced

namespace RestartWorld

variable {world next : RestartWorld}
variable {task : Nat}

/-- A task is on the list exactly while its count is positive. -/
def Listed (world : RestartWorld) : Prop :=
  ∀ task, task ∈ world.listenTasks ↔ 0 < world.counts task

/-- What the loops around a wait do: one count moves, and the list with it. -/
structure Counted
    (world : RestartWorld)
    (task : Nat)
    (change : Int)
    (next : RestartWorld) : Prop where
  isSocket : next.isSocket = world.isSocket
  polls : next.polls = world.polls
  places : next.places = world.places
  count : next.counts task = world.counts task + change
  others : ∀ other, other ≠ task → next.counts other = world.counts other
  listed : world.Listed → next.Listed

theorem Counted.refl
    (world : RestartWorld)
    (task : Nat) :
    world.Counted task 0 world where
  isSocket := rfl
  polls := rfl
  places := rfl
  count := (Int.add_zero _).symm
  others := fun _ _ => rfl
  listed := id

theorem Counted.trans
    {middle : RestartWorld}
    {first second : Int}
    (before : world.Counted task first middle)
    (after : middle.Counted task second next) :
    world.Counted task (first + second) next where
  isSocket := after.isSocket.trans before.isSocket
  polls := after.polls.trans before.polls
  places := after.places.trans before.places
  count := by rw [after.count, before.count, Int.add_assoc]
  others := fun other isOther =>
    (after.others other isOther).trans (before.others other isOther)
  listed := fun listed => after.listed (before.listed listed)

/-- One file before the wait. -/
theorem counted_beginListenWait
    (world : RestartWorld)
    (task : Nat)
    (fd : FdId) :
    world.Counted task (if world.isSocket fd then 1 else 0)
      (beginListenWait task world fd) := by
  unfold beginListenWait
  split
  · refine
      { isSocket := rfl
        polls := rfl
        places := rfl
        count := update_self _ _ _
        others := fun other isOther => update_of_ne isOther _ _
        listed := ?_ }
    intro listed other
    have before := listed other
    dsimp only
    by_cases same : other = task
    · subst same
      rw [update_self]
      split
      · case _ isZero =>
          exact ⟨fun _ => by omega, fun _ => mem_cons_self⟩
      · rw [before]
        omega
    · rw [update_of_ne same]
      split
      · rw [mem_cons, or_iff_right same]
        exact before
      · exact before
  · exact .refl world task

/-- One file after the wait. -/
theorem counted_endListenWait
    (world : RestartWorld)
    (task : Nat)
    (fd : FdId) :
    world.Counted task (if world.isSocket fd then -1 else 0)
      (endListenWait task world fd) := by
  unfold endListenWait
  split
  · refine
      { isSocket := rfl
        polls := rfl
        places := rfl
        count := update_self _ _ _
        others := fun other isOther => update_of_ne isOther _ _
        listed := ?_ }
    intro listed other
    have before := listed other
    dsimp only
    by_cases same : other = task
    · subst same
      rw [update_self]
      split
      · case _ isZero =>
          have notPositive : ¬0 < world.counts other - 1 := by omega
          rw [mem_filter, bne_self_eq_false]
          exact iff_of_false (fun isMember => Bool.noConfusion isMember.2)
            notPositive
      · rw [before]
        omega
    · rw [update_of_ne same]
      split
      · rw [mem_filter, bne_iff_ne, and_iff_left same]
        exact before
      · exact before
  · exact .refl world task

/-- The loop over a poll set counts its sockets. -/
theorem counted_foldl
    {round : RestartWorld → FdId → RestartWorld}
    {weight : Int}
    (counts :
      ∀ (world : RestartWorld) (fd : FdId),
        world.Counted task (if world.isSocket fd then weight else 0)
          (round world fd))
    (fds : List FdId)
    (world : RestartWorld) :
    world.Counted task (fds.countP world.isSocket * weight)
      (fds.foldl round world) := by
  induction fds generalizing world with
  | nil =>
    rw [countP_nil, Int.natCast_zero, Int.zero_mul]
    exact .refl world task
  | cons fd rest inductionHypothesis =>
    have first := counts world fd
    have later := inductionHypothesis (round world fd)
    rw [first.isSocket] at later
    have both := first.trans later
    have sum :
        ((fd :: rest).countP world.isSocket : Int) * weight =
          (if world.isSocket fd then weight else 0) +
            rest.countP world.isSocket * weight := by
      rw [countP_cons]
      split
      · rw [Int.natCast_add, Int.natCast_one, Int.add_mul, Int.one_mul,
          Int.add_comm]
      · rw [Nat.add_zero, Int.zero_add]
    rw [foldl_cons, sum]
    exact both

/-- The counts are right, also those of the tasks that wait. -/
structure Balanced (world : RestartWorld) : Prop where
  listed : world.Listed
  idle :
    ∀ task, (∀ poll sockets, world.places task ≠ .waiting poll sockets) →
      world.counts task = 0
  waiting :
    ∀ task poll sockets, world.places task = .waiting poll sockets →
      world.counts task = sockets

/-- A task moves and its count with it. -/
theorem Balanced.move
    {place : PollPlace}
    {change : Int}
    {counted : RestartWorld}
    (balanced : world.Balanced)
    (isCounted : world.Counted task change counted)
    (idle :
      (∀ poll sockets, place ≠ .waiting poll sockets) →
        world.counts task + change = 0)
    (waiting :
      ∀ poll sockets, place = .waiting poll sockets →
        world.counts task + change = sockets) :
    (counted.move task place).Balanced where
  listed := isCounted.listed balanced.listed
  idle := by
    intro other notWaiting
    by_cases same : other = task
    · subst same
      rw [RestartWorld.move] at notWaiting
      dsimp only at notWaiting
      rw [update_self] at notWaiting
      exact isCounted.count.trans (idle notWaiting)
    · rw [RestartWorld.move] at notWaiting
      dsimp only at notWaiting
      rw [update_of_ne same, isCounted.places] at notWaiting
      exact (isCounted.others other same).trans (balanced.idle other notWaiting)
  waiting := by
    intro other poll sockets isWaiting
    by_cases same : other = task
    · subst same
      rw [RestartWorld.move] at isWaiting
      dsimp only at isWaiting
      rw [update_self] at isWaiting
      exact isCounted.count.trans (waiting poll sockets isWaiting)
    · rw [RestartWorld.move] at isWaiting
      dsimp only at isWaiting
      rw [update_of_ne same, isCounted.places] at isWaiting
      exact (isCounted.others other same).trans
        (balanced.waiting other poll sockets isWaiting)

/-- Every step keeps the balance if waits end as they were begun. -/
theorem Balanced.step
    {action : RestartStep}
    (balanced : world.Balanced)
    (endsBalanced : world.EndsBalanced action)
    (taken : world.run action = some next) :
    next.Balanced := by
  cases action with
  | enter task poll =>
    simp only [run] at taken
    split at taken
    · case _ isOutside =>
        cases taken
        refine balanced.move (.refl world task) ?_ ?_
        · intro _
          rw [balanced.idle task (by rw [isOutside]; simp), Int.add_zero]
        · intro _ _ isWaiting
          cases isWaiting
    · cases taken
  | beginWait task =>
    simp only [run] at taken
    split at taken
    · case _ poll isInside =>
        cases taken
        have isZero := balanced.idle task (by rw [isInside]; simp)
        refine balanced.move
          (counted_foldl (counted_beginListenWait · task) _ world) ?_ ?_
        · intro notWaiting
          exact absurd rfl (notWaiting poll _)
        · intro _ _ isWaiting
          cases isWaiting
          rw [isZero, Int.zero_add, Int.mul_one]
          rfl
    · cases taken
  | endWait task =>
    simp only [run] at taken
    split at taken
    · case _ poll sockets isWaiting =>
        cases taken
        have isCount := balanced.waiting task poll sockets isWaiting
        simp only [EndsBalanced, isWaiting] at endsBalanced
        refine balanced.move
          (counted_foldl (counted_endListenWait · task) _ world) ?_ ?_
        · intro _
          rw [isCount, ← endsBalanced, socketsIn]
          omega
        · intro _ _ isOther
          cases isOther
    · cases taken
  | leave task =>
    simp only [run] at taken
    split at taken
    · case _ poll isInside =>
        cases taken
        refine balanced.move (.refl world task) ?_ ?_
        · intro _
          rw [balanced.idle task (by rw [isInside]; simp), Int.add_zero]
        · intro _ _ isWaiting
          cases isWaiting
    · cases taken
  | add poll fd | del poll fd | cleanup fd =>
    cases taken
    exact ⟨balanced.listed, balanced.idle, balanced.waiting⟩

/-- While waits end as they were begun, the counts say who waits. -/
theorem counts_follow_waits
    (reachable : balancedMachine.Reachable world) :
    world.CountsRight := by
  have balanced : world.Balanced := by
    refine reachable.invariant ?_ ?_
    · rintro world ⟨isSocket, rfl⟩
      exact
        { listed := fun _ => iff_of_false not_mem_nil (Int.lt_irrefl 0)
          idle := fun _ _ => rfl
          waiting := fun _ _ _ isWaiting => by cases isWaiting }
    · intro world action next balanced step
      exact balanced.step step.1 step.2
  refine ⟨?_, ?_⟩
  · intro task isOutside
    have isZero := balanced.idle task (by rw [isOutside]; simp)
    refine ⟨isZero, ?_⟩
    rw [balanced.listed task, isZero]
    decide
  · intro task _ _ _
    exact balanced.listed task

/-- A file that is no socket is added during a wait on a socket. -/
theorem wait_on_socket_is_counted :
    ∃ world : RestartWorld,
      world.places 5 = .waiting 0 1 ∧ world.counts 5 = 1 ∧
        world.CountsRight := by
  have start : balancedMachine.Reachable (.empty fun fd => fd == 0) :=
    .initial ⟨_, rfl⟩
  have added := start.step (a := RestartStep.add 0 0) ⟨trivial, rfl⟩
  have entered := added.step (a := RestartStep.enter 5 0) ⟨trivial, rfl⟩
  have waits := entered.step (a := RestartStep.beginWait 5) ⟨trivial, rfl⟩
  have grown := waits.step (a := RestartStep.add 0 1) ⟨trivial, rfl⟩
  have ended := grown.step (a := RestartStep.endWait 5) ⟨rfl, rfl⟩
  have again := ended.step (a := RestartStep.beginWait 5) ⟨trivial, rfl⟩
  exact ⟨_, rfl, rfl, counts_follow_waits again⟩

/-- A socket is added during the wait, and the task leaves with a count. -/
theorem added_socket_unbalances_count :
    ¬∀ world, restartMachine.Reachable world → world.CountsRight := by
  intro always
  have start : restartMachine.Reachable (.empty fun _ => true) :=
    .initial ⟨_, rfl⟩
  have entered := start.step (a := RestartStep.enter 5 0) rfl
  have waits := entered.step (a := RestartStep.beginWait 5) rfl
  have grown := waits.step (a := RestartStep.add 0 1) rfl
  have ended := grown.step (a := RestartStep.endWait 5) rfl
  have left := ended.step (a := RestartStep.leave 5) rfl
  have isZero := ((always _ left).outside 5 rfl).1
  exact absurd isZero (by decide)

end RestartWorld

end GuestKernel
