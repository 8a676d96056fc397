import GuestKernel.SignalSteps
import Mathlib.Data.List.Perm.Basic

namespace GuestKernel
open List

/-!
# Pending signals and queues

The bit of a signal in `task->pending` says that the queue of the task has
one entry with its number.  `sys_rt_sigtimedwait` takes an entry and leaves
the bit, `do_exit` frees the queue and leaves all bits, and a signal that is
sent to a task before `task_create_` is through gets into the list of its
parent; everything else keeps bits and entries together.
-/

/-- The queue has one entry for each bit and no other. -/
def QueueMatches (infos : List SigInfo) (pending : SigSet) : Prop :=
  ∀ sig, 1 ≤ sig → sig < 64 →
    (infos.map SigInfo.sig).count sig =
      if pending.getLsbD (sigIndex sig) then 1 else 0

namespace QueueMatches

variable
  {infos : List SigInfo}
  {pending : SigSet}
  {sig : Int}
  {info : SigInfo}

theorem nil : QueueMatches [] 0 := by
  intro sig _ _
  simp

/-- A signal that was not pending is queued. -/
theorem queued
    (holds : QueueMatches infos pending)
    (valid : 1 ≤ sig ∧ sig < 64)
    (absent : pending.getLsbD (sigIndex sig) = false)
    (isSig : info.sig = sig) :
    QueueMatches (infos ++ [info])
      (pending ||| BitVec.twoPow 64 (sigIndex sig)) := by
  intro other positive below
  have before := holds other positive below
  have inside : sigIndex sig < 64 := by
    unfold sigIndex
    omega
  rw [map_append, count_append, before, BitVec.getLsbD_or,
    BitVec.getLsbD_twoPow, decide_eq_true inside, Bool.true_and]
  by_cases same : other = sig
  · subst same
    have one : (List.map SigInfo.sig [info]).count other = 1 := by
      rw [← isSig]
      exact count_singleton_self
    rw [one, absent]
    simp
  · have differs : sigIndex sig ≠ sigIndex other := fun sameIndex =>
      same (eq_of_sigIndex positive valid.1 sameIndex.symm)
    have none : (List.map SigInfo.sig [info]).count other = 0 := by
      apply count_eq_zero.mpr
      rw [map_singleton, mem_singleton, isSig]
      exact same
    rw [none, decide_eq_false differs, Bool.or_false, Nat.add_zero]

/-- An entry is taken together with its bit. -/
theorem received
    {position : Nat}
    (holds : QueueMatches infos pending)
    (isInfo : infos[position]? = some info)
    (valid : 1 ≤ info.sig ∧ info.sig < 64) :
    QueueMatches (infos.eraseIdx position)
      (pending &&& ~~~BitVec.twoPow 64 (sigIndex info.sig)) := by
  obtain ⟨within, isAt⟩ := List.getElem?_eq_some_iff.mp isInfo
  have reordered :
      (info.sig :: (infos.eraseIdx position).map SigInfo.sig).Perm
        (infos.map SigInfo.sig) := by
    have perm := (getElem_cons_eraseIdx_perm within).map SigInfo.sig
    rwa [isAt] at perm
  intro other positive below
  have before := holds other positive below
  have counted := reordered.count_eq other
  have inside : sigIndex other < 64 := by
    unfold sigIndex
    omega
  rw [BitVec.getLsbD_and, BitVec.getLsbD_not, BitVec.getLsbD_twoPow,
    decide_eq_true inside, Bool.true_and]
  by_cases same : other = info.sig
  · subst same
    rw [count_cons_self] at counted
    rw [decide_eq_true inside, decide_eq_true rfl]
    simp only [Bool.and_self, Bool.not_true, Bool.and_false,
      Bool.false_eq_true, ↓reduceIte]
    split at before <;> omega
  · have differs : sigIndex info.sig ≠ sigIndex other := fun sameIndex =>
      same (eq_of_sigIndex positive valid.1 sameIndex.symm)
    rw [count_cons_of_ne (Ne.symm same)] at counted
    rw [decide_eq_false differs, counted, before]
    simp

end QueueMatches

/-- Bits and queue of a task in every phase. -/
structure SigTask.Accounted (task : SigTask) : Prop where
  cleared : task.control = .cleared → task.pending = 0
  exited : task.control = .exited → task.queue = .entries []
  active :
    task.control.Active →
      ∃ infos,
        task.queue = .entries infos ∧ QueueMatches infos task.pending

/-- A change that is quiet keeps bits and entries together. -/
theorem SigTask.Accounted.change
    {quiet clean : Prop}
    {before after : SigTask}
    (accounted : before.Accounted)
    (isQuiet : quiet)
    (change : TaskChange quiet clean before after) :
    after.Accounted := by
  cases change with
  | kept => exact accounted
  | @queued sig info infos isQueue active valid absent =>
    refine ⟨fun cleared => (active.ne_cleared cleared).elim,
      fun exited => (active.ne_exited exited).elim, fun _ => ?_⟩
    obtain ⟨same, isSame, holds⟩ := accounted.active active
    cases isQueue.symm.trans isSame
    exact ⟨_, rfl, holds.queued valid absent rfl⟩
  | stray harm | broken harm | taken harm => exact (harm isQuiet).elim
  | lost active noList =>
    obtain ⟨infos, isQueue, _⟩ := accounted.active active
    exact (noList infos isQueue).elim
  | masked => exact ⟨accounted.cleared, accounted.exited, accounted.active⟩
  | maskedTemp | ownSighand | becameZombie =>
    exact ⟨accounted.cleared, accounted.exited, accounted.active⟩
  | restored active goesOn | moved active goesOn =>
    exact ⟨fun cleared => (goesOn.ne_cleared cleared).elim,
      fun exited => (goesOn.ne_exited exited).elim, fun _ =>
        accounted.active active⟩
  | received active goesOn isQueue isInfo valid =>
    refine ⟨fun cleared => (goesOn.ne_cleared cleared).elim,
      fun exited => (goesOn.ne_exited exited).elim, fun _ => ?_⟩
    obtain ⟨same, isSame, holds⟩ := accounted.active active
    cases isQueue.symm.trans isSame
    exact ⟨_, rfl, holds.received isInfo valid⟩
  | clearedPending | reset =>
    exact ⟨fun _ => rfl, fun impossible => (nomatch impossible),
      fun impossible => impossible.elim⟩
  | initialised isCleared =>
    refine ⟨fun impossible => (nomatch impossible),
      fun impossible => (nomatch impossible), fun _ => ⟨[], rfl, ?_⟩⟩
    show QueueMatches [] before.pending
    rw [accounted.cleared isCleared]
    exact .nil
  | exited =>
    exact ⟨fun impossible => (nomatch impossible), fun _ => rfl,
      fun impossible => impossible.elim⟩

theorem SigTask.Accounted.created
    (task : SigTask)
    (parent : SigTaskId) :
    SigTask.Accounted { task with
      queue := .copied parent
      control := .created } where
  cleared := fun impossible => (nomatch impossible)
  exited := fun impossible => (nomatch impossible)
  active := fun impossible => impossible.elim

/-- A signal is pending if and only if the queue has exactly one entry of it. -/
def SigTask.PendingQueued (task : SigTask) : Prop :=
  ∃ infos,
    task.queue = .entries infos ∧
      ∀ sig, 1 ≤ sig → sig < 64 →
        (sigsetHas task.pending sig = some true ↔
          (infos.map SigInfo.sig).count sig = 1)

/-- No signal is pending. -/
def SigTask.NothingPending (task : SigTask) : Prop :=
  ∀ sig, 1 ≤ sig → sig < 64 → sigsetHas task.pending sig = some false

/-- What `Accounted` says of a task that has its own signals. -/
theorem SigTask.Accounted.pendingQueued_iff
    {task : SigTask}
    (accounted : task.Accounted)
    (notHalf : ¬ task.control.Half) :
    task.PendingQueued ↔ (task.control = .exited → task.NothingPending) := by
  by_cases isExited : task.control = .exited
  · have isEmpty := accounted.exited isExited
    constructor
    · rintro ⟨infos, isQueue, same⟩ _ sig positive below
      cases isEmpty.symm.trans isQueue
      apply sigsetHas_eq_some_iff.mpr
      refine ⟨⟨positive, below⟩, Bool.eq_false_iff.mpr fun isSet => ?_⟩
      cases (same sig positive below).mp
        (sigsetHas_eq_some_iff.mpr ⟨⟨positive, below⟩, isSet⟩)
    · intro nothing
      refine ⟨[], isEmpty, fun sig positive below => ?_⟩
      rw [nothing isExited sig positive below]
      constructor
      · intro impossible
        cases impossible
      · intro impossible
        cases impossible
  · have active : task.control.Active := by
      cases isControl : task.control with
      | created => exact notHalf (.inl isControl)
      | cleared => exact notHalf (.inr isControl)
      | exited => exact isExited isControl
      | _ => trivial
    obtain ⟨infos, isQueue, holds⟩ := accounted.active active
    refine ⟨fun _ exited => (isExited exited).elim, fun _ => ?_⟩
    refine ⟨infos, isQueue, fun sig positive below => ?_⟩
    rw [holds sig positive below, sigsetHas_eq_some_iff]
    constructor
    · rintro ⟨_, isSet⟩
      rw [if_pos isSet]
    · intro isOne
      refine ⟨⟨positive, below⟩, ?_⟩
      by_contra isClear
      rw [if_neg isClear] at isOne
      cases isOne

/-- Every task of a quiet run is accounted for. -/
theorem accounted_of_quiet
    {w : SignalWorld}
    (reachable : (signalMachine.restrict SignalStep.Quiet).Reachable w) :
    ∀ id task, w.tasks id = some task → Phased task ∧ task.Accounted := by
  refine SignalWorld.tasks_invariant ?_ ?_ ?_ reachable
  · rintro _ ⟨⟩
    exact ⟨fun impossible => (nomatch impossible),
      fun impossible => (nomatch impossible), fun _ => ⟨[], rfl, .nil⟩⟩
  · exact fun quiet accounted change => accounted.change quiet change
  · exact fun parent old _ => SigTask.Accounted.created old parent

/--
In every quiet run, for every task that is past its creation: a signal number
is pending if and only if the queue has exactly one entry with it, unless the
task exited while a signal was pending.
-/
theorem pending_iff_queued
    {w : SignalWorld}
    {id : SigTaskId}
    {task : SigTask}
    (reachable : (signalMachine.restrict SignalStep.Quiet).Reachable w)
    (isTask : w.tasks id = some task)
    (pastCreation : task.control ≠ .created ∧ task.control ≠ .cleared) :
    task.PendingQueued ↔ (task.control = .exited → task.NothingPending) := by
  apply (accounted_of_quiet reachable id task isTask).2.pendingQueued_iff
  rintro (isCreated | isCleared)
  · exact pastCreation.1 isCreated
  · exact pastCreation.2 isCleared

/-- The world after some steps of the first task. -/
def SignalWorld.afterSteps (steps : List SignalStep) : SignalWorld :=
  (steps.foldlM SignalStep.run .first).getD .first

/-- `SIGUSR1_` that is sent to the first task is queued. -/
theorem sent_signal_is_queued :
    ∃ w task,
      signalMachine.Reachable w ∧ w.tasks 1 = some task ∧
        task.queue = .entries [{ SigInfo.nil with sig := 10 }] ∧
        task.PendingQueued := by
  let w := SignalWorld.afterSteps [.send 1 10 .nil]
  have sent : SignalStep.run .first (.send 1 10 .nil) = some w := rfl
  have notStray : ¬ SignalWorld.first.Stray 1 10 := by
    rintro ⟨task, isTask, half, _⟩
    cases isTask
    rcases half with impossible | impossible
    · cases impossible
    · cases impossible
  have quiet : SignalStep.Quiet .first (.send 1 10 .nil) :=
    fun _ => notStray
  have reachable :
      (signalMachine.restrict SignalStep.Quiet).Reachable w :=
    (Machine.Reachable.initial rfl).step ⟨quiet, sent⟩
  have isTask : w.tasks 1 = some _ := rfl
  refine ⟨w, _, reachable.of_restrict, isTask, rfl, ?_⟩
  apply (pending_iff_queued reachable isTask (by decide)).mpr
  intro impossible
  cases impossible

/--
A signal that `sys_rt_sigtimedwait` took stays pending: the next one is
dropped although the queue is empty.
-/
theorem timedwait_loses_later_signals :
    ∃ w task,
      signalMachine.Reachable w ∧ w.tasks 1 = some task ∧
        task.control = .running ∧
        task.queue = .entries [] ∧
        sigsetHas task.pending 10 = some true ∧
        w.sendSignal 1 10 .nil = some w := by
  let steps : List SignalStep :=
    [.beginTimedwait 1 512#64, .send 1 10 .nil, .endTimedwait 1 false]
  let w := SignalWorld.afterSteps steps
  have reachable : signalMachine.Reachable w :=
    Machine.Reachable.foldlM SignalStep.run (fun run => run)
      (Machine.Reachable.initial rfl)
      (show steps.foldlM SignalStep.run .first = some w from rfl)
  exact ⟨w, _, reachable, rfl, rfl, rfl, by decide, rfl⟩

end GuestKernel
