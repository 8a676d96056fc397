import GuestKernel.SignalQueues

namespace GuestKernel
open Option
open SignalWorld

/-!
# Signals that cannot be blocked

`sigmask_set` takes `SIGKILL_` and `SIGSTOP_` out of every mask, and all masks
go through it but one: `receive_signal` adds the mask of the action, which
`do_sigaction` stores as the guest gave it.
-/

/-- Neither mask of the task has a signal that cannot be blocked. -/
def SigTask.Killable (task : SigTask) : Prop :=
  task.blocked &&& unblockableMask = 0 ∧
    task.savedMask &&& unblockableMask = 0

theorem SigTask.Killable.change
    {quiet clean : Prop}
    {before after : SigTask}
    (killable : before.Killable)
    (isClean : clean)
    (change : TaskChange quiet clean before after) :
    after.Killable := by
  cases change with
  | masked => exact ⟨sigmaskSet_clean .., killable.2⟩
  | maskedTemp => exact ⟨sigmaskSet_clean .., killable.1⟩
  | restored => exact ⟨killable.2, killable.2⟩
  | received _ _ _ _ _ keeps =>
    exact ⟨keeps isClean killable.1, killable.2⟩
  | reset => exact ⟨BitVec.zero_and, killable.2⟩
  | _ => exact killable

/-- Every task of a clean run is killable. -/
theorem killable_of_clean
    {w : SignalWorld}
    (reachable : (signalMachine.restrict SignalStep.Clean).Reachable w) :
    ∀ id task, w.tasks id = some task → Phased task ∧ task.Killable := by
  refine tasks_invariant ?_ ?_ ?_ reachable
  · rintro _ ⟨⟩
    exact ⟨BitVec.zero_and, BitVec.zero_and⟩
  · exact fun clean killable change => killable.change clean change
  · exact fun _ _ killable => killable

/-- The masks of a task whose handler is called. -/
theorem SignalWorld.masks_of_callsHandler
    {w next : SignalWorld}
    {id : SigTaskId}
    {action : SigAction}
    {written : Bool}
    (calls : w.CallsHandler id action)
    (run : w.receiveRound id false written = some next) :
    ∃ before after,
      w.tasks id = some before ∧ next.tasks id = some after ∧
        after.savedMask = before.savedMask ∧
        (after.blocked &&& unblockableMask = 0 ↔
          before.blocked &&& unblockableMask = 0 ∧
            action.mask &&& unblockableMask = 0) := by
  obtain ⟨task, blocked, position, infos, info, handId, hand, isTask,
    isControl, isQueue, isInfo, isHas, hasSighand, isAction, isRead⟩ := calls
  have isHand :
      ∀ {infos pending control},
        w.sighandOf { task with
          queue := .entries infos
          pending := pending
          control := control } = some (handId, hand) := hasSighand
  unfold receiveRound at run
  simp only [isTask, isControl, isQueue, isInfo, isHas, bind_eq_bind,
    bind_some, Bool.false_eq_true, ↓reduceIte, Bool.false_and]
    at run
  obtain ⟨pending, _, run⟩ := bind_eq_some_iff.mp run
  unfold receiveSignal at run
  simp only [isHand, isAction, isRead, bind_eq_bind, bind_some]
    at run
  obtain ⟨mask, isMask, run⟩ := bind_eq_some_iff.mp run
  have blockable := sigIndex_of_callHandler isAction
  have exact_mask := maskInHandler_clean_iff blockable isMask
  split at run
  · cases run
  split at run
  · cases run
    refine ⟨task, _, isTask, Function.update_self .., rfl, exact_mask⟩
  · cases run
    refine ⟨task, _, isTask, Function.update_self .., rfl, exact_mask⟩

/--
In every run in which the mask of each handler that is called has neither
`SIGKILL_` nor `SIGSTOP_`, no mask of any task has one of them; and in every
state of such a run the next handler that is called keeps this exactly if the
mask of its action has neither.
-/
theorem masks_stay_killable
    {w : SignalWorld}
    (reachable : (signalMachine.restrict SignalStep.Clean).Reachable w) :
    (∀ id task sig,
      w.tasks id = some task →
      sig = sigKill ∨ sig = sigStop →
      sigsetHas task.blocked sig = some false ∧
        sigsetHas task.savedMask sig = some false) ∧
      ∀ id action written next task,
        w.CallsHandler id action →
        w.receiveRound id false written = some next →
        next.tasks id = some task →
        (task.Killable ↔ action.mask &&& unblockableMask = 0) := by
  have holds := killable_of_clean reachable
  constructor
  · intro id task sig isTask isFixed
    obtain ⟨blocked, saved⟩ := (holds id task isTask).2
    have clear := and_unblockable_eq_zero_iff.mp blocked
    have savedClear := and_unblockable_eq_zero_iff.mp saved
    rcases isFixed with rfl | rfl
    · exact ⟨sigsetHas_eq_some_iff.mpr ⟨by decide, clear.1⟩,
        sigsetHas_eq_some_iff.mpr ⟨by decide, savedClear.1⟩⟩
    · exact ⟨sigsetHas_eq_some_iff.mpr ⟨by decide, clear.2⟩,
        sigsetHas_eq_some_iff.mpr ⟨by decide, savedClear.2⟩⟩
  · intro id action written next task calls run isTask
    obtain ⟨before, after, isBefore, isAfter, saved, masks⟩ :=
      masks_of_callsHandler calls run
    cases isAfter.symm.trans isTask
    have killable := (holds id before isBefore).2
    constructor
    · intro stays
      exact (masks.mp stays.1).2
    · intro isClean
      exact ⟨masks.mpr ⟨killable.1, isClean⟩, saved ▸ killable.2⟩

/-- Blocking all signals blocks all but the two. -/
theorem blocking_all_keeps_killable :
    ∃ w task,
      signalMachine.Reachable w ∧ w.tasks 1 = some task ∧
        task.blocked = ~~~unblockableMask ∧
        sigsetHas task.blocked sigKill = some false := by
  let step : SignalStep := .sigprocmask 1 0#32 (BitVec.allOnes 64)
  let w := afterSteps [step]
  have reachable :
      (signalMachine.restrict SignalStep.Clean).Reachable w := by
    refine (Machine.Reachable.initial rfl).step (a := step) ⟨trivial, ?_⟩
    rfl
  refine ⟨w, _, reachable.of_restrict, rfl, by decide, ?_⟩
  exact ((masks_stay_killable reachable).1 1 _ sigKill rfl (.inl rfl)).1

/-- A handler with a full mask runs with `SIGKILL_` and `SIGSTOP_` blocked. -/
theorem handler_blocks_sigkill :
    ∃ w task,
      signalMachine.Reachable w ∧ w.tasks 1 = some task ∧
        sigsetHas task.blocked sigKill = some true ∧
        sigsetHas task.blocked sigStop = some true := by
  let steps : List SignalStep :=
    [.sigaction 1 10#32 (some {
        handler := 4096#32
        flags := 0#32
        restorer := 0#32
        mask := BitVec.allOnes 64 }),
      .send 1 10 .nil, .beginReceive 1, .receiveRound 1 false true]
  let w := afterSteps steps
  have reachable : signalMachine.Reachable w :=
    Machine.Reachable.foldlM SignalStep.run (fun run => run)
      (Machine.Reachable.initial rfl)
      (show steps.foldlM SignalStep.run .first = some w from rfl)
  exact ⟨w, _, reachable, rfl, by decide, by decide⟩

end GuestKernel
