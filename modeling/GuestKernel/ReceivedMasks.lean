import GuestKernel.SignalQueues

namespace GuestKernel
open Option Function

/-!
# Masks while signals are received

`receive_signals` decides by the mask that it captured before its loop, and
each handler that it sets up raises `current->blocked`.  A pass is one call of
`receive_signals`, with whatever other threads do during its stops.
-/

/-- The mask that the loop of `receive_signals` captured. -/
def Control.captured : Control → Option SigSet
  | .receiving blocked _ => some blocked
  | .stopped blocked _ _ => some blocked
  | _ => none

namespace SignalWorld

/-- The entry at a position is delivered, and by which handler. -/
def handlerAt
    (w : SignalWorld)
    (task : SigTask)
    (captured : SigSet)
    (info : SigInfo)
    (traced : Bool) : Option SigAction := do
  let (_, hand) ← w.sighandOf task
  if sigsetHas captured info.sig = some false ∧ traced = false ∧
      signalAction hand info.sig = some .callHandler then
    hand.read info.sig
  else
    none

/-- What the handler that the next round sets up adds to the mask. -/
def handlerMask (w : SignalWorld) (id : SigTaskId) (traced : Bool) : SigSet :=
  match w.tasks id with
  | none => 0
  | some task =>
    match task.control, task.queue with
    | .receiving captured position, .entries infos =>
      match infos[position]? with
      | none => 0
      | some info =>
        match w.handlerAt task captured info traced with
        | none => 0
        | some action => (maskInHandler 0 action info.sig).getD 0
    | _, _ => 0

end SignalWorld

/-- A step that neither begins a pass of the task nor is a round of it. -/
def SignalStep.IsOther (id : SigTaskId) : SignalStep → Prop
  | beginReceive other => other ≠ id
  | receiveRound other _ _ => other ≠ id
  | _ => True

/--
A state during a pass of the task: the mask of the task at the start of the
loop, and what the handlers that were set up since have added to it.
-/
inductive InPass (id : SigTaskId) :
    (start raised : SigSet) → SignalWorld → Prop where
  | begins {w next : SignalWorld} {task : SigTask} :
      signalMachine.Reachable w →
      w.beginReceive id = some next →
      next.tasks id = some task →
      InPass id task.blocked 0 next
  | round
      {start raised : SigSet}
      {w next : SignalWorld}
      {traced written : Bool} :
      InPass id start raised w →
      w.receiveRound id traced written = some next →
      InPass id start (raised ||| w.handlerMask id traced) next
  | other
      {start raised : SigSet}
      {w next : SignalWorld}
      {step : SignalStep} :
      InPass id start raised w →
      step.run w = some next →
      step.IsOther id →
      InPass id start raised next

/-- A mask has a signal. -/
def SigSet.Has (set : SigSet) (sig : Int) : Prop :=
  set.getLsbD (sigIndex sig) = true

namespace SignalWorld

/-- The next round is at this entry of the queue of the task. -/
structure AtEntry
    (w : SignalWorld)
    (id : SigTaskId)
    (task : SigTask)
    (captured : SigSet)
    (position : Nat)
    (infos : List SigInfo)
    (info : SigInfo) : Prop where
  isTask : w.tasks id = some task
  isControl : task.control = .receiving captured position
  isQueue : task.queue = .entries infos
  isInfo : infos[position]? = some info

/--
A round sets up no handler for a signal that the task blocks, unless a mask
that was only there for the system call let it through; the signal stays
queued and pending, if it can be blocked.
-/
def RespectsMask
    (w : SignalWorld)
    (id : SigTaskId)
    (start : SigSet)
    (traced : Bool)
    (next : SignalWorld) : Prop :=
  ∀ task captured position infos info,
    w.AtEntry id task captured position infos info →
    SigSet.Has task.blocked info.sig →
    ¬(SigSet.Has start info.sig ∧ ¬SigSet.Has captured info.sig) →
    (∀ action, w.CallsHandler id action → traced = true) ∧
      (signalIsBlockable info.sig = true →
        ∃ after,
          next.tasks id = some after ∧ after.queue = .entries infos ∧
            after.pending = task.pending)

/--
The signal at the entry, if it can be blocked and the captured mask lets it
through, is not in the mask of a handler that was set up in this pass, or was
blocked from the start.
-/
def EntryUnmasked
    (w : SignalWorld) (id : SigTaskId) (start raised : SigSet) : Prop :=
  ∀ task captured position infos info,
    w.AtEntry id task captured position infos info →
    signalIsBlockable info.sig = true →
    ¬SigSet.Has captured info.sig → SigSet.Has raised info.sig →
    SigSet.Has start info.sig

/-- A task in its loop was there before, with the same masks. -/
def KeepsMasks (id : SigTaskId) (w next : SignalWorld) : Prop :=
  ∀ after captured,
    next.tasks id = some after →
    after.control.captured = some captured →
    ∃ task,
      w.tasks id = some task ∧ task.control.captured = some captured ∧
        task.blocked = after.blocked

section Steps

variable
  {w next : SignalWorld}
  {id other : SigTaskId}
  {task after : SigTask}

theorem KeepsMasks.of_tasks
    (same : next.tasks = w.tasks) :
    KeepsMasks id w next := by
  intro found captured isFound isCaptured
  rw [same] at isFound
  exact ⟨found, isFound, isCaptured, rfl⟩

theorem KeepsMasks.congr
    {middle : SignalWorld}
    (keeps : KeepsMasks id w middle)
    (same : next.tasks = middle.tasks) :
    KeepsMasks id w next := by
  intro found captured isFound isCaptured
  rw [same] at isFound
  exact keeps found captured isFound isCaptured

theorem keepsMasks_setTask
    (isTask : w.tasks other = some task)
    (keeps :
      ∀ captured, after.control.captured = some captured →
        task.control.captured = some captured ∧
          task.blocked = after.blocked) :
    KeepsMasks id w (w.setTask other after) := by
  intro found captured isFound isCaptured
  rw [setTask_tasks] at isFound
  by_cases same : id = other
  · subst same
    rw [if_pos rfl] at isFound
    cases isFound
    obtain ⟨wasCaptured, sameMask⟩ := keeps captured isCaptured
    exact ⟨task, isTask, wasCaptured, sameMask⟩
  · rw [if_neg same] at isFound
    exact ⟨found, isFound, isCaptured, rfl⟩

theorem keepsMasks_setTask_of_none
    (notLooping : after.control.captured = none) :
    KeepsMasks id w (w.setTask other after) := by
  intro found captured isFound isCaptured
  rw [setTask_tasks] at isFound
  split at isFound
  · cases isFound
    cases notLooping.symm.trans isCaptured
  · exact ⟨found, isFound, isCaptured, rfl⟩

theorem keepsMasks_setTask_of_ne
    (differs : other ≠ id) :
    KeepsMasks id w (w.setTask other after) := by
  intro found captured isFound isCaptured
  rw [setTask_tasks, if_neg (Ne.symm differs)] at isFound
  exact ⟨found, isFound, isCaptured, rfl⟩

theorem KeepsMasks.breakQueue
    (keeps : KeepsMasks id w next) :
    KeepsMasks id w (next.breakQueue other) := by
  intro found captured isFound isCaptured
  obtain ⟨middle, isMiddle, rfl⟩ := map_eq_some_iff.mp isFound
  refine (keeps middle captured isMiddle ?_).imp ?_
  · split at isCaptured
    · exact isCaptured
    · exact isCaptured
  · intro task isKept
    refine ⟨isKept.1, isKept.2.1, isKept.2.2.trans ?_⟩
    split <;> rfl

variable {sig : Int} {info : SigInfo} {step : SignalStep}

theorem keepsMasks_of_deliver
    (run : w.deliverSignalUnlocked other sig info = some next) :
    KeepsMasks id w next := by
  obtain ⟨task, isTask, run⟩ := bind_eq_some_iff.mp run
  obtain ⟨has, _, run⟩ := bind_eq_some_iff.mp run
  split at run
  · cases run
    exact .of_tasks rfl
  · obtain ⟨pending, _, run⟩ := bind_eq_some_iff.mp run
    split at run
    · cases run
      exact keepsMasks_setTask isTask fun _ isCaptured => ⟨isCaptured, rfl⟩
    · cases run
      refine KeepsMasks.breakQueue ?_
      exact keepsMasks_setTask isTask fun _ isCaptured => ⟨isCaptured, rfl⟩
    · cases run
      exact keepsMasks_setTask isTask fun _ isCaptured => ⟨isCaptured, rfl⟩

theorem keepsMasks_of_sendSignal
    (run : w.sendSignal other sig info = some next) :
    KeepsMasks id w next := by
  obtain ⟨task, isTask, run⟩ := bind_eq_some_iff.mp run
  split at run
  · cases run
    exact .of_tasks rfl
  split at run
  · cases run
    exact .of_tasks rfl
  obtain ⟨⟨handId, hand⟩, _, run⟩ := bind_eq_some_iff.mp run
  obtain ⟨disposition, _, run⟩ := bind_eq_some_iff.mp run
  split at run
  · cases run
    exact .of_tasks rfl
  · exact keepsMasks_of_deliver run

theorem keepsMasks_of_trySelfSignal
    (run : w.trySelfSignal other sig = some next) :
    KeepsMasks id w next := by
  unfold trySelfSignal at run
  split at run
  · obtain ⟨task, _, run⟩ := bind_eq_some_iff.mp run
    obtain ⟨_, _, run⟩ := bind_eq_some_iff.mp run
    obtain ⟨disposition, _, run⟩ := bind_eq_some_iff.mp run
    split at run
    · cases run
      exact .of_tasks rfl
    obtain ⟨isBlocked, _, run⟩ := bind_eq_some_iff.mp run
    split at run
    · cases run
      exact .of_tasks rfl
    · exact keepsMasks_of_deliver run
  · cases run

theorem keepsMasks_of_endStop
    (run : w.endStop other = some next) :
    KeepsMasks id w next := by
  obtain ⟨task, isTask, run⟩ := bind_eq_some_iff.mp run
  split at run
  · rename_i blocked position last isControl
    obtain ⟨has, _, run⟩ := bind_eq_some_iff.mp run
    split at run
    · cases run
      exact keepsMasks_setTask_of_none rfl
    · cases run
      refine keepsMasks_setTask isTask fun captured isCaptured => ⟨?_, rfl⟩
      rw [isControl]
      cases last with
      | true => cases isCaptured
      | false => exact isCaptured
  · cases run

/-- The mask in a handler is the mask before it and what the handler adds. -/
theorem maskInHandler_eq
    {blocked mask : SigSet}
    {action : SigAction}
    (isMask : maskInHandler blocked action sig = some mask) :
    mask = blocked ||| (maskInHandler 0 action sig).getD 0 := by
  unfold maskInHandler at isMask ⊢
  split at isMask
  · rename_i defers
    obtain ⟨added, add, same⟩ := bind_eq_some_iff.mp isMask
    cases same
    obtain ⟨valid, rfl⟩ := sigsetAdd_eq_some add
    have isAdded :
        sigsetAdd 0 sig = some (0 ||| BitVec.twoPow 64 (sigIndex sig)) :=
      map_eq_some_iff.mpr
        ⟨_, sigMask_eq_some_iff.mpr ⟨valid, rfl⟩, rfl⟩
    rw [if_pos defers, isAdded]
    simp [BitVec.or_assoc]
  · rename_i defers
    cases isMask
    rw [if_neg defers]
    simp

/-- No handler is set up for an entry that is skipped or stopped at. -/
theorem handlerAt_eq_none
    {captured : SigSet}
    {traced : Bool}
    (skipped :
      sigsetHas captured info.sig = some true ∨ traced = true ∨
        ∀ handId hand,
          w.sighandOf task = some (handId, hand) →
          signalAction hand info.sig ≠ some .callHandler) :
    w.handlerAt task captured info traced = none := by
  unfold handlerAt
  cases hasSighand : w.sighandOf task with
  | none => rfl
  | some found =>
    obtain ⟨handId, hand⟩ := found
    refine if_neg ?_
    rintro ⟨notHas, notTraced, calls⟩
    rcases skipped with has | isTraced | notCalled
    · cases has.symm.trans notHas
    · cases isTraced.symm.trans notTraced
    · exact notCalled handId hand hasSighand calls

/-- What a round does to its task, and that it leaves all others. -/
theorem receiveRound_cases
    {traced written : Bool}
    (run : w.receiveRound id traced written = some next) :
    ∃ task captured position infos info,
      w.AtEntry id task captured position infos info ∧
        (∀ other, other ≠ id → next.tasks other = w.tasks other) ∧
        ∃ after,
          next.tasks id = some after ∧
            (∀ set, after.control.captured = some set → set = captured) ∧
            after.blocked = task.blocked ||| w.handlerMask id traced ∧
            (sigsetHas captured info.sig = some true ∧
                after.queue = .entries infos ∧
                  after.pending = task.pending ∨
              sigsetHas captured info.sig = some false ∧
                after.queue = .entries (infos.eraseIdx position)) := by
  obtain ⟨task, isTask, run⟩ := bind_eq_some_iff.mp run
  split at run
  · rename_i captured position infos isControl isQueue
    obtain ⟨info, isInfo, run⟩ := bind_eq_some_iff.mp run
    obtain ⟨has, isHas, run⟩ := bind_eq_some_iff.mp run
    refine ⟨task, captured, position, infos, info,
      ⟨isTask, isControl, isQueue, isInfo⟩, ?_⟩
    have isMask :
        w.handlerMask id traced =
          match w.handlerAt task captured info traced with
          | none => 0
          | some action => (maskInHandler 0 action info.sig).getD 0 := by
      simp only [handlerMask, isTask, isControl, isQueue, isInfo]
    rw [isMask]
    have loops :
        ∀ {last : Bool} {from_ : Nat} {set : SigSet},
          (loopAt captured from_ last).captured = some set →
          set = captured := by
      intro last from_ set isSet
      cases last with
      | true => cases isSet
      | false =>
        cases isSet
        rfl
    cases has with
    | true =>
      cases run
      refine ⟨fun other differs => update_of_ne differs ..,
        _, update_self .., fun _ => loops, ?_,
        .inl ⟨isHas, isQueue, rfl⟩⟩
      rw [handlerAt_eq_none (.inl isHas)]
      exact BitVec.or_zero.symm
    | false =>
      obtain ⟨pending, _, run⟩ := bind_eq_some_iff.mp run
      split at run
      · rename_i stops
        cases run
        have isTraced := (Bool.and_eq_true_iff.mp stops).1
        refine ⟨fun other differs => update_of_ne differs ..,
          _, update_self .., fun _ isSet => ?_, ?_,
          .inr ⟨isHas, rfl⟩⟩
        · cases isSet
          rfl
        · rw [handlerAt_eq_none (.inr (.inl isTraced))]
          exact BitVec.or_zero.symm
      · rename_i goesOn
        obtain ⟨⟨handId, hand⟩, hasSighand, run⟩ :=
          bind_eq_some_iff.mp run
        have isSighand : w.sighandOf task = some (handId, hand) :=
          hasSighand
        obtain ⟨disposition, isAction, run⟩ :=
          bind_eq_some_iff.mp run
        have noHandler :
            disposition ≠ .callHandler →
              w.handlerAt task captured info traced = none := by
          intro other
          refine handlerAt_eq_none (.inr (.inr ?_))
          intro otherId otherHand isOther calls
          cases isSighand.symm.trans isOther
          exact other (some.inj (isAction.symm.trans calls))
        cases disposition with
        | ignore | stop =>
          cases run
          refine ⟨fun other differs => update_of_ne differs ..,
            _, update_self .., fun _ => loops, ?_,
            .inr ⟨isHas, rfl⟩⟩
          rw [noHandler (by decide)]
          exact BitVec.or_zero.symm
        | kill =>
          cases run
          refine ⟨fun other differs => update_of_ne differs ..,
            _, update_self .., fun _ impossible => ?_, ?_,
            .inr ⟨isHas, rfl⟩⟩
          · cases impossible
          · rw [noHandler (by decide)]
            exact BitVec.or_zero.symm
        | callHandler =>
          obtain ⟨action, isRead, run⟩ := bind_eq_some_iff.mp run
          obtain ⟨mask, isMask, run⟩ := bind_eq_some_iff.mp run
          have notTraced : traced = false := by
            cases traced with
            | false => rfl
            | true =>
              have notKill : info.sig ≠ sigKill := by
                intro isKill
                exact (sigIndex_of_callHandler isAction).1
                  (by rw [isKill]; rfl)
              exact absurd (decide_eq_true notKill) (by simpa using goesOn)
          have isHandler :
              w.handlerAt task captured info traced = some action := by
            unfold handlerAt
            rw [isSighand]
            exact (if_pos ⟨isHas, notTraced, isAction⟩).trans isRead
          rw [isHandler]
          have same := maskInHandler_eq isMask
          split at run
          · cases run
          split at run
          · cases run
            exact ⟨fun other differs => update_of_ne differs ..,
              _, update_self .., fun _ => loops, same,
              .inr ⟨isHas, rfl⟩⟩
          · cases run
            exact ⟨fun other differs => update_of_ne differs ..,
              _, update_self .., fun _ => loops, same,
              .inr ⟨isHas, rfl⟩⟩
  · cases run

theorem keepsMasks_of_beginReceive
    (differs : other ≠ id)
    (run : w.beginReceive other = some next) :
    KeepsMasks id w next := by
  obtain ⟨task, isTask, run⟩ := bind_eq_some_iff.mp run
  split at run
  · obtain ⟨_, _, run⟩ := bind_eq_some_iff.mp run
    split at run
    · cases run
      exact keepsMasks_setTask_of_ne differs
    · cases run
      exact keepsMasks_setTask_of_ne differs
  · cases run

/-- The end of `sys_rt_sigtimedwait` is not in a loop. -/
theorem keepsMasks_of_endTimedwait
    {timedOut : Bool}
    {result : Except Errno Int}
    (run : w.endTimedwait other timedOut = some (next, result)) :
    KeepsMasks id w next := by
  obtain ⟨task, isTask, run⟩ := bind_eq_some_iff.mp run
  split at run
  · split at run
    · cases run
      exact keepsMasks_setTask_of_none rfl
    split at run
    · cases run
    obtain ⟨found, _, run⟩ := bind_eq_some_iff.mp run
    cases found with
    | none | some entry =>
      cases run
      exact keepsMasks_setTask_of_none rfl
  · cases run

theorem keepsMasks_of_creation
    {child : SigTaskId}
    (isCreation :
      step = .clearPending child ∨ step = .resetSignals child ∨
        step = .initQueue child ∨ step = .start child)
    (run : step.run w = some next) :
    KeepsMasks id w next := by
  rcases isCreation with rfl | rfl | rfl | rfl
  all_goals
    obtain ⟨task, isTask, run⟩ := bind_eq_some_iff.mp run
    split at run
    · cases run
      exact keepsMasks_setTask_of_none rfl
    · cases run

/-- The end of a task is not in a loop. -/
theorem keepsMasks_of_ending
    (isEnding :
      step = .exit other ∨ step = .zombie other ∨ step = .destroy other)
    (run : step.run w = some next) :
    KeepsMasks id w next := by
  rcases isEnding with rfl | rfl | rfl
  · obtain ⟨task, isTask, run⟩ := bind_eq_some_iff.mp run
    split at run
    · split at run
      · cases run
        exact keepsMasks_setTask_of_none rfl
      · cases run
    · cases run
  · obtain ⟨task, isTask, run⟩ := bind_eq_some_iff.mp run
    cases run
    exact keepsMasks_setTask isTask fun _ isCaptured => ⟨isCaptured, rfl⟩
  · obtain ⟨task, isTask, run⟩ := bind_eq_some_iff.mp run
    split at run
    · cases run
      intro found captured isFound isCaptured
      by_cases same : id = other
      · subst same
        cases (update_self id none w.tasks).symm.trans isFound
      · have isOld : w.tasks id = some found :=
          (update_of_ne same none w.tasks).symm.trans isFound
        exact ⟨found, isOld, isCaptured, rfl⟩
    · cases run

theorem keepsMasks_of_running
    (isRunning : w.running other = some task)
    (sameControl : after.control = task.control) :
    KeepsMasks id w (w.setTask other after) := by
  refine keepsMasks_setTask_of_none ?_
  rw [sameControl, (of_running isRunning).2]
  rfl

/-- No step but the rounds of a pass changes the masks of its task. -/
theorem keepsMasks_of_run
    (isOther : step.IsOther id)
    (run : step.run w = some next) :
    KeepsMasks id w next := by
  cases step with
  | deliver other sig info =>
    obtain ⟨task, _, run⟩ := bind_eq_some_iff.mp run
    obtain ⟨_, _, run⟩ := bind_eq_some_iff.mp run
    exact keepsMasks_of_deliver run
  | send other sig info => exact keepsMasks_of_sendSignal run
  | trySelf other sig =>
    obtain ⟨task, _, run⟩ := bind_eq_some_iff.mp run
    exact keepsMasks_of_trySelfSignal run
  | sigaction other signum action =>
    obtain ⟨task, _, run⟩ := bind_eq_some_iff.mp run
    obtain ⟨⟨_, _⟩, write, rfl⟩ := map_eq_some_iff.mp run
    exact .of_tasks (tasks_of_doSigaction write)
  | exec other =>
    obtain ⟨task, _, run⟩ := bind_eq_some_iff.mp run
    obtain ⟨_, _, run⟩ := bind_eq_some_iff.mp run
    cases run
    exact .of_tasks rfl
  | sigprocmask other how set =>
    obtain ⟨task, isRunning, run⟩ := bind_eq_some_iff.mp run
    unfold doSigprocmask at run
    split at run
    · cases run
      exact .of_tasks rfl
    · rename_i masked isMasked
      cases run
      refine keepsMasks_of_running isRunning ?_
      split at isMasked
      · cases isMasked
        rfl
      split at isMasked
      · cases isMasked
        rfl
      split at isMasked
      · cases isMasked
        rfl
      · cases isMasked
  | sigmaskSetTemp other mask | sigreturn other extramask oldmask
  | rtSigreturn other sigmask =>
    obtain ⟨task, isRunning, run⟩ := bind_eq_some_iff.mp run
    cases run
    exact keepsMasks_of_running isRunning rfl
  | beginReceive other => exact keepsMasks_of_beginReceive isOther run
  | receiveRound other traced written =>
    obtain ⟨_, _, _, _, _, _, others, _⟩ := receiveRound_cases run
    intro found captured isFound isCaptured
    rw [others id (Ne.symm isOther)] at isFound
    exact ⟨found, isFound, isCaptured, rfl⟩
  | endStop other => exact keepsMasks_of_endStop run
  | beginTimedwait other set =>
    obtain ⟨task, isTask, run⟩ := bind_eq_some_iff.mp run
    split at run
    · cases run
      exact keepsMasks_setTask_of_none rfl
    · cases run
  | endTimedwait other timedOut =>
    obtain ⟨⟨_, _⟩, finish, rfl⟩ := map_eq_some_iff.mp run
    exact keepsMasks_of_endTimedwait finish
  | create parent child =>
    obtain ⟨task, isTask, run⟩ := bind_eq_some_iff.mp run
    split at run
    · cases run
    · cases run
      exact keepsMasks_setTask_of_none rfl
  | clearPending child => exact keepsMasks_of_creation (.inl rfl) run
  | resetSignals child => exact keepsMasks_of_creation (.inr (.inl rfl)) run
  | initQueue child =>
    exact keepsMasks_of_creation (.inr (.inr (.inl rfl))) run
  | sighandCopy child fresh =>
    obtain ⟨task, isTask, run⟩ := bind_eq_some_iff.mp run
    obtain ⟨⟨_, _⟩, _, run⟩ := bind_eq_some_iff.mp run
    dsimp only at run
    split at run
    · cases run
      refine KeepsMasks.congr (keepsMasks_setTask isTask ?_) rfl
      exact fun _ isCaptured => ⟨isCaptured, rfl⟩
    · cases run
  | start child =>
    exact keepsMasks_of_creation (.inr (.inr (.inr rfl))) run
  | exit other => exact keepsMasks_of_ending (.inl rfl) run
  | zombie other => exact keepsMasks_of_ending (.inr (.inl rfl)) run
  | destroy other => exact keepsMasks_of_ending (.inr (.inr rfl)) run

end Steps

end SignalWorld

/-- In a pass the task blocks what it did, and what its handlers block. -/
theorem InPass.blocked
    {id : SigTaskId}
    {start raised : SigSet}
    {w : SignalWorld}
    (inPass : InPass id start raised w) :
    ∀ task captured,
      w.tasks id = some task → task.control.captured = some captured →
      task.blocked = start ||| raised := by
  induction inPass with
  | begins _ _ isTask =>
    intro task captured isFound _
    cases isTask.symm.trans isFound
    exact BitVec.or_zero.symm
  | round _ run inductionHypothesis =>
    intro task captured isFound _
    obtain ⟨before, loop, position, infos, info, atEntry, _, after, isAfter,
      _, isBlocked, _⟩ := SignalWorld.receiveRound_cases run
    cases isAfter.symm.trans isFound
    have wasBlocked :=
      inductionHypothesis before loop atEntry.isTask
        (by rw [atEntry.isControl]; rfl)
    rw [isBlocked, wasBlocked, BitVec.or_assoc]
  | other _ run isOther inductionHypothesis =>
    intro task captured isFound isCaptured
    obtain ⟨before, isBefore, wasCaptured, same⟩ :=
      SignalWorld.keepsMasks_of_run isOther run task captured isFound
        isCaptured
    rw [← same]
    exact inductionHypothesis before captured isBefore wasCaptured

namespace SignalWorld

/-- There is one entry that a round is at. -/
theorem AtEntry.unique
    {w : SignalWorld}
    {id : SigTaskId}
    {task other : SigTask}
    {captured otherCaptured : SigSet}
    {position otherPosition : Nat}
    {infos otherInfos : List SigInfo}
    {info otherInfo : SigInfo}
    (atEntry : w.AtEntry id task captured position infos info)
    (alsoAt :
      w.AtEntry id other otherCaptured otherPosition otherInfos otherInfo) :
    task = other ∧ captured = otherCaptured ∧ position = otherPosition ∧
      infos = otherInfos ∧ info = otherInfo := by
  cases atEntry.isTask.symm.trans alsoAt.isTask
  cases atEntry.isControl.symm.trans alsoAt.isControl
  cases atEntry.isQueue.symm.trans alsoAt.isQueue
  cases atEntry.isInfo.symm.trans alsoAt.isInfo
  exact ⟨rfl, rfl, rfl, rfl, rfl⟩

end SignalWorld

/--
In every state of every pass, the next round respects the mask of the task
exactly when the signal at its entry was not blocked by a handler that the pass
has set up.
-/
theorem round_respects_mask_iff
    {id : SigTaskId}
    {start raised : SigSet}
    {w next : SignalWorld}
    {traced written : Bool}
    (inPass : InPass id start raised w)
    (run : w.receiveRound id traced written = some next) :
    w.RespectsMask id start traced next ↔
      w.EntryUnmasked id start raised := by
  obtain ⟨task, captured, position, infos, info, atEntry, _, after, isAfter, _,
    _, kinds⟩ := SignalWorld.receiveRound_cases run
  have isBlocked :=
    inPass.blocked task captured atEntry.isTask
      (by rw [atEntry.isControl]; rfl)
  have has_iff :
      SigSet.Has task.blocked info.sig ↔
        SigSet.Has start info.sig ∨ SigSet.Has raised info.sig := by
    unfold SigSet.Has
    rw [isBlocked, BitVec.getLsbD_or, Bool.or_eq_true]
  constructor
  · intro respects other otherCaptured otherPosition otherInfos otherInfo
      alsoAt blockable notCaptured isRaised
    obtain ⟨rfl, rfl, rfl, rfl, rfl⟩ := atEntry.unique alsoAt
    by_contra notStart
    obtain ⟨later, isLater, kept, _⟩ :=
      (respects task captured position infos info atEntry
        (has_iff.mpr (.inr isRaised)) fun both => notStart both.1).2 blockable
    cases isAfter.symm.trans isLater
    rcases kinds with ⟨has, _⟩ | ⟨_, erased⟩
    · exact notCaptured (sigsetHas_eq_some_iff.mp has).2
    · have same : infos = infos.eraseIdx position :=
        SigQueue.entries.inj (kept.symm.trans erased)
      obtain ⟨inside, _⟩ := List.getElem?_eq_some_iff.mp atEntry.isInfo
      have shorter := List.length_eraseIdx_of_lt inside
      rw [← same] at shorter
      omega
  · intro unmasked other otherCaptured otherPosition otherInfos otherInfo
      alsoAt has notThrough
    obtain ⟨rfl, rfl, rfl, rfl, rfl⟩ := atEntry.unique alsoAt
    rcases kinds with ⟨isHas, kept, pending⟩ | ⟨isHas, _⟩
    · refine ⟨fun action calls => ?_, fun _ =>
        ⟨after, isAfter, kept, pending⟩⟩
      obtain ⟨_, _, _, _, _, _, _, isTask, isControl, isQueue, isInfo, notHas,
        _⟩ := calls
      obtain ⟨rfl, rfl, rfl, rfl, rfl⟩ :=
        atEntry.unique ⟨isTask, isControl, isQueue, isInfo⟩
      cases isHas.symm.trans notHas
    · have notCaptured : ¬SigSet.Has captured info.sig := by
        unfold SigSet.Has
        rw [(sigsetHas_eq_some_iff.mp isHas).2]
        exact Bool.false_ne_true
      have fixed : ¬signalIsBlockable info.sig = true := by
        intro blockable
        have isStart : SigSet.Has start info.sig := by
          rcases has_iff.mp has with isStart | isRaised
          · exact isStart
          · exact unmasked task captured position infos info atEntry blockable
              notCaptured isRaised
        exact notThrough ⟨isStart, notCaptured⟩
      refine ⟨fun action calls => ?_, fun blockable => absurd blockable fixed⟩
      obtain ⟨_, _, _, _, _, _, _, isTask, isControl, isQueue, isInfo, _, _,
        isAction, _⟩ := calls
      obtain ⟨rfl, rfl, rfl, rfl, rfl⟩ :=
        atEntry.unique ⟨isTask, isControl, isQueue, isInfo⟩
      unfold signalAction at isAction
      rw [if_neg fixed] at isAction
      unfold defaultAction at isAction
      split at isAction
      · cases isAction
      · split at isAction <;> cases isAction

/-- An action for `SIGUSR1_` whose handler blocks `SIGUSR2_`, and another one. -/
def twoHandlers (other : Nat) : List SignalStep :=
  [.sigaction 1 10#32 (some ⟨4096#32, 0#32, 0#32, BitVec.twoPow 64 11⟩),
    .sigaction 1 (.ofNat 32 other) (some ⟨8192#32, 0#32, 0#32, 0#64⟩),
    .send 1 10 .nil, .send 1 other .nil]

/-- The start of a pass, and the same pass after its first round. -/
def beforeFirstRound (other : Nat) : SignalWorld :=
  .afterSteps (twoHandlers other ++ [.beginReceive 1])

def afterFirstRound (other : Nat) : SignalWorld :=
  .afterSteps
    (twoHandlers other ++ [.beginReceive 1, .receiveRound 1 false true])

theorem inPass_afterFirstRound
    {other : Nat}
    (isOther : other = 12 ∨ other = 15) :
    InPass 1 0 (0 ||| (beforeFirstRound other).handlerMask 1 false)
      (afterFirstRound other) := by
  have reachable :
      signalMachine.Reachable (.afterSteps (twoHandlers other)) := by
    refine Machine.Reachable.foldlM SignalStep.run (fun run => run)
      (Machine.Reachable.initial rfl)
      (show (twoHandlers other).foldlM SignalStep.run .first = some _ from ?_)
    rcases isOther with rfl | rfl <;> rfl
  have begins :
      (SignalWorld.afterSteps (twoHandlers other)).beginReceive 1 =
        some (beforeFirstRound other) := by
    rcases isOther with rfl | rfl <;> rfl
  have begun : InPass 1 0 0 (beforeFirstRound other) := by
    rcases isOther with rfl | rfl
    · exact @InPass.begins 1 _ _ _ reachable begins rfl
    · exact @InPass.begins 1 _ _ _ reachable begins rfl
  have round :
      (beforeFirstRound other).receiveRound 1 false true =
        some (afterFirstRound other) := by
    rcases isOther with rfl | rfl <;> rfl
  exact begun.round round

/-- In the second round a signal that no handler blocks respects the mask. -/
theorem second_round_respects_mask :
    ∃ raised next,
      InPass 1 0 raised (afterFirstRound 15) ∧ SigSet.Has raised 12 ∧
        (afterFirstRound 15).receiveRound 1 false true = some next ∧
        (afterFirstRound 15).RespectsMask 1 0 false next := by
  have inPass := inPass_afterFirstRound (.inr rfl)
  refine ⟨_, _, inPass, by unfold SigSet.Has; decide, rfl, ?_⟩
  refine (@round_respects_mask_iff 1 0 _ _ _ false true inPass rfl).mpr ?_
  intro task captured position infos info atEntry _ _ isRaised
  obtain ⟨_, _, _, _, rfl⟩ :=
    atEntry.unique ⟨rfl, rfl, rfl, rfl⟩
  exact absurd isRaised (by unfold SigSet.Has; decide)

/-- The second round sets up a handler for the signal that the first blocks. -/
theorem second_round_ignores_mask :
    ∃ start raised w next,
      InPass 1 start raised w ∧
        w.receiveRound 1 false true = some next ∧
        ¬w.RespectsMask 1 start false next := by
  refine ⟨0, _, _, _, inPass_afterFirstRound (.inl rfl), rfl,
    fun respects => ?_⟩
  obtain ⟨after, isAfter, kept, _⟩ :=
    (respects _ _ _ _ _ ⟨rfl, rfl, rfl, rfl⟩ (by unfold SigSet.Has; decide)
      (by unfold SigSet.Has; decide)).2 rfl
  cases isAfter
  cases kept

end GuestKernel
