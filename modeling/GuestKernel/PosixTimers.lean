import GuestKernel.CallLocks

namespace GuestKernel
open Option Function

/-!
# Ids and recipients of POSIX timers

The array `posix_timers` of one thread group: `timer_create` takes a slot,
`timer_settime` and `timer_delete` index it with what the guest passes, and the
callback looks up the thread that was recorded when the timer was created.
-/

/-- What counts of one `struct task`. -/
structure PidTask where
  task : Nat
  group : Nat
  zombie : Bool
  exiting : Bool
  deriving Repr, DecidableEq

/--
The tasks of `pids`, and what is behind its end.  No task ever has the pid 0:
`task_create_` goes from 1 to `MAX_PID`.
-/
structure PidTable where
  tasks : Nat → Option PidTask
  noZero : tasks 0 = none

/-- `pid_get_task`; an id one behind the end is let through. -/
def PidTable.pidGetTask (table : PidTable) (id : BitVec 32) :
    Option PidTask :=
  if maxPid + 1 < id.toNat then
    none
  else
    (table.tasks id.toNat).filter fun task => !task.zombie

theorem PidTable.pidGetTask_zero (table : PidTable) :
    table.pidGetTask 0 = none := by
  show (if maxPid + 1 < 0 then none else (table.tasks 0).filter _) = none
  rw [if_neg (Nat.not_lt_zero _), table.noZero]
  rfl

/-- The live thread with an id: `send_signal` passes an exiting one over. -/
def PidTable.liveThread (table : PidTable) (id : BitVec 32) :
    Option PidTask :=
  (table.pidGetTask id).filter fun task => !task.exiting

/-- `struct sigevent_`. -/
structure Sigevent where
  value : BitVec 32
  signo : BitVec 32
  method : BitVec 32
  tid : BitVec 32
  deriving Repr, DecidableEq

/-- `SIGEV_SIGNAL_`. -/
def sigevSignal : BitVec 32 := 0

/-- `SIGEV_NONE_`. -/
def sigevNone : BitVec 32 := 1

/-- `SIGEV_THREAD_ID_`. -/
def sigevThreadId : BitVec 32 := 4

/-- `struct posix_timer` with a timer, and the request it was made for. -/
structure PosixTimer where
  timerId : Nat
  /-- `tgroup` is not `NULL`. -/
  hasGroup : Bool
  threadPid : BitVec 32
  signal : BitVec 32
  sigValue : BitVec 32
  armed : Bool
  sigev : Sigevent
  deriving Repr, DecidableEq

/-- One `struct tgroup`; a slot is empty if its timer is `NULL`. -/
structure PosixGroup where
  group : Nat
  leaderPid : BitVec 32
  slots : Fin timersMax → Option PosixTimer
  /-- `pids_lock` was not given back. -/
  pidsLocked : Bool

/-- How a call ends. -/
inductive PosixEnd where
  | returned (error : Option Errno) (next : PosixGroup)
  | blocked
  /-- It went outside `posix_timers`, or to the timer of an empty slot. -/
  | wild

/-- The signal that an expiry sends. -/
structure TimerSignal where
  thread : PidTask
  signal : BitVec 32
  timerId : Nat
  value : BitVec 32
  deriving Repr, DecidableEq

/-- What an expiry does. -/
inductive Sending where
  | nothing
  | sent (signal : TimerSignal)
  /-- `signal_action` reads outside the actions, and `sig_mask` asserts. -/
  | broken
  deriving Repr, DecidableEq

/-- `NUM_SIGS`. -/
abbrev numSigs : Nat := 64

/-- The assertion of `sig_mask`; a negative number is a large one here. -/
def IsSignal (sig : BitVec 32) : Prop :=
  1 ≤ sig.toNat ∧ sig.toNat < numSigs

instance (sig : BitVec 32) : Decidable (IsSignal sig) :=
  inferInstanceAs (Decidable (_ ∧ _))

/-- `send_signal` to a thread that `pid_get_task` found. -/
def sendSignal (signal : TimerSignal) : Sending :=
  if signal.signal = 0 ∨ signal.thread.exiting then
    .nothing
  else if IsSignal signal.signal then
    .sent signal
  else
    .broken

namespace PosixGroup

/-- The first free slot. -/
def freeSlot (state : PosixGroup) : Option (Fin timersMax) :=
  (List.finRange timersMax).find? fun index => (state.slots index).isNone

/-- Change one slot. -/
def setSlot
    (state : PosixGroup) (index : Fin timersMax)
    (timer : Option PosixTimer) : PosixGroup :=
  { state with slots := update state.slots index timer }

/-- The timer that is made for a request. -/
def newTimer (state : PosixGroup) (index : Fin timersMax) (sigev : Sigevent) :
    PosixTimer where
  timerId := index
  hasGroup := sigev.method = sigevSignal || sigev.method = sigevThreadId
  threadPid :=
    if sigev.method = sigevThreadId then state.leaderPid else 0
  signal := sigev.signo
  sigValue := sigev.value
  armed := false
  sigev := sigev

/-- The end of `sys_timer_create`. -/
def takeSlot
    (state : PosixGroup) (sigev : Sigevent) (timerWritable : Bool) :
    PosixEnd :=
  match state.freeSlot with
  | none => .returned (some .nomem) state
  | some index =>
    if timerWritable then
      .returned none (state.setSlot index (state.newTimer index sigev))
    else
      .returned (some .fault) state

/-- `sys_timer_create`. -/
def timerCreate
    (state : PosixGroup) (table : PidTable) (clock : BitVec 32)
    (sigevent : Option Sigevent) (timerWritable : Bool) : PosixEnd :=
  if CallWorld.isRealClock clock = false then
    .returned (some .inval) state
  else
    match sigevent with
    | none => .returned (some .fault) state
    | some sigev =>
      if sigev.method ≠ sigevSignal ∧ sigev.method ≠ sigevNone ∧
          sigev.method ≠ sigevThreadId then
        .returned (some .inval) state
      else if sigev.method = sigevThreadId then
        if state.pidsLocked then
          .blocked
        else if table.pidGetTask sigev.tid = none then
          .returned (some .inval) { state with pidsLocked := true }
        else
          state.takeSlot sigev timerWritable
      else
        state.takeSlot sigev timerWritable

/--
`sys_timer_settime`, with the new value if it can be read.  Whether the timer
is armed is all that counts of the value here.
-/
def timerSettime
    (state : PosixGroup) (timerId : BitVec 32) (value : Option Bool)
    (oldWritable : Bool) : PosixEnd :=
  match value with
  | none => .returned (some .fault) state
  | some starts =>
    if timersMax < timerId.toNat then
      .returned (some .inval) state
    else if inArray : timerId.toNat < timersMax then
      match state.slots ⟨timerId.toNat, inArray⟩ with
      | none => .wild
      | some timer =>
        .returned (if oldWritable then none else some .fault)
          (state.setSlot ⟨timerId.toNat, inArray⟩
            (some { timer with armed := starts }))
    else
      .wild

/-- `sys_timer_delete`. -/
def timerDelete (state : PosixGroup) (timerId : BitVec 32) : PosixEnd :=
  if inArray : timerId.toNat < timersMax then
    match state.slots ⟨timerId.toNat, inArray⟩ with
    | none => .returned (some .inval) state
    | some _ =>
      .returned none (state.setSlot ⟨timerId.toNat, inArray⟩ none)
  else
    .wild

/--
`posix_timer_callback`, and the signal it sends; where `pids_lock` was not
given back it never gets there.
-/
def posixTimerCallback
    (state : PosixGroup) (table : PidTable) (timer : PosixTimer) : Sending :=
  if !timer.hasGroup || state.pidsLocked then
    .nothing
  else
    match table.pidGetTask timer.threadPid with
    | none => .nothing
    | some thread =>
      sendSignal
        { thread := thread
          signal := timer.signal
          timerId := timer.timerId
          value := timer.sigValue }

end PosixGroup

/-- The calls of the group, and the expiry of one of its timers. -/
inductive PosixStep where
  | timerCreate
      (table : PidTable) (clock : BitVec 32) (sigevent : Option Sigevent)
      (timerWritable : Bool)
  | timerSettime
      (timerId : BitVec 32) (value : Option Bool) (oldWritable : Bool)
  | timerDelete (timerId : BitVec 32)
  | expires (table : PidTable) (index : Fin timersMax) (again : Bool)

/-- The state after a call that returns. -/
def PosixEnd.next : PosixEnd → Option PosixGroup
  | .returned _ next => some next
  | .blocked => none
  | .wild => none

namespace PosixGroup

/-- One step. -/
def run (state : PosixGroup) : PosixStep → Option PosixGroup
  | .timerCreate table clock sigevent timerWritable =>
    (state.timerCreate table clock sigevent timerWritable).next
  | .timerSettime timerId value oldWritable =>
    (state.timerSettime timerId value oldWritable).next
  | .timerDelete timerId => (state.timerDelete timerId).next
  | .expires _ index again =>
    match state.slots index with
    | none => none
    | some timer =>
      if timer.armed && (!timer.hasGroup || !state.pidsLocked) then
        some (state.setSlot index (some { timer with armed := again }))
      else
        none

end PosixGroup

/-- A group that begins without timers, among any other tasks. -/
def posixMachine : Machine PosixGroup PosixStep where
  initial state := state.slots = (fun _ => none) ∧ state.pidsLocked = false
  step state action next := state.run action = some next

namespace PosixGroup

/-- The id names a timer of the group. -/
def Names (state : PosixGroup) (timerId : BitVec 32) : Prop :=
  ∃ inArray : timerId.toNat < timersMax,
    state.slots ⟨timerId.toNat, inArray⟩ ≠ none

/-- An id that names no timer is refused, and nothing changes. -/
def Refuses
    (state : PosixGroup) (timerId : BitVec 32) (outcome : PosixEnd) : Prop :=
  ¬state.Names timerId → ∃ code, outcome = .returned (some code) state

/-- The signal that a thread is to get from a timer. -/
def signalTo (timer : PosixTimer) (thread : PidTask) : TimerSignal where
  thread := thread
  signal := timer.sigev.signo
  timerId := timer.timerId
  value := timer.sigev.value

/-- The signal of an expiry goes to whom the request named. -/
def Delivers
    (state : PosixGroup) (table : PidTable) (timer : PosixTimer) : Prop :=
  let sending := state.posixTimerCallback table timer
  if timer.sigev.method = sigevThreadId then
    sending =
      match table.liveThread timer.sigev.tid with
      | none => .nothing
      | some thread => .sent (signalTo timer thread)
  else if timer.sigev.method = sigevSignal then
    ∃ id thread,
      table.liveThread id = some thread ∧ thread.group = state.group ∧
        sending = .sent (signalTo timer thread)
  else
    sending = .nothing

/-- What a step has to do. -/
def Lawful (state : PosixGroup) : PosixStep → Prop
  | .timerCreate .. => True
  | .timerSettime timerId value oldWritable =>
    state.Refuses timerId (state.timerSettime timerId value oldWritable)
  | .timerDelete timerId => state.Refuses timerId (state.timerDelete timerId)
  | .expires table index _ =>
    ∀ timer,
      state.slots index = some timer → timer.armed = true →
      state.Delivers table timer

/-- Whom a timer for a thread reaches. -/
def reached
    (state : PosixGroup) (table : PidTable) (timer : PosixTimer) :
    Option PidTask :=
  if state.pidsLocked ∨ timer.sigev.signo = 0 then
    none
  else
    table.liveThread state.leaderPid

/--
A timer of the right thread: it is for nobody; or for a thread, and the leader
is that thread and the signal is one, or neither is alive.
-/
def SuitsTimer
    (state : PosixGroup) (table : PidTable) (timer : PosixTimer) : Prop :=
  timer.sigev.method = sigevNone ∨
    timer.sigev.method = sigevThreadId ∧
      table.liveThread timer.sigev.tid = state.reached table timer ∧
      (state.reached table timer ≠ none → IsSignal timer.sigev.signo)

/--
`timer_settime`: the value cannot be read, the id is beyond the array and the
place behind it, or it names a timer.  `timer_delete`: the id is in the array.
-/
def Suits (state : PosixGroup) : PosixStep → Prop
  | .timerCreate .. => True
  | .timerSettime timerId value _ =>
    value = none ∨ timersMax < timerId.toNat ∨ state.Names timerId
  | .timerDelete timerId => timerId.toNat < timersMax
  | .expires table index _ =>
    ∀ timer,
      state.slots index = some timer → timer.armed = true →
      state.SuitsTimer table timer

end PosixGroup

variable
  {state next : PosixGroup}
  {table : PidTable}
  {timer : PosixTimer}
  {index : Fin timersMax}

/-- A timer is as it was made, but for being armed or not. -/
structure PosixGroup.Made
    (state : PosixGroup) (index : Fin timersMax) (timer : PosixTimer) :
    Prop where
  same :
    timer = { state.newTimer index timer.sigev with armed := timer.armed }
  known :
    timer.sigev.method = sigevSignal ∨ timer.sigev.method = sigevNone ∨
      timer.sigev.method = sigevThreadId

theorem PosixGroup.Made.setArmed
    (made : state.Made index timer)
    (armed : Bool) :
    state.Made index { timer with armed := armed } where
  same := congrArg (fun made => { made with armed := armed }) made.same
  known := made.known

/-- All timers are as they were made. -/
def PosixGroup.AllMade (state : PosixGroup) : Prop :=
  ∀ index timer, state.slots index = some timer → state.Made index timer

/-- A slot that is changed to a timer as it was made. -/
theorem PosixGroup.AllMade.setSlot
    (made : state.AllMade)
    {content : Option PosixTimer}
    (isMade : ∀ timer, content = some timer → state.Made index timer) :
    (state.setSlot index content).AllMade := by
  intro other timer holds
  change update state.slots index content other = some timer
    at holds
  by_cases same : other = index
  · subst same
    rw [Function.update_self] at holds
    obtain ⟨isSame, known⟩ := isMade timer holds
    exact ⟨isSame, known⟩
  · rw [Function.update_of_ne same] at holds
    obtain ⟨isSame, known⟩ := made other timer holds
    exact ⟨isSame, known⟩

/-- Taking a slot for a request that is known. -/
private theorem allMade_takeSlot
    (made : state.AllMade)
    {sigev : Sigevent}
    (known :
      sigev.method = sigevSignal ∨ sigev.method = sigevNone ∨
        sigev.method = sigevThreadId)
    {timerWritable : Bool}
    (taken : (state.takeSlot sigev timerWritable).next = some next) :
    next.AllMade := by
  unfold PosixGroup.takeSlot at taken
  split at taken
  · cases taken
    exact made
  split at taken
  · cases taken
    refine made.setSlot fun timer isNew => ?_
    cases isNew
    exact ⟨rfl, known⟩
  · cases taken
    exact made

theorem PosixGroup.AllMade.step
    (made : state.AllMade)
    {action : PosixStep}
    (stepped : state.run action = some next) :
    next.AllMade := by
  cases action with
  | timerCreate table clock sigevent timerWritable =>
    simp only [PosixGroup.run, PosixGroup.timerCreate] at stepped
    split at stepped
    · cases stepped
      exact made
    split at stepped
    · cases stepped
      exact made
    rename_i sigev
    split at stepped
    · cases stepped
      exact made
    rename_i isKnown
    have known :
        sigev.method = sigevSignal ∨ sigev.method = sigevNone ∨
          sigev.method = sigevThreadId := by
      by_contra unknown
      simp only [not_or] at unknown
      exact isKnown unknown
    split at stepped
    · split at stepped
      · cases stepped
      split at stepped
      · cases stepped
        intro index timer holds
        obtain ⟨same, known⟩ := made index timer holds
        exact ⟨same, known⟩
      · exact allMade_takeSlot made known stepped
    · exact allMade_takeSlot made known stepped
  | timerSettime timerId value oldWritable =>
    simp only [PosixGroup.run, PosixGroup.timerSettime] at stepped
    split at stepped
    · cases stepped
      exact made
    split at stepped
    · cases stepped
      exact made
    split at stepped
    · split at stepped
      · cases stepped
      rename_i timer holds
      cases stepped
      refine made.setSlot fun other isSet => ?_
      cases isSet
      exact (made _ timer holds).setArmed _
    · cases stepped
  | timerDelete timerId =>
    simp only [PosixGroup.run, PosixGroup.timerDelete] at stepped
    split at stepped
    · split at stepped <;> cases stepped
      · exact made
      · exact made.setSlot nofun
    · cases stepped
  | expires table index again =>
    simp only [PosixGroup.run] at stepped
    split at stepped
    · cases stepped
    rename_i timer holds
    split at stepped
    · cases stepped
      refine made.setSlot fun other isSet => ?_
      cases isSet
      exact (made _ timer holds).setArmed _
    · cases stepped

/-- What a timer as it was made does. -/
theorem PosixGroup.Made.callback_eq
    (made : state.Made index timer) :
    state.posixTimerCallback table timer =
      if timer.sigev.method = sigevThreadId then
        match state.reached table timer with
        | none => .nothing
        | some thread => sendSignal (PosixGroup.signalTo timer thread)
      else
        .nothing := by
  obtain ⟨same, known⟩ := made
  have hasGroup := congrArg PosixTimer.hasGroup same
  have threadPid := congrArg PosixTimer.threadPid same
  have signal := congrArg PosixTimer.signal same
  have value := congrArg PosixTimer.sigValue same
  simp only [PosixGroup.newTimer] at hasGroup threadPid signal value
  unfold PosixGroup.posixTimerCallback PosixGroup.reached
  rw [hasGroup, threadPid, signal, value]
  cases locked : state.pidsLocked with
  | true => simp
  | false =>
    rw [Bool.or_false]
    rcases known with isSignal | isNone | isThread
    · rw [isSignal, if_neg (by decide), if_neg (by decide),
        if_neg (by decide), PidTable.pidGetTask_zero]
    · rw [isNone, if_pos (by decide), if_neg (by decide)]
    · rw [isThread, if_neg (by decide), if_pos rfl, if_pos rfl]
      unfold PidTable.liveThread
      cases table.pidGetTask state.leaderPid with
      | none => simp
      | some thread =>
        by_cases isZero : timer.sigev.signo = 0
        · simp [isZero, sendSignal]
        · rw [if_neg (not_or.mpr ⟨Bool.false_ne_true, isZero⟩)]
          cases isExiting : thread.exiting with
          | true =>
            rw [filter_some, isExiting]
            exact if_pos (.inr isExiting)
          | false =>
            rw [filter_some, isExiting]
            rfl

/-- A thread that is reached is alive, and the signal is not the zero one. -/
theorem PosixGroup.of_reached
    {thread : PidTask}
    (isReached : state.reached table timer = some thread) :
    sendSignal (PosixGroup.signalTo timer thread) =
      if IsSignal timer.sigev.signo then
        .sent (PosixGroup.signalTo timer thread)
      else
        .broken := by
  obtain ⟨isAllowed, isLive⟩ := ite_none_left_eq_some.mp isReached
  have isAlive := (filter_eq_some_iff.mp isLive).2
  rw [not_or] at isAllowed
  refine if_neg (not_or.mpr ⟨isAllowed.2, ?_⟩)
  simpa [PosixGroup.signalTo] using isAlive

/-- When a timer for a thread delivers its signal. -/
theorem PosixGroup.reaches_iff :
    ((match state.reached table timer with
        | none => Sending.nothing
        | some thread => sendSignal (PosixGroup.signalTo timer thread)) =
      match table.liveThread timer.sigev.tid with
      | none => .nothing
      | some thread => .sent (PosixGroup.signalTo timer thread)) ↔
      table.liveThread timer.sigev.tid = state.reached table timer ∧
        (state.reached table timer ≠ none → IsSignal timer.sigev.signo) := by
  cases isReached : state.reached table timer with
  | none =>
    cases table.liveThread timer.sigev.tid with
    | none => simp
    | some thread => simp
  | some thread =>
    simp only [PosixGroup.of_reached isReached]
    by_cases isSignal : IsSignal timer.sigev.signo
    · cases table.liveThread timer.sigev.tid with
      | none => simp [isSignal]
      | some other =>
        simp only [isSignal, if_true, Sending.sent.injEq,
          Option.some.injEq, implies_true, and_true]
        constructor
        · intro same
          exact (congrArg TimerSignal.thread same).symm
        · rintro rfl
          rfl
    · cases table.liveThread timer.sigev.tid with
      | none => simp [isSignal]
      | some other => simp [isSignal]

/-- When an expiry delivers its signal. -/
theorem PosixGroup.Made.delivers_iff
    (made : state.Made index timer) :
    state.Delivers table timer ↔ state.SuitsTimer table timer := by
  unfold PosixGroup.Delivers PosixGroup.SuitsTimer
  rw [made.callback_eq]
  rcases made.known with isSignal | isNone | isThread
  · simp only [isSignal, show sigevSignal ≠ sigevThreadId by decide,
      if_true, if_false]
    refine iff_of_false ?_ ?_
    · rintro ⟨id, thread, found, inGroup, sent⟩
      cases sent
    · rintro (isNone | ⟨isThread, _⟩)
      · exact absurd isNone (by decide)
      · exact absurd isThread (by decide)
  · simp only [isNone, show sigevNone ≠ sigevThreadId by decide,
      show sigevNone ≠ sigevSignal by decide, if_false]
    exact iff_of_true trivial (.inl trivial)
  · simp only [isThread, if_true, true_and]
    rw [or_iff_right (by decide)]
    exact PosixGroup.reaches_iff

/-- Which ids `timer_settime` handles. -/
theorem PosixGroup.refuses_settime_iff
    (timerId : BitVec 32)
    (value : Option Bool)
    (oldWritable : Bool) :
    state.Refuses timerId
        (state.timerSettime timerId value oldWritable) ↔
      value = none ∨ timersMax < timerId.toNat ∨ state.Names timerId := by
  unfold PosixGroup.Refuses PosixGroup.timerSettime
  cases value with
  | none => exact iff_of_true (fun _ => ⟨_, rfl⟩) (.inl rfl)
  | some starts =>
    rw [or_iff_right nofun]
    by_cases beyond : timersMax < timerId.toNat
    · simp only [if_pos beyond]
      exact iff_of_true (fun _ => ⟨_, rfl⟩) (.inl beyond)
    rw [or_iff_right beyond]
    simp only [if_neg beyond]
    constructor
    · intro refuses
      by_contra notNamed
      obtain ⟨code, refused⟩ := refuses notNamed
      split at refused
      · rename_i inArray
        split at refused
        · cases refused
        · rename_i timer holds
          exact notNamed ⟨inArray, holds ▸ some_ne_none timer⟩
      · cases refused
    · exact fun named notNamed => absurd named notNamed

/-- Which ids `timer_delete` handles. -/
theorem PosixGroup.refuses_delete_iff (timerId : BitVec 32) :
    state.Refuses timerId (state.timerDelete timerId) ↔
      timerId.toNat < timersMax := by
  unfold PosixGroup.Refuses PosixGroup.timerDelete
  constructor
  · intro refuses
    by_contra outside
    obtain ⟨code, refused⟩ := refuses fun named => outside named.1
    rw [dif_neg outside] at refused
    cases refused
  · intro inArray notNamed
    rw [dif_pos inArray]
    split
    · exact ⟨_, rfl⟩
    · rename_i timer holds
      exact absurd ⟨inArray, holds ▸ some_ne_none timer⟩ notNamed

theorem allMade_of_reachable
    (reachable : posixMachine.Reachable state) :
    state.AllMade := by
  refine reachable.invariant ?_ ?_
  · rintro state ⟨empty, _⟩ index timer holds
    rw [empty] at holds
    cases holds
  · intro state action next made stepped
    exact made.step stepped

/--
In every state of every run: a call refuses an id that names no timer, and an
expiry signals whom its request named, exactly if the id or the request suits.
-/
theorem posix_timers_lawful_iff
    (reachable : posixMachine.Reachable state)
    (action : PosixStep) :
    state.Lawful action ↔ state.Suits action := by
  have made := allMade_of_reachable reachable
  cases action with
  | timerCreate table clock sigevent timerWritable => exact Iff.rfl
  | timerSettime timerId value oldWritable =>
    exact PosixGroup.refuses_settime_iff timerId value oldWritable
  | timerDelete timerId => exact PosixGroup.refuses_delete_iff timerId
  | expires table index again =>
    refine forall_congr' fun timer => forall_congr' fun holds =>
      forall_congr' fun _ => ?_
    exact (made index timer holds).delivers_iff

/-- The process 1 with a second thread 2, and no others. -/
def twoThreads : PidTable where
  tasks id :=
    if id = 1 then some ⟨1, 1, false, false⟩
    else if id = 2 then some ⟨2, 1, false, false⟩
    else none
  noZero := rfl

/-- The group of both, without timers. -/
def noTimers : PosixGroup where
  group := 1
  leaderPid := 1
  slots _ := none
  pidsLocked := false

/-- A timer for one thread, which is set. -/
def armedFor (method tid : BitVec 32) : List PosixStep :=
  [.timerCreate twoThreads 0 (some ⟨7, 10, method, tid⟩) true,
    .timerSettime 0 (some true) true]

/-- The slot of the first timer. -/
def firstSlot : Fin timersMax :=
  ⟨0, Nat.zero_lt_succ _⟩

/-- The state after that. -/
def afterArming (method tid : BitVec 32) : PosixGroup :=
  ((armedFor method tid).foldlM PosixGroup.run noTimers).getD noTimers

/-- A timer for the leader signals the leader, by the theorem. -/
theorem leader_is_signalled :
    posixMachine.Reachable (afterArming sigevThreadId 1) ∧
      (afterArming sigevThreadId 1).Lawful
        (.expires twoThreads firstSlot false) := by
  have start : posixMachine.initial noTimers := ⟨rfl, rfl⟩
  have reachable :
      posixMachine.Reachable (afterArming sigevThreadId 1) :=
    Machine.Reachable.foldlM PosixGroup.run (fun stepped => stepped)
      (.initial start) (rfl : (armedFor sigevThreadId 1).foldlM _ _ = _)
  refine ⟨reachable, (posix_timers_lawful_iff reachable _).mpr ?_⟩
  intro timer holds _
  cases holds
  exact .inr ⟨rfl, rfl, fun _ => by decide⟩

/--
The id one behind the array is not refused; a timer for thread 2 signals the
leader; and one for the group signals nobody.
-/
theorem posix_timers_go_astray :
    noTimers.timerSettime 16 (some true) true = .wild ∧
      noTimers.timerDelete 16 = .wild ∧
      (∃ timer,
        (afterArming sigevThreadId 2).slots firstSlot = some timer ∧
          (afterArming sigevThreadId 2).posixTimerCallback twoThreads timer =
            .sent ⟨⟨1, 1, false, false⟩, 10, 0, 7⟩) ∧
        ∃ timer,
          (afterArming sigevSignal 0).slots firstSlot = some timer ∧
            (afterArming sigevSignal 0).posixTimerCallback twoThreads
              timer = .nothing :=
  ⟨rfl, rfl, ⟨_, rfl, rfl⟩, ⟨_, rfl, rfl⟩⟩

end GuestKernel
