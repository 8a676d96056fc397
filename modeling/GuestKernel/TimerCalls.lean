import GuestKernel.Errno
import GuestKernel.HostTimers
import GuestKernel.Machine
import Mathlib.Algebra.Order.Ring.Int

namespace GuestKernel
open Option
open Timespec

/-!
# Setting a timer and what is left of it

`setitimer`, `alarm`, `timer_settime` and `timerfd_settime`: what each hands to
`timer_set`, and what it returns of the old value.  An absolute time is made
relative with a clock reading of its own.
-/

/-- `struct timeval_`. -/
structure GuestTimeval where
  sec : BitVec 32
  usec : BitVec 32
  deriving Repr, DecidableEq

/-- `struct timespec_`. -/
structure GuestTimespec where
  sec : BitVec 32
  nsec : BitVec 32
  deriving Repr, DecidableEq

/-- `struct itimerval_`. -/
structure Itimerval where
  interval : GuestTimeval
  value : GuestTimeval
  deriving Repr, DecidableEq

/-- `struct itimerspec_`. -/
structure Itimerspec where
  interval : GuestTimespec
  value : GuestTimespec
  deriving Repr, DecidableEq

/-- The address for the old value: none, or one that can be written or not. -/
inductive OldPointer where
  | null
  | faults
  | writable
  deriving Repr, DecidableEq

/-- The old value that a call gives to the guest. -/
inductive TimerReply where
  | nothing
  | val (old : Itimerval)
  | spec (old : Itimerspec)
  | seconds (left : BitVec 32)
  deriving Repr, DecidableEq

/-- `user_put` of the old value, unless the address is zero. -/
def OldPointer.put (pointer : OldPointer) (reply : TimerReply) :
    Except Errno TimerReply :=
  match pointer with
  | null => .ok .nothing
  | faults => .error .fault
  | writable => .ok reply

/-- `ITIMER_REAL_`. -/
def itimerReal : BitVec 32 := 0

/-- `TIMER_ABSTIME_`. -/
def timerAbstime : BitVec 32 := 1

/-- `timer_spec_to_real`. -/
def timerSpecToReal (itspec : Itimerspec) : TimerSpec where
  value := ⟨itspec.value.sec.toNat, itspec.value.nsec.toNat⟩
  interval := ⟨itspec.interval.sec.toNat, itspec.interval.nsec.toNat⟩

/-- `timer_spec_from_real`. -/
def timerSpecFromReal (spec : TimerSpec) : Itimerspec where
  value := ⟨.ofInt 32 spec.value.sec, .ofInt 32 spec.value.nsec⟩
  interval := ⟨.ofInt 32 spec.interval.sec, .ofInt 32 spec.interval.nsec⟩

/-- What `sys_setitimer` hands to `timer_set`. -/
def itimervalToReal (val : Itimerval) : TimerSpec where
  value := ⟨val.value.sec.toNat, (val.value.usec * 1000).toNat⟩
  interval := ⟨val.interval.sec.toNat, (val.interval.usec * 1000).toNat⟩

/-- The old value of `sys_setitimer`. -/
def itimervalFromReal (spec : TimerSpec) : Itimerval where
  value := ⟨.ofInt 32 spec.value.sec, .ofInt 32 (spec.value.nsec.tdiv 1000)⟩
  interval :=
    ⟨.ofInt 32 spec.interval.sec, .ofInt 32 (spec.interval.nsec.tdiv 1000)⟩

/-- The old value of `sys_alarm`. -/
def alarmFromReal (old : Timespec) : BitVec 32 :=
  let seconds : BitVec 32 := .ofInt 32 old.sec
  let seconds := if 500000000 ≤ old.nsec then seconds + 1 else seconds
  if seconds = 0 ∧ !old.isZero then 1 else seconds

namespace HostTimer

/-- `sys_setitimer`; `newVal` is what can be read at its address. -/
def sysSetitimer
    (timer : HostTimer)
    (now : Int)
    (which : BitVec 32)
    (newVal : Option Itimerval)
    (oldVal : OldPointer) : HostTimer × Except Errno TimerReply :=
  match newVal with
  | none => (timer, .error .fault)
  | some val =>
    if which ≠ itimerReal then
      (timer, .error .inval)
    else
      let (next, old) := timer.set now (itimervalToReal val)
      (next, oldVal.put (.val (itimervalFromReal old)))

/-- `sys_alarm`. -/
def sysAlarm
    (timer : HostTimer)
    (now : Int)
    (seconds : BitVec 32) : HostTimer × Except Errno TimerReply :=
  let (next, old) := timer.set now ⟨⟨seconds.toNat, 0⟩, ⟨0, 0⟩⟩
  (next, .ok (.seconds (alarmFromReal old.value)))

/-- What `sys_timer_settime` and `sys_timerfd_settime` make of a request. -/
def settimeSpec
    (read : Int)
    (flags : BitVec 32)
    (value : Itimerspec) : TimerSpec :=
  let spec := timerSpecToReal value
  if flags &&& timerAbstime ≠ 0 then
    { spec with value := spec.value.subtract (.ofNs read) }
  else
    spec

/--
`sys_timer_settime` of a timer; `read` is what the clock shows before
`timer_set` looks at it.
-/
def sysTimerSettime
    (timer : HostTimer)
    (read now : Int)
    (flags : BitVec 32)
    (newValue : Option Itimerspec)
    (oldValue : OldPointer) : HostTimer × Except Errno TimerReply :=
  match newValue with
  | none => (timer, .error .fault)
  | some value =>
    let (next, old) := timer.set now (settimeSpec read flags value)
    (next, oldValue.put (.spec (timerSpecFromReal old)))

/-- `sys_timerfd_settime` of a timer. -/
def sysTimerfdSettime
    (timer : HostTimer)
    (read now : Int)
    (flags : BitVec 32)
    (newValue : Option Itimerspec)
    (oldValue : OldPointer) : HostTimer × Except Errno TimerReply :=
  if flags &&& ~~~timerAbstime ≠ 0 then
    (timer, .error .inval)
  else
    timer.sysTimerSettime read now flags newValue oldValue

end HostTimer

/-- The calls that set a timer. -/
inductive TimerCall where
  | setitimer
      (which : BitVec 32)
      (newVal : Option Itimerval)
      (oldVal : OldPointer)
  | alarm (seconds : BitVec 32)
  | timerSettime
      (read : Int)
      (flags : BitVec 32)
      (newValue : Option Itimerspec)
      (oldValue : OldPointer)
  | timerfdSettime
      (read : Int)
      (flags : BitVec 32)
      (newValue : Option Itimerspec)
      (oldValue : OldPointer)
  deriving Repr, DecidableEq

/-- The code of a call. -/
def TimerCall.run (call : TimerCall) (timer : HostTimer) (now : Int) :
    HostTimer × Except Errno TimerReply :=
  match call with
  | setitimer which newVal oldVal =>
    timer.sysSetitimer now which newVal oldVal
  | alarm seconds => timer.sysAlarm now seconds
  | timerSettime read flags newValue oldValue =>
    timer.sysTimerSettime read now flags newValue oldValue
  | timerfdSettime read flags newValue oldValue =>
    timer.sysTimerfdSettime read now flags newValue oldValue

/-- A timer, and what its clock shows. -/
structure ClockedTimer where
  timer : HostTimer
  now : Int
  deriving Repr, DecidableEq

/-- What happens to a timer. -/
inductive TimerEvent where
  /-- The clock shows another time. -/
  | clock (now : Int)
  | threadLooks
  /-- The thread enters `nanosleep`. -/
  | threadSleeps
  /-- `nanosleep` returns. -/
  | threadWakes
  | call (made : TimerCall)
  deriving Repr, DecidableEq

/-- The thread of a timer has gone somewhere. -/
def ClockedTimer.moveThread
    (state : ClockedTimer) (thread : TimerThread) : ClockedTimer :=
  { state with timer := { state.timer with thread := thread } }

/-- One event; only a thread that runs and is awake looks at the timer. -/
def ClockedTimer.run (state : ClockedTimer) :
    TimerEvent → Option ClockedTimer
  | .clock now => some { state with now := now }
  | .threadLooks =>
    if state.timer.threadRunning ∧ state.timer.thread = .awake then
      some { state with timer := (state.timer.threadLooks state.now).1 }
    else
      none
  | .threadSleeps =>
    match state.timer.thread with
    | .leaving remaining =>
      some (state.moveThread (.asleep (state.now + remaining.toNs)))
    | _ => none
  | .threadWakes =>
    match state.timer.thread with
    | .asleep _ => some (state.moveThread .awake)
    | _ => none
  | .call call =>
    some { state with timer := (call.run state.timer state.now).1 }

/-- All histories of a timer, with any contents of its memory. -/
def clockedTimerMachine : Machine ClockedTimer TimerEvent where
  initial state :=
    ∃ start finish interval,
      state.timer = HostTimer.new start finish interval
  step state event next := state.run event = some next

namespace TimerCall

/-- The value asked for, in nanoseconds. -/
def value : TimerCall → Int
  | setitimer _ newVal _ =>
    (newVal.map fun val =>
      (val.value.sec.toNat * 1000000000 + val.value.usec.toNat * 1000 :
        Int)).getD 0
  | alarm seconds => seconds.toNat * 1000000000
  | timerSettime _ _ newValue _ | timerfdSettime _ _ newValue _ =>
    (newValue.map fun itspec =>
      (itspec.value.sec.toNat * 1000000000 + itspec.value.nsec.toNat :
        Int)).getD 0

/-- The clock reading that an absolute request is made relative with. -/
def absolute : TimerCall → Option Int
  | setitimer _ _ _ => none
  | alarm _ => none
  | timerSettime read flags _ _ | timerfdSettime read flags _ _ =>
    if flags &&& timerAbstime ≠ 0 then some read else none

/-- When the timer is to expire first. -/
def requested (call : TimerCall) (now : Int) : Option Int :=
  if call.value = 0 then none
  else if call.absolute.isSome then some (max now call.value)
  else some (now + call.value)

end TimerCall

/-- The seconds that `alarm` is to return: the nearest, but not 0 too early. -/
def alarmSeconds (left : Int) : Int :=
  if left = 0 then 0 else max 1 ((left + 500000000) / 1000000000)

/-- A reply tells this time, as precisely as it can. -/
def TimerReply.Tells (left : Int) : TimerReply → Prop
  | nothing => True
  | val old =>
    (old.value.sec.toNat * 1000000 + old.value.usec.toNat : Int) =
      left / 1000
  | spec old =>
    (old.value.sec.toNat * 1000000000 + old.value.nsec.toNat : Int) = left
  | seconds old => (old.toNat : Int) = alarmSeconds left

/--
A call did what it was asked for: the timer expires first when it is to, its
thread is there by then, and the reply tells the time that was left.
-/
structure TimerCall.Exact
    (call : TimerCall) (before : ClockedTimer)
    (next : HostTimer) (reply : TimerReply) : Prop where
  arms : next.NextExpiry before.now (call.requested before.now)
  onTime : next.promptCall before.now = call.requested before.now
  tells :
    ∃ expiry,
      before.timer.NextExpiry before.now expiry ∧
        reply.Tells (HostTimer.timeLeft before.now expiry)

/-- The nanoseconds and microseconds are fractions of a second. -/
def TimerCall.WellFormed : TimerCall → Prop
  | setitimer _ newVal _ =>
    ∀ val ∈ newVal,
      val.value.usec.toNat < 1000000 ∧ val.interval.usec.toNat < 1000000
  | alarm _ => True
  | timerSettime _ _ newValue _ | timerfdSettime _ _ newValue _ =>
    ∀ itspec ∈ newValue,
      itspec.value.nsec.toNat < 1000000000 ∧
        itspec.interval.nsec.toNat < 1000000000

/-- The events of which the calls are well formed. -/
def TimerEvent.WellFormed : TimerEvent → Prop
  | .call made => made.WellFormed
  | _ => True

/-- All histories with well-formed requests. -/
def wellFormedTimerMachine : Machine ClockedTimer TimerEvent :=
  clockedTimerMachine.restrict fun _ event => event.WellFormed

/-- The timer is armed, and due later than now. -/
def HostTimer.isPending (timer : HostTimer) (now : Int) : Bool :=
  timer.threadRunning && timer.active &&
    (timer.finish.subtract (.ofNs now)).positive

namespace TimerCall

/--
An absolute time is not zero (unless the clock shows zero), is not what the
clock shows, and is past, or the clock shows the same at both readings.
-/
def Arms (call : TimerCall) (now : Int) : Prop :=
  ∀ read ∈ call.absolute,
    if call.value = 0 then
      read = 0
    else
      call.value ≠ read ∧
        (read = now ∨ call.value ≤ read ∧ call.value ≤ now)

/--
The timer is armed and due later than now, at a time that the reply can hold; or
its end differs from now by nothing that the reply can hold.
-/
def TellsOld (call : TimerCall) (timer : HostTimer) (now : Int) : Prop :=
  let left := timer.finish.subtract (.ofNs now)
  match call with
  | setitimer _ _ pointer =>
    pointer = .writable →
      if timer.isPending now then
        left.sec < 2 ^ 32
      else
        (2 ^ 32 : Int) ∣ left.sec ∧ (2 ^ 32 : Int) ∣ left.nsec.tdiv 1000
  | alarm _ =>
    if timer.isPending now then
      left.sec + (if 500000000 ≤ left.nsec then 1 else 0) < 2 ^ 32
    else
      left.isZero = true
  | timerSettime _ _ _ pointer | timerfdSettime _ _ _ pointer =>
    pointer = .writable →
      if timer.isPending now then
        left.sec < 2 ^ 32
      else
        (2 ^ 32 : Int) ∣ left.sec ∧ (2 ^ 32 : Int) ∣ left.nsec

/--
A thread that has given up the lock and is yet to sleep, which no signal wakes,
does not sleep past the time.
-/
def WakesThread (call : TimerCall) (timer : HostTimer) (now : Int) : Prop :=
  ∀ remaining,
    timer.threadRunning = true → timer.thread = .leaving remaining →
    ∀ due ∈ call.requested now, now + remaining.toNs ≤ due

/-- The calls that do what they are asked for. -/
def Fits (call : TimerCall) (before : ClockedTimer) : Prop :=
  call.Arms before.now ∧ call.WakesThread before.timer before.now ∧
    call.TellsOld before.timer before.now

variable
  {call : TimerCall}
  {timer next : HostTimer}
  {now : Int}
  {reply : TimerReply}

/-- What a call makes of the old value. -/
def replyOf (call : TimerCall) (old : TimerSpec) : Except Errno TimerReply :=
  match call with
  | setitimer _ _ pointer => pointer.put (.val (itimervalFromReal old))
  | alarm _ => .ok (.seconds (alarmFromReal old.value))
  | timerSettime _ _ _ pointer | timerfdSettime _ _ _ pointer =>
    pointer.put (.spec (timerSpecFromReal old))

/-- A call sets the timer to this. -/
structure Sets
    (call : TimerCall) (timer : HostTimer) (now : Int)
    (spec : TimerSpec) : Prop where
  normal : spec.value.Normal
  normalInterval : spec.interval.Normal
  nonneg : 0 ≤ call.value
  value : spec.value.toNs = call.value - call.absolute.getD 0
  run :
    call.run timer now =
      ((timer.set now spec).1, call.replyOf (timer.set now spec).2)

private theorem normal_of_lt
    (sec : Int)
    {nsec : Nat}
    (small : nsec < 1000000000) :
    Timespec.Normal ⟨sec, nsec⟩ where
  nonneg := Int.natCast_nonneg nsec
  small := Int.ofNat_lt.mpr small

private theorem toNat_usec
    {usec : BitVec 32}
    (small : usec.toNat < 1000000) :
    (usec * 1000).toNat = usec.toNat * 1000 := by
  rw [BitVec.toNat_mul]
  exact Nat.mod_eq_of_lt (show usec.toNat * 1000 < 2 ^ 32 by omega)

/-- `timer_settime` and `timerfd_settime` set a timer alike. -/
private theorem settimeSpec_spec
    {itspec : Itimerspec}
    (small :
      itspec.value.nsec.toNat < 1000000000 ∧
        itspec.interval.nsec.toNat < 1000000000)
    (read : Int)
    (flags : BitVec 32) :
    (HostTimer.settimeSpec read flags itspec).value.Normal ∧
      (HostTimer.settimeSpec read flags itspec).interval.Normal ∧
      0 ≤ (itspec.value.sec.toNat * 1000000000 +
        itspec.value.nsec.toNat : Int) ∧
        (HostTimer.settimeSpec read flags itspec).value.toNs =
          (itspec.value.sec.toNat * 1000000000 +
              itspec.value.nsec.toNat : Int) -
            (if flags &&& timerAbstime ≠ 0 then some read
              else none).getD 0 := by
  have normal : (timerSpecToReal itspec).value.Normal :=
    normal_of_lt itspec.value.sec.toNat small.1
  have normalInterval : (timerSpecToReal itspec).interval.Normal :=
    normal_of_lt itspec.interval.sec.toNat small.2
  unfold HostTimer.settimeSpec
  split
  · refine ⟨normal.subtract (normal_ofNs read), normalInterval,
      by omega, ?_⟩
    rw [toNs_subtract, toNs_ofNs]
    rfl
  · exact ⟨normal, normalInterval, by omega, (Int.sub_zero _).symm⟩

/-- A call fails, or sets the timer. -/
theorem run_cases
    (wellFormed : call.WellFormed)
    (timer : HostTimer)
    (now : Int) :
    (∃ code, call.run timer now = (timer, .error code)) ∨
      ∃ spec, call.Sets timer now spec := by
  cases call with
  | setitimer which newVal pointer =>
    cases newVal with
    | none => exact .inl ⟨_, rfl⟩
    | some val =>
      by_cases isReal : which ≠ itimerReal
      · exact .inl ⟨_, if_pos isReal⟩
      · obtain ⟨small, smallInterval⟩ := wellFormed val rfl
        have usec := toNat_usec small
        have usecInterval := toNat_usec smallInterval
        refine .inr ⟨itimervalToReal val, ?_, ?_, ?_, ?_, if_neg isReal⟩
        · exact normal_of_lt _ (by omega)
        · exact normal_of_lt _ (by omega)
        · show (0 : Int) ≤ _ + _
          omega
        · show (val.value.sec.toNat * 1000000000 +
              ((val.value.usec * 1000).toNat : Int) : Int) =
            (val.value.sec.toNat * 1000000000 +
              val.value.usec.toNat * 1000 : Int) - 0
          rw [usec]
          omega
  | alarm seconds =>
    have normal : ∀ sec : Int, Timespec.Normal ⟨sec, 0⟩ :=
      fun sec => normal_of_lt sec (Nat.succ_pos 999999999)
    refine .inr ⟨_, normal seconds.toNat, normal 0, ?_, ?_, rfl⟩
    · exact Int.mul_nonneg (Int.natCast_nonneg _) (by decide)
    · exact (Int.add_zero _).trans (Int.sub_zero _).symm
  | timerSettime read flags newValue pointer =>
    cases newValue with
    | none => exact .inl ⟨_, rfl⟩
    | some itspec =>
      obtain ⟨normal, normalInterval, nonneg, value⟩ :=
        settimeSpec_spec (wellFormed itspec rfl) read flags
      exact .inr ⟨_, normal, normalInterval, nonneg, value, rfl⟩
  | timerfdSettime read flags newValue pointer =>
    by_cases unknown : flags &&& ~~~timerAbstime ≠ 0
    · exact .inl ⟨_, if_pos unknown⟩
    cases newValue with
    | none => exact .inl ⟨_, if_neg unknown⟩
    | some itspec =>
      obtain ⟨normal, normalInterval, nonneg, value⟩ :=
        settimeSpec_spec (wellFormed itspec rfl) read flags
      exact .inr ⟨_, normal, normalInterval, nonneg, value,
        if_neg unknown⟩

/-- An absolute time that is made relative and absolute again. -/
private theorem absolute_iff
    (value read now : Int) :
    ((if value = 0 then none else some (max now value)) =
        if value - read = 0 then none
        else some (max now (now + (value - read)))) ↔
      if value = 0 then read = 0
      else value ≠ read ∧ (read = now ∨ value ≤ read ∧ value ≤ now) := by
  by_cases nothing : value = 0 <;> by_cases same : value - read = 0
  · rw [if_pos nothing, if_pos same, if_pos nothing]
    exact iff_of_true rfl (by omega)
  · rw [if_pos nothing, if_neg same, if_pos nothing]
    exact iff_of_false (some_ne_none _).symm (by omega)
  · rw [if_neg nothing, if_pos same, if_neg nothing]
    exact iff_of_false (some_ne_none _) (by omega)
  · rw [if_neg nothing, if_neg same, if_neg nothing, some_inj]
    omega

variable {spec : TimerSpec}

/-- A timer that was set expires when it is to just if the request is sound. -/
theorem Sets.arms_iff
    (sets : call.Sets timer now spec) :
    (timer.set now spec).1.NextExpiry now (call.requested now) ↔
      call.Arms now := by
  have settled : (timer.set now spec).1.Settled :=
    HostTimer.settled_set sets.normal sets.normalInterval
  have isNext := settled.nextExpiry now
  have isZero := sets.normal.isZero_iff
  rw [HostTimer.nextExpiry_set] at isNext
  rw [sets.value] at isZero isNext
  have same :
      (timer.set now spec).1.NextExpiry now (call.requested now) ↔
        call.requested now =
          if call.value - call.absolute.getD 0 = 0 then none
          else some (max now (now + (call.value - call.absolute.getD 0))) := by
    simp only [← isZero]
    exact ⟨fun asked => asked.unique isNext, fun same => same ▸ isNext⟩
  rw [same, requested, Arms]
  cases call.absolute with
  | none =>
    refine iff_of_true ?_ nofun
    have nonneg := sets.nonneg
    rw [getD_none, Int.sub_zero]
    split
    · rfl
    · refine congrArg some (Int.max_eq_right ?_).symm
      omega
  | some read =>
    rw [getD_some, isSome_some, if_pos rfl, absolute_iff]
    exact ⟨by rintro sound _ ⟨⟩; exact sound, fun sound => sound read rfl⟩

/-- The thread is there in time just if it does not miss its signal. -/
theorem Sets.onTime_iff
    (sets : call.Sets timer now spec)
    (arms :
      (timer.set now spec).1.NextExpiry now (call.requested now)) :
    (timer.set now spec).1.promptCall now = call.requested now ↔
      call.WakesThread timer now := by
  have settled : (timer.set now spec).1.Settled :=
    HostTimer.settled_set sets.normal sets.normalInterval
  rw [settled.promptCall_iff arms, WakesThread]
  show (∀ due ∈ _,
    (if timer.threadRunning then timer.thread.signalled
      else TimerThread.awake).nextLook now ≤ due) ↔ _
  have future := arms.future
  by_cases running : timer.threadRunning = true
  · rw [if_pos running]
    cases phase : timer.thread with
    | awake | asleep =>
      exact iff_of_true future (fun _ _ impossible => nomatch impossible)
    | leaving remaining =>
      constructor
      · rintro early _ _ ⟨⟩ due isDue
        exact (Int.max_le.mp (early due isDue)).2
      · intro wakes due isDue
        exact Int.max_le.mpr
          ⟨future due isDue, wakes remaining running rfl due isDue⟩
  · rw [if_neg running]
    exact iff_of_true future fun _ isRunning => (running isRunning).elim

/-- What is left of a timer that is pending, or nothing. -/
theorem timeLeft_eq
    (settled : timer.Settled) :
    HostTimer.timeLeft now (timer.nextExpiry now) =
      if timer.isPending now then
        (timer.finish.subtract (.ofNs now)).toNs
      else
        0 := by
  unfold HostTimer.timeLeft HostTimer.nextExpiry HostTimer.isPending
  by_cases armed : (timer.threadRunning && timer.active) = true
  · obtain ⟨_, active⟩ := Bool.and_eq_true_iff.mp armed
    have later :=
      ((settled active).1.subtract (normal_ofNs now)).positive_iff
    rw [toNs_subtract, toNs_ofNs] at later ⊢
    rw [if_pos armed, armed, Bool.true_and, map_some,
      getD_some]
    split
    · next pending =>
        have := later.mp pending
        omega
    · next due =>
        have := mt later.mpr due
        omega
  · rw [if_neg armed, Bool.eq_false_iff.mpr armed, Bool.false_and,
      if_neg Bool.false_ne_true]
    rfl

private theorem toNat_dword
    (number : Int) :
    ((BitVec.ofInt 32 number).toNat : Int) = number % 2 ^ 32 := by
  rw [BitVec.toNat_ofInt]
  exact Int.toNat_of_nonneg (Int.emod_nonneg _ (by decide))

/-- What `alarm` returns of an old value. -/
private theorem toNat_alarmFromReal
    (old : Timespec) :
    ((alarmFromReal old).toNat : Int) =
      if (old.sec + if 500000000 ≤ old.nsec then 1 else 0) % 2 ^ 32 = 0 ∧
          old.isZero = false then
        1
      else
        (old.sec + if 500000000 ≤ old.nsec then 1 else 0) % 2 ^ 32 := by
  have rounded :
      ∀ sum : BitVec 32,
        (sum.toNat : Int) =
            (old.sec + if 500000000 ≤ old.nsec then 1 else 0) % 2 ^ 32 →
          (((if sum = 0 ∧ (!old.isZero) = true then 1 else sum) :
              BitVec 32).toNat : Int) =
            if (old.sec + if 500000000 ≤ old.nsec then 1 else 0) % 2 ^ 32 =
                0 ∧ old.isZero = false then
              1
            else
              (old.sec + if 500000000 ≤ old.nsec then 1 else 0) %
                2 ^ 32 := by
    intro sum isSum
    rw [← isSum]
    have isZero : sum = 0 ↔ (sum.toNat : Int) = 0 := by
      rw [← BitVec.toNat_inj]
      exact Int.natCast_eq_zero.symm
    simp only [isZero, Bool.not_eq_true']
    split <;> rfl
  unfold alarmFromReal
  refine rounded _ ?_
  split
  · have one := toNat_dword old.sec
    have isOne : (1 : BitVec 32).toNat = 1 := rfl
    rw [BitVec.toNat_add, isOne]
    omega
  · rw [toNat_dword, Int.add_zero]

/-- Seconds and a fraction tell the time that is left if the seconds fit. -/
private theorem tells_pending
    {left : Timespec}
    (normal : left.Normal)
    (later : 0 < left.toNs) :
    (((BitVec.ofInt 32 left.sec).toNat * 1000000000 +
            (BitVec.ofInt 32 left.nsec).toNat : Int) = left.toNs ↔
        left.sec < 2 ^ 32) ∧
      (((BitVec.ofInt 32 left.sec).toNat * 1000000 +
            (BitVec.ofInt 32 (left.nsec.tdiv 1000)).toNat : Int) =
          left.toNs / 1000 ↔
        left.sec < 2 ^ 32) ∧
        (((alarmFromReal left).toNat : Int) = alarmSeconds left.toNs ↔
          left.sec + (if 500000000 ≤ left.nsec then 1 else 0) < 2 ^ 32) := by
  have secNonneg := normal.sec_nonneg.mpr later.le
  have notZero : left.isZero = false :=
    Bool.eq_false_iff.mpr (mt normal.isZero_iff.mp later.ne')
  obtain ⟨nonneg, small⟩ := normal
  refine ⟨?_, ?_, ?_⟩
  · rw [toNat_dword, toNat_dword, toNs]
    omega
  · rw [Int.tdiv_eq_ediv_of_nonneg nonneg, toNat_dword, toNat_dword,
      toNs]
    omega
  · rw [toNat_alarmFromReal, alarmSeconds, if_neg later.ne', notZero]
    have rounded :
        (left.toNs + 500000000) / 1000000000 =
          left.sec + if 500000000 ≤ left.nsec then 1 else 0 := by
      rw [toNs]
      split <;> omega
    rw [rounded]
    have roundedNonneg :
        0 ≤ left.sec + if 500000000 ≤ left.nsec then (1 : Int) else 0 := by
      split <;> omega
    generalize left.sec + (if 500000000 ≤ left.nsec then 1 else 0) = sum at *
    by_cases wraps : sum % 2 ^ 32 = 0
    · rw [if_pos ⟨wraps, rfl⟩]
      omega
    · rw [if_neg fun both => wraps both.1]
      omega

/-- Nothing is left: the difference must look like zero. -/
private theorem tells_nothing
    (left : Timespec) :
    (((BitVec.ofInt 32 left.sec).toNat * 1000000000 +
            (BitVec.ofInt 32 left.nsec).toNat : Int) = 0 ↔
        (2 ^ 32 : Int) ∣ left.sec ∧ (2 ^ 32 : Int) ∣ left.nsec) ∧
      (((BitVec.ofInt 32 left.sec).toNat * 1000000 +
            (BitVec.ofInt 32 (left.nsec.tdiv 1000)).toNat : Int) =
          0 / 1000 ↔
        (2 ^ 32 : Int) ∣ left.sec ∧
          (2 ^ 32 : Int) ∣ left.nsec.tdiv 1000) ∧
        (((alarmFromReal left).toNat : Int) = alarmSeconds 0 ↔
          left.isZero = true) := by
  refine ⟨?_, ?_, ?_⟩
  · rw [toNat_dword, toNat_dword]
    omega
  · rw [toNat_dword, toNat_dword]
    omega
  · rw [toNat_alarmFromReal, alarmSeconds, if_pos rfl]
    cases isZero : left.isZero with
    | true =>
      obtain ⟨noSec, noNsec⟩ := of_decide_eq_true isZero
      refine iff_of_true ?_ rfl
      rw [noSec, noNsec]
      decide
    | false =>
      refine iff_of_false ?_ Bool.false_ne_true
      generalize left.sec + (if 500000000 ≤ left.nsec then 1 else 0) = sum
      by_cases wraps : sum % 2 ^ 32 = 0
      · rw [if_pos ⟨wraps, rfl⟩]
        decide
      · rwa [if_neg fun both => wraps both.1]

private theorem left_of_isPending
    (settled : timer.Settled)
    (isPending : timer.isPending now = true) :
    (timer.finish.subtract (.ofNs now)).Normal ∧
      0 < (timer.finish.subtract (.ofNs now)).toNs := by
  obtain ⟨armed, later⟩ := Bool.and_eq_true_iff.mp isPending
  obtain ⟨_, active⟩ := Bool.and_eq_true_iff.mp armed
  have normal := (settled active).1.subtract (normal_ofNs now)
  exact ⟨normal, normal.positive_iff.mp later⟩

/-- `timer_settime` and `timerfd_settime` tell the old value alike. -/
private theorem tells_settime_iff
    {pointer : OldPointer}
    (settled : timer.Settled)
    (replied :
      pointer.put (.spec (timerSpecFromReal (timer.set now spec).2)) =
        .ok reply) :
    reply.Tells
        (if timer.isPending now then
          (timer.finish.subtract (.ofNs now)).toNs
        else
          0) ↔
      (pointer = .writable →
        if timer.isPending now then
          (timer.finish.subtract (.ofNs now)).sec < 2 ^ 32
        else
          (2 ^ 32 : Int) ∣ (timer.finish.subtract (.ofNs now)).sec ∧
            (2 ^ 32 : Int) ∣ (timer.finish.subtract (.ofNs now)).nsec) := by
  cases pointer with
  | null =>
    cases replied
    exact iff_of_true trivial nofun
  | faults => cases replied
  | writable =>
    cases replied
    refine Iff.trans ?_ (forall_prop_of_true rfl).symm
    split
    · next isPending =>
        obtain ⟨normal, later⟩ := left_of_isPending settled isPending
        exact (tells_pending normal later).1
    · exact (tells_nothing _).1

/-- Which calls tell the time that was left. -/
theorem tells_iff
    (settled : timer.Settled)
    (replied : call.replyOf (timer.set now spec).2 = .ok reply) :
    (∃ expiry,
        timer.NextExpiry now expiry ∧
          reply.Tells (HostTimer.timeLeft now expiry)) ↔
      call.TellsOld timer now := by
  have isNext := settled.nextExpiry now
  have same :
      (∃ expiry,
          timer.NextExpiry now expiry ∧
            reply.Tells (HostTimer.timeLeft now expiry)) ↔
        reply.Tells (HostTimer.timeLeft now (timer.nextExpiry now)) :=
    ⟨fun ⟨_, isExpiry, tells⟩ => isExpiry.unique isNext ▸ tells,
      fun tells => ⟨_, isNext, tells⟩⟩
  rw [same, timeLeft_eq settled]
  cases call with
  | setitimer which newVal pointer =>
    cases pointer with
    | null =>
      cases replied
      exact iff_of_true trivial nofun
    | faults => cases replied
    | writable =>
      cases replied
      refine Iff.trans ?_ (forall_prop_of_true rfl).symm
      split
      · next isPending =>
          obtain ⟨normal, later⟩ := left_of_isPending settled isPending
          exact (tells_pending normal later).2.1
      · exact (tells_nothing _).2.1
  | alarm seconds =>
    cases replied
    show _ ↔ if timer.isPending now then _ else _
    split
    · next isPending =>
        obtain ⟨normal, later⟩ := left_of_isPending settled isPending
        exact (tells_pending normal later).2.2
    · exact (tells_nothing _).2.2
  | timerSettime read flags newValue pointer
  | timerfdSettime read flags newValue pointer =>
    exact tells_settime_iff settled replied

end TimerCall

/-- Every call leaves a timer settled, and so does its thread. -/
theorem settled_of_reachable
    {state : ClockedTimer}
    (reachable : wellFormedTimerMachine.Reachable state) :
    state.timer.Settled := by
  refine Machine.Reachable.invariant
    (motive := fun state => state.timer.Settled) ?_ ?_ reachable
  · rintro ⟨_, _⟩ ⟨start, finish, interval, rfl⟩ active
    cases active
  · rintro before event after settled ⟨wellFormed, stepped⟩
    cases event with
    | clock now =>
      cases stepped
      exact settled
    | threadLooks =>
      obtain ⟨_, stepped⟩ := ite_none_right_eq_some.mp stepped
      cases stepped
      exact settled.threadLooks
    | threadSleeps =>
      change ClockedTimer.run _ _ = _ at stepped
      unfold ClockedTimer.run at stepped
      dsimp only at stepped
      split at stepped <;> cases stepped
      exact settled
    | threadWakes =>
      change ClockedTimer.run _ _ = _ at stepped
      unfold ClockedTimer.run at stepped
      dsimp only at stepped
      split at stepped <;> cases stepped
      exact settled
    | call made =>
      cases stepped
      rcases TimerCall.run_cases wellFormed before.timer before.now with
        ⟨code, failed⟩ | ⟨spec, sets⟩
      · show (made.run before.timer before.now).1.Settled
        rw [failed]
        exact settled
      · show (made.run before.timer before.now).1.Settled
        rw [sets.run]
        exact HostTimer.settled_set sets.normal sets.normalInterval

/--
After any history of well-formed requests, a call that succeeds arms the timer
for the time asked for and tells the time that was left just if it fits: an
absolute time is not zero or now and the clock stands still between its two
readings, the thread does not miss the signal on its way to a longer sleep, and
the timer is pending if its old value is asked for.
-/
theorem timer_calls_exact_iff
    {state : ClockedTimer}
    {next : HostTimer}
    {reply : TimerReply}
    (reachable : wellFormedTimerMachine.Reachable state)
    (call : TimerCall)
    (wellFormed : call.WellFormed)
    (ran : call.run state.timer state.now = (next, .ok reply)) :
    call.Exact state next reply ↔ call.Fits state := by
  have settled := settled_of_reachable reachable
  rcases call.run_cases wellFormed state.timer state.now with
    ⟨code, failed⟩ | ⟨spec, sets⟩
  · cases failed.symm.trans ran
  · obtain ⟨rfl, replied⟩ := Prod.mk.inj (sets.run.symm.trans ran)
    have tells := TimerCall.tells_iff settled replied
    constructor
    · intro exact
      exact ⟨sets.arms_iff.mp exact.arms,
        (sets.onTime_iff exact.arms).mp exact.onTime, tells.mp exact.tells⟩
    · rintro ⟨fits, wakes, tellsOld⟩
      have arms := sets.arms_iff.mpr fits
      exact ⟨arms, (sets.onTime_iff arms).mpr wakes, tells.mpr tellsOld⟩

/-- A new timer in zeroed memory, 100 seconds after the clock started. -/
def newTimer : ClockedTimer where
  timer := .new ⟨0, 0⟩ ⟨0, 0⟩ ⟨0, 0⟩
  now := 100000000000

/-- `setitimer` for 5 seconds, without the old value. -/
def setFiveSeconds : TimerCall :=
  .setitimer itimerReal (some ⟨⟨0, 0⟩, ⟨5, 0⟩⟩) .null

theorem setFiveSeconds_wellFormed : setFiveSeconds.WellFormed := by
  rintro val ⟨⟩
  decide

/-- The timer, at once. -/
def armedTimer : ClockedTimer :=
  { newTimer with timer := (setFiveSeconds.run newTimer.timer newTimer.now).1 }

theorem armedTimer_reachable : wellFormedTimerMachine.Reachable armedTimer :=
  .step (a := .call setFiveSeconds) (.initial ⟨_, _, _, rfl⟩)
    ⟨setFiveSeconds_wellFormed, rfl⟩

/-- The timer two seconds later, with its thread asleep. -/
def sleepingTimer : ClockedTimer where
  timer := { armedTimer.timer with thread := .asleep 105000000000 }
  now := 102000000000

/-- Two seconds after it was set an alarm tells the three that are left. -/
theorem alarm_tells_three_seconds :
    ∃ next,
      (TimerCall.alarm 7).run sleepingTimer.timer sleepingTimer.now =
          (next, .ok (.seconds 3)) ∧
        (TimerCall.alarm 7).Exact sleepingTimer next (.seconds 3) := by
  have looked : wellFormedTimerMachine.Reachable
      { armedTimer with
        timer := (armedTimer.timer.threadLooks armedTimer.now).1 } :=
    .step (a := .threadLooks) armedTimer_reachable ⟨trivial, rfl⟩
  have asleep : wellFormedTimerMachine.Reachable
      { sleepingTimer with now := armedTimer.now } :=
    .step (a := .threadSleeps) looked ⟨trivial, rfl⟩
  have reachable : wellFormedTimerMachine.Reachable sleepingTimer :=
    .step (a := .clock 102000000000) asleep ⟨trivial, rfl⟩
  have isExact := timer_calls_exact_iff reachable (.alarm 7) trivial rfl
  refine ⟨_, rfl, isExact.mpr ⟨nofun, nofun, ?_⟩⟩
  show (3 : Int) + 0 < 2 ^ 32
  decide

/-- The timer that has expired after five seconds, four seconds later. -/
def expiredTimer : ClockedTimer where
  timer := (armedTimer.timer.threadLooks 105000000000).1
  now := 109000000000

/-- An absolute time of zero, which disarms a timer. -/
def disarmAbsolute : TimerCall :=
  .timerSettime 100000000000 timerAbstime (some ⟨⟨0, 0⟩, ⟨0, 0⟩⟩) .null

/--
An alarm after the timer has expired tells -4 seconds; and an absolute time of
zero arms a timer, which expires at once.
-/
theorem expired_timer_tells_minus_four_seconds :
    wellFormedTimerMachine.Reachable expiredTimer ∧
      (∃ next,
        (TimerCall.alarm 7).run expiredTimer.timer expiredTimer.now =
            (next, .ok (.seconds 4294967292)) ∧
          expiredTimer.timer.NextExpiry expiredTimer.now none ∧
            ¬ (TimerCall.alarm 7).Exact expiredTimer next
                (.seconds 4294967292)) ∧
        ∃ next,
          disarmAbsolute.run newTimer.timer newTimer.now =
              (next, .ok .nothing) ∧
            next.NextExpiry newTimer.now (some newTimer.now) ∧
              ¬ disarmAbsolute.Exact newTimer next .nothing := by
  have expired : wellFormedTimerMachine.Reachable expiredTimer :=
    .step (a := .clock 109000000000)
      (.step (a := .threadLooks)
        (.step (a := .clock 105000000000) armedTimer_reachable
          ⟨trivial, rfl⟩)
        ⟨trivial, rfl⟩)
      ⟨trivial, rfl⟩
  have settled := settled_of_reachable expired
  have never : expiredTimer.timer.NextExpiry expiredTimer.now none :=
    settled.nextExpiry expiredTimer.now
  refine ⟨expired, ⟨_, rfl, never, fun exact => ?_⟩, ?_⟩
  · obtain ⟨expiry, isNext, tells⟩ := exact.tells
    cases never.unique isNext
    exact absurd (show (4294967292 : Int) = 0 from tells) (by decide)
  · have armed :
        (disarmAbsolute.run newTimer.timer newTimer.now).1.Settled :=
      HostTimer.settled_set
        ((normal_ofNs 0).subtract
          (normal_ofNs 100000000000))
        (normal_ofNs 0)
    have atOnce := armed.nextExpiry newTimer.now
    have isNow :
        (disarmAbsolute.run newTimer.timer newTimer.now).1.nextExpiry
            newTimer.now =
          some newTimer.now := by
      decide
    rw [isNow] at atOnce
    have isAsked : disarmAbsolute.requested newTimer.now = none := by
      decide
    refine ⟨_, rfl, atOnce, fun exact => ?_⟩
    have never := exact.arms
    rw [isAsked] at never
    exact some_ne_none _ (never.unique atOnce).symm

end GuestKernel
