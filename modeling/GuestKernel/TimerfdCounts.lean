import GuestKernel.Errno
import GuestKernel.Timers

namespace GuestKernel

/-!
# What a `timerfd` counts

The thread of the timer calls back with the lock of the timer held and counts
under the lock of the descriptor; `timerfd_settime` takes them in the other
order.  Readers take the count away, while `timerfd_settime` leaves it.
-/

/-- An event that the count is to follow, the expirations being counted. -/
inductive TimerfdEvent where
  | expired
  /-- `timerfd_read` returned a value. -/
  | read (value : BitVec 64)
  /-- `timerfd_settime` returned 0. -/
  | settime
  deriving Repr, DecidableEq

/-- The expirations since the last read or setting; the last event is first. -/
def expirationsSince : List TimerfdEvent → Nat
  | [] => 0
  | .expired :: earlier => expirationsSince earlier + 1
  | .read _ :: _ => 0
  | .settime :: _ => 0

/-- A descriptor of a timer, with what happened to it. -/
structure Timerfd where
  timer : Timer
  /-- The callback has counted, and gave the lock of the descriptor back. -/
  counted : Bool
  /-- A `timerfd_settime` has the lock of the descriptor. -/
  setting : Bool
  expirations : BitVec 64
  history : List TimerfdEvent
  deriving Repr, DecidableEq

/-- `sys_timerfd_create`. -/
def Timerfd.new : Timerfd where
  timer := { creator := none }
  counted := false
  setting := false
  expirations := 0
  history := []

/-- What one pass of the loop of `timerfd_read` ends in. -/
inductive TimerfdOutcome where
  | sleeps
  | failed (code : Errno)
  | value (expirations : BitVec 64)
  deriving Repr, DecidableEq

namespace Timerfd

/-- `timerfd_read`, from one test of the count to the next. -/
def read (fd : Timerfd) (bufsize : Nat) (nonblock pending : Bool) :
    TimerfdOutcome :=
  if bufsize < 8 then .failed .inval
  else if fd.expirations = 0 then
    if nonblock then .failed .again
    else if pending then .failed .intr
    else .sleeps
  else
    .value fd.expirations

/-- `timerfd_poll`. -/
def poll (fd : Timerfd) : Bool :=
  fd.expirations ≠ 0

end Timerfd

/-- The calls and the steps of the timer thread, as the locks divide them. -/
inductive TimerfdStep where
  /-- `timerfd_settime` takes the lock of the descriptor. -/
  | settimeLocks
  /--
  `timer_set`; the call returns 0 unless the old value cannot be written.
  -/
  | settimeSets (starts periodic oldWritable : Bool)
  | reads (bufsize : Nat) (nonblock pending : Bool)
  /-- The thread finds the timer expired and calls back. -/
  | callsBack
  /-- The callback counts the expiration. -/
  | counts
  | callbackReturns
  /-- The thread finds the timer disarmed. -/
  | threadStops
  deriving Repr, DecidableEq

/-- One step; `none` where it has to wait for a lock or cannot happen. -/
def Timerfd.run (fd : Timerfd) : TimerfdStep → Option Timerfd
  | .settimeLocks =>
    if fd.setting then none else some { fd with setting := true }
  | .settimeSets starts periodic oldWritable =>
    if fd.setting && !fd.timer.inCallback then
      some
        { fd with
          timer := fd.timer.set starts periodic
          setting := false
          history :=
            if oldWritable then .settime :: fd.history else fd.history }
    else
      none
  | .reads bufsize nonblock pending =>
    if fd.setting then
      none
    else
      match fd.read bufsize nonblock pending with
      | .value expirations =>
        some
          { fd with
            expirations := 0
            history := .read expirations :: fd.history }
      | _ => some fd
  | .callsBack =>
    if fd.timer.threadRunning && !fd.timer.inCallback && fd.timer.active then
      some
        { fd with
          timer := { fd.timer with inCallback := true }
          counted := false }
    else
      none
  | .counts =>
    if fd.timer.inCallback && !fd.counted && !fd.setting then
      some
        { fd with
          expirations := fd.expirations + 1
          counted := true
          history := .expired :: fd.history }
    else
      none
  | .callbackReturns =>
    if fd.timer.inCallback && fd.counted then
      some { fd with timer := fd.timer.callbackReturns }
    else
      none
  | .threadStops =>
    if fd.timer.threadRunning && !fd.timer.inCallback && !fd.timer.active then
      some { fd with timer := fd.timer.threadEnds }
    else
      none

/-- Any calls of any threads, and the steps of the timer thread. -/
def timerfdMachine : Machine Timerfd TimerfdStep where
  initial fd := fd = .new
  step fd action next := fd.run action = some next

/--
Whatever a read returns is the number of expirations since the last read or
setting, and poll reports the descriptor readable if there are any.
-/
structure Timerfd.Reports (fd : Timerfd) : Prop where
  reads :
    ∀ bufsize nonblock pending value,
      fd.read bufsize nonblock pending = .value value →
      value.toNat = expirationsSince fd.history
  polls : fd.poll = true ↔ 0 < expirationsSince fd.history

/--
Nothing is left unread where the timer is set, and the count does not wrap.
-/
def Timerfd.KeepsCount (fd : Timerfd) : TimerfdStep → Prop
  | .settimeSets _ _ oldWritable => oldWritable = true → fd.expirations = 0
  | .counts => fd.expirations ≠ BitVec.allOnes 64
  | _ => True

variable {fd next : Timerfd} {action : TimerfdStep}

/-- The count is right exactly if reads and polls tell it. -/
theorem Timerfd.reports_iff :
    fd.Reports ↔ fd.expirations.toNat = expirationsSince fd.history := by
  have pollable : fd.poll = true ↔ 0 < fd.expirations.toNat := by
    rw [Timerfd.poll, decide_eq_true_iff, Nat.pos_iff_ne_zero, ne_eq, ne_eq,
      ← BitVec.toNat_inj]
    rfl
  constructor
  · intro reports
    by_cases isNone : fd.expirations = 0
    · have nothing : ¬0 < expirationsSince fd.history := by
        rw [← reports.polls, pollable, isNone]
        exact Nat.lt_irrefl 0
      rw [isNone]
      exact (Nat.eq_zero_of_not_pos nothing).symm
    · refine reports.reads 8 true false _ ?_
      rw [Timerfd.read, if_neg (by decide), if_neg isNone]
  · intro same
    refine ⟨?_, by rw [pollable, same]⟩
    intro bufsize nonblock pending value isRead
    unfold Timerfd.read at isRead
    split at isRead
    · cases isRead
    split at isRead
    · split at isRead
      · cases isRead
      split at isRead <;> cases isRead
    · cases isRead
      exact same

private theorem toNat_succ_iff
    (count : BitVec 64)
    (number : Nat)
    (same : count.toNat = number) :
    (count + 1).toNat = number + 1 ↔ count ≠ BitVec.allOnes 64 := by
  rw [ne_eq, ← BitVec.toNat_inj, BitVec.toNat_add, BitVec.toNat_allOnes,
    same]
  have small := count.isLt
  rw [same] at small
  show (number + 1) % 2 ^ 64 = number + 1 ↔ _
  omega

/-- Which steps keep the count right. -/
theorem Timerfd.reports_step_iff
    (reports : fd.Reports)
    (stepped : fd.run action = some next) :
    next.Reports ↔ fd.KeepsCount action := by
  have same := Timerfd.reports_iff.mp reports
  rw [Timerfd.reports_iff]
  cases action with
  | settimeLocks | callsBack | callbackReturns | threadStops =>
    simp only [Timerfd.run] at stepped
    split at stepped <;> cases stepped
    exact iff_of_true same trivial
  | settimeSets starts periodic oldWritable =>
    simp only [Timerfd.run] at stepped
    split at stepped <;> cases stepped
    cases oldWritable with
    | false => exact iff_of_true same nofun
    | true =>
      refine Iff.trans ?_ (forall_prop_of_true rfl).symm
      exact @BitVec.toNat_inj 64 fd.expirations 0
  | reads bufsize nonblock pending =>
    simp only [Timerfd.run] at stepped
    split at stepped
    · cases stepped
    split at stepped <;> cases stepped
    · exact iff_of_true rfl trivial
    · exact iff_of_true same trivial
  | counts =>
    simp only [Timerfd.run] at stepped
    split at stepped <;> cases stepped
    exact toNat_succ_iff _ _ same

/--
In every run in which nothing is unread where the timer is set, reads and polls
tell the expirations since the last read or setting; and any other step makes
them wrong.
-/
theorem timerfd_reports_while_read
    (fd : Timerfd) :
    ((timerfdMachine.restrict Timerfd.KeepsCount).Reachable fd →
        fd.Reports) ∧
      ∀ (action : TimerfdStep) (next : Timerfd),
        fd.Reports →
        fd.run action = some next →
        (next.Reports ↔ fd.KeepsCount action) := by
  refine ⟨fun reachable => ?_, fun action next reports stepped =>
    Timerfd.reports_step_iff reports stepped⟩
  refine reachable.invariant (motive := Timerfd.Reports) ?_ ?_
  · rintro _ rfl
    exact Timerfd.reports_iff.mpr rfl
  · intro state action next reports taken
    exact (Timerfd.reports_step_iff reports taken.2).mpr taken.1

/-- A timer that expires once after it was set. -/
def oneExpiration : List TimerfdStep :=
  [.settimeLocks, .settimeSets true false true, .callsBack, .counts,
    .callbackReturns]

/-- The descriptor of such a timer. -/
def expiredOnce : Timerfd :=
  (oneExpiration.foldlM Timerfd.run .new).getD .new

/-- The expiration is read once, by the theorem. -/
theorem one_expiration_is_read :
    oneExpiration.foldlM Timerfd.run .new = some expiredOnce ∧
      expiredOnce.read 8 true false = .value 1 ∧
      ∃ next,
        expiredOnce.run (.reads 8 true false) = some next ∧
          next.Reports := by
  refine ⟨by decide, by decide, _, rfl, ?_⟩
  exact ((timerfd_reports_while_read expiredOnce).2 (.reads 8 true false) _
    (Timerfd.reports_iff.mpr (by decide)) rfl).mpr trivial

/-- Then the timer is set again. -/
def setAgain : List TimerfdStep :=
  oneExpiration ++ [.settimeLocks, .settimeSets true false true]

/--
A timer that has expired is set again: the next read returns the old
expiration at once.
-/
theorem moved_timer_keeps_its_expiration :
    ∃ fd,
      setAgain.foldlM Timerfd.run .new = some fd ∧
        fd.history.head? = some .settime ∧
        expirationsSince fd.history = 0 ∧
        fd.poll = true ∧ fd.read 8 true false = .value 1 :=
  ⟨(setAgain.foldlM Timerfd.run .new).getD .new, by decide, by decide,
    by decide, by decide, by decide⟩

end GuestKernel
