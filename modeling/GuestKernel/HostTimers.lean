import Mathlib.Data.Int.Basic

namespace GuestKernel

/-!
# Timers of the host

`util/timer.h` and `util/timer.c`: arithmetic of `struct timespec`, `timer_set`
and the thread that waits for a timer.  The clock of a timer shows a number of
nanoseconds, and may show any.
-/

/-- `struct timespec`. -/
structure Timespec where
  sec : Int
  nsec : Int
  deriving Repr, DecidableEq

namespace Timespec

/-- `timespec_add`. -/
def add (x y : Timespec) : Timespec :=
  if 1000000000 ≤ x.nsec + y.nsec then
    ⟨x.sec + y.sec + 1, x.nsec + y.nsec - 1000000000⟩
  else
    ⟨x.sec + y.sec, x.nsec + y.nsec⟩

/-- `timespec_subtract`. -/
def subtract (x y : Timespec) : Timespec :=
  if x.nsec < y.nsec then
    ⟨x.sec - 1 - y.sec, x.nsec + 1000000000 - y.nsec⟩
  else
    ⟨x.sec - y.sec, x.nsec - y.nsec⟩

/-- `timespec_is_zero`. -/
def isZero (ts : Timespec) : Bool :=
  ts.sec = 0 ∧ ts.nsec = 0

/-- `timespec_positive`. -/
def positive (ts : Timespec) : Bool :=
  0 < ts.sec ∨ ts.sec = 0 ∧ 0 < ts.nsec

/-- What a `struct timespec` stands for. -/
def toNs (ts : Timespec) : Int :=
  ts.sec * 1000000000 + ts.nsec

/-- What `timespec_now` returns when the clock shows this. -/
def ofNs (now : Int) : Timespec :=
  ⟨now / 1000000000, now % 1000000000⟩

/-- The nanoseconds are those of a fraction of a second. -/
structure Normal (ts : Timespec) : Prop where
  nonneg : 0 ≤ ts.nsec
  small : ts.nsec < 1000000000

variable {x y ts : Timespec}

@[simp] theorem toNs_add (x y : Timespec) :
    (x.add y).toNs = x.toNs + y.toNs := by
  unfold add toNs
  split <;> dsimp only <;> omega

@[simp] theorem toNs_subtract (x y : Timespec) :
    (x.subtract y).toNs = x.toNs - y.toNs := by
  unfold subtract toNs
  split <;> dsimp only <;> omega

@[simp] theorem toNs_ofNs (now : Int) : (ofNs now).toNs = now := by
  unfold ofNs toNs
  dsimp only
  omega

theorem normal_ofNs (now : Int) : (ofNs now).Normal where
  nonneg := Int.emod_nonneg _ (by decide)
  small := Int.emod_lt_of_pos _ (by decide)

theorem Normal.add (normalX : x.Normal) (normalY : y.Normal) :
    (x.add y).Normal := by
  obtain ⟨nonnegX, smallX⟩ := normalX
  obtain ⟨nonnegY, smallY⟩ := normalY
  unfold Timespec.add
  split <;> constructor <;> dsimp only <;> omega

theorem Normal.subtract (normalX : x.Normal) (normalY : y.Normal) :
    (x.subtract y).Normal := by
  obtain ⟨nonnegX, smallX⟩ := normalX
  obtain ⟨nonnegY, smallY⟩ := normalY
  unfold Timespec.subtract
  split <;> constructor <;> dsimp only <;> omega

theorem Normal.isZero_iff (normal : ts.Normal) :
    ts.isZero = true ↔ ts.toNs = 0 := by
  obtain ⟨nonneg, small⟩ := normal
  rw [isZero, decide_eq_true_iff, toNs]
  omega

theorem Normal.positive_iff (normal : ts.Normal) :
    ts.positive = true ↔ 0 < ts.toNs := by
  obtain ⟨nonneg, small⟩ := normal
  rw [positive, decide_eq_true_iff, toNs]
  omega

theorem Normal.sec_nonneg (normal : ts.Normal) :
    0 ≤ ts.sec ↔ 0 ≤ ts.toNs := by
  obtain ⟨nonneg, small⟩ := normal
  rw [toNs]
  omega

end Timespec

/--
Where the thread of a timer is: it looks at the timer once it has the lock, has
given the lock up to sleep this long, or sleeps until the clock shows this.
-/
inductive TimerThread where
  | awake
  | leaving (remaining : Timespec)
  | asleep (wake : Int)
  deriving Repr, DecidableEq

namespace TimerThread

/-- `pthread_kill` ends a sleep; a thread that has yet to sleep loses it. -/
def signalled : TimerThread → TimerThread
  | asleep _ => awake
  | thread => thread

/-- When a thread that is never late looks at its timer. -/
def nextLook (now : Int) : TimerThread → Int
  | awake => now
  | leaving remaining => max now (now + remaining.toNs)
  | asleep wake => max now wake

end TimerThread

/-- What counts of `struct timer`. -/
structure HostTimer where
  start : Timespec
  finish : Timespec
  interval : Timespec
  active : Bool
  threadRunning : Bool
  thread : TimerThread
  deriving Repr, DecidableEq

/-- `struct timer_spec`. -/
structure TimerSpec where
  value : Timespec
  interval : Timespec
  deriving Repr, DecidableEq

/-- `timer_new`, which leaves in the times what `malloc` returned. -/
def HostTimer.new (start finish interval : Timespec) : HostTimer where
  start := start
  finish := finish
  interval := interval
  active := false
  threadRunning := false
  thread := .awake

namespace HostTimer

/-- `timer_set`; the second is what it writes to `oldspec`. -/
def set (timer : HostTimer) (now : Int) (spec : TimerSpec) :
    HostTimer × TimerSpec :=
  let old :=
    { value := timer.finish.subtract (.ofNs now), interval := timer.interval }
  let active := !spec.value.isZero
  ({ start := .ofNs now
     finish := (Timespec.ofNs now).add spec.value
     interval := spec.interval
     active := active
     threadRunning := timer.threadRunning || active
     thread :=
       if timer.threadRunning then timer.thread.signalled else .awake },
    old)

/--
One round of `timer_thread` while it has the lock, and whether it calls back:
it goes to sleep, calls back, or ends.
-/
def threadLooks (timer : HostTimer) (now : Int) : HostTimer × Bool :=
  if timer.active then
    let remaining := timer.finish.subtract (.ofNs now)
    if remaining.positive then
      ({ timer with thread := .leaving remaining }, false)
    else if timer.interval.positive then
      ({ timer with
        start := timer.finish
        finish := timer.finish.add timer.interval }, true)
    else
      ({ timer with threadRunning := false }, true)
  else
    ({ timer with threadRunning := false }, false)

/--
What the clock shows when the thread first calls back, if it looks when the
clock shows these.
-/
def firstCall : List Int → HostTimer → Option Int
  | [], _ => none
  | clock :: rest, timer =>
    if timer.threadRunning then
      if (timer.threadLooks clock).2 then
        some clock
      else
        firstCall rest (timer.threadLooks clock).1
    else
      none

/--
From now on the thread first calls back when it looks at this time or later; or
it never calls back.
-/
structure NextExpiry
    (timer : HostTimer) (now : Int) (expiry : Option Int) : Prop where
  future : ∀ due ∈ expiry, now ≤ due
  first :
    ∀ looks : List Int,
      (∀ clock ∈ looks, now ≤ clock) →
      timer.firstCall looks =
        expiry.bind fun due => looks.find? fun clock => due ≤ clock

/--
What the clock shows when a thread that is never late first calls back: it looks
when its sleep is over, and again at the end of the timer.
-/
def promptCall (timer : HostTimer) (now : Int) : Option Int :=
  let look := timer.thread.nextLook now
  timer.firstCall [look, max look timer.finish.toNs]

/-- The time that is left until then, and none if there is none. -/
def timeLeft (now : Int) (expiry : Option Int) : Int :=
  (expiry.map fun due => due - now).getD 0

/-- When the timer expires next, in terms of its fields. -/
def nextExpiry (timer : HostTimer) (now : Int) : Option Int :=
  if timer.threadRunning && timer.active then
    some (max now timer.finish.toNs)
  else
    none

/-- The times of a timer that was set are normal. -/
def Settled (timer : HostTimer) : Prop :=
  timer.active = true → timer.finish.Normal ∧ timer.interval.Normal

variable
  {timer : HostTimer}
  {now : Int}

/-- There is no more than one next expiry. -/
theorem NextExpiry.unique
    {one other : Option Int}
    (isOne : timer.NextExpiry now one)
    (isOther : timer.NextExpiry now other) :
    one = other := by
  have below :
      ∀ {first second : Option Int},
        timer.NextExpiry now first →
        timer.NextExpiry now second →
        ∀ due ∈ first, ∃ earlier ∈ second, earlier ≤ due := by
    rintro _ second isFirst isSecond due ⟨⟩
    have soon : ∀ clock ∈ [due], now ≤ clock := by
      intro clock member
      rw [List.mem_singleton.mp member]
      exact isFirst.future due rfl
    have same := (isFirst.first [due] soon).symm.trans
      (isSecond.first [due] soon)
    rw [Option.bind_some, List.find?_cons_of_pos (by simp)] at same
    obtain ⟨earlier, isEarlier, found⟩ := Option.bind_eq_some_iff.mp same.symm
    exact ⟨earlier, isEarlier, by simpa using List.find?_some found⟩
  cases one with
  | none =>
    cases other with
    | none => rfl
    | some due =>
      obtain ⟨_, isNone, _⟩ := below isOther isOne due rfl
      cases isNone
  | some due =>
    obtain ⟨late, isLate, before⟩ := below isOne isOther due rfl
    obtain ⟨early, isEarly, after⟩ := below isOther isOne late isLate
    cases isEarly
    cases isLate
    rw [Int.le_antisymm after before]

/-- A thread that finds its timer disarmed does not call back. -/
theorem firstCall_idle
    (idle : (timer.threadRunning && timer.active) = false)
    (looks : List Int) :
    timer.firstCall looks = none := by
  cases looks with
  | nil => rfl
  | cons clock rest =>
    unfold firstCall
    split
    · next running =>
        rw [running, Bool.true_and] at idle
        have ends :
            timer.threadLooks clock =
              ({ timer with threadRunning := false }, false) := by
          rw [threadLooks, idle, if_neg Bool.false_ne_true]
        rw [ends, if_neg Bool.false_ne_true]
        cases rest <;> rfl
    · rfl

/-- An armed timer is due from its end on. -/
theorem threadLooks_armed
    (active : timer.active = true)
    (normal : timer.finish.Normal)
    (clock : Int) :
    ((timer.threadLooks clock).2 = true ↔ timer.finish.toNs ≤ clock) ∧
      ((timer.threadLooks clock).2 = false →
        ∃ thread,
          (timer.threadLooks clock).1 = { timer with thread := thread }) := by
  have later := (normal.subtract (Timespec.normal_ofNs clock)).positive_iff
  rw [Timespec.toNs_subtract, Timespec.toNs_ofNs, Int.sub_pos] at later
  unfold threadLooks
  rw [if_pos active]
  dsimp only
  split
  · next isLater =>
      have notDue := Int.not_le.mpr (later.mp isLater)
      exact ⟨iff_of_false Bool.false_ne_true notDue, fun _ => ⟨_, rfl⟩⟩
  · next isDue =>
      rw [later, Int.not_lt] at isDue
      split <;> exact ⟨iff_of_true rfl isDue, nofun⟩

/-- The fields of a timer tell when it expires next. -/
theorem Settled.nextExpiry
    (settled : timer.Settled)
    (now : Int) :
    timer.NextExpiry now (timer.nextExpiry now) := by
  unfold HostTimer.nextExpiry
  split
  · next armed =>
      obtain ⟨running, active⟩ := Bool.and_eq_true_iff.mp armed
      refine ⟨?_, fun looks soon => ?_⟩
      · rintro due ⟨⟩
        exact Int.le_max_left _ _
      · rw [Option.bind_some]
        induction looks generalizing timer with
        | nil => rfl
        | cons clock rest inductionHypothesis =>
          obtain ⟨calls, sleeps⟩ :=
            threadLooks_armed active (settled active).1 clock
          have isNow := soon clock List.mem_cons_self
          unfold firstCall
          rw [if_pos running]
          split
          · next called =>
              have isDue := calls.mp called
              rw [List.find?_cons_of_pos]
              exact decide_eq_true (Int.max_le.mpr ⟨isNow, isDue⟩)
          · next asleep =>
              have notDue := mt calls.mpr asleep
              obtain ⟨thread, same⟩ := sleeps (Bool.eq_false_iff.mpr asleep)
              have later :
                  firstCall rest { timer with thread := thread } =
                    rest.find? fun clock =>
                      max now timer.finish.toNs ≤ clock :=
                inductionHypothesis settled armed running active
                  fun later member =>
                    soon later (List.mem_cons_of_mem _ member)
              rw [same, later, List.find?_cons_of_neg]
              intro isDue
              exact notDue (Int.max_le.mp (of_decide_eq_true isDue)).2
  · next idle =>
      exact ⟨nofun, fun looks _ =>
        firstCall_idle (Bool.eq_false_iff.mpr idle) looks⟩

theorem settled_set
    {spec : TimerSpec}
    (normalValue : spec.value.Normal)
    (normalInterval : spec.interval.Normal) :
    (timer.set now spec).1.Settled :=
  fun _ => ⟨(Timespec.normal_ofNs now).add normalValue, normalInterval⟩

theorem Settled.threadLooks
    (settled : timer.Settled) :
    (timer.threadLooks now).1.Settled := by
  unfold HostTimer.threadLooks
  split
  · dsimp only
    split
    · exact settled
    split
    · intro active
      obtain ⟨normal, normalInterval⟩ := settled active
      exact ⟨normal.add normalInterval, normalInterval⟩
    · exact settled
  · exact settled

/-- A timer calls back when it is due unless its thread sleeps longer. -/
theorem Settled.promptCall_iff
    {expiry : Option Int}
    (settled : timer.Settled)
    (isNext : timer.NextExpiry now expiry) :
    timer.promptCall now = expiry ↔
      ∀ due ∈ expiry, timer.thread.nextLook now ≤ due := by
  have isNow : now ≤ timer.thread.nextLook now := by
    cases timer.thread with
    | awake => exact Int.le_refl _
    | leaving remaining => exact Int.le_max_left _ _
    | asleep wake => exact Int.le_max_left _ _
  have called := isNext.first
    [timer.thread.nextLook now,
      max (timer.thread.nextLook now) timer.finish.toNs] (by
    intro clock member
    simp only [List.mem_cons, List.not_mem_nil, or_false] at member
    omega)
  unfold promptCall
  dsimp only
  rw [called]
  cases expiry with
  | none => exact iff_of_true rfl nofun
  | some due =>
    have isDue : due = max now timer.finish.toNs := by
      have same := isNext.unique (settled.nextExpiry now)
      unfold HostTimer.nextExpiry at same
      split at same
      · exact Option.some.inj same
      · cases same
    rw [Option.bind_some]
    by_cases late : due ≤ timer.thread.nextLook now
    · rw [List.find?_cons_of_pos (by simpa using late), Option.some_inj]
      exact ⟨by rintro same _ ⟨⟩; exact Int.le_of_eq same,
        fun early => Int.le_antisymm (early due rfl) late⟩
    · have atEnd : max (timer.thread.nextLook now) timer.finish.toNs = due := by
        omega
      rw [atEnd, List.find?_cons_of_neg (by simpa using late),
        List.find?_cons_of_pos (by simp)]
      exact iff_of_true rfl (by rintro _ ⟨⟩; omega)

/-- When a timer that was just set expires. -/
theorem nextExpiry_set
    (spec : TimerSpec) :
    (timer.set now spec).1.nextExpiry now =
      if spec.value.isZero then none
      else some (max now (now + spec.value.toNs)) := by
  have same :
      (timer.set now spec).1.nextExpiry now =
        if (timer.threadRunning || !spec.value.isZero) &&
            !spec.value.isZero then
          some (max now ((Timespec.ofNs now).add spec.value).toNs)
        else
          none :=
    rfl
  rw [same, Timespec.toNs_add, Timespec.toNs_ofNs]
  cases spec.value.isZero with
  | true => rw [Bool.not_true, Bool.and_false]; rfl
  | false => rw [Bool.not_false, Bool.or_true]; rfl

end HostTimer

end GuestKernel
