import GuestKernel.Poll

namespace GuestKernel

/-!
# Waiting with a callback

`poll_wait` of `fs/poll.c` on a `struct poll` that one call has made for
itself, as `poll` and `select` do: the loop over the registrations hands what
is ready to a callback, until a round has found something or the wait ends.
-/

/-- `POLL_READ`. -/
def pollRead : BitVec 32 := 1#32

/-- `POLL_PRI`. -/
def pollPri : BitVec 32 := 2#32

/-- `POLL_WRITE`. -/
def pollWrite : BitVec 32 := 4#32

/-- `POLL_NVAL`. -/
def pollNval : BitVec 32 := 32#32

/-- A `struct poll_fd` of such a call, neither one-shot nor edge-triggered. -/
structure Registration (Info : Type) where
  types : BitVec 32
  info : Info
  plain : types &&& (pollOneshot ||| pollEdgetriggered) = 0#32

/-- `poll_types`, from what the file's `poll` returned. -/
def Registration.seen
    {Info : Type} (registration : Registration Info)
    (ready : Info → BitVec 32) : BitVec 32 :=
  ready registration.info &&& (registration.types ||| pollHup ||| pollErr)

/-- How a round ends in which the callback took nothing. -/
inductive RoundEnd where
  | signal
  | failed (err : Errno)
  | timedOut
  | woken
  deriving Repr, DecidableEq

/-- One round: what the files return, and how the sleep behind it ends. -/
structure WaitRound (Info : Type) where
  ready : Info → BitVec 32
  ending : RoundEnd

/-- The callback of a wait: the context after it, and whether it returned 1. -/
abbrev PollCallback (Info Context : Type) :=
  Context → BitVec 32 → Info → Context × Bool

variable {Info Context : Type}

/-- The loop over the registrations, and how often the callback returned 1. -/
def checkLoop
    (callback : PollCallback Info Context) (ready : Info → BitVec 32) :
    List (Registration Info) → Context → Nat → Context × Nat
  | [], context, res => (context, res)
  | registration :: rest, context, res =>
    if registration.seen ready = 0#32 then
      checkLoop callback ready rest context res
    else
      let answer :=
        callback context (registration.seen ready) registration.info
      checkLoop callback ready rest answer.1
        (if answer.2 then res + 1 else res)

/--
`poll_wait` behind the `pipe`.  `none` is a call that has not returned; the
host does not time out where there is no timeout.
-/
def pollWait
    (callback : PollCallback Info Context)
    (registrations : List (Registration Info))
    (isTimed : Bool) :
    List (WaitRound Info) → Context → Option (Except Errno Nat × Context)
  | [], _ => none
  | round :: rest, context =>
    let checked := checkLoop callback round.ready registrations context 0
    if 0 < checked.2 then
      some (.ok checked.2, checked.1)
    else
      match round.ending with
      | .signal => some (.error .intr, checked.1)
      | .failed err => some (.error err, checked.1)
      | .timedOut => if isTimed then some (.ok 0, checked.1) else none
      | .woken =>
        pollWait callback registrations isTimed rest checked.1

theorem exists_bit
    {types : BitVec 32}
    (notZero : types ≠ 0#32) :
    ∃ bit, types.getLsbD bit = true := by
  by_contra none
  refine notZero (BitVec.eq_of_getLsbD_eq fun bit _ => ?_)
  rw [BitVec.getLsbD_zero]
  exact Bool.eq_false_iff.mpr fun isSet => none ⟨bit, isSet⟩

theorem and_ne_zero_iff
    {types other : BitVec 32} :
    types &&& other ≠ 0#32 ↔
      ∃ bit, types.getLsbD bit = true ∧ other.getLsbD bit = true := by
  constructor
  · intro notZero
    obtain ⟨bit, isSet⟩ := exists_bit notZero
    rw [BitVec.getLsbD_and, Bool.and_eq_true] at isSet
    exact ⟨bit, isSet⟩
  · rintro ⟨bit, isType, isOther⟩ isZero
    have isSet : (types &&& other).getLsbD bit = true := by
      rw [BitVec.getLsbD_and, isType, isOther, Bool.and_self]
    rw [isZero, BitVec.getLsbD_zero] at isSet
    cases isSet

/-- A callback that takes nothing leaves no trace. -/
def IsQuiet (callback : PollCallback Info Context) : Prop :=
  ∀ context types info,
    (callback context types info).2 = false →
    (callback context types info).1 = context

/-- The wait ends in this round: what it returns is decided here. -/
structure EndsIn
    (callback : PollCallback Info Context)
    (registrations : List (Registration Info))
    (isTimed : Bool)
    (context : Context)
    (round : WaitRound Info)
    (result : Except Errno Nat)
    (last : Context) : Prop where
  checked :
    last = (checkLoop callback round.ready registrations context 0).1
  found :
    0 < (checkLoop callback round.ready registrations context 0).2 →
      result =
        .ok (checkLoop callback round.ready registrations context 0).2
  nothing :
    (checkLoop callback round.ready registrations context 0).2 = 0 →
      round.ending ≠ .woken ∧
        ((∃ err, result = .error err) ∨ isTimed = true ∧ result = .ok 0)

/-- A round behind which the wait goes on. -/
def GoesOn
    (callback : PollCallback Info Context)
    (registrations : List (Registration Info))
    (context : Context)
    (round : WaitRound Info) : Prop :=
  (checkLoop callback round.ready registrations context 0).2 = 0 ∧
    round.ending = .woken

variable
  {callback : PollCallback Info Context}
  {ready : Info → BitVec 32}
  {registrations : List (Registration Info)}
  {isTimed : Bool}
  {rounds : List (WaitRound Info)}
  {context last : Context}
  {result : Except Errno Nat}
  {res : Nat}

theorem le_checkLoop :
    res ≤ (checkLoop callback ready registrations context res).2 := by
  induction registrations generalizing context res with
  | nil => exact Nat.le_refl res
  | cons registration rest inductionHypothesis =>
    unfold checkLoop
    split
    · exact inductionHypothesis
    · refine Nat.le_trans ?_ inductionHypothesis
      split
      · exact Nat.le_succ res
      · exact Nat.le_refl res

/-- A round in which the callback took nothing changes nothing. -/
theorem checkLoop_of_zero
    (quiet : IsQuiet callback)
    (isZero : (checkLoop callback ready registrations context 0).2 = 0) :
    (checkLoop callback ready registrations context 0).1 = context := by
  induction registrations with
  | nil => rfl
  | cons registration rest inductionHypothesis =>
    unfold checkLoop at isZero ⊢
    split at isZero
    case isTrue notReady =>
      rw [if_pos notReady]
      exact inductionHypothesis isZero
    case isFalse isReady =>
      rw [if_neg isReady]
      dsimp only at isZero ⊢
      cases took :
          (callback context (registration.seen ready)
            registration.info).2 with
      | true =>
        rw [took, if_pos rfl] at isZero
        exact absurd isZero (Nat.ne_of_gt le_checkLoop)
      | false =>
        have same := quiet _ _ _ took
        rw [took, if_neg Bool.false_ne_true, same] at isZero
        rw [if_neg Bool.false_ne_true, same]
        exact inductionHypothesis isZero

/-- A wait that returns does so in the first round that does not go on. -/
theorem exists_endsIn
    (quiet : IsQuiet callback)
    (returns :
      pollWait callback registrations isTimed rounds context =
        some (result, last)) :
    ∃ before round after,
      rounds = before ++ round :: after ∧
        (∀ earlier ∈ before,
          GoesOn callback registrations context earlier) ∧
          EndsIn callback registrations isTimed context round result
            last := by
  induction rounds with
  | nil => cases returns
  | cons round rest inductionHypothesis =>
    have first :
        EndsIn callback registrations isTimed context round result last →
          ∃ before later after,
            round :: rest = before ++ later :: after ∧
              (∀ earlier ∈ before,
                GoesOn callback registrations context earlier) ∧
                EndsIn callback registrations isTimed context later result
                  last :=
      fun ends => ⟨[], round, rest, rfl, (fun _ member => nomatch member), ends⟩
    unfold pollWait at returns
    dsimp only at returns
    split at returns
    case isTrue found =>
      obtain ⟨rfl, rfl⟩ := Prod.mk.inj (Option.some.inj returns)
      exact first ⟨rfl, fun _ => rfl, fun isZero =>
        absurd isZero (Nat.ne_of_gt found)⟩
    case isFalse notFound =>
      have isZero :=
        Nat.eq_zero_of_not_pos notFound
      have never :
          0 < (checkLoop callback round.ready registrations context 0).2 →
            result =
              .ok (checkLoop callback round.ready registrations context
                0).2 :=
        fun found => absurd found notFound
      cases ending : round.ending with
      | signal | failed err =>
        rw [ending] at returns
        obtain ⟨rfl, rfl⟩ := Prod.mk.inj (Option.some.inj returns)
        exact first ⟨rfl, never, fun _ =>
          ⟨ending ▸ nofun, .inl ⟨_, rfl⟩⟩⟩
      | timedOut =>
        rw [ending] at returns
        dsimp only at returns
        split at returns
        case isTrue timed =>
          obtain ⟨rfl, rfl⟩ := Prod.mk.inj (Option.some.inj returns)
          exact first ⟨rfl, never, fun _ =>
            ⟨ending ▸ nofun, .inr ⟨timed, rfl⟩⟩⟩
        case isFalse => cases returns
      | woken =>
        rw [ending] at returns
        dsimp only at returns
        rw [checkLoop_of_zero quiet isZero] at returns
        obtain ⟨before, later, after, rfl, goOn, ends⟩ :=
          inductionHypothesis returns
        exact ⟨round :: before, later, after, rfl,
          List.forall_mem_cons.mpr ⟨⟨isZero, ending⟩, goOn⟩, ends⟩

end GuestKernel
