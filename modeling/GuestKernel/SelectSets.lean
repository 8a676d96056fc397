import GuestKernel.PollWait
import Mathlib.Algebra.GroupWithZero.Nat

namespace GuestKernel
open List
open BitVec (getLsbD_and getLsbD_or zero_and)

/-!
# `select`

`select_common` of `kernel/poll.c`, behind `sys_select` and `sys_pselect`.  A
descriptor of several sets has one registration, and the callback puts what is
reported for it into all sets that it fits.
-/

/-- `SELECT_READ`. -/
def selectRead : BitVec 32 := pollRead ||| pollHup ||| pollErr

/-- `SELECT_WRITE`. -/
def selectWrite : BitVec 32 := pollWrite ||| pollErr

/-- `SELECT_EX`. -/
def selectEx : BitVec 32 := pollPri

/-- Three sets of descriptors, as arrays of bits. -/
structure SelectSets where
  readfds : Nat → Bool
  writefds : Nat → Bool
  exceptfds : Nat → Bool

/--
The arguments, in which a null address is no set, and what the kernel is given
for them: the descriptors that are open and those for which `poll_add_fd`
fails, and the errors of `poll_create` and `pipe`.
-/
structure SelectCall where
  nfds : BitVec 32
  readfds : Option (Nat → Bool)
  writefds : Option (Nat → Bool)
  exceptfds : Option (Nat → Bool)
  isTimed : Bool
  readFaults : Bool
  createError : Option Errno
  isOpen : Nat → Bool
  addFails : Nat → Bool
  pipeError : Option Errno
  rounds : List (WaitRound Nat)
  writeFaults : Bool

/-- The sets that are written back, where there is an address. -/
structure SelectOutput where
  readfds : Option (Nat → Bool)
  writefds : Option (Nat → Bool)
  exceptfds : Option (Nat → Bool)

/-- `bit_set`. -/
def bitSet (index : Nat) (bits : Nat → Bool) : Nat → Bool :=
  Function.update bits index true

/-- `select_event_callback`. -/
def selectEventCallback : PollCallback Nat SelectSets :=
  fun context types fd =>
    ({ readfds :=
        if types &&& selectRead ≠ 0#32 then
          bitSet fd context.readfds
        else
          context.readfds
       writefds :=
        if types &&& selectWrite ≠ 0#32 then
          bitSet fd context.writefds
        else
          context.writefds
       exceptfds :=
        if types &&& selectEx ≠ 0#32 then
          bitSet fd context.exceptfds
        else
          context.exceptfds },
    types &&& (selectRead ||| selectWrite ||| selectEx) != 0#32)

/-- `bit_test` of a set that `user_read_or_zero` has read. -/
def hasBit (set : Option (Nat → Bool)) (index : Nat) : Bool :=
  set.any fun bits => bits index

/-- The events of a descriptor that is in these sets. -/
def selectEvents (inRead inWrite inExcept : Bool) : BitVec 32 :=
  (if inRead then selectRead else 0#32) |||
    (if inWrite then selectWrite else 0#32) |||
      (if inExcept then selectEx else 0#32)

theorem plain_selectEvents :
    ∀ inRead inWrite inExcept,
      selectEvents inRead inWrite inExcept &&&
        (pollOneshot ||| pollEdgetriggered) = 0#32 := by
  decide

namespace SelectCall

/-- `BITS_SIZE(nfds)`, an `int`. -/
def fdsetSize (call : SelectCall) : Int :=
  (call.nfds.toInt - 1).tdiv 8 + 1

/-- How many descriptors the loops go through. -/
def bound (call : SelectCall) : Nat :=
  call.nfds.toInt.toNat

/-- `events` of a descriptor. -/
def events (call : SelectCall) (fd : Nat) : BitVec 32 :=
  selectEvents (hasBit call.readfds fd) (hasBit call.writefds fd)
    (hasBit call.exceptfds fd)

/-- The registration of a descriptor. -/
def registration (call : SelectCall) (fd : Nat) : Registration Nat where
  types := call.events fd
  info := fd
  plain := plain_selectEvents _ _ _

/-- One round of the loop over the descriptors. -/
def addRound
    (call : SelectCall) (registrations : List (Registration Nat))
    (fd : Nat) : Except Errno (List (Registration Nat)) :=
  if call.events fd = 0#32 then
    .ok registrations
  else if call.isOpen fd = false then
    .error .badf
  else if call.addFails fd then
    -- the error of `poll_add_fd` is dropped
    .ok registrations
  else
    .ok (call.registration fd :: registrations)

/-- The loop over the descriptors. -/
def setup (call : SelectCall) : Except Errno (List (Registration Nat)) :=
  (List.range call.bound).foldlM call.addRound []

/-- The sets behind the `memset`. -/
def cleared : SelectSets where
  readfds _ := false
  writefds _ := false
  exceptfds _ := false

/-- `poll_wait` with the callback. -/
def wait (call : SelectCall) (registrations : List (Registration Nat)) :
    Option (Except Errno Nat × SelectSets) :=
  match call.pipeError with
  | some err => some (.error err, cleared)
  | none =>
    pollWait selectEventCallback registrations call.isTimed call.rounds
      cleared

/-- The sets that have an address. -/
def output (call : SelectCall) (sets : SelectSets) : SelectOutput where
  readfds := call.readfds.map fun _ => sets.readfds
  writefds := call.writefds.map fun _ => sets.writefds
  exceptfds := call.exceptfds.map fun _ => sets.exceptfds

/--
`select_common`; `none` is a call that has not returned, or one whose arrays of
a negative size do not fit on the stack.
-/
def selectCommon (call : SelectCall) :
    Option (Except Errno (Nat × SelectOutput)) :=
  if call.fdsetSize < 0 then
    none
  else if call.readFaults then
    some (.error .fault)
  else
    match call.createError, call.setup with
    | some err, _ => some (.error err)
    | none, .error err => some (.error err)
    | none, .ok registrations =>
      (call.wait registrations).map fun answer =>
        match answer.1 with
        | .error err => .error err
        | .ok res =>
          if call.writeFaults then
            .error .fault
          else
            .ok (res, call.output answer.2)

/-- How many bits of a set are set. -/
def bitCount (call : SelectCall) (set : Option (Nat → Bool)) : Nat :=
  (List.range call.bound).countP (hasBit set)

/--
Each set is part of the one that was given, has only descriptors that are ready
for it, and the result is the number of bits in the three.
-/
structure Answers
    (call : SelectCall) (ready : Nat → BitVec 32)
    (res : Nat) (output : SelectOutput) : Prop where
  reads :
    ∀ fd,
      hasBit output.readfds fd = true →
      hasBit call.readfds fd = true ∧ fd < call.bound ∧
        ready fd &&& selectRead ≠ 0#32
  writes :
    ∀ fd,
      hasBit output.writefds fd = true →
      hasBit call.writefds fd = true ∧ fd < call.bound ∧
        ready fd &&& selectWrite ≠ 0#32
  excepts :
    ∀ fd,
      hasBit output.exceptfds fd = true →
      hasBit call.exceptfds fd = true ∧ fd < call.bound ∧
        ready fd &&& selectEx ≠ 0#32
  counted :
    res =
      call.bitCount output.readfds + call.bitCount output.writefds +
        call.bitCount output.exceptfds

/-- The descriptor is in one of the sets, and has a registration. -/
def isRegistered (call : SelectCall) (fd : Nat) : Bool :=
  call.events fd != 0#32 && !call.addFails fd

/-- What is reported for a descriptor. -/
def seen
    (call : SelectCall) (ready : Nat → BitVec 32) (fd : Nat) : BitVec 32 :=
  if call.isRegistered fd then
    (call.registration fd).seen ready
  else
    0#32

/-- Whether a set that was given shows a descriptor. -/
def shows
    (call : SelectCall) (ready : Nat → BitVec 32)
    (set : Option (Nat → Bool)) (events : BitVec 32) (fd : Nat) : Bool :=
  set.isSome && call.seen ready fd &&& events != 0#32

/-- How many of the sets that were given show a descriptor. -/
def showCount
    (call : SelectCall) (ready : Nat → BitVec 32) (fd : Nat) : Nat :=
  (call.shows ready call.readfds selectRead fd).toNat +
    (call.shows ready call.writefds selectWrite fd).toNat +
      (call.shows ready call.exceptfds selectEx fd).toNat

/--
A descriptor of the sets that has hung up or failed is in the set for reading,
if there is one, and one that has failed is in the set for writing; and as many
bits are set beyond the first one of a descriptor as there are descriptors that
are reported without a bit, because the set for it was not given.
-/
structure Suits (call : SelectCall) (ready : Nat → BitVec 32) : Prop where
  hangups :
    ∀ fd < call.bound,
      call.isRegistered fd = true → call.readfds.isSome = true →
      ready fd &&& (pollHup ||| pollErr) ≠ 0#32 →
      hasBit call.readfds fd = true
  errors :
    ∀ fd < call.bound,
      call.isRegistered fd = true → call.writefds.isSome = true →
      ready fd &&& pollErr ≠ 0#32 → hasBit call.writefds fd = true
  balanced :
    ((List.range call.bound).map fun fd => call.showCount ready fd - 1).sum =
      (List.range call.bound).countP fun fd =>
        call.seen ready fd != 0#32 && call.showCount ready fd == 0

/--
The round in which the wait ends: nothing is reported in the rounds before it,
which end with a wakeup, and something is in it, or it ends otherwise.
-/
def IsLast (call : SelectCall) (round : WaitRound Nat) : Prop :=
  ∃ before after,
    call.rounds = before ++ round :: after ∧
      (∀ earlier ∈ before,
        (∀ fd < call.bound, call.seen earlier.ready fd = 0#32) ∧
          earlier.ending = .woken) ∧
        ((∃ fd < call.bound, call.seen round.ready fd ≠ 0#32) ∨
          round.ending ≠ .woken)

variable
  {call : SelectCall}
  {ready : Nat → BitVec 32}
  {registrations : List (Registration Nat)}
  {context : SelectSets}
  {fd res : Nat}

/-- The callback puts a descriptor into the set that the mask is for. -/
def Places (get : SelectSets → Nat → Bool) (mask : BitVec 32) : Prop :=
  ∀ context types fd,
    get (selectEventCallback context types fd).1 =
      if types &&& mask ≠ 0#32 then bitSet fd (get context) else get context

/-- The loop adds the descriptors for which something of the mask is seen. -/
theorem checkLoop_bit
    {get : SelectSets → Nat → Bool}
    {mask : BitVec 32}
    (places : Places get mask) :
    get (checkLoop selectEventCallback ready registrations context res).1
          fd = true ↔
      get context fd = true ∨
        ∃ registration ∈ registrations,
          registration.info = fd ∧
            registration.seen ready &&& mask ≠ 0#32 := by
  induction registrations generalizing context res with
  | nil => simp [checkLoop]
  | cons registration rest inductionHypothesis =>
    simp only [exists_mem_cons_iff]
    unfold checkLoop
    split
    case isTrue unseen =>
      rw [inductionHypothesis, unseen]
      refine or_congr Iff.rfl (or_iff_right ?_).symm
      exact fun both => both.2 zero_and
    case isFalse isSeen =>
      dsimp only
      rw [inductionHypothesis, places, ← or_assoc]
      refine or_congr ?_ Iff.rfl
      split
      case isTrue inMask =>
        unfold bitSet
        by_cases same : fd = registration.info
        · rw [same, Function.update_self]
          exact iff_of_true rfl (.inr ⟨rfl, inMask⟩)
        · rw [Function.update_of_ne same]
          exact (or_iff_left fun both => same both.1.symm).symm
      case isFalse notInMask =>
        exact (or_iff_left fun both => notInMask both.2).symm

/-- It counts the registrations for which anything is seen. -/
theorem checkLoop_count
    (known :
      ∀ registration ∈ registrations,
        registration.seen ready ≠ 0#32 →
        registration.seen ready &&&
            (selectRead ||| selectWrite ||| selectEx) ≠ 0#32) :
    (checkLoop selectEventCallback ready registrations context res).2 =
      res +
        registrations.countP fun registration =>
          registration.seen ready != 0#32 := by
  induction registrations generalizing context res with
  | nil => rfl
  | cons registration rest inductionHypothesis =>
    obtain ⟨headKnown, restKnown⟩ := forall_mem_cons.mp known
    unfold checkLoop
    rw [countP_cons]
    split
    case isTrue unseen =>
      rw [inductionHypothesis restKnown, unseen]
      rfl
    case isFalse isSeen =>
      have took :
          (selectEventCallback context (registration.seen ready)
            registration.info).2 = true :=
        bne_iff_ne.mpr (headKnown isSeen)
      dsimp only
      rw [took, if_pos rfl, inductionHypothesis restKnown,
        if_pos (bne_iff_ne.mpr isSeen)]
      omega

/-- The callback that takes nothing has set no bit. -/
theorem isQuiet_selectEventCallback :
    IsQuiet selectEventCallback := by
  intro context types fd notTaken
  have isZero :
      types &&& (selectRead ||| selectWrite ||| selectEx) = 0#32 := by
    simpa [selectEventCallback] using notTaken
  have without :
      ∀ mask,
        (∀ bit,
          mask.getLsbD bit = true →
          (selectRead ||| selectWrite ||| selectEx).getLsbD bit = true) →
          types &&& mask = 0#32 := by
    intro mask within
    by_contra notZero
    obtain ⟨bit, isType, isMask⟩ := and_ne_zero_iff.mp notZero
    exact and_ne_zero_iff.mpr ⟨bit, isType, within bit isMask⟩ isZero
  have noRead := without selectRead fun bit isSet => by
    rw [getLsbD_or, getLsbD_or, isSet]
    rfl
  have noWrite := without selectWrite fun bit isSet => by
    rw [getLsbD_or, getLsbD_or, isSet, Bool.or_true]
    rfl
  have noExcept := without selectEx fun bit isSet => by
    rw [getLsbD_or, isSet, Bool.or_true]
  unfold selectEventCallback
  simp only [noRead, noWrite, noExcept, ne_eq, not_true_eq_false, if_false]

/-- The loop over the descriptors registers those that it can. -/
theorem eq_of_setup
    (isSetup : call.setup = .ok registrations) :
    registrations =
      (((List.range call.bound).filter call.isRegistered).map
        call.registration).reverse := by
  have general :
      ∀ (fds : List Nat) (before after : List (Registration Nat)),
        fds.foldlM call.addRound before = .ok after →
        after =
          ((fds.filter call.isRegistered).map
            call.registration).reverse ++ before := by
    intro fds
    induction fds with
    | nil =>
      intro before after runs
      exact (Except.ok.inj runs).symm
    | cons fd rest inductionHypothesis =>
      intro before after runs
      rw [foldlM_cons] at runs
      unfold addRound at runs
      rw [filter_cons]
      unfold isRegistered
      split at runs
      case isTrue isEmpty =>
        rw [isEmpty]
        exact inductionHypothesis before after runs
      case isFalse notEmpty =>
        rw [bne_iff_ne.mpr notEmpty]
        split at runs
        · cases runs
        · split at runs
          case isTrue fails =>
            rw [fails]
            exact inductionHypothesis before after runs
          case isFalse registers =>
            rw [Bool.eq_false_iff.mpr registers, Bool.not_false,
              Bool.true_and, if_pos rfl, map_cons, reverse_cons,
              append_assoc]
            exact inductionHypothesis _ after runs
  have isResult := general (List.range call.bound) [] registrations isSetup
  rw [isResult, append_nil]

/-- What is seen for a descriptor is in the sets' events. -/
theorem seen_known
    (fd : Nat)
    (isSeen : (call.registration fd).seen ready ≠ 0#32) :
    (call.registration fd).seen ready &&&
        (selectRead ||| selectWrite ||| selectEx) ≠ 0#32 := by
  have within :
      ∀ inRead inWrite inExcept,
        (selectEvents inRead inWrite inExcept ||| pollHup ||| pollErr) &&&
            (selectRead ||| selectWrite ||| selectEx) =
          selectEvents inRead inWrite inExcept ||| pollHup ||| pollErr := by
    decide
  have same :
      (call.registration fd).seen ready &&&
          (selectRead ||| selectWrite ||| selectEx) =
        (call.registration fd).seen ready := by
    unfold Registration.seen registration events
    dsimp only
    rw [BitVec.and_assoc, within]
  exact same.symm ▸ isSeen

theorem seen_ne_zero_iff
    {mask : BitVec 32} :
    call.seen ready fd &&& mask ≠ 0#32 ↔
      call.isRegistered fd = true ∧
        (call.registration fd).seen ready &&& mask ≠ 0#32 := by
  unfold seen
  split
  case isTrue isRegistered => exact (and_iff_right isRegistered).symm
  case isFalse notRegistered =>
    exact iff_of_false (fun notZero => notZero zero_and)
      fun both => notRegistered both.1

/-- The sets behind the loop. -/
theorem bit_of_setup
    {get : SelectSets → Nat → Bool}
    {mask : BitVec 32}
    (isSetup : call.setup = .ok registrations)
    (places : Places get mask)
    (isCleared : get cleared = fun _ => false) :
    get (checkLoop selectEventCallback ready registrations cleared 0).1 fd =
        true ↔
      fd < call.bound ∧ call.seen ready fd &&& mask ≠ 0#32 := by
  rw [checkLoop_bit places, isCleared, or_iff_right Bool.false_ne_true,
    seen_ne_zero_iff, eq_of_setup isSetup]
  constructor
  · rintro ⟨registration, member, rfl, inMask⟩
    rw [mem_reverse, List.mem_map] at member
    obtain ⟨fd, member, rfl⟩ := member
    obtain ⟨member, isRegistered⟩ := mem_filter.mp member
    exact ⟨mem_range.mp member, isRegistered, inMask⟩
  · rintro ⟨below, isRegistered, inMask⟩
    refine ⟨call.registration fd, ?_, rfl, inMask⟩
    rw [mem_reverse]
    exact List.mem_map_of_mem
      (mem_filter.mpr ⟨mem_range.mpr below, isRegistered⟩)

/-- The count behind the loop. -/
theorem count_of_setup
    (isSetup : call.setup = .ok registrations) :
    (checkLoop selectEventCallback ready registrations cleared 0).2 =
      (List.range call.bound).countP fun fd =>
        call.seen ready fd != 0#32 := by
  obtain rfl := eq_of_setup isSetup
  rw [checkLoop_count, Nat.zero_add, countP_reverse, countP_map,
    countP_filter]
  · refine countP_congr fun fd _ => ?_
    unfold seen
    cases call.isRegistered fd with
    | true => simp
    | false => simp
  · intro registration member
    rw [mem_reverse, List.mem_map] at member
    obtain ⟨fd, _, rfl⟩ := member
    exact seen_known fd

theorem ready_of_seen
    {mask : BitVec 32}
    (isSeen : call.seen ready fd &&& mask ≠ 0#32) :
    ready fd &&& mask ≠ 0#32 := by
  obtain ⟨bit, isSet, inMask⟩ :=
    and_ne_zero_iff.mp (seen_ne_zero_iff.mp isSeen).2
  unfold Registration.seen at isSet
  rw [getLsbD_and, Bool.and_eq_true] at isSet
  exact and_ne_zero_iff.mpr ⟨bit, isSet.1, inMask⟩

/-- Hang-ups and errors of a descriptor are seen in every mask with them. -/
theorem seen_of_always
    {mask always : BitVec 32}
    (isRegistered : call.isRegistered fd = true)
    (inMask :
      ∀ bit < 32,
        always.getLsbD bit = true →
        mask.getLsbD bit = true ∧
          (pollHup ||| pollErr).getLsbD bit = true)
    (isReady : ready fd &&& always ≠ 0#32) :
    call.seen ready fd &&& mask ≠ 0#32 := by
  obtain ⟨bit, isSet, isAlways⟩ := and_ne_zero_iff.mp isReady
  obtain ⟨isMask, isListened⟩ :=
    inMask bit (BitVec.lt_of_getLsbD isAlways) isAlways
  refine seen_ne_zero_iff.mpr ⟨isRegistered, ?_⟩
  refine and_ne_zero_iff.mpr ⟨bit, ?_, isMask⟩
  unfold Registration.seen
  rw [getLsbD_and, BitVec.or_assoc, getLsbD_or, isListened,
    Bool.or_true, Bool.and_true]
  exact isSet

/--
In a mask of a set that does not have the descriptor, only hang-ups and errors
are seen.
-/
theorem always_of_seen
    {mask always : BitVec 32}
    (isSeen : call.seen ready fd &&& mask ≠ 0#32)
    (notAsked :
      ∀ bit < 32,
        (call.events fd ||| pollHup ||| pollErr).getLsbD bit = true →
        mask.getLsbD bit = true → always.getLsbD bit = true) :
    ready fd &&& always ≠ 0#32 := by
  obtain ⟨bit, isSet, inMask⟩ :=
    and_ne_zero_iff.mp (seen_ne_zero_iff.mp isSeen).2
  unfold Registration.seen at isSet
  rw [getLsbD_and, Bool.and_eq_true] at isSet
  exact and_ne_zero_iff.mpr ⟨bit, isSet.1,
    notAsked bit (BitVec.lt_of_getLsbD inMask) isSet.2 inMask⟩

/--
Where everything that is shown is counted, the number of what is counted is the
sum of what is shown exactly if the surplus of some makes up for the others.
-/
theorem countP_eq_sum_iff
    {Item : Type}
    {isCounted : Item → Bool}
    {shown : Item → Nat}
    {items : List Item}
    (counted : ∀ item ∈ items, 0 < shown item → isCounted item = true) :
    items.countP isCounted = (items.map shown).sum ↔
      (items.map fun item => shown item - 1).sum =
        items.countP fun item => isCounted item && shown item == 0 := by
  have balance :
      (items.map shown).sum +
          items.countP (fun item => isCounted item && shown item == 0) =
        items.countP isCounted +
          (items.map fun item => shown item - 1).sum := by
    induction items with
    | nil => rfl
    | cons item rest inductionHypothesis =>
      obtain ⟨headCounted, restCounted⟩ := forall_mem_cons.mp counted
      have later := inductionHypothesis restCounted
      rw [map_cons, map_cons, sum_cons, sum_cons,
        countP_cons, countP_cons]
      cases isShown : shown item with
      | zero =>
        cases isCounted item with
        | true | false =>
          simp
          omega
      | succ more =>
        rw [headCounted (isShown ▸ Nat.succ_pos more)]
        simp
        omega
  omega

theorem bitCount_eq
    {set output : Option (Nat → Bool)}
    {mask : BitVec 32}
    (written :
      ∀ fd,
        hasBit output fd = true ↔
          fd < call.bound ∧ call.shows ready set mask fd = true) :
    call.bitCount output =
      (List.range call.bound).countP (call.shows ready set mask) := by
  refine countP_congr fun fd member => ?_
  rw [written]
  exact and_iff_right (mem_range.mp member)

theorem sum_showCount
    (fds : List Nat) :
    (fds.map fun fd => call.showCount ready fd).sum =
      fds.countP (call.shows ready call.readfds selectRead) +
        fds.countP (call.shows ready call.writefds selectWrite) +
          fds.countP (call.shows ready call.exceptfds selectEx) := by
  induction fds with
  | nil => rfl
  | cons fd rest inductionHypothesis =>
    rw [map_cons, sum_cons, inductionHypothesis,
      countP_cons, countP_cons, countP_cons, showCount]
    have asIf : ∀ bit : Bool, bit.toNat = if bit = true then 1 else 0 := by
      intro bit
      cases bit with
      | false => rfl
      | true => rfl
    rw [asIf, asIf, asIf]
    omega

/-- What the loop leaves in a set that was given. -/
theorem hasBit_written
    {set : Option (Nat → Bool)}
    {get : SelectSets → Nat → Bool}
    {mask : BitVec 32}
    (isSetup : call.setup = .ok registrations)
    (places : Places get mask)
    (isCleared : get cleared = fun _ => false)
    (fd : Nat) :
    hasBit
          (set.map fun _ =>
            get (checkLoop selectEventCallback ready registrations cleared
              0).1) fd = true ↔
      fd < call.bound ∧ call.shows ready set mask fd = true := by
  unfold shows hasBit
  cases set with
  | none => simp
  | some bits =>
    rw [Option.map_some, Option.any_some, Option.isSome_some, Bool.true_and,
      bne_iff_ne, bit_of_setup isSetup places isCleared]

/-- The bits that a mask shows are those of a set that asks for them. -/
theorem asked_iff
    {set output : Option (Nat → Bool)}
    {mask always : BitVec 32}
    (written :
      ∀ fd,
        hasBit output fd = true ↔
          fd < call.bound ∧ call.shows ready set mask fd = true)
    (inMask :
      ∀ bit < 32,
        always.getLsbD bit = true →
        mask.getLsbD bit = true ∧
          (pollHup ||| pollErr).getLsbD bit = true)
    (notAsked :
      ∀ fd,
        hasBit set fd = false →
        ∀ bit < 32,
          (call.events fd ||| pollHup ||| pollErr).getLsbD bit = true →
          mask.getLsbD bit = true → always.getLsbD bit = true) :
    (∀ fd,
        hasBit output fd = true →
        hasBit set fd = true ∧ fd < call.bound ∧
          ready fd &&& mask ≠ 0#32) ↔
      ∀ fd < call.bound,
        call.isRegistered fd = true → set.isSome = true →
        ready fd &&& always ≠ 0#32 → hasBit set fd = true := by
  have isShown :
      ∀ fd,
        call.shows ready set mask fd = true ↔
          set.isSome = true ∧ call.seen ready fd &&& mask ≠ 0#32 := by
    intro fd
    rw [shows, Bool.and_eq_true, bne_iff_ne]
  constructor
  · intro subset fd below isRegistered isGiven isReady
    have isSeen := seen_of_always isRegistered inMask isReady
    exact (subset fd ((written fd).mpr
      ⟨below, (isShown fd).mpr ⟨isGiven, isSeen⟩⟩)).1
  · intro asked fd isBit
    obtain ⟨below, shown⟩ := (written fd).mp isBit
    obtain ⟨isGiven, isSeen⟩ := (isShown fd).mp shown
    refine ⟨?_, below, ready_of_seen isSeen⟩
    by_contra notIn
    have isFalse := Bool.eq_false_iff.mpr notIn
    exact notIn (asked fd below (seen_ne_zero_iff.mp isSeen).1 isGiven
      (always_of_seen isSeen (notAsked fd isFalse)))

/-- The answer of a round is right exactly if the descriptors suit it. -/
theorem answers_iff_suits
    (isSetup : call.setup = .ok registrations) :
    call.Answers ready
        (checkLoop selectEventCallback ready registrations cleared 0).2
        (call.output
          (checkLoop selectEventCallback ready registrations cleared 0).1) ↔
      call.Suits ready := by
  have reads :=
    @hasBit_written call ready registrations call.readfds
      SelectSets.readfds selectRead isSetup (fun _ _ _ => rfl) rfl
  have writes :=
    @hasBit_written call ready registrations call.writefds
      SelectSets.writefds selectWrite isSetup (fun _ _ _ => rfl) rfl
  have excepts :=
    @hasBit_written call ready registrations call.exceptfds
      SelectSets.exceptfds selectEx isSetup (fun _ _ _ => rfl) rfl
  have notRead :
      ∀ inWrite inExcept, ∀ bit < 32,
        (selectEvents false inWrite inExcept ||| pollHup |||
            pollErr).getLsbD bit = true →
          selectRead.getLsbD bit = true →
            (pollHup ||| pollErr).getLsbD bit = true := by
    decide
  have notWrite :
      ∀ inRead inExcept, ∀ bit < 32,
        (selectEvents inRead false inExcept ||| pollHup |||
            pollErr).getLsbD bit = true →
          selectWrite.getLsbD bit = true → pollErr.getLsbD bit = true := by
    decide
  have notExcept :
      ∀ inRead inWrite, ∀ bit < 32,
        (selectEvents inRead inWrite false ||| pollHup |||
            pollErr).getLsbD bit = true →
          selectEx.getLsbD bit = true → (0#32).getLsbD bit = true := by
    decide
  have readsIff := asked_iff reads (show ∀ bit < 32,
      (pollHup ||| pollErr).getLsbD bit = true →
      selectRead.getLsbD bit = true ∧
        (pollHup ||| pollErr).getLsbD bit = true by decide)
    (fun fd notIn => by
      unfold events
      rw [notIn]
      exact notRead _ _)
  have writesIff := asked_iff writes (show ∀ bit < 32,
      pollErr.getLsbD bit = true →
      selectWrite.getLsbD bit = true ∧
        (pollHup ||| pollErr).getLsbD bit = true by decide)
    (fun fd notIn => by
      unfold events
      rw [notIn]
      exact notWrite _ _)
  have exceptsIff := asked_iff excepts (show ∀ bit < 32,
      (0#32).getLsbD bit = true →
      selectEx.getLsbD bit = true ∧
        (pollHup ||| pollErr).getLsbD bit = true by decide)
    (fun fd notIn => by
      unfold events
      rw [notIn]
      exact notExcept _ _)
  have countIff :
      ((checkLoop selectEventCallback ready registrations cleared 0).2 =
          call.bitCount (call.output
              (checkLoop selectEventCallback ready registrations cleared
                0).1).readfds +
            call.bitCount (call.output
              (checkLoop selectEventCallback ready registrations cleared
                0).1).writefds +
            call.bitCount (call.output
              (checkLoop selectEventCallback ready registrations cleared
                0).1).exceptfds) ↔
        ((List.range call.bound).map fun fd =>
            call.showCount ready fd - 1).sum =
          (List.range call.bound).countP fun fd =>
            call.seen ready fd != 0#32 && call.showCount ready fd == 0 := by
    rw [count_of_setup isSetup]
    dsimp only [output]
    rw [bitCount_eq reads, bitCount_eq writes, bitCount_eq excepts,
      ← sum_showCount]
    refine countP_eq_sum_iff fun fd _ isShown => bne_iff_ne.mpr fun isZero => ?_
    unfold showCount shows at isShown
    rw [isZero, zero_and, zero_and, zero_and] at isShown
    simp at isShown
  constructor
  · intro answers
    exact ⟨readsIff.mp answers.reads, writesIff.mp answers.writes,
      countIff.mp answers.counted⟩
  · intro suits
    refine ⟨readsIff.mpr suits.hangups, writesIff.mpr suits.errors, ?_,
      countIff.mpr suits.balanced⟩
    exact exceptsIff.mpr fun fd _ _ _ notZero =>
      absurd BitVec.and_zero notZero

theorem count_eq_zero_iff
    (isSetup : call.setup = .ok registrations) :
    (checkLoop selectEventCallback ready registrations cleared 0).2 = 0 ↔
      ∀ fd < call.bound, call.seen ready fd = 0#32 := by
  rw [count_of_setup isSetup, countP_eq_zero]
  simp only [mem_range, bne_iff_ne, ne_eq, not_not]

/--
When `select` succeeds, its answer is right exactly if what the descriptors
return in the round in which the wait ends suits the sets.
-/
theorem select_answers_iff
    {output : SelectOutput}
    (returns : call.selectCommon = some (.ok (res, output))) :
    ∃ round,
      call.IsLast round ∧
        (call.Answers round.ready res output ↔ call.Suits round.ready) := by
  unfold selectCommon at returns
  split at returns
  · cases returns
  split at returns
  · cases returns
  split at returns
  · cases returns
  · cases returns
  case h_3 registrations _ isSetup =>
    obtain ⟨⟨result, last⟩, waits, answers⟩ :=
      Option.map_eq_some_iff.mp returns
    cases result with
    | error err => cases answers
    | ok found =>
      dsimp only at answers
      split at answers
      · cases answers
      obtain ⟨rfl, rfl⟩ := Prod.mk.inj (Except.ok.inj answers)
      unfold wait at waits
      split at waits
      · obtain ⟨isError, _⟩ := Prod.mk.inj (Option.some.inj waits)
        cases isError
      obtain ⟨before, round, after, same, goOn, ends⟩ :=
        exists_endsIn isQuiet_selectEventCallback waits
      obtain rfl := ends.checked
      refine ⟨round, ⟨before, after, same, ?_, ?_⟩, ?_⟩
      · intro earlier isEarlier
        obtain ⟨isZero, isWoken⟩ := goOn earlier isEarlier
        exact ⟨(count_eq_zero_iff isSetup).mp isZero, isWoken⟩
      · by_cases isZero :
            (checkLoop selectEventCallback round.ready registrations cleared
              0).2 = 0
        · exact .inr (ends.nothing isZero).1
        · rw [count_eq_zero_iff isSetup] at isZero
          simp only [not_forall] at isZero
          obtain ⟨fd, below, isSeen⟩ := isZero
          exact .inl ⟨fd, below, isSeen⟩
      · have isCount :
            found =
              (checkLoop selectEventCallback round.ready registrations
                cleared 0).2 := by
          rcases Nat.eq_zero_or_pos
              (checkLoop selectEventCallback round.ready registrations
                cleared 0).2 with isZero | isFound
          · rcases (ends.nothing isZero).2 with
              ⟨err, isError⟩ | ⟨_, isNone⟩
            · cases isError
            · rw [isZero]
              exact Except.ok.inj isNone
          · exact Except.ok.inj (ends.found isFound)
        subst isCount
        exact answers_iff_suits isSetup

/-- Descriptor 0 in the sets for reading and for writing. -/
def bothSets (ready : BitVec 32) : SelectCall where
  nfds := 1#32
  readfds := some fun fd => fd == 0
  writefds := some fun fd => fd == 0
  exceptfds := none
  isTimed := false
  readFaults := false
  createError := none
  isOpen _ := true
  addFails _ := false
  pipeError := none
  rounds := [⟨fun _ => ready, .woken⟩]
  writeFaults := false

/-- A descriptor that can be read is reported once. -/
theorem select_of_readable :
    ∃ round,
      (bothSets pollRead).IsLast round ∧
        ((bothSets pollRead).Answers round.ready 1
            ⟨some (bitSet 0 fun _ => false), some fun _ => false, none⟩ ↔
          (bothSets pollRead).Suits round.ready) :=
  select_answers_iff rfl

/-- One that can be read and written sets two bits and is counted once. -/
theorem select_of_ready_counts_one :
    ¬∀ (call : SelectCall) (res : Nat) (output : SelectOutput)
        (round : WaitRound Nat),
      call.selectCommon = some (.ok (res, output)) →
        call.IsLast round → call.Answers round.ready res output := by
  intro answers
  have answer :=
    answers (bothSets (pollRead ||| pollWrite)) 1
      ⟨some (bitSet 0 fun _ => false), some (bitSet 0 fun _ => false), none⟩
      ⟨fun _ => pollRead ||| pollWrite, .woken⟩ rfl
      ⟨[], [], rfl, fun _ member => (nomatch member), .inl ⟨0, by decide⟩⟩
  have counted := answer.counted
  revert counted
  decide

end SelectCall

end GuestKernel
