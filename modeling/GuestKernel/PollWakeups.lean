import GuestKernel.PollRegistrations
import Mathlib.Data.Finset.Card

namespace GuestKernel
open List Option Function

/-!
# Wakeups that reach the sleepers

A thread that sleeps in the host is woken by a byte in the notify pipe.  Only
`poll_wakeup` writes one, so a registration or a change of one that finds its
file ready wakes nobody; nor does an `ioctl` that makes a terminal ready; and
one byte wakes one of several sleepers.  Where none of this happens, no
readiness is missed.
-/

namespace PollThread

/-- The thread is between its entry into `poll_wait` and its return. -/
def isInWait : PollThread → Bool
  | waiting _ => true
  | returned _ _ => true
  | _ => false

/-- The thread is in a `poll_wakeup` that has yet to reach a registration. -/
def tells (phase : PollThread) (pollFd : PollFd) (bit : Nat) : Bool :=
  match phase with
  | raised fd events => fd = pollFd.fd && events.getLsbD bit
  | waking _ events left => pollFd.slot ∈ left && events.getLsbD bit
  | _ => false

end PollThread

namespace PollWorld

variable {host : PollHost} {world : PollWorld}

/-- A `poll_wakeup` that is under way will tell the registration. -/
def IsAnnounced (world : PollWorld) (pollFd : PollFd) (bit : Nat) : Prop :=
  ∃ thread, (world.threads thread).tells pollFd bit = true

/--
Every event of the enabled registrations of emulated files is announced, or
was reported edge-triggered.
-/
def Quiet
    (host : PollHost) (world : PollWorld) (fds : List PollFd) : Prop :=
  ∀ pollFd ∈ fds, host.isReal pollFd.fd = false → pollFd.disabled = false →
    ∀ bit,
      (pollFd.pollTypes (world.ready pollFd.fd)).getLsbD bit = true →
      world.IsAnnounced pollFd bit

/-- Somebody sleeps in the host, with nothing in the notify pipe. -/
def SleepsUntold (world : PollWorld) : Prop :=
  (∃ thread room, world.threads thread = .waiting room) ∧
    world.notifyPipe = some 0

/-- No readiness is missed. -/
def NoneMissed (host : PollHost) (world : PollWorld) : Prop :=
  world.SleepsUntold → world.Quiet host world.fds

/-- The number of waiters is right, and the pipe is there for them. -/
def Seated (world : PollWorld) : Prop :=
  ∃ inWait : Finset Nat,
    inWait.card = world.waiters ∧
      (∀ thread,
        thread ∈ inWait ↔ (world.threads thread).isInWait = true) ∧
      (world.notifyPipe.isSome = true ↔ 0 < world.waiters)

/-- Waits have room for an event. -/
def Roomy (world : PollWorld) : Prop :=
  ∀ thread room,
    (world.threads thread = .waiting room ∨
      ∃ result, world.threads thread = .returned room result) →
    0 < room

variable {thread room : Nat} {next : PollWorld} {phase : PollThread}
  {signalPending : Bool} {fds : List PollFd}

/-- A thread that moves inside or outside of the wait keeps the count. -/
theorem Seated.move
    (seated : world.Seated)
    (moved : next.threads = update world.threads thread phase)
    (sameSide : phase.isInWait = (world.threads thread).isInWait)
    (waiters : next.waiters = world.waiters)
    (pipe : next.notifyPipe.isSome = world.notifyPipe.isSome) :
    next.Seated := by
  obtain ⟨inWait, card, members, piped⟩ := seated
  refine ⟨inWait, by rw [card, waiters], ?_, by rw [pipe, waiters]; exact piped⟩
  intro other
  rw [members, moved]
  by_cases same : other = thread
  · subst same
    rw [update_self, sameSide]
  · rw [update_of_ne same]

/-- A look ends in a sleep or a return with the right count. -/
theorem seated_look
    {inWait : Finset Nat}
    (card : inWait.card = world.waiters)
    (isIn : thread ∈ inWait)
    (others :
      ∀ other, other ≠ thread →
        (other ∈ inWait ↔ (world.threads other).isInWait = true))
    (piped : world.notifyPipe.isSome = true) :
    (world.look thread room signalPending).Seated := by
  have positive : 0 < world.waiters := by
    rw [← card]
    exact Finset.card_pos.mpr ⟨thread, isIn⟩
  unfold look
  dsimp only
  split
  · refine ⟨inWait.erase thread, ?_, ?_, ?_⟩
    · rw [Finset.card_erase_of_mem isIn, card]
      rfl
    · intro other
      dsimp only [leave, setThread]
      rw [Finset.mem_erase]
      by_cases same : other = thread
      · subst same
        rw [update_self]
        simp [PollThread.isInWait]
      · rw [update_of_ne same, ← others other same]
        exact and_iff_right same
    · dsimp only [leave, setThread]
      by_cases isLast : world.waiters - 1 = 0
      · rw [if_pos isLast, isLast]
        decide
      · rw [if_neg isLast]
        exact iff_of_true piped (Nat.pos_of_ne_zero isLast)
  · refine ⟨inWait, card, ?_, iff_of_true piped positive⟩
    intro other
    dsimp only [setThread]
    by_cases same : other = thread
    · subst same
      rw [update_self]
      exact iff_of_true isIn rfl
    · rw [update_of_ne same]
      exact others other same

/-- A thread that returns without a look leaves the right count. -/
theorem Seated.leave
    (seated : world.Seated)
    (isIn : (world.threads thread).isInWait = true) :
    (world.leave thread).Seated := by
  obtain ⟨inWait, card, members, piped⟩ := seated
  have isMember : thread ∈ inWait := (members thread).mpr isIn
  have positive : 0 < world.waiters := by
    rw [← card]
    exact Finset.card_pos.mpr ⟨thread, isMember⟩
  refine ⟨inWait.erase thread, ?_, ?_, ?_⟩
  · rw [Finset.card_erase_of_mem isMember, card]
    rfl
  · intro other
    dsimp only [PollWorld.leave, setThread]
    rw [Finset.mem_erase]
    by_cases same : other = thread
    · subst same
      rw [update_self]
      simp [PollThread.isInWait]
    · rw [update_of_ne same, members]
      exact and_iff_right same
  · dsimp only [PollWorld.leave, setThread]
    by_cases isLast : world.waiters - 1 = 0
    · rw [if_pos isLast, isLast]
      decide
    · rw [if_neg isLast]
      exact iff_of_true (piped.mpr positive) (Nat.pos_of_ne_zero isLast)

theorem Seated.piped
    (seated : world.Seated)
    (isIn : (world.threads thread).isInWait = true) :
    0 < world.waiters ∧ world.notifyPipe.isSome = true := by
  obtain ⟨inWait, card, members, piped⟩ := seated
  have positive : 0 < world.waiters := by
    rw [← card]
    exact Finset.card_pos.mpr ⟨thread, (members thread).mpr isIn⟩
  exact ⟨positive, piped.mpr positive⟩

/-- What a registering call writes. -/
def Registering (world next : PollWorld) : Prop :=
  ∃ fds freelist nextSlot nextSerial log,
    next = { world with
      fds := fds
      freelist := freelist
      nextSlot := nextSlot
      nextSerial := nextSerial
      log := log }

theorem registering_pollAddFd
    (world : PollWorld)
    (host : PollHost)
    (fd : FdId)
    (types : BitVec 32)
    (info : BitVec 64)
    (allocated : Bool)
    (hostError : Option Errno) :
    world.Registering
      (world.pollAddFd host fd types info allocated hostError).2 := by
  unfold pollAddFd
  split
  · exact ⟨_, _, _, _, _, rfl⟩
  · cases world.freelist with
    | nil | cons slot rest =>
      dsimp only
      split
      · exact ⟨_, _, _, _, _, rfl⟩
      · exact ⟨_, _, _, _, _, rfl⟩

theorem registering_pollDelFd
    (world : PollWorld)
    (host : PollHost)
    (fd : FdId)
    (hostError : Option Errno) :
    world.Registering (world.pollDelFd host fd hostError).2 := by
  unfold pollDelFd
  split
  · exact ⟨_, _, _, _, _, rfl⟩
  · split
    · exact ⟨_, _, _, _, _, rfl⟩
    · exact ⟨_, _, _, _, _, rfl⟩

theorem registering_pollModFd
    (world : PollWorld)
    (host : PollHost)
    (fd : FdId)
    (types : BitVec 32)
    (info : BitVec 64)
    (hostError : Option Errno) :
    world.Registering (world.pollModFd host fd types info hostError).2 := by
  unfold pollModFd
  split
  · exact ⟨_, _, _, _, _, rfl⟩
  · split
    · exact ⟨_, _, _, _, _, rfl⟩
    · exact ⟨_, _, _, _, _, rfl⟩

theorem Seated.registering
    (seated : world.Seated)
    (registering : world.Registering next) :
    next.Seated := by
  obtain ⟨_, _, _, _, _, same⟩ := registering
  rw [same]
  exact seated

theorem Seated.step
    {step : PollStep}
    (seated : world.Seated)
    (run : step.run host world = some next) :
    next.Seated := by
  cases makes_of_run run with
  | add =>
    exact seated.registering (registering_pollAddFd ..)
  | del =>
    exact seated.registering (registering_pollDelFd ..)
  | mod =>
    exact seated.registering (registering_pollModFd ..)
  | cleanup | change | noPipe =>
    exact seated
  | raise _ _ _ _ inPhase | beginWakeup _ _ _ inPhase
  | endWakeup _ _ _ inPhase | hostReturn _ _ _ inPhase =>
    exact seated.move rfl (by rw [inPhase]; rfl) rfl rfl
  | wakeNext _ _ _ _ _ inPhase =>
    exact seated.move rfl (by rw [inPhase]; rfl) rfl (isSome_map ..)
  | beginWait thread room _ _ pipe isOut _ fromPipe =>
    obtain ⟨inWait, card, members, piped⟩ := seated
    have notIn : thread ∉ inWait := by
      rw [members, isOut]
      decide
    have grown : (insert thread inWait).card = world.waiters + 1 := by
      rw [Finset.card_insert_of_notMem notIn, card]
    refine seated_look grown (Finset.mem_insert_self ..) ?_ ?_
    · intro other different
      rw [Finset.mem_insert, members]
      exact or_iff_right different
    · rcases fromPipe with ⟨_, rfl⟩ | ⟨positive, rfl⟩
      · rfl
      · exact piped.mpr positive
  | resume thread room result signalPending isReturned =>
    have isIn : (world.threads thread).isInWait = true := by
      rw [isReturned]
      rfl
    unfold PollWorld.resume
    split
    · exact seated.leave isIn
    · exact seated.leave isIn
    · have isPiped := (seated.piped isIn).2
      obtain ⟨inWait, card, members, piped⟩ := seated
      obtain ⟨fds, log, same, _⟩ := world.applyEvents_eq _
      rw [same]
      exact seated_look card ((members thread).mpr isIn)
        (fun other _ => members other)
        ((isSome_map ..).trans isPiped)

/-- A thread that moves to a wait with room keeps the room. -/
theorem Roomy.move
    (roomy : world.Roomy)
    (moved : next.threads = update world.threads thread phase)
    (hasRoom :
      ∀ room,
        (phase = .waiting room ∨ ∃ result, phase = .returned room result) →
        0 < room) :
    next.Roomy := by
  intro other room isIn
  rw [moved] at isIn
  by_cases same : other = thread
  · subst same
    rw [update_self] at isIn
    exact hasRoom room isIn
  · rw [update_of_ne same] at isIn
    exact roomy other room isIn

theorem Roomy.out
    (roomy : world.Roomy)
    (moved : next.threads = update world.threads thread phase)
    (isOut : phase.isInWait = false) :
    next.Roomy := by
  refine roomy.move moved ?_
  rintro room (rfl | ⟨result, rfl⟩)
  · cases isOut
  · cases isOut

theorem Roomy.look
    (roomy : world.Roomy)
    (hasRoom : 0 < room) :
    (world.look thread room signalPending).Roomy := by
  unfold PollWorld.look
  dsimp only
  split
  · exact roomy.out rfl rfl
  · refine roomy.move rfl ?_
    rintro other (same | ⟨result, same⟩)
    · cases same
      exact hasRoom
    · cases same

theorem Roomy.registering
    (roomy : world.Roomy)
    (registering : world.Registering next) :
    next.Roomy := by
  obtain ⟨_, _, _, _, _, same⟩ := registering
  rw [same]
  exact roomy

theorem Roomy.step
    {step : PollStep}
    (roomy : world.Roomy)
    (run : step.run host world = some next) :
    next.Roomy := by
  cases makes_of_run run with
  | add =>
    exact roomy.registering (registering_pollAddFd ..)
  | del =>
    exact roomy.registering (registering_pollDelFd ..)
  | mod =>
    exact roomy.registering (registering_pollModFd ..)
  | cleanup | change | noPipe =>
    exact roomy
  | raise | beginWakeup | wakeNext | endWakeup =>
    exact roomy.out rfl rfl
  | beginWait thread room _ _ _ _ hasRoom =>
    apply Roomy.look _ hasRoom
    exact roomy
  | hostReturn thread room result isWaiting =>
    refine roomy.move rfl ?_
    rintro other (same | ⟨result, same⟩)
    · cases same
    · cases same
      exact roomy thread _ (.inl isWaiting)
  | resume thread room result signalPending isReturned =>
    have hasRoom := roomy thread room (.inr ⟨result, isReturned⟩)
    unfold PollWorld.resume
    split
    · exact roomy.out rfl rfl
    · exact roomy.out rfl rfl
    · obtain ⟨fds, log, same, _⟩ := world.applyEvents_eq _
      rw [same]
      apply Roomy.look _ hasRoom
      exact roomy

/-- A thread that tells nothing moves, and nothing is less announced. -/
theorem IsAnnounced.move
    {pollFd : PollFd}
    {bit : Nat}
    (announced : world.IsAnnounced pollFd bit)
    (moved : next.threads = update world.threads thread phase)
    (keeps :
      (world.threads thread).tells pollFd bit = true →
        phase.tells pollFd bit = true) :
    next.IsAnnounced pollFd bit := by
  obtain ⟨teller, tells⟩ := announced
  refine ⟨teller, ?_⟩
  rw [moved]
  by_cases same : teller = thread
  · subst same
    rw [update_self]
    exact keeps tells
  · rw [update_of_ne same]
    exact tells

theorem tells_of_isInWait
    {pollFd : PollFd}
    {bit : Nat}
    (isIn : phase.isInWait = true ∨ phase = .out) :
    phase.tells pollFd bit = false := by
  cases phase with
  | raised fd events | waking fd events left =>
    rcases isIn with isIn | isIn <;> cases isIn
  | out => rfl
  | waiting room => rfl
  | returned room result => rfl

theorem Quiet.move
    (quiet : world.Quiet host fds)
    (moved : next.threads = update world.threads thread phase)
    (ready : next.ready = world.ready)
    (keeps :
      ∀ pollFd ∈ fds, ∀ bit,
        (world.threads thread).tells pollFd bit = true →
        phase.tells pollFd bit = true) :
    next.Quiet host fds := by
  intro pollFd isMember isEmulated isEnabled bit isReady
  rw [ready] at isReady
  exact (quiet pollFd isMember isEmulated isEnabled bit isReady).move moved
    (keeps pollFd isMember bit)

theorem Quiet.checkFds
    (quiet : world.Quiet host fds) :
    world.Quiet host (checkFds world.ready room 0 fds).1 := by
  intro pollFd isMember isEmulated isEnabled bit isReady
  obtain ⟨before, isBefore, rfl | rfl⟩ := mem_checkFds isMember
  · exact quiet _ isBefore isEmulated isEnabled bit isReady
  · exact quiet before isBefore isEmulated (Bool.or_eq_false_iff.mp isEnabled).1
      bit (PollFd.of_pollTypes_taken isReady)

/-- A look misses nothing if it leaves nothing to the other sleepers. -/
theorem noneMissed_look
    (hasRoom : 0 < room)
    (isSilent :
      (world.threads thread).isInWait = true ∨ world.threads thread = .out)
    (leaves :
      (∃ other room, other ≠ thread ∧ world.threads other = .waiting room) →
      world.notifyPipe = some 0 →
      world.Quiet host (checkFds world.ready room 0 world.fds).1) :
    (world.look thread room signalPending).NoneMissed host := by
  have keeps :
      ∀ (phase : PollThread) (pollFd : PollFd) (bit : Nat),
        (world.threads thread).tells pollFd bit = true →
        phase.tells pollFd bit = true := by
    intro phase pollFd bit tells
    rw [tells_of_isInWait isSilent] at tells
    cases tells
  unfold look
  dsimp only
  split
  case isTrue =>
    rintro ⟨⟨other, otherRoom, isWaiting⟩, isEmpty⟩
    dsimp only [leave, setThread] at isWaiting isEmpty
    have different : other ≠ thread := by
      rintro rfl
      rw [update_self] at isWaiting
      cases isWaiting
    rw [update_of_ne different] at isWaiting
    have wasEmpty : world.notifyPipe = some 0 := by
      split at isEmpty
      · cases isEmpty
      · exact isEmpty
    exact (leaves ⟨other, otherRoom, different, isWaiting⟩ wasEmpty).move
      rfl rfl fun pollFd _ bit => keeps _ pollFd bit
  case isFalse sleeps =>
    rintro _ pollFd isMember isEmulated isEnabled bit isReady
    rw [not_or, Nat.not_lt, Nat.le_zero_eq] at sleeps
    obtain ⟨same, nothing⟩ := checkFds_of_nothing hasRoom sleeps.1
    dsimp only [setThread] at isMember isReady
    rw [same] at isMember
    rcases nothing pollFd isMember with isDisabled | isNothing
    · rw [isEnabled] at isDisabled
      cases isDisabled
    · rw [isNothing, BitVec.getLsbD_zero] at isReady
      cases isReady

/-- A thread has made the file ready and has yet to call `poll_wakeup`. -/
def WillTell (world : PollWorld) (fd : FdId) (bit : Nat) : Prop :=
  ∃ thread events,
    world.threads thread = .raised fd events ∧ events.getLsbD bit = true

/--
A registration for these types misses nothing: the file is real, nobody sleeps
untold, or all its events are about to be told.
-/
def NotYetReady
    (host : PollHost)
    (world : PollWorld)
    (fd : FdId)
    (types : BitVec 32) : Prop :=
  world.SleepsUntold → host.isReal fd = false →
    ∀ bit,
      (world.ready fd &&& (types ||| pollHup ||| pollErr)).getLsbD bit = true →
      world.WillTell fd bit

/--
A file that changes to this misses nothing: it is real, nobody sleeps untold,
or what its enabled registrations ask for was ready or is about to be told.
-/
def NothingGained
    (host : PollHost)
    (world : PollWorld)
    (fd : FdId)
    (ready : BitVec 32) : Prop :=
  world.SleepsUntold → host.isReal fd = false →
    ∀ pollFd ∈ world.fds, pollFd.fd = fd → pollFd.disabled = false →
      ∀ bit,
        (pollFd.pollTypes ready).getLsbD bit = true →
        (world.ready fd).getLsbD bit = true ∨ world.WillTell fd bit

/--
What a woken thread finds is all consumed by its reports: the events that are
not announced are edge-triggered or one-shot, and there is room for all.
-/
def ConsumedBy
    (host : PollHost) (world : PollWorld) (room : Nat) : Prop :=
  ∀ pollFd ∈ world.fds,
    host.isReal pollFd.fd = false → pollFd.disabled = false →
    ∀ bit,
      (pollFd.pollTypes (world.ready pollFd.fd)).getLsbD bit = true →
      ¬world.IsAnnounced pollFd bit →
      (pollFd.isEdgeTriggered = true ∨ pollFd.isOneshot = true) ∧
        (found world.ready world.fds).length ≤ room

end PollWorld

/--
The step leaves no sleeper behind: a file is registered or changed before it
is ready, readiness comes with a `poll_wakeup`, and a thread that takes the last
byte from the pipe while another one sleeps consumes all that it finds.
-/
def PollStep.ReachesSleepers
    (host : PollHost) (world : PollWorld) : PollStep → Prop
  | add fd types _ allocated _ =>
    ¬(world.freelist = [] ∧ allocated = false) →
      world.NotYetReady host fd types
  | mod fd types _ _ =>
    (world.pollFindFd fd).isSome = true → world.NotYetReady host fd types
  | change fd ready => world.NothingGained host fd ready
  | resume thread _ =>
    ∀ room events,
      world.threads thread = .returned room (.events events) →
      (∃ other room,
        other ≠ thread ∧ world.threads other = .waiting room) →
      (world.notifyPipe = some 0 ∨ world.notifyPipe = some 1) →
        (world.applyEvents events).ConsumedBy host room
  | _ => True

namespace PollWorld

variable {host : PollHost} {world : PollWorld}

theorem WillTell.isAnnounced
    {pollFd : PollFd}
    {bit : Nat}
    (willTell : world.WillTell pollFd.fd bit) :
    world.IsAnnounced pollFd bit := by
  obtain ⟨thread, events, isRaised, tells⟩ := willTell
  refine ⟨thread, ?_⟩
  rw [isRaised, PollThread.tells, tells, Bool.and_true]
  exact decide_eq_true rfl

theorem pollTypes_of_untriggered
    {pollFd : PollFd}
    {ready : BitVec 32}
    (untriggered : pollFd.triggeredTypes = 0#32) :
    pollFd.pollTypes ready =
      ready &&& (pollFd.types ||| pollHup ||| pollErr) := by
  unfold PollFd.pollTypes
  rw [untriggered]
  split
  · rw [BitVec.not_zero, BitVec.and_allOnes]
  · rfl

variable {fd : FdId} {thread room : Nat} {next : PollWorld}
  {hostError : Option Errno} {signalPending : Bool}

theorem Registering.noneMissed
    (registering : world.Registering next)
    (quiet : world.SleepsUntold → world.Quiet host next.fds) :
    next.NoneMissed host := by
  obtain ⟨_, _, _, _, _, rfl⟩ := registering
  exact quiet

/-- A new registration of a file that is not ready misses nothing. -/
theorem noneMissed_pollAddFd
    {types : BitVec 32}
    {info : BitVec 64}
    {allocated : Bool}
    (registered : world.Registered)
    (noneMissed : world.NoneMissed host)
    (notReady :
      ¬(world.freelist = [] ∧ allocated = false) →
        world.NotYetReady host fd types) :
    (world.pollAddFd host fd types info allocated hostError).2.NoneMissed
      host := by
  refine (world.registering_pollAddFd host fd types info allocated
    hostError).noneMissed ?_
  intro sleeps
  rcases registered.pollAddFd_cases host fd types info allocated hostError with
    same | ⟨slot, rest, nextSlot, _, _, same | ⟨enough, same⟩⟩
  · rw [same]
    exact noneMissed sleeps
  · rw [same]
    exact noneMissed sleeps
  · rw [same]
    intro pollFd isMember isEmulated isEnabled bit isReady
    rcases mem_cons.mp isMember with rfl | isOld
    · rw [pollTypes_of_untriggered rfl] at isReady
      exact (notReady enough sleeps isEmulated bit isReady).isAnnounced
    · exact noneMissed sleeps pollFd isOld isEmulated isEnabled bit isReady

theorem noneMissed_pollDelFd
    (noneMissed : world.NoneMissed host) :
    (world.pollDelFd host fd hostError).2.NoneMissed host := by
  refine (world.registering_pollDelFd host fd hostError).noneMissed ?_
  intro sleeps
  unfold pollDelFd
  split
  · exact noneMissed sleeps
  · split
    · exact noneMissed sleeps
    · intro pollFd isMember
      exact noneMissed sleeps pollFd (mem_of_mem_filter isMember)

/-- A change of a file's registration before it is ready misses nothing. -/
theorem noneMissed_pollModFd
    {types : BitVec 32}
    {info : BitVec 64}
    (registered : world.Registered)
    (noneMissed : world.NoneMissed host)
    (notReady :
      (world.pollFindFd fd).isSome = true →
        world.NotYetReady host fd types) :
    (world.pollModFd host fd types info hostError).2.NoneMissed host := by
  refine (world.registering_pollModFd host fd types info
    hostError).noneMissed ?_
  intro sleeps
  unfold pollModFd
  split
  case h_1 => exact noneMissed sleeps
  case h_2 pollFd isFound =>
    split
    case isTrue => exact noneMissed sleeps
    case isFalse =>
      have isSome : (world.pollFindFd fd).isSome = true := by
        rw [isFound]
        rfl
      have sameFd : pollFd.fd = fd := by
        simpa using List.find?_some isFound
      have isMember := List.mem_of_find?_eq_some isFound
      intro other otherMember isEmulated isEnabled bit isReady
      obtain ⟨before, isBefore, rfl⟩ := List.mem_map.mp otherMember
      by_cases sameSlot : before.slot = pollFd.slot
      · rw [if_pos sameSlot] at isEmulated isReady ⊢
        have same := registered.eq_of_slot isMember isBefore sameSlot
        subst same
        rw [pollTypes_of_untriggered rfl] at isReady
        apply WillTell.isAnnounced
        dsimp only at isReady isEmulated ⊢
        rw [sameFd] at isReady isEmulated ⊢
        exact notReady isSome sleeps isEmulated bit isReady
      · rw [if_neg sameSlot] at isEmulated isEnabled isReady ⊢
        exact noneMissed sleeps before isBefore isEmulated isEnabled bit isReady

/-- A thread that consumes all it finds leaves quiet registrations. -/
theorem ConsumedBy.quiet
    (consumed : world.ConsumedBy host room) :
    world.Quiet host (checkFds world.ready room 0 world.fds).1 := by
  intro pollFd isMember isEmulated isEnabled bit isReady
  by_contra notAnnounced
  obtain ⟨before, isBefore, enough⟩ :
      ∃ before ∈ world.fds, (found world.ready world.fds).length ≤ room := by
    obtain ⟨before, isBefore, same⟩ := mem_checkFds isMember
    refine ⟨before, isBefore, ?_⟩
    rcases same with rfl | rfl
    · exact (consumed _ isBefore isEmulated isEnabled bit isReady
        notAnnounced).2
    · exact (consumed before isBefore isEmulated
        (Bool.or_eq_false_iff.mp isEnabled).1 bit
        (PollFd.of_pollTypes_taken isReady) notAnnounced).2
  have hasRoom : 0 + (found world.ready world.fds).length ≤ room := by
    rw [Nat.zero_add]
    exact enough
  obtain ⟨before, isBefore, ⟨rfl, isQuiet⟩ | rfl⟩ :=
    mem_checkFds_of_room hasRoom isMember
  · rcases isQuiet with isDisabled | nothing
    · rw [isEnabled] at isDisabled
      cases isDisabled
    · rw [nothing, BitVec.getLsbD_zero] at isReady
      cases isReady
  · obtain ⟨wasEnabled, notOneshot⟩ := Bool.or_eq_false_iff.mp isEnabled
    rcases (consumed before isBefore isEmulated wasEnabled bit
      (PollFd.of_pollTypes_taken isReady) notAnnounced).1 with isEdge | isOneshot
    · have nothing : (before.taken (before.pollTypes (world.ready before.fd))
          |>.pollTypes (world.ready before.fd)) = 0#32 :=
        PollFd.pollTypes_taken_self isEdge
      rw [show (before.taken (before.pollTypes (world.ready before.fd))).fd =
        before.fd from rfl, nothing, BitVec.getLsbD_zero] at isReady
      cases isReady
    · rw [notOneshot] at isOneshot
      cases isOneshot

/-- What holds between the steps of a run that reaches its sleepers. -/
structure Attended (host : PollHost) (world : PollWorld) : Prop where
  registered : world.Registered
  seated : world.Seated
  roomy : world.Roomy
  noneMissed : world.NoneMissed host

/-- A thread that moves sleeps where it slept, and tells what it told. -/
theorem NoneMissed.move
    {phase : PollThread}
    (noneMissed : world.NoneMissed host)
    (moved : next.threads = update world.threads thread phase)
    (isAwake : ∀ room, phase ≠ .waiting room)
    (fds : next.fds = world.fds)
    (ready : next.ready = world.ready)
    (pipe : next.notifyPipe = some 0 → world.notifyPipe = some 0)
    (keeps :
      ∀ pollFd ∈ world.fds, ∀ bit,
        (world.threads thread).tells pollFd bit = true →
        phase.tells pollFd bit = true) :
    next.NoneMissed host := by
  rintro ⟨⟨other, room, isWaiting⟩, isEmpty⟩
  rw [moved] at isWaiting
  have different : other ≠ thread := by
    rintro rfl
    rw [update_self] at isWaiting
    exact isAwake room isWaiting
  rw [update_of_ne different] at isWaiting
  rw [fds]
  exact (noneMissed ⟨⟨other, room, isWaiting⟩, pipe isEmpty⟩).move moved ready
    keeps

/-- A file that changes misses nothing if its new events are announced. -/
theorem NoneMissed.ready
    {ready : BitVec 32}
    (noneMissed : world.NoneMissed host)
    (nothingGained : world.NothingGained host fd ready) :
    NoneMissed host { world with
      ready := update world.ready fd ready } := by
  intro sleeps pollFd isMember isEmulated isEnabled bit isReady
  dsimp only at isReady
  by_cases same : pollFd.fd = fd
  · subst same
    rw [update_self] at isReady
    rcases nothingGained sleeps isEmulated pollFd isMember rfl isEnabled bit
      isReady with wasReady | willTell
    · exact noneMissed sleeps pollFd isMember isEmulated isEnabled bit
        (PollFd.pollTypes_of_ready isReady wasReady)
    · exact willTell.isAnnounced
  · rw [update_of_ne same] at isReady
    exact noneMissed sleeps pollFd isMember isEmulated isEnabled bit isReady

theorem NoneMissed.leave
    (noneMissed : world.NoneMissed host)
    (isIn : (world.threads thread).isInWait = true) :
    (world.leave thread).NoneMissed host := by
  refine noneMissed.move rfl (fun _ same => by cases same) rfl rfl ?_ ?_
  · intro isEmpty
    dsimp only [PollWorld.leave, setThread] at isEmpty
    split at isEmpty
    · cases isEmpty
    · exact isEmpty
  · intro pollFd _ bit tells
    rw [tells_of_isInWait (.inl isIn)] at tells
    cases tells

/-- A thread that enters a wait misses nothing. -/
theorem Attended.beginWait
    {signalPending : Bool}
    {pipe : Option Nat}
    (attended : world.Attended host)
    (isOut : world.threads thread = .out)
    (hasRoom : 0 < room)
    (fromPipe :
      (world.waiters = 0 ∧ pipe = some 0) ∨
        (0 < world.waiters ∧ pipe = world.notifyPipe)) :
    (look { world with
      waiters := world.waiters + 1
      notifyPipe := pipe } thread room signalPending).NoneMissed host := by
  refine noneMissed_look hasRoom (.inr isOut) ?_
  rintro ⟨other, otherRoom, _, isWaiting⟩ isEmpty
  apply Quiet.checkFds
  dsimp only at isEmpty
  subst isEmpty
  have isIn : (world.threads other).isInWait = true := by
    rw [show world.threads other = .waiting otherRoom from isWaiting]
    rfl
  rcases fromPipe with ⟨isFirst, _⟩ | ⟨_, wasEmpty⟩
  · exact absurd (attended.seated.piped isIn).1 (by omega)
  · exact attended.noneMissed ⟨⟨other, otherRoom, isWaiting⟩, wasEmpty.symm⟩

/-- A woken thread that consumes what it finds misses nothing. -/
theorem Attended.resume
    {result : HostResult}
    (attended : world.Attended host)
    (isReturned : world.threads thread = .returned room result)
    (consumes :
      ∀ events, result = .events events →
        (∃ other room,
          other ≠ thread ∧ world.threads other = .waiting room) →
        (world.notifyPipe = some 0 ∨ world.notifyPipe = some 1) →
          (world.applyEvents events).ConsumedBy host room) :
    (world.resume thread room result signalPending).NoneMissed host := by
  have isIn : (world.threads thread).isInWait = true := by
    rw [isReturned]
    rfl
  have hasRoom := attended.roomy thread room (.inr ⟨result, isReturned⟩)
  unfold PollWorld.resume
  cases result with
  | failed | timedOut => exact attended.noneMissed.leave isIn
  | events events =>
    obtain ⟨fds, log, same, _⟩ := world.applyEvents_eq events
    have consumed := consumes events rfl
    dsimp only
    rw [same] at consumed ⊢
    refine noneMissed_look hasRoom (.inl isIn) ?_
    intro others isEmpty
    apply ConsumedBy.quiet
    refine consumed others ?_
    dsimp only [drain] at isEmpty
    obtain ⟨bytes, isPipe, isLast⟩ := map_eq_some_iff.mp isEmpty
    rw [isPipe]
    have atMostOne : bytes = 0 ∨ bytes = 1 := by
      omega
    exact atMostOne.imp (congrArg some) (congrArg some)

/-- Steps that reach the sleepers miss nothing. -/
theorem Attended.noneMissed_step
    {step : PollStep}
    (attended : world.Attended host)
    (reaches : step.ReachesSleepers host world)
    (run : step.run host world = some next) :
    next.NoneMissed host := by
  cases makes_of_run run with
  | add =>
    exact noneMissed_pollAddFd attended.registered attended.noneMissed
      reaches
  | del =>
    exact noneMissed_pollDelFd attended.noneMissed
  | mod =>
    exact noneMissed_pollModFd attended.registered attended.noneMissed
      reaches
  | cleanup =>
    intro sleeps pollFd isMember
    exact attended.noneMissed sleeps pollFd (mem_of_mem_filter isMember)
  | change =>
    exact attended.noneMissed.ready reaches
  | raise thread fd gained events isOut isTold =>
    have raised :
        (world.setThread thread (.raised fd events)).NoneMissed host := by
      refine attended.noneMissed.move rfl (fun _ same => by cases same)
        rfl rfl id ?_
      intro pollFd _ bit tells
      rw [tells_of_isInWait (.inr isOut)] at tells
      cases tells
    refine raised.ready ?_
    intro _ _ pollFd _ _ _ bit isReady
    have isSet := PollFd.of_pollTypes isReady
    rw [BitVec.getLsbD_or, Bool.or_eq_true] at isSet
    refine isSet.imp id fun isGained => ?_
    refine ⟨thread, events, update_self .., ?_⟩
    have noneUntold := congrArg (fun types => types.getLsbD bit) isTold
    rw [BitVec.getLsbD_and, isGained, Bool.true_and, BitVec.getLsbD_not,
      BitVec.getLsbD_zero, Bool.and_eq_false_iff] at noneUntold
    have isSmall := BitVec.lt_of_getLsbD isGained
    simpa [isSmall] using noneUntold
  | beginWakeup thread fd events isRaised =>
    refine attended.noneMissed.move rfl (fun _ same => by cases same)
      rfl rfl id ?_
    intro pollFd isMember bit tells
    rw [isRaised, PollThread.tells, Bool.and_eq_true,
      decide_eq_true_iff] at tells
    rw [PollThread.tells, Bool.and_eq_true, decide_eq_true_iff]
    refine ⟨List.mem_map_of_mem ?_, tells.2⟩
    exact mem_filter.mpr ⟨isMember, decide_eq_true tells.1.symm⟩
  | wakeNext =>
    rintro ⟨⟨other, room, isWaiting⟩, isEmpty⟩
    dsimp only [wakeSlot, setThread] at isWaiting isEmpty
    obtain ⟨bytes, _, isZero⟩ := map_eq_some_iff.mp isEmpty
    have written : 0 < if bytes < host.pipeSize then bytes + 1 else bytes := by
      split
      · exact Nat.succ_pos _
      · exact Nat.lt_of_lt_of_le host.pipeHolds (Nat.le_of_not_lt ‹_›)
    rw [isZero] at written
    exact (Nat.lt_irrefl _ written).elim
  | endWakeup thread fd events isWaking =>
    refine attended.noneMissed.move rfl (fun _ same => by cases same)
      rfl rfl id ?_
    intro pollFd _ bit tells
    rw [isWaking] at tells
    simp [PollThread.tells] at tells
  | noPipe =>
    exact attended.noneMissed
  | beginWait thread room _ _ pipe isOut hasRoom fromPipe =>
    exact attended.beginWait isOut hasRoom fromPipe
  | hostReturn thread room result isWaiting =>
    refine attended.noneMissed.move rfl (fun _ same => by cases same)
      rfl rfl id ?_
    intro pollFd _ bit tells
    rw [isWaiting] at tells
    cases tells
  | resume thread room result signalPending isReturned =>
    refine attended.resume isReturned ?_
    rintro events rfl
    exact reaches room events isReturned

end PollWorld

/-- The steps of a run that reaches its sleepers. -/
def attendedMachine (host : PollHost) : Machine PollWorld PollStep :=
  (pollMachine host).restrict fun world step =>
    step.ReachesSleepers host world

namespace PollWorld

variable {host : PollHost} {world : PollWorld}

/-- Every run that reaches its sleepers keeps them attended. -/
theorem attended_of_reachable
    (reachable : (attendedMachine host).Reachable world) :
    world.Attended host := by
  refine Machine.Reachable.invariant
    (motive := fun world => world.Attended host) ?_ ?_ reachable
  · rintro world ⟨noFds, noFree, noPipe, noWaiters, _, _, allOut⟩
    constructor
    case registered =>
      constructor
      case slots => simp [noFds, noFree]
      case slotsOld => simp [noFds, noFree]
      case serials => simp [noFds]
      case serialsOld => simp [noFds]
    case seated =>
      refine ⟨∅, noWaiters.symm, ?_, by simp [noPipe, noWaiters]⟩
      intro thread
      rw [allOut]
      exact iff_of_false (Finset.notMem_empty _) (fun isIn => nomatch isIn)
    case roomy =>
      rintro thread room (isIn | ⟨result, isIn⟩)
      · rw [allOut] at isIn
        cases isIn
      · rw [allOut] at isIn
        cases isIn
    case noneMissed =>
      rintro ⟨_, isEmpty⟩
      rw [noPipe] at isEmpty
      cases isEmpty
  · rintro before step after attended ⟨reaches, run⟩
    exact ⟨attended.registered.step run, attended.seated.step run,
      attended.roomy.step run, attended.noneMissed_step reaches run⟩

/--
In a run whose steps reach the sleepers, a thread that sleeps with an empty
pipe misses no event: of every enabled registration of an emulated file, every
event of its types is announced by a wakeup under way or was reported
edge-triggered.
-/
theorem sleepers_miss_nothing
    (reachable : (attendedMachine host).Reachable world) :
    world.NoneMissed host :=
  (attended_of_reachable reachable).noneMissed

/-- A host without real files. -/
def emulatedHost : PollHost where
  isReal _ := false
  pipeSize := 65536
  pipeHolds := by decide

/-- A fresh poll object, and one file with input. -/
def withInput (fd : FdId) : PollWorld where
  fds := []
  freelist := []
  nextSlot := 0
  nextSerial := 0
  notifyPipe := none
  waiters := 0
  ready := update (fun _ => 0#32) fd 1#32
  fdOwner _ := none
  threads _ := .out
  log := []

/-- Input and an edge-triggered registration for it. -/
def edgeTypes : BitVec 32 := 0x80000001#32

/--
One of two sleepers gets the byte and reports the event edge-triggered; the
other sleeps on, and misses nothing.
-/
theorem second_sleeper_misses_nothing :
    ∃ world,
      (attendedMachine emulatedHost).Reachable world ∧
        world.SleepsUntold ∧ world.NoneMissed emulatedHost := by
  have fresh : (attendedMachine emulatedHost).Reachable (withInput 8) :=
    .initial ⟨rfl, rfl, rfl, rfl, rfl, fun _ => rfl, fun _ => rfl⟩
  have added :=
    fresh.step (a := PollStep.add 7 edgeTypes 0#64 true none)
      ⟨fun _ sleeps => (nomatch sleeps.2), rfl⟩
  have first :=
    added.step (a := PollStep.beginWait 1 1 true false) ⟨trivial, rfl⟩
  have second :=
    first.step (a := PollStep.beginWait 2 1 true false) ⟨trivial, rfl⟩
  have raised := second.step (a := PollStep.raise 3 7 1#32 1#32) ⟨trivial, rfl⟩
  have begun := raised.step (a := PollStep.beginWakeup 3) ⟨trivial, rfl⟩
  have told := begun.step (a := PollStep.wakeNext 3) ⟨trivial, rfl⟩
  have returned :=
    told.step (a := PollStep.hostReturn 1 (.events [⟨none, 1#32⟩])) ⟨trivial, rfl⟩
  have resumed := returned.step (a := PollStep.resume 1 false) ⟨?_, rfl⟩
  · exact ⟨_, resumed, ⟨⟨2, 1, rfl⟩, rfl⟩, sleepers_miss_nothing resumed⟩
  · intro room events isReturned _ _ pollFd isMember _ _ _ _ _
    cases isReturned
    rw [mem_singleton.mp isMember]
    exact ⟨.inl (by decide), by decide⟩

/--
A thread sleeps on a poll object; an emulated file that has input is registered
for input; nobody wakes the thread.
-/
theorem late_registration_is_missed :
    ∃ world,
      (pollMachine emulatedHost).Reachable world ∧
        world.SleepsUntold ∧ ¬world.NoneMissed emulatedHost := by
  have fresh : (pollMachine emulatedHost).Reachable (withInput 7) :=
    .initial ⟨rfl, rfl, rfl, rfl, rfl, fun _ => rfl, fun _ => rfl⟩
  have waiting := fresh.step (a := PollStep.beginWait 1 1 true false) rfl
  have added := waiting.step (a := PollStep.add 7 1#32 0#64 true none) rfl
  refine ⟨_, added, ⟨⟨1, 1, rfl⟩, rfl⟩, ?_⟩
  intro noneMissed
  obtain ⟨thread, tells⟩ :=
    noneMissed ⟨⟨1, 1, rfl⟩, rfl⟩ _ mem_cons_self rfl rfl 0 (by decide)
  rcases thread with _ | _ | thread
  · cases tells
  · cases tells
  · cases tells

end PollWorld

end GuestKernel
