import GuestKernel.History
import GuestKernel.PollWakeups

namespace GuestKernel
open List

/-!
# What waits report

The bits of a registration say what its history says: it is disabled since a
one-shot report that no later call armed it after, and an event is triggered
since an edge-triggered report that nothing covered after.  So reports follow
arms, wakeups and notifications of the host.

The exception is a host event whose registration was deleted, and its slot
used again, between the return from the host and the lock: it clears bits of
a registration that it did not come for.
-/

namespace PollNote

/-- The registration that the note is about. -/
def serial : PollNote → Nat
  | armed serial => serial
  | reported serial _ _ => serial
  | told serial _ => serial
  | notified serial _ => serial

/-- An `EPOLL_CTL_ADD` or `EPOLL_CTL_MOD` of the registration. -/
def arms (subject : Nat) (note : PollNote) : Bool :=
  match note with
  | armed serial => serial = subject
  | _ => false

/-- A report of the registration as a one-shot one. -/
def disarms (subject : Nat) (note : PollNote) : Bool :=
  match note with
  | reported serial _ types =>
    serial = subject && types &&& pollOneshot != 0#32
  | _ => false

/-- An arm of the registration, or a wakeup or notification of the event. -/
def covers (subject bit : Nat) (note : PollNote) : Bool :=
  match note with
  | armed serial => serial = subject
  | told serial events => serial = subject && events.getLsbD bit
  | notified serial events => serial = subject && events.getLsbD bit
  | reported _ _ _ => false

/-- An edge-triggered report of the event. -/
def shows (subject bit : Nat) (note : PollNote) : Bool :=
  match note with
  | reported serial events types =>
    serial = subject && types &&& pollEdgetriggered != 0#32 &&
      events.getLsbD bit
  | _ => false

end PollNote

/-- A one-shot report came after the last arm. -/
def isDisarmed (subject : Nat) (log : List PollNote) : Bool :=
  since (PollNote.disarms subject) (PollNote.arms subject) log

/-- An edge-triggered report of the event came after all that covers it. -/
def isShown (subject bit : Nat) (log : List PollNote) : Bool :=
  since (PollNote.shows subject bit) (PollNote.covers subject bit) log

variable {newer older : List PollNote}

theorem isDisarmed_append
    {subject : Nat}
    (others : ∀ note ∈ newer, note.serial ≠ subject) :
    isDisarmed subject (newer ++ older) = isDisarmed subject older := by
  refine since_append_of_silent ?_
  intro note isNewer
  have other := others note isNewer
  cases note <;>
    simp_all [PollNote.serial, PollNote.disarms, PollNote.arms]

theorem isShown_append
    {subject bit : Nat}
    (others : ∀ note ∈ newer, note.serial ≠ subject) :
    isShown subject bit (newer ++ older) = isShown subject bit older := by
  refine since_append_of_silent ?_
  intro note isNewer
  have other := others note isNewer
  cases note <;>
    simp_all [PollNote.serial, PollNote.shows, PollNote.covers]

/-- The bits of a registration are what its history says. -/
structure PollFd.Agrees (pollFd : PollFd) (log : List PollNote) : Prop where
  disabled : pollFd.disabled = isDisarmed pollFd.serial log
  triggered :
    ∀ bit,
      pollFd.triggeredTypes.getLsbD bit = isShown pollFd.serial bit log
  level : pollFd.isEdgeTriggered = false → pollFd.triggeredTypes = 0#32

/-- Every report is of an armed registration, and of nothing shown already. -/
def IsFair : List PollNote → Prop
  | [] => True
  | .reported serial events _ :: older =>
    (isDisarmed serial older = false ∧
      ∀ bit, events.getLsbD bit = true →
        isShown serial bit older = false) ∧
      IsFair older
  | _ :: older => IsFair older

namespace PollFd

variable {pollFd : PollFd} {log : List PollNote}

theorem Agrees.append
    {newer : List PollNote}
    (agrees : pollFd.Agrees log)
    (others : ∀ note ∈ newer, note.serial ≠ pollFd.serial) :
    pollFd.Agrees (newer ++ log) := by
  constructor
  case disabled => rw [isDisarmed_append others, agrees.disabled]
  case triggered =>
    intro bit
    rw [isShown_append others, agrees.triggered]
  case level => exact agrees.level

theorem Agrees.cons
    {note : PollNote}
    (agrees : pollFd.Agrees log)
    (other : note.serial ≠ pollFd.serial) :
    pollFd.Agrees (note :: log) := by
  show pollFd.Agrees ([note] ++ log)
  refine agrees.append ?_
  intro same isNote
  rw [mem_singleton.mp isNote]
  exact other

theorem agrees_of_armed
    (disabled : pollFd.disabled = false)
    (triggered : pollFd.triggeredTypes = 0#32) :
    pollFd.Agrees (.armed pollFd.serial :: log) := by
  constructor
  case disabled =>
    simp [disabled, isDisarmed, since, PollNote.disarms, PollNote.arms]
  case triggered =>
    intro bit
    simp [triggered, isShown, since, PollNote.shows, PollNote.covers]
  case level => exact fun _ => triggered

variable {events : BitVec 32}

theorem Agrees.taken
    (agrees : pollFd.Agrees log) :
    (pollFd.taken events).Agrees
      (.reported pollFd.serial events pollFd.types :: log) := by
  constructor
  case disabled =>
    show (pollFd.disabled || pollFd.isOneshot) = _
    simp only [isDisarmed, since, PollNote.disarms, PollNote.arms,
      PollFd.taken, decide_true, Bool.true_and, Bool.not_false]
    rw [agrees.disabled, Bool.or_comm]
    rfl
  case triggered =>
    intro bit
    have shown :
        isShown pollFd.serial bit
            (.reported pollFd.serial events pollFd.types :: log) =
          ((pollFd.isEdgeTriggered && events.getLsbD bit) ||
            isShown pollFd.serial bit log) := by
      simp only [isShown, since, PollNote.shows, PollNote.covers, decide_true,
        Bool.true_and, Bool.not_false]
      rfl
    show BitVec.getLsbD (if pollFd.isEdgeTriggered = true then _ else _) bit = _
    rw [show (pollFd.taken events).serial = pollFd.serial from rfl, shown,
      ← agrees.triggered]
    by_cases isEdge : pollFd.isEdgeTriggered = true
    · rw [if_pos isEdge, isEdge, BitVec.getLsbD_or, Bool.true_and,
        Bool.or_comm]
    · rw [if_neg isEdge]
      rw [Bool.not_eq_true] at isEdge
      rw [isEdge, Bool.false_and, Bool.false_or]
  case level =>
    intro isLevel
    show (if pollFd.isEdgeTriggered = true then _ else _) = _
    rw [if_neg (by rw [show pollFd.isEdgeTriggered = false from isLevel]; decide)]
    exact agrees.level isLevel

/-- Cleared events leave the agreement if a note says that they are. -/
theorem Agrees.untrigger
    {note : PollNote}
    (agrees : pollFd.Agrees log)
    (clears :
      note = .told pollFd.serial events ∨
        note = .notified pollFd.serial events) :
    (pollFd.untrigger events).Agrees (note :: log) := by
  have sameSerial : (pollFd.untrigger events).serial = pollFd.serial :=
    (PollWorld.keep_untrigger pollFd events).2
  have disarmed :
      isDisarmed pollFd.serial (note :: log) =
        isDisarmed pollFd.serial log := by
    rcases clears with rfl | rfl <;>
      simp [isDisarmed, since, PollNote.disarms, PollNote.arms]
  have shown :
      ∀ bit,
        isShown pollFd.serial bit (note :: log) =
          (!events.getLsbD bit && isShown pollFd.serial bit log) := by
    intro bit
    rcases clears with rfl | rfl <;>
      simp [isShown, since, PollNote.shows, PollNote.covers]
  by_cases isEdge : pollFd.isEdgeTriggered = true
  · constructor
    case disabled =>
      rw [sameSerial, disarmed, ← agrees.disabled, PollFd.untrigger,
        if_pos isEdge]
    case triggered =>
      intro bit
      rw [sameSerial, shown, ← agrees.triggered, PollFd.untrigger,
        if_pos isEdge]
      show (pollFd.triggeredTypes &&& ~~~events).getLsbD bit = _
      by_cases isSmall : bit < 32
      · simp [isSmall, Bool.and_comm]
      · rw [BitVec.getLsbD_of_ge _ _ (Nat.le_of_not_lt isSmall),
          BitVec.getLsbD_of_ge pollFd.triggeredTypes _
            (Nat.le_of_not_lt isSmall), Bool.and_false]
    case level =>
      intro isLevel
      rw [PollFd.untrigger, if_pos isEdge] at isLevel
      rw [show pollFd.isEdgeTriggered = false from isLevel] at isEdge
      cases isEdge
  · have unchanged : pollFd.untrigger events = pollFd := by
      rw [PollFd.untrigger, if_neg isEdge]
    have none := agrees.level (Bool.not_eq_true _ ▸ isEdge)
    rw [unchanged]
    constructor
    case disabled => rw [disarmed, agrees.disabled]
    case triggered =>
      intro bit
      rw [shown, ← agrees.triggered, none]
      simp
    case level => exact agrees.level

theorem Agrees.not_shown
    {ready : BitVec 32}
    {bit : Nat}
    (agrees : pollFd.Agrees log)
    (isReady : (pollFd.pollTypes ready).getLsbD bit = true) :
    isShown pollFd.serial bit log = false := by
  rw [← agrees.triggered]
  by_cases isEdge : pollFd.isEdgeTriggered = true
  · rw [pollTypes, if_pos isEdge, BitVec.getLsbD_and, BitVec.getLsbD_not,
      Bool.and_eq_true, Bool.and_eq_true, Bool.not_eq_true'] at isReady
    exact isReady.2.2
  · rw [agrees.level (Bool.not_eq_true _ ▸ isEdge), BitVec.getLsbD_zero]

/-- An event that is registered for, ready and not shown is seen. -/
theorem Agrees.seen
    {ready : BitVec 32}
    {bit : Nat}
    (agrees : pollFd.Agrees log)
    (isReady :
      (ready &&& (pollFd.types ||| pollHup ||| pollErr)).getLsbD bit = true)
    (notShown : isShown pollFd.serial bit log = false) :
    (pollFd.pollTypes ready).getLsbD bit = true := by
  unfold pollTypes
  dsimp only
  split
  · have isSmall := BitVec.lt_of_getLsbD isReady
    rw [BitVec.getLsbD_and, isReady, BitVec.getLsbD_not, agrees.triggered,
      notShown]
    simp [isSmall]
  · exact isReady

end PollFd

namespace PollWorld

variable {ready : FdId → BitVec 32} {room count : Nat}
  {fds before after : List PollFd}

/-- The loop reports registrations of its list. -/
theorem serial_of_mem_checkFds
    {note : PollNote}
    (isReport : note ∈ (checkFds ready room count fds).2.1) :
    ∃ pollFd ∈ fds, note.serial = pollFd.serial := by
  induction fds generalizing count with
  | nil =>
    cases isReport
  | cons first rest inductionHypothesis =>
    unfold checkFds at isReport
    dsimp only at isReport
    split at isReport
    · obtain ⟨pollFd, isMember, same⟩ := inductionHypothesis isReport
      exact ⟨pollFd, mem_cons_of_mem _ isMember, same⟩
    · rcases mem_append.mp isReport with isLater | isFirst
      · obtain ⟨pollFd, isMember, same⟩ := inductionHypothesis isLater
        exact ⟨pollFd, mem_cons_of_mem _ isMember, same⟩
      · rw [mem_singleton.mp isFirst]
        exact ⟨first, mem_cons_self, rfl⟩

theorem serial_ne_of_mem_checkFds
    {first : PollFd}
    {rest : List PollFd}
    {note : PollNote}
    (serials : ((first :: rest).map PollFd.serial).Nodup)
    (isReport : note ∈ (checkFds ready room count rest).2.1) :
    note.serial ≠ first.serial := by
  intro same
  obtain ⟨other, isOther, sameOther⟩ := serial_of_mem_checkFds isReport
  refine (nodup_cons.mp serials).1 ?_
  rw [← same, sameOther]
  exact List.mem_map_of_mem isOther

/-- The loop keeps the agreement and reports fairly. -/
theorem agrees_checkFds
    {log : List PollNote}
    (serials : (fds.map PollFd.serial).Nodup)
    (agrees : ∀ pollFd ∈ fds, pollFd.Agrees log)
    (fair : IsFair log) :
    (∀ pollFd ∈ (checkFds ready room count fds).1,
      pollFd.Agrees ((checkFds ready room count fds).2.1 ++ log)) ∧
    IsFair ((checkFds ready room count fds).2.1 ++ log) := by
  induction fds generalizing count log with
  | nil =>
    exact ⟨fun _ isMember => (nomatch isMember), fair⟩
  | cons first rest inductionHypothesis =>
    obtain ⟨firstAgrees, restAgree⟩ := forall_mem_cons.mp agrees
    obtain ⟨notLater, restSerials⟩ := nodup_cons.mp serials
    unfold checkFds
    dsimp only
    split
    case isTrue =>
      obtain ⟨later, fairLater⟩ :=
        @inductionHypothesis count log restSerials restAgree fair
      refine ⟨forall_mem_cons.mpr ⟨?_, later⟩, fairLater⟩
      exact firstAgrees.append fun note isReport =>
        serial_ne_of_mem_checkFds serials isReport
    case isFalse reports =>
      rw [not_or, not_or, Bool.not_eq_true] at reports
      have restKept :
          ∀ pollFd ∈ rest,
            pollFd.Agrees
              (.reported first.serial (first.pollTypes (ready first.fd))
                first.types :: log) := by
        intro pollFd isMember
        refine (restAgree pollFd isMember).cons ?_
        intro same
        refine notLater ?_
        rw [show first.serial = pollFd.serial from same]
        exact List.mem_map_of_mem isMember
      have fairFirst :
          IsFair
            (.reported first.serial (first.pollTypes (ready first.fd))
              first.types :: log) :=
        ⟨⟨by rw [← firstAgrees.disabled]; exact reports.1,
          fun bit isReady => firstAgrees.not_shown isReady⟩, fair⟩
      obtain ⟨later, fairLater⟩ :=
        @inductionHypothesis (count + 1) _ restSerials restKept fairFirst
      rw [append_assoc]
      refine ⟨forall_mem_cons.mpr ⟨?_, later⟩, fairLater⟩
      exact firstAgrees.taken.append fun note isReport =>
        serial_ne_of_mem_checkFds serials isReport

/-- A registration with room before it is reported if it has anything. -/
theorem reported_of_room
    {pollFd : PollFd}
    (hasRoom : (checkFds ready room count before).2.2 < room)
    (isEnabled : pollFd.disabled = false)
    (isReady : pollFd.pollTypes (ready pollFd.fd) ≠ 0#32) :
    .reported pollFd.serial (pollFd.pollTypes (ready pollFd.fd))
        pollFd.types ∈
      (checkFds ready room count (before ++ pollFd :: after)).2.1 := by
  induction before generalizing count with
  | nil =>
    have reports :
        ¬(pollFd.disabled = true ∨
          pollFd.pollTypes (ready pollFd.fd) = 0#32 ∨ room ≤ count) := by
      rw [not_or, not_or, isEnabled]
      exact ⟨by decide, isReady, Nat.not_le_of_lt hasRoom⟩
    rw [nil_append, checkFds]
    dsimp only
    rw [if_neg reports]
    exact mem_append_right _ mem_cons_self
  | cons first rest inductionHypothesis =>
    unfold checkFds at hasRoom
    rw [cons_append, checkFds]
    dsimp only at hasRoom ⊢
    split at hasRoom
    case isTrue skips =>
      rw [if_pos skips]
      exact inductionHypothesis hasRoom
    case isFalse reports =>
      rw [if_neg reports]
      exact mem_append_left _ (inductionHypothesis hasRoom)

/-- A registration without room before it stays as it is. -/
theorem unchanged_of_full
    {pollFd : PollFd}
    (isFull : room ≤ (checkFds ready room count before).2.2)
    (serials : ((before ++ pollFd :: after).map PollFd.serial).Nodup) :
    pollFd ∈ (checkFds ready room count (before ++ pollFd :: after)).1 ∧
      ∀ note ∈ (checkFds ready room count (before ++ pollFd :: after)).2.1,
        note.serial ≠ pollFd.serial := by
  induction before generalizing count with
  | nil =>
    rw [nil_append, checkFds]
    dsimp only
    rw [if_pos (.inr (.inr isFull))]
    exact ⟨mem_cons_self, fun note isReport =>
      serial_ne_of_mem_checkFds serials isReport⟩
  | cons first rest inductionHypothesis =>
    have restSerials := (nodup_cons.mp serials).2
    unfold checkFds at isFull
    rw [cons_append, checkFds]
    dsimp only at isFull ⊢
    split at isFull
    case isTrue skips =>
      obtain ⟨stays, others⟩ := inductionHypothesis isFull restSerials
      rw [if_pos skips]
      exact ⟨mem_cons_of_mem _ stays, others⟩
    case isFalse reports =>
      obtain ⟨stays, others⟩ := inductionHypothesis isFull restSerials
      rw [if_neg reports]
      refine ⟨mem_cons_of_mem _ stays, ?_⟩
      intro note isReport
      rcases mem_append.mp isReport with isLater | isFirst
      · exact others note isLater
      · rw [mem_singleton.mp isFirst]
        rintro same
        refine (nodup_cons.mp serials).1 ?_
        rw [show first.serial = pollFd.serial from same]
        exact List.mem_map_of_mem
          (mem_append_right _ mem_cons_self)

end PollWorld

/--
The host event clears nothing of a registration that it did not come for: where
its slot was used again, the new registration has none of the events triggered.
-/
def HostEvent.IsCurrent (event : HostEvent) (fds : List PollFd) : Prop :=
  ∀ slot serial, event.source = some (slot, serial) →
    ∀ pollFd ∈ fds, pollFd.slot = slot → pollFd.serial ≠ serial →
    pollFd.isEdgeTriggered = true →
    pollFd.triggeredTypes &&& event.events = 0#32

/-- The host events that a thread applies are current. -/
def PollStep.AppliesCurrent (world : PollWorld) : PollStep → Prop
  | resume thread _ =>
    ∀ room events,
      world.threads thread = .returned room (.events events) →
      ∀ event ∈ events, event.IsCurrent world.fds
  | _ => True

namespace PollWorld

variable {host : PollHost} {world : PollWorld}

/-- The registration an event came for is in its slot, if it is still there. -/
def Finds (world : PollWorld) (event : HostEvent) : Prop :=
  ∀ slot serial, event.source = some (slot, serial) →
    serial < world.nextSerial ∧
      ∀ pollFd ∈ world.fds, pollFd.serial = serial → pollFd.slot = slot

/-- Registrations agree with a fair history. -/
structure Recorded (world : PollWorld) : Prop where
  agrees : ∀ pollFd ∈ world.fds, pollFd.Agrees world.log
  fair : IsFair world.log
  old : ∀ note ∈ world.log, note.serial < world.nextSerial

/-- The events in the hands of the threads find their registrations. -/
def Sourced (world : PollWorld) : Prop :=
  ∀ thread room events,
    world.threads thread = .returned room (.events events) →
    ∀ event ∈ events, world.Finds event

variable {next : PollWorld} {pollFd : PollFd} {event : HostEvent}
  {events : BitVec 32} {thread : Nat} {signalPending : Bool}

/-- An event finds its registration in a world with the same or fewer. -/
theorem Finds.of_fewer
    (finds : world.Finds event)
    (nextSerial : world.nextSerial ≤ next.nextSerial)
    (fewer :
      ∀ pollFd ∈ next.fds,
        world.nextSerial ≤ pollFd.serial ∨
          ∃ before ∈ world.fds,
            before.serial = pollFd.serial ∧ before.slot = pollFd.slot) :
    next.Finds event := by
  intro slot serial isSource
  obtain ⟨isOld, inSlot⟩ := finds slot serial isSource
  refine ⟨Nat.lt_of_lt_of_le isOld nextSerial, ?_⟩
  intro pollFd isMember sameSerial
  rcases fewer pollFd isMember with isNew | ⟨before, isBefore, serials, slots⟩
  · rw [sameSerial] at isNew
    exact (Nat.not_le_of_lt isOld isNew).elim
  · rw [← slots]
    exact inSlot before isBefore (serials.trans sameSerial)

/-- Lists with the same slots and serial numbers have the same pairs. -/
theorem exists_of_map_eq
    {fds others : List PollFd}
    (slots : others.map PollFd.slot = fds.map PollFd.slot)
    (serials : others.map PollFd.serial = fds.map PollFd.serial)
    (isMember : pollFd ∈ others) :
    ∃ before ∈ fds,
      before.serial = pollFd.serial ∧ before.slot = pollFd.slot := by
  induction others generalizing fds with
  | nil =>
    cases isMember
  | cons first rest inductionHypothesis =>
    cases fds with
    | nil =>
      cases slots
    | cons before older =>
      obtain ⟨sameSlot, restSlots⟩ := List.cons.inj slots
      obtain ⟨sameSerial, restSerials⟩ := List.cons.inj serials
      rcases mem_cons.mp isMember with rfl | isLater
      · exact ⟨before, mem_cons_self, sameSerial.symm,
          sameSlot.symm⟩
      · obtain ⟨found, isFound, same⟩ :=
          inductionHypothesis restSlots restSerials isLater
        exact ⟨found, mem_cons_of_mem _ isFound, same⟩

theorem Registered.eq_of_serial
    {other : PollFd}
    (registered : world.Registered)
    (isMember : pollFd ∈ world.fds)
    (otherMember : other ∈ world.fds)
    (sameSerial : other.serial = pollFd.serial) :
    other = pollFd :=
  inj_on_of_nodup_map registered.serials otherMember isMember sameSerial

/-- Fewer registrations agree with the same history. -/
theorem Recorded.of_fewer
    (recorded : world.Recorded)
    (fewer : ∀ pollFd ∈ next.fds, pollFd ∈ world.fds)
    (log : next.log = world.log)
    (nextSerial : next.nextSerial = world.nextSerial) :
    next.Recorded := by
  constructor
  case agrees =>
    intro pollFd isMember
    rw [log]
    exact recorded.agrees pollFd (fewer pollFd isMember)
  case fair =>
    rw [log]
    exact recorded.fair
  case old =>
    rw [log, nextSerial]
    exact recorded.old

section

variable
  (recorded : world.Recorded)
  (registered : world.Registered)
include recorded registered

/-- A new registration is armed. -/
theorem Recorded.added
    {freelist : List Nat}
    {nextSlot : Nat}
    (isNew : pollFd.serial = world.nextSerial)
    (disabled : pollFd.disabled = false)
    (triggered : pollFd.triggeredTypes = 0#32) :
    (world.added pollFd freelist nextSlot).Recorded := by
  constructor
  case agrees =>
    refine forall_mem_cons.mpr
      ⟨PollFd.agrees_of_armed disabled triggered, ?_⟩
    intro other isOld
    refine (recorded.agrees other isOld).cons ?_
    show pollFd.serial ≠ other.serial
    rw [isNew]
    exact Nat.ne_of_gt (registered.serialsOld _ (List.mem_map_of_mem isOld))
  case fair => exact recorded.fair
  case old =>
    refine forall_mem_cons.mpr ⟨?_, ?_⟩
    · show pollFd.serial < world.nextSerial + 1
      rw [isNew]
      exact Nat.lt_succ_self _
    · exact fun note isOld => Nat.lt_succ_of_lt (recorded.old note isOld)

/-- A change that arms a registration and is noted. -/
theorem Recorded.pollModFd
    {fd : FdId}
    {types : BitVec 32}
    {info : BitVec 64}
    {hostError : Option Errno} :
    (world.pollModFd host fd types info hostError).2.Recorded := by
  unfold PollWorld.pollModFd
  split
  case h_1 => exact recorded
  case h_2 pollFd isFound =>
    split
    case isTrue => exact recorded
    case isFalse =>
      have isMember := List.mem_of_find?_eq_some isFound
      constructor
      case agrees =>
        intro other otherMember
        obtain ⟨before, isBefore, rfl⟩ := List.mem_map.mp otherMember
        by_cases sameSlot : before.slot = pollFd.slot
        · rw [if_pos sameSlot, registered.eq_of_slot isMember isBefore sameSlot]
          exact PollFd.agrees_of_armed rfl rfl
        · rw [if_neg sameSlot]
          refine (recorded.agrees before isBefore).cons ?_
          intro same
          rw [registered.eq_of_serial isMember isBefore same.symm] at sameSlot
          exact sameSlot rfl
      case fair => exact recorded.fair
      case old =>
        refine forall_mem_cons.mpr ⟨?_, recorded.old⟩
        exact registered.serialsOld _ (List.mem_map_of_mem isMember)

/-- Clearing events of one slot agrees with a note about its registration. -/
theorem Recorded.untrigger
    {note : PollNote}
    (isMember : pollFd ∈ world.fds)
    (clears :
      note = .told pollFd.serial events ∨
        note = .notified pollFd.serial events) :
    ((world.modifySlot pollFd.slot fun pollFd =>
      pollFd.untrigger events).note note).Recorded := by
  have subject : note.serial = pollFd.serial := by
    rcases clears with rfl | rfl <;> rfl
  constructor
  case agrees =>
    intro other otherMember
    obtain ⟨before, isBefore, rfl⟩ := List.mem_map.mp otherMember
    by_cases sameSlot : before.slot = pollFd.slot
    · rw [if_pos sameSlot]
      have same := registered.eq_of_slot isMember isBefore sameSlot
      subst same
      exact (recorded.agrees before isBefore).untrigger clears
    · rw [if_neg sameSlot]
      refine (recorded.agrees before isBefore).cons ?_
      intro same
      rw [subject] at same
      rw [registered.eq_of_serial isMember isBefore same.symm] at sameSlot
      exact sameSlot rfl
  case fair =>
    rcases clears with rfl | rfl
    · exact recorded.fair
    · exact recorded.fair
  case old =>
    refine forall_mem_cons.mpr ⟨?_, recorded.old⟩
    rw [subject]
    exact registered.serialsOld _ (List.mem_map_of_mem isMember)

end

/-- A write to a slot that nobody has writes nothing. -/
theorem modifySlot_of_free
    {slot : Nat}
    {change : PollFd → PollFd}
    (isFree : ∀ pollFd ∈ world.fds, pollFd.slot ≠ slot) :
    world.modifySlot slot change = world := by
  unfold modifySlot
  have same :
      (world.fds.map fun pollFd =>
        if pollFd.slot = slot then change pollFd else pollFd) = world.fds := by
    conv_rhs => rw [← List.map_id world.fds]
    refine map_congr_left ?_
    intro pollFd isMember
    rw [if_neg (isFree pollFd isMember)]
    rfl
  rw [same]

/-- One round of a wakeup is noted. -/
theorem Recorded.wakeSlot
    {slot : Nat}
    (recorded : world.Recorded)
    (registered : world.Registered) :
    (world.wakeSlot host slot events).Recorded := by
  by_cases isUsed : ∃ pollFd ∈ world.fds, pollFd.slot = slot
  · obtain ⟨pollFd, isMember, rfl⟩ := isUsed
    have told := recorded.untrigger registered isMember
      (.inl (rfl : PollNote.told pollFd.serial events = _))
    unfold PollWorld.wakeSlot
    rw [registered.filter_slot isMember]
    exact ⟨told.agrees, told.fair, told.old⟩
  · have isFree : ∀ pollFd ∈ world.fds, pollFd.slot ≠ slot := by
      intro pollFd isMember same
      exact isUsed ⟨pollFd, isMember, same⟩
    have nobody :
        (world.fds.filter fun pollFd => pollFd.slot = slot) = [] := by
      rw [filter_eq_nil_iff]
      intro pollFd isMember
      simpa using isFree pollFd isMember
    unfold PollWorld.wakeSlot
    rw [nobody, modifySlot_of_free isFree]
    exact ⟨recorded.agrees, recorded.fair, recorded.old⟩

theorem Recorded.look
    {room : Nat}
    (recorded : world.Recorded)
    (registered : world.Registered) :
    (world.look thread room signalPending).Recorded := by
  obtain ⟨agrees, fair⟩ :=
    @agrees_checkFds world.ready room 0 _ _ registered.serials recorded.agrees
      recorded.fair
  have looked :
      Recorded { world with
        fds := (checkFds world.ready room 0 world.fds).1
        log := (checkFds world.ready room 0 world.fds).2.1 ++ world.log } := by
    refine ⟨agrees, fair, ?_⟩
    intro note isNote
    rcases mem_append.mp isNote with isNew | isOld
    · obtain ⟨pollFd, isMember, same⟩ := serial_of_mem_checkFds isNew
      rw [same]
      exact registered.serialsOld _ (List.mem_map_of_mem isMember)
    · exact recorded.old note isOld
  unfold PollWorld.look
  dsimp only
  split
  · exact ⟨looked.agrees, looked.fair, looked.old⟩
  · exact ⟨looked.agrees, looked.fair, looked.old⟩

theorem Registered.applyEvent
    (registered : world.Registered) :
    (world.applyEvent event).Registered := by
  obtain ⟨fds, log, same, slots, serials⟩ := world.applyEvents_eq [event]
  rw [show world.applyEvent event = world.applyEvents [event] from rfl, same]
  exact registered.of_same slots serials rfl rfl rfl

/-- Bits that are not triggered are cleared without effect. -/
theorem PollFd.untrigger_of_none
    (none :
      pollFd.isEdgeTriggered = true →
        pollFd.triggeredTypes &&& events = 0#32) :
    pollFd.untrigger events = pollFd := by
  unfold PollFd.untrigger
  split
  case isFalse => rfl
  case isTrue isEdge =>
    have same :
        pollFd.triggeredTypes &&& ~~~events = pollFd.triggeredTypes := by
      apply BitVec.eq_of_getLsbD_eq
      intro bit isSmall
      have noneHere :=
        congrArg (fun types => types.getLsbD bit) (none isEdge)
      simp only [BitVec.getLsbD_and, BitVec.getLsbD_zero] at noneHere
      simp only [BitVec.getLsbD_and, BitVec.getLsbD_not, isSmall, decide_true,
        Bool.true_and]
      cases isTriggered : pollFd.triggeredTypes.getLsbD bit with
      | false => rfl
      | true =>
        rw [isTriggered, Bool.true_and] at noneHere
        rw [noneHere]
        rfl
    rw [same]

/-- A current event is noted. -/
theorem Recorded.applyEvent
    (recorded : world.Recorded)
    (registered : world.Registered)
    (finds : world.Finds event)
    (isCurrent : event.IsCurrent world.fds) :
    (world.applyEvent event).Recorded := by
  unfold PollWorld.applyEvent
  split
  case h_1 => exact recorded
  case h_2 slot serial isSource =>
    obtain ⟨isOld, inSlot⟩ := finds slot serial isSource
    by_cases isThere : ∃ pollFd ∈ world.fds, pollFd.serial = serial
    · obtain ⟨pollFd, isMember, rfl⟩ := isThere
      rw [← inSlot pollFd isMember rfl]
      exact recorded.untrigger registered isMember (.inr rfl)
    · have unchanged :
          (world.modifySlot slot fun pollFd =>
            pollFd.untrigger event.events) = world := by
        unfold modifySlot
        have same :
            (world.fds.map fun pollFd =>
              if pollFd.slot = slot then pollFd.untrigger event.events
              else pollFd) = world.fds := by
          conv_rhs => rw [← List.map_id world.fds]
          refine map_congr_left ?_
          intro pollFd isMember
          split
          case isFalse => rfl
          case isTrue sameSlot =>
            refine PollFd.untrigger_of_none ?_
            exact isCurrent slot serial isSource pollFd isMember sameSlot
              fun sameSerial => isThere ⟨pollFd, isMember, sameSerial⟩
        rw [same]
      rw [unchanged]
      constructor
      case agrees =>
        intro pollFd isMember
        refine (recorded.agrees pollFd isMember).cons ?_
        exact fun same => isThere ⟨pollFd, isMember, same.symm⟩
      case fair => exact recorded.fair
      case old => exact forall_mem_cons.mpr ⟨isOld, recorded.old⟩

/-- An event that is applied leaves the later ones current. -/
theorem isCurrent_applyEvent
    {later : HostEvent}
    (isCurrent : later.IsCurrent world.fds) :
    later.IsCurrent (world.applyEvent event).fds := by
  unfold PollWorld.applyEvent
  split
  case h_1 => exact isCurrent
  case h_2 slot serial _ =>
    intro laterSlot laterSerial isSource pollFd isMember
    obtain ⟨before, isBefore, rfl⟩ := List.mem_map.mp isMember
    split
    case isFalse =>
      exact isCurrent laterSlot laterSerial isSource before isBefore
    case isTrue =>
      dsimp only
      by_cases isEdge : before.isEdgeTriggered = true
      case neg =>
        rw [PollFd.untrigger, if_neg isEdge]
        exact isCurrent laterSlot laterSerial isSource before isBefore
      case pos =>
        rw [PollFd.untrigger, if_pos isEdge]
        intro sameSlot differs _
        have none := isCurrent laterSlot laterSerial isSource before isBefore
          sameSlot differs isEdge
        show before.triggeredTypes &&& ~~~event.events &&& later.events = 0#32
        rw [BitVec.and_assoc, BitVec.and_comm (~~~event.events),
          ← BitVec.and_assoc, none, BitVec.zero_and]

/-- Current events are noted, and find what they came for. -/
theorem Recorded.applyEvents
    {events : List HostEvent}
    (recorded : world.Recorded)
    (registered : world.Registered)
    (finds : ∀ event ∈ events, world.Finds event)
    (areCurrent : ∀ event ∈ events, event.IsCurrent world.fds) :
    (world.applyEvents events).Recorded ∧
      (world.applyEvents events).Registered := by
  induction events generalizing world with
  | nil =>
    exact ⟨recorded, registered⟩
  | cons event rest inductionHypothesis =>
    obtain ⟨firstFinds, restFind⟩ := forall_mem_cons.mp finds
    obtain ⟨firstCurrent, restCurrent⟩ := forall_mem_cons.mp areCurrent
    refine inductionHypothesis
      (recorded.applyEvent registered firstFinds firstCurrent)
      registered.applyEvent ?_ ?_
    · intro later isLater
      obtain ⟨fds, log, same, slots, serials⟩ := world.applyEvents_eq [event]
      rw [show world.applyEvent event = world.applyEvents [event] from rfl,
        same]
      exact (restFind later isLater).of_fewer (Nat.le_refl _)
        fun pollFd isMember =>
          .inr (exists_of_map_eq slots serials isMember)
    · exact fun later isLater => isCurrent_applyEvent (restCurrent later isLater)

/-- The events of the host add notifications to the history. -/
theorem log_applyEvents
    {events : List HostEvent} :
    ∃ notes,
      (world.applyEvents events).log = notes ++ world.log ∧
        ∀ note ∈ notes, ∃ serial events, note = .notified serial events := by
  induction events generalizing world with
  | nil =>
    exact ⟨[], rfl, fun _ isNote => (nomatch isNote)⟩
  | cons event rest inductionHypothesis =>
    obtain ⟨notes, same, notified⟩ :=
      @inductionHypothesis (world.applyEvent event)
    have first :
        (world.applyEvent event).log = world.log ∨
          ∃ serial,
            (world.applyEvent event).log =
              .notified serial event.events :: world.log := by
      unfold PollWorld.applyEvent
      split
      · exact .inl rfl
      · exact .inr ⟨_, rfl⟩
    rcases first with firstSame | ⟨serial, firstSame⟩
    · refine ⟨notes, ?_, notified⟩
      rw [← firstSame]
      exact same
    · refine ⟨notes ++ [.notified serial event.events], ?_, ?_⟩
      · rw [append_assoc]
        rw [singleton_append, ← firstSame]
        exact same
      · intro note isNote
        rcases mem_append.mp isNote with isLater | isFirst
        · exact notified note isLater
        · exact ⟨_, _, mem_singleton.mp isFirst⟩

/-- The thread of a step moves to a place without host events. -/
theorem Sourced.move
    {phase : PollThread}
    (sourced : world.Sourced)
    (moved : next.threads = Function.update world.threads thread phase)
    (found :
      ∀ room events, phase = .returned room (.events events) →
        ∀ event ∈ events, world.Finds event)
    (nextSerial : next.nextSerial = world.nextSerial)
    (fewer :
      ∀ pollFd ∈ next.fds,
        ∃ before ∈ world.fds,
          before.serial = pollFd.serial ∧ before.slot = pollFd.slot) :
    next.Sourced := by
  intro other room events isReturned event isEvent
  have finds : world.Finds event := by
    rw [moved] at isReturned
    by_cases same : other = thread
    · subst same
      rw [Function.update_self] at isReturned
      exact found room events isReturned event isEvent
    · rw [Function.update_of_ne same] at isReturned
      exact sourced other room events isReturned event isEvent
  exact finds.of_fewer (Nat.le_of_eq nextSerial.symm) fun pollFd isMember =>
    .inr (fewer pollFd isMember)

theorem Sourced.of_fewer
    (sourced : world.Sourced)
    (threads : next.threads = world.threads)
    (nextSerial : world.nextSerial ≤ next.nextSerial)
    (fewer :
      ∀ pollFd ∈ next.fds,
        world.nextSerial ≤ pollFd.serial ∨
          ∃ before ∈ world.fds,
            before.serial = pollFd.serial ∧ before.slot = pollFd.slot) :
    next.Sourced := by
  intro other room events isReturned event isEvent
  rw [threads] at isReturned
  exact (sourced other room events isReturned event isEvent).of_fewer nextSerial
    fewer

/-- A look leaves nobody with host events who had none. -/
theorem Sourced.look
    {room : Nat}
    (sourced : world.Sourced) :
    (world.look thread room signalPending).Sourced := by
  have kept :
      ∀ pollFd ∈ (checkFds world.ready room 0 world.fds).1,
        ∃ before ∈ world.fds,
          before.serial = pollFd.serial ∧ before.slot = pollFd.slot :=
    fun pollFd isMember =>
      exists_of_map_eq (map_checkFds fun _ _ => rfl)
        (map_checkFds fun _ _ => rfl) isMember
  unfold PollWorld.look
  dsimp only
  split
  · exact sourced.move rfl (fun _ _ same => by cases same) rfl kept
  · exact sourced.move rfl (fun _ _ same => by cases same) rfl kept

/-- A file is removed from the registrations, or its registration changed. -/
theorem Sourced.step
    {step : PollStep}
    (sourced : world.Sourced)
    (registered : world.Registered)
    (run : step.run host world = some next) :
    next.Sourced := by
  have same :
      ∀ pollFd ∈ world.fds,
        ∃ before ∈ world.fds,
          before.serial = pollFd.serial ∧ before.slot = pollFd.slot :=
    fun pollFd isMember => ⟨pollFd, isMember, rfl, rfl⟩
  cases makes_of_run run with
  | add fd types info allocated hostError =>
    rcases registered.pollAddFd_cases host fd types info allocated hostError
      with unchanged | ⟨slot, rest, nextSlot, _, _, unchanged | ⟨_, added⟩⟩
    · rw [unchanged]
      exact sourced
    · rw [unchanged]
      exact sourced.of_fewer rfl (Nat.le_refl _) fun pollFd isMember =>
        .inr (same pollFd isMember)
    · rw [added]
      refine sourced.of_fewer rfl (Nat.le_succ _) ?_
      refine forall_mem_cons.mpr ⟨.inl (Nat.le_refl _), ?_⟩
      exact fun pollFd isMember => .inr (same pollFd isMember)
  | del fd hostError =>
    unfold pollDelFd
    split
    · exact sourced
    · split
      · exact sourced
      · exact sourced.of_fewer rfl (Nat.le_refl _) fun pollFd isMember =>
          .inr (same pollFd (mem_of_mem_filter isMember))
  | mod fd types info hostError =>
    unfold pollModFd
    split
    · exact sourced
    · split
      · exact sourced
      · refine sourced.of_fewer rfl (Nat.le_refl _) ?_
        intro pollFd isMember
        refine .inr (exists_of_map_eq ?_ ?_ isMember)
        · exact map_modifySlot fun _ => rfl
        · exact map_modifySlot fun _ => rfl
  | cleanup =>
    exact sourced.of_fewer rfl (Nat.le_refl _) fun pollFd isMember =>
      .inr (same pollFd (mem_of_mem_filter isMember))
  | change | noPipe =>
    exact sourced
  | raise | beginWakeup | endWakeup =>
    exact sourced.move rfl (fun _ _ same => by cases same) rfl same
  | wakeNext =>
    refine sourced.move rfl (fun _ _ same => by cases same) rfl ?_
    exact fun pollFd isMember =>
      exists_of_map_eq
        (map_modifySlot fun pollFd => (keep_untrigger pollFd _).1)
        (map_modifySlot fun pollFd => (keep_untrigger pollFd _).2)
        isMember
  | beginWait =>
    apply Sourced.look
    exact sourced
  | hostReturn thread room result _ fromHost =>
    refine sourced.move rfl ?_ rfl same
    intro _ events isReturned event isEvent slot serial isSource
    cases isReturned
    have isThere := List.all_eq_true.mp (fromHost events rfl) event isEvent
    unfold PollStep.isFromHost at isThere
    rw [isSource, List.any_eq_true] at isThere
    obtain ⟨pollFd, isMember, matches'⟩ := isThere
    simp only [Bool.and_eq_true, decide_eq_true_iff] at matches'
    obtain ⟨⟨⟨sameSlot, sameSerial⟩, _⟩, _⟩ := matches'
    subst sameSlot
    subst sameSerial
    refine ⟨registered.serialsOld _ (List.mem_map_of_mem isMember), ?_⟩
    intro other otherMember otherSerial
    rw [registered.eq_of_serial isMember otherMember otherSerial]
  | resume =>
    unfold PollWorld.resume
    split
    · exact sourced.move rfl (fun _ _ same => by cases same) rfl same
    · exact sourced.move rfl (fun _ _ same => by cases same) rfl same
    · obtain ⟨fds, log, applied, slots, serials⟩ := world.applyEvents_eq _
      rw [applied]
      apply Sourced.look
      exact sourced.of_fewer rfl (Nat.le_refl _) fun pollFd isMember =>
        .inr (exists_of_map_eq slots serials isMember)

/-- Every step that applies current events is noted. -/
theorem Recorded.step
    {step : PollStep}
    (recorded : world.Recorded)
    (registered : world.Registered)
    (sourced : world.Sourced)
    (areCurrent : step.AppliesCurrent world)
    (run : step.run host world = some next) :
    next.Recorded := by
  have kept : ∀ pollFd ∈ world.fds, pollFd ∈ world.fds :=
    fun _ isMember => isMember
  cases makes_of_run run with
  | add fd types info allocated hostError =>
    rcases registered.pollAddFd_cases host fd types info allocated hostError
      with unchanged | ⟨slot, rest, nextSlot, _, _, unchanged | ⟨_, added⟩⟩
    · rw [unchanged]
      exact recorded
    · rw [unchanged]
      exact recorded.of_fewer kept rfl rfl
    · rw [added]
      exact recorded.added registered rfl rfl rfl
  | del fd hostError =>
    unfold pollDelFd
    split
    · exact recorded
    · split
      · exact recorded
      · exact recorded.of_fewer
          (fun _ isMember => mem_of_mem_filter isMember) rfl rfl
  | mod =>
    exact recorded.pollModFd registered
  | cleanup =>
    exact recorded.of_fewer
      (fun _ isMember => mem_of_mem_filter isMember) rfl rfl
  | change | raise | beginWakeup | endWakeup | hostReturn =>
    exact recorded.of_fewer kept rfl rfl
  | wakeNext thread fd events slot left _ =>
    have woken : (world.wakeSlot host slot events).Recorded :=
      recorded.wakeSlot registered
    exact woken.of_fewer (fun _ isMember => isMember) rfl rfl
  | noPipe =>
    exact recorded
  | beginWait =>
    exact Recorded.look (recorded.of_fewer kept rfl rfl)
      (registered.of_same rfl rfl rfl rfl rfl)
  | resume thread room result signalPending isReturned =>
    unfold PollWorld.resume
    split
    · exact recorded.of_fewer kept rfl rfl
    · exact recorded.of_fewer kept rfl rfl
    case h_3 events =>
      obtain ⟨applied, stillRegistered⟩ :=
        recorded.applyEvents registered
          (sourced thread room events isReturned)
          (areCurrent room events isReturned)
      exact Recorded.look
        (applied.of_fewer (fun _ isMember => isMember) rfl rfl)
        (stillRegistered.of_same rfl rfl rfl rfl rfl)

end PollWorld

/-- The steps of a run in which all host events are current. -/
def currentMachine (host : PollHost) : Machine PollWorld PollStep :=
  (pollMachine host).restrict fun world step => step.AppliesCurrent world

namespace PollWorld

variable {host : PollHost} {world : PollWorld}

/-- Registrations agree with a fair history in every such run. -/
theorem recorded_of_reachable
    (reachable : (currentMachine host).Reachable world) :
    world.Registered ∧ world.Sourced ∧ world.Recorded := by
  refine Machine.Reachable.invariant
    (motive := fun world =>
      world.Registered ∧ world.Sourced ∧ world.Recorded) ?_ ?_ reachable
  · rintro world ⟨noFds, noFree, _, _, noLog, _, allOut⟩
    refine ⟨?_, ?_, ?_⟩
    · constructor
      case slots => simp [noFds, noFree]
      case slotsOld => simp [noFds, noFree]
      case serials => simp [noFds]
      case serialsOld => simp [noFds]
    · intro thread room events isReturned
      rw [allOut] at isReturned
      cases isReturned
    · constructor
      case agrees => simp [noFds]
      case fair =>
        rw [noLog]
        trivial
      case old => simp [noLog]
  · rintro before step after ⟨registered, sourced, recorded⟩ ⟨areCurrent, run⟩
    exact ⟨registered.step run, sourced.step registered run,
      recorded.step registered sourced areCurrent run⟩

theorem isFair_of_append
    {newer older : List PollNote}
    {serial : Nat}
    {events types : BitVec 32}
    (fair : IsFair (newer ++ .reported serial events types :: older)) :
    isDisarmed serial older = false ∧
      ∀ bit, events.getLsbD bit = true → isShown serial bit older = false := by
  induction newer with
  | nil =>
    exact fair.1
  | cons note rest inductionHypothesis =>
    cases note with
    | reported => exact inductionHypothesis fair.2
    | armed | told | notified => exact inductionHypothesis fair

end PollWorld

/--
The registrations that the loop of a step looks at, if it comes to it, with
the room of the callback.
-/
def PollStep.looksAt
    (world : PollWorld) : PollStep → Option (PollWorld × Nat)
  | beginWait _ room piped _ =>
    if world.waiters = 0 ∧ piped = false then none else some (world, room)
  | resume thread _ =>
    match world.threads thread with
    | .returned room (.events events) =>
      some (world.applyEvents events, room)
    | _ => none
  | _ => none

namespace PollWorld

variable {host : PollHost} {world : PollWorld}

/-- A step that looks writes what the loop leaves. -/
theorem eq_checkFds_of_looksAt
    {next seen : PollWorld}
    {step : PollStep}
    {room : Nat}
    (run : step.run host world = some next)
    (looks : step.looksAt world = some (seen, room)) :
    next.fds = (checkFds seen.ready room 0 seen.fds).1 ∧
      next.log = (checkFds seen.ready room 0 seen.fds).2.1 ++ seen.log := by
  have ofLook :
      ∀ (before : PollWorld) (thread : Nat) (signalPending : Bool),
        (before.look thread room signalPending).fds =
            (checkFds before.ready room 0 before.fds).1 ∧
          (before.look thread room signalPending).log =
            (checkFds before.ready room 0 before.fds).2.1 ++ before.log := by
    intro before thread signalPending
    unfold PollWorld.look
    dsimp only
    split
    · exact ⟨rfl, rfl⟩
    · exact ⟨rfl, rfl⟩
  cases step with
  | beginWait thread otherRoom piped signalPending =>
    simp only [PollStep.looksAt, Option.ite_none_left_eq_some,
      Option.some.injEq, Prod.mk.injEq] at looks
    obtain ⟨comes, rfl, rfl⟩ := looks
    simp only [PollStep.run, Option.ite_none_right_eq_some] at run
    obtain ⟨_, run⟩ := run
    unfold PollWorld.beginWait at run
    split at run
    case isTrue isFirst =>
      split at run
      · cases run
      · split at run
        case isTrue notPiped => exact (comes ⟨isFirst, notPiped⟩).elim
        case isFalse =>
          cases run
          exact ofLook _ thread signalPending
    case isFalse =>
      cases run
      exact ofLook _ thread signalPending
  | resume thread signalPending =>
    dsimp only [PollStep.looksAt, PollStep.run] at looks run
    split at looks
    case h_2 => cases looks
    case h_1 otherRoom events isReturned =>
      cases looks
      rw [isReturned] at run
      cases run
      exact ofLook (world.applyEvents events).drain thread signalPending
  | add => cases looks
  | del => cases looks
  | mod => cases looks
  | cleanup => cases looks
  | change => cases looks
  | raise => cases looks
  | beginWakeup => cases looks
  | wakeNext => cases looks
  | endWakeup => cases looks
  | hostReturn => cases looks

/-- What a step looks at agrees with its history. -/
theorem recorded_of_looksAt
    {seen : PollWorld}
    {step : PollStep}
    {room : Nat}
    (reachable : (currentMachine host).Reachable world)
    (areCurrent : step.AppliesCurrent world)
    (looks : step.looksAt world = some (seen, room)) :
    seen.Registered ∧ seen.Recorded ∧
      ∃ notes,
        seen.log = notes ++ world.log ∧
          ∀ note ∈ notes, ∃ serial events, note = .notified serial events := by
  obtain ⟨registered, sourced, recorded⟩ := recorded_of_reachable reachable
  unfold PollStep.looksAt at looks
  split at looks
  case h_1 =>
    rw [Option.ite_none_left_eq_some] at looks
    cases looks.2
    exact ⟨registered, recorded, [], rfl, fun _ isNote => (nomatch isNote)⟩
  case h_2 thread signalPending =>
    split at looks
    case h_2 => cases looks
    case h_1 events isReturned =>
      cases looks
      obtain ⟨applied, stillRegistered⟩ :=
        recorded.applyEvents registered
          (sourced thread room events isReturned)
          (areCurrent room events isReturned)
      exact ⟨stillRegistered, applied, log_applyEvents⟩
  case h_3 => cases looks

/-- Between a one-shot report and the next report there is an arm. -/
def OneshotsAreArmed (log : List PollNote) : Prop :=
  ∀ newer between older serial later laterTypes events types,
    log =
      newer ++ .reported serial later laterTypes ::
        (between ++ .reported serial events types :: older) →
    types &&& pollOneshot ≠ 0#32 →
      ∃ note ∈ between, note.arms serial = true

/--
Between an edge-triggered report of an event and the next one there is an arm,
or a wakeup or a notification of the event.
-/
def EdgesAreCovered (log : List PollNote) : Prop :=
  ∀ newer between older serial later laterTypes events types,
    log =
      newer ++ .reported serial later laterTypes ::
        (between ++ .reported serial events types :: older) →
    types &&& pollEdgetriggered ≠ 0#32 →
      ∀ bit, events.getLsbD bit = true → later.getLsbD bit = true →
      ∃ note ∈ between, note.covers serial bit = true

/--
With room left when the loop comes to a registration, it reports every event
that is ready, registered for, not shown since something covered it, and not
disarmed since it was armed.
-/
def ReportsWhatFits
    (world : PollWorld)
    (room : Nat)
    (before : List PollFd)
    (pollFd : PollFd)
    (reports : List PollNote) : Prop :=
  (checkFds world.ready room 0 before).2.2 < room →
  isDisarmed pollFd.serial world.log = false →
  ∀ bit,
    (world.ready pollFd.fd &&&
      (pollFd.types ||| pollHup ||| pollErr)).getLsbD bit = true →
    isShown pollFd.serial bit world.log = false →
      ∃ events, events.getLsbD bit = true ∧
        .reported pollFd.serial events pollFd.types ∈ reports

/-- Without room left, the loop leaves the registration and its history. -/
def KeepsTheRest
    (world next : PollWorld)
    (room : Nat)
    (before : List PollFd)
    (pollFd : PollFd)
    (reports : List PollNote) : Prop :=
  room ≤ (checkFds world.ready room 0 before).2.2 →
    pollFd ∈ next.fds ∧ ∀ note ∈ reports, note.serial ≠ pollFd.serial

/--
In a run whose host events are current: a one-shot report is followed by no
report before an arm, and an edge-triggered one by none of the same event
before something covers it.  And every loop of a wait that has room for a
registration reports what is registered, ready, armed and not shown; one
without room leaves it as it is.
-/
theorem reports_follow_arms
    (reachable : (currentMachine host).Reachable world) :
    OneshotsAreArmed world.log ∧
      EdgesAreCovered world.log ∧
      ∀ (step : PollStep) (next seen : PollWorld) (room : Nat),
        step.AppliesCurrent world →
        step.run host world = some next →
        step.looksAt world = some (seen, room) →
        ∃ reports notes,
          next.log = reports ++ seen.log ∧ seen.log = notes ++ world.log ∧
          (∀ note ∈ notes, ∃ serial events, note = .notified serial events) ∧
          ∀ before pollFd after, seen.fds = before ++ pollFd :: after →
            seen.ReportsWhatFits room before pollFd reports ∧
              seen.KeepsTheRest next room before pollFd reports := by
  obtain ⟨_, _, recorded⟩ := recorded_of_reachable reachable
  refine ⟨?_, ?_, ?_⟩
  · intro newer between older serial later laterTypes events types sameLog
      isOneshot
    obtain ⟨notDisarmed, _⟩ := isFair_of_append (sameLog ▸ recorded.fair)
    refine exists_clears_of_not_since ?_ notDisarmed
    simpa [PollNote.disarms] using isOneshot
  · intro newer between older serial later laterTypes events types sameLog
      isEdge bit isEvent isLater
    obtain ⟨_, notShown⟩ := isFair_of_append (sameLog ▸ recorded.fair)
    refine exists_clears_of_not_since ?_ (notShown bit isLater)
    simpa [PollNote.shows, isEvent] using isEdge
  · intro step next seen room areCurrent run looks
    obtain ⟨registered, seenRecorded, notes, sameLog, notified⟩ :=
      recorded_of_looksAt reachable areCurrent looks
    obtain ⟨nextFds, nextLog⟩ := eq_checkFds_of_looksAt run looks
    refine ⟨_, notes, nextLog, sameLog, notified, ?_⟩
    intro before pollFd after sameFds
    have isMember : pollFd ∈ seen.fds := by
      rw [sameFds]
      exact mem_append_right _ mem_cons_self
    have agrees := seenRecorded.agrees pollFd isMember
    rw [sameFds] at nextFds ⊢
    refine ⟨?_, ?_⟩
    · intro hasRoom notDisarmed bit isReady notShown
      have isSeen := agrees.seen isReady notShown
      refine ⟨_, isSeen, reported_of_room hasRoom ?_ ?_⟩
      · rw [agrees.disabled]
        exact notDisarmed
      · intro none
        rw [none, BitVec.getLsbD_zero] at isSeen
        cases isSeen
    · intro isFull
      rw [nextFds]
      exact unchanged_of_full isFull (sameFds ▸ registered.serials)

/-- An event is reported again after a wakeup told it again. -/
theorem told_event_is_reported_again :
    ∃ world,
      (currentMachine emulatedHost).Reachable world ∧
        world.log =
          [.reported 0 1#32 edgeTypes, .told 0 1#32,
            .reported 0 1#32 edgeTypes, .armed 0] ∧
        OneshotsAreArmed world.log ∧ EdgesAreCovered world.log := by
  have fresh : (currentMachine emulatedHost).Reachable (withInput 7) :=
    .initial ⟨rfl, rfl, rfl, rfl, rfl, fun _ => rfl, fun _ => rfl⟩
  have added :=
    fresh.step (a := PollStep.add 7 edgeTypes 0#64 true none) ⟨trivial, rfl⟩
  have reported :=
    added.step (a := PollStep.beginWait 1 1 true false) ⟨trivial, rfl⟩
  have raised :=
    reported.step (a := PollStep.raise 2 7 1#32 1#32) ⟨trivial, rfl⟩
  have begun := raised.step (a := PollStep.beginWakeup 2) ⟨trivial, rfl⟩
  have told := begun.step (a := PollStep.wakeNext 2) ⟨trivial, rfl⟩
  have again :=
    told.step (a := PollStep.beginWait 1 1 true false) ⟨trivial, rfl⟩
  obtain ⟨oneshots, edges, _⟩ := reports_follow_arms again
  exact ⟨_, again, rfl, oneshots, edges⟩

/-- A host with one real file. -/
def hostWithReal (fd : FdId) : PollHost where
  isReal other := Nat.beq other fd
  pipeSize := 65536
  pipeHolds := Nat.succ_pos _

/--
The host returns an event of a real file; its registration is deleted and the
slot used for an emulated one, whose input is reported to a second thread.  The
first thread clears the bit and reports the input again.
-/
theorem stale_event_is_reported_again :
    ∃ world,
      (pollMachine (hostWithReal 3)).Reachable world ∧
        world.log =
          [.reported 1 1#32 edgeTypes, .notified 0 1#32,
            .reported 1 1#32 edgeTypes, .armed 1, .armed 0] ∧
        ¬EdgesAreCovered world.log := by
  have fresh : (pollMachine (hostWithReal 3)).Reachable (withInput 7) :=
    .initial ⟨rfl, rfl, rfl, rfl, rfl, fun _ => rfl, fun _ => rfl⟩
  have real :=
    fresh.step (a := PollStep.add 3 edgeTypes 0#64 true none) rfl
  have waiting := real.step (a := PollStep.beginWait 1 1 true false) rfl
  have returned :=
    waiting.step
      (a := PollStep.hostReturn 1 (.events [⟨some (0, 0), 1#32⟩])) rfl
  have deleted := returned.step (a := PollStep.del 3 none) rfl
  have reused :=
    deleted.step (a := PollStep.add 7 edgeTypes 0#64 true none) rfl
  have reported := reused.step (a := PollStep.beginWait 2 1 true false) rfl
  have again := reported.step (a := PollStep.resume 1 false) rfl
  refine ⟨_, again, rfl, ?_⟩
  intro edges
  obtain ⟨note, isNote, covers⟩ :=
    edges [] [.notified 0 1#32] [.armed 1, .armed 0] 1 1#32 edgeTypes 1#32
      edgeTypes rfl (by decide) 0 (by decide) (by decide)
  rw [mem_singleton.mp isNote] at covers
  cases covers

end PollWorld

end GuestKernel
