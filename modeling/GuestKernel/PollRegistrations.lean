import GuestKernel.Poll
import Mathlib.Data.List.Nodup

namespace GuestKernel
open List Function

/-!
# Registrations of a poll object

What the loop of `poll_wait` does to the registrations, and that slots and
serial numbers belong to one registration each in every run.
-/

namespace PollFd

variable {pollFd : PollFd} {ready events : BitVec 32}

theorem pollTypes_taken :
    (pollFd.taken events).pollTypes ready =
      if pollFd.isEdgeTriggered then
        pollFd.pollTypes ready &&& ~~~events
      else
        pollFd.pollTypes ready := by
  have sameKind :
      (pollFd.taken events).isEdgeTriggered = pollFd.isEdgeTriggered := rfl
  unfold pollTypes
  rw [sameKind]
  by_cases isEdge : pollFd.isEdgeTriggered = true
  · simp only [isEdge, if_true, taken, BitVec.not_or, BitVec.and_assoc]
  · simp only [isEdge, taken]
    rfl

variable {bit : Nat}

theorem of_pollTypes_taken
    (isReady :
      ((pollFd.taken events).pollTypes ready).getLsbD bit = true) :
    (pollFd.pollTypes ready).getLsbD bit = true := by
  rw [pollTypes_taken] at isReady
  split at isReady
  · rw [BitVec.getLsbD_and, Bool.and_eq_true] at isReady
    exact isReady.1
  · exact isReady

theorem pollTypes_taken_self
    (isEdge : pollFd.isEdgeTriggered = true) :
    (pollFd.taken (pollFd.pollTypes ready)).pollTypes ready = 0#32 := by
  rw [pollTypes_taken, if_pos isEdge]
  exact BitVec.and_not_self _

theorem of_pollTypes
    (isReady : (pollFd.pollTypes ready).getLsbD bit = true) :
    ready.getLsbD bit = true := by
  unfold pollTypes at isReady
  split at isReady
  · simp only [BitVec.getLsbD_and, Bool.and_eq_true] at isReady
    exact isReady.1.1
  · simp only [BitVec.getLsbD_and, Bool.and_eq_true] at isReady
    exact isReady.1

/-- An event that the loop would see depends on nothing but the file. -/
theorem pollTypes_of_ready
    {other : BitVec 32}
    (isReady : (pollFd.pollTypes ready).getLsbD bit = true)
    (otherReady : other.getLsbD bit = true) :
    (pollFd.pollTypes other).getLsbD bit = true := by
  unfold pollTypes at isReady ⊢
  split at isReady
  case isTrue isEdge =>
    rw [if_pos isEdge]
    simp only [BitVec.getLsbD_and, Bool.and_eq_true] at isReady ⊢
    exact ⟨⟨otherReady, isReady.1.2⟩, isReady.2⟩
  case isFalse isLevel =>
    rw [if_neg isLevel]
    simp only [BitVec.getLsbD_and, Bool.and_eq_true] at isReady ⊢
    exact ⟨otherReady, isReady.2⟩

end PollFd

namespace PollWorld

variable {world next : PollWorld} {room count thread : Nat}
  {ready : FdId → BitVec 32} {fds : List PollFd} {pollFd : PollFd}
  {host : PollHost} {signalPending : Bool}

/-- Every registration after the loop is an old one, taken or not. -/
theorem mem_checkFds
    (isMember : pollFd ∈ (checkFds ready room count fds).1) :
    ∃ before ∈ fds,
      pollFd = before ∨
        pollFd = before.taken (before.pollTypes (ready before.fd)) := by
  induction fds generalizing count with
  | nil =>
    cases isMember
  | cons first rest inductionHypothesis =>
    unfold checkFds at isMember
    dsimp only at isMember
    split at isMember
    · rcases mem_cons.mp isMember with rfl | isLater
      · exact ⟨_, mem_cons_self, .inl rfl⟩
      · obtain ⟨before, isBefore, same⟩ := inductionHypothesis isLater
        exact ⟨before, mem_cons_of_mem _ isBefore, same⟩
    · rcases mem_cons.mp isMember with rfl | isLater
      · exact ⟨_, mem_cons_self, .inr rfl⟩
      · obtain ⟨before, isBefore, same⟩ := inductionHypothesis isLater
        exact ⟨before, mem_cons_of_mem _ isBefore, same⟩

theorem le_count_checkFds :
    count ≤ (checkFds ready room count fds).2.2 := by
  induction fds generalizing count with
  | nil =>
    exact Nat.le_refl _
  | cons first rest inductionHypothesis =>
    unfold checkFds
    dsimp only
    split
    · exact inductionHypothesis
    · exact Nat.le_trans (Nat.le_succ _) inductionHypothesis

/-- A loop with room that reports nothing saw nothing and changed nothing. -/
theorem checkFds_of_nothing
    (hasRoom : count < room)
    (nothing : (checkFds ready room count fds).2.2 = count) :
    (checkFds ready room count fds).1 = fds ∧
      ∀ pollFd ∈ fds,
        pollFd.disabled = true ∨
          pollFd.pollTypes (ready pollFd.fd) = 0#32 := by
  induction fds with
  | nil =>
    exact ⟨rfl, fun _ isMember => (nomatch isMember)⟩
  | cons first rest inductionHypothesis =>
    unfold checkFds at nothing ⊢
    dsimp only at nothing ⊢
    split at nothing
    case isFalse =>
      have grows :
          count + 1 ≤ (checkFds ready room (count + 1) rest).2.2 :=
        le_count_checkFds
      rw [nothing] at grows
      exact (Nat.not_succ_le_self _ grows).elim
    case isTrue skipped =>
      obtain ⟨same, quiet⟩ := inductionHypothesis nothing
      rw [if_pos skipped, same]
      refine ⟨rfl, forall_mem_cons.mpr ⟨?_, quiet⟩⟩
      rcases skipped with isDisabled | nothing | isFull
      · exact .inl isDisabled
      · exact .inr nothing
      · exact (Nat.not_le_of_lt hasRoom isFull).elim

/-- The registrations that a loop with enough room reports. -/
def found (ready : FdId → BitVec 32) (fds : List PollFd) : List PollFd :=
  fds.filter fun pollFd =>
    !pollFd.disabled && pollFd.pollTypes (ready pollFd.fd) != 0#32

/-- A loop with room for everything takes all that is ready. -/
theorem mem_checkFds_of_room
    (hasRoom : count + (found ready fds).length ≤ room)
    (isMember : pollFd ∈ (checkFds ready room count fds).1) :
    ∃ before ∈ fds,
      (pollFd = before ∧
        (before.disabled = true ∨
          before.pollTypes (ready before.fd) = 0#32)) ∨
      pollFd = before.taken (before.pollTypes (ready before.fd)) := by
  induction fds generalizing count with
  | nil =>
    cases isMember
  | cons first rest inductionHypothesis =>
    unfold checkFds at isMember
    dsimp only at isMember
    by_cases isQuiet :
        first.disabled = true ∨ first.pollTypes (ready first.fd) = 0#32
    · have notFound : found ready (first :: rest) = found ready rest := by
        apply filter_cons_of_neg
        rcases isQuiet with isDisabled | nothing
        · simp [isDisabled]
        · simp [nothing]
      rw [notFound] at hasRoom
      have skipped :
          first.disabled = true ∨
            first.pollTypes (ready first.fd) = 0#32 ∨ room ≤ count :=
        or_assoc.mp (.inl isQuiet)
      rw [if_pos skipped] at isMember
      rcases mem_cons.mp isMember with rfl | isLater
      · exact ⟨_, mem_cons_self, .inl ⟨rfl, isQuiet⟩⟩
      · obtain ⟨before, isBefore, same⟩ :=
          inductionHypothesis hasRoom isLater
        exact ⟨before, mem_cons_of_mem _ isBefore, same⟩
    · have isFound :
          found ready (first :: rest) = first :: found ready rest := by
        apply filter_cons_of_pos
        rw [not_or] at isQuiet
        simp [isQuiet.1, isQuiet.2]
      rw [isFound, length_cons] at hasRoom
      have notSkipped :
          ¬(first.disabled = true ∨
            first.pollTypes (ready first.fd) = 0#32 ∨ room ≤ count) := by
        rw [← or_assoc, not_or]
        exact ⟨isQuiet, by omega⟩
      rw [if_neg notSkipped] at isMember
      rcases mem_cons.mp isMember with rfl | isLater
      · exact ⟨_, mem_cons_self, .inr rfl⟩
      · obtain ⟨before, isBefore, same⟩ :=
          inductionHypothesis (by omega) isLater
        exact ⟨before, mem_cons_of_mem _ isBefore, same⟩

theorem map_checkFds
    {Key : Type}
    {key : PollFd → Key}
    (keeps : ∀ pollFd events, key (pollFd.taken events) = key pollFd) :
    (checkFds ready room count fds).1.map key = fds.map key := by
  induction fds generalizing count with
  | nil =>
    rfl
  | cons first rest inductionHypothesis =>
    unfold checkFds
    dsimp only
    split
    · rw [map_cons, inductionHypothesis, map_cons]
    · rw [map_cons, inductionHypothesis, keeps, map_cons]

/-- A write to a slot keeps what it does not touch. -/
theorem map_modifySlot
    {Key : Type}
    {key : PollFd → Key}
    {slot : Nat}
    {change : PollFd → PollFd}
    (keeps : ∀ pollFd, key (change pollFd) = key pollFd) :
    (world.modifySlot slot change).fds.map key = world.fds.map key := by
  unfold modifySlot
  rw [List.map_map]
  refine map_congr_left ?_
  intro pollFd _
  dsimp only [Function.comp_apply]
  split
  · exact keeps pollFd
  · rfl

theorem keep_untrigger
    (pollFd : PollFd) (events : BitVec 32) :
    (pollFd.untrigger events).slot = pollFd.slot ∧
      (pollFd.untrigger events).serial = pollFd.serial := by
  unfold PollFd.untrigger
  split
  · exact ⟨rfl, rfl⟩
  · exact ⟨rfl, rfl⟩

/-- The events of the host change bits and the log only. -/
theorem applyEvents_eq
    (world : PollWorld)
    (events : List HostEvent) :
    ∃ fds log,
      world.applyEvents events = { world with fds := fds, log := log } ∧
        fds.map PollFd.slot = world.fds.map PollFd.slot ∧
        fds.map PollFd.serial = world.fds.map PollFd.serial := by
  induction events generalizing world with
  | nil =>
    exact ⟨_, _, rfl, rfl, rfl⟩
  | cons event rest inductionHypothesis =>
    have first :
        ∃ fds log,
          world.applyEvent event = { world with fds := fds, log := log } ∧
            fds.map PollFd.slot = world.fds.map PollFd.slot ∧
            fds.map PollFd.serial = world.fds.map PollFd.serial := by
      unfold applyEvent
      split
      · exact ⟨_, _, rfl, rfl, rfl⟩
      · exact ⟨_, _, rfl,
          map_modifySlot fun pollFd => (keep_untrigger pollFd _).1,
          map_modifySlot fun pollFd => (keep_untrigger pollFd _).2⟩
    obtain ⟨fds, log, same, slots, serials⟩ := first
    obtain ⟨lastFds, lastLog, lastSame, lastSlots, lastSerials⟩ :=
      inductionHypothesis (world.applyEvent event)
    refine ⟨lastFds, lastLog, ?_, ?_, ?_⟩
    · unfold applyEvents at lastSame ⊢
      rw [foldl_cons, lastSame, same]
    · rw [lastSlots, same, slots]
    · rw [lastSerials, same, serials]

/-- Slots and serial numbers belong to one registration each. -/
structure Registered (world : PollWorld) : Prop where
  slots : (world.fds.map PollFd.slot ++ world.freelist).Nodup
  slotsOld :
    ∀ slot ∈ world.fds.map PollFd.slot ++ world.freelist,
      slot < world.nextSlot
  serials : (world.fds.map PollFd.serial).Nodup
  serialsOld : ∀ serial ∈ world.fds.map PollFd.serial, serial < world.nextSerial

/-- Steps that keep slots and serial numbers. -/
theorem Registered.of_same
    (registered : world.Registered)
    (slots : next.fds.map PollFd.slot = world.fds.map PollFd.slot)
    (serials : next.fds.map PollFd.serial = world.fds.map PollFd.serial)
    (freelist : next.freelist = world.freelist)
    (nextSlot : next.nextSlot = world.nextSlot)
    (nextSerial : next.nextSerial = world.nextSerial) :
    next.Registered := by
  constructor
  case slots =>
    rw [slots, freelist]
    exact registered.slots
  case slotsOld =>
    rw [slots, freelist, nextSlot]
    exact registered.slotsOld
  case serials =>
    rw [serials]
    exact registered.serials
  case serialsOld =>
    rw [serials, nextSerial]
    exact registered.serialsOld

/-- The world with one more registration. -/
def added
    (world : PollWorld)
    (pollFd : PollFd)
    (freelist : List Nat)
    (nextSlot : Nat) : PollWorld :=
  note { world with
    fds := pollFd :: world.fds
    freelist := freelist
    nextSlot := nextSlot
    nextSerial := world.nextSerial + 1 } (.armed pollFd.serial)

section

variable (registered : world.Registered)
include registered

/--
A registration comes from the free list or from new memory, and goes back to
the free list where the host refuses a real file.
-/
theorem Registered.pollAddFd_cases
    (host : PollHost)
    (fd : FdId)
    (types : BitVec 32)
    (info : BitVec 64)
    (allocated : Bool)
    (hostError : Option Errno) :
    (world.pollAddFd host fd types info allocated hostError).2 = world ∨
      ∃ slot rest nextSlot,
        (slot :: (world.fds.map PollFd.slot ++ rest)).Nodup ∧
        (∀ other ∈ slot :: (world.fds.map PollFd.slot ++ rest),
          other < nextSlot) ∧
        ((world.pollAddFd host fd types info allocated hostError).2 =
            { world with freelist := slot :: rest, nextSlot := nextSlot } ∨
          (¬(world.freelist = [] ∧ allocated = false) ∧
            (world.pollAddFd host fd types info allocated hostError).2 =
              world.added
                { slot := slot, serial := world.nextSerial, fd := fd
                  types := types, info := info, triggeredTypes := 0#32
                  disabled := false }
                rest nextSlot)) := by
  by_cases noMemory : world.freelist = [] ∧ allocated = false
  · left
    unfold PollWorld.pollAddFd
    rw [if_pos noMemory]
  right
  have oldSlots := registered.slots
  have oldBound := registered.slotsOld
  cases isFree : world.freelist with
  | nil =>
    rw [isFree] at oldSlots oldBound
    have isNewSlot :
        world.nextSlot ∉ world.fds.map PollFd.slot ++ [] :=
      fun isOld => Nat.lt_irrefl _ (oldBound _ isOld)
    refine ⟨world.nextSlot, [], world.nextSlot + 1,
      nodup_cons.mpr ⟨isNewSlot, oldSlots⟩,
      forall_mem_cons.mpr ⟨Nat.lt_succ_self _,
        fun slot isOld => Nat.lt_succ_of_lt (oldBound slot isOld)⟩, ?_⟩
    unfold PollWorld.pollAddFd
    rw [if_neg noMemory, isFree]
    dsimp only [headD_nil]
    split
    · exact .inl rfl
    · exact .inr ⟨isFree ▸ noMemory, rfl⟩
  | cons slot rest =>
    rw [isFree] at oldSlots oldBound
    refine ⟨slot, rest, world.nextSlot,
      perm_middle.nodup_iff.mp oldSlots,
      fun other isMember =>
        oldBound other (perm_middle.mem_iff.mpr isMember), ?_⟩
    unfold PollWorld.pollAddFd
    rw [if_neg noMemory, isFree]
    dsimp only [headD_cons]
    split
    · exact .inl rfl
    · exact .inr ⟨fun isNone => (nomatch isNone.1), rfl⟩

/-- Adding a registration keeps the slots apart. -/
theorem Registered.pollAddFd
    {fd : FdId}
    {types : BitVec 32}
    {info : BitVec 64}
    {allocated : Bool}
    {hostError : Option Errno} :
    (world.pollAddFd host fd types info allocated hostError).2.Registered := by
  rcases registered.pollAddFd_cases host fd types info allocated hostError with
    same | ⟨slot, rest, nextSlot, nodup, bound, same | ⟨_, same⟩⟩
  · rw [same]
    exact registered
  · rw [same]
    exact ⟨perm_middle.nodup_iff.mpr nodup,
      fun other isMember =>
        bound other (perm_middle.mem_iff.mp isMember),
      registered.serials, registered.serialsOld⟩
  · rw [same]
    have isNewSerial :
        world.nextSerial ∉ world.fds.map PollFd.serial := fun isOld =>
      Nat.lt_irrefl _ (registered.serialsOld _ isOld)
    exact ⟨nodup, bound,
      nodup_cons.mpr ⟨isNewSerial, registered.serials⟩,
      forall_mem_cons.mpr ⟨Nat.lt_succ_self _,
        fun serial isOld =>
          Nat.lt_succ_of_lt (registered.serialsOld serial isOld)⟩⟩

theorem Registered.eq_of_slot
    {other : PollFd}
    (isMember : pollFd ∈ world.fds)
    (otherMember : other ∈ world.fds)
    (sameSlot : other.slot = pollFd.slot) :
    other = pollFd :=
  inj_on_of_nodup_map (nodup_append.mp registered.slots).1
    otherMember isMember sameSlot

theorem Registered.filter_slot
    (isMember : pollFd ∈ world.fds) :
    (world.fds.filter fun other => other.slot = pollFd.slot) = [pollFd] := by
  have sameTest :
      ∀ other ∈ world.fds,
        decide (other.slot = pollFd.slot) = (other == pollFd) := by
    intro other otherMember
    rw [Bool.eq_iff_iff, decide_eq_true_iff, beq_iff_eq]
    exact ⟨registered.eq_of_slot isMember otherMember,
      fun same => congrArg PollFd.slot same⟩
  have once : world.fds.count pollFd = 1 :=
    count_eq_one_of_mem
      (nodup_append.mp registered.slots).1.of_map isMember
  rw [filter_congr sameTest, filter_beq, once]
  rfl

/-- Registrations that go give their slots to the free list. -/
theorem Registered.of_removed
    (goes : PollFd → Prop)
    [DecidablePred goes] :
    Registered { world with
      fds := world.fds.filter fun pollFd => ¬goes pollFd
      freelist :=
        ((world.fds.filter fun pollFd => goes pollFd).map
          PollFd.slot).reverse ++ world.freelist } := by
  have split :
      (((world.fds.filter fun pollFd => ¬goes pollFd).map PollFd.slot) ++
        (((world.fds.filter fun pollFd => goes pollFd).map
          PollFd.slot).reverse ++ world.freelist)).Perm
        (world.fds.map PollFd.slot ++ world.freelist) := by
    rw [← append_assoc]
    refine List.Perm.append_right _ ?_
    refine ((reverse_perm _).append_left _).trans ?_
    rw [← map_append]
    refine List.Perm.map PollFd.slot (perm_append_comm.trans ?_)
    simp only [decide_not]
    exact filter_append_perm (fun pollFd => decide (goes pollFd)) world.fds
  constructor
  case slots => exact split.nodup_iff.mpr registered.slots
  case slotsOld =>
    exact fun slot isMember =>
      registered.slotsOld slot (split.mem_iff.mp isMember)
  case serials =>
    exact registered.serials.sublist (filter_sublist.map _)
  case serialsOld =>
    exact fun serial isMember =>
      registered.serialsOld serial
        ((filter_sublist.map _).subset isMember)

theorem Registered.setThread
    {phase : PollThread} :
    (world.setThread thread phase).Registered :=
  registered.of_same rfl rfl rfl rfl rfl

theorem Registered.leave :
    (world.leave thread).Registered :=
  registered.of_same rfl rfl rfl rfl rfl

theorem Registered.look :
    (world.look thread room signalPending).Registered := by
  unfold PollWorld.look
  dsimp only
  split
  · exact registered.of_same (map_checkFds fun _ _ => rfl)
      (map_checkFds fun _ _ => rfl) rfl rfl rfl
  · exact registered.of_same (map_checkFds fun _ _ => rfl)
      (map_checkFds fun _ _ => rfl) rfl rfl rfl

end

/-- The entry into a wait, up to its first look. -/
theorem beginWait_cases
    {piped : Bool}
    (run : world.beginWait thread room piped signalPending = some next) :
    next = world ∨
      ∃ pipe,
        next = look { world with
          waiters := world.waiters + 1
          notifyPipe := pipe } thread room signalPending ∧
        ((world.waiters = 0 ∧ pipe = some 0) ∨
          (0 < world.waiters ∧ pipe = world.notifyPipe)) := by
  unfold beginWait at run
  by_cases isFirst : world.waiters = 0
  · rw [if_pos isFirst] at run
    split at run
    · cases run
    · split at run
      · cases run
        exact .inl rfl
      · cases run
        refine .inr ⟨some 0, ?_, .inl ⟨isFirst, rfl⟩⟩
        rw [isFirst]
  · rw [if_neg isFirst] at run
    cases run
    exact .inr ⟨_, rfl, .inr ⟨Nat.pos_of_ne_zero isFirst, rfl⟩⟩

/-- What a step finds in the world, and the world that it leaves. -/
inductive Makes (host : PollHost) (world : PollWorld) :
    PollStep → PollWorld → Prop
  | add (fd types info allocated hostError) :
      Makes host world (.add fd types info allocated hostError)
        (world.pollAddFd host fd types info allocated hostError).2
  | del (fd hostError) :
      Makes host world (.del fd hostError) (world.pollDelFd host fd hostError).2
  | mod (fd types info hostError) :
      Makes host world (.mod fd types info hostError)
        (world.pollModFd host fd types info hostError).2
  | cleanup (fd) : Makes host world (.cleanup fd) (world.pollCleanupFd fd)
  | change (fd ready) :
      Makes host world (.change fd ready)
        { world with ready := update world.ready fd ready }
  | raise (thread fd gained events)
      (isOut : world.threads thread = .out)
      (isTold : gained &&& ~~~events = 0#32) :
      Makes host world (.raise thread fd gained events)
        (setThread { world with
          ready := update world.ready fd (world.ready fd ||| gained) }
          thread (.raised fd events))
  | beginWakeup (thread fd events)
      (isRaised : world.threads thread = .raised fd events) :
      Makes host world (.beginWakeup thread)
        (setThread { world with
          fdOwner := update world.fdOwner fd (some thread) }
          thread (.waking fd events
            ((world.fds.filter fun pollFd => pollFd.fd = fd).map
              PollFd.slot)))
  | wakeNext (thread fd events slot left)
      (isWaking : world.threads thread = .waking fd events (slot :: left)) :
      Makes host world (.wakeNext thread)
        ((world.wakeSlot host slot events).setThread thread
          (.waking fd events left))
  | endWakeup (thread fd events)
      (isWaking : world.threads thread = .waking fd events []) :
      Makes host world (.endWakeup thread)
        (setThread { world with
          fdOwner := update world.fdOwner fd none } thread .out)
  | noPipe (thread room piped signalPending) :
      Makes host world (.beginWait thread room piped signalPending) world
  | beginWait (thread room piped signalPending pipe)
      (isOut : world.threads thread = .out)
      (hasRoom : 0 < room)
      (fromPipe :
        (world.waiters = 0 ∧ pipe = some 0) ∨
          (0 < world.waiters ∧ pipe = world.notifyPipe)) :
      Makes host world (.beginWait thread room piped signalPending)
        (look { world with
          waiters := world.waiters + 1
          notifyPipe := pipe } thread room signalPending)
  | hostReturn (thread room result)
      (isWaiting : world.threads thread = .waiting room)
      (fromHost :
        ∀ events, result = .events events →
          events.all (PollStep.isFromHost host world) = true) :
      Makes host world (.hostReturn thread result)
        (world.setThread thread (.returned room result))
  | resume (thread room result signalPending)
      (isReturned : world.threads thread = .returned room result) :
      Makes host world (.resume thread signalPending)
        (world.resume thread room result signalPending)

/-- Every step is one of these. -/
theorem makes_of_run
    {step : PollStep}
    (run : step.run host world = some next) :
    world.Makes host step next := by
  cases step with
  | add | del | mod | cleanup =>
    simp only [PollStep.run, Option.ite_none_right_eq_some] at run
    obtain ⟨_, result⟩ := run
    cases result
    constructor
  | change =>
    cases run
    exact .change ..
  | raise =>
    simp only [PollStep.run, Option.ite_none_right_eq_some] at run
    obtain ⟨⟨isOut, isTold⟩, result⟩ := run
    cases result
    exact .raise _ _ _ _ isOut isTold
  | beginWakeup =>
    dsimp only [PollStep.run] at run
    split at run
    case h_2 => cases run
    case h_1 isRaised =>
      rw [Option.ite_none_right_eq_some] at run
      obtain ⟨_, result⟩ := run
      cases result
      exact .beginWakeup _ _ _ isRaised
  | wakeNext =>
    dsimp only [PollStep.run] at run
    split at run
    case h_2 => cases run
    case h_1 isWaking =>
      cases run
      exact .wakeNext _ _ _ _ _ isWaking
  | endWakeup =>
    dsimp only [PollStep.run] at run
    split at run
    case h_2 => cases run
    case h_1 isWaking =>
      cases run
      exact .endWakeup _ _ _ isWaking
  | beginWait =>
    simp only [PollStep.run, Option.ite_none_right_eq_some] at run
    obtain ⟨⟨isOut, hasRoom⟩, run⟩ := run
    rcases beginWait_cases run with same | ⟨pipe, same, fromPipe⟩
    · rw [same]
      exact .noPipe ..
    · rw [same]
      exact .beginWait _ _ _ _ pipe isOut hasRoom fromPipe
  | hostReturn =>
    dsimp only [PollStep.run] at run
    split at run
    case h_2 => cases run
    case h_1 isWaiting =>
      split at run
      case h_1 =>
        rw [Option.ite_none_right_eq_some] at run
        obtain ⟨⟨_, fromHost⟩, result⟩ := run
        cases result
        refine .hostReturn _ _ _ isWaiting ?_
        rintro _ ⟨⟩
        exact fromHost
      case h_2 noEvents =>
        cases run
        exact .hostReturn _ _ _ isWaiting fun events isEvents =>
          (noEvents events isEvents).elim
  | resume =>
    dsimp only [PollStep.run] at run
    split at run
    case h_2 => cases run
    case h_1 isReturned =>
      cases run
      exact .resume _ _ _ _ isReturned

theorem Registered.step
    {step : PollStep}
    (registered : world.Registered)
    (run : step.run host world = some next) :
    next.Registered := by
  cases makes_of_run run with
  | add =>
    exact registered.pollAddFd
  | del fd hostError =>
    unfold pollDelFd
    split
    · exact registered
    case h_2 pollFd isFound =>
      split
      · exact registered
      · have isMember := List.mem_of_find?_eq_some isFound
        have removed :=
          registered.of_removed fun other => other.slot = pollFd.slot
        rw [registered.filter_slot isMember] at removed
        exact removed
  | mod fd types info hostError =>
    unfold pollModFd
    split
    · exact registered
    · split
      · exact registered
      · exact registered.of_same (map_modifySlot fun _ => rfl)
          (map_modifySlot fun _ => rfl) rfl rfl rfl
  | cleanup fd =>
    exact registered.of_removed fun pollFd => pollFd.fd = fd
  | change | raise | beginWakeup | endWakeup =>
    exact registered.of_same rfl rfl rfl rfl rfl
  | wakeNext =>
    exact registered.of_same
      (map_modifySlot fun pollFd => (keep_untrigger pollFd _).1)
      (map_modifySlot fun pollFd => (keep_untrigger pollFd _).2)
      rfl rfl rfl
  | noPipe =>
    exact registered
  | beginWait =>
    apply Registered.look
    exact registered.of_same rfl rfl rfl rfl rfl
  | hostReturn =>
    exact registered.setThread
  | resume =>
    unfold PollWorld.resume
    split
    · exact registered.leave
    · exact registered.leave
    · obtain ⟨fds, log, applied, slots, serials⟩ := world.applyEvents_eq _
      rw [applied]
      apply Registered.look
      exact registered.of_same slots serials rfl rfl rfl

end PollWorld

end GuestKernel
