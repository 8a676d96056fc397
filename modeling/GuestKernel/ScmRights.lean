import GuestKernel.KernelNumbers
import GuestKernel.Machine
import Mathlib.Data.List.Count

namespace GuestKernel
open List Option

/-!
# Descriptors sent over a unix socket

`sys_sendmsg` and `sys_recvmsg` of `fs/sock.c`, for one direction of a socket
pair.  The data goes through the host socket, with a control message that holds
a dummy descriptor; the descriptors go through `unix_scm` of the receiving
socket.  The host keeps the order, and a receive ends before the next control
message, so it takes at most one, in front of its data.
-/

/-- The identity of one `struct scm`. -/
abbrev ScmId := Nat

/-- What lies in the host socket. -/
inductive HostItem where
  | control (scm : ScmId)
  | data (message : Option ScmId)
  deriving Repr, DecidableEq

/-- The control message of an item. -/
def HostItem.control? : HostItem → Option ScmId
  | control scm => some scm
  | data _ => none

/-- A call of `sys_recvmsg` between the host's `recvmsg` and the queue. -/
structure ScmReceive where
  call : Nat
  scm : ScmId
  took : List HostItem
  deriving Repr, DecidableEq

/--
The queue and the host socket of the receiving end, the calls of both ends that
are under way, and what became of the descriptors: of each `struct scm` that a
call installed, with what the call took from the host, and of each freed one.
-/
structure ScmWorld where
  attached : ScmId → List FdId
  nextScm : ScmId
  isOpen : Bool
  queue : List ScmId
  host : List HostItem
  sending : List ScmId
  receiving : List ScmReceive
  installed : List (List HostItem × ScmId)
  freed : List ScmId

/-- Steps of senders, of receivers, and the close of the receiving end. -/
inductive ScmStep where
  /-- `sys_sendmsg` with descriptors, up to the host's `sendmsg`. -/
  | push (fds : List FdId)
  /-- The host takes the control message and some bytes. -/
  | hostSend (scm : ScmId) (size : Nat)
  /-- The flags are wrong or the host returns an error: `out_free_scm`. -/
  | sendFails (scm : ScmId)
  /-- A send without descriptors. -/
  | sendPlain (size : Nat)
  /--
  The host's `recvmsg` of `sys_recvmsg`, with or without a control buffer, and
  the copy of the data to the guest.
  -/
  | recvmsg (call taken : Nat) (peek control writable : Bool)
  /-- `sock_read` or `sys_recvfrom`. -/
  | recvPlain (taken : Nat) (peek : Bool)
  /-- `sys_recvmsg` takes the first of the queue. -/
  | pop (call : Nat)
  /-- `sock_close`. -/
  | close

namespace ScmWorld

/-- A new pair. -/
def empty : ScmWorld where
  attached := fun _ => []
  nextScm := 0
  isOpen := true
  queue := []
  host := []
  sending := []
  receiving := []
  installed := []
  freed := []

/-- The control messages in the host socket, in order. -/
def controls (host : List HostItem) : List ScmId :=
  host.filterMap HostItem.control?

/--
The data of a message with descriptors stands behind its control message, with
no other one between; `owner` is the last control message before the list.
-/
def Behind : Option ScmId → List HostItem → Prop
  | _, [] => True
  | _, .control scm :: rest => Behind (some scm) rest
  | owner, .data none :: rest => Behind owner rest
  | owner, .data (some message) :: rest =>
    (∀ scm, owner = some scm → message = scm) ∧ Behind owner rest

/-- The host may return so much at once. -/
def MayTake (world : ScmWorld) (taken : Nat) : Prop :=
  world.isOpen = true ∧ taken ≤ world.host.length ∧
    controls (world.host.take taken).tail = []

instance (world : ScmWorld) (taken : Nat) : Decidable (world.MayTake taken) :=
  inferInstanceAs (Decidable (_ ∧ _ ∧ _))

/-- What is left of the host socket; a peek leaves all. -/
def hostAfter (world : ScmWorld) (taken : Nat) (peek : Bool) : List HostItem :=
  if peek then world.host else world.host.drop taken

/-- The control message that a receive reports, if it has a buffer for it. -/
def reports (world : ScmWorld) (taken : Nat) : Option ScmId :=
  (world.host.take taken).head?.bind HostItem.control?

/-- One step. -/
def run (world : ScmWorld) : ScmStep → Option ScmWorld
  | .push fds =>
    let pushed :=
      { world with
        attached := fun scm =>
          if scm = world.nextScm then fds else world.attached scm
        nextScm := world.nextScm + 1 }
    if world.isOpen then
      some
        { pushed with
          queue := world.queue ++ [world.nextScm]
          sending := world.sending ++ [world.nextScm] }
    else
      -- without a peer the descriptors are released at once
      some { pushed with freed := world.nextScm :: world.freed }
  | .hostSend scm size =>
    if scm ∈ world.sending then
      some
        { world with
          sending := world.sending.erase scm
          host :=
            if world.isOpen then
              world.host ++
                .control scm :: List.replicate size (.data (some scm))
            else
              world.host }
    else
      none
  | .sendFails scm =>
    if scm ∈ world.sending then
      some
        { world with
          sending := world.sending.erase scm
          queue :=
            if world.isOpen then world.queue.erase scm else world.queue
          freed := scm :: world.freed }
    else
      none
  | .sendPlain size =>
    if world.isOpen then
      some
        { world with
          host := world.host ++ List.replicate size (.data none) }
    else
      some world
  | .recvmsg call taken peek control writable =>
    if world.MayTake taken then
      let after := { world with host := world.hostAfter taken peek }
      match world.reports taken with
      | some scm =>
        if control && writable then
          some
            { after with
              receiving :=
                world.receiving ++ [⟨call, scm, world.host.take taken⟩] }
        else
          some after
      | none => some after
    else
      none
  | .recvPlain taken peek =>
    if world.MayTake taken then
      some { world with host := world.hostAfter taken peek }
    else
      none
  | .pop call =>
    match world.receiving.find? (·.call == call), world.queue with
    | some receive, scm :: rest =>
      some
        { world with
          queue := rest
          receiving := world.receiving.erase receive
          installed := (receive.took, scm) :: world.installed }
    | _, _ => none
  | .close =>
    if world.isOpen = true ∧ world.receiving = [] then
      some
        { world with
          isOpen := false
          queue := []
          host := []
          freed := world.queue ++ world.freed }
    else
      none

end ScmWorld

/-- What was taken is the control message of these descriptors and its data. -/
def Carries (took : List HostItem) (scm : ScmId) : Prop :=
  took.head? = some (.control scm) ∧
    ∀ other, HostItem.data (some other) ∈ took → other = scm

/--
A call installs the descriptors of the message whose control message and data it
took; each `struct scm` is in the queue, installed or freed, and once; and a call
that was told of descriptors finds the queue filled.
-/
structure ScmLaw (world : ScmWorld) : Prop where
  own : ∀ took scm, (took, scm) ∈ world.installed → Carries took scm
  once :
    ∀ scm,
      world.queue.count scm + (world.installed.map Prod.snd).count scm +
          world.freed.count scm =
        if scm < world.nextScm then 1 else 0
  filled : ∀ receive ∈ world.receiving, world.queue ≠ []

/--
The steps that keep the queue and the host socket in step.  The host takes the
messages in the order of the queue, and calls take from the queue in the order
in which the host told them; no send fails after the close; and a control
message is taken by a `recvmsg` that has a buffer for it, does not peek and can
copy its data.
-/
def InStep (world : ScmWorld) : ScmStep → Prop
  | .hostSend scm _ =>
    world.isOpen = true → world.sending.head? = some scm
  | .sendFails _ => world.isOpen = true
  | .recvmsg _ taken peek control writable =>
    world.reports taken ≠ none →
      (if control && writable then peek = false else peek = true)
  | .recvPlain taken peek => world.reports taken ≠ none → peek = true
  | .pop call => world.receiving.head?.map ScmReceive.call = some call
  | _ => True

/-- The queue is what is told, in the host socket and being sent. -/
structure ScmInvariant (world : ScmWorld) : Prop where
  matched :
    world.isOpen = true →
      world.queue =
        world.receiving.map ScmReceive.scm ++
          ScmWorld.controls world.host ++ world.sending
  closed : world.isOpen = false → world.queue = [] ∧ world.receiving = []
  behind : ScmWorld.Behind none world.host
  told : ∀ receive ∈ world.receiving, Carries receive.took receive.scm
  own : ∀ took scm, (took, scm) ∈ world.installed → Carries took scm
  once :
    ∀ scm,
      world.queue.count scm + (world.installed.map Prod.snd).count scm +
          world.freed.count scm =
        if scm < world.nextScm then 1 else 0

namespace ScmInvariant

open ScmWorld

variable {world next : ScmWorld}

theorem law
    (invariant : ScmInvariant world) :
    ScmLaw world where
  own := invariant.own
  once := invariant.once
  filled := by
    intro receive isReceive
    cases isOpen : world.isOpen with
    | false =>
      rw [(invariant.closed isOpen).2] at isReceive
      cases isReceive
    | true =>
      rw [invariant.matched isOpen]
      intro isNil
      have noReceive :=
        (append_eq_nil_iff.mp (append_eq_nil_iff.mp isNil).1).1
      rw [map_eq_nil_iff] at noReceive
      rw [noReceive] at isReceive
      cases isReceive

theorem empty : ScmInvariant ScmWorld.empty where
  matched _ := rfl
  closed _ := ⟨rfl, rfl⟩
  behind := trivial
  told := fun _ isReceive => by cases isReceive
  own := fun _ _ isInstalled => by cases isInstalled
  once := fun _ => rfl

theorem count_queue_le
    (invariant : ScmInvariant world)
    (scm : ScmId) :
    world.queue.count scm ≤ 1 := by
  have once := invariant.once scm
  split at once
  · omega
  · omega

theorem controls_append
    (first second : List HostItem) :
    controls (first ++ second) = controls first ++ controls second :=
  filterMap_append

theorem controls_data
    (size : Nat)
    (message : Option ScmId) :
    controls (List.replicate size (.data message)) = [] := by
  rw [controls, filterMap_eq_nil_iff]
  intro item isItem
  rw [eq_of_mem_replicate isItem]
  rfl

variable {host : List HostItem} {scm : ScmId} {taken : Nat}
  {owner : Option ScmId}

/-- Less need be known of the control message before a list. -/
theorem Behind.weaken
    (behind : Behind owner host) :
    Behind none host := by
  induction host with
  | nil => trivial
  | cons item rest inductionHypothesis =>
    cases item with
    | control scm => exact behind
    | data message =>
      cases message with
      | none => exact inductionHypothesis behind
      | some message =>
        refine ⟨?_, inductionHypothesis behind.2⟩
        intro scm isSome
        cases isSome

/-- What is left after some was taken. -/
theorem Behind.drop
    (behind : Behind owner host)
    (taken : Nat) :
    Behind none (host.drop taken) := by
  induction taken generalizing owner host with
  | zero => exact Behind.weaken behind
  | succ taken inductionHypothesis =>
    cases host with
    | nil => trivial
    | cons item rest =>
      cases item with
      | control scm => exact inductionHypothesis behind
      | data message =>
        cases message with
        | none => exact inductionHypothesis behind
        | some message => exact inductionHypothesis behind.2

theorem Behind.append
    {more : List HostItem}
    (behind : Behind owner host)
    (anyOwner : ∀ owner, Behind owner more) :
    Behind owner (host ++ more) := by
  induction host generalizing owner with
  | nil => exact anyOwner owner
  | cons item rest inductionHypothesis =>
    cases item with
    | control scm => exact inductionHypothesis behind
    | data message =>
      cases message with
      | none => exact inductionHypothesis behind
      | some message => exact ⟨behind.1, inductionHypothesis behind.2⟩

theorem Behind.plain
    (size : Nat)
    (owner : Option ScmId) :
    Behind owner (List.replicate size (.data none)) := by
  induction size with
  | zero => trivial
  | succ size inductionHypothesis => exact inductionHypothesis

theorem Behind.message
    (scm : ScmId)
    (size : Nat) :
    Behind (some scm) (List.replicate size (.data (some scm))) := by
  induction size with
  | zero => trivial
  | succ size inductionHypothesis =>
    exact ⟨fun _ isOwner => some.inj isOwner, inductionHypothesis⟩

/-- Data before the next control message is of the message of the last one. -/
theorem Behind.owned
    {other : ScmId}
    (behind : Behind (some scm) host)
    (taken : Nat)
    (noControl : controls (host.take taken) = [])
    (isData : HostItem.data (some other) ∈ host.take taken) :
    other = scm := by
  induction taken generalizing host with
  | zero => cases isData
  | succ taken inductionHypothesis =>
    cases host with
    | nil => cases isData
    | cons item rest =>
      rw [take_succ_cons] at noControl isData
      cases item with
      | control next => cases noControl
      | data message =>
        have noControl : controls (rest.take taken) = [] := noControl
        have isLater : message = some other ∨
            HostItem.data (some other) ∈ rest.take taken := by
          rcases mem_cons.mp isData with same | isLater
          · exact .inl (HostItem.data.inj same).symm
          · exact .inr isLater
        cases message with
        | none =>
          have behind : Behind (some scm) rest := behind
          rcases isLater with same | isLater
          · cases same
          · exact inductionHypothesis behind noControl isLater
        | some message =>
          rcases isLater with same | isLater
          · cases same
            exact behind.1 scm rfl
          · exact inductionHypothesis behind.2 noControl isLater

/-- A receive that reports descriptors takes their message. -/
theorem carries
    (invariant : ScmInvariant world)
    (mayTake : world.MayTake taken)
    (isReport : world.reports taken = some scm) :
    Carries (world.host.take taken) scm := by
  obtain ⟨item, isHead, isControl⟩ := bind_eq_some_iff.mp isReport
  have noOther := mayTake.2.2
  have behind := invariant.behind
  cases item with
  | data message => cases isControl
  | control first =>
    cases isControl
    refine ⟨isHead, ?_⟩
    intro other isData
    cases host : world.host with
    | nil =>
      rw [host, take_nil] at isHead
      cases isHead
    | cons item rest =>
      cases taken with
      | zero => cases isHead
      | succ taken =>
        rw [host, take_succ_cons] at isHead noOther isData
        cases isHead
        rw [host] at behind
        rcases mem_cons.mp isData with isFirst | isLater
        · cases isFirst
        · exact Behind.owned behind taken noOther isLater

/-- A receive takes the control message that it reports and no other. -/
theorem controls_split
    (mayTake : world.MayTake taken) :
    controls world.host =
      (world.reports taken).toList ++ controls (world.host.drop taken) := by
  conv_lhs => rw [← take_append_drop taken world.host, controls_append]
  congr 1
  have noOther := mayTake.2.2
  unfold reports
  cases isTaken : world.host.take taken with
  | nil => rfl
  | cons item rest =>
    rw [isTaken, tail_cons] at noOther
    cases item with
    | control scm =>
      rw [controls, filterMap_cons] at *
      simp only [HostItem.control?, List.head?_cons, bind_some,
        toList_some]
      exact congrArg (scm :: ·) noOther
    | data message => exact noOther

section

variable (invariant : ScmInvariant world)
include invariant

/-- A new `struct scm` is in no list yet. -/
theorem count_push
    (scm : ScmId) :
    world.queue.count scm + (world.installed.map Prod.snd).count scm +
          world.freed.count scm +
        (if world.nextScm = scm then 1 else 0) =
      if scm < world.nextScm + 1 then 1 else 0 := by
  rw [invariant.once scm]
  rcases Nat.lt_trichotomy scm world.nextScm with isOld | isNew | isLater
  · rw [if_pos isOld, if_pos (Nat.lt_succ_of_lt isOld),
      if_neg (Nat.ne_of_gt isOld)]
  · rw [if_pos isNew.symm, if_neg (Nat.not_lt.mpr (Nat.le_of_eq isNew.symm)),
      if_pos (Nat.lt_succ_of_le (Nat.le_of_eq isNew))]
  · rw [if_neg (Nat.ne_of_lt isLater),
      if_neg (Nat.not_lt.mpr (Nat.le_of_lt isLater)), if_neg (Nat.not_lt.mpr isLater)]

/-- A send with descriptors begins. -/
theorem push
    {fds : List FdId}
    (step : world.run (.push fds) = some next) :
    ScmInvariant next := by
  simp only [run] at step
  split at step
  case isTrue isOpen =>
    cases step
    exact {
      matched := fun _ => by
        dsimp only
        rw [invariant.matched isOpen, append_assoc]
      closed := fun isClosed => by
        dsimp only at isClosed
        rw [isOpen] at isClosed
        cases isClosed
      behind := invariant.behind
      told := invariant.told
      own := invariant.own
      once := fun scm => by
        have count := invariant.count_push scm
        dsimp only
        rw [count_append, count_singleton]
        simp only [beq_iff_eq]
        omega }
  case isFalse isClosed =>
    cases step
    exact {
      matched := fun isOpen => absurd isOpen isClosed
      closed := invariant.closed
      behind := invariant.behind
      told := invariant.told
      own := invariant.own
      once := fun scm => by
        have count := invariant.count_push scm
        dsimp only
        rw [count_cons]
        simp only [beq_iff_eq]
        omega }

/-- The host takes the first of the messages under way. -/
theorem hostSend
    {size : Nat}
    (inStep : InStep world (.hostSend scm size))
    (step : world.run (.hostSend scm size) = some next) :
    ScmInvariant next := by
  simp only [run] at step
  split at step
  case isFalse => cases step
  case isTrue isSending =>
    cases step
    refine { invariant with matched := ?_, behind := ?_ }
    · intro isOpen
      dsimp only at isOpen ⊢
      rw [if_pos isOpen, invariant.matched isOpen]
      have isFirst := inStep isOpen
      cases sending : world.sending with
      | nil =>
        rw [sending] at isFirst
        cases isFirst
      | cons first rest =>
        rw [sending] at isFirst
        cases isFirst
        rw [erase_cons_head, controls_append, controls, controls,
          filterMap_cons]
        simp only [HostItem.control?]
        rw [show List.filterMap HostItem.control?
          (List.replicate size (.data (some scm))) = [] from
            controls_data size (some scm)]
        simp only [append_assoc, cons_append, nil_append]
    · dsimp only
      split
      · exact Behind.append invariant.behind fun _ => Behind.message scm size
      · exact invariant.behind

/-- A send that fails takes its descriptors back. -/
theorem sendFails
    (isOpen : world.isOpen = true)
    (step : world.run (.sendFails scm) = some next) :
    ScmInvariant next := by
  simp only [run] at step
  split at step
  case isFalse => cases step
  case isTrue isSending =>
    cases step
    have inQueue : scm ∈ world.queue := by
      rw [invariant.matched isOpen]
      exact mem_append_right _ isSending
    have notBefore :
        scm ∉ world.receiving.map ScmReceive.scm ++ controls world.host := by
      intro isBefore
      have atMost := invariant.count_queue_le scm
      rw [invariant.matched isOpen, count_append] at atMost
      have before := count_pos_iff.mpr isBefore
      have under := count_pos_iff.mpr isSending
      omega
    refine { invariant with matched := ?_, closed := ?_, once := ?_ }
    · intro _
      dsimp only
      rw [invariant.matched isOpen, erase_append_right _ notBefore]
    · intro isClosed
      dsimp only at isClosed
      rw [isOpen] at isClosed
      cases isClosed
    · intro other
      have once := invariant.once other
      dsimp only
      rw [count_erase, count_cons]
      have positive := count_pos_iff.mpr inQueue
      by_cases same : scm = other
      · subst same
        simp only [beq_self_eq_true, if_true]
        omega
      · simp only [beq_iff_eq, same, if_false]
        omega

/-- A call takes the first of the queue. -/
theorem pop
    {call : Nat}
    (inStep : InStep world (.pop call))
    (step : world.run (.pop call) = some next) :
    ScmInvariant next := by
  obtain ⟨receive, isFirst, isCall⟩ := map_eq_some_iff.mp inStep
  cases receiving : world.receiving with
  | nil =>
    rw [receiving] at isFirst
    cases isFirst
  | cons first rest =>
    rw [receiving] at isFirst
    cases isFirst
    have isOpen : world.isOpen = true := by
      cases isOpen : world.isOpen with
      | true => rfl
      | false =>
        have noReceive := (invariant.closed isOpen).2
        rw [receiving] at noReceive
        cases noReceive
    have matched := invariant.matched isOpen
    rw [receiving, map_cons, cons_append, cons_append]
      at matched
    have found :
        (receive :: rest).find? (·.call == call) = some receive :=
      List.find?_cons_of_pos (by simpa using isCall)
    simp only [run, receiving, matched, found, erase_cons_head] at step
    cases step
    exact {
      matched := fun _ => rfl
      closed := fun isClosed => by
        dsimp only at isClosed
        rw [isOpen] at isClosed
        cases isClosed
      behind := invariant.behind
      told := fun other isOther =>
        invariant.told other (receiving ▸ mem_cons_of_mem _ isOther)
      own := by
        intro took scm isInstalled
        rcases mem_cons.mp isInstalled with same | isOld
        · cases same
          exact invariant.told receive
            (receiving ▸ mem_cons_self)
        · exact invariant.own took scm isOld
      once := by
        intro scm
        have once := invariant.once scm
        rw [matched, count_cons] at once
        rw [map_cons, count_cons]
        dsimp only
        omega }

end

/-- What the host socket still holds after a receive that is in step. -/
theorem hostAfter
    {peek : Bool}
    (mayTake : world.MayTake taken)
    (spares : world.reports taken ≠ none → peek = true) :
    controls (world.hostAfter taken peek) = controls world.host := by
  unfold ScmWorld.hostAfter
  cases peek with
  | true => rfl
  | false =>
    have isNone : world.reports taken = none := by
      by_contra isSome
      cases spares isSome
    have split := controls_split mayTake
    rw [isNone] at split
    exact split.symm

theorem behind_after
    (invariant : ScmInvariant world)
    (taken : Nat)
    (peek : Bool) :
    Behind none (world.hostAfter taken peek) := by
  unfold ScmWorld.hostAfter
  cases peek with
  | true => exact invariant.behind
  | false => exact Behind.drop invariant.behind taken

theorem setHost
    (invariant : ScmInvariant world)
    (sameControls : controls host = controls world.host)
    (behind : Behind none host) :
    ScmInvariant { world with host := host } :=
  { invariant with
    behind := behind
    matched := fun isOpen => by
      dsimp only at isOpen ⊢
      rw [sameControls]
      exact invariant.matched isOpen }

/-- A `recvmsg` is told of descriptors, or takes data alone. -/
theorem recvmsg
    {call : Nat}
    {peek control writable : Bool}
    (invariant : ScmInvariant world)
    (inStep : InStep world (.recvmsg call taken peek control writable))
    (step :
      world.run (.recvmsg call taken peek control writable) = some next) :
    ScmInvariant next := by
  simp only [run] at step
  split at step
  case isFalse => cases step
  case isTrue mayTake =>
    cases isReport : world.reports taken with
    | none =>
      simp only [isReport] at step
      cases step
      exact invariant.setHost
        (hostAfter mayTake fun isSome => absurd isReport isSome)
        (invariant.behind_after taken peek)
    | some scm =>
      simp only [isReport] at step
      have told := inStep (by rw [isReport]; exact some_ne_none scm)
      split at step
      case isFalse ignored =>
        cases step
        rw [if_neg ignored] at told
        exact invariant.setHost (hostAfter mayTake fun _ => told)
          (invariant.behind_after taken peek)
      case isTrue reads =>
        cases step
        rw [if_pos reads] at told
        have split := controls_split mayTake
        rw [isReport, toList_some] at split
        exact { invariant with
          matched := fun isOpen => by
            dsimp only at isOpen ⊢
            rw [invariant.matched isOpen, split, ScmWorld.hostAfter, told]
            simp
          closed := fun isClosed => by
            have isOpen := mayTake.1
            dsimp only at isClosed
            rw [isOpen] at isClosed
            cases isClosed
          told := by
            intro receive isReceive
            rcases mem_append.mp isReceive with isOld | isNew
            · exact invariant.told receive isOld
            · rw [mem_singleton.mp isNew]
              exact invariant.carries mayTake isReport
          behind := invariant.behind_after taken peek }

theorem step
    {action : ScmStep}
    (invariant : ScmInvariant world)
    (inStep : InStep world action)
    (taken : world.run action = some next) :
    ScmInvariant next := by
  cases action with
  | push fds => exact invariant.push taken
  | hostSend scm size => exact invariant.hostSend inStep taken
  | sendFails scm => exact invariant.sendFails inStep taken
  | sendPlain size =>
    simp only [run] at taken
    split at taken
    · cases taken
      refine invariant.setHost ?_
        (Behind.append invariant.behind (Behind.plain size))
      rw [controls_append, controls_data, append_nil]
    · cases taken
      exact invariant
  | recvmsg call size peek control writable =>
    exact invariant.recvmsg inStep taken
  | recvPlain size peek =>
    simp only [run] at taken
    split at taken
    case isFalse => cases taken
    case isTrue mayTake =>
      cases taken
      exact invariant.setHost (hostAfter mayTake inStep)
        (invariant.behind_after size peek)
  | pop call => exact invariant.pop inStep taken
  | close =>
    simp only [run] at taken
    split at taken
    case isFalse => cases taken
    case isTrue idle =>
      cases taken
      exact { invariant with
        matched := fun isOpen => by cases isOpen
        closed := fun _ => ⟨rfl, idle.2⟩
        behind := trivial
        once := fun scm => by
          have once := invariant.once scm
          dsimp only
          rw [count_nil, count_append]
          omega }

end ScmInvariant

namespace ScmWorld

end ScmWorld

end GuestKernel
