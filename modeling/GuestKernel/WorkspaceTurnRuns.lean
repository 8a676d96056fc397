import GuestKernel.WorkspaceTurns

namespace CodexPad
open List Option Function

open GuestKernel

/-!
# No finished turn comes back

A response is taken only when no notification of its thread was handled since
the request.  What it reports was not over then, so it is no earlier than any
turn the workspace has heard of.
-/

/-- The turn from which on a thread's turns may still be heard of. -/
def TurnNotification.next (notification : TurnNotification) : Nat :=
  match notification.event with
  | .started => notification.turn
  | .completed => notification.turn + 1

/--
The notifications of one thread that are under way tell of its turns in their
order, from one turn to the turn it is at.
-/
def InOrder (thread : String) (finished : Nat) :
    Nat → List TurnNotification → Prop
  | low, [] => low ≤ finished
  | low, notification :: later =>
    if notification.thread = thread then
      low ≤ notification.turn ∧
        InOrder thread finished notification.next later
    else
      InOrder thread finished low later

namespace InOrder

variable {thread : String} {finished low : Nat}
  {notifications : List TurnNotification}

section

variable (inOrder : InOrder thread finished low notifications)
include inOrder

/-- A turn starts to be heard of no later than the thread is at it. -/
theorem le_over :
    low ≤ finished := by
  induction notifications generalizing low with
  | nil =>
    exact inOrder
  | cons notification later inductionHypothesis =>
    rw [InOrder] at inOrder
    split at inOrder
    · have atMost := inductionHypothesis inOrder.2
      have : notification.turn ≤ notification.next := by
        unfold TurnNotification.next
        split <;> omega
      omega
    · exact inductionHypothesis inOrder

/-- The thread goes on to a later turn. -/
theorem mono
    {laterOver : Nat}
    (isLater : finished ≤ laterOver) :
    InOrder thread laterOver low notifications := by
  induction notifications generalizing low with
  | nil =>
    exact Nat.le_trans inOrder isLater
  | cons notification later inductionHypothesis =>
    rw [InOrder] at inOrder ⊢
    split at inOrder
    · rename_i isOwn
      rw [if_pos isOwn]
      exact ⟨inOrder.1, inductionHypothesis inOrder.2⟩
    · rename_i isOther
      rw [if_neg isOther]
      exact inductionHypothesis inOrder

/-- The next notification tells of the turn that the thread is at. -/
theorem append
    {notification : TurnNotification}
    {nextOver : Nat}
    (isOwn :
      notification.thread = thread →
      notification.turn = finished ∧ notification.next ≤ nextOver)
    (isLater : finished ≤ nextOver) :
    InOrder thread nextOver low (notifications ++ [notification]) := by
  induction notifications generalizing low with
  | nil =>
    rw [nil_append, InOrder]
    split
    · rename_i own
      obtain ⟨isCurrent, isNext⟩ := isOwn own
      exact ⟨by rw [isCurrent]; exact inOrder, isNext⟩
    · exact Nat.le_trans inOrder isLater
  | cons head later inductionHypothesis =>
    rw [cons_append, InOrder]
    rw [InOrder] at inOrder
    split at inOrder
    · rename_i own
      rw [if_pos own]
      exact ⟨inOrder.1, inductionHypothesis inOrder.2⟩
    · rename_i other
      rw [if_neg other]
      exact inductionHypothesis inOrder

end

end InOrder

/--
`turn` is no earlier than what was heard of its thread: it was not said to be
completed, and no later turn was said to have started.
-/
structure IsRecent (started completed : List Nat) (turn : Nat) : Prop where
  notCompleted : turn ∉ completed
  latest : ∀ later ∈ started, later ≤ turn

variable {request : TurnRequest}

/-- What a response makes the active turn was not over at its request. -/
theorem TurnRequest.IsHonest.over_le
    {created turn : Nat}
    {turns : List TurnReport}
    (isHonest : request.IsHonest created turns)
    (isActive : request.kind.activeTurn turns = some turn) :
    request.finished ≤ turn := by
  cases isKind : request.kind with
  | turnStart =>
    rw [isKind] at isActive
    obtain ⟨report, isHead, isTaken⟩ := bind_eq_some_iff.mp isActive
    split at isTaken
    · cases isTaken
    · cases isTaken
      exact (isHonest report (List.mem_of_mem_head? isHead)
        fun isResume => absurd (isKind.symm.trans isResume) (by decide)).1
  | reviewStart =>
    rw [isKind] at isActive
    obtain ⟨report, isHead, rfl⟩ := map_eq_some_iff.mp isActive
    exact (isHonest report (List.mem_of_mem_head? isHead)
      fun isResume => absurd (isKind.symm.trans isResume) (by decide)).1
  | threadResume =>
    rw [isKind] at isActive
    obtain ⟨report, isLast, rfl⟩ := map_eq_some_iff.mp isActive
    obtain ⟨isReported, isRunning⟩ :=
      mem_filter.mp (List.mem_of_getLast? isLast)
    exact (isHonest report isReported fun _ => eq_of_beq isRunning).1

/-- An active turn was active before the response, or the response made it so. -/
theorem TurnTracking.responded_activeTurns
    {tracking : TurnTracking}
    {turns : Option (List TurnReport)}
    {thread : String}
    {turn : Nat}
    (isActive :
      (tracking.responded request turns).activeTurns thread = some turn) :
    tracking.activeTurns thread = some turn ∨
      ∃ reported ∈ turns,
        thread = request.thread ∧
          tracking.turnRevisions request.thread = request.revision ∧
          request.kind.activeTurn reported = some turn := by
  have sameTurns :
      (tracking.responded request turns).activeTurns =
        turns.elim tracking.activeTurns (tracking.taken request) := by
    unfold TurnTracking.responded
    cases request.kind <;> rfl
  rw [sameTurns] at isActive
  cases turns with
  | none =>
    exact .inl isActive
  | some turns =>
    rw [elim_some, TurnTracking.taken] at isActive
    split at isActive
    · rename_i unchanged
      by_cases same : thread = request.thread
      · rw [same, update_self] at isActive
        exact .inr ⟨turns, rfl, same, unchanged, isActive⟩
      · rw [update_of_ne same] at isActive
        exact .inl isActive
    · exact .inl isActive

theorem TurnTracking.responded_turnRevisions
    (tracking : TurnTracking)
    (request : TurnRequest)
    (turns : Option (List TurnReport)) :
    (tracking.responded request turns).turnRevisions =
      tracking.turnRevisions := by
  unfold TurnTracking.responded
  cases request.kind <;> rfl

namespace TurnWorld

/-- What holds of one thread. -/
structure ThreadLawful (world : TurnWorld) (thread : String) : Prop where
  inOrder :
    ∃ low,
      InOrder thread (world.finished thread) low world.notifications ∧
        (∀ turn ∈ world.completed thread, turn < low) ∧
        ∀ turn ∈ world.started thread, turn ≤ low
  active :
    ∀ turn, world.tracking.activeTurns thread = some turn →
      IsRecent (world.started thread) (world.completed thread) turn

/--
The invariant.  A request whose revision is still current was made when all that
is known now was known.
-/
structure Lawful (world : TurnWorld) : Prop where
  threads : ∀ thread, world.ThreadLawful thread
  revision :
    ∀ task request, world.requests task = some request →
      request.revision ≤ world.tracking.turnRevisions request.thread
  current :
    ∀ task request, world.requests task = some request →
      world.tracking.turnRevisions request.thread = request.revision →
      ∀ turn, request.finished ≤ turn →
      IsRecent (world.started request.thread)
        (world.completed request.thread) turn

variable {thread : String} {turn : Nat} {world : TurnWorld}
  {later : List TurnNotification}

theorem ThreadLawful.isRecent
    (lawful : world.ThreadLawful thread)
    (notOver : world.finished thread ≤ turn) :
    IsRecent (world.started thread) (world.completed thread) turn := by
  obtain ⟨low, inOrder, completed, started⟩ := lawful.inOrder
  have atMost := inOrder.le_over
  constructor
  · intro isCompleted
    have := completed turn isCompleted
    omega
  · intro later isStarted
    have := started later isStarted
    omega

theorem eq_over_of_currentTurn
    (world : TurnWorld)
    (isCurrent : world.currentTurn thread = some turn) :
    turn = world.finished thread := by
  unfold currentTurn at isCurrent
  split at isCurrent
  · cases isCurrent
    rfl
  · cases isCurrent

namespace Lawful

variable {world next : TurnWorld}

theorem new : Lawful .new where
  threads := fun _ =>
    { inOrder :=
        ⟨0, Nat.le_refl _, fun _ isCompleted => (by cases isCompleted),
          fun _ isStarted => (by cases isStarted)⟩
      active := fun _ isActive => by cases isActive }
  revision := fun _ _ isPending => by cases isPending
  current := fun _ _ isPending => by cases isPending

variable {finished : String → Nat}

/-- The server goes on, and its notifications stay in order. -/
theorem serve
    (lawful : world.Lawful)
    {created : String → Nat}
    {notifications : List TurnNotification}
    (inOrder :
      ∀ thread low,
        InOrder thread (world.finished thread) low world.notifications →
        InOrder thread (finished thread) low notifications) :
    Lawful
      { world with
        created := created, finished := finished,
        notifications := notifications } where
  threads := fun thread =>
    have ⟨low, wasInOrder, heard⟩ := (lawful.threads thread).inOrder
    { inOrder := ⟨low, inOrder thread low wasInOrder, heard⟩
      active := (lawful.threads thread).active }
  revision := lawful.revision
  current := lawful.current

/-- The active turns change, to recent ones or to none. -/
theorem track
    (lawful : world.Lawful)
    {tracking : TurnTracking}
    {requests : Nat → Option TurnRequest}
    (sameRevisions : tracking.turnRevisions = world.tracking.turnRevisions)
    (active :
      ∀ thread turn, tracking.activeTurns thread = some turn →
        IsRecent (world.started thread) (world.completed thread) turn)
    (made :
      ∀ task request, requests task = some request →
        world.requests task = some request ∨
          (request.revision = world.tracking.turnRevisions request.thread ∧
            request.finished = world.finished request.thread)) :
    Lawful { world with tracking := tracking, requests := requests } where
  threads := fun thread =>
    { inOrder := (lawful.threads thread).inOrder
      active := active thread }
  revision := by
    intro task request isPending
    dsimp only
    rw [sameRevisions]
    rcases made task request isPending with old | ⟨isCurrent, _⟩
    · exact lawful.revision task request old
    · exact Nat.le_of_eq isCurrent
  current := by
    intro task request isPending unchanged turn notOver
    dsimp only at unchanged
    rw [sameRevisions] at unchanged
    rcases made task request isPending with old | ⟨_, isOver⟩
    · exact lawful.current task request old unchanged turn notOver
    · rw [isOver] at notOver
      exact (lawful.threads request.thread).isRecent notOver

theorem over_le_endTurn (world : TurnWorld) (thread other : String) :
    world.finished other ≤ (world.endTurn thread).finished other := by
  by_cases same : other = thread
  · subst same
    have isNext : (world.endTurn other).finished other = world.finished other + 1 :=
      update_self _ _ _
    omega
  · exact Nat.le_of_eq (update_of_ne same _ _).symm

theorem send
    (lawful : world.Lawful)
    {notification : TurnNotification}
    (isOver :
      notification.turn = world.finished notification.thread ∧
        notification.next ≤ finished notification.thread)
    (isLater : ∀ thread, world.finished thread ≤ finished thread) :
    Lawful ({ world with finished := finished }.send notification) := by
  refine lawful.serve fun thread low inOrder => ?_
  refine inOrder.append (fun isOwn => ?_) (isLater thread)
  rw [← isOwn]
  exact isOver

end Lawful

section Handle

variable {world : TurnWorld} {notification : TurnNotification} {thread : String}

theorem handle_turnRevisions :
    (world.handle notification).tracking.turnRevisions =
      update world.tracking.turnRevisions notification.thread
        (world.tracking.turnRevisions notification.thread + 1) := by
  unfold handle TurnTracking.handleNotification
  cases notification.event <;> rfl

theorem handle_activeTurns_of_ne
    (isOther : thread ≠ notification.thread) :
    (world.handle notification).tracking.activeTurns thread =
      world.tracking.activeTurns thread := by
  unfold handle TurnTracking.handleNotification
  cases notification.event with
  | started =>
    exact update_of_ne isOther _ _
  | completed =>
    dsimp only
    split
    · exact update_of_ne isOther _ _
    · rfl

theorem handle_started_of_ne
    (isOther : thread ≠ notification.thread) :
    (world.handle notification).started thread = world.started thread := by
  unfold handle
  cases notification.event with
  | started => exact update_of_ne isOther _ _
  | completed => rfl

theorem handle_completed_of_ne
    (isOther : thread ≠ notification.thread) :
    (world.handle notification).completed thread = world.completed thread := by
  unfold handle
  cases notification.event with
  | started => rfl
  | completed => exact update_of_ne isOther _ _

theorem handle_rest :
    (world.handle notification).finished = world.finished ∧
      (world.handle notification).notifications = world.notifications ∧
      (world.handle notification).requests = world.requests := by
  unfold handle
  cases notification.event <;> exact ⟨rfl, rfl, rfl⟩

end Handle

/-- After `turn/started` its turn is the active one. -/
theorem ThreadLawful.started
    {low : Nat}
    (isHeard : low ≤ turn)
    (inOrder : InOrder thread (world.finished thread) turn later)
    (completed : ∀ turn ∈ world.completed thread, turn < low)
    (started : ∀ turn ∈ world.started thread, turn ≤ low) :
    ThreadLawful
      ({ world with notifications := later }.handle
        ⟨.started, thread, turn⟩) thread := by
  have notCompleted : ∀ other ∈ world.completed thread, other < turn :=
    fun other isCompleted =>
      Nat.lt_of_lt_of_le (completed other isCompleted) isHeard
  have latest :
      ∀ other ∈ update world.started thread
          (turn :: world.started thread) thread,
        other ≤ turn := by
    rw [update_self]
    intro other isStarted
    rcases mem_cons.mp isStarted with rfl | old
    · exact Nat.le_refl _
    · exact Nat.le_trans (started other old) isHeard
  refine ⟨⟨turn, inOrder, notCompleted, latest⟩, ?_⟩
  intro active isActive
  have isTurn :
      update world.tracking.activeTurns thread (some turn) thread =
        some active :=
    isActive
  rw [update_self] at isTurn
  cases isTurn
  exact
    ⟨fun isCompleted => Nat.lt_irrefl _ (notCompleted _ isCompleted), latest⟩

/-- After `turn/completed` its turn is not the active one. -/
theorem ThreadLawful.completed
    {low : Nat}
    (lawful : world.ThreadLawful thread)
    (isHeard : low ≤ turn)
    (inOrder : InOrder thread (world.finished thread) (turn + 1) later)
    (completed : ∀ turn ∈ world.completed thread, turn < low)
    (started : ∀ turn ∈ world.started thread, turn ≤ low) :
    ThreadLawful
      ({ world with notifications := later }.handle
        ⟨.completed, thread, turn⟩) thread := by
  have nowCompleted : ∀ {other},
      other ∈ update world.completed thread
          (turn :: world.completed thread) thread →
        other = turn ∨ other ∈ world.completed thread := by
    intro other isCompleted
    rw [update_self] at isCompleted
    exact mem_cons.mp isCompleted
  refine ⟨⟨turn + 1, inOrder, ?_, ?_⟩, ?_⟩
  · intro other isCompleted
    rcases nowCompleted isCompleted with rfl | old
    · exact Nat.lt_succ_self _
    · have := completed other old
      omega
  · intro other isStarted
    have := started other isStarted
    omega
  · intro active isActive
    have isLeft : active ≠ turn ∧
        world.tracking.activeTurns thread = some active := by
      have isActive :
          (if world.tracking.activeTurns thread = some turn then
              update world.tracking.activeTurns thread none
            else world.tracking.activeTurns) thread = some active :=
        isActive
      split at isActive
      · rw [update_self] at isActive
        cases isActive
      · rename_i isOther
        exact ⟨fun same => isOther (same ▸ isActive), isActive⟩
    have recent := lawful.active active isLeft.2
    refine ⟨?_, recent.latest⟩
    intro isCompleted
    rcases nowCompleted isCompleted with same | old
    · exact isLeft.1 same
    · exact recent.notCompleted old

namespace Lawful

variable {world next : TurnWorld}

theorem deliver
    (lawful : world.Lawful)
    {notification : TurnNotification}
    {later : List TurnNotification}
    (arrives : world.notifications = notification :: later) :
    Lawful ({ world with notifications := later }.handle notification) := by
  obtain ⟨sameOver, sameNotifications, sameRequests⟩ :=
    @handle_rest { world with notifications := later } notification
  refine ⟨?_, ?_, ?_⟩
  · intro thread
    obtain ⟨low, inOrder, completed, started⟩ := (lawful.threads thread).inOrder
    rw [arrives, InOrder] at inOrder
    by_cases isOwn : notification.thread = thread
    · subst isOwn
      rw [if_pos rfl] at inOrder
      obtain ⟨event, thread, turn⟩ := notification
      cases event with
      | started =>
        exact .started inOrder.1 inOrder.2 completed started
      | completed =>
        exact (lawful.threads thread).completed inOrder.1 inOrder.2
          completed started
    · rw [if_neg isOwn] at inOrder
      have isOther := Ne.symm isOwn
      constructor
      · rw [sameOver, sameNotifications, handle_completed_of_ne isOther,
          handle_started_of_ne isOther]
        exact ⟨low, inOrder, completed, started⟩
      · rw [handle_completed_of_ne isOther, handle_started_of_ne isOther,
          handle_activeTurns_of_ne isOther]
        exact (lawful.threads thread).active
  · intro task request isPending
    rw [sameRequests] at isPending
    have atMost := lawful.revision task request isPending
    rw [handle_turnRevisions]
    by_cases isOwn : request.thread = notification.thread
    · rw [isOwn, update_self, ← isOwn]
      exact Nat.le_succ_of_le atMost
    · rw [update_of_ne isOwn]
      exact atMost
  · intro task request isPending unchanged
    rw [sameRequests] at isPending
    have atMost := lawful.revision task request isPending
    rw [handle_turnRevisions] at unchanged
    have isOther : request.thread ≠ notification.thread := by
      intro isOwn
      have isBehind :
          request.revision = world.tracking.turnRevisions request.thread + 1 := by
        rw [← unchanged, isOwn, update_self]
      omega
    rw [update_of_ne isOther] at unchanged
    rw [handle_completed_of_ne isOther, handle_started_of_ne isOther]
    exact lawful.current task request isPending unchanged

/-- A response is taken, or it is too late. -/
theorem respond
    (lawful : world.Lawful)
    {task : Nat}
    {request : TurnRequest}
    {turns : Option (List TurnReport)}
    (isPending : world.requests task = some request)
    (isHonest :
      ∀ reported ∈ turns,
        request.IsHonest (world.created request.thread) reported) :
    Lawful
      { world with
        tracking := world.tracking.responded request turns
        requests := update world.requests task none } := by
  refine lawful.track (world.tracking.responded_turnRevisions request turns)
    ?_ fun _ _ stillPending => .inl (eq_some_of_update_none stillPending)
  intro thread turn isActive
  rcases TurnTracking.responded_activeTurns isActive with
    old | ⟨reported, isReported, rfl, unchanged, isTaken⟩
  · exact (lawful.threads thread).active turn old
  · exact lawful.current task request isPending unchanged turn
      ((isHonest reported isReported).over_le isTaken)

theorem step
    (lawful : world.Lawful)
    {action : TurnStep}
    (ran : world.run action = some next) :
    next.Lawful := by
  cases action with
  | creates thread =>
    cases ran
    exact lawful.serve fun _ _ inOrder => inOrder
  | starts thread =>
    obtain ⟨turn, isCurrent, rfl⟩ := map_eq_some_iff.mp ran
    have isOver := world.eq_over_of_currentTurn isCurrent
    exact lawful.send ⟨isOver, Nat.le_of_eq isOver⟩ fun _ => Nat.le_refl _
  | completes thread =>
    obtain ⟨turn, isCurrent, rfl⟩ := map_eq_some_iff.mp ran
    have isOver := world.eq_over_of_currentTurn isCurrent
    refine lawful.send ⟨isOver, ?_⟩ (over_le_endTurn world thread)
    rw [update_self, ← isOver]
    exact Nat.le_refl _
  | drops thread =>
    obtain ⟨turn, _, rfl⟩ := map_eq_some_iff.mp ran
    exact lawful.serve fun other _ inOrder =>
      inOrder.mono (over_le_endTurn world thread other)
  | delivers =>
    simp only [run] at ran
    split at ran
    · cases ran
    · rename_i notification later arrives
      cases ran
      exact lawful.deliver arrives
  | «begin» task kind thread hasCreatedThread =>
    simp only [run] at ran
    split at ran
    · cases ran
      have sameTurns :
          (world.tracking.begin kind thread).activeTurns =
              world.tracking.activeTurns ∧
            (world.tracking.begin kind thread).turnRevisions =
              world.tracking.turnRevisions := by
        cases kind <;> exact ⟨rfl, rfl⟩
      refine lawful.track sameTurns.2 ?_ ?_
      · rw [sameTurns.1]
        exact fun other => (lawful.threads other).active
      · intro other request isPending
        rcases eq_some_of_update isPending with ⟨rfl, rfl⟩ | ⟨_, wasPending⟩
        · exact .inr ⟨rfl, rfl⟩
        · exact .inl wasPending
    · cases ran
  | responds task turns =>
    obtain ⟨request, isPending, ran⟩ := bind_eq_some_iff.mp ran
    split at ran
    · rename_i isHonest
      cases ran
      exact lawful.respond isPending isHonest
    · cases ran
  | archives thread =>
    cases ran
    refine lawful.track rfl ?_ fun _ _ isPending => .inl isPending
    intro other turn isActive
    exact (lawful.threads other).active turn (eq_some_of_update_none isActive)
  | connectionFails =>
    cases ran
    exact lawful.track rfl (fun _ _ isActive => by cases isActive)
      fun _ _ isPending => .inl isPending

theorem of_reachable
    (reachable : turnMachine.Reachable world) :
    world.Lawful := by
  refine reachable.invariant ?_ ?_
  · intro world isNew
    rw [show world = .new from isNew]
    exact new
  · intro world action next lawful ran
    exact lawful.step ran

end Lawful

end TurnWorld

/--
Once `turn/completed` was handled its turn is not active again, and once
`turn/started` was handled no earlier turn is.
-/
theorem activeTurns_never_stale
    {world : TurnWorld}
    (reachable : turnMachine.Reachable world)
    (thread : String) :
    (∀ turn ∈ world.completed thread,
        world.tracking.activeTurns thread ≠ some turn) ∧
      ∀ later ∈ world.started thread, ∀ earlier < later,
        world.tracking.activeTurns thread ≠ some earlier := by
  have recent := ((TurnWorld.Lawful.of_reachable reachable).threads thread).active
  constructor
  · intro turn isCompleted isActive
    exact (recent turn isActive).notCompleted isCompleted
  · intro later isStarted earlier isEarlier isActive
    have := (recent earlier isActive).latest later isStarted
    omega

/-- A turn that is over before the response to its `turn/start` is handled. -/
theorem late_response_leaves_no_active_turn :
    ∃ world : TurnWorld,
      turnMachine.Reachable world ∧ world.completed "A" = [0] ∧
        world.tracking.activeTurns "A" ≠ some 0 := by
  have answered : turnMachine.Reachable _ :=
    Machine.Reachable.foldlM TurnWorld.run (fun taken => taken) (.initial rfl)
      (rfl :
        [TurnStep.begin 0 .turnStart "A" false, .creates "A", .starts "A",
          .delivers, .completes "A", .delivers,
          .responds 0 (some [⟨0, .inProgress⟩])].foldlM TurnWorld.run .new =
            some _)
  exact ⟨_, answered, rfl,
    (activeTurns_never_stale answered "A").1 0 mem_cons_self⟩

end CodexPad
