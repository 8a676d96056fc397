import GuestKernel.Machine
import Mathlib.Logic.Function.Basic

namespace CodexPad
open Function

open GuestKernel

/-!
# The active turns of the workspace

How `CodexWorkspaceModel.swift` learns which turn of a thread is running: from
`turn/started` and `turn/completed`, and from the responses to `turn/start`,
`review/start` and `thread/resume`.  A response is taken only while the turn
revision of its thread is the one from before the request.

Of the server it is used that a thread runs its turns one after the other, and
that a response reports no turn as running that was over before its request.
-/

/-- The `status` of a turn, as far as it is compared. -/
inductive TurnStatus where
  | inProgress
  | completed
  | other
  deriving Repr, DecidableEq

/-- A turn in a response; its identity is its place among the thread's turns. -/
structure TurnReport where
  id : Nat
  status : TurnStatus
  deriving Repr, DecidableEq

/-- The requests whose responses tell of a running turn. -/
inductive TurnRequestKind where
  | turnStart
  | reviewStart
  | threadResume
  deriving Repr, DecidableEq

/--
A request under way: the turn revision from before it, and how many turns of the
thread were over at the server by then.
-/
structure TurnRequest where
  kind : TurnRequestKind
  thread : String
  revision : Nat
  finished : Nat
  deriving Repr, DecidableEq

/-- The two notifications about turns. -/
inductive TurnEvent where
  | started
  | completed
  deriving Repr, DecidableEq

/-- `turn/started` or `turn/completed`. -/
structure TurnNotification where
  event : TurnEvent
  thread : String
  turn : Nat
  deriving Repr, DecidableEq

/-- The model's fields about turns. -/
structure TurnTracking where
  activeTurns : String → Option Nat
  startingTurns : String → Bool
  turnRevisions : String → Nat

/--
The model, the server's turns (how many each thread has, and how many of them
are over), what is on the connection, and the notifications handled so far.
-/
structure TurnWorld where
  tracking : TurnTracking
  created : String → Nat
  finished : String → Nat
  notifications : List TurnNotification
  requests : Nat → Option TurnRequest
  started : String → List Nat
  completed : String → List Nat

/-- Steps of the server, of the connection and on the main actor. -/
inductive TurnStep where
  | creates (thread : String)
  | starts (thread : String)
  | completes (thread : String)
  /-- A turn that ends without a notification. -/
  | drops (thread : String)
  | delivers
  /-- `sendComposer`, `startReview` and `resumeThread` up to their request. -/
  | begin (task : Nat) (kind : TurnRequestKind) (thread : String)
      (hasCreatedThread : Bool)
  /-- The rest of these, after the response or, with `none`, the error. -/
  | responds (task : Nat) (turns : Option (List TurnReport))
  | archives (thread : String)
  /-- The state handler on `.failed`. -/
  | connectionFails

/-- The turn that a response makes the active one. -/
def TurnRequestKind.activeTurn
    (turns : List TurnReport) : TurnRequestKind → Option Nat
  | turnStart =>
    turns.head?.bind fun turn =>
      if turn.status = .completed then none else some turn.id
  | reviewStart => turns.head?.map TurnReport.id
  | threadResume =>
    (turns.filter fun turn => turn.status == .inProgress).getLast?.map
      TurnReport.id

/--
What a server may report: turns that were not over at the request.  Of the turns
in a `thread/resume` response this is said of those in progress only.
-/
def TurnRequest.IsHonest
    (request : TurnRequest)
    (created : Nat)
    (turns : List TurnReport) : Prop :=
  ∀ turn ∈ turns,
    (request.kind = .threadResume → turn.status = .inProgress) →
    request.finished ≤ turn.id ∧ turn.id < created

instance
    (request : TurnRequest)
    (created : Nat)
    (turns : List TurnReport) :
    Decidable (request.IsHonest created turns) :=
  inferInstanceAs (Decidable (∀ turn ∈ turns, (_ → _) → _ ∧ _))

namespace TurnTracking

/-- Nothing is known about any turn. -/
def new : TurnTracking where
  activeTurns := fun _ => none
  startingTurns := fun _ => false
  turnRevisions := fun _ => 0

/-- `isTurnRunning`, of one thread. -/
def isTurnRunning (tracking : TurnTracking) (thread : String) : Bool :=
  (tracking.activeTurns thread).isSome || tracking.startingTurns thread

/-- `handleNotification`, for the two notifications about turns. -/
def handleNotification
    (tracking : TurnTracking)
    (notification : TurnNotification) : TurnTracking :=
  let thread := notification.thread
  let turnRevisions :=
    update tracking.turnRevisions thread
      (tracking.turnRevisions thread + 1)
  match notification.event with
  | .started =>
    { tracking with
      turnRevisions
      activeTurns :=
        update tracking.activeTurns thread
          (some notification.turn) }
  | .completed =>
    { turnRevisions
      activeTurns :=
        if tracking.activeTurns thread = some notification.turn then
          update tracking.activeTurns thread none
        else
          tracking.activeTurns
      startingTurns := update tracking.startingTurns thread false }

/-- The first half of `sendComposer`, `startReview` and `resumeThread`. -/
def begin
    (tracking : TurnTracking)
    (kind : TurnRequestKind)
    (thread : String) : TurnTracking :=
  match kind with
  | .turnStart | .reviewStart =>
    { tracking with
      startingTurns := update tracking.startingTurns thread true }
  | .threadResume => tracking

/-- The active turns after a response, which may be too late to be taken. -/
def taken
    (tracking : TurnTracking)
    (request : TurnRequest)
    (turns : List TurnReport) : String → Option Nat :=
  if tracking.turnRevisions request.thread = request.revision then
    update tracking.activeTurns request.thread
      (request.kind.activeTurn turns)
  else
    tracking.activeTurns

/-- The second half; the two that start a turn end with their `defer`. -/
def responded
    (tracking : TurnTracking)
    (request : TurnRequest)
    (turns : Option (List TurnReport)) : TurnTracking :=
  let activeTurns := turns.elim tracking.activeTurns (tracking.taken request)
  match request.kind with
  | .turnStart | .reviewStart =>
    { tracking with
      activeTurns
      startingTurns :=
        update tracking.startingTurns request.thread false }
  | .threadResume => { tracking with activeTurns }

end TurnTracking

namespace TurnWorld

/-- A connection is there, and no turn yet. -/
def new : TurnWorld where
  tracking := .new
  created := fun _ => 0
  finished := fun _ => 0
  notifications := []
  requests := fun _ => none
  started := fun _ => []
  completed := fun _ => []

/-- The turn that a thread is at, if it has one that is not over. -/
def currentTurn (world : TurnWorld) (thread : String) : Option Nat :=
  if world.finished thread < world.created thread then some (world.finished thread)
  else none

/-- The next turn of a thread has its chance. -/
def endTurn (world : TurnWorld) (thread : String) : TurnWorld :=
  { world with
    finished := update world.finished thread (world.finished thread + 1) }

/-- The server sends a notification. -/
def send (world : TurnWorld) (notification : TurnNotification) : TurnWorld :=
  { world with notifications := world.notifications ++ [notification] }

/-- A notification is handled and noted. -/
def handle (world : TurnWorld) (notification : TurnNotification) : TurnWorld :=
  let thread := notification.thread
  let world :=
    { world with tracking := world.tracking.handleNotification notification }
  match notification.event with
  | .started =>
    { world with
      started :=
        update world.started thread
          (notification.turn :: world.started thread) }
  | .completed =>
    { world with
      completed :=
        update world.completed thread
          (notification.turn :: world.completed thread) }

/-- The guards of `sendComposer` and `startReview`; a new thread has no turn. -/
def mayBegin
    (world : TurnWorld)
    (kind : TurnRequestKind)
    (thread : String)
    (hasCreatedThread : Bool) : Bool :=
  match kind with
  | .turnStart => hasCreatedThread || !world.tracking.isTurnRunning thread
  | .reviewStart => !world.tracking.isTurnRunning thread
  | .threadResume => true

/-- One step. -/
def run (world : TurnWorld) : TurnStep → Option TurnWorld
  | .creates thread =>
    some
      { world with
        created :=
          update world.created thread (world.created thread + 1) }
  | .starts thread =>
    (world.currentTurn thread).map fun turn =>
      world.send ⟨.started, thread, turn⟩
  | .completes thread =>
    (world.currentTurn thread).map fun turn =>
      (world.endTurn thread).send ⟨.completed, thread, turn⟩
  | .drops thread =>
    (world.currentTurn thread).map fun _ => world.endTurn thread
  | .delivers =>
    match world.notifications with
    | [] => none
    | notification :: later =>
      some ({ world with notifications := later }.handle notification)
  | .begin task kind thread hasCreatedThread =>
    if world.requests task = none ∧
        world.mayBegin kind thread hasCreatedThread then
      some
        { world with
          tracking := world.tracking.begin kind thread
          requests := update world.requests task
            (some
              { kind
                thread
                revision := world.tracking.turnRevisions thread
                finished := world.finished thread }) }
    else
      none
  | .responds task turns =>
    (world.requests task).bind fun request =>
      if ∀ reported ∈ turns,
          request.IsHonest (world.created request.thread) reported then
        some
          { world with
            tracking := world.tracking.responded request turns
            requests := update world.requests task none }
      else
        none
  | .archives thread =>
    some
      { world with
        tracking :=
          { world.tracking with
            activeTurns :=
              update world.tracking.activeTurns thread none } }
  | .connectionFails =>
    some
      { world with
        tracking :=
          { world.tracking with
            activeTurns := fun _ => none
            startingTurns := fun _ => false } }

end TurnWorld

/-- The workspace and the server on one connection. -/
def turnMachine : Machine TurnWorld TurnStep where
  initial world := world = .new
  step world action next := world.run action = some next

end CodexPad
