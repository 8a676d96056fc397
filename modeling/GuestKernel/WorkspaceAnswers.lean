import GuestKernel.Machine
import Mathlib.Data.List.Count
import Mathlib.Logic.Function.Basic

namespace CodexPad
open List Function

open GuestKernel

/-!
# Answers to requests of the server

The five answer paths of `CodexWorkspaceModel.swift`.  All run on the main
actor; a path checks and starts its send in one step, and goes on when the send
has ended.  A view may still hold a request that has left the list.  JSON values
are a type with an equality.
-/

/-- `ServerRequestKind`. -/
inductive ServerRequestKind where
  | command
  | fileChange
  | permissions
  | question
  | elicitation
  | advanced
  | unsupported
  deriving Repr, DecidableEq

/-- `ApprovalChoice`. -/
inductive ApprovalChoice where
  | once
  | session
  | decline
  | cancel
  deriving Repr, DecidableEq

/--
`PendingServerRequest`, as far as it is answered from: the permissions are those
in `rawParams` that are not null, the decisions its `availableDecisions`.
-/
structure PendingServerRequest (Json : Type) where
  id : Nat
  rpcID : Json
  method : String
  kind : ServerRequestKind
  permissions : List (String × Json)
  availableDecisions : Option (List Json)
  questions : List String

/-- What is sent to the server. -/
inductive ServerResponse (Json : Type) where
  | decision (text : String)
  | chosen (decision : Json)
  | permissions (granted : List (String × Json)) (scope : String)
  | elicitation (action : String)
  | empty
  | answers (values : List (String × String))
  | result (value : Json)
  | unsupported (method : String)

/-- A call of one of the answer paths. -/
inductive AnswerCall (Json : Type) where
  | resolve (choice : ApprovalChoice)
  | answerCommandDecision (decision : Json)
  | answer (values : String → Option String)
  /-- `answerAdvancedRequest`, with what its text decodes to. -/
  | answerAdvancedRequest (result : Option Json)
  | rejectAdvancedRequest

/-- A response that is being sent, and whether its request was in the list. -/
structure Sending (Json : Type) where
  request : Nat
  response : ServerResponse Json
  wasPending : Bool

/-- The requests, and the responses to them. -/
structure Workspace (Json : Type) where
  pendingRequests : List (PendingServerRequest Json)
  /-- The next identity, for `UUID()`. -/
  nextId : Nat
  sending : Nat → Option (Sending Json)
  sent : List (Sending Json)

/-- Steps on the main actor. -/
inductive WorkspaceStep (Json : Type) where
  /-- `handleServerRequest`. -/
  | arrives (request : PendingServerRequest Json)
  | begin (task : Nat) (call : AnswerCall Json)
      (request : PendingServerRequest Json)
  | ends (task : Nat) (succeeded : Bool)
  /-- `serverRequest/resolved`. -/
  | resolved (rpcID : Json)
  /-- The state handler on `.failed`. -/
  | connectionFails

variable {Json : Type}

/-- The legacy and the current names of a decision. -/
def ApprovalChoice.decision (isLegacy : Bool) : ApprovalChoice → String
  | once => if isLegacy then "approved" else "accept"
  | session => if isLegacy then "approved_for_session" else "acceptForSession"
  | decline => if isLegacy then "denied" else "decline"
  | cancel => if isLegacy then "abort" else "cancel"

namespace PendingServerRequest

/-- The response of `resolve`, unless it returns without one. -/
def resolution (request : PendingServerRequest Json) (choice : ApprovalChoice) :
    Option (ServerResponse Json) :=
  match request.kind with
  | .unsupported => some (.unsupported request.method)
  | .command | .fileChange =>
    let isLegacy :=
      request.method == "applyPatchApproval" ||
        request.method == "execCommandApproval"
    some (.decision (choice.decision isLegacy))
  | .permissions =>
    some (.permissions
      (if choice = .once ∨ choice = .session then request.permissions
        else [])
      (if choice = .session then "session" else "turn"))
  | .elicitation =>
    some (.elicitation (if choice = .cancel then "cancel" else "decline"))
  | .question => some .empty
  | .advanced => none

end PendingServerRequest

namespace Workspace

/-- No request has arrived. -/
def empty : Workspace Json where
  pendingRequests := []
  nextId := 0
  sending := fun _ => none
  sent := []

/-- `pendingRequests.contains` of the request's identity. -/
def contains (world : Workspace Json) (id : Nat) : Bool :=
  world.pendingRequests.any fun request => request.id == id

/-- `pendingRequests.removeAll`. -/
def removeAll
    (world : Workspace Json)
    (leaves : PendingServerRequest Json → Bool) : Workspace Json :=
  { world with
    pendingRequests :=
      world.pendingRequests.filter fun request => !leaves request }

/-- The response that a path starts to send, if it does not return before. -/
def response
    [DecidableEq Json]
    (world : Workspace Json)
    (request : PendingServerRequest Json) :
    AnswerCall Json → Option (ServerResponse Json)
  | .resolve choice =>
    if world.contains request.id then request.resolution choice else none
  | .answerCommandDecision decision =>
    if (request.availableDecisions.getD []).contains decision &&
        world.contains request.id then
      some (.chosen decision)
    else
      none
  | .answer values =>
    some (.answers (request.questions.map fun question =>
      (question, (values question).getD "")))
  | .answerAdvancedRequest result => result.map .result
  | .rejectAdvancedRequest => some (.unsupported request.method)

/-- One step. -/
def run [DecidableEq Json] (world : Workspace Json) :
    WorkspaceStep Json → Option (Workspace Json)
  | .arrives request =>
    let world :=
      world.removeAll fun other => decide (other.rpcID = request.rpcID)
    some
      { world with
        pendingRequests :=
          world.pendingRequests ++ [{ request with id := world.nextId }]
        nextId := world.nextId + 1 }
  | .begin task call request =>
    -- a view has only requests that have arrived
    if request.id < world.nextId ∧ (world.sending task).isNone then
      match world.response request call with
      | none => some world
      | some response =>
        some
          { world with
            sending := update world.sending task
              (some ⟨request.id, response, world.contains request.id⟩) }
    else
      none
  | .ends task succeeded =>
    (world.sending task).map fun sending =>
      let world :=
        { world with sending := update world.sending task none }
      if succeeded then
        { world.removeAll fun request => request.id == sending.request with
          sent := world.sent ++ [sending] }
      else
        world
  | .resolved rpcID =>
    some (world.removeAll fun request => decide (request.rpcID = rpcID))
  | .connectionFails => some { world with pendingRequests := [] }

/-- The responses to one request that were sent. -/
def sentTo (world : Workspace Json) (id : Nat) : Nat :=
  world.sent.countP fun sending => sending.request == id

/-- One response at most, and none to a request that had left the list. -/
structure AnsweredOnce (world : Workspace Json) : Prop where
  once : ∀ id, world.sentTo id ≤ 1
  pending : ∀ sending ∈ world.sent, sending.wasPending = true

end Workspace

/-- The workspace from the start on. -/
def workspaceMachine [DecidableEq Json] :
    Machine (Workspace Json) (WorkspaceStep Json) where
  initial world := world = .empty
  step world action next := world.run action = some next

/--
A path that does not return at once is begun for a request that is in the list,
and while no response to it is being sent.
-/
def Workspace.BeginsAlone
    [DecidableEq Json]
    (world : Workspace Json) : WorkspaceStep Json → Prop
  | .begin _ call request =>
    world.response request call ≠ none →
      world.contains request.id = true ∧
        ∀ task sending, world.sending task = some sending →
          sending.request ≠ request.id
  | _ => True

/-- The machine with these steps only. -/
def aloneMachine [DecidableEq Json] :
    Machine (Workspace Json) (WorkspaceStep Json) :=
  workspaceMachine.restrict Workspace.BeginsAlone

namespace Workspace

/--
A request is in the list, or a response to it is being sent or was sent, and no
two responses to one request are under way.
-/
structure Alone (world : Workspace Json) : Prop where
  once : ∀ id, world.sentTo id ≤ 1
  pending : ∀ sending ∈ world.sent, sending.wasPending = true
  begun :
    ∀ task sending, world.sending task = some sending →
      sending.wasPending = true ∧ world.sentTo sending.request = 0 ∧
        sending.request < world.nextId
  apart :
    ∀ first second firstSending secondSending,
      world.sending first = some firstSending →
      world.sending second = some secondSending →
      firstSending.request = secondSending.request → first = second
  listed : ∀ request ∈ world.pendingRequests, world.sentTo request.id = 0
  numbered : ∀ id, world.nextId ≤ id → world.sentTo id = 0

namespace Alone

variable {world next : Workspace Json}

theorem of_fewer
    (alone : world.Alone)
    {requests : List (PendingServerRequest Json)}
    (fewer : requests ⊆ world.pendingRequests) :
    Alone { world with pendingRequests := requests } :=
  { alone with
    listed := fun request isListed => alone.listed request (fewer isListed) }

/-- A request arrives under an identity of its own. -/
theorem arrives
    (alone : world.Alone)
    (request : PendingServerRequest Json) :
    Alone
      { world with
        pendingRequests :=
          world.pendingRequests ++ [{ request with id := world.nextId }]
        nextId := world.nextId + 1 } :=
  { alone with
    listed := by
      intro other isListed
      rcases mem_append.mp isListed with old | isNew
      · exact alone.listed other old
      · cases mem_singleton.mp isNew
        exact alone.numbered world.nextId (Nat.le_refl _)
    begun := fun task sending isSending =>
      have ⟨wasPending, noneSent, isKnown⟩ := alone.begun task sending isSending
      ⟨wasPending, noneSent, Nat.lt_succ_of_lt isKnown⟩
    numbered := fun id isLater =>
      alone.numbered id (Nat.le_of_succ_le isLater) }

/-- A path that is begun alone sends the first response. -/
theorem begins
    {task : Nat}
    {request : PendingServerRequest Json}
    {response : ServerResponse Json}
    (alone : world.Alone)
    (isKnown : request.id < world.nextId)
    (isListed : world.contains request.id = true)
    (noneSending :
      ∀ task sending, world.sending task = some sending →
        sending.request ≠ request.id) :
    Alone
      { world with
        sending := update world.sending task
          (some ⟨request.id, response, world.contains request.id⟩) } := by
  refine { alone with begun := ?_, apart := ?_ }
  · intro other sending isSending
    rcases eq_some_of_update isSending with ⟨_, rfl⟩ | ⟨_, old⟩
    · obtain ⟨found, isFound, sameId⟩ := List.any_eq_true.mp isListed
      refine ⟨isListed, ?_, isKnown⟩
      dsimp only
      rw [← beq_iff_eq.mp sameId]
      exact alone.listed found isFound
    · exact alone.begun other sending old
  · intro first second firstSending secondSending isFirst isSecond sameRequest
    rcases eq_some_of_update isFirst with ⟨rfl, rfl⟩ | ⟨_, firstOld⟩
    · rcases eq_some_of_update isSecond with ⟨rfl, _⟩ | ⟨_, secondOld⟩
      · rfl
      · exact absurd sameRequest.symm
          (noneSending second secondSending secondOld)
    · rcases eq_some_of_update isSecond with ⟨rfl, rfl⟩ | ⟨_, secondOld⟩
      · exact absurd sameRequest (noneSending first firstSending firstOld)
      · exact alone.apart first second firstSending secondSending firstOld
          secondOld sameRequest

/-- A send that fails leaves its request unanswered. -/
theorem fails
    (alone : world.Alone)
    (task : Nat) :
    Alone { world with sending := update world.sending task none } := by
  exact
    { alone with
      begun := fun other sending isSending =>
        alone.begun other sending (eq_some_of_update_none isSending)
      apart := fun first second firstSending secondSending isFirst isSecond =>
        alone.apart first second firstSending secondSending
          (eq_some_of_update_none isFirst)
          (eq_some_of_update_none isSecond) }

variable {sending : Sending Json}

private theorem sentTo_append
    {sent : List (Sending Json)}
    {id : Nat} :
    (sent ++ [sending]).countP (fun other => other.request == id) =
      sent.countP (fun other => other.request == id) +
        if sending.request = id then 1 else 0 := by
  rw [countP_append, countP_singleton]
  simp only [beq_iff_eq]

/-- A send that succeeds takes the request out of the list. -/
theorem succeeds
    {task : Nat}
    (alone : world.Alone)
    (isSending : world.sending task = some sending) :
    Alone
      { world with
        pendingRequests := world.pendingRequests.filter fun request =>
          !(request.id == sending.request)
        sending := update world.sending task none
        sent := world.sent ++ [sending] } := by
  obtain ⟨wasPending, noneSent, isKnown⟩ := alone.begun task sending isSending
  have sentToOther : ∀ id, id ≠ sending.request →
      (world.sent ++ [sending]).countP (fun other => other.request == id) =
        world.sentTo id := by
    intro id differs
    rw [sentTo_append, if_neg (Ne.symm differs)]
    rfl
  have left : ∀ other otherSending,
      update world.sending task none other = some otherSending →
      world.sending other = some otherSending ∧
        otherSending.request ≠ sending.request := by
    intro other otherSending isOther
    have wasOther := eq_some_of_update_none isOther
    exact ⟨wasOther, fun sameRequest =>
      ne_of_update_none isOther (alone.apart other task otherSending sending
        wasOther isSending sameRequest)⟩
  refine
    { once := ?_
      pending := ?_
      begun := ?_
      apart := ?_
      listed := ?_
      numbered := ?_ }
  · intro id
    by_cases same : id = sending.request
    · subst same
      simp only [sentTo] at noneSent ⊢
      refine Nat.le_of_eq ?_
      rw [sentTo_append, noneSent, if_pos rfl, Nat.zero_add]
    · exact Nat.le_trans (Nat.le_of_eq (sentToOther id same)) (alone.once id)
  · intro other isSent
    rcases mem_append.mp isSent with old | isNew
    · exact alone.pending other old
    · cases mem_singleton.mp isNew
      exact wasPending
  · intro other otherSending isOther
    obtain ⟨wasSending, differs⟩ := left other otherSending isOther
    obtain ⟨otherPending, otherNone, otherKnown⟩ :=
      alone.begun other otherSending wasSending
    exact ⟨otherPending, (sentToOther _ differs).trans otherNone, otherKnown⟩
  · intro first second firstSending secondSending isFirst isSecond
    exact alone.apart first second firstSending secondSending
      (left first firstSending isFirst).1 (left second secondSending isSecond).1
  · intro request isListed
    obtain ⟨wasListed, differs⟩ := mem_filter.mp isListed
    rw [Bool.not_eq_true', beq_eq_false_iff_ne] at differs
    exact (sentToOther _ differs).trans (alone.listed request wasListed)
  · intro id isLater
    have differs : id ≠ sending.request :=
      Ne.symm (Nat.ne_of_lt (Nat.lt_of_lt_of_le isKnown isLater))
    exact (sentToOther id differs).trans (alone.numbered id isLater)

theorem step
    [DecidableEq Json]
    {action : WorkspaceStep Json}
    (alone : world.Alone)
    (beginsAlone : world.BeginsAlone action)
    (taken : world.run action = some next) :
    next.Alone := by
  cases action with
  | arrives request =>
    cases taken
    exact (alone.of_fewer (filter_subset_self _)).arrives request
  | begin task call request =>
    simp only [run] at taken
    split at taken
    · case _ isKnown =>
        split at taken
        · cases taken
          exact alone
        · rename_i responds
          cases taken
          obtain ⟨isListed, noneSending⟩ :=
            beginsAlone (by rw [responds]; exact nofun)
          exact alone.begins isKnown.1 isListed noneSending
    · cases taken
  | ends task succeeded =>
    obtain ⟨sending, isSending, rfl⟩ := Option.map_eq_some_iff.mp taken
    dsimp only
    split
    · exact alone.succeeds isSending
    · exact alone.fails task
  | resolved rpcID =>
    cases taken
    exact alone.of_fewer (filter_subset_self _)
  | connectionFails =>
    cases taken
    exact alone.of_fewer (nil_subset _)

theorem empty : Alone (.empty : Workspace Json) where
  once := fun _ => Nat.zero_le 1
  pending := fun _ isSent => by cases isSent
  begun := fun _ _ isSending => by cases isSending
  apart := fun _ _ _ _ isSending => by cases isSending
  listed := fun _ isListed => by cases isListed
  numbered := fun _ _ => rfl

end Alone

/-- Where paths begin alone, a request gets one response at most, in time. -/
theorem requests_are_answered_once
    [DecidableEq Json]
    {world : Workspace Json}
    (reachable : aloneMachine.Reachable world) :
    world.AnsweredOnce := by
  have alone : world.Alone := by
    refine reachable.invariant ?_ ?_
    · rintro world rfl
      exact Alone.empty
    · intro world action next alone step
      exact alone.step step.1 step.2
  exact ⟨alone.once, alone.pending⟩

/-- A request to run a command. -/
def commandRequest : PendingServerRequest Nat where
  id := 0
  rpcID := 7
  method := "item/commandExecution/requestApproval"
  kind := .command
  permissions := []
  availableDecisions := none
  questions := []

/-- The first send fails, and the command is declined again. -/
theorem retried_answer_is_sent_once :
    ∃ world : Workspace Nat, world.sentTo 0 = 1 ∧ world.AnsweredOnce := by
  have start : aloneMachine.Reachable (.empty : Workspace Nat) := .initial rfl
  have arrived := start.step
    (a := WorkspaceStep.arrives commandRequest) ⟨trivial, rfl⟩
  have first := arrived.step
    (a := WorkspaceStep.begin 0 (.resolve .decline) commandRequest)
    ⟨fun _ => ⟨rfl, fun _ _ isSending => by cases isSending⟩, rfl⟩
  have failed := first.step (a := WorkspaceStep.ends 0 false) ⟨trivial, rfl⟩
  have second := failed.step
    (a := WorkspaceStep.begin 1 (.resolve .decline) commandRequest)
    ⟨fun _ => ⟨rfl, fun task _ isSending => by
      by_cases same : task = 0
      · subst same
        cases isSending
      · change update (update (fun _ => none) 0 (some _)) 0
          none task = some _ at isSending
        rw [update_of_ne same, update_of_ne same] at isSending
        cases isSending⟩, rfl⟩
  have sent := second.step (a := WorkspaceStep.ends 1 true) ⟨trivial, rfl⟩
  -- a tap on what the view still shows finds the request gone
  have late := sent.step
    (a := WorkspaceStep.begin 2 (.resolve .once) commandRequest)
    ⟨fun responds => absurd rfl responds, rfl⟩
  exact ⟨_, rfl, requests_are_answered_once late⟩

/-- Two taps: the command is declined and then approved. -/
theorem two_taps_send_two_answers :
    ¬∀ world : Workspace Nat,
      workspaceMachine.Reachable world → world.AnsweredOnce := by
  intro always
  have start : workspaceMachine.Reachable (.empty : Workspace Nat) :=
    .initial rfl
  have arrived := start.step (a := WorkspaceStep.arrives commandRequest) rfl
  have declined := arrived.step
    (a := WorkspaceStep.begin 0 (.resolve .decline) commandRequest) rfl
  have approved := declined.step
    (a := WorkspaceStep.begin 1 (.resolve .once) commandRequest) rfl
  have first := approved.step (a := WorkspaceStep.ends 0 true) rfl
  have second := first.step (a := WorkspaceStep.ends 1 true) rfl
  have isOnce := (always _ second).once 0
  exact absurd isOnce (by decide)

end Workspace

end CodexPad
