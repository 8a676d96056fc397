import GuestKernel.RPCClient
import Mathlib.Data.List.Count
import Mathlib.Data.List.Nodup
import Mathlib.Data.List.Perm.Basic
import Mathlib.Data.List.Range

namespace CodexPad
open List

open GuestKernel

/-!
# Every continuation is resumed once

The continuations that were resumed and those in the table of pending requests
are together all that were made.  What is in the table belongs to the socket
that is installed, so a response resolves a request of its own connection.
-/

theorem getElem?_grown
    {requests : List RPCRequest}
    {request added : RPCRequest}
    {index : Nat}
    (isRequest : requests[index]? = some request) :
    (requests ++ [added])[index]? = some request := by
  obtain ⟨inside, _⟩ := List.getElem?_eq_some_iff.mp isRequest
  rw [List.getElem?_append_left inside]
  exact isRequest

namespace RPCClient

/-- The books on the continuations that were made. -/
structure Lawful (client : RPCClient) : Prop where
  keys : (client.pending.map Prod.fst).Nodup
  once :
    (client.resumed.map Resumption.continuation ++
      client.pending.map Prod.snd).Perm (List.range client.requests.length)
  waiting :
    ∀ id continuation,
      (id, continuation) ∈ client.pending →
      ∃ socket, client.socket = some socket ∧
        client.requests[continuation]? = some ⟨id, socket, client.generation⟩
  answered :
    ∀ resumption ∈ client.resumed, ∀ socket id succeeded,
      resumption.cause = .response socket id succeeded →
      ∃ generation,
        client.requests[resumption.continuation]? =
          some ⟨id, socket, generation⟩
  timed : ∀ id ∈ client.deadlines, id ∈ client.pending.map Prod.fst
  numbered : (client.requests.map RPCRequest.id).Nodup
  fresh : ∀ request ∈ client.requests, request.id < client.nextRequestID

namespace Lawful

variable {client next : RPCClient}

theorem new : Lawful .new where
  keys := nodup_nil
  once := List.Perm.nil
  waiting := fun _ _ isPending => by cases isPending
  answered := fun _ isResumed => by cases isResumed
  timed := fun _ isTimed => by cases isTimed
  numbered := nodup_nil
  fresh := fun _ isRequest => by cases isRequest

section

variable (lawful : client.Lawful)
include lawful

/-- `disconnect` resumes all that is pending. -/
theorem disconnect :
    client.disconnect.Lawful where
  keys := nodup_nil
  once := by
    have sameContinuations :
        (client.pending.map fun entry =>
            (⟨entry.2, .disconnected⟩ : Resumption)).map
              Resumption.continuation =
          client.pending.map Prod.snd :=
      List.map_map
    simp only [RPCClient.disconnect, map_append, sameContinuations,
      map_nil, append_nil]
    exact lawful.once
  waiting := fun _ _ isPending => by cases isPending
  answered := by
    intro resumption isResumed socket id succeeded isResponse
    rcases mem_append.mp isResumed with old | new
    · exact lawful.answered resumption old socket id succeeded isResponse
    · obtain ⟨entry, _, rfl⟩ := List.mem_map.mp new
      cases isResponse
  timed := fun _ isTimed => by cases isTimed
  numbered := lawful.numbered
  fresh := lawful.fresh

theorem failConnection :
    client.failConnection.Lawful :=
  { lawful.disconnect with }

theorem move
    (task : Nat)
    (place : ConnectPlace) :
    (client.move task place).Lawful :=
  { lawful with }

theorem connectFails
    (task generation : Nat) :
    (client.connectFails task generation).Lawful := by
  unfold RPCClient.connectFails
  split
  · exact lawful.failConnection.move task .idle
  · exact lawful.move task .idle

theorem install
    (nothingPending : client.pending = [])
    (socket : Nat)
    (state : ConnectionState) :
    Lawful
      { client with
        state := state, socket := some socket, sockets := socket + 1 } :=
  { lawful with
    waiting := fun _ _ isPending => by
      rw [show _ = _ from nothingPending] at isPending
      cases isPending }

/-- A request that is resolved leaves the table with its deadline. -/
theorem resolveRequest
    (id : Int)
    (cause : ResumeCause)
    (isOwn :
      ∀ socket responseId succeeded,
        cause = .response socket responseId succeeded →
        responseId = id ∧ client.socket = some socket) :
    (client.resolveRequest id cause).Lawful := by
  unfold RPCClient.resolveRequest
  split
  · exact lawful
  · case _ continuation found =>
      have left := Rows.perm_takeOut lawful.keys found
      have isPending : (id, continuation) ∈ client.pending :=
        left.mem_iff.mpr mem_cons_self
      obtain ⟨socket, isInstalled, isRequest⟩ :=
        lawful.waiting id continuation isPending
      refine
        { keys := Rows.nodup_takeOut lawful.keys
          once := ?_
          waiting := ?_
          answered := ?_
          timed := ?_
          numbered := lawful.numbered
          fresh := lawful.fresh }
      · rw [map_append, append_assoc]
        exact ((left.symm.map Prod.snd).append_left _).trans lawful.once
      · intro other otherContinuation isOther
        exact lawful.waiting other otherContinuation
          (mem_filter.mp isOther).1
      · intro resumption isResumed responseSocket responseId succeeded
          isResponse
        rcases mem_append.mp isResumed with old | new
        · exact lawful.answered resumption old responseSocket responseId
            succeeded isResponse
        · cases mem_singleton.mp new
          obtain ⟨rfl, sameSocket⟩ :=
            isOwn responseSocket responseId succeeded isResponse
          rw [isInstalled] at sameSocket
          cases sameSocket
          exact ⟨client.generation, isRequest⟩
      · intro other isTimed
        obtain ⟨wasTimed, differs⟩ := mem_filter.mp isTimed
        obtain ⟨entry, isEntry, rfl⟩ :=
          List.mem_map.mp (lawful.timed other wasTimed)
        exact List.mem_map_of_mem (mem_filter.mpr ⟨isEntry, differs⟩)

/-- A new request has a number of its own. -/
theorem request
    {socket : Nat}
    (isInstalled : client.socket = some socket)
    (isCancelled disableTimeout : Bool) :
    (client.request socket isCancelled disableTimeout).Lawful := by
  have later : ∀ request ∈ client.requests,
      request.id < client.nextRequestID + 1 := fun request isRequest =>
    Int.lt_trans (lawful.fresh request isRequest) (Int.lt_succ _)
  unfold RPCClient.request
  split
  · exact { lawful with fresh := later }
  · have isNew : ∀ entry ∈ client.pending,
        (!(entry.1 == client.nextRequestID)) = true := by
      intro entry isEntry
      obtain ⟨_, _, isRequest⟩ := lawful.waiting entry.1 entry.2 isEntry
      have below := lawful.fresh _ (List.mem_of_getElem? isRequest)
      rw [Bool.not_eq_true', beq_eq_false_iff_ne]
      exact Int.ne_of_lt below
    have added :
        Rows.put client.nextRequestID client.requests.length client.pending =
          (client.nextRequestID, client.requests.length) ::
            client.pending :=
      congrArg _ (filter_eq_self.mpr isNew)
    refine
      { keys := Rows.nodup_put lawful.keys _
        once := ?_
        waiting := ?_
        answered := ?_
        timed := ?_
        numbered := ?_
        fresh := ?_ }
    · dsimp only
      rw [added, map_cons, length_append, length_singleton,
        range_succ]
      exact (perm_middle.trans (lawful.once.cons _)).trans
        (perm_append_singleton _ _).symm
    · intro id continuation isPending
      dsimp only at isPending ⊢
      rw [added] at isPending
      refine ⟨socket, isInstalled, ?_⟩
      rcases mem_cons.mp isPending with isAdded | old
      · cases isAdded
        exact List.getElem?_concat_length
      · obtain ⟨other, isOther, isRequest⟩ :=
          lawful.waiting id continuation old
        rw [isInstalled] at isOther
        cases isOther
        exact getElem?_grown isRequest
    · intro resumption isResumed responseSocket id succeeded isResponse
      obtain ⟨generation, isRequest⟩ := lawful.answered resumption isResumed
        responseSocket id succeeded isResponse
      exact ⟨generation, getElem?_grown isRequest⟩
    · intro id isTimed
      dsimp only at isTimed ⊢
      rw [added, map_cons]
      split at isTimed
      · exact mem_cons_of_mem _ (lawful.timed id isTimed)
      · rcases mem_cons.mp isTimed with rfl | old
        · exact mem_cons_self
        · exact mem_cons_of_mem _
            (lawful.timed id (mem_filter.mp old).1)
    · dsimp only
      rw [map_append, map_singleton]
      refine nodup_append.mpr
        ⟨lawful.numbered, nodup_singleton _, ?_⟩
      intro id isOld other isNewId
      obtain ⟨request, isRequest, rfl⟩ := List.mem_map.mp isOld
      cases mem_singleton.mp isNewId
      exact Int.ne_of_lt (lawful.fresh request isRequest)
    · intro request isRequest
      rcases mem_append.mp isRequest with old | isAdded
      · exact later request old
      · cases mem_singleton.mp isAdded
        exact Int.lt_succ _

/-- An incoming message resolves a request of its own connection. -/
theorem handle
    {socket : Nat}
    (isInstalled : client.socket = some socket)
    (message : RPCMessage) :
    (client.handle socket message).Lawful := by
  have ofResponse : ∀ id succeeded,
      (client.resolveRequest id (.response socket id succeeded)).Lawful := by
    intro id succeeded
    refine lawful.resolveRequest id _ ?_
    intro other otherId otherSucceeded same
    cases same
    exact ⟨rfl, isInstalled⟩
  unfold RPCClient.handle
  split
  · exact lawful
  · split
    · exact ofResponse _ true
    · split
      · exact ofResponse _ false
      · exact lawful
  · exact lawful

theorem connect
    (task : Nat)
    (isCancelled : Bool) :
    (client.connect task isCancelled).Lawful := by
  unfold RPCClient.connect
  split
  · exact lawful
  · have installed :=
      lawful.disconnect.install rfl client.sockets .connecting
    have asked := installed.request rfl isCancelled false
    split
    · exact asked.connectFails task _
    · exact asked.move task _

theorem connectResumes
    (task generation continuation : Nat)
    (cause : ResumeCause) :
    (client.connectResumes task generation continuation cause).Lawful := by
  unfold RPCClient.connectResumes
  split
  · split
    · split
      · exact lawful.move task _
      · exact lawful.connectFails task generation
    · exact lawful.connectFails task generation
  · exact lawful.connectFails task generation

theorem connectNotified
    (task generation continuation socket : Nat)
    (sent : Bool) :
    (client.connectNotified task generation continuation socket
      sent).Lawful := by
  unfold RPCClient.connectNotified
  split
  · exact { lawful with }
  · exact lawful.connectFails task generation

theorem step
    {action : RPCStep}
    (taken : client.run action = some next) :
    next.Lawful := by
  have ofOther : ∀ id cause,
      (∀ socket responseId succeeded,
        cause ≠ .response socket responseId succeeded) →
      (client.resolveRequest id cause).Lawful := by
    intro id cause isOther
    refine lawful.resolveRequest id cause ?_
    intro socket responseId succeeded isResponse
    exact absurd isResponse (isOther socket responseId succeeded)
  cases action with
  | connect task isCancelled =>
    simp only [run] at taken
    split at taken
    · cases taken
      exact lawful.connect task isCancelled
    · cases taken
  | connectResumes task =>
    simp only [run] at taken
    split at taken
    · obtain ⟨resumption, _, rfl⟩ := Option.map_eq_some_iff.mp taken
      exact lawful.connectResumes task _ _ resumption.cause
    · cases taken
  | notified task sent =>
    simp only [run] at taken
    split at taken
    · cases taken
      exact lawful.connectNotified task _ _ _ sent
    · cases taken
  | disconnect =>
    cases taken
    exact lawful.disconnect
  | request isCancelled disableTimeout =>
    simp only [run] at taken
    split at taken
    · cases taken
      exact lawful
    · case _ socket isInstalled =>
        cases taken
        exact lawful.request isInstalled isCancelled disableTimeout
  | receive socket message =>
    simp only [run] at taken
    split at taken
    · case _ isInstalled =>
        cases taken
        exact lawful.handle isInstalled message
    · cases taken
      exact lawful
  | receiveFails socket isCancelled =>
    simp only [run] at taken
    split at taken
    · cases taken
      exact lawful.failConnection
    · cases taken
      exact lawful
  | sendFails id =>
    cases taken
    exact ofOther id .sendFailure fun _ _ _ isResponse => by
      cases isResponse
  | deadline id =>
    cases taken
    exact ofOther id .deadline fun _ _ _ isResponse => by cases isResponse
  | cancel id =>
    cases taken
    exact ofOther id .cancellation fun _ _ _ isResponse => by
      cases isResponse

end

theorem of_reachable
    (reachable : rpcMachine.Reachable client) :
    client.Lawful := by
  refine reachable.invariant ?_ ?_
  · rintro client rfl
    exact new
  · intro client action next lawful taken
    exact lawful.step taken

end Lawful

/-- What a caller of `request` relies on. -/
structure Settles (client : RPCClient) : Prop where
  /-- A continuation is resumed once, or not yet and still in the table. -/
  once :
    ∀ continuation < client.requests.length,
      (client.resumed.map Resumption.continuation).count continuation =
        if continuation ∈ client.pending.map Prod.snd then 0 else 1
  /-- Nothing else is resumed. -/
  known :
    ∀ resumption ∈ client.resumed,
      resumption.continuation < client.requests.length
  /-- No two requests have one id. -/
  numbered : (client.requests.map RPCRequest.id).Nodup
  /-- A response resolves the request with its id, of its own connection. -/
  answered :
    ∀ resumption ∈ client.resumed, ∀ socket id succeeded,
      resumption.cause = .response socket id succeeded →
      ∃ generation,
        client.requests[resumption.continuation]? =
          some ⟨id, socket, generation⟩
  /-- What is pending was asked on the connection that is installed. -/
  current :
    ∀ id continuation,
      (id, continuation) ∈ client.pending →
      ∃ socket, client.socket = some socket ∧
        client.requests[continuation]? = some ⟨id, socket, client.generation⟩
  /-- A deadline belongs to a pending request. -/
  timed : ∀ id ∈ client.deadlines, id ∈ client.pending.map Prod.fst
  /-- `disconnect` leaves nothing in the tables. -/
  cleared :
    client.disconnect.pending = [] ∧ client.disconnect.deadlines = []

/-- Over any run, every continuation is resumed once and by its own answer. -/
theorem requests_settle_once
    {client : RPCClient}
    (reachable : rpcMachine.Reachable client) :
    client.Settles := by
  have lawful := Lawful.of_reachable reachable
  refine
    { once := ?_
      known := ?_
      numbered := lawful.numbered
      answered := lawful.answered
      current := lawful.waiting
      timed := lawful.timed
      cleared := ⟨rfl, rfl⟩ }
  · intro continuation isMade
    have together := lawful.once.count_eq continuation
    rw [count_append, count_eq_one_of_mem nodup_range
      (mem_range.mpr isMade)] at together
    split
    · case _ isPending =>
        have := count_pos_iff.mpr isPending
        omega
    · case _ notPending =>
        rw [count_eq_zero.mpr notPending] at together
        exact together
  · intro resumption isResumed
    have isMember := lawful.once.mem_iff.mp
      (mem_append_left _ (List.mem_map_of_mem isResumed))
    exact mem_range.mp isMember

/-- The first request is answered, and its deadline passes afterwards. -/
theorem answered_request_is_settled :
    ∃ client : RPCClient,
      client.resumed = [⟨0, .response 0 1 true⟩] ∧
        client.pending = [] ∧ client.Settles := by
  have start : rpcMachine.Reachable new := .initial rfl
  have asked := start.step (a := RPCStep.connect 0 false) rfl
  have answered := asked.step
    (a := RPCStep.receive 0 ⟨some (some 1), none, true, false⟩) rfl
  have late := answered.step (a := RPCStep.deadline 1) rfl
  exact ⟨_, rfl, rfl, requests_settle_once late⟩

end RPCClient

end CodexPad
