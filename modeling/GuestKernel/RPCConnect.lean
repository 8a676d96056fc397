import GuestKernel.RPCClientRuns

namespace CodexPad
open List Function

open GuestKernel

/-!
# When the client is connected

A call of `connect` knows the generation it began with.  While that generation
lasts its socket stays installed, so a call that comes back from its
notification in its own generation publishes a connection that is complete.
-/

namespace RPCClient

/-- The connection that is installed has had its handshake. -/
def IsComplete (client : RPCClient) : Prop :=
  ∃ socket id continuation,
    client.socket = some socket ∧
    socket ∉ client.cancelled ∧
    client.requests[continuation]? = some ⟨id, socket, client.generation⟩ ∧
    ⟨continuation, .response socket id true⟩ ∈ client.resumed ∧
    ⟨client.generation, continuation, socket⟩ ∈ client.handshakes ∧
    client.publisher = some client.generation

/-- What the calls of `connect` know of their connections. -/
structure Connecting (client : RPCClient) : Prop where
  installed :
    ∀ socket, client.socket = some socket →
      socket ∉ client.cancelled ∧ socket < client.sockets
  retired : ∀ socket ∈ client.cancelled, socket < client.sockets
  asked :
    ∀ request ∈ client.requests,
      request.generation ≤ client.generation ∧
        (request.generation = client.generation →
          client.socket = some request.socket)
  initializing :
    ∀ task generation continuation,
      client.connects task = .initializing generation continuation →
      ∃ id socket,
        client.requests[continuation]? = some ⟨id, socket, generation⟩
  notifying :
    ∀ task generation continuation socket,
      client.connects task = .notifying generation continuation socket →
      ∃ id,
        client.requests[continuation]? = some ⟨id, socket, generation⟩ ∧
          ⟨continuation, .response socket id true⟩ ∈ client.resumed
  published : client.state = .connected → client.IsComplete

namespace Connecting

variable {client next : RPCClient}

theorem new : Connecting .new where
  installed := fun _ isInstalled => by cases isInstalled
  retired := fun _ isRetired => by cases isRetired
  asked := fun _ isRequest => by cases isRequest
  initializing := fun _ _ _ isPlace => by cases isPlace
  notifying := fun _ _ _ _ isPlace => by cases isPlace
  published := fun isConnected => by cases isConnected

section

variable (connecting : client.Connecting)
include connecting

/-- The calls know a connection while requests are only added and resumed. -/
theorem grow
    (sameState : next.state = client.state)
    (sameSocket : next.socket = client.socket)
    (sameGeneration : next.generation = client.generation)
    (sameConnects : next.connects = client.connects)
    (sameSockets : next.sockets = client.sockets)
    (sameCancelled : next.cancelled = client.cancelled)
    (sameHandshakes : next.handshakes = client.handshakes)
    (samePublisher : next.publisher = client.publisher)
    (keptRequests :
      ∀ (continuation : Nat) (request : RPCRequest),
        client.requests[continuation]? = some request →
        next.requests[continuation]? = some request)
    (newRequests :
      ∀ request ∈ next.requests,
        request ∈ client.requests ∨
          request.generation = client.generation ∧
            client.socket = some request.socket)
    (keptResumed : client.resumed ⊆ next.resumed) :
    next.Connecting where
  installed := by
    rw [sameSocket, sameSockets, sameCancelled]
    exact connecting.installed
  retired := by
    rw [sameSockets, sameCancelled]
    exact connecting.retired
  asked := by
    intro request isRequest
    rw [sameGeneration, sameSocket]
    rcases newRequests request isRequest with old | ⟨isCurrent, isInstalled⟩
    · exact connecting.asked request old
    · exact ⟨isCurrent.le, fun _ => isInstalled⟩
  initializing := by
    intro task generation continuation isPlace
    rw [sameConnects] at isPlace
    obtain ⟨id, socket, isRequest⟩ :=
      connecting.initializing task generation continuation isPlace
    exact ⟨id, socket, keptRequests _ _ isRequest⟩
  notifying := by
    intro task generation continuation socket isPlace
    rw [sameConnects] at isPlace
    obtain ⟨id, isRequest, isResumed⟩ :=
      connecting.notifying task generation continuation socket isPlace
    exact ⟨id, keptRequests _ _ isRequest, keptResumed isResumed⟩
  published := by
    intro isConnected
    rw [sameState] at isConnected
    obtain ⟨socket, id, continuation, isInstalled, isLive, isRequest, isResumed,
      isDone, isPublisher⟩ := connecting.published isConnected
    refine ⟨socket, id, continuation, sameSocket.trans isInstalled, ?_, ?_,
      keptResumed isResumed, ?_, ?_⟩
    · rw [sameCancelled]
      exact isLive
    · rw [sameGeneration]
      exact keptRequests _ _ isRequest
    · rw [sameHandshakes, sameGeneration]
      exact isDone
    · rw [samePublisher, sameGeneration]
      exact isPublisher

/-- `disconnect` begins a generation without a socket. -/
theorem disconnect :
    client.disconnect.Connecting where
  installed := fun _ isInstalled => by cases isInstalled
  retired := by
    intro socket isRetired
    rcases mem_append.mp isRetired with old | new
    · exact connecting.retired socket old
    · exact (connecting.installed socket (Option.mem_toList.mp new)).2
  asked := by
    intro request isRequest
    have before := (connecting.asked request isRequest).1
    exact ⟨Nat.le_succ_of_le before,
      fun isCurrent => absurd isCurrent (Nat.ne_of_lt (Nat.lt_succ_of_le before))⟩
  initializing := connecting.initializing
  notifying := by
    intro task generation continuation socket isPlace
    obtain ⟨id, isRequest, isResumed⟩ :=
      connecting.notifying task generation continuation socket isPlace
    exact ⟨id, isRequest, mem_append_left _ isResumed⟩
  published := fun isConnected => by cases isConnected

theorem failConnection :
    client.failConnection.Connecting :=
  { connecting.disconnect with
    published := fun isConnected => by cases isConnected }

/-- One call moves; what it knows at its new place is to be shown. -/
theorem move
    (task : Nat)
    (place : ConnectPlace)
    (atInitializing :
      ∀ generation continuation,
        place = .initializing generation continuation →
        ∃ id socket,
          client.requests[continuation]? = some ⟨id, socket, generation⟩)
    (atNotifying :
      ∀ generation continuation socket,
        place = .notifying generation continuation socket →
        ∃ id,
          client.requests[continuation]? = some ⟨id, socket, generation⟩ ∧
            ⟨continuation, .response socket id true⟩ ∈ client.resumed) :
    (client.move task place).Connecting :=
  { connecting with
    initializing := by
      intro other generation continuation isPlace
      by_cases same : other = task
      · subst same
        exact atInitializing generation continuation
          ((update_self _ _ _).symm.trans isPlace)
      · exact connecting.initializing other generation continuation
          ((update_of_ne same _ _).symm.trans isPlace)
    notifying := by
      intro other generation continuation socket isPlace
      by_cases same : other = task
      · subst same
        exact atNotifying generation continuation socket
          ((update_self _ _ _).symm.trans isPlace)
      · exact connecting.notifying other generation continuation socket
          ((update_of_ne same _ _).symm.trans isPlace) }

theorem ends
    (task : Nat) :
    (client.move task .idle).Connecting := by
  refine connecting.move task .idle ?_ ?_
  · intro generation continuation isPlace
    cases isPlace
  · intro generation continuation socket isPlace
    cases isPlace

theorem connectFails
    (task generation : Nat) :
    (client.connectFails task generation).Connecting := by
  unfold RPCClient.connectFails
  split
  · exact connecting.failConnection.ends task
  · exact connecting.ends task

/-- A new socket is installed after a `disconnect`. -/
theorem install
    (noneAsked :
      ∀ request ∈ client.requests, request.generation ≠ client.generation) :
    Connecting
      { client with
        state := .connecting
        socket := some client.sockets
        sockets := client.sockets + 1 } :=
  { connecting with
    installed := by
      intro socket isInstalled
      cases isInstalled
      exact ⟨fun isRetired =>
        Nat.lt_irrefl _ (connecting.retired _ isRetired), Nat.lt_succ_self _⟩
    retired := fun socket isRetired =>
      Nat.lt_succ_of_lt (connecting.retired socket isRetired)
    asked := fun request isRequest =>
      ⟨(connecting.asked request isRequest).1,
        fun isCurrent => absurd isCurrent (noneAsked request isRequest)⟩
    published := fun isConnected => by cases isConnected }

/-- A request is added on the socket that is installed. -/
theorem request
    {socket : Nat}
    (isInstalled : client.socket = some socket)
    (isCancelled disableTimeout : Bool) :
    (client.request socket isCancelled disableTimeout).Connecting := by
  unfold RPCClient.request
  split
  · exact connecting.grow rfl rfl rfl rfl rfl rfl rfl rfl
      (fun _ _ isRequest => isRequest) (fun _ isRequest => .inl isRequest)
      (List.Subset.refl _)
  · refine connecting.grow rfl rfl rfl rfl rfl rfl rfl rfl ?_ ?_
      (List.Subset.refl _)
    · intro continuation request isRequest
      exact getElem?_grown isRequest
    · intro request isRequest
      rcases mem_append.mp isRequest with old | isAdded
      · exact .inl old
      · cases mem_singleton.mp isAdded
        exact .inr ⟨rfl, isInstalled⟩

theorem resolveRequest
    (id : Int)
    (cause : ResumeCause) :
    (client.resolveRequest id cause).Connecting := by
  unfold RPCClient.resolveRequest
  split
  · exact connecting
  · exact connecting.grow rfl rfl rfl rfl rfl rfl rfl rfl
      (fun _ _ isRequest => isRequest) (fun _ isRequest => .inl isRequest)
      (subset_append_left _ _)

theorem handle
    (socket : Nat)
    (message : RPCMessage) :
    (client.handle socket message).Connecting := by
  unfold RPCClient.handle
  split
  · exact connecting
  · split
    · exact connecting.resolveRequest _ _
    · split
      · exact connecting.resolveRequest _ _
      · exact connecting
  · exact connecting

/-- A call begins a connection and asks on it. -/
theorem connect
    (task : Nat)
    (isCancelled : Bool) :
    (client.connect task isCancelled).Connecting := by
  unfold RPCClient.connect
  split
  · exact connecting
  · have installed := connecting.disconnect.install fun request isRequest =>
      Nat.ne_of_lt (Nat.lt_succ_of_le (connecting.asked request isRequest).1)
    have asked := installed.request rfl isCancelled false
    split
    · exact asked.connectFails task _
    · case _ notCancelled =>
        refine asked.move task _ ?_ ?_
        · intro generation continuation isPlace
          cases isPlace
          refine ⟨client.nextRequestID, client.sockets, ?_⟩
          simp only [RPCClient.request, notCancelled]
          exact List.getElem?_concat_length
        · intro generation continuation socket isPlace
          cases isPlace

/-- A call whose `initialize` was answered goes on in its own generation. -/
theorem connectResumes
    {task generation continuation : Nat}
    {cause : ResumeCause}
    (lawful : client.Lawful)
    (isPlace :
      client.connects task = .initializing generation continuation)
    (isResumed : ⟨continuation, cause⟩ ∈ client.resumed) :
    (client.connectResumes task generation continuation
      cause).Connecting := by
  unfold RPCClient.connectResumes
  split
  · case _ answerSocket answerId =>
      split
      · case _ isCurrent =>
          split
          · case _ socket isInstalled =>
              obtain ⟨id, ownSocket, isRequest⟩ :=
                connecting.initializing task generation continuation isPlace
              obtain ⟨_, isAnswered⟩ :=
                lawful.answered _ isResumed answerSocket answerId true rfl
              rw [isRequest] at isAnswered
              cases isAnswered
              have own := (connecting.asked _
                (List.mem_of_getElem? isRequest)).2 isCurrent.symm
              rw [isInstalled] at own
              cases own
              refine connecting.move task _ ?_ ?_
              · intro _ _ isOther
                cases isOther
              · intro _ _ _ same
                cases same
                exact ⟨_, isRequest, isResumed⟩
          · exact connecting.connectFails task generation
      · exact connecting.connectFails task generation
  · exact connecting.connectFails task generation

/-- A call that was not overtaken publishes a complete connection. -/
theorem connectNotified
    {task generation continuation socket : Nat}
    {sent : Bool}
    (isPlace :
      client.connects task = .notifying generation continuation socket)
    (isCurrent : sent = true → client.generation = generation) :
    (client.connectNotified task generation continuation socket
      sent).Connecting := by
  unfold RPCClient.connectNotified
  split
  · case _ isSent =>
      obtain ⟨id, isRequest, isResumed⟩ :=
        connecting.notifying task generation continuation socket isPlace
      obtain rfl := isCurrent isSent
      have isInstalled := (connecting.asked _
        (List.mem_of_getElem? isRequest)).2 rfl
      exact
        { connecting.ends task with
          published := fun _ =>
            ⟨socket, id, continuation, isInstalled,
              (connecting.installed socket isInstalled).1, isRequest, isResumed,
              mem_append_right _ (mem_singleton.mpr rfl), rfl⟩ }
  · exact connecting.connectFails task generation

/-- Every step of a call that is not overtaken keeps this. -/
theorem step
    {action : RPCStep}
    (lawful : client.Lawful)
    (isOwn : client.IsNotOvertaken action)
    (taken : client.run action = some next) :
    next.Connecting := by
  cases action with
  | connect task isCancelled =>
    simp only [run] at taken
    split at taken
    · cases taken
      exact connecting.connect task isCancelled
    · cases taken
  | connectResumes task =>
    simp only [run] at taken
    split at taken
    · case _ generation continuation isPlace =>
        obtain ⟨resumption, found, rfl⟩ := Option.map_eq_some_iff.mp taken
        have isResumed := List.mem_of_find?_eq_some found
        have isOwnResumption := List.find?_some found
        cases beq_iff_eq.mp isOwnResumption
        exact connecting.connectResumes lawful isPlace isResumed
    · cases taken
  | notified task sent =>
    simp only [run] at taken
    split at taken
    · case _ generation continuation socket isPlace =>
        cases taken
        refine connecting.connectNotified isPlace ?_
        rintro rfl
        simp only [IsNotOvertaken, isPlace] at isOwn
        exact isOwn
    · cases taken
  | disconnect =>
    cases taken
    exact connecting.disconnect
  | request isCancelled disableTimeout =>
    simp only [run] at taken
    split at taken
    · cases taken
      exact connecting
    · case _ socket isInstalled =>
        cases taken
        exact connecting.request isInstalled isCancelled disableTimeout
  | receive socket message =>
    simp only [run] at taken
    split at taken
    · cases taken
      exact connecting.handle socket message
    · cases taken
      exact connecting
  | receiveFails socket isCancelled =>
    simp only [run] at taken
    split at taken
    · cases taken
      exact connecting.failConnection
    · cases taken
      exact connecting
  | sendFails id | deadline id | cancel id =>
    cases taken
    exact connecting.resolveRequest id _

end

end Connecting

/-- Where no call is overtaken, a connected client has a complete connection. -/
theorem connected_is_complete
    {client : RPCClient}
    (reachable : undisturbedMachine.Reachable client)
    (isConnected : client.state = .connected) :
    client.IsComplete := by
  have both : client.Lawful ∧ client.Connecting := by
    refine reachable.invariant
      (motive := fun client => client.Lawful ∧ client.Connecting) ?_ ?_
    · rintro client rfl
      exact ⟨Lawful.new, Connecting.new⟩
    · rintro client action next ⟨lawful, connecting⟩ ⟨isOwn, taken⟩
      exact ⟨lawful.step taken, connecting.step lawful isOwn taken⟩
  exact both.2.published isConnected

/-- A connection is made; the `connect` before it was overtaken in time. -/
theorem second_connect_is_complete :
    ∃ client : RPCClient,
      client.generation = 2 ∧ client.IsComplete := by
  have start : undisturbedMachine.Reachable new := .initial rfl
  have first := start.step (a := RPCStep.connect 0 false) ⟨trivial, rfl⟩
  have second := first.step (a := RPCStep.connect 1 false) ⟨trivial, rfl⟩
  have overtaken := second.step (a := RPCStep.connectResumes 0) ⟨trivial, rfl⟩
  have answered := overtaken.step
    (a := RPCStep.receive 1 ⟨some (some 2), none, true, false⟩) ⟨trivial, rfl⟩
  have asked := answered.step (a := RPCStep.connectResumes 1) ⟨trivial, rfl⟩
  have done := asked.step (a := RPCStep.notified 1 true) ⟨rfl, rfl⟩
  exact ⟨_, rfl, connected_is_complete done rfl⟩

/-- `disconnect` while `connect` sends its notification. -/
theorem overtaken_connect_is_connected :
    ¬∀ client, rpcMachine.Reachable client → client.state = .connected →
      client.IsComplete := by
  intro always
  have start : rpcMachine.Reachable new := .initial rfl
  have first := start.step (a := RPCStep.connect 0 false) rfl
  have answered := first.step
    (a := RPCStep.receive 0 ⟨some (some 1), none, true, false⟩) rfl
  have asked := answered.step (a := RPCStep.connectResumes 0) rfl
  have gone := asked.step (a := RPCStep.disconnect) rfl
  have done := gone.step (a := RPCStep.notified 0 true) rfl
  obtain ⟨socket, _, _, isInstalled, _⟩ := always _ done rfl
  cases isInstalled

end RPCClient

end CodexPad
