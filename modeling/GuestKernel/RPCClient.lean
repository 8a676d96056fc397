import GuestKernel.Machine
import GuestKernel.Rows
import Mathlib.Logic.Function.Basic

namespace CodexPad

open GuestKernel

/-!
# The client of the app server

`CodexRPCClient` of `CodexRPC.swift`.  Everything runs on the main actor, so
what stands between two suspension points is one step.  A continuation is
numbered as it is made; sockets are numbered as well.  The sleeps of deadlines,
the sends and the cancellations end at any time, also when it is too late.
-/

/-- `CodexRPCClient.State`. -/
inductive ConnectionState where
  | disconnected
  | connecting
  | connected
  | failed
  deriving Repr, DecidableEq

/-- What a request was made with. -/
structure RPCRequest where
  id : Int
  socket : Nat
  generation : Nat
  deriving Repr, DecidableEq

/-- Why a continuation is resumed. -/
inductive ResumeCause where
  | response (socket : Nat) (id : Int) (succeeded : Bool)
  | deadline
  | sendFailure
  | cancellation
  | disconnected
  deriving Repr, DecidableEq

/-- A continuation that is resumed. -/
structure Resumption where
  continuation : Nat
  cause : ResumeCause
  deriving Repr, DecidableEq

/-- Where a call of `connect` waits. -/
inductive ConnectPlace where
  | idle
  /-- For the response to `initialize`. -/
  | initializing (generation continuation : Nat)
  /-- For the notification to be sent. -/
  | notifying (generation continuation socket : Nat)
  deriving Repr, DecidableEq

/-- A connection whose `initialize` and `initialized` are done. -/
structure Handshake where
  generation : Nat
  continuation : Nat
  socket : Nat
  deriving Repr, DecidableEq

/--
The fields of an incoming object that are read: whether there is an `id`, and
its `intValue`; the `method`, if it is a string; a `result`; an `error` object.
-/
structure RPCMessage where
  id : Option (Option Int)
  method : Option String
  result : Bool
  error : Bool
  deriving Repr, DecidableEq

/-- The client, and what it has done. -/
structure RPCClient where
  state : ConnectionState
  socket : Option Nat
  nextRequestID : Int
  pending : List (Int × Nat)
  deadlines : List Int
  generation : Nat
  connects : Nat → ConnectPlace
  /-- How many sockets were made, and those cancelled. -/
  sockets : Nat
  cancelled : List Nat
  /-- The requests of all continuations, in order. -/
  requests : List RPCRequest
  resumed : List Resumption
  handshakes : List Handshake
  /-- The generation of the `connect` that last set the state. -/
  publisher : Option Nat

/-- Steps on the main actor. -/
inductive RPCStep where
  | connect (task : Nat) (isCancelled : Bool)
  | connectResumes (task : Nat)
  | notified (task : Nat) (sent : Bool)
  | disconnect
  | request (isCancelled disableTimeout : Bool)
  | receive (socket : Nat) (message : RPCMessage)
  | receiveFails (socket : Nat) (isCancelled : Bool)
  | sendFails (id : Int)
  | deadline (id : Int)
  | cancel (id : Int)

namespace RPCClient

/-- A new client. -/
def new : RPCClient where
  state := .disconnected
  socket := none
  nextRequestID := 1
  pending := []
  deadlines := []
  generation := 0
  connects := fun _ => .idle
  sockets := 0
  cancelled := []
  requests := []
  resumed := []
  handshakes := []
  publisher := none

/-- `disconnect`. -/
def disconnect (client : RPCClient) : RPCClient :=
  { client with
    generation := client.generation + 1
    cancelled := client.cancelled ++ client.socket.toList
    socket := none
    resumed := client.resumed ++
      client.pending.map fun entry => ⟨entry.2, .disconnected⟩
    pending := []
    deadlines := []
    state := .disconnected }

/-- `failConnection`. -/
def failConnection (client : RPCClient) : RPCClient :=
  { client.disconnect with state := .failed }

/-- `resolveRequest`. -/
def resolveRequest (client : RPCClient) (id : Int) (cause : ResumeCause) :
    RPCClient :=
  match client.pending.lookup id with
  | none => client
  | some continuation =>
    { client with
      pending := Rows.takeOut id client.pending
      deadlines := client.deadlines.filter fun other => !(other == id)
      resumed := client.resumed ++ [⟨continuation, cause⟩] }

/-- The first segment of `request`; a cancelled task takes only a number. -/
def request (client : RPCClient) (socket : Nat)
    (isCancelled disableTimeout : Bool) : RPCClient :=
  let id := client.nextRequestID
  let client := { client with nextRequestID := id + 1 }
  if isCancelled then
    client
  else
    { client with
      pending := Rows.put id client.requests.length client.pending
      deadlines :=
        if disableTimeout then client.deadlines
        else id :: client.deadlines.filter fun other => !(other == id)
      requests := client.requests ++ [⟨id, socket, client.generation⟩] }

/-- `handle`; requests and notifications go to `inboundHandler`. -/
def handle (client : RPCClient) (socket : Nat) (message : RPCMessage) :
    RPCClient :=
  match message.method, message.id with
  | some _, _ => client
  | none, some (some id) =>
    if message.result then
      client.resolveRequest id (.response socket id true)
    else if message.error then
      client.resolveRequest id (.response socket id false)
    else
      client
  | none, _ => client

/-- Move one call of `connect`. -/
def move (client : RPCClient) (task : Nat) (place : ConnectPlace) :
    RPCClient :=
  { client with connects := Function.update client.connects task place }

/-- The `catch` of `connect`. -/
def connectFails (client : RPCClient) (task generation : Nat) : RPCClient :=
  if client.generation = generation then
    client.failConnection.move task .idle
  else
    client.move task .idle

/-- `connect`, up to its request. -/
def connect (client : RPCClient) (task : Nat) (isCancelled : Bool) :
    RPCClient :=
  if client.state = .connected then
    client
  else
    let client := client.disconnect
    let generation := client.generation
    let socket := client.sockets
    let client :=
      { client with
        state := .connecting
        socket := some socket
        sockets := socket + 1 }
    let continuation := client.requests.length
    let client := client.request socket isCancelled false
    if isCancelled then
      client.connectFails task generation
    else
      client.move task (.initializing generation continuation)

/-- `connect` after its request, up to the notification. -/
def connectResumes (client : RPCClient) (task generation continuation : Nat)
    (cause : ResumeCause) : RPCClient :=
  match cause with
  | .response _ _ true =>
    if client.generation = generation then
      match client.socket with
      | some socket =>
        client.move task (.notifying generation continuation socket)
      | none => client.connectFails task generation
    else
      client.connectFails task generation
  | _ => client.connectFails task generation

/-- `connect` after its notification. -/
def connectNotified
    (client : RPCClient) (task generation continuation socket : Nat)
    (sent : Bool) : RPCClient :=
  if sent then
    { client.move task .idle with
      state := .connected
      handshakes := client.handshakes ++ [⟨generation, continuation, socket⟩]
      publisher := some generation }
  else
    client.connectFails task generation

/-- One step. -/
def run (client : RPCClient) : RPCStep → Option RPCClient
  | .connect task isCancelled =>
    if client.connects task = .idle then
      some (client.connect task isCancelled)
    else
      none
  | .connectResumes task =>
    match client.connects task with
    | .initializing generation continuation =>
      (client.resumed.find? fun resumption =>
          resumption.continuation == continuation).map fun resumption =>
        client.connectResumes task generation continuation
          resumption.cause
    | _ => none
  | .notified task sent =>
    match client.connects task with
    | .notifying generation continuation socket =>
      some (client.connectNotified task generation continuation socket
        sent)
    | _ => none
  | .disconnect => some client.disconnect
  | .request isCancelled disableTimeout =>
    match client.socket with
    | none => some client
    | some socket => some (client.request socket isCancelled disableTimeout)
  | .receive socket message =>
    if client.socket = some socket then
      some (client.handle socket message)
    else
      some client
  | .receiveFails socket isCancelled =>
    if !isCancelled ∧ client.socket = some socket then
      some client.failConnection
    else
      some client
  | .sendFails id => some (client.resolveRequest id .sendFailure)
  | .deadline id => some (client.resolveRequest id .deadline)
  | .cancel id => some (client.resolveRequest id .cancellation)

end RPCClient

/-- The client from the start on. -/
def rpcMachine : Machine RPCClient RPCStep where
  initial client := client = .new
  step client action next := client.run action = some next

/--
A call of `connect` comes back from its notification only if no `disconnect`,
failure or newer `connect` has come in between.
-/
def RPCClient.IsNotOvertaken (client : RPCClient) : RPCStep → Prop
  | .notified task true =>
    match client.connects task with
    | .notifying generation _ _ => client.generation = generation
    | _ => True
  | _ => True

/-- The machine with these steps only. -/
def undisturbedMachine : Machine RPCClient RPCStep :=
  rpcMachine.restrict RPCClient.IsNotOvertaken

end CodexPad
