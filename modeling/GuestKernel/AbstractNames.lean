import GuestKernel.Errno
import GuestKernel.Holders
import GuestKernel.KernelNumbers
import GuestKernel.Machine

namespace GuestKernel
open Function

/-!
# Abstract names of unix sockets

The table of `fs/sock.c` that gives abstract names socket ids.  It keeps the
hash of a name and not the name: `name` of an entry remembers which name it was
made for.  An entry lies in the bucket of its hash, so the search of a bucket
for a hash finds what a search of all entries finds.
-/

/-- The bytes of an abstract name, behind the null byte. -/
abbrev SockName := List UInt8

/-- One round of the loop of `str_hash`; `str[i]` is a signed `char`. -/
def hashRound (hash : BitVec 32) (ch : UInt8) : BitVec 32 :=
  33 * hash ^^^ ch.toBitVec.signExtend 32

/-- `str_hash`, which ends at a null byte. -/
def strHash (name : SockName) : BitVec 32 :=
  (name.takeWhile (· ≠ 0)).foldl hashRound 5381

/-- `struct unix_abstract`, with its identity and the name it was made for. -/
structure UnixAbstract where
  id : Nat
  name : SockName
  refcount : Nat
  hash : BitVec 32
  socketId : Nat
  deriving Repr, DecidableEq

/--
A socket: its `unix_name_abstract`, and the name that it bound successfully.
-/
structure NamedSocket where
  nameAbstract : Option Nat
  bound : Option SockName
  deriving Repr, DecidableEq

/--
The table, the open sockets, and which names resolved to which ids so far.
-/
structure AbstractWorld where
  table : List UnixAbstract
  nextEntry : Nat
  nextId : Nat
  sockets : Nat → Option NamedSocket
  socketCount : Nat
  resolved : List (SockName × Nat)

namespace AbstractWorld

/-- No socket and no name. -/
def empty : AbstractWorld where
  table := []
  nextEntry := 0
  nextId := 0
  sockets := fun _ => none
  socketCount := 0
  resolved := []

/-- The entry whose hash is that of a name. -/
def find (world : AbstractWorld) (name : SockName) : Option UnixAbstract :=
  world.table.find? fun entry => entry.hash == strHash name

/-- An entry was changed. -/
def setEntry (world : AbstractWorld) (changed : UnixAbstract) :
    AbstractWorld :=
  { world with
    table := world.table.map fun entry =>
      if entry.id = changed.id then changed else entry }

/-- A socket was opened, changed or closed. -/
def setSocket
    (world : AbstractWorld) (socket : Nat) (content : Option NamedSocket) :
    AbstractWorld :=
  { world with sockets := update world.sockets socket content }

/-- `unix_socket_next_id`. -/
def socketNextId (world : AbstractWorld) : Nat :=
  incremented world.nextId

/-- The entry that `unix_abstract_get` makes for a bind. -/
def newEntry (world : AbstractWorld) (name : SockName) : UnixAbstract where
  id := world.nextEntry
  name := name
  refcount := incremented 0
  hash := strHash name
  socketId := world.socketNextId

/-- The new entry is in the table, and a socket points to it. -/
def addEntry
    (world : AbstractWorld)
    (socket : Nat)
    (name : SockName)
    (bound : Option SockName) : AbstractWorld :=
  { world with
    table := world.newEntry name :: world.table
    nextEntry := world.nextEntry + 1
    nextId := world.socketNextId
    sockets :=
      update world.sockets socket
        (some ⟨some world.nextEntry, bound⟩)
    resolved := (name, world.socketNextId) :: world.resolved }

/-- `unix_abstract_get` for a bind: a name in the table is taken. -/
def abstractGetBind
    (world : AbstractWorld) (socket : Nat) (name : SockName) :
    Option (Except Errno Unit × AbstractWorld) :=
  match world.find name, world.sockets socket with
  | _, none => none
  | some _, some _ => some (.error .exist, world)
  | none, some content =>
    some (.ok (), world.addEntry socket name content.bound)

/-- `unix_abstract_get` for a lookup, which takes a reference as well. -/
def abstractGet (world : AbstractWorld) (name : SockName) :
    Except Errno Nat × AbstractWorld :=
  match world.find name with
  | none => (.error .noent, world)
  | some entry =>
    (.ok entry.socketId,
      { world.setEntry
          { entry with refcount := incremented entry.refcount } with
        resolved := (name, entry.socketId) :: world.resolved })

/-- `unix_abstract_release`; `none` is the use of an entry that was freed. -/
def abstractRelease (world : AbstractWorld) (id : Nat) :
    Option AbstractWorld :=
  match world.table.find? (·.id == id) with
  | none => none
  | some entry =>
    if decremented entry.refcount = 0 then
      some
        { world with table := world.table.filter fun other => other.id ≠ id }
    else
      some (world.setEntry
        { entry with refcount := decremented entry.refcount })

/-- `sys_bind` of an abstract name, with the answer of the host. -/
def sysBind
    (world : AbstractWorld)
    (socket : Nat)
    (name : SockName)
    (hostBind : Except Errno Unit) :
    Option (Except Errno Unit × AbstractWorld) := do
  match ← world.abstractGetBind socket name with
  | (.error code, world) => pure (.error code, world)
  | (.ok (), world) =>
    let content ← world.sockets socket
    match hostBind, content.nameAbstract with
    | .ok (), _ =>
      pure (.ok (),
        world.setSocket socket (some { content with bound := some name }))
    | .error code, none => pure (.error code, world)
    | .error code, some id =>
      -- the socket keeps its pointer to the entry
      let world ← world.abstractRelease id
      pure (.error code, world)

/-- A path takes the id of its inode; other addresses take none. -/
def withPathId (world : AbstractWorld) (isPath : Bool) : AbstractWorld :=
  { world with nextId := cond isPath world.socketNextId world.nextId }

/-- `sys_bind` of a path or of an internet address. -/
def sysBindOther
    (world : AbstractWorld)
    (socket : Nat)
    (isPath : Bool)
    (hostBind : Except Errno Unit) :
    Option (Except Errno Unit × AbstractWorld) := do
  let content ← world.sockets socket
  match hostBind, content.nameAbstract with
  | .ok (), _ => pure (.ok (), world.withPathId isPath)
  | .error code, none => pure (.error code, world.withPathId isPath)
  | .error code, some id =>
    -- an abstract name that the socket has loses its entry
    let world ← (world.withPathId isPath).abstractRelease id
    pure (.error code, world)

/-- `sock_close`. -/
def sockClose (world : AbstractWorld) (socket : Nat) :
    Option AbstractWorld := do
  let content ← world.sockets socket
  match content.nameAbstract with
  | none => pure (world.setSocket socket none)
  | some id =>
    let world ← world.abstractRelease id
    pure (world.setSocket socket none)

end AbstractWorld

/--
The calls.  `sys_connect` and `sys_sendto` look a name up in the same way; a
path name of another socket takes an id as well.
-/
inductive NameStep where
  | open
  | bind (socket : Nat) (name : SockName) (hostBind : Except Errno Unit)
  | bindOther (socket : Nat) (isPath : Bool) (hostBind : Except Errno Unit)
  | connect (socket : Nat) (name : SockName)
  | sendto (socket : Nat) (name : SockName)
  | close (socket : Nat)
  | pathId

namespace AbstractWorld

/-- One call. -/
def run (world : AbstractWorld) : NameStep → Option AbstractWorld
  | .open =>
    some
      { world with
        sockets :=
          update world.sockets world.socketCount (some ⟨none, none⟩)
        socketCount := world.socketCount + 1 }
  | .bind socket name hostBind =>
    (world.sysBind socket name hostBind).map Prod.snd
  | .bindOther socket isPath hostBind =>
    (world.sysBindOther socket isPath hostBind).map Prod.snd
  | .connect socket name =>
    (world.sockets socket).map fun _ => (world.abstractGet name).2
  | .sendto socket name =>
    (world.sockets socket).map fun _ => (world.abstractGet name).2
  | .close socket => world.sockClose socket
  | .pathId => some (world.withPathId true)

/-- Which entry a socket holds. -/
def hold (world : AbstractWorld) (socket : Nat) : Option Nat :=
  (world.sockets socket).bind NamedSocket.nameAbstract

/-- How many sockets hold an entry. -/
def holderCount (world : AbstractWorld) (id : Nat) : Nat :=
  holders world.hold (Finset.range world.socketCount) id

end AbstractWorld

/-- All sockets. -/
def nameMachine : Machine AbstractWorld NameStep where
  initial world := world = AbstractWorld.empty
  step world action next := world.run action = some next

/--
No two names resolved to one id; a name is in the table exactly while an open
socket has bound it; a refcount is the number of sockets that hold the entry;
and no socket holds an entry that was freed.
-/
structure LawfulNames (world : AbstractWorld) : Prop where
  resolves :
    ∀ first ∈ world.resolved, ∀ second ∈ world.resolved,
      first.2 = second.2 → first.1 = second.1
  listed :
    ∀ name,
      (∃ entry ∈ world.table, entry.name = name) ↔
        ∃ socket content,
          world.sockets socket = some content ∧ content.bound = some name
  counted :
    ∀ entry ∈ world.table, entry.refcount = world.holderCount entry.id
  live :
    ∀ socket id,
      world.hold socket = some id → ∃ entry ∈ world.table, entry.id = id

/--
What keeps the laws: a bind that gets a new entry is made by a socket without
one, and the host binds too; the host refuses no other bind of a socket with
an entry; a lookup finds nothing.
-/
def KeepsNames (world : AbstractWorld) : NameStep → Prop
  | .bind socket name hostBind =>
    world.find name = none → world.hold socket = none ∧ hostBind = .ok ()
  | .bindOther socket _ hostBind =>
    world.hold socket = none ∨ hostBind = .ok ()
  | .connect _ name => world.find name = none
  | .sendto _ name => world.find name = none
  | _ => True

/-- The ids do not wrap. -/
def NoIdWrap (world : AbstractWorld) : Prop :=
  world.nextId + 1 < dwordRange

/-- The machine with such steps only. -/
def lawfulMachine : Machine AbstractWorld NameStep :=
  nameMachine.restrict fun world action =>
    KeepsNames world action ∧ NoIdWrap world

/-- What holds between such steps. -/
structure NamesKept (world : AbstractWorld) : Prop where
  numbered : ∀ entry ∈ world.table, entry.id < world.nextEntry
  distinct :
    ∀ first ∈ world.table, ∀ second ∈ world.table,
      first.id = second.id → first = second
  counted :
    ∀ entry ∈ world.table, entry.refcount = world.holderCount entry.id
  single : ∀ entry ∈ world.table, entry.refcount = 1
  held :
    ∀ socket content id,
      world.sockets socket = some content →
      content.nameAbstract = some id →
      ∃ entry ∈ world.table,
        entry.id = id ∧ content.bound = some entry.name
  unbound :
    ∀ socket content,
      world.sockets socket = some content →
      content.nameAbstract = none → content.bound = none
  opened :
    ∀ socket content,
      world.sockets socket = some content → socket < world.socketCount
  resolvedIds : ∀ pair ∈ world.resolved, pair.2 ≤ world.nextId
  resolves :
    ∀ first ∈ world.resolved, ∀ second ∈ world.resolved,
      first.2 = second.2 → first.1 = second.1

end GuestKernel
