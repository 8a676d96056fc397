import GuestKernel.Errno
import GuestKernel.KernelNumbers
import GuestKernel.Machine
import GuestKernel.OwnerLists

namespace GuestKernel
open List Option Function

/-!
# Registrations

`sys_epoll_ctl` of `kernel/epoll.c` on any number of polls, with the lists of
`fs/poll.c` on both sides of a registration.  `EPOLL_CTL_ADD` tests for the file
in one critical section and registers it in another.  A descriptor that a call
has looked up is not retained: it can be closed before the call goes on.

`poll_cleanup_fd` and `poll_destroy` go from entry to entry, each a step.
`poll_destroy` holds no lock of the poll and keeps pointers to two entries: what
another thread does to the list in the meantime can have any effect, and so can
the use of freed memory.
-/

/-- How a call ends. -/
inductive CtlResult where
  | ok
  | failed (code : Errno)
  deriving Repr, DecidableEq

/--
A file or a poll: in use, on the last close, without entries for good, and
without its memory.
-/
inductive Lifetime where
  | opened
  | closing
  | cleaned
  | freed
  deriving Repr, DecidableEq

/-- An `EPOLL_CTL_ADD`, and whether the file was registered when it ended. -/
structure AddReturn where
  wasRegistered : Bool
  result : CtlResult
  deriving Repr, DecidableEq

/-- The operations; an addition has made its test or not. -/
inductive CtlOp where
  | add (tested : Bool)
  | mod
  | del
  deriving Repr, DecidableEq

/-- A call of `sys_epoll_ctl` that has looked up its two descriptors. -/
structure CtlCall where
  op : CtlOp
  poll : Nat
  fd : FdId
  deriving Repr, DecidableEq

/--
The entries, by their memory: `poll_fd->fd`, `poll_fd->poll`, the lists they are
on, and the free lists of the polls.
-/
structure CtlWorld where
  fdOf : Nat → Option FdId
  pollOf : Nat → Option Nat
  fdLists : FdId → List Nat
  pollLists : Nat → List Nat
  freelists : Nat → List Nat
  nextSlot : Nat
  fds : FdId → Lifetime
  polls : Nat → Lifetime
  calls : Nat → Option CtlCall
  returns : List AddReturn

/-- Steps of threads. -/
inductive CtlStep where
  /-- `sys_epoll_ctl` up to its critical sections. -/
  | lookup (thread : Nat) (call : CtlCall)
  /-- `poll_has_fd` of an `EPOLL_CTL_ADD`. -/
  | test (thread : Nat)
  /-- `poll_add_fd`; it may find no memory, or the host may refuse. -/
  | insert (thread : Nat) (error : Option Errno)
  /-- `poll_mod_fd`. -/
  | mod (thread : Nat)
  /-- `poll_del_fd`; the host may refuse. -/
  | del (thread : Nat) (error : Option Errno)
  /-- The last `fd_close`, up to the lock of `poll_cleanup_fd`. -/
  | closeFd (fd : FdId)
  /-- The next entry in `poll_cleanup_fd`. -/
  | cleanupEntry (fd : FdId)
  /-- The end of `poll_cleanup_fd`. -/
  | cleanedFd (fd : FdId)
  /-- The end of `fd_close`. -/
  | freeFd (fd : FdId)
  /-- `epoll_close`. -/
  | closePoll (poll : Nat)
  /-- The next entry in `poll_destroy`. -/
  | destroyEntry (poll : Nat)
  /-- The end of `poll_destroy`. -/
  | freePoll (poll : Nat)

namespace CtlWorld

/-- Nothing is registered. -/
def empty : CtlWorld where
  fdOf := fun _ => none
  pollOf := fun _ => none
  fdLists := fun _ => []
  pollLists := fun _ => []
  freelists := fun _ => []
  nextSlot := 0
  fds := fun _ => .opened
  polls := fun _ => .opened
  calls := fun _ => none
  returns := []

/-- `poll_find_fd`. -/
def pollFindFd (world : CtlWorld) (poll : Nat) (fd : FdId) : Option Nat :=
  (world.pollLists poll).find? fun slot => world.fdOf slot == some fd

/-- `poll_has_fd`. -/
def pollHasFd (world : CtlWorld) (poll : Nat) (fd : FdId) : Bool :=
  (world.pollFindFd poll fd).isSome

/-- The memory of a new entry: the first of the free list, or new. -/
def allocate (world : CtlWorld) (poll : Nat) : Nat × CtlWorld :=
  match world.freelists poll with
  | slot :: rest =>
    (slot,
      { world with freelists := update world.freelists poll rest })
  | [] => (world.nextSlot, { world with nextSlot := world.nextSlot + 1 })

/-- Put an entry on both of its lists. -/
def link (world : CtlWorld) (slot poll : Nat) (fd : FdId) : CtlWorld :=
  { world with
    fdOf := update world.fdOf slot (some fd)
    pollOf := update world.pollOf slot (some poll)
    fdLists := update world.fdLists fd (slot :: world.fdLists fd)
    pollLists :=
      update world.pollLists poll (slot :: world.pollLists poll) }

/-- Take an entry off both of its lists; its memory is marked free. -/
def unlink (world : CtlWorld) (slot poll : Nat) (fd : FdId) : CtlWorld :=
  { world with
    fdOf := update world.fdOf slot none
    pollOf := update world.pollOf slot none
    fdLists :=
      update world.fdLists fd ((world.fdLists fd).erase slot)
    pollLists :=
      update world.pollLists poll ((world.pollLists poll).erase slot) }

/-- `poll_fd_free`. -/
def pollFdFree (world : CtlWorld) (slot poll : Nat) : CtlWorld :=
  { world with
    freelists :=
      update world.freelists poll (slot :: world.freelists poll) }

/-- `poll_add_fd`. -/
def pollAddFd (world : CtlWorld) (poll : Nat) (fd : FdId)
    (error : Option Errno) : CtlWorld :=
  let (slot, allocated) := world.allocate poll
  match error with
  | some .nomem => world
  | some _ => allocated.pollFdFree slot poll
  | none => allocated.link slot poll fd

/-- `poll_del_fd`. -/
def pollDelFd (world : CtlWorld) (poll : Nat) (fd : FdId)
    (error : Option Errno) : CtlWorld :=
  match world.pollFindFd poll fd, error with
  | some slot, none => (world.unlink slot poll fd).pollFdFree slot poll
  | _, _ => world

/-- One entry in `poll_cleanup_fd`. -/
def cleanupEntry (fd : FdId) (world : CtlWorld) (slot : Nat) : CtlWorld :=
  match world.pollOf slot with
  | some poll => (world.unlink slot poll fd).pollFdFree slot poll
  | none => world

/-- A call returns. -/
def finish (world : CtlWorld) (thread : Nat) : CtlWorld :=
  { world with calls := update world.calls thread none }

/-- An `EPOLL_CTL_ADD` returns. -/
def finishAdd
    (world : CtlWorld)
    (thread : Nat)
    (call : CtlCall)
    (result : CtlResult)
    (next : CtlWorld) : CtlWorld :=
  { next.finish thread with
    returns :=
      world.returns ++ [⟨world.pollHasFd call.poll call.fd, result⟩] }

/-- The call of a thread that is at this operation. -/
def callAt (world : CtlWorld) (thread : Nat) (op : CtlOp) : Option CtlCall :=
  (world.calls thread).filter fun call => call.op = op

/-- The same if the call gets the `poll_lock` of its file. -/
def lockedCallAt
    (world : CtlWorld) (thread : Nat) (op : CtlOp) : Option CtlCall :=
  (world.callAt thread op).filter fun call => world.fds call.fd ≠ .closing

/-- One step. -/
def run (world : CtlWorld) : CtlStep → Option CtlWorld
  | .lookup thread call =>
    if (world.calls thread).isNone ∧ world.fds call.fd = .opened ∧
        world.polls call.poll = .opened ∧ call.op ≠ .add true then
      some { world with calls := update world.calls thread (some call) }
    else
      none
  | .test thread =>
    (world.callAt thread (.add false)).map fun call =>
      if world.pollHasFd call.poll call.fd then
        world.finishAdd thread call (.failed .exist) world
      else
        { world with
          calls :=
            update world.calls thread (some { call with op := .add true }) }
  | .insert thread error =>
    (world.lockedCallAt thread (.add true)).map fun call =>
      world.finishAdd thread call
        (match error with
        | some code => .failed code
        | none => .ok)
        (world.pollAddFd call.poll call.fd error)
  | .mod thread =>
    (world.lockedCallAt thread .mod).map fun _ => world.finish thread
  | .del thread error =>
    (world.lockedCallAt thread .del).map fun call =>
      (world.pollDelFd call.poll call.fd error).finish thread
  | .closeFd fd =>
    if world.fds fd = .opened then
      some { world with fds := update world.fds fd .closing }
    else
      none
  | .cleanupEntry fd =>
    if world.fds fd = .closing then
      (world.fdLists fd).head?.map (world.cleanupEntry fd)
    else
      none
  | .cleanedFd fd =>
    if world.fds fd = .closing ∧ world.fdLists fd = [] then
      some { world with fds := update world.fds fd .cleaned }
    else
      none
  | .freeFd fd =>
    if world.fds fd = .cleaned then
      some { world with fds := update world.fds fd .freed }
    else
      none
  | .closePoll poll =>
    if world.polls poll = .opened then
      some { world with polls := update world.polls poll .closing }
    else
      none
  | .destroyEntry poll =>
    if world.polls poll = .closing then do
      let slot ← (world.pollLists poll).head?
      let fd ← world.fdOf slot
      if world.fds fd = .opened then
        some (world.unlink slot poll fd)
      else
        none
    else
      none
  | .freePoll poll =>
    if world.polls poll = .closing ∧ world.pollLists poll = [] then
      some { world with polls := update world.polls poll .freed }
    else
      none

/--
The step uses no freed memory, and no list of a poll that `poll_destroy` walks.
-/
def Guarded (world : CtlWorld) : CtlStep → Prop
  | .test thread =>
    ∀ call, world.callAt thread (.add false) = some call →
      world.polls call.poll = .opened
  | .insert thread _ | .mod thread | .del thread _ =>
    ∀ call, world.calls thread = some call →
      world.polls call.poll = .opened ∧ world.fds call.fd ≠ .freed
  | .cleanupEntry fd =>
    ∀ slot poll, (world.fdLists fd).head? = some slot →
      world.pollOf slot = some poll → world.polls poll = .opened
  | _ => True

/-- New memory comes from a free list, or is the next. -/
theorem allocate_eq (world : CtlWorld) (poll : Nat) :
    ∃ freelists nextSlot, world.nextSlot ≤ nextSlot ∧
      (world.allocate poll).2 =
        { world with freelists := freelists, nextSlot := nextSlot } := by
  unfold allocate
  split
  · exact ⟨_, _, Nat.le_refl _, rfl⟩
  · exact ⟨_, _, Nat.le_succ _, rfl⟩

/-- What the calls promise of the registrations. -/
structure IsRegular (world : CtlWorld) : Prop where
  /-- A poll has at most one entry for a file. -/
  once :
    ∀ poll first second fd,
      first ∈ world.pollLists poll → second ∈ world.pollLists poll →
      world.fdOf first = some fd → world.fdOf second = some fd →
      first = second
  /-- Registering a file that is registered returns `_EEXIST`. -/
  exist :
    ∀ entry ∈ world.returns, entry.wasRegistered = true →
      entry.result = .failed .exist
  /-- An entry of a poll is an entry of a file that is there. -/
  ofPoll :
    ∀ poll, ∀ slot ∈ world.pollLists poll,
      ∃ fd, world.fdOf slot = some fd ∧ slot ∈ world.fdLists fd ∧
        world.fds fd ≠ .freed
  /-- An entry of a file is an entry of a poll that is there. -/
  ofFd :
    ∀ fd, ∀ slot ∈ world.fdLists fd,
      ∃ poll, world.pollOf slot = some poll ∧ slot ∈ world.pollLists poll ∧
        world.polls poll ≠ .freed

end CtlWorld

/-- One step; without its guard a step can have any effect. -/
inductive CtlWorld.Steps (world : CtlWorld) : CtlStep → CtlWorld → Prop where
  | run {action next} :
      world.run action = some next →
      Steps world action next
  | stray {action next} :
      ¬world.Guarded action →
      Steps world action next

/-- All polls and files from the start on. -/
def ctlMachine : Machine CtlWorld CtlStep where
  initial world := world = .empty
  step := CtlWorld.Steps

/--
The step is guarded, and an insertion finds its test still true and its file not
cleaned up.
-/
def CtlWorld.TestHolds (world : CtlWorld) (action : CtlStep) : Prop :=
  world.Guarded action ∧
    ∀ thread error call, action = .insert thread error →
      world.calls thread = some call →
      world.pollHasFd call.poll call.fd = false ∧
        (error = none → world.fds call.fd ≠ .cleaned)

/-- The machine with these steps only. -/
def testedMachine : Machine CtlWorld CtlStep :=
  ctlMachine.restrict CtlWorld.TestHolds

namespace CtlWorld

/-- The lists say what the entries say, and no free entry is in use. -/
structure Regular (world : CtlWorld) : Prop where
  polls : OwnerLists world.pollOf world.pollLists
  fds : OwnerLists world.fdOf world.fdLists
  together : ∀ slot, (world.fdOf slot).isSome = (world.pollOf slot).isSome
  once :
    ∀ poll first second fd,
      world.pollOf first = some poll → world.pollOf second = some poll →
      world.fdOf first = some fd → world.fdOf second = some fd →
      first = second
  exist :
    ∀ entry ∈ world.returns, entry.wasRegistered = true →
      entry.result = .failed .exist
  liveFd :
    ∀ slot fd, world.fdOf slot = some fd →
      world.fds fd ≠ .cleaned ∧ world.fds fd ≠ .freed
  livePoll :
    ∀ slot poll, world.pollOf slot = some poll →
      world.polls poll ≠ .freed
  free :
    ∃ freeOf, OwnerLists freeOf world.freelists ∧
      ∀ slot poll, freeOf slot = some poll →
        world.pollOf slot = none ∧ slot < world.nextSlot
  fresh : ∀ slot, world.nextSlot ≤ slot → world.pollOf slot = none

namespace Regular

variable {world next : CtlWorld}
variable {slot poll : Nat} {fd : FdId}

theorem empty : Regular .empty where
  polls := .nothing
  fds := .nothing
  together := fun _ => rfl
  once := fun _ _ _ _ isPoll => by cases isPoll
  exist := fun _ isReturn => by cases isReturn
  liveFd := fun _ _ isFd => by cases isFd
  livePoll := fun _ _ isPoll => by cases isPoll
  free := ⟨fun _ => none, .nothing, fun _ _ isFree => by cases isFree⟩
  fresh := fun _ _ => rfl

section

variable (regular : world.Regular)
include regular

theorem fdOf_of_free
    (isFree : world.pollOf slot = none) :
    world.fdOf slot = none := by
  have together := regular.together slot
  rw [isFree, isSome_none] at together
  exact not_isSome_iff_eq_none.mp (Bool.eq_false_iff.mp together)

theorem exists_poll
    (isFd : world.fdOf slot = some fd) :
    ∃ poll, world.pollOf slot = some poll := by
  have together := regular.together slot
  rw [isFd, isSome_some] at together
  exact isSome_iff_exists.mp together.symm

theorem exists_fd
    (isPoll : world.pollOf slot = some poll) :
    ∃ fd, world.fdOf slot = some fd := by
  have together := regular.together slot
  rw [isPoll, isSome_some] at together
  exact isSome_iff_exists.mp together

theorem pollHasFd_iff :
    world.pollHasFd poll fd = true ↔
      ∃ slot, world.pollOf slot = some poll ∧ world.fdOf slot = some fd := by
  rw [pollHasFd, pollFindFd, List.find?_isSome]
  constructor
  · rintro ⟨slot, isListed, isFd⟩
    exact ⟨slot, (regular.polls.mem_iff slot poll).mp isListed,
      beq_iff_eq.mp isFd⟩
  · rintro ⟨slot, isPoll, isFd⟩
    exact ⟨slot, (regular.polls.mem_iff slot poll).mpr isPoll,
      beq_iff_eq.mpr isFd⟩

/-- New memory is free, and on no free list any more. -/
theorem allocate
    (poll : Nat) :
    (world.allocate poll).2.Regular ∧
      (world.allocate poll).2.pollOf (world.allocate poll).1 = none ∧
      ∃ freeOf, OwnerLists freeOf (world.allocate poll).2.freelists ∧
      freeOf (world.allocate poll).1 = none ∧
      (world.allocate poll).1 < (world.allocate poll).2.nextSlot ∧
      ∀ slot poll, freeOf slot = some poll →
        world.pollOf slot = none ∧ slot < world.nextSlot := by
  obtain ⟨freeOf, listed, isFree⟩ := regular.free
  unfold CtlWorld.allocate
  split
  · case _ slot rest isList =>
      have isFirst : freeOf slot = some poll :=
        (listed.mem_iff slot poll).mp (by rw [isList]; exact mem_cons_self)
      have taken := listed.take isFirst
      rw [isList, erase_cons_head] at taken
      have left : ∀ other otherPoll,
          update freeOf slot none other = some otherPoll →
          world.pollOf other = none ∧ other < world.nextSlot := by
        intro other otherPoll isOther
        exact isFree other otherPoll (eq_some_of_update_none isOther)
      exact ⟨{ regular with free := ⟨_, taken, left⟩ },
        (isFree slot poll isFirst).1, _, taken, update_self _ _ _,
        (isFree slot poll isFirst).2, left⟩
  · refine ⟨{ regular with
        free := ⟨freeOf, listed, fun slot poll isListed =>
          ⟨(isFree slot poll isListed).1,
            Nat.lt_succ_of_lt (isFree slot poll isListed).2⟩⟩
        fresh := fun slot isLater =>
          regular.fresh slot (Nat.le_of_succ_le isLater) },
      regular.fresh _ (Nat.le_refl _), freeOf, listed, ?_,
      Nat.lt_succ_self _, isFree⟩
    exact eq_none_iff_forall_ne_some.mpr fun owner isNext =>
      Nat.lt_irrefl _ (isFree _ _ isNext).2

/-- An entry is put on its lists while its two owners are there. -/
theorem link
    (isFree : world.pollOf slot = none)
    (isKnown : slot < world.nextSlot)
    (noneFree :
      ∃ freeOf, OwnerLists freeOf world.freelists ∧ freeOf slot = none ∧
        ∀ other owner, freeOf other = some owner →
          world.pollOf other = none ∧ other < world.nextSlot)
    (notRegistered :
      ¬∃ slot, world.pollOf slot = some poll ∧ world.fdOf slot = some fd)
    (isOpen : world.fds fd ≠ .cleaned ∧ world.fds fd ≠ .freed)
    (isLive : world.polls poll ≠ .freed) :
    (world.link slot poll fd).Regular := by
  obtain ⟨freeOf, listed, notListed, areFree⟩ := noneFree
  refine
    { polls := regular.polls.put isFree poll
      fds := regular.fds.put (regular.fdOf_of_free isFree) fd
      together := ?_
      once := ?_
      exist := regular.exist
      liveFd := ?_
      livePoll := ?_
      free := ⟨freeOf, listed, ?_⟩
      fresh := ?_ }
  · intro other
    simp only [CtlWorld.link]
    by_cases same : other = slot
    · subst same
      rw [update_self, update_self]
      rfl
    · rw [update_of_ne same, update_of_ne same]
      exact regular.together other
  · intro owner first second file firstPoll secondPoll firstFd secondFd
    rcases eq_some_of_update firstPoll with ⟨rfl, rfl⟩ | ⟨firstNe, firstOld⟩
    · rcases eq_some_of_update secondPoll with
        ⟨rfl, _⟩ | ⟨secondNe, secondOld⟩
      · rfl
      · rcases eq_some_of_update firstFd with ⟨_, rfl⟩ | ⟨differs, _⟩
        · rcases eq_some_of_update secondFd with ⟨same, _⟩ | ⟨_, isFd⟩
          · exact absurd same secondNe
          · exact absurd ⟨second, secondOld, isFd⟩ notRegistered
        · exact absurd rfl differs
    · rcases eq_some_of_update firstFd with ⟨same, _⟩ | ⟨_, firstFile⟩
      · exact absurd same firstNe
      · rcases eq_some_of_update secondPoll with
          ⟨rfl, rfl⟩ | ⟨secondNe, secondOld⟩
        · rcases eq_some_of_update secondFd with ⟨_, rfl⟩ | ⟨differs, _⟩
          · exact absurd ⟨first, firstOld, firstFile⟩ notRegistered
          · exact absurd rfl differs
        · rcases eq_some_of_update secondFd with ⟨same, _⟩ | ⟨_, secondFile⟩
          · exact absurd same secondNe
          · exact regular.once owner first second file firstOld secondOld
              firstFile secondFile
  · intro other file isFile
    rcases eq_some_of_update isFile with ⟨_, rfl⟩ | ⟨_, old⟩
    · exact isOpen
    · exact regular.liveFd other file old
  · intro other owner isOwner
    rcases eq_some_of_update isOwner with ⟨_, rfl⟩ | ⟨_, old⟩
    · exact isLive
    · exact regular.livePoll other owner old
  · intro other owner isOwner
    obtain ⟨wasFree, wasKnown⟩ := areFree other owner isOwner
    refine ⟨?_, wasKnown⟩
    by_cases same : other = slot
    · subst same
      rw [notListed] at isOwner
      cases isOwner
    · exact (update_of_ne same _ _).trans wasFree
  · intro other isLater
    have differs : other ≠ slot := fun same =>
      absurd (same ▸ isLater) (Nat.not_le.mpr isKnown)
    exact (update_of_ne differs _ _).trans (regular.fresh other isLater)

/-- An entry is taken off its lists. -/
theorem unlink
    (isPoll : world.pollOf slot = some poll)
    (isFd : world.fdOf slot = some fd) :
    (world.unlink slot poll fd).Regular := by
  have pollGone : ∀ other, world.pollOf other = none →
      update world.pollOf slot none other = none := by
    intro other isNone
    by_cases same : other = slot
    · subst same
      exact update_self _ _ _
    · exact (update_of_ne same _ _).trans isNone
  obtain ⟨freeOf, listed, areFree⟩ := regular.free
  refine
    { polls := regular.polls.take isPoll
      fds := regular.fds.take isFd
      together := ?_
      once := fun owner first second file firstPoll secondPoll firstFd
          secondFd =>
        regular.once owner first second file
          (eq_some_of_update_none firstPoll)
          (eq_some_of_update_none secondPoll)
          (eq_some_of_update_none firstFd) (eq_some_of_update_none secondFd)
      exist := regular.exist
      liveFd := fun other file isFile =>
        regular.liveFd other file (eq_some_of_update_none isFile)
      livePoll := fun other owner isOwner =>
        regular.livePoll other owner (eq_some_of_update_none isOwner)
      free := ⟨freeOf, listed, fun other owner isOwner =>
        ⟨pollGone other (areFree other owner isOwner).1,
          (areFree other owner isOwner).2⟩⟩
      fresh := fun other isLater =>
        pollGone other (regular.fresh other isLater) }
  intro other
  simp only [CtlWorld.unlink]
  by_cases same : other = slot
  · subst same
    rw [update_self, update_self]
  · rw [update_of_ne same, update_of_ne same]
    exact regular.together other

end

theorem not_free
    {freeOf : Nat → Option Nat}
    (areFree :
      ∀ slot poll, freeOf slot = some poll →
        world.pollOf slot = none ∧ slot < world.nextSlot)
    (isPoll : world.pollOf slot = some poll) :
    freeOf slot = none := by
  refine eq_none_iff_forall_ne_some.mpr fun owner isFree => ?_
  have isNone := (areFree slot owner isFree).1
  rw [isPoll] at isNone
  cases isNone

section

variable (regular : world.Regular)
include regular

/-- An entry that was taken off its lists goes to the free list. -/
theorem recycle
    (isPoll : world.pollOf slot = some poll)
    (isFd : world.fdOf slot = some fd) :
    ((world.unlink slot poll fd).pollFdFree slot poll).Regular := by
  have isKnown : slot < world.nextSlot := by
    by_contra notKnown
    have isNone := regular.fresh slot (Nat.not_lt.mp notKnown)
    rw [isPoll] at isNone
    cases isNone
  obtain ⟨freeOf, listed, areFree⟩ := regular.free
  have notListed := not_free areFree isPoll
  refine
    { regular.unlink isPoll isFd with
      free := ⟨_, listed.put notListed poll, ?_⟩ }
  intro other owner isOwner
  by_cases same : other = slot
  · subst same
    exact ⟨update_self _ _ _, isKnown⟩
  · rw [update_of_ne same] at isOwner
    obtain ⟨wasFree, wasKnown⟩ := areFree other owner isOwner
    exact ⟨(update_of_ne same _ _).trans wasFree, wasKnown⟩

theorem pollAddFd
    (notRegistered : world.pollHasFd poll fd = false)
    {error : Option Errno}
    (isOpen :
      error = none → world.fds fd ≠ .cleaned ∧ world.fds fd ≠ .freed)
    (isLive : world.polls poll ≠ .freed) :
    (world.pollAddFd poll fd error).Regular := by
  have absent : ¬∃ slot,
      world.pollOf slot = some poll ∧ world.fdOf slot = some fd := by
    rw [← regular.pollHasFd_iff, notRegistered]
    exact Bool.false_ne_true
  obtain ⟨allocated, isFree, freeOf, listed, notListed, isKnown, areFree⟩ :=
    regular.allocate poll
  obtain ⟨freelists, nextSlot, grown, same⟩ := world.allocate_eq poll
  have areFreeThen : ∀ other owner, freeOf other = some owner →
      (world.allocate poll).2.pollOf other = none ∧
        other < (world.allocate poll).2.nextSlot := by
    intro other owner isOwner
    obtain ⟨wasFree, wasKnown⟩ := areFree other owner isOwner
    rw [same]
    exact ⟨wasFree, Nat.lt_of_lt_of_le wasKnown grown⟩
  unfold CtlWorld.pollAddFd
  dsimp only
  split
  · exact regular
  · refine { allocated with free := ⟨_, listed.put notListed poll, ?_⟩ }
    intro other owner isOwner
    by_cases same : other = (world.allocate poll).1
    · subst same
      exact ⟨isFree, isKnown⟩
    · rw [update_of_ne same] at isOwner
      exact areFreeThen other owner isOwner
  · refine allocated.link isFree isKnown ⟨freeOf, listed, notListed, areFreeThen⟩
      ?_ ?_ ?_
    · rw [same]
      exact absent
    · rw [same]
      exact isOpen rfl
    · rw [same]
      exact isLive

theorem pollDelFd
    (poll : Nat)
    (fd : FdId)
    (error : Option Errno) :
    (world.pollDelFd poll fd error).Regular := by
  unfold CtlWorld.pollDelFd
  split
  · case _ slot found =>
      have isListed := List.mem_of_find?_eq_some found
      have isFd := List.find?_some found
      exact regular.recycle ((regular.polls.mem_iff slot poll).mp isListed)
        (beq_iff_eq.mp isFd)
  · exact regular

/-- `poll_cleanup_fd` takes an entry of its file off both lists. -/
theorem cleanupEntry
    (isFirst : (world.fdLists fd).head? = some slot) :
    (world.cleanupEntry fd slot).Regular := by
  have isFd : world.fdOf slot = some fd :=
    (regular.fds.mem_iff slot fd).mp (mem_of_mem_head? isFirst)
  obtain ⟨poll, isPoll⟩ := regular.exists_poll isFd
  unfold CtlWorld.cleanupEntry
  rw [isPoll]
  exact regular.recycle isPoll isFd

/-- A file without entries goes on in its last close. -/
theorem leaveFd
    (noEntry : ∀ slot, world.fdOf slot ≠ some fd)
    (state : Lifetime) :
    Regular { world with fds := update world.fds fd state } := by
  refine { regular with liveFd := ?_ }
  intro slot file isFile
  have differs : file ≠ fd := by
    rintro rfl
    exact noEntry slot isFile
  dsimp only
  rw [update_of_ne differs]
  exact regular.liveFd slot file isFile

/-- A poll without entries is freed. -/
theorem freePoll
    (noneLeft : world.pollLists poll = []) :
    Regular { world with polls := update world.polls poll .freed } := by
  refine { regular with livePoll := ?_ }
  intro slot owner isOwner
  have differs : owner ≠ poll := by
    rintro rfl
    have isListed := (regular.polls.mem_iff slot owner).mpr isOwner
    rw [noneLeft] at isListed
    cases isListed
  dsimp only
  rw [update_of_ne differs]
  exact regular.livePoll slot owner isOwner

end

/-- An `EPOLL_CTL_ADD` of a registered file returns `_EEXIST`. -/
theorem finishAdd
    {thread : Nat}
    {call : CtlCall}
    {result : CtlResult}
    (regular : next.Regular)
    (sameReturns : next.returns = world.returns)
    (isRight :
      world.pollHasFd call.poll call.fd = true →
        result = .failed .exist) :
    (world.finishAdd thread call result next).Regular :=
  { regular with
    exist := by
      intro entry isReturn wasRegistered
      rcases mem_append.mp isReturn with old | isNew
      · exact regular.exist entry (by rw [sameReturns]; exact old) wasRegistered
      · cases mem_singleton.mp isNew
        exact isRight wasRegistered }

theorem returns_pollAddFd
    (world : CtlWorld)
    (poll : Nat)
    (fd : FdId)
    (error : Option Errno) :
    (world.pollAddFd poll fd error).returns = world.returns := by
  obtain ⟨_, _, _, same⟩ := world.allocate_eq poll
  unfold CtlWorld.pollAddFd
  dsimp only
  split
  · rfl
  · exact (congrArg returns same :)
  · exact (congrArg returns same :)

theorem of_callAt
    {thread : Nat}
    {op : CtlOp}
    {call : CtlCall}
    (isCall : world.lockedCallAt thread op = some call) :
    world.calls thread = some call :=
  (filter_eq_some_iff.mp (filter_eq_some_iff.mp isCall).1).1

/-- A last close that begins keeps all entries. -/
theorem closing
    {Owner : Type}
    [DecidableEq Owner]
    {lifetimes : Owner → Lifetime}
    {owner other : Owner}
    {state : Lifetime}
    (isLater : .closing ≠ state)
    (isLive : lifetimes other ≠ state) :
    update lifetimes owner .closing other ≠ state := by
  by_cases same : other = owner
  · subst same
    rw [update_self]
    exact isLater
  · rw [update_of_ne same]
    exact isLive

/-- Every guarded step keeps this if insertions find their tests true. -/
theorem step
    {action : CtlStep}
    (regular : world.Regular)
    (testHolds : world.TestHolds action)
    (taken : world.run action = some next) :
    next.Regular := by
  obtain ⟨guarded, testHolds⟩ := testHolds
  cases action with
  | lookup thread call =>
    simp only [run, ite_none_right_eq_some] at taken
    obtain ⟨_, taken⟩ := taken
    cases taken
    exact { regular with }
  | test thread =>
    obtain ⟨call, _, rfl⟩ := map_eq_some_iff.mp taken
    split
    · exact regular.finishAdd rfl fun _ => rfl
    · exact { regular with }
  | insert thread error =>
    obtain ⟨call, isCall, rfl⟩ := map_eq_some_iff.mp taken
    obtain ⟨isOpened, isOpen⟩ := guarded call (of_callAt isCall)
    obtain ⟨notRegistered, notCleaned⟩ :=
      testHolds thread error call rfl (of_callAt isCall)
    have isLive : world.polls call.poll ≠ .freed := by
      rw [isOpened]
      decide
    refine (regular.pollAddFd notRegistered
      (fun noError => ⟨notCleaned noError, isOpen⟩) isLive).finishAdd
      (returns_pollAddFd world call.poll call.fd error) ?_
    intro isRegistered
    rw [notRegistered] at isRegistered
    cases isRegistered
  | mod thread =>
    obtain ⟨call, _, rfl⟩ := map_eq_some_iff.mp taken
    exact { regular with }
  | del thread error =>
    obtain ⟨call, _, rfl⟩ := map_eq_some_iff.mp taken
    exact { regular.pollDelFd call.poll call.fd error with }
  | closeFd fd =>
    simp only [run, ite_none_right_eq_some] at taken
    obtain ⟨_, taken⟩ := taken
    cases taken
    exact { regular with
      liveFd := fun slot file isFile =>
        (regular.liveFd slot file isFile).imp (closing nofun)
          (closing nofun) }
  | cleanupEntry fd =>
    simp only [run, ite_none_right_eq_some] at taken
    obtain ⟨slot, isFirst, rfl⟩ := map_eq_some_iff.mp taken.2
    exact regular.cleanupEntry isFirst
  | cleanedFd fd =>
    simp only [run, ite_none_right_eq_some] at taken
    obtain ⟨⟨_, noneLeft⟩, taken⟩ := taken
    cases taken
    refine regular.leaveFd (fun slot isFd => ?_) _
    have isListed := (regular.fds.mem_iff slot fd).mpr isFd
    rw [noneLeft] at isListed
    cases isListed
  | freeFd fd =>
    simp only [run, ite_none_right_eq_some] at taken
    obtain ⟨isCleaned, taken⟩ := taken
    cases taken
    exact regular.leaveFd
      (fun slot isFd => (regular.liveFd slot fd isFd).1 isCleaned) _
  | closePoll poll =>
    simp only [run, ite_none_right_eq_some] at taken
    obtain ⟨_, taken⟩ := taken
    cases taken
    exact { regular with
      livePoll := fun slot owner isOwner =>
        closing nofun (regular.livePoll slot owner isOwner) }
  | destroyEntry poll =>
    simp only [run, ite_none_right_eq_some] at taken
    obtain ⟨slot, isFirst, taken⟩ := bind_eq_some_iff.mp taken.2
    obtain ⟨fd, isFd, taken⟩ := bind_eq_some_iff.mp taken
    rw [ite_none_right_eq_some] at taken
    obtain ⟨_, taken⟩ := taken
    cases taken
    exact regular.unlink ((regular.polls.mem_iff slot poll).mp
      (mem_of_mem_head? isFirst)) isFd
  | freePoll poll =>
    simp only [run, ite_none_right_eq_some] at taken
    obtain ⟨⟨_, noneLeft⟩, taken⟩ := taken
    cases taken
    exact regular.freePoll noneLeft

end Regular

/--
Where steps are guarded and insertions find their tests true, both sides agree
on all entries.
-/
theorem registrations_agree
    {world : CtlWorld}
    (reachable : testedMachine.Reachable world) :
    world.IsRegular := by
  have regular : world.Regular := by
    refine reachable.invariant ?_ ?_
    · rintro world rfl
      exact Regular.empty
    · rintro world action next regular ⟨testHolds, run | stray⟩
      · exact regular.step testHolds ‹_›
      · exact (‹¬_› testHolds.1).elim
  refine
    { once := ?_
      exist := regular.exist
      ofPoll := ?_
      ofFd := ?_ }
  · intro poll first second fd isFirst isSecond firstFd secondFd
    exact regular.once poll first second fd
      ((regular.polls.mem_iff first poll).mp isFirst)
      ((regular.polls.mem_iff second poll).mp isSecond) firstFd secondFd
  · intro poll slot isListed
    obtain ⟨fd, isFd⟩ :=
      regular.exists_fd ((regular.polls.mem_iff slot poll).mp isListed)
    exact ⟨fd, isFd, (regular.fds.mem_iff slot fd).mpr isFd,
      (regular.liveFd slot fd isFd).2⟩
  · intro fd slot isListed
    obtain ⟨poll, isPoll⟩ :=
      regular.exists_poll ((regular.fds.mem_iff slot fd).mp isListed)
    exact ⟨poll, isPoll, (regular.polls.mem_iff slot poll).mpr isPoll,
      regular.livePoll slot poll isPoll⟩

/-- A file is registered on two polls, and then closed. -/
theorem closed_file_is_unregistered :
    ∃ world : CtlWorld,
      world.fds 3 = .freed ∧ world.freelists 0 = [0] ∧
        world.IsRegular := by
  have free : ∀ {world : CtlWorld} {action : CtlStep},
      world.Guarded action →
      (∀ thread error, action ≠ .insert thread error) →
      world.TestHolds action := by
    intro world action guarded noInsert
    exact ⟨guarded, fun thread error _ isInsert =>
      (noInsert thread error isInsert).elim⟩
  have start : testedMachine.Reachable empty := .initial rfl
  have first := start.step (a := CtlStep.lookup 7 ⟨.add false, 0, 3⟩)
    ⟨free trivial nofun, .run rfl⟩
  have tested := first.step (a := CtlStep.test 7)
    ⟨free (by rintro _ ⟨⟩; rfl) nofun, .run rfl⟩
  have one := tested.step (a := CtlStep.insert 7 none)
    ⟨⟨by rintro _ ⟨⟩; exact ⟨rfl, nofun⟩,
      by rintro _ _ _ ⟨⟩ ⟨⟩; exact ⟨rfl, nofun⟩⟩,
      .run rfl⟩
  have second := one.step (a := CtlStep.lookup 8 ⟨.add false, 1, 3⟩)
    ⟨free trivial nofun, .run rfl⟩
  have again := second.step (a := CtlStep.test 8)
    ⟨free (by rintro _ ⟨⟩; rfl) nofun, .run rfl⟩
  have two := again.step (a := CtlStep.insert 8 none)
    ⟨⟨by rintro _ ⟨⟩; exact ⟨rfl, nofun⟩,
      by rintro _ _ _ ⟨⟩ ⟨⟩; exact ⟨rfl, nofun⟩⟩,
      .run rfl⟩
  have closing := two.step (a := CtlStep.closeFd 3)
    ⟨free trivial nofun, .run rfl⟩
  have cleaned := closing.step (a := CtlStep.cleanupEntry 3)
    ⟨free (by rintro _ _ ⟨⟩ ⟨⟩; rfl) nofun, .run rfl⟩
  have empty := cleaned.step (a := CtlStep.cleanupEntry 3)
    ⟨free (by rintro _ _ ⟨⟩ ⟨⟩; rfl) nofun, .run rfl⟩
  have ended := empty.step (a := CtlStep.cleanedFd 3)
    ⟨free trivial nofun, .run rfl⟩
  have closed := ended.step (a := CtlStep.freeFd 3)
    ⟨free trivial nofun, .run rfl⟩
  exact ⟨_, rfl, rfl, registrations_agree closed⟩

/-- Two threads test for the same file before either of them inserts it. -/
theorem two_tests_register_twice :
    ¬∀ world, ctlMachine.Reachable world → world.IsRegular := by
  intro always
  have start : ctlMachine.Reachable empty := .initial rfl
  have first := start.step
    (a := CtlStep.lookup 7 ⟨.add false, 0, 3⟩) (.run rfl)
  have second := first.step
    (a := CtlStep.lookup 8 ⟨.add false, 0, 3⟩) (.run rfl)
  have tested := second.step (a := CtlStep.test 7) (.run rfl)
  have both := tested.step (a := CtlStep.test 8) (.run rfl)
  have one := both.step (a := CtlStep.insert 7 none) (.run rfl)
  have two := one.step (a := CtlStep.insert 8 none) (.run rfl)
  have same := (always _ two).once 0 0 1 3 (by decide) (by decide) rfl rfl
  cases same

end CtlWorld

end GuestKernel
