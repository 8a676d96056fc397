import GuestKernel.PollWait
import Mathlib.Data.List.GetD

namespace GuestKernel
open List Function
open BitVec (getLsbD_and getLsbD_or getLsbD_setWidth getLsbD_zero
  lt_of_getLsbD zero_and)

/-!
# `poll`

`sys_poll` of `kernel/poll.c`.  The entries for one file are merged into one
registration, and what the file returns is spread over the entries again; the
callback knows the file only by its pointer.
-/

/-- `struct pollfd_`. -/
structure PollEntry where
  fd : BitVec 32
  events : BitVec 16
  revents : BitVec 16
  deriving Repr, DecidableEq, Inhabited

/-- `POLL_ALWAYS_LISTENING`. -/
def pollAlwaysListening : BitVec 32 := pollErr ||| pollHup ||| pollNval

/--
The arguments and what the kernel is given for them.  A regular file is one
that is `S_ISREG` or `S_ISDIR`, and the errors are those of `poll_create`,
`poll_add_fd` and `pipe`.
-/
structure PollCall where
  entries : List PollEntry
  timeout : BitVec 32
  files : List (Option FdId)
  isRegular : FdId → Bool
  readFaults : Bool
  createError : Option Errno
  addError : FdId → Option Errno
  pipeError : Option Errno
  rounds : List (WaitRound FdId)
  writeFaults : Bool
  fits : 8 * entries.length ≤ 2 ^ 32

/-- The locals of the call: `revents` of each entry, `added`, and `ready`. -/
structure PollSetup where
  revents : Nat → BitVec 16
  added : Nat → Bool
  ready : Bool
  registrations : List (Registration FdId)

namespace PollCall

/-- `fdtable_get`. -/
def fdtableGet (call : PollCall) (f : BitVec 32) : Option FdId :=
  if f.toInt < 0 ∨ call.files.length ≤ f.toNat then
    none
  else
    (call.files[f.toNat]?).join

/-- `polls[i]`. -/
def entry (call : PollCall) (index : Nat) : PollEntry :=
  call.entries.getD index default

/-- `files[i]`. -/
def file (call : PollCall) (index : Nat) : Option FdId :=
  call.fdtableGet (call.entry index).fd

/-- `nfds`. -/
def nfds (call : PollCall) : Nat :=
  call.entries.length

/-- `nfds` as the `int` of the callback; its loop does nothing below 0. -/
def intNfds (call : PollCall) : Nat :=
  if call.nfds < 2 ^ 31 then call.nfds else 0

/-- `types & (polls[i].events | POLL_ALWAYS_LISTENING)`. -/
def reported
    (call : PollCall) (types : BitVec 32) (index : Nat) : BitVec 16 :=
  (types &&&
    ((call.entry index).events.setWidth 32 |||
      pollAlwaysListening)).setWidth 16

/-- `poll_event_callback`. -/
def pollEventCallback
    (call : PollCall) : PollCallback FdId (Nat → BitVec 16) :=
  fun revents types ptr =>
    (fun index =>
      if index < call.intNfds ∧ call.file index = some ptr then
        call.reported types index
      else
        revents index,
    (List.range call.intNfds).any fun index => call.file index == some ptr)

/-- One round of the loop that merges the entries of a file. -/
def mergeRound
    (call : PollCall) (file : FdId)
    (merged : BitVec 16 × (Nat → Bool)) (index : Nat) :
    BitVec 16 × (Nat → Bool) :=
  if merged.2 index = false ∧ call.file index = some file then
    (merged.1 ||| (call.entry index).events,
      update merged.2 index true)
  else
    merged

/-- The events of 16 bits have none of the flags of an epoll registration. -/
theorem plain_events (events : BitVec 16) :
    (events.setWidth 32 ||| pollAlwaysListening) &&&
        (pollOneshot ||| pollEdgetriggered) = 0#32 := by
  have none :
      pollAlwaysListening &&& (pollOneshot ||| pollEdgetriggered) = 0#32 := by
    decide
  have high :
      ∀ index < 32,
        (pollOneshot ||| pollEdgetriggered).getLsbD index = true →
        16 ≤ index := by
    decide
  refine BitVec.eq_of_getLsbD_eq fun index below => ?_
  have noneHere := congrArg (fun bits => bits.getLsbD index) none
  rw [getLsbD_and] at noneHere ⊢
  rw [getLsbD_or, Bool.and_or_distrib_right, noneHere,
    getLsbD_zero, Bool.or_false, getLsbD_setWidth]
  cases isHigh : (pollOneshot ||| pollEdgetriggered).getLsbD index with
  | false => rw [Bool.and_false]
  | true =>
    rw [BitVec.getLsbD_of_ge events index (high index below isHigh),
      Bool.and_false, Bool.false_and]

/-- One round of the loop that makes `poll_add_fd` calls of the entries. -/
def addRound
    (call : PollCall) (setup : PollSetup) (index : Nat) :
    Except Errno PollSetup :=
  if (call.entry index).fd.toInt < 0 ∨ setup.added index = true then
    .ok setup
  else
    let added := update setup.added index true
    match call.file index with
    | none =>
      .ok { setup with
        revents :=
          update setup.revents index (pollNval.setWidth 16)
        added := added
        ready := true }
    | some file =>
      let merged :=
        (List.range call.nfds).foldl (call.mergeRound file)
          ((call.entry index).events, added)
      if call.isRegular file then
        .ok { setup with
          revents :=
            (call.pollEventCallback setup.revents (pollRead ||| pollWrite)
              file).1
          added := merged.2
          ready :=
            setup.ready ||
              (merged.1.setWidth 32 &&& (pollRead ||| pollWrite)) != 0#32 }
      else
        match call.addError file with
        | some err => .error err
        | none =>
          .ok { setup with
            added := merged.2
            registrations :=
              ⟨merged.1.setWidth 32 ||| pollAlwaysListening, file,
                plain_events merged.1⟩ :: setup.registrations }

/-- The locals before the loop. -/
def start : PollSetup where
  revents _ := 0#16
  added _ := false
  ready := false
  registrations := []

/-- The loop. -/
def setup (call : PollCall) : Except Errno PollSetup :=
  (List.range call.nfds).foldlM call.addRound start

/-- `poll_wait` with the callback of the call. -/
def wait (call : PollCall) (setup : PollSetup) :
    Option (Except Errno Nat × (Nat → BitVec 16)) :=
  match call.pipeError with
  | some err => some (.error err, setup.revents)
  | none =>
    pollWait call.pollEventCallback setup.registrations
      (setup.ready || decide (0 ≤ call.timeout.toInt)) call.rounds
      setup.revents

/-- The end of the call: the count, and the entries that are written back. -/
def finish (call : PollCall) (revents : Nat → BitVec 16) :
    Except Errno (Nat × List PollEntry) :=
  if call.writeFaults then
    .error .fault
  else
    .ok ((List.range call.nfds).countP fun index => revents index != 0#16,
      call.entries.mapIdx fun index entry =>
        { entry with revents := revents index })

/-- `sys_poll`; `none` is a call that has not returned. -/
def sysPoll (call : PollCall) :
    Option (Except Errno (Nat × List PollEntry)) :=
  if call.readFaults then
    some (.error .fault)
  else
    match call.createError, call.setup with
    | some err, _ => some (.error err)
    | none, .error err => some (.error err)
    | none, .ok setup =>
      (call.wait setup).map fun answer =>
        match answer.1 with
        | .ok _ => call.finish answer.2
        | .error err =>
          if setup.ready = true ∧ err = .intr then
            call.finish answer.2
          else
            .error err

variable
  {call : PollCall}
  {setup next : PollSetup}
  {index count bit : Nat}
  {file : FdId}

theorem intNfds_eq (call : PollCall) :
    call.intNfds = call.nfds := by
  have fits := call.fits
  unfold intNfds nfds
  rw [if_pos (by omega)]

theorem lt_of_always
    (isAlways : pollAlwaysListening.getLsbD bit = true) :
    bit < 16 := by
  have bound :
      ∀ bit < 32, pollAlwaysListening.getLsbD bit = true → bit < 16 := by
    decide
  exact bound bit (lt_of_getLsbD isAlways) isAlways

/-- The bits that an entry is told. -/
theorem getLsbD_reported
    {types : BitVec 32} :
    (call.reported types index).getLsbD bit = true ↔
      types.getLsbD bit = true ∧
        ((call.entry index).events.getLsbD bit = true ∨
          pollAlwaysListening.getLsbD bit = true) := by
  unfold reported
  rw [getLsbD_setWidth, getLsbD_and, getLsbD_or,
    getLsbD_setWidth]
  simp only [Bool.and_eq_true, Bool.or_eq_true, decide_eq_true_eq]
  constructor
  · rintro ⟨_, isType, ⟨_, isEvent⟩ | isAlways⟩
    · exact ⟨isType, .inl isEvent⟩
    · exact ⟨isType, .inr isAlways⟩
  · rintro ⟨isType, isEvent | isAlways⟩
    · have inside : bit < 16 := lt_of_getLsbD isEvent
      exact ⟨inside, isType, .inl ⟨by omega, isEvent⟩⟩
    · exact ⟨lt_of_always isAlways, isType, .inr isAlways⟩

theorem reported_ne_zero
    {types : BitVec 32}
    (isType : types.getLsbD bit = true)
    (isAsked :
      (call.entry index).events.getLsbD bit = true ∨
        pollAlwaysListening.getLsbD bit = true) :
    call.reported types index ≠ 0#16 := by
  intro isZero
  have isSet := getLsbD_reported.mpr ⟨isType, isAsked⟩
  rw [isZero, getLsbD_zero] at isSet
  cases isSet

theorem merge_added
    (merged : BitVec 16 × (Nat → Bool)) :
    ((List.range count).foldl (call.mergeRound file) merged).2 index = true ↔
      merged.2 index = true ∨
        index < count ∧ call.file index = some file := by
  induction count with
  | zero => simp
  | succ count inductionHypothesis =>
    rw [range_succ, foldl_append, foldl_cons, foldl_nil,
      mergeRound]
    by_cases same : index = count
    · subst same
      rw [Nat.lt_succ_iff, and_iff_right (Nat.le_refl index)]
      have before :
          ((List.range index).foldl (call.mergeRound file) merged).2 index =
              true ↔
            merged.2 index = true := by
        rw [inductionHypothesis]
        exact or_iff_left fun below => Nat.lt_irrefl index below.1
      split
      case isTrue merges =>
        dsimp only
        rw [update_self]
        exact iff_of_true rfl (.inr merges.2)
      case isFalse stays =>
        refine ⟨fun added => .inl (before.mp added), ?_⟩
        rintro (added | isFile)
        · exact before.mpr added
        · exact Bool.of_not_eq_false fun notAdded =>
            stays ⟨notAdded, isFile⟩
    · have bound : index < count + 1 ↔ index < count := by
        omega
      rw [bound, ← inductionHypothesis]
      split
      · dsimp only
        rw [update_of_ne same]
      · rfl

/-- The merged events are those of the entries that were not added before. -/
theorem merge_events
    (merged : BitVec 16 × (Nat → Bool)) :
    ((List.range count).foldl (call.mergeRound file) merged).1.getLsbD bit =
        true ↔
      merged.1.getLsbD bit = true ∨
        ∃ index < count,
          merged.2 index = false ∧ call.file index = some file ∧
            (call.entry index).events.getLsbD bit = true := by
  induction count with
  | zero => simp
  | succ count inductionHypothesis =>
    rw [range_succ, foldl_append, foldl_cons, foldl_nil,
      mergeRound]
    have before :
        ((List.range count).foldl (call.mergeRound file) merged).2 count =
            false ↔
          merged.2 count = false := by
      rw [← Bool.not_eq_true, merge_added, ← Bool.not_eq_true]
      refine not_congr (or_iff_left fun below => ?_)
      exact Nat.lt_irrefl count below.1
    split
    case isTrue merges =>
      rw [before] at merges
      rw [getLsbD_or, Bool.or_eq_true, inductionHypothesis, or_assoc]
      refine or_congr Iff.rfl ⟨?_, ?_⟩
      · rintro (⟨index, below, holds⟩ | isEvent)
        · exact ⟨index, Nat.lt_succ_of_lt below, holds⟩
        · exact ⟨count, Nat.lt_succ_self count, merges.1, merges.2, isEvent⟩
      · rintro ⟨index, below, notAdded, isFile, isEvent⟩
        rcases Nat.lt_succ_iff_lt_or_eq.mp below with below | rfl
        · exact .inl ⟨index, below, notAdded, isFile, isEvent⟩
        · exact .inr isEvent
    case isFalse stays =>
      rw [before] at stays
      rw [inductionHypothesis]
      refine or_congr Iff.rfl ⟨?_, ?_⟩
      · rintro ⟨index, below, holds⟩
        exact ⟨index, Nat.lt_succ_of_lt below, holds⟩
      · rintro ⟨index, below, notAdded, isFile, isEvent⟩
        rcases Nat.lt_succ_iff_lt_or_eq.mp below with below | rfl
        · exact ⟨index, below, notAdded, isFile, isEvent⟩
        · exact absurd ⟨notAdded, isFile⟩ stays

/-- One of the first entries has this file. -/
def Listed (call : PollCall) (count : Nat) (file : FdId) : Prop :=
  ∃ index < count, call.file index = some file

/-- The entry has a descriptor that is not open. -/
def IsClosed (call : PollCall) (index : Nat) : Prop :=
  0 ≤ (call.entry index).fd.toInt ∧ call.file index = none

/-- A registration listens to what all entries of its file ask for. -/
structure Merged
    (call : PollCall) (registration : Registration FdId) : Prop where
  notRegular : call.isRegular registration.info = false
  always :
    ∀ bit,
      pollAlwaysListening.getLsbD bit = true →
      registration.types.getLsbD bit = true
  asked :
    ∀ index < call.nfds, ∀ bit,
      call.file index = some registration.info →
      (call.entry index).events.getLsbD bit = true →
      registration.types.getLsbD bit = true
  only :
    ∀ bit,
      registration.types.getLsbD bit = true →
      ∃ index < call.nfds,
        call.file index = some registration.info ∧
          (pollAlwaysListening.getLsbD bit = true ∨
            (call.entry index).events.getLsbD bit = true)

/-- What the loop has done with the first entries. -/
structure Converted
    (call : PollCall) (count : Nat) (setup : PollSetup) : Prop where
  addedOpen :
    ∀ index < call.nfds, ∀ file,
      call.file index = some file →
      (setup.added index = true ↔ call.Listed count file)
  addedClosed :
    ∀ index,
      call.file index = none → setup.added index = true → index < count
  closed :
    ∀ index < count,
      call.IsClosed index → setup.revents index = pollNval.setWidth 16
  notOpen :
    ∀ index,
      call.file index = none →
      ¬(index < count ∧ call.IsClosed index) → setup.revents index = 0#16
  regular :
    ∀ index < call.nfds, ∀ file,
      call.file index = some file →
      call.Listed count file → call.isRegular file = true →
      setup.revents index = call.reported (pollRead ||| pollWrite) index
  notRegular :
    ∀ index file,
      call.file index = some file →
      ¬(call.Listed count file ∧ call.isRegular file = true) →
      setup.revents index = 0#16
  registered :
    ∀ registration ∈ setup.registrations, call.Merged registration
  listed :
    ∀ file,
      call.Listed count file → call.isRegular file = false →
      ∃ registration ∈ setup.registrations, registration.info = file
  ready :
    setup.ready = true →
      ∃ index < call.nfds, setup.revents index ≠ 0#16

theorem nonneg_of_file
    (isFile : call.file index = some file) :
    0 ≤ (call.entry index).fd.toInt := by
  unfold PollCall.file fdtableGet at isFile
  split at isFile
  · cases isFile
  · omega

theorem listed_succ :
    call.Listed (count + 1) file ↔
      call.Listed count file ∨ call.file count = some file := by
  constructor
  · rintro ⟨index, below, isFile⟩
    rcases Nat.lt_succ_iff_lt_or_eq.mp below with below | rfl
    · exact .inl ⟨index, below, isFile⟩
    · exact .inr isFile
  · rintro (⟨index, below, isFile⟩ | isFile)
    · exact ⟨index, Nat.lt_succ_of_lt below, isFile⟩
    · exact ⟨count, Nat.lt_succ_self count, isFile⟩

/-- Nothing is done at the start. -/
theorem Converted.start (call : PollCall) :
    call.Converted 0 start := by
  have nothing : ∀ file, ¬call.Listed 0 file := by
    rintro file ⟨index, below, _⟩
    exact absurd below (Nat.not_lt_zero index)
  constructor
  case addedOpen =>
    exact fun _ _ file _ => iff_of_false nofun (nothing file)
  case addedClosed => exact fun _ _ added => nomatch added
  case closed =>
    exact fun index below => absurd below (Nat.not_lt_zero index)
  case notOpen => exact fun _ _ _ => rfl
  case regular => exact fun _ _ file _ isListed => absurd isListed (nothing file)
  case notRegular => exact fun _ _ _ _ => rfl
  case registered => exact fun _ member => nomatch member
  case listed => exact fun file isListed => absurd isListed (nothing file)
  case ready => exact fun ready => nomatch ready

/-- An entry that is passed over, as it is negative or was merged before. -/
theorem Converted.passed
    (converted : call.Converted count setup)
    (isEntry : count < call.nfds)
    (passes :
      (call.entry count).fd.toInt < 0 ∨ setup.added count = true) :
    call.Converted (count + 1) setup := by
  have sameListed :
      ∀ file, call.Listed (count + 1) file ↔ call.Listed count file := by
    intro file
    rw [listed_succ, or_iff_left_iff_imp]
    intro isFile
    rcases passes with negative | added
    · have nonneg := nonneg_of_file isFile
      omega
    · exact (converted.addedOpen count isEntry file isFile).mp added
  have notClosed : ¬call.IsClosed count := by
    rintro ⟨nonneg, isNone⟩
    rcases passes with negative | added
    · omega
    · exact Nat.lt_irrefl count (converted.addedClosed count isNone added)
  constructor
  case addedOpen =>
    intro index below file isFile
    rw [sameListed]
    exact converted.addedOpen index below file isFile
  case addedClosed =>
    exact fun index isNone added =>
      Nat.lt_succ_of_lt (converted.addedClosed index isNone added)
  case closed =>
    intro index below isClosed
    rcases Nat.lt_succ_iff_lt_or_eq.mp below with below | rfl
    · exact converted.closed index below isClosed
    · exact absurd isClosed notClosed
  case notOpen =>
    exact fun index isNone notYet => converted.notOpen index isNone
      fun before => notYet ⟨Nat.lt_succ_of_lt before.1, before.2⟩
  case regular =>
    intro index below file isFile isListed
    exact converted.regular index below file isFile
      ((sameListed file).mp isListed)
  case notRegular =>
    intro index file isFile
    rw [sameListed]
    exact converted.notRegular index file isFile
  case registered => exact converted.registered
  case listed =>
    exact fun file isListed =>
      converted.listed file ((sameListed file).mp isListed)
  case ready => exact converted.ready

/-- An entry whose descriptor is not open. -/
theorem Converted.closes
    (converted : call.Converted count setup)
    (isEntry : count < call.nfds)
    (isClosed : call.IsClosed count) :
    call.Converted (count + 1) { setup with
      revents :=
        update setup.revents count (pollNval.setWidth 16)
      added := update setup.added count true
      ready := true } := by
  have notHere :
      ∀ {index file}, call.file index = some file → index ≠ count := by
    rintro index file isFile rfl
    rw [isClosed.2] at isFile
    cases isFile
  have sameListed :
      ∀ file, call.Listed (count + 1) file ↔ call.Listed count file := by
    intro file
    rw [listed_succ, or_iff_left_iff_imp]
    exact fun isFile => absurd rfl (notHere isFile)
  constructor
  case addedOpen =>
    intro index below file isFile
    dsimp only
    rw [sameListed, update_of_ne (notHere isFile)]
    exact converted.addedOpen index below file isFile
  case addedClosed =>
    intro index isNone added
    by_cases same : index = count
    · exact same ▸ Nat.lt_succ_self count
    · dsimp only at added
      rw [update_of_ne same] at added
      exact Nat.lt_succ_of_lt (converted.addedClosed index isNone added)
  case closed =>
    intro index below isClosed
    dsimp only
    by_cases same : index = count
    · rw [same, update_self]
    · rw [update_of_ne same]
      exact converted.closed index (by omega) isClosed
  case notOpen =>
    intro index isNone notYet
    have differs : index ≠ count := by
      rintro rfl
      exact notYet ⟨Nat.lt_succ_self index, isClosed⟩
    dsimp only
    rw [update_of_ne differs]
    exact converted.notOpen index isNone
      fun before => notYet ⟨Nat.lt_succ_of_lt before.1, before.2⟩
  case regular =>
    intro index below file isFile isListed
    dsimp only
    rw [update_of_ne (notHere isFile)]
    exact converted.regular index below file isFile
      ((sameListed file).mp isListed)
  case notRegular =>
    intro index file isFile
    dsimp only
    rw [sameListed, update_of_ne (notHere isFile)]
    exact converted.notRegular index file isFile
  case registered => exact converted.registered
  case listed =>
    exact fun file isListed =>
      converted.listed file ((sameListed file).mp isListed)
  case ready =>
    refine fun _ => ⟨count, isEntry, ?_⟩
    dsimp only
    rw [update_self]
    decide

section
variable
  (converted : call.Converted count setup)
  (isEntry : count < call.nfds)
  (isFile : call.file count = some file)
  (isNew : ¬call.Listed count file)

/-- What the merging loop makes of the first entry of a file. -/
def mergedWith
    (call : PollCall) (setup : PollSetup) (count : Nat) (file : FdId) :
    BitVec 16 × (Nat → Bool) :=
  (List.range call.nfds).foldl (call.mergeRound file)
    ((call.entry count).events, update setup.added count true)

include converted isFile isNew in
/-- After it the entries of the file are added too. -/
theorem Converted.addedOpen_merged
    {other : FdId}
    (below : index < call.nfds)
    (isOther : call.file index = some other) :
    (call.mergedWith setup count file).2 index = true ↔
      call.Listed (count + 1) other := by
  unfold mergedWith
  rw [merge_added, listed_succ]
  by_cases same : other = file
  · subst same
    exact iff_of_true (.inr ⟨below, isOther⟩) (.inr isFile)
  · have differs : index ≠ count := by
      rintro rfl
      rw [isFile] at isOther
      exact same (Option.some.inj isOther).symm
    have notFile : call.file index ≠ some file := by
      rw [isOther]
      exact fun sameFile => same (Option.some.inj sameFile)
    have notListed : call.file count ≠ some other := by
      rw [isFile]
      exact fun sameFile => same (Option.some.inj sameFile).symm
    dsimp only
    rw [update_of_ne differs, converted.addedOpen index below other
      isOther, or_iff_left fun both => notFile both.2, or_iff_left notListed]

include converted isFile in
/-- No entry behind it without a file is added. -/
theorem Converted.addedClosed_merged
    (isNone : call.file index = none)
    (added : (call.mergedWith setup count file).2 index = true) :
    index < count + 1 := by
  unfold mergedWith at added
  rcases merge_added _ |>.mp added with added | ⟨_, isOther⟩
  · have differs : index ≠ count := by
      rintro rfl
      rw [isFile] at isNone
      cases isNone
    dsimp only at added
    rw [update_of_ne differs] at added
    exact Nat.lt_succ_of_lt (converted.addedClosed index isNone added)
  · rw [isNone] at isOther
    cases isOther

include converted isEntry isFile isNew in
/-- The merged events are those of all entries of the file. -/
theorem Converted.events_merged :
    (call.mergedWith setup count file).1.getLsbD bit = true ↔
      ∃ index < call.nfds,
        call.file index = some file ∧
          (call.entry index).events.getLsbD bit = true := by
  unfold mergedWith
  rw [merge_events]
  constructor
  · rintro (isEvent | ⟨index, below, _, isOther, isEvent⟩)
    · exact ⟨count, isEntry, isFile, isEvent⟩
    · exact ⟨index, below, isOther, isEvent⟩
  · rintro ⟨index, below, isOther, isEvent⟩
    by_cases same : index = count
    · exact .inl (same ▸ isEvent)
    · refine .inr ⟨index, below, ?_, isOther, isEvent⟩
      dsimp only
      rw [update_of_ne same, ← Bool.not_eq_true,
        converted.addedOpen index below file isOther]
      exact isNew

include converted isEntry isFile isNew in
/-- A file is registered with the events of all its entries. -/
theorem Converted.registers
    (notRegular : call.isRegular file = false) :
    call.Converted (count + 1) { setup with
      added := (call.mergedWith setup count file).2
      registrations :=
        ⟨(call.mergedWith setup count file).1.setWidth 32 |||
            pollAlwaysListening, file,
          plain_events (call.mergedWith setup count file).1⟩ ::
          setup.registrations } := by
  constructor
  case addedOpen =>
    exact fun index below other isOther =>
      converted.addedOpen_merged isFile isNew below isOther
  case addedClosed =>
    exact fun index isNone added =>
      converted.addedClosed_merged isFile isNone added
  case closed =>
    intro index below isClosed
    have differs : index ≠ count := by
      rintro rfl
      rw [isClosed.2] at isFile
      cases isFile
    exact converted.closed index (by omega) isClosed
  case notOpen =>
    exact fun index isNone notYet => converted.notOpen index isNone
      fun before => notYet ⟨Nat.lt_succ_of_lt before.1, before.2⟩
  case regular =>
    intro index below other isOther isListed isRegular
    rcases listed_succ.mp isListed with isListed | isHere
    · exact converted.regular index below other isOther isListed isRegular
    · rw [isFile] at isHere
      rw [← Option.some.inj isHere, notRegular] at isRegular
      cases isRegular
  case notRegular =>
    intro index other isOther notBoth
    exact converted.notRegular index other isOther fun both =>
      notBoth ⟨listed_succ.mpr (.inl both.1), both.2⟩
  case registered =>
    intro registration member
    rcases mem_cons.mp member with rfl | member
    · have events :=
        fun {bit} =>
          @events_merged call setup count bit file converted isEntry isFile
            isNew
      constructor
      case notRegular => exact notRegular
      case always =>
        intro bit isAlways
        dsimp only
        rw [getLsbD_or, isAlways, Bool.or_true]
      case asked =>
        intro index below bit isOther isEvent
        have isMerged := events.mpr ⟨index, below, isOther, isEvent⟩
        have inside : bit < 16 := lt_of_getLsbD isEvent
        dsimp only
        rw [getLsbD_or, getLsbD_setWidth, isMerged,
          decide_eq_true (by omega : bit < 32), Bool.true_and, Bool.true_or]
      case only =>
        intro bit isType
        dsimp only at isType
        rw [getLsbD_or, getLsbD_setWidth, Bool.or_eq_true,
          Bool.and_eq_true] at isType
        rcases isType with ⟨_, isMerged⟩ | isAlways
        · obtain ⟨index, below, isOther, isEvent⟩ := events.mp isMerged
          exact ⟨index, below, isOther, .inr isEvent⟩
        · exact ⟨count, isEntry, isFile, .inl isAlways⟩
    · exact converted.registered registration member
  case listed =>
    intro other isListed otherRegular
    rcases listed_succ.mp isListed with isListed | isHere
    · obtain ⟨registration, member, same⟩ :=
        converted.listed other isListed otherRegular
      exact ⟨registration, mem_cons_of_mem _ member, same⟩
    · rw [isFile] at isHere
      exact ⟨_, mem_cons_self, Option.some.inj isHere⟩
  case ready => exact converted.ready

include converted isEntry isFile isNew in
/-- A regular file is reported at once, in all its entries. -/
theorem Converted.reports
    (isRegular : call.isRegular file = true) :
    call.Converted (count + 1) { setup with
      revents :=
        (call.pollEventCallback setup.revents (pollRead ||| pollWrite) file).1
      added := (call.mergedWith setup count file).2
      ready :=
        setup.ready ||
          ((call.mergedWith setup count file).1.setWidth 32 &&&
            (pollRead ||| pollWrite)) != 0#32 } := by
  have reports :
      ∀ index,
        (call.pollEventCallback setup.revents (pollRead ||| pollWrite)
            file).1 index =
          if index < call.nfds ∧ call.file index = some file then
            call.reported (pollRead ||| pollWrite) index
          else
            setup.revents index := by
    intro index
    unfold pollEventCallback
    rw [intNfds_eq]
  have elsewhere :
      ∀ index,
        call.file index ≠ some file →
        (call.pollEventCallback setup.revents (pollRead ||| pollWrite)
            file).1 index = setup.revents index := by
    intro index notFile
    rw [reports, if_neg fun both => notFile both.2]
  constructor
  case addedOpen =>
    exact fun index below other isOther =>
      converted.addedOpen_merged isFile isNew below isOther
  case addedClosed =>
    exact fun index isNone added =>
      converted.addedClosed_merged isFile isNone added
  case closed =>
    intro index below isClosed
    have differs : index ≠ count := by
      rintro rfl
      rw [isClosed.2] at isFile
      cases isFile
    dsimp only
    rw [elsewhere index (isClosed.2 ▸ nofun)]
    exact converted.closed index (by omega) isClosed
  case notOpen =>
    intro index isNone notYet
    dsimp only
    rw [elsewhere index (isNone ▸ nofun)]
    exact converted.notOpen index isNone
      fun before => notYet ⟨Nat.lt_succ_of_lt before.1, before.2⟩
  case regular =>
    intro index below other isOther isListed otherRegular
    dsimp only
    rw [reports]
    split
    · rfl
    · rename_i notHere
      have notFile : other ≠ file := by
        rintro rfl
        exact notHere ⟨below, isOther⟩
      refine converted.regular index below other isOther ?_ otherRegular
      refine (listed_succ.mp isListed).resolve_right fun isHere => ?_
      rw [isFile] at isHere
      exact notFile (Option.some.inj isHere).symm
  case notRegular =>
    intro index other isOther notBoth
    have notFile : other ≠ file := by
      rintro rfl
      exact notBoth ⟨listed_succ.mpr (.inr isFile), isRegular⟩
    dsimp only
    rw [elsewhere index (isOther ▸ fun same =>
      notFile (Option.some.inj same))]
    exact converted.notRegular index other isOther fun both =>
      notBoth ⟨listed_succ.mpr (.inl both.1), both.2⟩
  case registered => exact converted.registered
  case listed =>
    intro other isListed otherRegular
    refine converted.listed other ?_ otherRegular
    refine (listed_succ.mp isListed).resolve_right fun isHere => ?_
    rw [isFile] at isHere
    rw [← Option.some.inj isHere, isRegular] at otherRegular
    cases otherRegular
  case ready =>
    intro isReady
    dsimp only at isReady ⊢
    rcases Bool.or_eq_true_iff.mp isReady with before | here
    · obtain ⟨index, below, isReported⟩ := converted.ready before
      refine ⟨index, below, ?_⟩
      rw [elsewhere index fun isHere => ?_]
      · exact isReported
      · exact isReported (converted.notRegular index file isHere
          fun both => isNew both.1)
    · obtain ⟨bit, isSet⟩ := exists_bit (bne_iff_ne.mp here)
      rw [getLsbD_and, getLsbD_setWidth, Bool.and_eq_true,
        Bool.and_eq_true] at isSet
      obtain ⟨index, below, isHere, isEvent⟩ :=
        (converted.events_merged isEntry isFile isNew).mp isSet.1.2
      refine ⟨index, below, ?_⟩
      rw [reports, if_pos ⟨below, isHere⟩]
      exact reported_ne_zero isSet.2 (.inl isEvent)

end

theorem Converted.addRound
    (converted : call.Converted count setup)
    (isEntry : count < call.nfds)
    (runs : call.addRound setup count = .ok next) :
    call.Converted (count + 1) next := by
  unfold PollCall.addRound at runs
  split at runs
  case isTrue passes =>
    obtain rfl := Except.ok.inj runs
    exact converted.passed isEntry passes
  case isFalse isFirst =>
    obtain ⟨nonneg, notAdded⟩ := not_or.mp isFirst
    cases isFile : call.file count with
    | none =>
      rw [isFile] at runs
      obtain rfl := Except.ok.inj runs
      exact converted.closes isEntry ⟨by omega, isFile⟩
    | some file =>
      have isNew : ¬call.Listed count file := fun isListed =>
        notAdded
          ((converted.addedOpen count isEntry file isFile).mpr isListed)
      rw [isFile] at runs
      dsimp only at runs
      split at runs
      case isTrue isRegular =>
        obtain rfl := Except.ok.inj runs
        exact converted.reports isEntry isFile isNew isRegular
      case isFalse notRegular =>
        split at runs
        · cases runs
        · obtain rfl := Except.ok.inj runs
          exact converted.registers isEntry isFile isNew
            (Bool.eq_false_iff.mpr notRegular)

theorem converted_of_setup
    (isSetup : call.setup = .ok setup) :
    call.Converted call.nfds setup := by
  have general :
      ∀ count,
        count ≤ call.nfds →
        ∀ setup,
          (List.range count).foldlM call.addRound PollCall.start =
              .ok setup →
            call.Converted count setup := by
    intro count
    induction count with
    | zero =>
      intro _ setup runs
      obtain rfl := Except.ok.inj runs
      exact .start call
    | succ count inductionHypothesis =>
      intro inside setup runs
      rw [range_succ, foldlM_append] at runs
      cases before : (List.range count).foldlM call.addRound start with
      | error err =>
        rw [before] at runs
        cases runs
      | ok middle =>
        rw [before] at runs
        have first :=
          inductionHypothesis (by omega) middle before
        refine first.addRound inside ?_
        cases last : call.addRound middle count with
        | error err =>
          simp only [bind, Except.bind, foldlM_cons, last] at runs
          cases runs
        | ok next =>
          simp only [bind, Except.bind, foldlM_cons, last,
            foldlM_nil, pure, Except.pure] at runs
          exact runs
  exact general call.nfds (Nat.le_refl _) setup isSetup

/-- What the files return is what the entries are told. -/
structure Told
    (call : PollCall) (readiness : FdId → BitVec 32)
    (revents : Nat → BitVec 16) : Prop where
  negative :
    ∀ index < call.nfds,
      (call.entry index).fd.toInt < 0 → revents index = 0#16
  closed :
    ∀ index < call.nfds,
      call.IsClosed index → revents index = pollNval.setWidth 16
  told :
    ∀ index < call.nfds, ∀ file,
      call.file index = some file →
      revents index = call.reported (readiness file) index

theorem isQuiet_pollEventCallback (call : PollCall) :
    IsQuiet call.pollEventCallback := by
  intro revents types ptr nobody
  funext index
  refine if_neg fun both => ?_
  have someone :
      ((List.range call.intNfds).any fun index =>
        call.file index == some ptr) = true :=
    List.any_eq_true.mpr
      ⟨index, mem_range.mpr both.1, beq_iff_eq.mpr both.2⟩
  have contradiction := someone.symm.trans nobody
  cases contradiction

variable {registration : Registration FdId}

/-- The entries of a file are told what it returned, as far as they ask. -/
theorem Merged.reported_seen
    {ready : FdId → BitVec 32}
    (merged : call.Merged registration)
    (below : index < call.nfds)
    (isFile : call.file index = some registration.info) :
    call.reported (registration.seen ready) index =
      call.reported (ready registration.info) index := by
  refine BitVec.eq_of_getLsbD_eq fun bit _ => ?_
  rw [Bool.eq_iff_iff, getLsbD_reported, getLsbD_reported]
  refine and_congr_left fun isAsked => ?_
  have isType : registration.types.getLsbD bit = true := by
    rcases isAsked with isEvent | isAlways
    · exact merged.asked index below bit isFile isEvent
    · exact merged.always bit isAlways
  unfold Registration.seen
  rw [getLsbD_and, getLsbD_or, getLsbD_or, isType,
    Bool.true_or, Bool.true_or, Bool.and_true]

/-- What a registration sees is in some entry of its file. -/
theorem Merged.exists_reported
    {ready : FdId → BitVec 32}
    (merged : call.Merged registration)
    (isSeen : registration.seen ready ≠ 0#32) :
    ∃ index < call.nfds,
      call.file index = some registration.info ∧
        call.reported (registration.seen ready) index ≠ 0#16 := by
  have inAlways :
      ∀ bit < 32,
        (pollHup ||| pollErr).getLsbD bit = true →
        pollAlwaysListening.getLsbD bit = true := by
    decide
  obtain ⟨bit, isSet⟩ := exists_bit isSeen
  have isType : registration.types.getLsbD bit = true := by
    have isSet := isSet
    unfold Registration.seen at isSet
    rw [BitVec.or_assoc, getLsbD_and, getLsbD_or,
      Bool.and_eq_true, Bool.or_eq_true] at isSet
    rcases isSet.2 with isType | isAlways
    · exact isType
    · exact merged.always bit
        (inAlways bit (lt_of_getLsbD isAlways) isAlways)
  obtain ⟨index, below, isFile, isAsked⟩ := merged.only bit isType
  exact ⟨index, below, isFile, reported_ne_zero isSet isAsked.symm⟩

variable
  {ready : FdId → BitVec 32}
  {registrations : List (Registration FdId)}
  {revents : Nat → BitVec 16}
  {res : Nat}

/-- An entry for which no registration sees anything stays as it is. -/
theorem checkLoop_unseen
    (unseen :
      ∀ registration ∈ registrations,
        call.file index = some registration.info →
        registration.seen ready = 0#32) :
    (checkLoop call.pollEventCallback ready registrations revents
      res).1 index = revents index := by
  induction registrations generalizing revents res with
  | nil => rfl
  | cons registration rest inductionHypothesis =>
    obtain ⟨headUnseen, restUnseen⟩ := forall_mem_cons.mp unseen
    unfold checkLoop
    split
    · exact inductionHypothesis restUnseen
    · rename_i isSeen
      refine (inductionHypothesis restUnseen).trans (if_neg ?_)
      exact fun both => isSeen (headUnseen both.2)

/-- Another entry is told what its file returned. -/
theorem checkLoop_seen
    (merged : ∀ registration ∈ registrations, call.Merged registration)
    (below : index < call.nfds)
    (isFile : call.file index = some file)
    (seen :
      ∃ registration ∈ registrations,
        registration.info = file ∧ registration.seen ready ≠ 0#32) :
    (checkLoop call.pollEventCallback ready registrations revents
      res).1 index = call.reported (ready file) index := by
  induction registrations generalizing revents res with
  | nil =>
    obtain ⟨_, member, _⟩ := seen
    cases member
  | cons registration rest inductionHypothesis =>
    obtain ⟨headMerged, restMerged⟩ := forall_mem_cons.mp merged
    by_cases inRest :
        ∃ registration ∈ rest,
          registration.info = file ∧ registration.seen ready ≠ 0#32
    · unfold checkLoop
      split
      · exact inductionHypothesis restMerged inRest
      · exact inductionHypothesis restMerged inRest
    · obtain ⟨other, member, sameFile, isSeen⟩ := seen
      have isHead : other = registration :=
        (mem_cons.mp member).resolve_right fun member =>
          inRest ⟨other, member, sameFile, isSeen⟩
      subst isHead
      subst sameFile
      have unseen :
          ∀ registration ∈ rest,
            call.file index = some registration.info →
            registration.seen ready = 0#32 := by
        intro registration member isSame
        by_contra isSeen
        rw [isFile] at isSame
        exact inRest
          ⟨registration, member, (Option.some.inj isSame).symm, isSeen⟩
      unfold checkLoop
      rw [if_neg isSeen]
      refine (checkLoop_unseen unseen).trans ?_
      have inside : index < call.intNfds := by
        rw [intNfds_eq]
        exact below
      exact (if_pos ⟨inside, isFile⟩).trans
        (headMerged.reported_seen below isFile)

/-- Where something is counted some registration sees something. -/
theorem seen_of_pos
    (found :
      0 < (checkLoop call.pollEventCallback ready registrations revents
        0).2) :
    ∃ registration ∈ registrations, registration.seen ready ≠ 0#32 := by
  by_contra none
  have unseen :
      ∀ registration ∈ registrations, registration.seen ready = 0#32 :=
    fun registration member => by
      by_contra isSeen
      exact none ⟨registration, member, isSeen⟩
  clear none
  induction registrations with
  | nil => exact Nat.lt_irrefl 0 found
  | cons registration rest inductionHypothesis =>
    obtain ⟨headUnseen, restUnseen⟩ := forall_mem_cons.mp unseen
    unfold checkLoop at found
    rw [if_pos headUnseen] at found
    exact inductionHypothesis found restUnseen

theorem Converted.kept
    (converted : call.Converted call.nfds setup)
    (isTold : setup.revents index ≠ 0#16) :
    (checkLoop call.pollEventCallback ready setup.registrations revents
      res).1 index = revents index := by
  refine checkLoop_unseen fun registration member isFile => ?_
  have notRegular :=
    (converted.registered registration member).notRegular
  refine absurd (converted.notRegular index _ isFile fun both => ?_) isTold
  rw [notRegular] at both
  exact Bool.false_ne_true both.2

/-- What the files of the entries are ready for, as the call sees it. -/
def readiness
    (call : PollCall) (ready : FdId → BitVec 32) (file : FdId) : BitVec 32 :=
  if call.isRegular file then pollRead ||| pollWrite else ready file

/-- The loop tells every entry what its file is ready for. -/
theorem Converted.told
    (converted : call.Converted call.nfds setup) :
    call.Told (call.readiness ready)
      (checkLoop call.pollEventCallback ready setup.registrations
        setup.revents 0).1 := by
  have stays :
      ∀ index,
        call.file index = none →
        (checkLoop call.pollEventCallback ready setup.registrations
          setup.revents 0).1 index = setup.revents index :=
    fun index isNone => checkLoop_unseen fun registration _ isFile => by
      rw [isNone] at isFile
      cases isFile
  constructor
  case negative =>
    intro index below negative
    have isNone : call.file index = none := by
      cases isFile : call.file index with
      | none => rfl
      | some file =>
        have nonneg := nonneg_of_file isFile
        omega
    rw [stays index isNone]
    exact converted.notOpen index isNone fun both => by
      have nonneg := both.2.1
      omega
  case closed =>
    intro index below isClosed
    rw [stays index isClosed.2]
    exact converted.closed index below isClosed
  case told =>
    intro index below file isFile
    have isListed : call.Listed call.nfds file := ⟨index, below, isFile⟩
    unfold readiness
    cases isRegular : call.isRegular file with
    | true =>
      rw [if_pos rfl]
      refine (checkLoop_unseen fun registration member isSame => ?_).trans
        (converted.regular index below file isFile isListed isRegular)
      rw [isFile] at isSame
      have notRegular := (converted.registered registration
        member).notRegular
      rw [← Option.some.inj isSame, isRegular] at notRegular
      cases notRegular
    | false =>
      rw [if_neg Bool.false_ne_true]
      by_cases seen :
          ∃ registration ∈ setup.registrations,
            registration.info = file ∧ registration.seen ready ≠ 0#32
      · exact checkLoop_seen converted.registered below isFile seen
      · have unseen :
            ∀ registration ∈ setup.registrations,
              call.file index = some registration.info →
              registration.seen ready = 0#32 := by
          intro registration member isSame
          by_contra isSeen
          rw [isFile] at isSame
          exact seen
            ⟨registration, member, (Option.some.inj isSame).symm, isSeen⟩
        obtain ⟨registration, member, rfl⟩ :=
          converted.listed file isListed isRegular
        have isMerged := converted.registered registration member
        rw [checkLoop_unseen unseen,
          converted.notRegular index _ isFile fun both => by
            rw [isRegular] at both
            exact Bool.false_ne_true both.2,
          ← isMerged.reported_seen below isFile,
          unseen registration member isFile]
        unfold reported
        rw [zero_and]
        rfl

/--
What a successful `poll` returns and writes back: the entries with what their
files are ready for, restricted to what each one asks and to what is always
reported, and the number of those that are told something.
-/
structure Answers
    (call : PollCall) (count : Nat) (entries : List PollEntry) : Prop where
  same :
    entries.map (fun entry => (entry.fd, entry.events)) =
      call.entries.map fun entry => (entry.fd, entry.events)
  contained :
    ∀ entry ∈ entries, ∀ bit,
      entry.revents.getLsbD bit = true →
      entry.events.getLsbD bit = true ∨
        pollAlwaysListening.getLsbD bit = true
  negative :
    ∀ entry ∈ entries, entry.fd.toInt < 0 → entry.revents = 0#16
  closed :
    ∀ entry ∈ entries,
      0 ≤ entry.fd.toInt → call.fdtableGet entry.fd = none →
      entry.revents = pollNval.setWidth 16
  shared :
    ∃ ready : FdId → BitVec 32,
      ((∃ round ∈ call.rounds, ready = round.ready) ∨ ready = fun _ => 0#32) ∧
        ∀ entry ∈ entries, ∀ file,
          call.fdtableGet entry.fd = some file →
          entry.revents =
            (call.readiness ready file &&&
              (entry.events.setWidth 32 |||
                pollAlwaysListening)).setWidth 16
  counted : count = entries.countP fun entry => entry.revents != 0#16
  infinite : call.timeout.toInt < 0 → 0 < count

/-- The entries that are written back. -/
def written (call : PollCall) (revents : Nat → BitVec 16) :
    List PollEntry :=
  call.entries.mapIdx fun index entry => { entry with revents := revents index }

theorem entries_eq (call : PollCall) :
    call.entries = (List.range call.nfds).map call.entry := by
  refine ext_getElem ?_ fun index inside _ => ?_
  · rw [length_map, length_range, nfds]
  · rw [getElem_map, getElem_range, entry,
      getD_eq_getElem _ _ inside]

theorem written_eq :
    call.written revents =
      (List.range call.nfds).map fun index =>
        { call.entry index with revents := revents index } := by
  refine ext_getElem ?_ fun index inside _ => ?_
  · rw [written, length_mapIdx, length_map, length_range, nfds]
  · have below : index < call.entries.length := by
      rwa [written, length_mapIdx] at inside
    simp only [written, getElem_mapIdx, getElem_map,
      getElem_range, entry, getD_eq_getElem _ _ below]

/-- An answer that tells the entries what their files are ready for. -/
theorem Told.answers
    {entries : List PollEntry}
    (told : call.Told (call.readiness ready) revents)
    (isRound :
      (∃ round ∈ call.rounds, ready = round.ready) ∨ ready = fun _ => 0#32)
    (infinite :
      call.timeout.toInt < 0 →
        ∃ index < call.nfds, revents index ≠ 0#16)
    (finishes : call.finish revents = .ok (count, entries)) :
    call.Answers count entries := by
  unfold finish at finishes
  split at finishes
  · cases finishes
  obtain ⟨rfl, isWritten⟩ := Prod.mk.inj (Except.ok.inj finishes)
  obtain rfl : call.written revents = entries := isWritten
  have member :
      ∀ entry ∈ call.written revents,
        ∃ index < call.nfds,
          entry = { call.entry index with revents := revents index } := by
    intro entry isEntry
    rw [written_eq] at isEntry
    obtain ⟨index, below, rfl⟩ := List.mem_map.mp isEntry
    exact ⟨index, mem_range.mp below, rfl⟩
  constructor
  case same =>
    rw [written_eq, entries_eq, List.map_map, List.map_map]
    rfl
  case contained =>
    intro entry isEntry bit isSet
    obtain ⟨index, below, rfl⟩ := member entry isEntry
    dsimp only at isSet ⊢
    cases isFile : call.file index with
    | some file =>
      rw [told.told index below file isFile] at isSet
      exact (getLsbD_reported.mp isSet).2
    | none =>
      by_cases negative : (call.entry index).fd.toInt < 0
      · rw [told.negative index below negative,
          getLsbD_zero] at isSet
        cases isSet
      · rw [told.closed index below ⟨by omega, isFile⟩,
          getLsbD_setWidth, Bool.and_eq_true] at isSet
        have isNval :
            ∀ bit < 32,
              pollNval.getLsbD bit = true →
              pollAlwaysListening.getLsbD bit = true := by
          decide
        exact .inr (isNval bit (lt_of_getLsbD isSet.2) isSet.2)
  case negative =>
    intro entry isEntry
    obtain ⟨index, below, rfl⟩ := member entry isEntry
    exact told.negative index below
  case closed =>
    intro entry isEntry nonneg isNone
    obtain ⟨index, below, rfl⟩ := member entry isEntry
    exact told.closed index below ⟨nonneg, isNone⟩
  case shared =>
    refine ⟨ready, isRound, fun entry isEntry file isFile => ?_⟩
    obtain ⟨index, below, rfl⟩ := member entry isEntry
    exact told.told index below file isFile
  case counted =>
    rw [written_eq, countP_map]
    rfl
  case infinite =>
    intro isInfinite
    obtain ⟨index, below, isTold⟩ := infinite isInfinite
    exact countP_pos_iff.mpr
      ⟨index, mem_range.mpr below, bne_iff_ne.mpr isTold⟩

/-- A wait that returned in a round, or was not begun, has told the entries. -/
theorem Converted.wait_told
    {result : Except Errno Nat}
    (converted : call.Converted call.nfds setup)
    (waits : call.wait setup = some (result, revents)) :
    ∃ ready : FdId → BitVec 32,
      ((∃ round ∈ call.rounds, ready = round.ready) ∨
          ready = fun _ => 0#32) ∧
        call.Told (call.readiness ready) revents ∧
          (setup.ready = false → call.timeout.toInt < 0 →
              (∃ res, result = .ok res) →
              ∃ index < call.nfds, revents index ≠ 0#16) ∧
            (setup.ready = true →
              ∃ index < call.nfds, revents index ≠ 0#16) := by
  unfold wait at waits
  split at waits
  case h_1 err isError =>
    obtain ⟨rfl, rfl⟩ := Prod.mk.inj (Option.some.inj waits)
    have same :
        (checkLoop call.pollEventCallback (fun _ => 0#32)
          setup.registrations setup.revents 0).1 = setup.revents :=
      funext fun index => checkLoop_unseen fun registration _ _ =>
        zero_and
    refine ⟨fun _ => 0#32, .inr rfl, ?_, ?_, converted.ready⟩
    · rw [← same]
      exact converted.told
    · rintro _ _ ⟨res, isOk⟩
      cases isOk
  case h_2 noError =>
    obtain ⟨before, round, after, same, _, ends⟩ :=
      exists_endsIn (isQuiet_pollEventCallback call) waits
    have isRound : round ∈ call.rounds :=
      same ▸ mem_append_right before mem_cons_self
    obtain rfl := ends.checked
    refine ⟨round.ready, .inl ⟨round, isRound, rfl⟩, converted.told, ?_, ?_⟩
    · intro notReady isInfinite isOk
      by_cases found :
          0 < (checkLoop call.pollEventCallback round.ready
            setup.registrations setup.revents 0).2
      · obtain ⟨registration, member, isSeen⟩ := seen_of_pos found
        have isMerged := converted.registered registration member
        obtain ⟨index, below, isFile, isReported⟩ :=
          isMerged.exists_reported isSeen
        refine ⟨index, below, ?_⟩
        rw [checkLoop_seen converted.registered below isFile
          ⟨registration, member, rfl, isSeen⟩,
          ← isMerged.reported_seen below isFile]
        exact isReported
      · rcases ends.nothing (Nat.eq_zero_of_not_pos found) with
          ⟨_, ⟨err, isError⟩ | ⟨isTimed, _⟩⟩
        · obtain ⟨res, isOk⟩ := isOk
          rw [isError] at isOk
          cases isOk
        · rw [notReady, Bool.false_or, decide_eq_true_eq] at isTimed
          omega
    · intro isReady
      obtain ⟨index, below, isTold⟩ := converted.ready isReady
      exact ⟨index, below, (converted.kept isTold).symm ▸ isTold⟩

/--
Whenever `poll` succeeds, its entries are told what their files are ready for
and counted, and one is if the timeout was infinite.
-/
theorem poll_answers
    {count : Nat}
    {entries : List PollEntry}
    (returns : call.sysPoll = some (.ok (count, entries))) :
    call.Answers count entries := by
  unfold sysPoll at returns
  split at returns
  · cases returns
  split at returns
  · cases returns
  · cases returns
  case h_3 setup _ isSetup =>
    have converted := converted_of_setup isSetup
    obtain ⟨answer, waits, answers⟩ := Option.map_eq_some_iff.mp returns
    obtain ⟨ready, isRound, told, waited, isReady⟩ :=
      converted.wait_told waits
    split at answers
    case h_1 res isOk =>
      refine told.answers isRound (fun infinite => ?_) answers
      cases before : setup.ready with
      | true => exact isReady before
      | false => exact waited before infinite ⟨res, isOk⟩
    case h_2 err isError =>
      split at answers
      · rename_i both
        exact told.answers isRound (fun _ => isReady both.1) answers
      · cases answers

/--
Two entries for one file that can be read, a negative descriptor and one that
is not open.
-/
def mixedCall : PollCall where
  entries := [
    ⟨0#32, 1#16, 0#16⟩,
    ⟨0#32, 4#16, 0#16⟩,
    ⟨BitVec.allOnes 32, 1#16, 0#16⟩,
    ⟨7#32, 1#16, 0#16⟩]
  timeout := BitVec.allOnes 32
  files := [some 3]
  isRegular _ := false
  readFaults := false
  createError := none
  addError _ := none
  pipeError := none
  rounds := [⟨fun _ => pollRead, .timedOut⟩]
  writeFaults := false
  fits := by
    decide

/-- It returns 2, for the first entry and the closed descriptor. -/
theorem mixed_poll_answers :
    mixedCall.Answers 2 [
      ⟨0#32, 1#16, 1#16⟩,
      ⟨0#32, 4#16, 0#16⟩,
      ⟨BitVec.allOnes 32, 1#16, 0#16⟩,
      ⟨7#32, 1#16, 32#16⟩] :=
  @poll_answers mixedCall _ _ rfl

end PollCall

end GuestKernel
