import GuestKernel.Errno
import Mathlib.Data.List.Chain
import Mathlib.Data.List.DropRight

namespace GuestKernel

/-!
# Path normalization

`fs/path.c`: `__path_normalize` builds the resolved path in a fixed buffer,
component by component, and starts over on an expanded path when a component
turns out to be a symlink.

A string is the list of its bytes before the terminator.  The output buffer is
the part of it that is written, `n` is the counter of the source, and `none`
is an access outside a buffer or a failed assertion.
-/

/-- The bytes of a C string. -/
abbrev PathString := List UInt8

/-- The byte `'/'`. -/
abbrev slash : UInt8 := 47

/-- The byte `'.'`. -/
abbrev dot : UInt8 := 46

/-- `MAX_PATH`. -/
abbrev maxPath : Nat := 4096

/-- The loops of `path_is_normalized`, inside a component. -/
def noDoubleSlash : PathString → Bool
  | [] => true
  | byte :: rest =>
    (byte ≠ slash ∨ rest.head? ≠ some slash) && noDoubleSlash rest

/-- `path_is_normalized`; note that a trailing slash passes. -/
def pathIsNormalized (path : PathString) : Bool :=
  (path = [] ∨ path.head? = some slash) && noDoubleSlash path

/-- The fields of `struct statbuf` an access check reads. -/
structure Stat where
  mode : Nat
  uid : Nat
  gid : Nat
  deriving Repr, DecidableEq

/-- The credentials of the current task. -/
structure Credentials where
  euid : Nat
  egid : Nat
  deriving Repr, DecidableEq

/-- `S_ISDIR`. -/
def isDir (mode : Nat) : Bool :=
  mode &&& 0o170000 = 0o040000

/-- `AC_X`. -/
abbrev acX : Nat := 1

/-- `access_check`. -/
def accessCheck
    (user : Credentials) (stat : Stat) (check : Nat) : Except Errno Unit :=
  if user.euid = 0 then
    .ok ()
  else if check = 0 then
    .ok ()
  else
    -- Align check with the correct bits in mode
    let check :=
      if user.euid = stat.uid then check <<< 6
      else if user.egid = stat.gid then check <<< 3
      else check
    if stat.mode &&& check = 0 then .error .acces else .ok ()

/--
A mounted file system: its mount point, its `readlink` (`none` when the file
system has none) and its `stat`.  `readlink` fills at most the buffer.
-/
structure Mount where
  point : PathString
  readlink : Option (PathString → Nat → Except Errno PathString)
  stat : PathString → Except Errno Stat
  bounded :
    ∀ read ∈ readlink, ∀ path size text,
      read path size = .ok text → text.length ≤ size

/-- The call of `readlink`, or the error of a file system without one. -/
def Mount.readlinkAt
    (mount : Mount) (path : PathString) (size : Nat) :
    Except Errno PathString :=
  match mount.readlink with
  | none => .error .inval
  | some readlink => readlink path size

/-- The mount list, with the root file system in it. -/
structure Mounts where
  list : List Mount
  root : ∃ mount ∈ list, mount.point = []

/-- A path is at or below a mount point. -/
def Mount.contains (mount : Mount) (path : PathString) : Bool :=
  mount.point.isPrefixOf path &&
    ((path.drop mount.point.length).head? = none ∨
      (path.drop mount.point.length).head? = some slash)

/-- `mount_find`: the first mount that contains the path. -/
def Mounts.find (mounts : Mounts) (path : PathString) : Option Mount :=
  if pathIsNormalized path then
    mounts.list.find? fun mount => mount.contains path
  else
    none

/--
`find_mount_and_trim_path`, with the assertion that follows it in
`__path_normalize`.
-/
def Mounts.findAndTrim
    (mounts : Mounts) (path : PathString) : Option (Mount × PathString) := do
  let mount ← mounts.find path
  let trimmed := path.drop mount.point.length
  if pathIsNormalized trimmed then
    pure (mount, trimmed)
  else
    none

/-- `N_SYMLINK_FOLLOW` is set. -/
def followsLinks (flags : Nat) : Bool :=
  flags.testBit 0

/-- The assertion on the flags: you must choose one. -/
def flagsChosen (flags : Nat) : Bool :=
  flags.testBit 0 ≠ flags.testBit 1

/--
The state of the loop: the byte before `p` (`none` at the start of the path),
what is left of the path, the output written so far, and `n`.
-/
structure PathWalk where
  prev : Option UInt8
  p : PathString
  out : PathString
  n : Int
  deriving Repr, DecidableEq

/-- What a round of the loop does. -/
inductive Round where
  | next (walk : PathWalk)
  | expand (path : PathString)
  | stop (result : Option (Except Errno PathString))

/-- `while (*p == '/') p++;` -/
def PathWalk.eatSlashes (walk : PathWalk) : PathWalk :=
  { walk with
    prev := if walk.p.head? = some slash then some slash else walk.prev
    p := walk.p.dropWhile (· = slash) }

/-- The loop `while (*p != '/' && *p != '\0' && --n > 0) *o++ = *p++;` -/
def copyComponent (walk : PathWalk) : PathString → PathWalk
  | [] => { walk with p := [] }
  | byte :: rest =>
    if byte = slash then
      { walk with p := byte :: rest }
    else if 0 < walk.n - 1 then
      copyComponent { walk with
        prev := some byte
        out := walk.out ++ [byte]
        n := walk.n - 1 } rest
    else
      { walk with
        p := byte :: rest
        n := walk.n - 1 }

/-- The loop of a `..`: delete the last component; `none` when there is none. -/
def deleteLast (out : PathString) : Option PathString :=
  match out.rdropWhile (· ≠ slash) with
  | [] => none
  | kept => some kept.dropLast

/-- The path the walk starts over with: the link put in place. -/
def expandLink (out text p : PathString) : PathString :=
  let expanded :=
    -- if we should restart from the root, copy down
    if text.head? = some slash then text else out ++ text
  if p = [] then expanded else expanded ++ slash :: p

/--
The directory check after a component that a slash follows: it must be a
directory with execute permission, if it exists.
-/
def checkDirectory
    (user : Credentials) (mount : Mount) (path : PathString) :
    Except Errno Unit :=
  match mount.stat path with
  | .error _ => .ok ()
  | .ok stat =>
    if isDir stat.mode then accessCheck user stat acX
    else .error .notdir

/--
The part of a round after the component is copied: ask whether it is a
symlink.  `c` is the length of the output before the component.
-/
def PathWalk.resolve
    (walk : PathWalk)
    (user : Credentials)
    (mounts : Mounts)
    (levels c : Nat) : Round :=
  -- the terminator of the string to resolve
  if maxPath ≤ walk.out.length then
    .stop none
  else
    match mounts.findAndTrim walk.out with
    | none => .stop none
    | some (mount, trimmed) =>
      match mount.readlinkAt trimmed (maxPath - c) with
      | .ok text =>
        if 5 ≤ levels then
          .stop (some (.error .loop))
        else if maxPath ≤ c + text.length then
          -- readlink does not null terminate
          .stop none
        else
          let expanded := expandLink (walk.out.take c) text walk.p
          if maxPath ≤ expanded.length then
            .stop none
          else
            .expand expanded
      | .error _ =>
        match walk.prev with
        | none => .stop none
        | some prev =>
          if prev = slash then
            match checkDirectory user mount trimmed with
            | .error code => .stop (some (.error code))
            | .ok () => .next walk
          else
            .next walk

/-- A round for a component other than `.` and `..`. -/
def PathWalk.component
    (walk : PathWalk)
    (user : Credentials)
    (mounts : Mounts)
    (flags levels : Nat) : Round :=
  if maxPath ≤ walk.out.length then
    .stop none
  else
    -- output a slash
    let c := walk.out.length + 1
    let copied :=
      (copyComponent { walk with
        out := walk.out ++ [slash]
        n := walk.n - 1 } walk.p).eatSlashes
    if copied.n = 0 then
      .stop (some (.error .nametoolong))
    else if followsLinks flags ∨ copied.p ≠ [] then
      copied.resolve user mounts levels c
    else
      .next copied

/-- The path starts with this component, followed by a slash or the end. -/
def startsWith (component path : PathString) : Bool :=
  component.isPrefixOf path &&
    ((path.drop component.length).head? = none ∨
      (path.drop component.length).head? = some slash)

/-- One round of the loop, or the end of the path. -/
def PathWalk.round
    (walk : PathWalk)
    (user : Credentials)
    (mounts : Mounts)
    (flags levels : Nat) : Round :=
  if walk.p = [] then
    if walk.out.length < maxPath ∧ pathIsNormalized walk.out then
      .stop (some (.ok walk.out))
    else
      .stop none
  else if startsWith [dot] walk.p then
    -- single dot path component, ignore
    .next { walk with prev := some dot, p := walk.p.drop 1 }.eatSlashes
  else if startsWith [dot, dot] walk.p then
    -- double dot path component, delete the last component
    let rest := { walk with prev := some dot, p := walk.p.drop 2 }.eatSlashes
    if walk.out = [] then
      .next rest
    else
      match deleteLast walk.out with
      | none => .stop none
      | some out =>
        .next { rest with
          out := out
          n := walk.n + (walk.out.length - out.length : Nat) }
  else
    walk.component user mounts flags levels

/-- The state before the loop; `at_path` is the base, or null. -/
def PathWalk.start (base : Option PathString) (path : PathString) :
    PathWalk :=
  let out :=
    match base with
    | none => []
    | some atPath => if atPath = [slash] then [] else atPath
  { prev := none
    p := path
    out := out
    n := (maxPath : Int) - 1 - out.length : PathWalk }.eatSlashes

variable {walk : PathWalk} {user : Credentials} {mounts : Mounts}
  {flags levels : Nat} {path : PathString}

/-- Copying consumes the path, or leaves the output as it is. -/
theorem copyComponent_progress :
    (copyComponent walk path).p.length < path.length ∨
      (copyComponent walk path).p = path ∧
        (copyComponent walk path).out = walk.out := by
  induction path generalizing walk with
  | nil =>
    exact .inr ⟨rfl, rfl⟩
  | cons byte rest inductionHypothesis =>
    unfold copyComponent
    split
    · exact .inr ⟨rfl, rfl⟩
    · split
      · refine .inl (Nat.lt_succ_of_le ?_)
        rcases @inductionHypothesis { walk with
            prev := some byte
            out := walk.out ++ [byte]
            n := walk.n - 1 } with shorter | ⟨same, _⟩
        · exact Nat.le_of_lt shorter
        · rw [same]
      · exact .inr ⟨rfl, rfl⟩

theorem PathWalk.eatSlashes_length (walk : PathWalk) :
    walk.eatSlashes.p.length ≤ walk.p.length :=
  List.length_dropWhile_le _ _

/-- Everything the symlink part of a round can do. -/
theorem PathWalk.resolve_cases
    (walk : PathWalk)
    (user : Credentials)
    (mounts : Mounts)
    (levels c : Nat) :
    (∃ result, walk.resolve user mounts levels c = .stop result) ∨
      walk.resolve user mounts levels c = .next walk ∨
      levels < 5 ∧
        ∃ path, walk.resolve user mounts levels c = .expand path := by
  unfold PathWalk.resolve
  split
  · exact .inl ⟨_, rfl⟩
  split
  · exact .inl ⟨_, rfl⟩
  split
  · split
    · exact .inl ⟨_, rfl⟩
    · rename_i early
      split
      · exact .inl ⟨_, rfl⟩
      · simp only
        split
        · exact .inl ⟨_, rfl⟩
        · exact .inr (.inr ⟨Nat.lt_of_not_le early, _, rfl⟩)
  · split
    · exact .inl ⟨_, rfl⟩
    · split
      · split
        · exact .inl ⟨_, rfl⟩
        · exact .inr (.inl rfl)
      · exact .inr (.inl rfl)

/-- A round consumes the path, or makes the output longer. -/
theorem PathWalk.component_next
    {next : PathWalk}
    (goesOn : walk.component user mounts flags levels = .next next) :
    next.p.length < walk.p.length ∨
      next.p.length ≤ walk.p.length ∧ walk.out.length < maxPath ∧
        next.out.length = walk.out.length + 1 := by
  set separated : PathWalk :=
    { walk with out := walk.out ++ [slash], n := walk.n - 1 }
  set copied := (copyComponent separated walk.p).eatSlashes with isCopied
  have isNext : walk.out.length < maxPath ∧ next = copied := by
    unfold PathWalk.component at goesOn
    split at goesOn
    · cases goesOn
    · rename_i room
      refine ⟨Nat.lt_of_not_le room, ?_⟩
      simp only at goesOn
      split at goesOn
      · cases goesOn
      · split at goesOn
        · rcases copied.resolve_cases user mounts levels
              (walk.out.length + 1) with
            ⟨_, stops⟩ | same | ⟨_, _, expands⟩
          · cases stops.symm.trans goesOn
          · exact Round.next.inj (goesOn.symm.trans same)
          · cases expands.symm.trans goesOn
        · exact (Round.next.inj goesOn).symm
  obtain ⟨room, rfl⟩ := isNext
  have eaten := (copyComponent separated walk.p).eatSlashes_length
  rcases @copyComponent_progress separated walk.p with
      shorter | ⟨sameP, sameOut⟩
  · exact .inl (Nat.lt_of_le_of_lt eaten shorter)
  · refine .inr ⟨sameP ▸ eaten, room, ?_⟩
    show (copyComponent separated walk.p).out.length = _
    rw [sameOut]
    simp [separated]

/-- A round consumes the path, or makes the output longer. -/
theorem PathWalk.round_next
    {next : PathWalk}
    (goesOn : walk.round user mounts flags levels = .next next) :
    next.p.length < walk.p.length ∨
      next.p.length ≤ walk.p.length ∧ walk.out.length < maxPath ∧
        next.out.length = walk.out.length + 1 := by
  unfold PathWalk.round at goesOn
  split at goesOn
  · split at goesOn <;> cases goesOn
  rename_i more
  have skips :
      ∀ (prev : Option UInt8) (k : Nat), 0 < k →
        ({ walk with prev := prev, p := walk.p.drop k } :
          PathWalk).eatSlashes.p.length < walk.p.length := by
    intro prev k positive
    have eaten :=
      ({ walk with prev := prev, p := walk.p.drop k } :
        PathWalk).eatSlashes_length
    have nonempty := List.length_pos_iff.mpr more
    simp only [List.length_drop] at eaten
    omega
  split at goesOn
  · cases goesOn
    exact .inl (skips _ 1 Nat.one_pos)
  · split at goesOn
    · simp only at goesOn
      split at goesOn
      · cases goesOn
        exact .inl (skips _ 2 Nat.two_pos)
      · split at goesOn
        · cases goesOn
        · cases goesOn
          exact .inl (skips _ 2 Nat.two_pos)
    · exact component_next goesOn

/-- Only the first levels start over. -/
theorem PathWalk.round_expand
    (expands : walk.round user mounts flags levels = .expand path) :
    levels < 5 := by
  have resolves :
      ∀ {copied : PathWalk} {c : Nat},
        copied.resolve user mounts levels c = .expand path →
        levels < 5 := by
    intro copied c expands
    rcases copied.resolve_cases user mounts levels c with
        ⟨_, stops⟩ | same | ⟨early, _⟩
    · cases stops.symm.trans expands
    · cases same.symm.trans expands
    · exact early
  unfold PathWalk.round at expands
  split at expands
  · split at expands <;> cases expands
  split at expands
  · cases expands
  split at expands
  · simp only at expands
    split at expands
    · cases expands
    · split at expands <;> cases expands
  · unfold PathWalk.component at expands
    split at expands
    · cases expands
    · simp only at expands
      split at expands
      · cases expands
      · split at expands
        · exact resolves expands
        · cases expands

/-- `__path_normalize`, from a state of its loop on. -/
def PathWalk.run
    (user : Credentials)
    (mounts : Mounts)
    (flags levels : Nat)
    (walk : PathWalk) : Option (Except Errno PathString) :=
  match taken : walk.round user mounts flags levels with
  | .stop result => result
  | .next next => next.run user mounts flags levels
  | .expand path =>
    if path = [] then
      some (.error .noent)
    else
      (PathWalk.start none path).run user mounts flags (levels + 1)
termination_by (5 - levels, walk.p.length, maxPath - walk.out.length)
decreasing_by
  · have progress := PathWalk.round_next taken
    simp only [Prod.lex_def, lt_self_iff_false, true_and, false_or]
    omega
  · have early := PathWalk.round_expand taken
    simp only [Prod.lex_def]
    omega

/-- `__path_normalize`, at a level. -/
def pathNormalizeAt
    (user : Credentials)
    (mounts : Mounts)
    (base : Option PathString)
    (path : PathString)
    (flags levels : Nat) : Option (Except Errno PathString) :=
  if ¬ flagsChosen flags then
    none
  else if path = [] then
    some (.error .noent)
  else if maxPath ≤ (base.getD []).length then
    none
  else
    (PathWalk.start base path).run user mounts flags levels

end GuestKernel
