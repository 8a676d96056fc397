import GuestKernel.OpenFiles

namespace GuestKernel

/-!
# Paths of files in memory

`fs/tmp.c`: `__tmpfs_lookup` walks down the directory entries, and
`tmpfs_getpath` is to climb up again.  Its loop does not go on to the parent.
-/

/-- What the entries of a mount point to. -/
structure TmpDirents (Dirent : Type) where
  root : Dirent
  name : Dirent → PathString
  isDir : Dirent → Bool
  parent : Dirent → Option Dirent
  children : Dirent → List Dirent
  rootless : parent root = none
  climbs : ∀ dir, ∀ child ∈ children dir, parent child = some dir

/--
`path_next_component`: the component and the rest of the path, or the end;
`none` is a failed assertion.
-/
def pathNextComponent (path : PathString) :
    Option (Except Errno (Option (PathString × PathString))) :=
  match path with
  | [] => some (.ok none)
  | first :: rest =>
    if first ≠ slash then
      none
    else
      let component := rest.takeWhile (· ≠ slash)
      if maxName ≤ component.length then
        some (.error .nametoolong)
      else
        some (.ok (some (component, rest.dropWhile (· ≠ slash))))

theorem pathNextComponent_shorter
    {path component rest : PathString}
    (next : pathNextComponent path = some (.ok (some (component, rest)))) :
    rest.length < path.length := by
  unfold pathNextComponent at next
  cases path with
  | nil => cases next
  | cons first later =>
    dsimp only at next
    split at next
    · cases next
    split at next
    · cases next
    cases next
    exact Nat.lt_succ_of_le (List.dropWhile_suffix _).length_le

namespace TmpDirents

variable {Dirent : Type} [DecidableEq Dirent]

/-- `tmpfs_dir_lookup`. -/
def dirLookup (tree : TmpDirents Dirent) (dir : Dirent) (name : PathString) :
    Except Errno Dirent :=
  if tree.isDir dir then
    match (tree.children dir).find? fun child => tree.name child = name with
    | none => .error .noent
    | some child => .ok child
  else
    .error .notdir

/-- The loop of `__tmpfs_lookup` for `tmpfs_lookup`. -/
def lookupFrom (tree : TmpDirents Dirent) (dirent : Dirent) (path : PathString) :
    Option (Except Errno Dirent) :=
  match _ : pathNextComponent path with
  | none => none
  | some (.error err) => some (.error err)
  | some (.ok none) => some (.ok dirent)
  | some (.ok (some (component, rest))) =>
    match tree.dirLookup dirent component with
    | .error err => some (.error err)
    | .ok child => tree.lookupFrom child rest
termination_by path.length
decreasing_by exact pathNextComponent_shorter ‹_›

/-- `tmpfs_lookup`. -/
def lookup (tree : TmpDirents Dirent) (path : PathString) :
    Option (Except Errno Dirent) :=
  tree.lookupFrom tree.root path

/--
The loop of `tmpfs_getpath`, with the bytes from `p` on and the room before it;
it stays at the same entry.
-/
def getpathFrom
    (tree : TmpDirents Dirent)
    (dirent : Dirent)
    (room : Nat)
    (path : PathString) : Except Errno PathString :=
  if dirent = tree.root then
    .ok path
  else if room < (tree.name dirent).length + 1 then
    .error .nametoolong
  else
    tree.getpathFrom dirent (room - ((tree.name dirent).length + 1))
      (slash :: tree.name dirent ++ path)
termination_by room

/-- `tmpfs_getpath`. -/
def getpath (tree : TmpDirents Dirent) (dirent : Dirent) :
    Except Errno PathString :=
  tree.getpathFrom dirent (maxPath - 1) []

/--
What the path of an entry is to be: the one that it was found at, if that fits
in the buffer, so that it is found there again.
-/
structure Climbs
    (tree : TmpDirents Dirent)
    (path : PathString)
    (dirent : Dirent) : Prop where
  written : path.length < maxPath → tree.getpath dirent = .ok path
  refused : maxPath ≤ path.length → tree.getpath dirent = .error .nametoolong
  again :
    ∀ found, tree.getpath dirent = .ok found →
      tree.lookup found = some (.ok dirent)

variable {tree : TmpDirents Dirent} {dirent dir : Dirent} {path : PathString}

omit [DecidableEq Dirent] in
/-- An entry that is looked up below another one is not the root. -/
theorem lookupFrom_of_ok
    (found : tree.lookupFrom dir path = some (.ok dirent)) :
    path = [] ∧ dirent = dir ∨ dirent ≠ tree.root := by
  fun_induction lookupFrom tree dir path with
  | case1 => cases found
  | case2 => cases found
  | case3 dir path finished =>
    cases found
    refine .inl ⟨?_, rfl⟩
    cases path with
    | nil => rfl
    | cons first rest =>
      unfold pathNextComponent at finished
      dsimp only at finished
      split at finished
      · cases finished
      · split at finished <;> cases finished
  | case4 => cases found
  | case5 dir path component rest isNext child isChild inductionHypothesis =>
    refine .inr ?_
    rcases inductionHypothesis found with ⟨_, isFound⟩ | notRoot
    · intro isRoot
      rw [isFound] at isRoot
      have isParent : tree.parent child = some dir := by
        unfold dirLookup at isChild
        split at isChild
        case isTrue =>
          split at isChild
          · cases isChild
          · next isFirst =>
              cases isChild
              exact tree.climbs dir child (List.mem_of_find?_eq_some isFirst)
        case isFalse => cases isChild
      rw [isRoot, tree.rootless] at isParent
      cases isParent
    · exact notRoot

/-- The loop fills the buffer with the name of one entry. -/
theorem getpathFrom_of_ne
    (notRoot : dirent ≠ tree.root)
    (room : Nat)
    (path : PathString) :
    tree.getpathFrom dirent room path = .error .nametoolong := by
  induction room using Nat.strongRecOn generalizing path with
  | ind room inductionHypothesis =>
    rw [getpathFrom, if_neg notRoot]
    split
    · rfl
    · exact inductionHypothesis _ (by omega) _

/--
The path of an entry that a normalized path leads to is right only for the root,
and where the path does not fit.
-/
theorem tmpfs_getpath_climbs_iff
    (found : tree.lookup path = some (.ok dirent)) :
    tree.Climbs path dirent ↔ path = [] ∨ maxPath ≤ path.length := by
  have atRoot : tree.lookup [] = some (.ok tree.root) := by
    rw [lookup, lookupFrom]
    rfl
  by_cases isEmpty : path = []
  · rw [isEmpty, atRoot] at found
    cases found
    have isEmptyPath : tree.getpath tree.root = .ok [] := by
      rw [getpath, getpathFrom, if_pos rfl]
    rw [isEmpty]
    refine iff_of_true ⟨fun _ => isEmptyPath, fun long => ?_, ?_⟩ (.inl rfl)
    · exact absurd long (by decide)
    · intro other isOther
      cases isEmptyPath.symm.trans isOther
      exact atRoot
  · have notRoot := (lookupFrom_of_ok found).resolve_left
      fun both => isEmpty both.1
    have refused : tree.getpath dirent = .error .nametoolong :=
      getpathFrom_of_ne notRoot _ _
    rw [or_iff_right isEmpty]
    constructor
    · intro climbs
      by_contra short
      cases refused.symm.trans (climbs.written (Nat.lt_of_not_le short))
    · intro long
      refine ⟨fun short => absurd long (Nat.not_le.mpr short),
        fun _ => refused, fun other isOther => ?_⟩
      cases refused.symm.trans isOther

/-- A directory with one file in it. -/
def oneFile (name : PathString) : TmpDirents Bool where
  root := false
  name dirent := if dirent then name else []
  isDir dirent := !dirent
  parent dirent := if dirent then some false else none
  children dirent := if dirent then [] else [true]
  rootless := rfl
  climbs := by decide

/-- The root is at the empty path. -/
theorem root_climbs : (oneFile [97]).Climbs [] false :=
  (tmpfs_getpath_climbs_iff (by rw [lookup, lookupFrom]; rfl)).mpr (.inl rfl)

/-- The path `/a` is not found for the file that it leads to. -/
theorem one_level_path_is_refused :
    ¬∀ (tree : TmpDirents Bool) path dirent,
      pathIsNormalized path = true →
      tree.lookup path = some (.ok dirent) → tree.Climbs path dirent := by
  intro climbs
  have found : (oneFile [97]).lookup [slash, 97] = some (.ok true) := by
    have isLast : (oneFile [97]).lookupFrom true [] = some (.ok true) := by
      rw [lookupFrom]
      rfl
    rw [lookup, lookupFrom]
    exact isLast
  have written := (climbs (oneFile [97]) _ true rfl found).written (by decide)
  cases (getpathFrom_of_ne (by decide) _ _).symm.trans written

end TmpDirents

end GuestKernel
