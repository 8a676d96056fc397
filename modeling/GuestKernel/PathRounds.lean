import GuestKernel.Machine
import GuestKernel.PathNormalize

namespace GuestKernel
open List

/-!
# Rounds of the path walk

What one round of the loop does from a state whose counter is right: the
component fits and is copied, or it does not fit and the counter ends at
zero, or the buffer was so full that the counter goes past zero.

The rounds of `__path_normalize`, the restarts included, are then a machine
whose last state decides the result.
-/

variable {path : PathString} {walk : PathWalk} {user : Credentials}

theorem noDoubleSlash_iff :
    noDoubleSlash path = true ↔
      path.IsChain fun byte next => byte ≠ slash ∨ next ≠ slash := by
  induction path with
  | nil =>
    simp [noDoubleSlash]
  | cons byte rest inductionHypothesis =>
    rw [noDoubleSlash, Bool.and_eq_true, inductionHypothesis,
      isChain_cons]
    refine and_congr_left fun _ => ?_
    cases rest with
    | nil =>
      simp
    | cons next later =>
      simp

/-- Two strings join to one without double slashes. -/
theorem noDoubleSlash_append
    {later : PathString} :
    noDoubleSlash (path ++ later) = true ↔
      noDoubleSlash path = true ∧ noDoubleSlash later = true ∧
        (path.getLast? = some slash → later.head? ≠ some slash) := by
  simp only [noDoubleSlash_iff, isChain_append, Option.mem_def]
  refine and_congr_right fun _ => and_congr_right fun _ => ?_
  constructor
  · intro joined ends begins
    exact (joined _ ends _ begins).elim (absurd rfl) (absurd rfl)
  · intro joined byte ends next begins
    by_cases isSlash : byte = slash
    · subst isSlash
      exact .inr fun same => joined ends (same ▸ begins)
    · exact .inl isSlash

theorem noDoubleSlash_of_not_mem
    (slashFree : slash ∉ path) :
    noDoubleSlash path = true := by
  induction path with
  | nil =>
    rfl
  | cons byte rest inductionHypothesis =>
    rw [mem_cons, not_or] at slashFree
    rw [noDoubleSlash, inductionHypothesis slashFree.2]
    simp [Ne.symm slashFree.1]

theorem pathIsNormalized_append
    {out name : PathString}
    (slashFree : slash ∉ name) :
    pathIsNormalized (out ++ slash :: name) = true ↔
      pathIsNormalized out = true ∧ out.getLast? ≠ some slash := by
  have single : noDoubleSlash (slash :: name) = true := by
    rw [noDoubleSlash, noDoubleSlash_of_not_mem slashFree]
    have first : name.head? ≠ some slash := fun begins =>
      slashFree (List.mem_of_head? begins)
    simp [first]
  simp only [pathIsNormalized, Bool.and_eq_true, decide_eq_true_eq,
    noDoubleSlash_append, single]
  cases out with
  | nil =>
    simp [noDoubleSlash]
  | cons byte rest =>
    simp [and_assoc]

theorem pathIsNormalized_take
    {kept removed : PathString}
    (normalized : pathIsNormalized (kept ++ slash :: removed) = true) :
    pathIsNormalized kept = true := by
  simp only [pathIsNormalized, Bool.and_eq_true, decide_eq_true_eq,
    noDoubleSlash_append] at normalized ⊢
  refine ⟨?_, normalized.2.1⟩
  cases kept with
  | nil =>
    exact .inl rfl
  | cons byte rest =>
    simpa using normalized.1

theorem deleteLast_of_normalized
    {out : PathString}
    (normalized : pathIsNormalized out = true)
    (nonempty : out ≠ []) :
    ∃ kept removed,
      slash ∉ removed ∧ out = kept ++ slash :: removed ∧
        deleteLast out = some kept := by
  have begins : out.head? = some slash := by
    simp only [pathIsNormalized, Bool.and_eq_true,
      decide_eq_true_eq] at normalized
    exact normalized.1.resolve_left nonempty
  set front := out.rdropWhile (· ≠ slash) with isFront
  have frontNonempty : front ≠ [] := by
    intro empty
    have allNot := rdropWhile_eq_nil_iff.mp (isFront ▸ empty)
    simpa using allNot slash (List.mem_of_head? begins)
  have ends : front.getLast frontNonempty = slash := by
    simpa [isFront] using
      rdropWhile_last_not (· ≠ slash) out frontNonempty
  refine ⟨front.dropLast, out.rtakeWhile (· ≠ slash), ?_, ?_, ?_⟩
  · intro member
    simpa using mem_rtakeWhile_imp member
  · have joined := dropLast_append_getLast frontNonempty
    rw [ends] at joined
    calc
      out = front ++ out.rtakeWhile (· ≠ slash) :=
        rdropWhile_append_rtakeWhile.symm
      _ = front.dropLast ++ [slash] ++ out.rtakeWhile (· ≠ slash) := by
        rw [joined]
      _ = _ := by simp
  · unfold deleteLast
    rw [← isFront]
    obtain ⟨byte, rest, isCons⟩ := exists_cons_of_ne_nil frontNonempty
    simp only [isCons]

namespace PathWalk

/-- The component the rest of the path starts with. -/
def name (walk : PathWalk) : PathString :=
  walk.p.takeWhile (· ≠ slash)

/-- What follows the component and its slashes. -/
def rest (walk : PathWalk) : PathString :=
  (walk.p.dropWhile (· ≠ slash)).dropWhile (· = slash)

/-- The round copies a component: it is neither `.` nor `..`. -/
def Copies (walk : PathWalk) : Prop :=
  walk.p ≠ [] ∧ walk.name ≠ [dot] ∧ walk.name ≠ [dot, dot]

/-- The walk with the component and its slashes moved to the output. -/
def copied (walk : PathWalk) : PathWalk :=
  { prev :=
      if (walk.p.dropWhile (· ≠ slash)).head? = some slash then some slash
      else walk.name.getLast?.or walk.prev
    p := walk.rest
    out := walk.out ++ slash :: walk.name
    n := walk.n - 1 - walk.name.length }

theorem slash_not_mem_name (walk : PathWalk) : slash ∉ walk.name := by
  intro member
  simpa using mem_takeWhile_imp member

theorem rest_head (walk : PathWalk) : walk.rest.head? ≠ some slash := by
  intro begins
  have stops := List.head?_dropWhile_not (· = slash)
    (walk.p.dropWhile (· ≠ slash))
  rw [show (List.dropWhile _ _).head? = some slash from begins] at stops
  simp at stops

end PathWalk

/-- The tests for `.` and `..` compare the component. -/
theorem startsWith_iff
    {component : PathString}
    (slashFree : slash ∉ component) :
    startsWith component path = true ↔
      path.takeWhile (· ≠ slash) = component := by
  simp only [startsWith, Bool.and_eq_true, isPrefixOf_iff_prefix,
    decide_eq_true_eq]
  constructor
  · rintro ⟨⟨later, rfl⟩, ends⟩
    rw [drop_left] at ends
    rw [takeWhile_append_of_pos fun byte member => by
      simpa using fun same : byte = slash => slashFree (same ▸ member)]
    cases later with
    | nil =>
      simp
    | cons byte rest =>
      have isSlash : byte = slash := by
        simpa using ends
      simp [isSlash]
  · intro taken
    have split := path.takeWhile_append_dropWhile (p := (· ≠ slash))
    rw [taken] at split
    refine ⟨⟨_, split⟩, ?_⟩
    have stops := List.head?_dropWhile_not (· ≠ slash) path
    rw [← split, drop_left]
    cases begins : (path.dropWhile (· ≠ slash)).head? with
    | none =>
      exact .inl rfl
    | some byte =>
      rw [begins] at stops
      exact .inr (by simpa using stops)

/-- A component with room for it is copied whole. -/
theorem copyComponent_fits
    (fits :
      ((path.takeWhile (· ≠ slash)).length : Int) < max walk.n 1) :
    copyComponent walk path =
      { prev := (path.takeWhile (· ≠ slash)).getLast?.or walk.prev
        p := path.dropWhile (· ≠ slash)
        out := walk.out ++ path.takeWhile (· ≠ slash)
        n := walk.n - (path.takeWhile (· ≠ slash)).length } := by
  induction path generalizing walk with
  | nil =>
    simp [copyComponent]
  | cons byte rest inductionHypothesis =>
    by_cases isSlash : byte = slash
    · simp [copyComponent, isSlash]
    · rw [takeWhile_cons_of_pos (by simpa using isSlash)] at fits ⊢
      rw [length_cons] at fits
      have more : 0 < walk.n - 1 := by
        omega
      rw [copyComponent, if_neg isSlash, if_pos more,
        inductionHypothesis (by simp only; omega),
        dropWhile_cons_of_pos (by simpa using isSlash)]
      congr 1
      · rw [List.getLast?_cons]
        cases (rest.takeWhile (· ≠ slash)).getLast? <;> rfl
      · simp
      · rw [length_cons]
        show walk.n - 1 - _ = _
        omega

/-- A component without room for it leaves the counter at zero. -/
theorem copyComponent_full
    (some : 1 ≤ walk.n)
    (full : walk.n ≤ (path.takeWhile (· ≠ slash)).length) :
    (copyComponent walk path).n = 0 := by
  induction path generalizing walk with
  | nil =>
    simp at full
    omega
  | cons byte rest inductionHypothesis =>
    by_cases isSlash : byte = slash
    · simp [isSlash] at full
      omega
    · rw [takeWhile_cons_of_pos (by simpa using isSlash),
        length_cons] at full
      rw [copyComponent, if_neg isSlash]
      split
      · exact inductionHypothesis (by simp only; omega)
          (by simp only; omega)
      · simp only
        omega

theorem copyComponent_stuck
    (nonempty : path ≠ [])
    (atName : path.head? ≠ some slash)
    (stuck : walk.n ≤ 0) :
    copyComponent walk path = { walk with p := path, n := walk.n - 1 } := by
  cases path with
  | nil =>
    exact absurd rfl nonempty
  | cons byte rest =>
    have notSlash : byte ≠ slash := by
      simpa using atName
    rw [copyComponent, if_neg notSlash, if_neg (by omega)]

/--
The counter is what the buffer has left, the output is normalized, and the
rest of the path starts with a component.
-/
structure PathWalk.Counted (walk : PathWalk) : Prop where
  count : walk.n = (maxPath : Int) - 1 - walk.out.length
  room : walk.out.length < maxPath
  normalized : pathIsNormalized walk.out = true
  atName : walk.p.head? ≠ some slash

namespace PathWalk

theorem eatSlashes_head (walk : PathWalk) :
    walk.eatSlashes.p.head? ≠ some slash := by
  intro begins
  have stops := List.head?_dropWhile_not (· = slash) walk.p
  rw [show (List.dropWhile _ walk.p).head? = some slash from begins] at stops
  simp at stops

theorem Counted.start
    {base : Option PathString}
    {path : PathString}
    (normalized : pathIsNormalized (base.getD []) = true)
    (short : (base.getD []).length < maxPath) :
    (PathWalk.start base path).Counted where
  count := rfl
  room := by
    unfold PathWalk.start
    cases base with
    | none =>
      exact Nat.zero_lt_succ _
    | some atPath =>
      by_cases isRoot : atPath = [slash]
      · simp [eatSlashes, isRoot]
      · simpa [eatSlashes, isRoot] using short
  normalized := by
    unfold PathWalk.start
    cases base with
    | none =>
      rfl
    | some atPath =>
      by_cases isRoot : atPath = [slash]
      · simp [eatSlashes, isRoot, pathIsNormalized, noDoubleSlash]
      · simpa [eatSlashes, isRoot] using normalized
  atName := eatSlashes_head _

variable {walk : PathWalk} {user : Credentials} {mounts : Mounts}
  {flags levels : Nat}

theorem name_ne_nil
    (atName : walk.p.head? ≠ some slash)
    (more : walk.p ≠ []) :
    walk.name ≠ [] := by
  obtain ⟨byte, rest, isCons⟩ := exists_cons_of_ne_nil more
  have notSlash : byte ≠ slash := by
    simpa [isCons] using atName
  rw [name, isCons, takeWhile_cons_of_pos (by simpa using notSlash)]
  exact cons_ne_nil _ _

theorem drop_name (walk : PathWalk) :
    walk.p.drop walk.name.length = walk.p.dropWhile (· ≠ slash) := by
  have split := walk.p.takeWhile_append_dropWhile (p := (· ≠ slash))
  exact (congrArg (List.drop walk.name.length) split.symm).trans
    drop_left

theorem Counted.round_end
    (counted : walk.Counted)
    (ends : walk.p = []) :
    walk.round user mounts flags levels = .stop (some (.ok walk.out)) := by
  rw [round, if_pos ends, if_pos ⟨counted.room, counted.normalized⟩]

/-- A `.` is skipped. -/
theorem Counted.round_dot
    (counted : walk.Counted)
    (isDot : walk.name = [dot])
    (user : Credentials)
    (mounts : Mounts)
    (flags levels : Nat) :
    ∃ next,
      walk.round user mounts flags levels = .next next ∧ next.Counted ∧
        next.out = walk.out ∧ next.p = walk.rest := by
  have more : walk.p ≠ [] := by
    intro ends
    simp [name, ends] at isDot
  have starts : startsWith [dot] walk.p = true :=
    (startsWith_iff (by decide)).mpr isDot
  have dropped := walk.drop_name
  rw [isDot] at dropped
  refine ⟨({ walk with
      prev := some dot
      p := walk.p.drop 1 } : PathWalk).eatSlashes, ?_,
    ⟨counted.count, counted.room, counted.normalized,
      eatSlashes_head _⟩, rfl,
    congrArg (List.dropWhile (· = slash)) dropped⟩
  rw [round, if_neg more, if_pos starts]

/-- A `..` deletes the last component of the output, if there is one. -/
theorem Counted.round_dotdot
    (counted : walk.Counted)
    (isDotdot : walk.name = [dot, dot])
    (user : Credentials)
    (mounts : Mounts)
    (flags levels : Nat) :
    ∃ next,
      walk.round user mounts flags levels = .next next ∧ next.Counted ∧
        next.p = walk.rest ∧
        (walk.out = [] ∧ next.out = [] ∨
          ∃ removed,
            slash ∉ removed ∧ walk.out = next.out ++ slash :: removed) := by
  have more : walk.p ≠ [] := by
    intro ends
    simp [name, ends] at isDotdot
  have notDot : ¬ startsWith [dot] walk.p = true := by
    rw [startsWith_iff (by decide)]
    intro isDot
    exact absurd (isDotdot.symm.trans isDot) (by decide)
  have starts : startsWith [dot, dot] walk.p = true :=
    (startsWith_iff (by decide)).mpr isDotdot
  have dropped := walk.drop_name
  rw [isDotdot] at dropped
  set after : PathWalk := ({ walk with
    prev := some dot
    p := walk.p.drop 2 } : PathWalk).eatSlashes with isAfter
  have afterRest : after.p = walk.rest :=
    congrArg (List.dropWhile (· = slash)) dropped
  by_cases atRoot : walk.out = []
  · refine ⟨after, ?_,
      ⟨counted.count, counted.room, counted.normalized,
        eatSlashes_head _⟩, afterRest, .inl ⟨atRoot, atRoot⟩⟩
    rw [round, if_neg more, if_neg notDot, if_pos starts]
    simp only [atRoot, ↓reduceIte, isAfter]
  · obtain ⟨kept, removed, slashFree, isOut, deleted⟩ :=
      deleteLast_of_normalized counted.normalized atRoot
    have shorter : kept.length ≤ walk.out.length := by
      simp [isOut]
    refine ⟨{ after with
        out := kept
        n := walk.n + (walk.out.length - kept.length : Nat) }, ?_,
      ⟨?_, ?_, ?_, eatSlashes_head _⟩, afterRest,
      .inr ⟨removed, slashFree, isOut⟩⟩
    · rw [round, if_neg more, if_neg notDot, if_pos starts]
      simp only [atRoot, ↓reduceIte, deleted, isAfter]
    · have count := counted.count
      simp only
      omega
    · exact Nat.lt_of_le_of_lt shorter counted.room
    · exact pathIsNormalized_take (isOut ▸ counted.normalized)

theorem Copies.round
    (copies : walk.Copies) :
    walk.round user mounts flags levels =
      walk.component user mounts flags levels := by
  have notDot : ¬ startsWith [dot] walk.p = true :=
    mt (startsWith_iff (by decide)).mp copies.2.1
  have notDotdot : ¬ startsWith [dot, dot] walk.p = true :=
    mt (startsWith_iff (by decide)).mp copies.2.2
  rw [PathWalk.round, if_neg copies.1, if_neg notDot, if_neg notDotdot]

/-- A component that fits is copied, and perhaps resolved. -/
theorem Counted.round_fits
    (counted : walk.Counted)
    (copies : walk.Copies)
    (fits : walk.out.length + walk.name.length + 2 < maxPath) :
    walk.round user mounts flags levels =
      if followsLinks flags ∨ walk.rest ≠ [] then
        walk.copied.resolve user mounts levels (walk.out.length + 1)
      else
        .next walk.copied := by
  have count := counted.count
  have isCopied :
      (copyComponent { walk with
        out := walk.out ++ [slash]
        n := walk.n - 1 } walk.p).eatSlashes = walk.copied := by
    rw [copyComponent_fits (by
      show (walk.name.length : Int) < max (walk.n - 1) 1
      simp only [maxPath] at fits count
      omega)]
    simp [eatSlashes, copied, name, rest]
  have moves : walk.copied.n ≠ 0 := by
    simp only [copied, maxPath] at fits count ⊢
    omega
  rw [copies.round, component, if_neg (Nat.not_le_of_lt counted.room)]
  simp only [isCopied]
  rw [if_neg moves]
  rfl

/-- A component that does not fit is too long. -/
theorem Counted.round_full
    (counted : walk.Counted)
    (copies : walk.Copies)
    (space : walk.out.length + 2 < maxPath)
    (full : maxPath ≤ walk.out.length + walk.name.length + 2) :
    walk.round user mounts flags levels =
      .stop (some (.error .nametoolong)) := by
  have count := counted.count
  have zero :
      (copyComponent { walk with
        out := walk.out ++ [slash]
        n := walk.n - 1 } walk.p).eatSlashes.n = 0 := by
    refine copyComponent_full ?_ ?_
    · simp only [maxPath] at space count ⊢
      omega
    · show walk.n - 1 ≤ walk.name.length
      simp only [maxPath] at full count
      omega
  rw [copies.round, component, if_neg (Nat.not_le_of_lt counted.room)]
  simp only [zero, ↓reduceIte]

/-- With the buffer full, only a slash is put out. -/
theorem component_stuck
    (room : walk.out.length < maxPath)
    (more : walk.p ≠ [])
    (atName : walk.p.head? ≠ some slash)
    (stuck : walk.n ≤ 1) :
    walk.component user mounts flags levels =
      ({ walk with
        out := walk.out ++ [slash]
        n := walk.n - 2 } : PathWalk).resolve user mounts levels
          (walk.out.length + 1) := by
  have isCopied :
      (copyComponent { walk with
        out := walk.out ++ [slash]
        n := walk.n - 1 } walk.p).eatSlashes =
        { walk with
          out := walk.out ++ [slash]
          n := walk.n - 2 } := by
    obtain ⟨byte, rest, isCons⟩ := exists_cons_of_ne_nil more
    have notSlash : byte ≠ slash := by
      simpa [isCons] using atName
    rw [copyComponent_stuck more atName (by simp only; omega)]
    simp [eatSlashes, isCons, notSlash, Int.sub_sub]
  have moves : walk.n - 2 ≠ 0 := by
    omega
  rw [component, if_neg (Nat.not_le_of_lt room)]
  simp only [isCopied, moves, ↓reduceIte, more, ne_eq, not_false_eq_true,
    or_true]

end PathWalk

/-- The path is a symlink: `readlink` with this size reads this text. -/
def Mounts.Links
    (mounts : Mounts)
    (path : PathString)
    (size : Nat)
    (text : PathString) : Prop :=
  ∃ mount trimmed,
    mounts.findAndTrim path = some (mount, trimmed) ∧
      mount.readlinkAt trimmed size = .ok text

/-- Every normalized path is on a mounted file system. -/
theorem Mounts.findAndTrim_isSome
    (mounts : Mounts)
    (normalized : pathIsNormalized path = true) :
    ∃ mount trimmed, mounts.findAndTrim path = some (mount, trimmed) := by
  have found :
      (mounts.list.find? fun mount => mount.contains path).isSome = true := by
    rw [List.find?_isSome]
    obtain ⟨mount, member, isRoot⟩ := mounts.root
    refine ⟨mount, member, ?_⟩
    simp only [pathIsNormalized, Bool.and_eq_true,
      decide_eq_true_eq] at normalized
    simpa [Mount.contains, isRoot] using normalized.1
  obtain ⟨mount, isFound⟩ := Option.isSome_iff_exists.mp found
  have contained := List.find?_some isFound
  simp only [Mount.contains, Bool.and_eq_true, decide_eq_true_eq]
    at contained
  have trimmed :
      pathIsNormalized (path.drop mount.point.length) = true := by
    simp only [pathIsNormalized, Bool.and_eq_true,
      decide_eq_true_eq] at normalized ⊢
    refine ⟨contained.2.imp List.head?_eq_none_iff.mp id, ?_⟩
    have split := take_append_drop mount.point.length path
    exact (noDoubleSlash_append.mp (split.symm ▸ normalized.2)).2.1
  refine ⟨mount, path.drop mount.point.length, ?_⟩
  simp [findAndTrim, find, normalized, isFound, trimmed]

theorem accessCheck_error
    {stat : Stat}
    {check : Nat}
    {code : Errno}
    (failed : accessCheck user stat check = .error code) :
    code = .acces := by
  grind [accessCheck]

theorem checkDirectory_error
    {mount : Mount}
    {code : Errno}
    (failed : checkDirectory user mount path = .error code) :
    code = .notdir ∨ code = .acces := by
  unfold checkDirectory at failed
  split at failed
  · cases failed
  · split at failed
    · exact .inr (accessCheck_error failed)
    · exact .inl (Except.error.inj failed).symm

/--
Everything that resolving a component can do: a symlink expands if it fits,
and anything else goes on or fails the directory check.
-/
theorem PathWalk.resolve_spec
    {mounts : Mounts}
    {levels c : Nat}
    (room : walk.out.length < maxPath)
    (normalized : pathIsNormalized walk.out = true)
    (moved : walk.prev ≠ none) :
    (∃ text,
      mounts.Links walk.out (maxPath - c) text ∧
        walk.resolve user mounts levels c =
          if 5 ≤ levels then
            .stop (some (.error .loop))
          else if c + text.length < maxPath ∧
              (expandLink (walk.out.take c) text walk.p).length < maxPath then
            .expand (expandLink (walk.out.take c) text walk.p)
          else
            .stop none) ∨
      (∀ text, ¬ mounts.Links walk.out (maxPath - c) text) ∧
        (walk.resolve user mounts levels c = .next walk ∨
          ∃ code,
            (code = .notdir ∨ code = .acces) ∧
              walk.resolve user mounts levels c =
                .stop (some (.error code))) := by
  obtain ⟨mount, trimmed, found⟩ := mounts.findAndTrim_isSome normalized
  obtain ⟨prev, isPrev⟩ := Option.ne_none_iff_exists'.mp moved
  unfold PathWalk.resolve
  rw [if_neg (Nat.not_le_of_lt room)]
  simp only [found]
  cases reads : mount.readlinkAt trimmed (maxPath - c) with
  | ok text =>
    refine .inl ⟨text, ⟨mount, trimmed, found, reads⟩, ?_⟩
    simp only
    split
    · rfl
    · split
      · rename_i tooLong
        rw [if_neg fun fits => Nat.not_lt_of_le tooLong fits.1]
      · rename_i short
        split
        · rename_i tooLong
          rw [if_neg fun fits => Nat.not_lt_of_le tooLong fits.2]
        · rename_i fits
          rw [if_pos ⟨Nat.lt_of_not_le short, Nat.lt_of_not_le fits⟩]
  | error failure =>
    refine .inr ⟨?_, ?_⟩
    · rintro text ⟨otherMount, otherPath, alsoFound, reads'⟩
      cases found.symm.trans alsoFound
      cases reads.symm.trans reads'
    · simp only [isPrev]
      split
      · cases checked : checkDirectory user mount trimmed with
        | ok _ =>
          exact .inl rfl
        | error code =>
          exact .inr ⟨code, checkDirectory_error checked, rfl⟩
      · exact .inl rfl

/-- A round of the loop at a level of restarts. -/
structure WalkState where
  levels : Nat
  walk : PathWalk
  deriving Repr, DecidableEq

/-- The rounds of `__path_normalize`, restarts included. -/
def walkMachine
    (user : Credentials)
    (mounts : Mounts)
    (flags : Nat)
    (base : Option PathString)
    (path : PathString) : Machine WalkState Round where
  initial state := path ≠ [] ∧ state = ⟨0, PathWalk.start base path⟩
  step state round next :=
    state.walk.round user mounts flags state.levels = round ∧
      match round with
      | .next walk => next = ⟨state.levels, walk⟩
      | .expand path =>
        path ≠ [] ∧ next = ⟨state.levels + 1, PathWalk.start none path⟩
      | .stop _ => False

/-- The result of the walk from a state on. -/
def WalkState.run
    (user : Credentials)
    (mounts : Mounts)
    (flags : Nat)
    (state : WalkState) : Option (Except Errno PathString) :=
  state.walk.run user mounts flags state.levels

section

variable
  {user : Credentials}
  {mounts : Mounts}
  {flags : Nat}
  {base : Option PathString}
  {path : PathString}

variable {state : WalkState}

theorem WalkState.run_of_stop
    {result : Option (Except Errno PathString)}
    (stops :
      state.walk.round user mounts flags state.levels = .stop result) :
    state.run user mounts flags = result := by
  unfold WalkState.run
  rw [PathWalk.run]
  split
  · rename_i taken
    exact Round.stop.inj (taken.symm.trans stops)
  · rename_i taken
    cases taken.symm.trans stops
  · rename_i taken
    cases taken.symm.trans stops

/-- A round that goes on leaves the result to the next one. -/
theorem WalkState.run_of_next
    {next : PathWalk}
    (goesOn :
      state.walk.round user mounts flags state.levels = .next next) :
    state.run user mounts flags =
      WalkState.run user mounts flags ⟨state.levels, next⟩ := by
  unfold WalkState.run
  rw [PathWalk.run]
  split
  · rename_i taken
    cases taken.symm.trans goesOn
  · rename_i taken
    rw [Round.next.inj (taken.symm.trans goesOn)]
  · rename_i taken
    cases taken.symm.trans goesOn

/-- A round that expands a symlink leaves the result to the restart. -/
theorem WalkState.run_of_expand
    {expanded : PathString}
    (expands :
      state.walk.round user mounts flags state.levels = .expand expanded)
    (nonempty : expanded ≠ []) :
    state.run user mounts flags =
      WalkState.run user mounts flags
        ⟨state.levels + 1, PathWalk.start none expanded⟩ := by
  unfold WalkState.run
  rw [PathWalk.run]
  split
  · rename_i taken
    cases taken.symm.trans expands
  · rename_i taken
    cases taken.symm.trans expands
  · rename_i taken
    rw [Round.expand.inj (taken.symm.trans expands), if_neg nonempty]

theorem WalkState.run_of_step
    {next : WalkState}
    {round : Round}
    (taken :
      (walkMachine user mounts flags base path).step state round next) :
    state.run user mounts flags = next.run user mounts flags := by
  obtain ⟨rounds, follows⟩ := taken
  cases round with
  | next walk =>
    rw [run_of_next rounds, show next = _ from follows]
  | expand expanded =>
    rw [run_of_expand rounds follows.1, show next = _ from follows.2]
  | stop result =>
    exact follows.elim

section

variable
  (reachable : (walkMachine user mounts flags base path).Reachable state)
include reachable

theorem WalkState.run_of_reachable :
    state.run user mounts flags =
      (PathWalk.start base path).run user mounts flags 0 := by
  refine Machine.Reachable.invariant
    (motive := fun state => state.run user mounts flags =
      (PathWalk.start base path).run user mounts flags 0)
    ?_ ?_ reachable
  · rintro state ⟨_, rfl⟩
    rfl
  · intro state round next same taken
    exact (run_of_step taken).symm.trans same

theorem WalkState.path_ne_nil :
    path ≠ [] := by
  induction reachable with
  | initial isInitial =>
    exact isInitial.1
  | step _ _ inductionHypothesis =>
    exact inductionHypothesis

/-- The walk ends: some round that is reached stops with the result. -/
theorem WalkState.exists_last :
    ∃ last,
      (walkMachine user mounts flags base path).Reachable last ∧
        (last.walk.round user mounts flags last.levels = .expand [] ∨
          last.walk.round user mounts flags last.levels =
            .stop (state.run user mounts flags)) := by
  obtain ⟨levels, walk⟩ := state
  unfold WalkState.run
  simp only
  fun_induction PathWalk.run user mounts flags levels walk with
  | case1 levels walk result taken =>
    exact ⟨_, reachable, .inr taken⟩
  | case2 levels walk next taken inductionHypothesis =>
    exact inductionHypothesis (reachable.step (a := .next next) ⟨taken, rfl⟩)
  | case3 levels walk taken =>
    exact ⟨_, reachable, .inl taken⟩
  | case4 levels walk expanded taken nonempty inductionHypothesis =>
    exact inductionHypothesis
      (reachable.step (a := .expand expanded) ⟨taken, nonempty, rfl⟩)

end

end

end GuestKernel
