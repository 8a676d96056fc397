import GuestKernel.PathSafety
import GuestKernel.SymlinkTree

namespace GuestKernel
open List
open WalkState

/-!
# Path resolution

A successful walk is the reference resolution of the names of its path.  The
output of the walk writes a place of the tree: one slash and one name for
every step down.  A restart on an expanded path walks down to the place it had
reached, through the directories it has resolved, and then takes the moves of
the link.
-/

/-- The names of a path, from left to right. -/
def pathNames (path : PathString) : List PathString :=
  (path.splitOn slash).filter (· ≠ [])

/-- The move a name stands for. -/
def moveOf (name : PathString) : Move PathString :=
  if name = [dot] then .here
  else if name = [dot, dot] then .up
  else .into name

/-- The moves of a path. -/
def pathMoves (path : PathString) : List (Move PathString) :=
  (pathNames path).map moveOf

/-- The normalized path of a place. -/
def renderPath (place : List PathString) : PathString :=
  place.flatMap (slash :: ·)

/-- A name that stands for a step down: no empty name, `.` or `..`. -/
structure ProperName (name : PathString) : Prop where
  nonempty : name ≠ []
  slashFree : slash ∉ name
  notDot : name ≠ [dot]
  notDotdot : name ≠ [dot, dot]

theorem pathNames_append_slash (path later : PathString) :
    pathNames (path ++ slash :: later) = pathNames path ++ pathNames later := by
  rw [pathNames, splitOn_append_cons_self, filter_append]
  rfl

@[simp]
theorem pathNames_nil : pathNames [] = [] := by
  simp [pathNames]

theorem pathNames_slash (path : PathString) :
    pathNames (slash :: path) = pathNames path := by
  simpa using pathNames_append_slash [] path

theorem pathNames_dropWhile (path : PathString) :
    pathNames (path.dropWhile (· = slash)) = pathNames path := by
  induction path with
  | nil =>
    rfl
  | cons byte rest inductionHypothesis =>
    by_cases isSlash : byte = slash
    · rw [dropWhile_cons_of_pos (by simpa using isSlash),
        inductionHypothesis, isSlash, pathNames_slash]
    · rw [dropWhile_cons_of_neg (by simpa using isSlash)]

theorem pathNames_singleton
    {name : PathString}
    (slashFree : slash ∉ name)
    (nonempty : name ≠ []) :
    pathNames name = [name] := by
  simp [pathNames, splitOn_eq_singleton slashFree, nonempty]

/-- The names of a path that starts with a component. -/
theorem PathWalk.pathNames_eq
    {walk : PathWalk}
    (atName : walk.p.head? ≠ some slash)
    (more : walk.p ≠ []) :
    pathNames walk.p = walk.name :: pathNames walk.rest := by
  have split : walk.name ++ walk.p.dropWhile (· ≠ slash) = walk.p :=
    takeWhile_append_dropWhile
  have one := pathNames_singleton walk.slash_not_mem_name
    (walk.name_ne_nil atName more)
  rw [PathWalk.rest, pathNames_dropWhile]
  cases isTail : walk.p.dropWhile (· ≠ slash) with
  | nil =>
    rw [isTail, append_nil] at split
    rw [← split, one, pathNames_nil]
  | cons byte later =>
    have stops := List.head?_dropWhile_not (· ≠ slash) walk.p
    rw [isTail] at stops
    have isSlash : byte = slash := by
      simpa using stops
    rw [isTail, isSlash] at split
    rw [← split, pathNames_append_slash, one, isSlash, pathNames_slash]
    rfl

theorem renderPath_concat (place : List PathString) (name : PathString) :
    renderPath (place ++ [name]) = renderPath place ++ slash :: name := by
  simp [renderPath]

variable {place : List PathString} {kept removed : PathString}

/-- The names of a place are read back from its path, and from what follows. -/
theorem pathNames_renderPath_append
    (proper : ∀ name ∈ place, ProperName name)
    (later : PathString) :
    pathNames (renderPath place ++ slash :: later) =
      place ++ pathNames later := by
  induction place with
  | nil =>
    exact pathNames_slash later
  | cons name names inductionHypothesis =>
    have nameProper := proper name mem_cons_self
    have restProper : ∀ other ∈ names, ProperName other :=
      fun other member => proper other (mem_cons_of_mem _ member)
    rw [show renderPath (name :: names) =
      slash :: (name ++ renderPath names) by simp [renderPath]]
    rw [cons_append, pathNames_slash, append_assoc]
    cases names with
    | nil =>
      rw [show renderPath [] = [] from rfl, nil_append,
        pathNames_append_slash,
        pathNames_singleton nameProper.slashFree nameProper.nonempty]
    | cons next others =>
      have joined := inductionHypothesis restProper
      rw [show renderPath (next :: others) =
        slash :: (next ++ renderPath others) by simp [renderPath]]
        at joined ⊢
      rw [cons_append, pathNames_slash] at joined
      rw [cons_append, pathNames_append_slash, joined,
        pathNames_singleton nameProper.slashFree nameProper.nonempty]
      rfl

theorem pathNames_renderPath
    (proper : ∀ name ∈ place, ProperName name) :
    pathNames (renderPath place) = place := by
  have joined := pathNames_renderPath_append proper []
  rwa [pathNames_append_slash, pathNames_nil, append_nil,
    append_nil] at joined

theorem eq_of_last_slash
    {front last : PathString}
    (lastFree : slash ∉ last)
    (removedFree : slash ∉ removed)
    (same : front ++ slash :: last = kept ++ slash :: removed) :
    front = kept := by
  rcases append_eq_append_iff.mp same with
    ⟨middle, rfl, tails⟩ | ⟨middle, rfl, tails⟩
  · cases middle with
    | nil =>
      exact (append_nil _).symm
    | cons byte rest =>
      rw [cons_append, List.cons.injEq] at tails
      exact (lastFree (tails.2 ▸ by simp)).elim
  · cases middle with
    | nil =>
      exact append_nil _
    | cons byte rest =>
      rw [cons_append, List.cons.injEq] at tails
      exact (removedFree (tails.2 ▸ by simp)).elim

theorem renderPath_dropLast
    (proper : ∀ name ∈ place, ProperName name)
    (slashFree : slash ∉ removed)
    (isPath : renderPath place = kept ++ slash :: removed) :
    renderPath place.dropLast = kept := by
  rcases eq_nil_or_concat place with rfl | ⟨directory, name, rfl⟩
  · simp [renderPath] at isPath
  · rw [concat_eq_append] at *
    rw [renderPath_concat] at isPath
    rw [dropLast_concat]
    exact eq_of_last_slash (proper name (by simp)).slashFree slashFree isPath

/-- The tree whose symlinks have these targets. -/
def linkTree
    (tree : PathString → Option PathString) : SymlinkTree PathString :=
  fun place => (tree (renderPath place)).map fun target =>
    { absolute := target.head? = some slash
      moves := pathMoves target }

/--
The mounted file systems read this tree: `readlink` of a normalized path is
the target of the symlink, cut to the size of the buffer.
-/
def Mounts.ReadsTree
    (mounts : Mounts) (tree : PathString → Option PathString) : Prop :=
  ∀ path size text,
    pathIsNormalized path = true → 0 < size →
    (mounts.Links path size text ↔
      ∃ target, tree path = some target ∧ text = target.take size)

/-- The base of a walk is the path of a place without symlinks. -/
structure ResolvedBase
    (tree : PathString → Option PathString)
    (base : Option PathString)
    (place : List PathString) : Prop where
  proper : ∀ name ∈ place, ProperName name
  free : (linkTree tree).LinkFree place
  written :
    base = some (renderPath place) ∨
      place = [] ∧ (base = none ∨ base = some [slash])

section

variable
  {user : Credentials}
  {mounts : Mounts}
  {flags : Nat}
  {tree : PathString → Option PathString}

variable {place : List PathString} {state : WalkState} {path out : PathString}
  {walk : PathWalk} {base : Option PathString}

theorem Mounts.ReadsTree.plain
    {size : Nat}
    (reads : mounts.ReadsTree tree)
    (normalized : pathIsNormalized path = true)
    (positive : 0 < size)
    (notLink : ∀ text, ¬ mounts.Links path size text) :
    tree path = none := by
  rw [Option.eq_none_iff_forall_not_mem]
  intro target isTarget
  exact notLink _ ((reads path size _ normalized positive).mpr
    ⟨target, isTarget, rfl⟩)

theorem Mounts.ReadsTree.target
    {text : PathString}
    {size : Nat}
    (reads : mounts.ReadsTree tree)
    (normalized : pathIsNormalized path = true)
    (links : mounts.Links path size text)
    (short : text.length < size) :
    tree path = some text := by
  obtain ⟨target, isTarget, rfl⟩ :=
    (reads path size text normalized (Nat.zero_lt_of_lt short)).mp links
  rw [length_take] at short
  rw [take_of_length_le (by omega), isTarget]

theorem pathMoves_expandLink
    (proper : ∀ name ∈ place, ProperName name)
    (text rest : PathString) :
    pathMoves (expandLink (renderPath place ++ [slash]) text rest) =
      (if text.head? = some slash then [] else place.map .into) ++
        (pathMoves text ++ pathMoves rest) := by
  have placeMoves : place.map moveOf = place.map .into := by
    refine map_congr_left fun name member => ?_
    rw [moveOf, if_neg (proper name member).notDot,
      if_neg (proper name member).notDotdot]
  have start :
      ∀ later,
        pathMoves ((if text.head? = some slash then text
            else renderPath place ++ [slash] ++ text) ++ slash :: later) =
          (if text.head? = some slash then [] else place.map .into) ++
            (pathMoves text ++ pathMoves later) := by
    intro later
    rw [pathMoves, pathNames_append_slash]
    split
    · simp [pathMoves]
    · rw [append_assoc, singleton_append,
        pathNames_renderPath_append proper]
      simp [pathMoves, placeMoves]
  unfold expandLink
  simp only
  by_cases isLast : rest = []
  · rw [if_pos isLast, isLast]
    have joined := start []
    rwa [pathMoves, pathNames_append_slash, pathNames_nil,
      append_nil] at joined
  · rw [if_neg isLast]
    exact start rest

theorem PathWalk.pathMoves_eq
    (atName : walk.p.head? ≠ some slash)
    (more : walk.p ≠ []) :
    pathMoves walk.p = moveOf walk.name :: pathMoves walk.rest := by
  rw [pathMoves, pathNames_eq atName more]
  rfl

theorem PathWalk.Counted.properName
    (counted : walk.Counted)
    (copies : walk.Copies) :
    ProperName walk.name where
  nonempty := PathWalk.name_ne_nil counted.atName copies.1
  slashFree := walk.slash_not_mem_name
  notDot := copies.2.1
  notDotdot := copies.2.2

theorem RoundFits.of_success
    (counted : state.walk.Counted)
    (succeeds : state.run user mounts flags = some (.ok out)) :
    RoundFits mounts flags state := by
  by_contra unfit
  rcases run_of_unfit counted unfit user with
    leaves | ⟨_, code, _, failed⟩
  · cases leaves.symm.trans succeeds
  · cases failed.symm.trans succeeds

theorem PathWalk.pathMoves_rest_eq_nil_iff (walk : PathWalk) :
    pathMoves walk.rest = [] ↔ walk.rest = [] := by
  constructor
  · intro noMoves
    by_contra more
    have moves := @PathWalk.pathMoves_eq { walk with p := walk.rest }
      walk.rest_head more
    rw [show pathMoves walk.rest = _ from moves] at noMoves
    cases noMoves
  · intro isLast
    rw [isLast, pathMoves, pathNames_nil]
    rfl

/-- The walk has reached this place, and what is left starts from it. -/
structure PathWalk.At
    (walk : PathWalk)
    (tree : PathString → Option PathString)
    (place : List PathString) : Prop where
  written : walk.out = renderPath place
  proper : ∀ name ∈ place, ProperName name
  free : walk.p ≠ [] → (linkTree tree).LinkFree place

/-- A round that ends the walk successfully is at the end of its path. -/
theorem RoundFits.of_stop
    (fits : RoundFits mounts flags state)
    (counted : state.walk.Counted)
    (stops :
      state.walk.round user mounts flags state.levels =
        .stop (some (.ok out))) :
    state.walk.p = [] ∧ out = state.walk.out := by
  rcases fits.cases counted user with
    ⟨ends, stops'⟩ | ⟨_, next, goesOn, _⟩ | ⟨_, next, goesOn, _⟩ |
    ⟨_, _, _, _, goesOn⟩ | ⟨_, _, _, _, text, _, _, expands⟩ |
    ⟨code, stops', _⟩
  · cases stops.symm.trans stops'
    exact ⟨ends, rfl⟩
  · cases stops.symm.trans goesOn
  · cases stops.symm.trans goesOn
  · cases stops.symm.trans goesOn
  · cases stops.symm.trans expands
  · cases stops.symm.trans stops'

section

variable
  (fits : RoundFits mounts flags state)
  (reads : mounts.ReadsTree tree)
  (counted : state.walk.Counted)
  (reached : state.walk.At tree place)
include fits reads counted reached

/-- A round that goes on takes one move of the resolution. -/
theorem RoundFits.of_next
    {next : PathWalk}
    (goesOn :
      state.walk.round user mounts flags state.levels = .next next) :
    ∃ nextPlace,
      next.Counted ∧ next.At tree nextPlace ∧
        ∀ result,
          (linkTree tree).Resolves (followsLinks flags) nextPlace
            (pathMoves next.p) result →
          (linkTree tree).Resolves (followsLinks flags) place
            (pathMoves state.walk.p) result := by
  rcases fits.cases counted user with
    ⟨ends, stops⟩ | ⟨isDot, after, goesOn', afterCounted, sameOut, isRest⟩ |
    ⟨isDotdot, after, goesOn', afterCounted, isRest, deleted⟩ |
    ⟨copies, _, copiedCounted, plain, goesOn'⟩ |
    ⟨_, _, _, _, text, _, _, expands⟩ | ⟨code, stops, _⟩
  · cases goesOn.symm.trans stops
  · cases goesOn.symm.trans goesOn'
    have more : state.walk.p ≠ [] := by
      intro ends
      simp [PathWalk.name, ends] at isDot
    refine ⟨place, afterCounted, ⟨sameOut.trans reached.written,
      reached.proper, fun _ => reached.free more⟩, fun result later => ?_⟩
    rw [PathWalk.pathMoves_eq counted.atName more, isDot, ← isRest]
    exact .here later
  · cases goesOn.symm.trans goesOn'
    have more : state.walk.p ≠ [] := by
      intro ends
      simp [PathWalk.name, ends] at isDotdot
    have written : next.out = renderPath place.dropLast := by
      rcases deleted with ⟨atRoot, stays⟩ | ⟨removed, slashFree, isOut⟩
      · have isRoot : place = [] := by
          rw [← pathNames_renderPath reached.proper, ← reached.written,
            atRoot, pathNames_nil]
        rw [isRoot, stays]
        rfl
      · exact (renderPath_dropLast reached.proper slashFree
          (reached.written.symm.trans isOut)).symm
    refine ⟨place.dropLast, afterCounted, ⟨written,
      fun name member => reached.proper name (mem_of_mem_dropLast member),
      fun _ => (reached.free more).ofFront ( dropLast_prefix _)⟩,
      fun result later => ?_⟩
    rw [PathWalk.pathMoves_eq counted.atName more, isDotdot, ← isRest]
    exact .up later
  · cases goesOn.symm.trans goesOn'
    have nameProper := counted.properName copies
    have written :
        state.walk.copied.out =
          renderPath (place ++ [state.walk.name]) := by
      rw [renderPath_concat, ← reached.written]
      rfl
    have notLink :
        followsLinks flags ∨ state.walk.rest ≠ [] →
          linkTree tree (place ++ [state.walk.name]) = none := by
      intro resolves
      have isPlain := reads.plain copiedCounted.normalized
        (Nat.sub_pos_of_lt (Nat.lt_of_le_of_lt (by simp [PathWalk.copied])
          copiedCounted.room)) (plain resolves)
      rw [linkTree, ← written, isPlain]
      rfl
    refine ⟨place ++ [state.walk.name], copiedCounted, ⟨written, ?_,
      fun more => (reached.free copies.1).concat (notLink (.inr more))⟩,
      fun result later => ?_⟩
    · intro name member
      rcases mem_append.mp member with inPlace | isName
      · exact reached.proper name inPlace
      · rw [mem_singleton.mp isName]
        exact nameProper
    · rw [PathWalk.pathMoves_eq counted.atName copies.1, moveOf,
        if_neg copies.2.1, if_neg copies.2.2]
      refine .into ?_ later
      by_cases resolves : followsLinks flags ∨ state.walk.rest ≠ []
      · exact .inl (notLink resolves)
      · rw [not_or, not_not, Bool.not_eq_true] at resolves
        exact .inr ⟨state.walk.pathMoves_rest_eq_nil_iff.mpr resolves.2,
          resolves.1⟩
  · cases goesOn.symm.trans expands
  · cases goesOn.symm.trans stops

/-- A restart takes the move of a symlink. -/
theorem RoundFits.of_expand
    {expanded : PathString}
    (expands :
      state.walk.round user mounts flags state.levels = .expand expanded)
    {result : List PathString}
    (resolves :
      (linkTree tree).Resolves (followsLinks flags) []
        (pathMoves expanded) result) :
    (linkTree tree).Resolves (followsLinks flags) place
      (pathMoves state.walk.p) result := by
  rcases fits.cases counted user with
    ⟨ends, stops⟩ | ⟨_, next, goesOn, _⟩ | ⟨_, next, goesOn, _⟩ |
    ⟨_, _, _, _, goesOn⟩ |
    ⟨copies, short, follows, normalized, text, links, linkFits, expands'⟩ |
    ⟨code, stops, _⟩
  · cases expands.symm.trans stops
  · cases expands.symm.trans goesOn
  · cases expands.symm.trans goesOn
  · cases expands.symm.trans goesOn
  · cases expands.symm.trans expands'
    have isTarget := reads.target normalized links
      (by have := linkFits.1; omega)
    have isLink :
        linkTree tree (place ++ [state.walk.name]) =
          some ⟨text.head? = some slash, pathMoves text⟩ := by
      rw [linkTree, renderPath_concat, ← reached.written,
        show state.walk.out ++ slash :: state.walk.name =
          state.walk.copied.out from rfl, isTarget]
      rfl
    rw [PathWalk.pathMoves_eq counted.atName copies.1, moveOf,
      if_neg copies.2.1, if_neg copies.2.2]
    refine .link isLink ?_ ?_
    · rw [Ne, state.walk.pathMoves_rest_eq_nil_iff]
      exact follows.symm
    · rw [reached.written, pathMoves_expandLink reached.proper] at resolves
      by_cases absolute : text.head? = some slash
      · simpa [absolute] using resolves
      · rw [if_neg absolute] at resolves
        have fromPlace := SymlinkTree.Resolves.of_walk_down
          (by simpa using reached.free copies.1) resolves
        simpa [absolute] using fromPlace
  · cases expands.symm.trans stops

end

theorem ResolvedBase.at_start
    (resolved : ResolvedBase tree base place) :
    (PathWalk.start base path).At tree place where
  proper := resolved.proper
  free _ := resolved.free
  written := by
    rcases resolved.written with rfl | ⟨rfl, rfl | rfl⟩
    · have notRoot : renderPath place ≠ [slash] := by
        intro isRoot
        have names := pathNames_renderPath resolved.proper
        rw [isRoot, pathNames_slash, pathNames_nil] at names
        rw [← names] at isRoot
        cases isRoot
      simp [PathWalk.start, PathWalk.eatSlashes, notRoot]
    · rfl
    · rfl

theorem ResolvedBase.root : ResolvedBase tree none [] where
  proper _ member := by
    cases member
  free := SymlinkTree.linkFree_nil
  written := .inr ⟨rfl, .inl rfl⟩

/--
A walk that succeeds resolves what is left of its path from the place it has
reached.
-/
theorem resolves_of_run
    (reads : mounts.ReadsTree tree)
    {levels : Nat}
    (counted : walk.Counted)
    (reached : walk.At tree place)
    (succeeds : walk.run user mounts flags levels = some (.ok out)) :
    ∃ result,
      (linkTree tree).Resolves (followsLinks flags) place
          (pathMoves walk.p) result ∧
        (∀ name ∈ result, ProperName name) ∧
          out = renderPath result ∧ pathIsNormalized out = true := by
  have fits :=
    @RoundFits.of_success user mounts flags ⟨levels, walk⟩ out counted
      succeeds
  induction levels, walk using PathWalk.run.induct user mounts flags
    generalizing place with
  | case1 levels walk result taken =>
    have isResult :=
      (@run_of_stop user mounts flags ⟨levels, walk⟩ _
        taken).symm.trans succeeds
    rw [isResult] at taken
    obtain ⟨ends, isOut⟩ := fits.of_stop counted taken
    simp only at ends isOut
    refine ⟨place, ?_, reached.proper, isOut.trans reached.written,
      isOut ▸ counted.normalized⟩
    rw [ends, pathMoves, pathNames_nil]
    exact .done
  | case2 levels walk next taken inductionHypothesis =>
    have same :=
      @run_of_next user mounts flags ⟨levels, walk⟩ next taken
    have nextSucceeds := same.symm.trans succeeds
    obtain ⟨nextPlace, nextCounted, nextReached, step⟩ :=
      fits.of_next reads counted reached taken
    obtain ⟨result, resolves, rest⟩ :=
      inductionHypothesis nextCounted nextReached nextSucceeds
        (.of_success nextCounted nextSucceeds)
    exact ⟨result, step result resolves, rest⟩
  | case3 levels walk taken =>
    rcases fits.round counted user with
      ⟨_, goesOn, _⟩ | ⟨_, expands, nonempty, _⟩ | ⟨_, stops, _⟩
    · cases taken.symm.trans goesOn
    · exact (nonempty
        (Round.expand.inj (expands.symm.trans taken))).elim
    · cases taken.symm.trans stops
  | case4 levels walk expanded taken nonempty inductionHypothesis =>
    have same :=
      @run_of_expand user mounts flags ⟨levels, walk⟩ expanded
        taken nonempty
    have nextSucceeds := same.symm.trans succeeds
    have nextCounted : (PathWalk.start none expanded).Counted :=
      .start rfl (Nat.zero_lt_succ _)
    obtain ⟨result, resolves, rest⟩ :=
      inductionHypothesis nextCounted ResolvedBase.root.at_start
        nextSucceeds (.of_success nextCounted nextSucceeds)
    refine ⟨result, fits.of_expand reads counted reached taken ?_, rest⟩
    rwa [pathMoves, ← pathNames_dropWhile expanded]

theorem renderPath_getLast?
    (proper : ∀ name ∈ place, ProperName name) :
    (renderPath place).getLast? ≠ some slash := by
  rcases eq_nil_or_concat place with rfl | ⟨directory, name, rfl⟩
  · simp [renderPath]
  · have nameProper := proper name (by simp)
    rw [concat_eq_append, renderPath_concat, append_cons,
      List.getLast?_append_of_ne_nil _ nameProper.nonempty]
    intro ends
    exact nameProper.slashFree (List.mem_of_getLast? ends)

theorem pathIsNormalized_renderPath
    (proper : ∀ name ∈ place, ProperName name) :
    pathIsNormalized (renderPath place) = true := by
  induction place using List.reverseRecOn with
  | nil =>
    rfl
  | append_singleton directory name inductionHypothesis =>
    have directoryProper : ∀ other ∈ directory, ProperName other :=
      fun other member => proper other (mem_append_left _ member)
    rw [renderPath_concat,
      pathIsNormalized_append (proper name (by simp)).slashFree]
    exact ⟨inductionHypothesis directoryProper,
      renderPath_getLast? directoryProper⟩

theorem ResolvedBase.normalized
    (resolved : ResolvedBase tree base place) :
    pathIsNormalized (base.getD []) = true := by
  rcases resolved.written with rfl | ⟨_, rfl | rfl⟩
  · exact pathIsNormalized_renderPath resolved.proper
  · rfl
  · rfl

theorem pathMoves_start (base : Option PathString) (path : PathString) :
    pathMoves (PathWalk.start base path).p = pathMoves path := by
  rw [pathMoves, pathMoves, ← pathNames_dropWhile path]
  rfl

/--
What a successful path walk returns: the normalized path of the place that
the reference resolution reaches from the base, with no symlink on the way to
it, and none at its end when links are followed.
-/
theorem pathNormalize_resolves
    (user : Credentials)
    (mounts : Mounts)
    (tree : PathString → Option PathString)
    (flags : Nat)
    (base : Option PathString)
    (place : List PathString)
    (path out : PathString)
    (reads : mounts.ReadsTree tree)
    (resolved : ResolvedBase tree base place)
    (succeeds :
      pathNormalizeAt user mounts base path flags 0 = some (.ok out)) :
    ∃ result,
      out = renderPath result ∧ pathNames out = result ∧
        pathIsNormalized out = true ∧
        (∀ name ∈ pathNames out, name ≠ [dot] ∧ name ≠ [dot, dot]) ∧
        (linkTree tree).Resolves (followsLinks flags) place
          (pathMoves path) result ∧
        (∀ other,
          (linkTree tree).Resolves (followsLinks flags) place
            (pathMoves path) other →
          other = result) ∧
        (∀ front,
          front <+: result → front ≠ [] → front ≠ result →
          tree (renderPath front) = none) ∧
        (followsLinks flags = true → result ≠ [] → tree out = none) := by
  have runs :
      (base.getD []).length < maxPath ∧
        (PathWalk.start base path).run user mounts flags 0 =
          some (.ok out) := by
    unfold pathNormalizeAt at succeeds
    split at succeeds
    · cases succeeds
    · split at succeeds
      · cases succeeds
      · split at succeeds
        · cases succeeds
        · rename_i short
          exact ⟨Nat.lt_of_not_le short, succeeds⟩
  obtain ⟨result, resolves, proper, isOut, normalized⟩ :=
    resolves_of_run reads (.start resolved.normalized runs.1)
      resolved.at_start runs.2
  rw [pathMoves_start] at resolves
  have names : pathNames out = result := by
    rw [isOut, pathNames_renderPath proper]
  have free := resolves.linkFree resolved.free
  have plain :
      ∀ {front : List PathString},
        linkTree tree front = none → tree (renderPath front) = none :=
    fun isPlain => Option.map_eq_none_iff.mp isPlain
  refine ⟨result, isOut, names, normalized, ?_, resolves,
    fun other otherwise => resolves.deterministic otherwise, ?_, ?_⟩
  · intro name member
    have nameProper := proper name (names ▸ member)
    exact ⟨nameProper.notDot, nameProper.notDotdot⟩
  · intro front isPrefix nonempty isProper
    refine plain (free.1 front ?_ nonempty)
    rcases eq_nil_or_concat result with rfl | ⟨directory, name, rfl⟩
    · exact isPrefix
    · rw [concat_eq_append] at *
      rw [dropLast_concat]
      exact (prefix_concat_iff.mp isPrefix).resolve_left isProper
  · intro follows nonempty
    rw [isOut]
    exact plain (free.2 follows result (prefix_refl _) nonempty)

end

/-- A file system with the symlinks of a tree, in which nothing else exists. -/
def treeMount (tree : PathString → Option PathString) : Mount where
  point := []
  readlink := some fun path size =>
    match tree path with
    | none => .error .inval
    | some target => .ok (target.take size)
  stat _ := .error .noent
  bounded := by
    intro read isRead path size text reads
    cases isRead
    simp only at reads
    split at reads
    · cases reads
    · cases reads
      exact length_take_le _ _

/-- Only the file system of the tree is mounted. -/
def treeMounts (tree : PathString → Option PathString) : Mounts where
  list := [treeMount tree]
  root := ⟨treeMount tree, mem_singleton_self _, rfl⟩

theorem treeMounts_readsTree (tree : PathString → Option PathString) :
    (treeMounts tree).ReadsTree tree := by
  intro path size text normalized _
  have begins : path = [] ∨ path.head? = some slash := by
    simp only [pathIsNormalized, Bool.and_eq_true,
      decide_eq_true_eq] at normalized
    exact normalized.1
  have found :
      (treeMounts tree).findAndTrim path = some (treeMount tree, path) := by
    have contains : (treeMount tree).contains path = true := by
      simpa [Mount.contains, treeMount] using begins
    have first :
        (treeMounts tree).list.find? (fun mount => mount.contains path) =
          some (treeMount tree) :=
      List.find?_cons_of_pos (p := (Mount.contains · path)) contains
    have whole : path.drop (treeMount tree).point.length = path := rfl
    simp [Mounts.findAndTrim, Mounts.find, normalized, first, whole]
  constructor
  · rintro ⟨mount, trimmed, alsoFound, reads⟩
    cases found.symm.trans alsoFound
    simp only [Mount.readlinkAt, treeMount] at reads
    split at reads
    · cases reads
    · rename_i target isTarget
      cases reads
      exact ⟨target, isTarget, rfl⟩
  · rintro ⟨target, isTarget, rfl⟩
    refine ⟨treeMount tree, path, found, ?_⟩
    simp [Mount.readlinkAt, treeMount, isTarget]

/-- The tree whose only symlink is `/l`, with the target `b`. -/
def oneLink (path : PathString) : Option PathString :=
  if path = [slash, 108] then some [98] else none

/-- From the root, `l/../x` follows `/l` to `/b` and ends at `/x`. -/
theorem link_resolves_before_dotdot :
    ∃ result,
      [slash, 120] = renderPath result ∧
        pathNames [slash, 120] = result ∧
        pathIsNormalized [slash, 120] = true ∧
        (∀ name ∈ pathNames [slash, 120],
          name ≠ [dot] ∧ name ≠ [dot, dot]) ∧
        (linkTree oneLink).Resolves (followsLinks 1) []
          (pathMoves [108, slash, dot, dot, slash, 120]) result ∧
        (∀ other,
          (linkTree oneLink).Resolves (followsLinks 1) []
            (pathMoves [108, slash, dot, dot, slash, 120]) other →
          other = result) ∧
        (∀ front,
          front <+: result → front ≠ [] → front ≠ result →
          oneLink (renderPath front) = none) ∧
        (followsLinks 1 = true → result ≠ [] →
          oneLink [slash, 120] = none) := by
  refine pathNormalize_resolves superuser (treeMounts oneLink) oneLink 1
    none [] [108, slash, dot, dot, slash, 120] [slash, 120]
    (treeMounts_readsTree oneLink) .root ?_
  rw [pathNormalizeAt, if_neg (by decide), if_neg (by decide),
    if_neg (by decide)]
  calc
    _ = (PathWalk.start none [slash, 98, slash, dot, dot, slash, 120]).run
          superuser (treeMounts oneLink) 1 1 :=
      @run_of_expand superuser (treeMounts oneLink) 1
        ⟨0, PathWalk.start none [108, slash, dot, dot, slash, 120]⟩ _ rfl
        (by decide)
    _ = PathWalk.run superuser (treeMounts oneLink) 1 1
          ⟨some slash, [dot, dot, slash, 120], [slash, 98], 4093⟩ :=
      @run_of_next superuser (treeMounts oneLink) 1
        ⟨1, PathWalk.start none [slash, 98, slash, dot, dot, slash, 120]⟩
        _ rfl
    _ = PathWalk.run superuser (treeMounts oneLink) 1 1
          ⟨some slash, [120], [], 4095⟩ :=
      @run_of_next superuser (treeMounts oneLink) 1
        ⟨1, ⟨some slash, [dot, dot, slash, 120], [slash, 98], 4093⟩⟩ _ rfl
    _ = PathWalk.run superuser (treeMounts oneLink) 1 1
          ⟨some 120, [], [slash, 120], 4093⟩ :=
      @run_of_next superuser (treeMounts oneLink) 1
        ⟨1, ⟨some slash, [120], [], 4095⟩⟩ _ rfl
    _ = some (.ok [slash, 120]) :=
      @run_of_stop superuser (treeMounts oneLink) 1
        ⟨1, ⟨some 120, [], [slash, 120], 4093⟩⟩ _ rfl

/--
A base that is a symlink is normalized, and the walk keeps it: `x` at `/l`
gives `/l/x`, although `/l` is a symlink.
-/
theorem symlink_base_is_kept :
    (treeMounts oneLink).ReadsTree oneLink ∧
      pathIsNormalized [slash, 108] = true ∧
      pathNormalizeAt superuser (treeMounts oneLink)
          (some [slash, 108]) [120] 1 0 =
        some (.ok [slash, 108, slash, 120]) ∧
      ¬ ∀ front,
        front <+: pathNames [slash, 108, slash, 120] → front ≠ [] →
        front ≠ pathNames [slash, 108, slash, 120] →
        oneLink (renderPath front) = none := by
  refine ⟨treeMounts_readsTree oneLink, by decide, ?_, fun plain => ?_⟩
  · rw [pathNormalizeAt, if_neg (by decide), if_neg (by decide),
      if_neg (by decide)]
    calc
      _ = PathWalk.run superuser (treeMounts oneLink) 1 0
            ⟨some 120, [], [slash, 108, slash, 120], 4091⟩ :=
        @run_of_next superuser (treeMounts oneLink) 1
          ⟨0, PathWalk.start (some [slash, 108]) [120]⟩ _ rfl
      _ = some (.ok [slash, 108, slash, 120]) :=
        @run_of_stop superuser (treeMounts oneLink) 1
          ⟨0, ⟨some 120, [], [slash, 108, slash, 120], 4091⟩⟩ _ rfl
  · have names :
        pathNames [slash, 108, slash, 120] = [[108], [120]] := by
      rfl
    rw [names] at plain
    have isLink := plain [[108]] (by decide) (by decide) (by decide)
    cases isLink

end GuestKernel
