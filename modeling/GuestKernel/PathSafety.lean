import GuestKernel.PathRounds

namespace GuestKernel
open List
open WalkState

/-!
# Bounds of the path walk

The walk stays in its two buffers exactly when every round finds space for a
component, and every symlink it puts in place fits with the rest of the path.
The slack in the test of the counter is the defect: the test compares it with
zero, and a component that starts with less than two bytes left takes the
counter past zero.
-/

namespace PathWalk

/-- The component and the terminator have no room after the output. -/
def TooLong (walk : PathWalk) : Prop :=
  walk.Copies ∧ maxPath ≤ walk.out.length + 1 + walk.name.length

/-- The component is short enough for the counter. -/
def Fits (walk : PathWalk) : Prop :=
  walk.out.length + walk.name.length + 2 < maxPath

/-- This link text fits after the output, and with the rest of the path. -/
def LinkFits (walk : PathWalk) (text : PathString) : Prop :=
  walk.out.length + 1 + text.length < maxPath ∧
    (expandLink (walk.out ++ [slash]) text walk.rest).length < maxPath

instance (walk : PathWalk) (text : PathString) :
    Decidable (walk.LinkFits text) :=
  inferInstanceAs (Decidable (_ ∧ _))

theorem Fits.not_tooLong
    {walk : PathWalk}
    (fits : walk.Fits) :
    ¬ walk.TooLong := by
  rintro ⟨_, long⟩
  simp only [Fits, maxPath] at fits long
  omega

theorem expandLink_copied
    (walk : PathWalk)
    (text : PathString) :
    expandLink (walk.copied.out.take (walk.out.length + 1)) text
      walk.copied.p =
        expandLink (walk.out ++ [slash]) text walk.rest := by
  have taken :
      walk.copied.out.take (walk.out.length + 1) = walk.out ++ [slash] := by
    rw [copied, append_cons]
    exact take_left' (by simp)
  rw [taken]
  rfl

theorem expandLink_ne_nil (out text p : PathString) :
    expandLink (out ++ [slash]) text p ≠ [] := by
  unfold expandLink
  simp only
  split
  · split
    · rename_i begins
      rintro rfl
      cases begins
    · simp
  · exact append_ne_nil_of_right_ne_nil _ (cons_ne_nil _ _)

end PathWalk

/--
A round that copies a component finds two bytes and the terminator free,
never follows a trailing slash of the base, and expands only a link that fits.
-/
structure RoundFits
    (mounts : Mounts) (flags : Nat) (state : WalkState) : Prop where
  space : state.walk.Copies → state.walk.out.length + 2 < maxPath
  separated :
    state.walk.Copies → state.walk.Fits →
      state.walk.out.getLast? ≠ some slash
  link :
    state.walk.Copies → state.walk.Fits →
      followsLinks flags ∨ state.walk.rest ≠ [] → state.levels < 5 →
      ∀ text,
        mounts.Links state.walk.copied.out
          (maxPath - (state.walk.out.length + 1)) text →
        state.walk.LinkFits text

section

variable
  {user : Credentials}
  {mounts : Mounts}
  {flags : Nat}

namespace PathWalk

variable {walk : PathWalk}

theorem Counted.copied
    (counted : walk.Counted)
    (fits : walk.Fits)
    (separated : walk.out.getLast? ≠ some slash) :
    walk.copied.Counted where
  count := by
    have count := counted.count
    simp only [PathWalk.copied, length_append, length_cons]
    omega
  room := by
    simp only [PathWalk.copied, length_append, length_cons]
    simp only [Fits, maxPath] at fits ⊢
    omega
  normalized :=
    (pathIsNormalized_append walk.slash_not_mem_name).mpr
      ⟨counted.normalized, separated⟩
  atName := walk.rest_head

theorem Counted.copied_prev
    (counted : walk.Counted)
    (copies : walk.Copies) :
    walk.copied.prev ≠ none := by
  have last := List.getLast?_eq_some_getLast
    (PathWalk.name_ne_nil counted.atName copies.1)
  simp only [PathWalk.copied, last]
  split <;> simp

/-- What a round does with a component that fits and is resolved. -/
theorem Counted.round_resolves
    {levels : Nat}
    (counted : walk.Counted)
    (copies : walk.Copies)
    (fits : walk.Fits)
    (separated : walk.out.getLast? ≠ some slash)
    (resolves : followsLinks flags ∨ walk.rest ≠ []) :
    (∃ text,
      mounts.Links walk.copied.out (maxPath - (walk.out.length + 1)) text ∧
        walk.round user mounts flags levels =
          if 5 ≤ levels then
            .stop (some (.error .loop))
          else if walk.LinkFits text then
            .expand (expandLink (walk.out ++ [slash]) text walk.rest)
          else
            .stop none) ∨
      (∀ text,
        ¬ mounts.Links walk.copied.out
          (maxPath - (walk.out.length + 1)) text) ∧
        (walk.round user mounts flags levels = .next walk.copied ∨
          ∃ code,
            (code = .notdir ∨ code = .acces) ∧
              walk.round user mounts flags levels =
                .stop (some (.error code))) := by
  have copiedCounted := counted.copied fits separated
  have spec := @PathWalk.resolve_spec walk.copied user mounts levels
    (walk.out.length + 1) copiedCounted.room copiedCounted.normalized
    (counted.copied_prev copies)
  simp only [expandLink_copied] at spec
  rw [counted.round_fits copies fits, if_pos resolves]
  exact spec

end PathWalk

variable {state : WalkState}

/--
What a round that fits does: it ends, skips a `.`, deletes for a `..`, copies
a component that is not followed, puts a symlink in place, or fails.
-/
theorem RoundFits.cases
    (fits : RoundFits mounts flags state)
    (counted : state.walk.Counted)
    (user : Credentials) :
    (state.walk.p = [] ∧
      state.walk.round user mounts flags state.levels =
        .stop (some (.ok state.walk.out))) ∨
    (state.walk.name = [dot] ∧
      ∃ next,
        state.walk.round user mounts flags state.levels = .next next ∧
          next.Counted ∧ next.out = state.walk.out ∧
          next.p = state.walk.rest) ∨
    (state.walk.name = [dot, dot] ∧
      ∃ next,
        state.walk.round user mounts flags state.levels = .next next ∧
          next.Counted ∧ next.p = state.walk.rest ∧
          (state.walk.out = [] ∧ next.out = [] ∨
            ∃ removed,
              slash ∉ removed ∧
                state.walk.out = next.out ++ slash :: removed)) ∨
    (state.walk.Copies ∧ state.walk.Fits ∧ state.walk.copied.Counted ∧
      (followsLinks flags ∨ state.walk.rest ≠ [] →
        ∀ text,
          ¬ mounts.Links state.walk.copied.out
            (maxPath - (state.walk.out.length + 1)) text) ∧
      state.walk.round user mounts flags state.levels =
        .next state.walk.copied) ∨
    (state.walk.Copies ∧ state.walk.Fits ∧
      (followsLinks flags ∨ state.walk.rest ≠ []) ∧
      pathIsNormalized state.walk.copied.out = true ∧
      ∃ text,
        mounts.Links state.walk.copied.out
            (maxPath - (state.walk.out.length + 1)) text ∧
          state.walk.LinkFits text ∧
          state.walk.round user mounts flags state.levels =
            .expand (expandLink (state.walk.out ++ [slash]) text
              state.walk.rest)) ∨
    ∃ code,
      state.walk.round user mounts flags state.levels =
          .stop (some (.error code)) ∧
        (state.walk.TooLong → code = .nametoolong) := by
  by_cases ends : state.walk.p = []
  · exact .inl ⟨ends, counted.round_end ends⟩
  by_cases isDot : state.walk.name = [dot]
  · exact .inr (.inl ⟨isDot,
      counted.round_dot isDot user mounts flags state.levels⟩)
  by_cases isDotdot : state.walk.name = [dot, dot]
  · exact .inr (.inr (.inl ⟨isDotdot,
      counted.round_dotdot isDotdot user mounts flags state.levels⟩))
  have copies : state.walk.Copies := ⟨ends, isDot, isDotdot⟩
  refine .inr (.inr (.inr ?_))
  by_cases short : state.walk.Fits
  case neg =>
    exact .inr (.inr ⟨_, counted.round_full copies (fits.space copies)
      (Nat.le_of_not_lt short), fun _ => rfl⟩)
  have separated := fits.separated copies short
  have copiedCounted := counted.copied short separated
  by_cases resolves : followsLinks flags ∨ state.walk.rest ≠ []
  · rcases counted.round_resolves copies short separated resolves with
      ⟨text, links, resolved⟩ | ⟨plain, goesOn | ⟨code, _, failed⟩⟩
    · by_cases late : 5 ≤ state.levels
      · rw [if_pos late] at resolved
        exact .inr (.inr ⟨_, resolved,
          fun tooLong => absurd tooLong short.not_tooLong⟩)
      · have linkFits := fits.link copies short resolves
          (Nat.lt_of_not_le late) text links
        rw [if_neg late, if_pos linkFits] at resolved
        exact .inr (.inl ⟨copies, short, resolves,
          copiedCounted.normalized, text, links, linkFits, resolved⟩)
    · exact .inl ⟨copies, short, copiedCounted, fun _ => plain, goesOn⟩
    · exact .inr (.inr ⟨_, failed,
        fun tooLong => absurd tooLong short.not_tooLong⟩)
  · refine .inl ⟨copies, short, copiedCounted,
      fun resolves' => absurd resolves' resolves, ?_⟩
    rw [counted.round_fits copies short, if_neg resolves]

/-- What becomes of the counter in a round that fits. -/
theorem RoundFits.round
    (fits : RoundFits mounts flags state)
    (counted : state.walk.Counted)
    (user : Credentials) :
    (∃ next,
      state.walk.round user mounts flags state.levels = .next next ∧
        next.Counted ∧ ¬ state.walk.TooLong) ∨
      (∃ expanded,
        state.walk.round user mounts flags state.levels =
            .expand expanded ∧
          expanded ≠ [] ∧ ¬ state.walk.TooLong) ∨
        ∃ result,
          state.walk.round user mounts flags state.levels =
              .stop (some result) ∧
            (state.walk.TooLong → result = .error .nametoolong) := by
  rcases fits.cases counted user with
    ⟨ends, stops⟩ | ⟨isDot, next, goesOn, nextCounted, _⟩ |
    ⟨isDotdot, next, goesOn, nextCounted, _⟩ |
    ⟨_, short, nextCounted, _, goesOn⟩ |
    ⟨_, short, _, _, text, _, _, expands⟩ | ⟨code, stops, isLong⟩
  · exact .inr (.inr ⟨_, stops, fun tooLong => absurd ends tooLong.1.1⟩)
  · exact .inl ⟨next, goesOn, nextCounted,
      fun tooLong => tooLong.1.2.1 isDot⟩
  · exact .inl ⟨next, goesOn, nextCounted,
      fun tooLong => tooLong.1.2.2 isDotdot⟩
  · exact .inl ⟨_, goesOn, nextCounted, short.not_tooLong⟩
  · exact .inr (.inl ⟨_, expands, PathWalk.expandLink_ne_nil _ _ _,
      short.not_tooLong⟩)
  · exact .inr (.inr ⟨_, stops, fun tooLong => by rw [isLong tooLong]⟩)

namespace PathWalk

theorem resolve_of_not_normalized
    {walk : PathWalk}
    {levels c : Nat}
    (notNormalized : pathIsNormalized walk.out = false) :
    walk.resolve user mounts levels c = .stop none := by
  unfold PathWalk.resolve
  split
  · rfl
  · simp [Mounts.findAndTrim, Mounts.find, notNormalized]

/--
With the terminator in the last byte of the buffer, no link fits: resolving
leaves a buffer, fails, or goes on with the same state.
-/
theorem resolve_full
    {walk : PathWalk}
    {levels : Nat}
    (more : walk.p ≠ [])
    (full : maxPath ≤ walk.out.length + 1) :
    walk.resolve user mounts levels walk.out.length = .stop none ∨
      (∃ code,
        code ≠ .nametoolong ∧
          walk.resolve user mounts levels walk.out.length =
            .stop (some (.error code))) ∨
        walk.resolve user mounts levels walk.out.length = .next walk := by
  unfold PathWalk.resolve
  split
  · exact .inl rfl
  split
  · exact .inl rfl
  split
  · split
    · exact .inr (.inl ⟨.loop, by decide, rfl⟩)
    · split
      · exact .inl rfl
      · rename_i text _ _ short
        have isEmpty : text = [] := by
          rw [← length_eq_zero_iff]
          omega
        have tooLong :
            maxPath ≤ (expandLink (walk.out.take walk.out.length) text
              walk.p).length := by
          rw [isEmpty, expandLink, if_neg more, if_neg (by simp)]
          simp only [append_nil, take_length, length_append,
            length_cons]
          omega
        simp only [tooLong, ↓reduceIte, true_or]
  · split
    · exact .inl rfl
    · split
      · split
        · rename_i code failed
          refine .inr (.inl ⟨code, ?_, rfl⟩)
          rcases checkDirectory_error failed with rfl | rfl <;> decide
        · exact .inr (.inr rfl)
      · exact .inr (.inr rfl)

end PathWalk

/--
What becomes of a walk with a full buffer: it leaves the buffer or fails, but
not because the name is too long.
-/
theorem WalkState.run_full
    (counted : state.walk.Counted)
    (copies : state.walk.Copies)
    (full : maxPath ≤ state.walk.out.length + 2) :
    state.run user mounts flags = none ∨
      ∃ code,
        code ≠ .nametoolong ∧
          state.run user mounts flags = some (.error code) := by
  obtain ⟨levels, walk⟩ := state
  simp only at counted copies full
  have count := counted.count
  have room := counted.room
  set stuck : PathWalk :=
    { walk with out := walk.out ++ [slash], n := walk.n - 2 } with isStuck
  have stuckLength : stuck.out.length = walk.out.length + 1 := by
    simp [isStuck]
  have round :
      walk.round user mounts flags levels =
        stuck.resolve user mounts levels stuck.out.length := by
    rw [copies.round, PathWalk.component_stuck room copies.1 counted.atName
      (by simp only [maxPath] at count full; omega), stuckLength]
  rcases @PathWalk.resolve_full user mounts stuck levels copies.1
      (by omega) with leaves | ⟨code, notLong, failed⟩ | goesOn
  · exact .inl (WalkState.run_of_stop (round.trans leaves))
  · exact .inr ⟨code, notLong,
      WalkState.run_of_stop (round.trans failed)⟩
  · left
    rw [WalkState.run_of_next (round.trans goesOn)]
    by_cases stuckRoom : stuck.out.length < maxPath
    · refine WalkState.run_of_stop ?_
      have stuckCopies : stuck.Copies := copies
      rw [stuckCopies.round, PathWalk.component_stuck stuckRoom copies.1
        counted.atName (by
          simp only [isStuck, maxPath] at count full ⊢
          omega), PathWalk.resolve, if_pos]
      simp only [length_append, length_singleton]
      omega
    · have stops :
          stuck.resolve user mounts levels stuck.out.length =
            .stop none := by
        rw [PathWalk.resolve, if_pos (Nat.le_of_not_lt stuckRoom)]
      cases stops.symm.trans goesOn

theorem Mounts.Links.unique
    {path text otherText : PathString}
    {size : Nat}
    (links : mounts.Links path size text)
    (alsoLinks : mounts.Links path size otherText) :
    text = otherText := by
  obtain ⟨mount, trimmed, found, reads⟩ := links
  obtain ⟨otherMount, otherTrimmed, alsoFound, alsoReads⟩ := alsoLinks
  cases found.symm.trans alsoFound
  exact Except.ok.inj (reads.symm.trans alsoReads)

/--
A round that does not fit: the walk leaves a buffer or fails an assertion, or
a component that is too long gives another error.
-/
theorem WalkState.run_of_unfit
    (counted : state.walk.Counted)
    (unfit : ¬ RoundFits mounts flags state)
    (user : Credentials) :
    state.run user mounts flags = none ∨
      state.walk.TooLong ∧
        ∃ code,
          code ≠ .nametoolong ∧
            state.run user mounts flags = some (.error code) := by
  by_cases copies : state.walk.Copies
  case neg =>
    exact (unfit ⟨fun copies' => absurd copies' copies,
      fun copies' => absurd copies' copies,
      fun copies' => absurd copies' copies⟩).elim
  by_cases space : state.walk.out.length + 2 < maxPath
  case neg =>
    have full := Nat.le_of_not_lt space
    have nonempty :=
      length_pos_iff.mpr (PathWalk.name_ne_nil counted.atName copies.1)
    exact (run_full counted copies full).imp id
      (And.intro ⟨copies, by omega⟩)
  by_cases fits : state.walk.Fits
  case neg =>
    exact (unfit ⟨fun _ => space, fun _ fits' => absurd fits' fits,
      fun _ fits' => absurd fits' fits⟩).elim
  left
  by_cases separated : state.walk.out.getLast? = some slash
  case pos =>
    have notNormalized : pathIsNormalized state.walk.copied.out = false := by
      rw [← Bool.not_eq_true]
      intro normalized
      exact ((pathIsNormalized_append
        state.walk.slash_not_mem_name).mp normalized).2 separated
    by_cases resolves : followsLinks flags ∨ state.walk.rest ≠ []
    · refine run_of_stop ?_
      rw [counted.round_fits copies fits, if_pos resolves,
        PathWalk.resolve_of_not_normalized notNormalized]
    · rw [run_of_next (by
        rw [counted.round_fits copies fits, if_neg resolves])]
      refine run_of_stop ?_
      have ends : state.walk.copied.p = [] := by
        by_contra more
        exact resolves (.inr more)
      rw [PathWalk.round, if_pos ends, if_neg]
      exact fun good => absurd good.2 (by simp [notNormalized])
  by_contra succeeds
  refine unfit ⟨fun _ => space, fun _ _ => separated,
    fun _ _ resolves early text links => ?_⟩
  by_contra tooLong
  refine succeeds (run_of_stop ?_)
  rcases counted.round_resolves copies fits separated resolves with
    ⟨otherText, alsoLinks, resolved⟩ | ⟨plain, _⟩
  · cases links.unique alsoLinks
    rw [resolved, if_neg (Nat.not_le_of_lt early), if_neg tooLong]
  · exact (plain text links).elim

/--
The walk stays in its buffers and returns, and a component it reaches that has
no room gives `_ENAMETOOLONG`.
-/
def StaysInBuffers
    (user : Credentials)
    (mounts : Mounts)
    (flags : Nat)
    (base : Option PathString)
    (path : PathString) : Prop :=
  ∃ result,
    pathNormalizeAt user mounts base path flags 0 = some result ∧
      ∀ state,
        (walkMachine user mounts flags base path).Reachable state →
        state.walk.TooLong →
        result = .error .nametoolong

variable
  {base : Option PathString}
  {path : PathString}

/-- A round that fits leaves the counter right. -/
theorem counted_step
    {next : WalkState}
    {round : Round}
    (counted : state.walk.Counted)
    (fits : RoundFits mounts flags state)
    (taken :
      (walkMachine user mounts flags base path).step state round next) :
    next.walk.Counted := by
  obtain ⟨rounds, follows⟩ := taken
  cases round with
  | next walk =>
    rcases fits.round counted user with
      ⟨after, goesOn, afterCounted, _⟩ | ⟨_, expands, _⟩ | ⟨_, stops, _⟩
    · rw [show next = _ from follows,
        Round.next.inj (rounds.symm.trans goesOn)]
      exact afterCounted
    · cases rounds.symm.trans expands
    · cases rounds.symm.trans stops
  | expand expanded =>
    rw [show next = _ from follows.2]
    exact @PathWalk.Counted.start none expanded rfl (Nat.zero_lt_succ _)
  | stop result =>
    exact follows.elim

section

variable
  (normalized : pathIsNormalized (base.getD []) = true)
  (short : (base.getD []).length < maxPath)
include normalized short

/-- Rounds are counted as long as every counted round fits. -/
theorem counted_of_reachable
    (fits :
      ∀ state,
        (walkMachine user mounts flags base path).Reachable state →
        state.walk.Counted →
        RoundFits mounts flags state)
    (reachable : (walkMachine user mounts flags base path).Reachable state) :
    state.walk.Counted := by
  induction reachable with
  | initial isInitial =>
    rw [isInitial.2]
    exact .start normalized short
  | step reached taken inductionHypothesis =>
    exact counted_step inductionHypothesis
      (fits _ reached inductionHypothesis) taken

/-- When every round fits, the walk stays in its buffers. -/
theorem staysInBuffers_of_fits
    (chosen : flagsChosen flags = true)
    (fits :
      ∀ state,
        (walkMachine user mounts flags base path).Reachable state →
        RoundFits mounts flags state) :
    StaysInBuffers user mounts flags base path := by
  have counted :
      ∀ {state},
        (walkMachine user mounts flags base path).Reachable state →
        state.walk.Counted :=
    counted_of_reachable normalized short
      fun state reachable _ => fits state reachable
  by_cases isEmpty : path = []
  · refine ⟨.error .noent, ?_, fun _ reachable =>
      (path_ne_nil reachable isEmpty).elim⟩
    rw [pathNormalizeAt, if_neg (not_not.mpr chosen), if_pos isEmpty]
  have begins :
      (walkMachine user mounts flags base path).Reachable
        ⟨0, PathWalk.start base path⟩ :=
    .initial ⟨isEmpty, rfl⟩
  have runs :
      pathNormalizeAt user mounts base path flags 0 =
        (PathWalk.start base path).run user mounts flags 0 := by
    rw [pathNormalizeAt, if_neg (not_not.mpr chosen), if_neg isEmpty,
      if_neg (Nat.not_le_of_lt short)]
  obtain ⟨last, reached, ends⟩ := exists_last begins
  have lastResult :
      ∃ result,
        (PathWalk.start base path).run user mounts flags 0 =
          some result := by
    rcases (fits last reached).round (counted reached) user with
      ⟨_, goesOn, _⟩ | ⟨_, expands, nonempty, _⟩ | ⟨result, stops, _⟩
    · rcases ends with expands | stops
      · cases goesOn.symm.trans expands
      · cases goesOn.symm.trans stops
    · rcases ends with expandsEmpty | stops
      · exact (nonempty
          (Round.expand.inj (expands.symm.trans expandsEmpty))).elim
      · cases expands.symm.trans stops
    · exact ⟨result, (run_of_reachable reached).symm.trans
        (WalkState.run_of_stop stops)⟩
  obtain ⟨result, isResult⟩ := lastResult
  refine ⟨result, runs.trans isResult, fun state reachable tooLong => ?_⟩
  rcases (fits state reachable).round (counted reachable) user with
    ⟨_, _, _, notLong⟩ | ⟨_, _, _, notLong⟩ | ⟨stateResult, stops, isLong⟩
  · exact (notLong tooLong).elim
  · exact (notLong tooLong).elim
  · have same :=
      (run_of_reachable reachable).symm.trans
        (WalkState.run_of_stop stops)
    rw [Option.some.inj (isResult.symm.trans same)]
    exact isLong tooLong

theorem fits_of_staysInBuffers
    (stays : StaysInBuffers user mounts flags base path)
    (reachable : (walkMachine user mounts flags base path).Reachable state) :
    RoundFits mounts flags state := by
  obtain ⟨result, isResult, tooLong⟩ := stays
  have runs :
      (PathWalk.start base path).run user mounts flags 0 = some result := by
    rw [← isResult, pathNormalizeAt, if_neg, if_neg
      (path_ne_nil reachable), if_neg (Nat.not_le_of_lt short)]
    intro notChosen
    rw [pathNormalizeAt, if_pos notChosen] at isResult
    cases isResult
  have fitsHere :
      ∀ state,
        (walkMachine user mounts flags base path).Reachable state →
        state.walk.Counted →
        RoundFits mounts flags state := by
    intro state reached counted
    by_contra unfit
    have same := (run_of_reachable reached).trans runs
    rcases run_of_unfit counted unfit user with
      leaves | ⟨isLong, code, notLong, failed⟩
    · cases leaves.symm.trans same
    · have isCode := Option.some.inj (failed.symm.trans same)
      rw [tooLong state reached isLong] at isCode
      exact notLong (Except.error.inj isCode)
  exact fitsHere state reachable
    (counted_of_reachable normalized short fitsHere reachable)

end

/--
The path walk stays in its buffers exactly when one of the two flags is chosen
and every round fits.
-/
theorem staysInBuffers_iff_rounds_fit
    (user : Credentials)
    (mounts : Mounts)
    (flags : Nat)
    (base : Option PathString)
    (path : PathString)
    (normalized : pathIsNormalized (base.getD []) = true)
    (short : (base.getD []).length < maxPath) :
    StaysInBuffers user mounts flags base path ↔
      flagsChosen flags = true ∧
        ∀ state,
          (walkMachine user mounts flags base path).Reachable state →
          RoundFits mounts flags state := by
  constructor
  · intro stays
    refine ⟨?_, fun state reachable =>
      fits_of_staysInBuffers normalized short stays reachable⟩
    obtain ⟨result, isResult, _⟩ := stays
    by_contra notChosen
    rw [pathNormalizeAt, if_pos notChosen] at isResult
    cases isResult
  · rintro ⟨chosen, fits⟩
    exact staysInBuffers_of_fits normalized short chosen fits

end

/-- A file system without symlinks, in which nothing exists. -/
def emptyMount : Mount where
  point := []
  readlink := none
  stat _ := .error .noent
  bounded _ member := by
    cases member

/-- Only the empty file system is mounted. -/
def emptyMounts : Mounts where
  list := [emptyMount]
  root := ⟨emptyMount, mem_singleton_self _, rfl⟩

/-- The superuser. -/
def superuser : Credentials where
  euid := 0
  egid := 0

/-- The empty file system has no symlink. -/
theorem emptyMounts_not_links
    {path text : PathString}
    {size : Nat} :
    ¬ emptyMounts.Links path size text := by
  rintro ⟨mount, trimmed, found, reads⟩
  have isEmpty : mount = emptyMount := by
    simp only [Mounts.findAndTrim, Mounts.find, emptyMounts,
      Option.bind_eq_bind] at found
    obtain ⟨first, isFirst, rest⟩ := Option.bind_eq_some_iff.mp found
    split at isFirst
    · have member := List.mem_of_find?_eq_some isFirst
      rw [mem_singleton] at member
      split at rest
      · cases rest
        exact member
      · cases rest
    · cases isFirst
  rw [isEmpty] at reads
  cases reads

/-- The rounds of `b/.` at the base `/a` of the empty file system. -/
def shortRounds : List WalkState :=
  [⟨0, PathWalk.start (some [slash, 97]) [98, slash, dot]⟩,
    ⟨0, ⟨some slash, [dot], [slash, 97, slash, 98], 4091⟩⟩,
    ⟨0, ⟨some dot, [], [slash, 97, slash, 98], 4091⟩⟩]

/-- The walk of `b/.` at the base `/a` stays in its buffers. -/
theorem short_path_stays_in_buffers :
    StaysInBuffers superuser emptyMounts 1 (some [slash, 97])
      [98, slash, dot] := by
  refine (staysInBuffers_iff_rounds_fit superuser emptyMounts 1
    (some [slash, 97]) [98, slash, dot] (by decide) (by decide)).mpr
    ⟨by decide, fun state reachable => ?_⟩
  have member : state ∈ shortRounds := by
    refine Machine.Reachable.invariant
      (motive := fun state => state ∈ shortRounds) ?_ ?_ reachable
    · rintro state ⟨_, rfl⟩
      exact mem_cons_self
    · rintro state round next member ⟨rounds, follows⟩
      simp only [shortRounds, mem_cons, not_mem_nil,
        or_false] at member
      rcases member with rfl | rfl | rfl
      · cases rounds.symm.trans (show _ = Round.next
          ⟨some slash, [dot], [slash, 97, slash, 98], 4091⟩ from rfl)
        rw [show next = _ from follows]
        exact mem_cons_of_mem _ mem_cons_self
      · cases rounds.symm.trans (show _ = Round.next
          ⟨some dot, [], [slash, 97, slash, 98], 4091⟩ from rfl)
        rw [show next = _ from follows]
        exact mem_cons_of_mem _
          (mem_cons_of_mem _ mem_cons_self)
      · cases rounds.symm.trans (show _ = Round.stop
          (some (.ok [slash, 97, slash, 98])) from rfl)
        exact follows.elim
  simp only [shortRounds, mem_cons, not_mem_nil,
    or_false] at member
  rcases member with rfl | rfl | rfl
  · exact ⟨fun _ => by decide, fun _ _ => by decide,
      fun _ _ _ _ _ links => (emptyMounts_not_links links).elim⟩
  · have isDot : ¬ PathWalk.Copies
        ⟨some slash, [dot], [slash, 97, slash, 98], 4091⟩ :=
      fun copies => copies.2.1 rfl
    exact ⟨fun copies => (isDot copies).elim,
      fun copies => (isDot copies).elim, fun copies => (isDot copies).elim⟩
  · have ends : ¬ PathWalk.Copies
        ⟨some dot, [], [slash, 97, slash, 98], 4091⟩ :=
      fun copies => copies.1 rfl
    exact ⟨fun copies => (ends copies).elim,
      fun copies => (ends copies).elim, fun copies => (ends copies).elim⟩

/-- A normalized base of 4095 bytes. -/
def fullBase : PathString :=
  slash :: List.replicate 4094 97

/--
With a base of 4095 bytes the walk puts its slash in the last byte of the
buffer and the terminator after it, whatever the path says.
-/
theorem full_base_leaves_buffer :
    pathIsNormalized fullBase = true ∧ fullBase.length < maxPath ∧
      flagsChosen 1 = true ∧
      pathNormalizeAt superuser emptyMounts (some fullBase) [98] 1 0 =
          none ∧
        ¬ StaysInBuffers superuser emptyMounts 1 (some fullBase) [98] := by
  have length : fullBase.length = 4095 := by
    rw [fullBase, length_cons, length_replicate]
  have notRoot : fullBase ≠ [slash] := by
    intro isRoot
    rw [isRoot] at length
    cases length
  have normalized : pathIsNormalized fullBase = true := by
    have slashFree : slash ∉ List.replicate 4094 (97 : UInt8) := by
      intro member
      exact absurd (eq_of_mem_replicate member) (by decide)
    exact (@pathIsNormalized_append [] _ slashFree).mpr
      ⟨rfl, by simp⟩
  have start :
      PathWalk.start (some fullBase) [98] = ⟨none, [98], fullBase, 0⟩ := by
    simp only [PathWalk.start, notRoot, ↓reduceIte, length]
    rfl
  have leaves :
      pathNormalizeAt superuser emptyMounts (some fullBase) [98] 1 0 =
        none := by
    rw [pathNormalizeAt, if_neg (by decide), if_neg (by decide),
      if_neg (by rw [Option.getD_some, length]; decide), start]
    refine @WalkState.run_of_stop superuser emptyMounts 1
      ⟨0, ⟨none, [98], fullBase, 0⟩⟩ none ?_
    have copies :
        (⟨none, [98], fullBase, 0⟩ : PathWalk).Copies := by
      refine ⟨?_, ?_, ?_⟩ <;> decide
    rw [copies.round, PathWalk.component_stuck (by rw [length]; decide)
      (by decide) (by decide) (by decide), PathWalk.resolve, if_pos]
    rw [length_append, length]
    decide
  refine ⟨normalized, by rw [length]; decide, by decide, leaves, ?_⟩
  rintro ⟨result, isResult, _⟩
  cases leaves.symm.trans isResult

end GuestKernel
