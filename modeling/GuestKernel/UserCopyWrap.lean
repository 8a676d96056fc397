import GuestKernel.UserCopy

namespace GuestKernel
open List Option
open UserCopy

/-!
# Copies that reach the last page

When the bound lies in or beyond the last page, the cursor is below it for
ever: the end of the last chunk wraps to 0 and the loop goes on at address 0.
Such a call returns only at a page that is not accessible.
-/

variable
  {host : Host}
  {replies : PageReplies}
  {call : UserCopy}
  {w : World}
  {buffer : Nat → UInt8}
  {state next last : CopyState}
  {result : Nat}

theorem UserCopy.step_unique :
    Relator.RightUnique (call.Step host replies) := by
  intro state first second isFirst isSecond
  cases isFirst.symm.trans isSecond
  rfl

theorem UserCopy.Returns.of_reaches
    (returns : call.Returns host replies state result last)
    (reaches : call.Reaches host replies state next) :
    call.Returns host replies next result last := by
  obtain ⟨before, toBefore, round⟩ := returns
  rcases Relation.ReflTransGen.total_of_right_unique step_unique
      reaches toBefore with later | earlier
  · exact ⟨before, later, round⟩
  · rcases earlier.cases_head with rfl | ⟨after, step, _⟩
    · exact ⟨before, .refl, round⟩
    · cases round.symm.trans step

variable {other start : Nat} {otherLast : CopyState}

theorem UserCopy.Returns.unique
    (round :
      call.round host replies state = some (.returned result last))
    (returns : call.Returns host replies state other otherLast) :
    other = result ∧ otherLast = last := by
  obtain ⟨before, toBefore, otherRound⟩ := returns
  rcases toBefore.cases_head with rfl | ⟨after, step, _⟩
  · cases round.symm.trans otherRound
    exact ⟨rfl, rfl⟩
  · cases round.symm.trans step

/-- What a round can do to the cursor and the chunks. -/
theorem UserCopy.round_cases
    {progress : CopyProgress}
    (round : call.round host replies state = some progress) :
    (¬state.p < call.bound ∧ progress = .returned 0 state) ∨
      state.p < call.bound ∧
        ((∃ address,
            memPtrRound state.world call.m state.p call.direction.access
                false = some (.pointer address) ∧
              progress = .running (call.copyChunk state address)) ∨
          (∃ world,
            progress = .returned 1 { state with world := world }) ∨
            ∃ world,
              memPtrRound state.world call.m state.p call.direction.access
                  false = some .resolve ∧
                memResolveFault host state.world call.m (page state.p)
                    call.direction.access false
                    (replies.grow (page state.p))
                    (replies.copy (page state.p)) =
                  some (.ok (), world) ∧
                  progress = .running { state with world := world }) := by
  unfold UserCopy.round at round
  split at round
  case isFalse notBelow =>
    cases round
    exact .inl ⟨notBelow, rfl⟩
  case isTrue below =>
    refine .inr ⟨below, ?_⟩
    obtain ⟨answer, isAnswer, rest⟩ := bind_eq_some_iff.mp round
    cases answer with
    | pointer address =>
      cases rest
      exact .inl ⟨address, isAnswer, rfl⟩
    | null =>
      cases rest
      exact .inr (.inl ⟨state.world, rfl⟩)
    | resolve =>
      obtain ⟨⟨outcome, world⟩, resolved, rest⟩ :=
        bind_eq_some_iff.mp rest
      cases outcome with
      | error code =>
        cases rest
        exact .inr (.inl ⟨world, rfl⟩)
      | ok =>
        cases rest
        exact .inr (.inr ⟨world, isAnswer, resolved, rfl⟩)

theorem UserCopy.Returns.reaches_of_zero
    (returns : call.Returns host replies state 0 last) :
    call.Reaches host replies state last := by
  obtain ⟨before, toBefore, round⟩ := returns
  rcases call.round_cases round with ⟨_, isReturn⟩ |
    ⟨_, ⟨_, _, isNext⟩ | ⟨_, isReturn⟩ | ⟨_, _, _, isNext⟩⟩
  · cases isReturn
    exact toBefore
  · cases isNext
  · cases isReturn
  · cases isNext

/-- A round of a well-kept state keeps it so. -/
theorem CopyBase.step
    (base : CopyBase host replies call w state)
    (honest : call.HonestAt host replies state)
    (step : call.Step host replies state next) :
    CopyBase host replies call w next := by
  have inside := page_lt base.small
  rcases call.round_cases step with ⟨_, isReturn⟩ |
    ⟨below, ⟨address, _, isNext⟩ | ⟨_, isReturn⟩ |
      ⟨world, isFault, resolved, isNext⟩⟩
  · cases isReturn
  · cases isNext
    exact base.copyChunk address
  · cases isReturn
  · cases isNext
    have notPtrace : call.direction.access ≠ .writePtrace := by
      cases call.direction <;> decide
    have notUsable :
        ¬Usable state.world call.m call.direction.access (page state.p) := by
      intro usable
      obtain ⟨_, _, round⟩ := usable.memPtrRound base.kept inside notPtrace
      cases isFault.symm.trans round
    have notReadOnly :
        ∀ {entry},
          state.world.lookup call.m (page state.p) = some entry →
          hasFlag entry.flags pWrite = true := by
      intro entry found
      refine Bool.of_not_eq_false fun readOnly => ?_
      have isWrite : call.direction.access = .write := by
        cases direction : call.direction with
        | write => rfl
        | read =>
          rw [direction] at notUsable
          exact absurd ⟨entry, found, .inl rfl⟩ notUsable
      rw [isWrite] at isFault
      cases isFault.symm.trans (memPtrRound_readOnly inside found readOnly)
    obtain ⟨_, _, again, outcome⟩ :=
      resolveFault_spec base.kept base.inMm inside (honest below notUsable)
        notUsable notReadOnly
    cases resolved.symm.trans again
    rcases outcome with ⟨_, _, fault⟩ | ⟨⟨_, failed⟩, _⟩
    · exact ⟨fault.kept, fault.mmCount.symm ▸ base.inMm, base.small,
        fun access other =>
          (fault.stays access other).trans (base.stays access other)⟩
    · cases failed

theorem chunkEnd_high
    {p bound : Nat}
    (high : 0xfffff000 < bound) :
    chunkEnd p bound = (page p + 1) * pageSize % 2 ^ 32 ∧
      chunkEnd p bound ≤ 0xfffff000 := by
  have ends : (page p + 1) * pageSize % 2 ^ 32 ≤ 0xfffff000 := by
    simp only [pageSize]
    omega
  unfold chunkEnd
  dsimp only
  rw [if_neg (by omega)]
  exact ⟨rfl, ends⟩

/-- What every reached state of a call with a high bound has. -/
structure CopyHigh
    (host : Host) (replies : PageReplies) (call : UserCopy) (w : World)
    (buffer : Nat → UInt8) : Prop where
  noWrap : call.addr + call.count = call.bound
  nonempty : call.addr < call.bound
  high : 0xfffff000 < call.bound
  started : CopyBase host replies call w (call.start w buffer)
  honest :
    ∀ state,
      call.Reaches host replies (call.start w buffer) state →
      call.HonestAt host replies state

section

variable (holds : CopyHigh host replies call w buffer)
include holds

/-- The books are kept, and the cursor never gets to the bound. -/
theorem CopyHigh.reached
    (reached : call.Reaches host replies (call.start w buffer) state) :
    CopyBase host replies call w state ∧ state.p < call.bound := by
  induction reached with
  | refl => exact ⟨holds.started, holds.nonempty⟩
  | tail earlier step inductionHypothesis =>
    rename_i before after
    obtain ⟨base, below⟩ := inductionHypothesis
    refine ⟨base.step (holds.honest before earlier) step, ?_⟩
    rcases call.round_cases step with ⟨_, isReturn⟩ |
      ⟨_, ⟨address, _, isNext⟩ | ⟨_, isReturn⟩ | ⟨_, _, _, isNext⟩⟩
    · cases isReturn
    · cases isNext
      exact Nat.lt_of_le_of_lt (chunkEnd_high holds.high).2 holds.high
    · cases isReturn
    · cases isNext
      exact below

theorem CopyHigh.returns_one
    (returns :
      call.Returns host replies (call.start w buffer) result last) :
    result = 1 := by
  obtain ⟨before, toBefore, round⟩ := returns
  rcases call.round_cases round with ⟨notBelow, _⟩ | ⟨_, ⟨_, _, isNext⟩ |
    ⟨_, isReturn⟩ | ⟨_, _, _, isNext⟩⟩
  · exact absurd (holds.reached toBefore).2 notBelow
  · cases isNext
  · cases isReturn
    rfl
  · cases isNext

/-- Nor does it return at all if every page is accessible. -/
theorem CopyHigh.runs_forever
    (all :
      ∀ other,
        other < memPages →
        Accessible host w call.m call.direction.access replies other)
    (returns :
      call.Returns host replies (call.start w buffer) result last) :
    False := by
  obtain ⟨before, toBefore, round⟩ := returns
  obtain ⟨base, below⟩ := holds.reached toBefore
  rcases visit base below (holds.honest before toBefore) with
    ⟨_, _, _, _, _, _, _, reaches⟩ | ⟨inaccessible, _⟩
  · obtain ⟨_, step, _⟩ := Relation.TransGen.head'_iff.mp reaches
    cases round.symm.trans step
  · exact inaccessible (all _ (page_lt base.small))

/--
The state at a later page: the chunks since lie below its cursor, and if it
moved at all, one of them ends there.
-/
structure Climbed
    (host : Host) (replies : PageReplies) (call : UserCopy)
    (state next : CopyState) (top : Nat) : Prop where
  reaches : call.Reaches host replies state next
  atPage : page next.p = top
  forward : state.p ≤ next.p
  moved :
    next = state ∨
      next.p = top * pageSize ∧
        ∃ start,
          state.p ≤ start ∧ start < next.p ∧
            (call.offset start, next.p - start) ∈ next.touched
  chunks :
    ∀ chunk ∈ next.touched,
      chunk ∈ state.touched ∨
        ∃ start stop,
          state.p ≤ start ∧ start < stop ∧ stop ≤ next.p ∧
            chunk = (call.offset start, stop - start)

/-- Pages that are accessible are copied one after the other. -/
theorem CopyHigh.climb
    {top : Nat}
    (reached : call.Reaches host replies (call.start w buffer) state)
    (ordered : page state.p ≤ top)
    (inside : top < memPages)
    (accessible :
      ∀ other,
        page state.p ≤ other → other < top →
        Accessible host w call.m call.direction.access replies other) :
    ∃ next, Climbed host replies call state next top := by
  have limit := memPages_eq
  induction top, ordered using Nat.le_induction with
  | base =>
    exact ⟨state, .refl, rfl, Nat.le_refl _, .inl rfl,
      fun _ member => .inl member⟩
  | succ top ordered inductionHypothesis =>
    obtain ⟨next, climbed⟩ :=
      inductionHypothesis (by omega) fun other after before =>
        accessible other after (by omega)
    have reachedNext := reached.trans climbed.reaches
    obtain ⟨base, below⟩ := holds.reached reachedNext
    have canCopy := accessible top ordered (Nat.lt_succ_self top)
    rcases visit base below (holds.honest next reachedNext) with
      ⟨_, world, address, _, _, _, _, reaches⟩ | ⟨inaccessible, _⟩
    case inr => exact absurd (climbed.atPage.symm ▸ canCopy) inaccessible
    have isEnd : chunkEnd next.p call.bound = (top + 1) * pageSize := by
      rw [(chunkEnd_high holds.high).1, climbed.atPage]
      simp only [pageSize]
      omega
    have inPage : next.p < (top + 1) * pageSize := by
      have atPage := climbed.atPage
      simp only [page, pageSize] at *
      omega
    have length : call.length next.p = (top + 1) * pageSize - next.p := by
      unfold UserCopy.length
      rw [isEnd]
      simp only [pageSize] at *
      omega
    have afterTouched :
        (call.copyChunk { next with world := world } address).touched =
          next.touched ++
            [(call.offset next.p, (top + 1) * pageSize - next.p)] := by
      rw [← length]
      rfl
    have afterP :
        (call.copyChunk { next with world := world } address).p =
          (top + 1) * pageSize :=
      isEnd
    have forward := climbed.forward
    generalize call.copyChunk { next with world := world } address = after
      at reaches afterTouched afterP
    refine ⟨after, climbed.reaches.trans reaches.to_reflTransGen, ?_,
      by omega, .inr ⟨afterP, next.p, forward, by omega, ?_⟩, ?_⟩
    · rw [afterP, page, Nat.mul_div_cancel _ (by decide)]
    · rw [afterP, afterTouched]
      exact mem_append_right _ (mem_singleton.mpr rfl)
    · intro chunk member
      rw [afterTouched] at member
      rcases mem_append.mp member with earlier | isLast
      · refine (climbed.chunks chunk earlier).imp id ?_
        rintro ⟨start, stop, after, ordered, before, shape⟩
        exact ⟨start, stop, after, ordered, by omega, shape⟩
      · refine .inr ⟨next.p, _, forward, inPage, by omega, ?_⟩
        exact mem_singleton.mp isLast

end

theorem UserCopy.offset_above
    {stop : Nat}
    (above : call.addr ≤ start)
    (ordered : start < stop)
    (small : stop ≤ 2 ^ 32) :
    call.offset start + (stop - start) = stop - call.addr := by
  unfold offset
  omega

theorem UserCopy.offset_below
    {stop : Nat}
    (small : call.addr < 2 ^ 32)
    (ordered : start < stop)
    (below : stop ≤ call.addr) :
    call.offset start + (stop - start) = 2 ^ 32 - call.addr + stop := by
  unfold offset
  omega

/-- The first page that is not accessible ends the call before the wrap. -/
theorem CopyHigh.returns_before_wrap
    (holds : CopyHigh host replies call w buffer)
    (above : page call.addr ≤ other)
    (inside : other < memPages)
    (inaccessible :
      ¬Accessible host w call.m call.direction.access replies other)
    (first :
      ∀ below,
        page call.addr ≤ below → below < other →
        Accessible host w call.m call.direction.access replies below) :
    ∃ last,
      call.Returns host replies (call.start w buffer) 1 last ∧
        ∀ chunk ∈ last.touched, chunk.1 + chunk.2 ≤ call.count := by
  obtain ⟨next, climbed⟩ := holds.climb .refl above inside first
  obtain ⟨base, below⟩ := holds.reached climbed.reaches
  rcases visit base below (holds.honest next climbed.reaches) with
    ⟨accessible, _⟩ | ⟨_, last, returns, touched, _⟩
  · exact absurd (climbed.atPage ▸ accessible) inaccessible
  refine ⟨last, returns.after climbed.reaches, ?_⟩
  intro chunk member
  rw [touched] at member
  rcases climbed.chunks chunk member with isOld |
    ⟨start, stop, after, ordered, before, rfl⟩
  · cases isOld
  · have ends := offset_above after ordered
      (Nat.le_of_lt (Nat.lt_of_le_of_lt before base.small))
    have noWrap := holds.noWrap
    omega

/-- If there is none, the cursor gets to 0. -/
theorem CopyHigh.wraps
    (holds : CopyHigh host replies call w buffer)
    (small : call.addr < 2 ^ 32)
    (accessible :
      ∀ other,
        page call.addr ≤ other → other < memPages →
        Accessible host w call.m call.direction.access replies other) :
    ∃ next,
      call.Reaches host replies (call.start w buffer) next ∧
        next.p = 0 ∧
        ∀ chunk ∈ next.touched,
          chunk.1 + chunk.2 ≤ 2 ^ 32 - call.addr := by
  have limit := memPages_eq
  have inside := page_lt small
  obtain ⟨top, climbed⟩ :=
    holds.climb .refl (show page call.addr ≤ 0xfffff by omega) (by decide)
      fun other after before => accessible other after (by omega)
  obtain ⟨base, below⟩ := holds.reached climbed.reaches
  have canCopy := accessible 0xfffff (by omega) (by decide)
  rcases visit base below (holds.honest top climbed.reaches) with
    ⟨_, world, address, _, _, _, _, reaches⟩ | ⟨inaccessible, _⟩
  case inr => exact absurd (climbed.atPage.symm ▸ canCopy) inaccessible
  have isEnd : chunkEnd top.p call.bound = 0 := by
    rw [(chunkEnd_high holds.high).1, climbed.atPage]
    decide
  have atPage := climbed.atPage
  have topSmall := base.small
  have length : call.length top.p = 2 ^ 32 - top.p := by
    unfold UserCopy.length
    rw [isEnd]
    simp only [page, pageSize] at *
    omega
  refine ⟨_, climbed.reaches.trans reaches.to_reflTransGen, isEnd, ?_⟩
  intro chunk member
  rcases mem_append.mp member with earlier | isLast
  · rcases climbed.chunks chunk earlier with isOld |
      ⟨start, stop, after, ordered, before, rfl⟩
    · cases isOld
    · have ends := offset_above after ordered (by omega)
      omega
  · cases mem_singleton.mp isLast
    have ends := offset_above climbed.forward topSmall
      (Nat.le_refl _)
    show call.offset top.p + call.length top.p ≤ 2 ^ 32 - call.addr
    rw [length]
    exact Nat.le_of_eq ends

/-- The first page that is not accessible then ends the call. -/
theorem CopyHigh.returns_after_wrap
    (holds : CopyHigh host replies call w buffer)
    (small : call.addr < 2 ^ 32)
    (long : 2 ^ 32 < call.bound)
    (accessible :
      ∀ other,
        page call.addr ≤ other → other < memPages →
        Accessible host w call.m call.direction.access replies other)
    (inside : other < memPages)
    (inaccessible :
      ¬Accessible host w call.m call.direction.access replies other)
    (first :
      ∀ below,
        below < other →
        Accessible host w call.m call.direction.access replies below) :
    ∃ last,
      call.Returns host replies (call.start w buffer) 1 last ∧
        ((∀ chunk ∈ last.touched, chunk.1 + chunk.2 ≤ call.count) ↔
          2 ^ 32 + other * pageSize ≤ call.bound) := by
  have noWrap := holds.noWrap
  obtain ⟨wrapped, toWrapped, atZero, wrappedTouched⟩ :=
    holds.wraps small accessible
  obtain ⟨next, climbed⟩ :=
    holds.climb toWrapped
      (show page wrapped.p ≤ other by rw [atZero]; exact Nat.zero_le _)
      inside fun below _ before => first below before
  have toNext := toWrapped.trans climbed.reaches
  obtain ⟨base, below⟩ := holds.reached toNext
  have isBelow : other < page call.addr := by
    by_contra above
    exact inaccessible (accessible other (Nat.le_of_not_lt above) inside)
  have beforeStart : other * pageSize ≤ call.addr := by
    simp only [page, pageSize] at *
    omega
  rcases visit base below (holds.honest next toNext) with
    ⟨isAccessible, _⟩ | ⟨_, last, returns, touched, _⟩
  · exact absurd (climbed.atPage ▸ isAccessible) inaccessible
  have isStart : next.p = other * pageSize := by
    rcases climbed.moved with rfl | ⟨isStart, _⟩
    · have isZero := climbed.atPage
      rw [atZero] at isZero
      rw [atZero, ← isZero]
      rfl
    · exact isStart
  refine ⟨last, returns.after toNext, ?_, ?_⟩
  · intro fits
    rcases climbed.moved with rfl | ⟨_, start, after, ordered, member⟩
    · omega
    · have ends := offset_below small ordered
        (isStart ▸ beforeStart)
      have fit := fits _ (touched ▸ member)
      dsimp only at fit
      omega
  · intro ends chunk member
    rw [touched] at member
    rcases climbed.chunks chunk member with earlier |
      ⟨start, stop, after, ordered, before, rfl⟩
    · have fit := wrappedTouched chunk earlier
      omega
    · have fit := offset_below small ordered
        (Nat.le_trans before (isStart ▸ beforeStart))
      dsimp only
      omega

theorem UserCopy.returns_at_once
    (notBelow : ¬call.addr < call.bound) :
    call.round host replies (call.start w buffer) =
      some (.returned 0 (call.start w buffer)) :=
  if_neg notBelow

theorem UserCopy.allAccessible_iff
    (noWrap : call.addr + call.count = call.bound)
    (low : call.bound ≤ 2 ^ 32) :
    call.AllAccessible host replies w ↔
      ∀ addr,
        call.addr ≤ addr → addr < call.bound →
        Accessible host w call.m call.direction.access replies
          (page addr) := by
  constructor
  · intro all addr after before
    have isIndex : call.addr + (addr - call.addr) = addr := by omega
    exact isIndex ▸ (all (addr - call.addr) (by omega)).2
  · intro all index below
    exact ⟨by omega, all _ (Nat.le_add_right _ _) (by omega)⟩

theorem UserCopy.Returns.unique_last
    (returns : call.Returns host replies state result last)
    (otherReturns : call.Returns host replies state other otherLast) :
    other = result ∧ otherLast = last := by
  obtain ⟨before, toBefore, round⟩ := returns
  exact UserCopy.Returns.unique round (otherReturns.of_reaches toBefore)

/-- The first page that is not accessible, from some page on. -/
theorem exists_first_inaccessible
    (refused :
      ∃ other,
        start ≤ other ∧ other < memPages ∧
          ¬Accessible host w call.m call.direction.access replies other) :
    ∃ first,
      (start ≤ first ∧ first < memPages ∧
        ¬Accessible host w call.m call.direction.access replies first) ∧
        ∀ below,
          start ≤ below → below < first →
          Accessible host w call.m call.direction.access replies
            below := by
  classical
  refine ⟨Nat.find refused, Nat.find_spec refused, ?_⟩
  intro below after before
  by_contra inaccessible
  exact Nat.find_min refused before
    ⟨after, Nat.lt_trans before (Nat.find_spec refused).2.1, inaccessible⟩

/-- A call whose bound lies in or beyond the last page. -/
theorem CopyHigh.correct_iff
    (holds : CopyHigh host replies call w buffer)
    (small : call.addr < 2 ^ 32) :
    call.Correct host replies w buffer ↔
      (∃ other,
        page call.addr ≤ other ∧ other < memPages ∧
          ¬Accessible host w call.m call.direction.access replies other) ∨
        2 ^ 32 < call.bound ∧
          ∃ other,
            2 ^ 32 + other * pageSize ≤ call.bound ∧
              other < memPages ∧
              ¬Accessible host w call.m call.direction.access replies
                other ∧
              ∀ below,
                below < other →
                Accessible host w call.m call.direction.access replies
                  below := by
  have limit := memPages_eq
  have noWrap := holds.noWrap
  have high := holds.high
  have nonempty := holds.nonempty
  by_cases refused :
      ∃ other,
        page call.addr ≤ other ∧ other < memPages ∧
          ¬Accessible host w call.m call.direction.access replies other
  · refine iff_of_true ?_ (.inl refused)
    obtain ⟨other, ⟨above, inside, inaccessible⟩, first⟩ :=
      exists_first_inaccessible refused
    obtain ⟨last, returns, touched⟩ :=
      holds.returns_before_wrap above inside inaccessible first
    refine ⟨1, last, returns, ?_, fun isZero => absurd isZero Nat.one_ne_zero,
      touched⟩
    refine iff_of_false Nat.one_ne_zero fun all => inaccessible ?_
    -- the first byte of the range in that page
    have isAddr :
        call.addr + (max call.addr (other * pageSize) - call.addr) =
          max call.addr (other * pageSize) := by
      omega
    have isPage : page (max call.addr (other * pageSize)) = other := by
      simp only [page, pageSize] at *
      omega
    have inRange :
        max call.addr (other * pageSize) - call.addr < call.count := by
      simp only [pageSize] at *
      omega
    have isAccessible := (all _ inRange).2
    rw [isAddr, isPage] at isAccessible
    exact isAccessible
  have accessible :
      ∀ other,
        page call.addr ≤ other → other < memPages →
        Accessible host w call.m call.direction.access replies other := by
    intro other above inside
    by_contra inaccessible
    exact refused ⟨other, above, inside, inaccessible⟩
  rw [or_iff_right refused]
  by_cases long : 2 ^ 32 < call.bound
  case neg =>
    refine iff_of_false ?_ fun both => long both.1
    rintro ⟨result, last, returns, isZero, _⟩
    have all : call.AllAccessible host replies w := by
      refine (allAccessible_iff noWrap (Nat.le_of_not_lt long)).mpr ?_
      intro addr after before
      exact accessible _ (Nat.div_le_div_right after) (page_lt (by omega))
    cases (holds.returns_one returns).symm.trans (isZero.mpr all)
  case pos =>
    rw [and_iff_right long]
    have notAll : ¬call.AllAccessible host replies w := by
      intro all
      have inRange := (all (2 ^ 32 - call.addr) (by omega)).1
      omega
    by_cases hasGap :
        ∃ other,
          0 ≤ other ∧ other < memPages ∧
            ¬Accessible host w call.m call.direction.access replies other
    · obtain ⟨other, ⟨_, inside, inaccessible⟩, first⟩ :=
        exists_first_inaccessible hasGap
      obtain ⟨last, returns, touched⟩ :=
        holds.returns_after_wrap small long accessible inside inaccessible
          fun below => first below (Nat.zero_le _)
      constructor
      · rintro ⟨result, otherLast, otherReturns, _, _, fits⟩
        obtain ⟨_, rfl⟩ := returns.unique_last otherReturns
        exact ⟨other, touched.mp fits, inside, inaccessible,
          fun below => first below (Nat.zero_le _)⟩
      · rintro ⟨least, ends, _, isRefused, leastFirst⟩
        have same : least = other := by
          rcases Nat.lt_trichotomy least other with below | same | above
          · exact absurd (first least (Nat.zero_le _) below) isRefused
          · exact same
          · exact absurd (leastFirst other above) inaccessible
        refine ⟨1, last, returns, iff_of_false Nat.one_ne_zero notAll,
          fun isZero => absurd isZero Nat.one_ne_zero, touched.mpr ?_⟩
        exact same ▸ ends
    · have all :
          ∀ other,
            other < memPages →
            Accessible host w call.m call.direction.access replies
              other := by
        intro other inside
        by_contra inaccessible
        exact hasGap ⟨other, Nat.zero_le _, inside, inaccessible⟩
      refine iff_of_false ?_ ?_
      · rintro ⟨result, last, returns, _⟩
        exact holds.runs_forever all returns
      · rintro ⟨other, _, inside, inaccessible, _⟩
        exact inaccessible (all other inside)

/--
`user_read_task` and `user_write_task` do what they have to exactly if the
range is empty; or does not wrap and ends below the last page, or meets a page
that is not accessible before the cursor wraps, or before the buffer ends.
-/
theorem userCopy_correct_iff
    (kept : WellKept w)
    (inMm : call.m < w.mmCount)
    (small : call.addr < 2 ^ 32)
    (fits : call.count < 2 ^ 64)
    (honest :
      ∀ state,
        call.Reaches host replies (call.start w buffer) state →
        call.HonestAt host replies state) :
    call.Correct host replies w buffer ↔
      call.EndsBelowLastPage host replies w := by
  have base : CopyBase host replies call w (call.start w buffer) :=
    ⟨kept, inMm, small, fun _ _ => Iff.rfl⟩
  unfold UserCopy.EndsBelowLastPage
  by_cases isEmpty : call.count = 0
  · refine iff_of_true ?_ (.inl isEmpty)
    have atEnd : ¬call.addr < call.bound := by
      unfold UserCopy.bound
      omega
    refine ⟨0, _, ⟨_, .refl, returns_at_once atEnd⟩, ?_, ?_, ?_⟩
    · refine iff_of_true rfl fun index below => ?_
      omega
    · rw [isEmpty]
      exact fun _ => .start call w buffer
    · intro chunk member
      cases member
  rw [or_iff_right isEmpty]
  by_cases wraps : call.addr + call.count < 2 ^ 64
  case neg =>
    refine iff_of_false ?_ fun both => wraps both.1
    have atEnd : ¬call.addr < call.bound := by
      unfold UserCopy.bound
      omega
    rintro ⟨result, last, returns, isZero, _⟩
    obtain ⟨rfl, _⟩ :=
      UserCopy.Returns.unique (returns_at_once atEnd) returns
    have inRange := (isZero.mp rfl (2 ^ 32 - call.addr) (by omega)).1
    omega
  case pos =>
    rw [and_iff_right wraps]
    have noWrap : call.addr + call.count = call.bound :=
      (Nat.mod_eq_of_lt wraps).symm
    rw [noWrap]
    by_cases low : call.bound ≤ 0xfffff000
    · refine iff_of_true ?_ (.inl low)
      obtain ⟨result, last, returns, isZero, copied, touched⟩ :=
        returns_low noWrap low honest (call.start w buffer) .refl
          ⟨base, Nat.le_refl _, (Nat.sub_self call.addr).symm ▸
            .start call w buffer, fun _ member => by cases member⟩
          (by rw [← noWrap]; exact Nat.le_add_right _ _)
      exact ⟨result, last, returns,
        isZero.trans (allAccessible_iff noWrap (by omega)).symm,
        copied, touched⟩
    · rw [or_iff_right low]
      exact CopyHigh.correct_iff
        ⟨noWrap, by omega, Nat.lt_of_not_le low, base, honest⟩ small

/-- A host without memory. -/
def refuseReplies : PageReplies where
  grow _ := refuseMemory
  copy _ := refuseMemory

theorem refuseReplies_honest
    (host : Host) (w : World) (page : Nat) :
    refuseReplies.Honest host w page where
  growFresh replied := by cases replied
  copyFresh replied := by cases replied
  apart replied := by cases replied
  growAligned replied := by cases replied
  copyAligned replied := by cases replied

/-- Four bytes of a private page, through the theorem. -/
theorem userRead_of_one_page_correct :
    ∃ w record,
      OnePage w record ∧
        (userReadTask 0 0x50000000 4).Correct plainHost refuseReplies w
          fun _ => 0 := by
  obtain ⟨w, record, one, kept, _⟩ := exists_onePage_wellKept
  have inMm := one.inMm
  refine ⟨w, record, one, ?_⟩
  exact (@userCopy_correct_iff plainHost refuseReplies
    (userReadTask 0 0x50000000 4) w (fun _ => 0) kept inMm (by decide)
    (by decide) fun _ _ _ _ => refuseReplies_honest ..).mpr
      (.inr ⟨by decide, .inl (by decide)⟩)

/-- A new program with nothing but the last page of its address space. -/
private theorem exists_lastPage :
    ∃ w,
      WellKept w ∧ 0 < w.mmCount ∧ w.lookup 0 0xfffff ≠ none := by
  have reachable : (memoryMachine plainHost).Reachable (mmNew World.empty) :=
    .step (.initial rfl) ⟨fun absent => absurd rfl absent, trivial, rfl⟩
  have kept := wellKept_of_reachable reachable rfl
  have granted : (grantMemory 8192).Grants plainHost :=
    ⟨rfl, 8192, rfl, .inl (by decide)⟩
  obtain ⟨w, mapped⟩ :=
    @ptMapNothing_onePage_isSome plainHost _ 0 0xfffff kept (by decide) _
      granted pWrite
  have fresh :
      (grantMemory 8192).Fresh (mmNew World.empty)
        (1 * pageSize % 2 ^ 32) := by
    intro memory replied
    cases replied
    exact ⟨by decide, fun live => by cases live⟩
  have keptNext :=
    (kept.ptMapNothing Nat.one_pos (by decide) fresh (fun _ _ => rfl)
      mapped).1
  have records := ptMapNothing_records mapped
  refine ⟨w, keptNext, records.mmCount.symm ▸ Nat.one_pos, ?_⟩
  rcases ptMapNothing_onePage (by decide) mapped with
    ⟨⟨_, failed⟩, _⟩ | ⟨_, _, ⟨entry, found, _⟩, _⟩
  · cases failed
  · rw [found]
    exact some_ne_none _

/--
Reading the last four bytes of the address space fails, although all of them
can be read: the loop goes on at address 0.
-/
theorem userRead_of_last_bytes_incorrect :
    ∃ w,
      WellKept w ∧ 0 < w.mmCount ∧
        (userReadTask 0 0xfffffffc 4).AllAccessible plainHost refuseReplies
            w ∧
          ¬(userReadTask 0 0xfffffffc 4).Correct plainHost refuseReplies w
            fun _ => 0 := by
  obtain ⟨w, kept, inMm, mapped⟩ := exists_lastPage
  have accessible :
      ∀ other,
        0xfffff ≤ other → other < memPages →
        Accessible plainHost w 0 .read refuseReplies other := by
    intro other above inside
    have limit := memPages_eq
    have isLast : other = 0xfffff := by omega
    obtain ⟨entry, found⟩ := ne_none_iff_exists'.mp mapped
    rw [isLast, Accessible, found]
    exact .inl rfl
  have high :
      CopyHigh plainHost refuseReplies (userReadTask 0 0xfffffffc 4) w
        fun _ => 0 :=
    ⟨rfl, by decide, by decide,
      ⟨kept, inMm, show 0xfffffffc < 2 ^ 32 by decide, fun _ _ => Iff.rfl⟩,
      fun _ _ _ _ => refuseReplies_honest ..⟩
  refine ⟨w, kept, inMm, ?_, ?_⟩
  · refine (allAccessible_iff high.noWrap (by decide)).mpr ?_
    intro addr after before
    have above : page 0xfffffffc ≤ page addr := Nat.div_le_div_right after
    exact accessible _ above (page_lt before)
  · rw [high.correct_iff (by decide)]
    rintro (⟨other, above, inside, inaccessible⟩ | ⟨long, _⟩)
    · exact inaccessible (accessible other above inside)
    · exact absurd long (by decide)

end GuestKernel
