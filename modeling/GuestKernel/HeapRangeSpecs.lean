import GuestKernel.CallRangeSpecs

namespace GuestKernel
open List Option

/-!
# When `brk` and `mremap` keep to their range

The two calls that move the end of a range.  `brk` wraps at the top and rounds
down when it shrinks, and `mremap` rounds both of its lengths down.
-/

namespace RangeCall

variable
  {host : Host}
  {w : World}
  {m : MmId}

/-- What a growing `brk` needs: its rounded end does not wrap, or it fails. -/
def BrkGrows
    (host : Host) (oldBrk newBrk : Nat) (reply : MapReply) : Prop :=
  RangeFits 0 newBrk ∨ pageRoundUp oldBrk ≠ 0 ∧ ¬reply.Grants host

/-- What a shrinking `brk` needs: the page of the old break is none of its own. -/
def BrkShrinks (w : World) (m : MmId) (oldBrk newBrk : Nat) : Prop :=
  ∀ other,
    ceilPages newBrk ≤ other → page oldBrk ≤ other →
    other < ceilPages oldBrk → w.lookup m other = none

/-- Without a wrap a growing `brk` works on the pages between the breaks. -/
theorem brkGrowth_of_fits
    {oldBrk newBrk : Nat}
    (oldBounded : oldBrk < 2 ^ 32)
    (bounded : newBrk < 2 ^ 32)
    (grows : oldBrk < newBrk)
    (fits : RangeFits 0 newBrk) :
    pageRoundUp oldBrk = ceilPages oldBrk ∧
      brkGrowth oldBrk newBrk = ceilPages newBrk - ceilPages oldBrk ∧
      ceilPages oldBrk ≤ ceilPages newBrk ∧
      ceilPages newBrk ≤ memPages := by
  have unwrapped := fits.1
  have ordered : ceilPages oldBrk ≤ ceilPages newBrk := by
    simp only [ceilPages, pageSize]
    omega
  have oldUnwrapped : ceilPages oldBrk * pageSize < 2 ^ 32 :=
    Nat.lt_of_le_of_lt (Nat.mul_le_mul_right pageSize ordered) unwrapped
  have newInside : ceilPages newBrk ≤ memPages := by
    simp only [pageSize, memPages] at unwrapped ⊢
    omega
  have oldRounded := pageRoundUp_eq oldBounded
  have newRounded := pageRoundUp_eq bounded
  rw [if_pos oldUnwrapped] at oldRounded
  rw [if_pos unwrapped] at newRounded
  refine ⟨oldRounded, ?_, ordered, newInside⟩
  rw [brkGrowth, oldRounded, newRounded]
  simp only [memPages] at newInside
  omega

/-- A growing `brk` that wraps works on no page. -/
theorem pageRange_of_wrap
    {oldBrk newBrk : Nat}
    (bounded : newBrk < 2 ^ 32)
    (wraps : ¬RangeFits 0 newBrk) :
    pageRange (pageRoundUp oldBrk) (brkGrowth oldBrk newBrk) = [] ∧
      (brkGrowth oldBrk newBrk = 0 ↔ pageRoundUp oldBrk = 0) := by
  have oldBelow := pageRoundUp_lt oldBrk
  have newRounded : pageRoundUp newBrk = 0 := by
    rw [pageRoundUp_eq bounded, if_neg]
    intro unwrapped
    refine wraps ⟨unwrapped, ?_⟩
    omega
  simp only [memPages] at oldBelow
  unfold brkGrowth pageRange
  rw [newRounded]
  refine ⟨?_, by omega⟩
  rw [List.range'_eq_nil_iff]
  omega

/-- A growing `brk` that moves the break mapped all pages up to it. -/
theorem brk_covers_grow
    {newBrk : Nat}
    {reply : MapReply}
    (words : (brk newBrk reply).Words w m)
    (checked : (brk newBrk reply).PastChecks w m)
    (grows : (w.mm m).brk < newBrk)
    (condition : BrkGrows host (w.mm m).brk newBrk reply)
    {next : World}
    (call : sysBrk host w m newBrk reply = some next) :
    (brk newBrk reply).Covers w next m (next.mm m).brk := by
  intro moved
  refine ⟨fun _ => ?_, fun other after before => ?_⟩
  · rcases sysBrk_grow_cases checked grows call with
      filled | ⟨state, _, mapped, rfl⟩
    · rw [filled.mm] at moved
      exact absurd moved (Nat.ne_of_lt grows)
    have fits : RangeFits 0 newBrk := by
      by_contra wraps
      obtain ⟨nonempty, refused⟩ := condition.resolve_left wraps
      rcases grants_of_ptMapNothing mapped with isEmpty | grants
      · exact nonempty ((pageRange_of_wrap words.2 wraps).2.mp isEmpty)
      · exact refused grants
    obtain ⟨rounded, growth, ordered, inside⟩ :=
      brkGrowth_of_fits words.1 words.2 grows fits
    refine ⟨fits, ?_⟩
    intro other after before
    rw [lookup_setBrk]
    rcases ptMapNothing_cases mapped with
      ⟨isEmpty, _⟩ | ⟨fresh, isFresh, call⟩
    · omega
    · have limit := memPages_eq
      obtain ⟨_, _, found, _⟩ := ptMap_new call other (by
        rw [mem_pageRange_of_lt (by omega)]
        omega)
      rw [found]
      exact some_ne_none _
  · simp only [ceilPages, pageSize] at after before
    omega

/-- A growing `brk` past the top of the address space moves the break. -/
theorem brk_moves_of_wrap
    {newBrk : Nat}
    {reply : MapReply}
    (words : (brk newBrk reply).Words w m)
    (checked : (brk newBrk reply).PastChecks w m)
    (grows : (w.mm m).brk < newBrk)
    (refuted : ¬BrkGrows host (w.mm m).brk newBrk reply) :
    ∃ next,
      sysBrk host w m newBrk reply = some next ∧
        (next.mm m).brk = newBrk := by
  obtain ⟨wraps, granted⟩ := not_or.mp refuted
  obtain ⟨noPages, isEmptyIff⟩ :=
    @pageRange_of_wrap (w.mm m).brk newBrk words.2 wraps
  have isHole :
      ptIsHole (w.mem m) (pageRoundUp (w.mm m).brk)
        (brkGrowth (w.mm m).brk newBrk) = some true := by
    rw [ptIsHole, noPages]
    rfl
  have mapped :
      ∃ state,
        ptMapNothing host w m (pageRoundUp (w.mm m).brk)
          (brkGrowth (w.mm m).brk newBrk) reply pWrite =
            some (.ok (), state) := by
    unfold ptMapNothing
    split
    · exact ⟨w, rfl⟩
    · rename_i nonempty
      have grants : reply.Grants host := by
        by_contra refused
        exact granted ⟨fun isEmpty => nonempty (isEmptyIff.mpr isEmpty),
          refused⟩
      obtain ⟨malloc, memory, replied, aligned⟩ := grants
      obtain ⟨state, call, _⟩ :=
        ptMap_isSome host memory 0 (pWrite ||| pAnonymous) aligned
          (fun other member => by
            rw [noPages] at member
            cases member)
      obtain ⟨answer, isMalloc⟩ := reply
      cases replied
      cases malloc
      exact ⟨state, call⟩
  obtain ⟨state, mapped⟩ := mapped
  refine ⟨state.setBrk m newBrk, ?_, brk_setBrk state m newBrk⟩
  unfold brkGrowth at isHole mapped
  simp only [sysBrk, Nat.not_lt.mpr checked, grows, isHole, mapped, if_true,
    if_false, bind_eq_bind, bind_some]
  rfl

/--
`brk` keeps to its range exactly when a growing one does not wrap or fails,
and a shrinking one leaves no page of the old break behind.
-/
theorem brk_keepsToRange
    {newBrk : Nat}
    {reply : MapReply}
    (accounted : Accounted w)
    (notWrapped : w.wrapped = false)
    (words : (brk newBrk reply).Words w m)
    (checked : (brk newBrk reply).PastChecks w m) :
    (brk newBrk reply).KeepsToRange host w m ↔
      ((w.mm m).brk < newBrk →
          BrkGrows host (w.mm m).brk newBrk reply) ∧
        (newBrk < (w.mm m).brk → BrkShrinks w m (w.mm m).brk newBrk) := by
  rcases Nat.lt_or_ge (w.mm m).brk newBrk with grows | shrinks
  · constructor
    · intro keeps
      refine ⟨fun _ => ?_, fun shrinks => by omega⟩
      by_contra refuted
      obtain ⟨next, call, moved⟩ :=
        brk_moves_of_wrap words checked grows refuted
      have covers : Covers w next m (next.mm m).brk (brk newBrk reply) :=
        keeps.covers (by simp only [run, call]; rfl)
      exact refuted (.inl ((covers moved).1 grows).1)
    · intro condition
      have condition := condition.1 grows
      have limit := memPages_eq
      refine ⟨?_, ?_⟩
      · simp only [pages, grows, if_true, mem_append]
        have below := pageRoundUp_lt (w.mm m).brk
        by_cases fits : RangeFits 0 newBrk
        · obtain ⟨rounded, growth, ordered, inside⟩ :=
            brkGrowth_of_fits words.1 words.2 grows fits
          unfold brkGrowth at growth
          rw [rounded] at growth ⊢
          rw [growth]
          rintro other (looked | maps)
          · exact (holePages_inside (w.mem m) (by omega)).mpr
              (.inr (.inl (by omega))) other looked
          · split at maps
            · exact (mapPages_inside host reply (by omega)).mpr
                (.inr (.inr (by omega))) other maps
            · cases maps
        · obtain ⟨noPages, _⟩ :=
            @pageRange_of_wrap (w.mm m).brk newBrk words.2 fits
          unfold brkGrowth at noPages
          unfold holePages mapPages
          rw [noPages]
          rintro other (looked | maps)
          · cases looked
          · split at maps
            · split at maps <;> cases maps
            · cases maps
      · intro result next ran
        obtain ⟨state, call, finish⟩ := map_eq_some_iff.mp ran
        cases finish
        exact brk_covers_grow words checked grows condition call
  · have notGrows : ¬(w.mm m).brk < newBrk := Nat.not_lt.mpr shrinks
    have limit := memPages_eq
    have newInside := page_lt words.2
    have oldInside := page_lt words.1
    have ordered : page newBrk ≤ page (w.mm m).brk :=
      Nat.div_le_div_right shrinks
    have inside :
        ∀ other ∈ (brk newBrk reply).pages host w m, other < memPages := by
      simp only [pages, notGrows, if_false]
      exact (unmapPages_inside (w.mem m) (by omega)).mpr
        (.inr (by omega))
    have unmappedIff :
        ∀ other,
          other ∈ pageRange (page newBrk)
              (page (w.mm m).brk - page newBrk) ↔
            page newBrk ≤ other ∧ other < page (w.mm m).brk := by
      intro other
      rw [mem_pageRange_of_lt (by omega)]
      omega
    have floorLeCeil : page newBrk ≤ ceilPages newBrk := by
      simp only [page, ceilPages, pageSize]
      omega
    constructor
    · intro keeps
      refine ⟨fun grows => absurd grows notGrows, fun shrinks => ?_⟩
      intro other after beyond before
      simp only [pages, notGrows, if_false] at inside
      obtain ⟨state, unmapped⟩ :=
        ptUnmapAlways_isSome host accounted notWrapped inside
      have call :
          sysBrk host w m newBrk reply = some (state.setBrk m newBrk) := by
        simp only [sysBrk, Nat.not_lt.mpr checked, notGrows, shrinks,
          unmapped, if_true, if_false, bind_eq_bind,
          bind_some]
        rfl
      have covers :
          Covers w (state.setBrk m newBrk) m newBrk (brk newBrk reply) :=
        keeps.covers (by simp only [run, call, map_some, brk_setBrk])
      have gone := (covers rfl).2 other after before
      rw [lookup_setBrk, (ptUnmapAlways_spec unmapped).2.2.2, if_neg] at gone
      · exact gone
      · rw [unmappedIff]
        omega
    · intro condition
      refine ⟨inside, ?_⟩
      intro result next ran
      obtain ⟨state, call, finish⟩ := map_eq_some_iff.mp ran
      cases finish
      intro moved
      refine ⟨fun grows => absurd grows notGrows, ?_⟩
      intro other after before
      obtain ⟨middle, rfl, stays | unmapped⟩ :=
        sysBrk_shrink_cases checked shrinks call
      · rw [stays.2] at after
        omega
      · rw [lookup_setBrk, (ptUnmapAlways_spec unmapped).2.2.2]
        by_cases isPast : page (w.mm m).brk ≤ other
        · rw [if_neg (by rw [unmappedIff]; omega)]
          refine condition.2 ?_ other after isPast before
          refine Nat.lt_of_le_of_ne shrinks ?_
          rintro same
          rw [same] at after
          omega
        · rw [if_pos]
          rw [unmappedIff]
          exact ⟨rfl, by omega, by omega⟩

/--
What a shrinking `mremap` needs: a gap in the tail, so that it fails, or a new
range that is mapped and loses no page to the tail.
-/
def MremapShrinks
    (w : World) (m : MmId) (addr oldLen newLen : Nat) : Prop :=
  (∃ other,
      page addr + page newLen ≤ other ∧ other < page addr + page oldLen ∧
        other < memPages ∧ w.lookup m other = none) ∨
    page addr + page oldLen ≤ memPages ∧ RangeFits addr newLen ∧
      (∀ other, InRange addr newLen other → w.lookup m other ≠ none) ∧
      (newLen % pageSize = 0 ∨ page newLen = page oldLen)

/--
What a growing `mremap` needs: it gives up before it leaves the directory, or
the new range ends there and its last page, if cut, is mapped already.
-/
def MremapGrows
    (host : Host) (w : World) (m : MmId) (addr oldLen newLen : Nat)
    (reply : MapReply) : Prop :=
  w.lookup m (page addr) = none ∨
    (∃ other,
      page addr ≤ other ∧ other < page addr + page oldLen ∧
        other < memPages ∧ w.lookup m other = none) ∨
    page addr + page oldLen ≤ memPages ∧
      ((∃ entry,
          w.lookup m (page addr) = some entry ∧
            hasFlag entry.flags pAnonymous = false) ∨
        (∃ other,
          page addr + page oldLen ≤ other ∧
            other < page addr + page newLen ∧
            other < memPages ∧ w.lookup m other ≠ none) ∨
        page addr + page newLen ≤ memPages ∧
          (¬reply.Grants host ∨ newLen % pageSize = 0 ∨
            RangeFits addr newLen ∧
              w.lookup m (page addr + page newLen) ≠ none))

/-- `pt_unmap` meets a gap and fails, unmaps its range or leaves the directory. -/
theorem ptUnmap_ends
    (host : Host)
    (m : MmId)
    {start pages : Nat}
    (accounted : Accounted w)
    (notWrapped : w.wrapped = false)
    (bounded : start + pages < 2 ^ 32) :
    (ptUnmap host w m start pages = some (false, w) ∧
        (∀ other ∈ ptUnmapPages (w.mem m) start pages, other < memPages) ∧
        ∃ gap, start ≤ gap ∧ gap < start + pages ∧ gap < memPages ∧
          w.lookup m gap = none) ∨
      (∀ gap, start ≤ gap → gap < start + pages → gap < memPages →
          w.lookup m gap ≠ none) ∧
        ((ptUnmap host w m start pages = none ∧
            ¬(∀ other ∈ ptUnmapPages (w.mem m) start pages,
              other < memPages) ∧
            memPages < start + pages) ∨
          (pages = 0 ∨ start + pages ≤ memPages) ∧
            (∀ other ∈ ptUnmapPages (w.mem m) start pages,
              other < memPages) ∧
            ∃ next, ptUnmap host w m start pages = some (true, next) ∧
              ∀ other, next.lookup m other =
                if start ≤ other ∧ other < start + pages then none
                else w.lookup m other) := by
  have inRange := fun other =>
    @mem_pageRange_of_lt start pages other bounded
  have checkIff := checkedPages_inside (w.mem m) bounded
  have walkIff := unmapPages_inside (w.mem m) bounded
  unfold ptUnmapPages
  simp only [mem_append]
  by_cases checkInside :
      ∀ other ∈ checkedPages (w.mem m) start pages, other < memPages
  · obtain ⟨mapped, check⟩ := allMapped_isSome.mpr checkInside
    cases mapped with
    | false =>
      obtain ⟨gap, member, below, isGap⟩ := allMapped_false check
      refine .inl ⟨by rw [ptUnmap, check]; rfl, ?_, gap,
        ((inRange gap).mp member).1, ((inRange gap).mp member).2, below, isGap⟩
      rw [check, if_neg (by decide)]
      rintro other (looked | isNone)
      · exact checkInside other looked
      · cases isNone
    | true =>
      have noGap := allMapped_eq_true.mp check
      have ends : pages = 0 ∨ start + pages ≤ memPages := by
        by_cases isEmpty : pages = 0
        · exact .inl isEmpty
        · have last := (noGap (start + pages - 1)
            ((inRange _).mpr (by omega))).1
          exact .inr (by omega)
      have walkInside := walkIff.mpr ends
      obtain ⟨next, always⟩ :=
        ptUnmapAlways_isSome host accounted notWrapped walkInside
      refine .inr ⟨fun gap after before _ =>
        (noGap gap ((inRange gap).mpr ⟨after, before⟩)).2,
        .inr ⟨ends, ?_, next, by rw [ptUnmap, check]; simp [always], ?_⟩⟩
      · rw [check, if_pos rfl]
        rintro other (looked | walked)
        · exact checkInside other looked
        · exact walkInside other walked
      · intro other
        rw [(ptUnmapAlways_spec always).2.2.2]
        simp only [inRange, true_and]
  · have noneEnds := mt checkIff.mpr checkInside
    simp only [not_or, not_exists] at noneEnds
    refine .inr ⟨fun gap after before below isGap =>
      noneEnds.2.2 gap ⟨after, before, below, isGap⟩,
      .inl ⟨?_, fun inside => checkInside fun other looked =>
        inside other (.inl looked), by omega⟩⟩
    cases ran : ptUnmap host w m start pages with
    | none => rfl
    | some outcome =>
      obtain ⟨mapped, check, _⟩ := bind_eq_some_iff.mp ran
      cases mapped with
      | false =>
        obtain ⟨gap, member, below, isGap⟩ := allMapped_false check
        exact absurd ⟨((inRange gap).mp member).1, ((inRange gap).mp member).2,
          below, isGap⟩ (noneEnds.2.2 gap)
      | true =>
        have last := (allMapped_eq_true.mp check (start + pages - 1)
          ((inRange _).mpr (by omega))).1
        omega

/-- A shrinking `mremap` keeps to its range under exactly that condition. -/
theorem mremap_keepsToRange_shrink
    {addr oldLen newLen : Nat}
    {flags : Flags}
    {reply : MapReply}
    (accounted : Accounted w)
    (notWrapped : w.wrapped = false)
    (words : (mremap addr oldLen newLen flags reply).Words w m)
    (checked : (mremap addr oldLen newLen flags reply).PastChecks w m)
    (shrinks : page newLen ≤ page oldLen) :
    (mremap addr oldLen newLen flags reply).KeepsToRange host w m ↔
      MremapShrinks w m addr oldLen newLen := by
  have limit := memPages_eq
  have startBelow := page_lt words.1
  have oldBelow := page_lt words.2.1
  have runs :
      (mremap addr oldLen newLen flags reply).run host w m =
        (ptUnmap host w m (page addr + page newLen)
            (page oldLen - page newLen)).map
          fun outcome =>
            (if outcome.1 then .ok addr else .error .fault, outcome.2) := by
    simp only [run]
    rw [sysMremap_shrink checked shrinks, Nat.mod_eq_of_lt (by omega)]
    rcases ptUnmap host w m (page addr + page newLen)
      (page oldLen - page newLen) with _ | ⟨_ | _, _⟩ <;> rfl
  have pagesEq :
      (mremap addr oldLen newLen flags reply).pages host w m =
        ptUnmapPages (w.mem m) (page addr + page newLen)
          (page oldLen - page newLen) := by
    simp only [pages, shrinks, if_true]
  have ends :=
    @ptUnmap_ends w host m (page addr + page newLen)
      (page oldLen - page newLen) accounted notWrapped (by omega)
  have tailEnd :
      page addr + page newLen + (page oldLen - page newLen) =
        page addr + page oldLen := by
    omega
  rw [tailEnd, ← pagesEq] at ends
  obtain ⟨failed, inside, gap⟩ |
    ⟨noGap, ⟨_, leaves, above⟩ | ⟨inBounds, inside, next, unmapped, lookups⟩⟩ :=
      ends
  · refine iff_of_true ⟨inside, ?_⟩ (.inl gap)
    intro result next ran
    rw [runs, failed] at ran
    cases ran
  · refine iff_of_false (fun keeps => leaves keeps.inside) ?_
    rintro (⟨gap, after, before, below, isGap⟩ | ⟨within, _⟩)
    · exact noGap gap after before below isGap
    · omega
  have ran :
      (mremap addr oldLen newLen flags reply).run host w m =
        some (.ok addr, next) := by
    rw [runs, unmapped]
    rfl
  have ceil := ceilPages_eq newLen
  constructor
  · intro keeps
    obtain ⟨fits, covered⟩ :
        Covers w next m addr (mremap addr oldLen newLen flags reply) :=
      keeps.covers ran
    have remains :
        ∀ other, InRange addr newLen other →
          w.lookup m other ≠ none ∧
            ¬(page addr + page newLen ≤ other ∧
            other < page addr + page oldLen) := by
      intro other inRange
      have stillMapped := covered other inRange
      rw [lookups] at stillMapped
      split at stillMapped
      case isTrue => exact absurd rfl stillMapped
      case isFalse notInTail => exact ⟨stillMapped, notInTail⟩
    have fitsPages := (fits.pages words.2.2).2
    refine .inr ⟨?_, fits, fun other inRange => (remains other inRange).1, ?_⟩
    · split at ceil <;> omega
    · by_cases whole : newLen % pageSize = 0
      · exact .inl whole
      · rw [if_neg whole] at ceil
        have lastRemains :=
          (remains (page addr + page newLen) ⟨by omega, by omega⟩).2
        exact .inr (by omega)
  · rintro (⟨gap, after, before, below, isGap⟩ | ⟨_, fits, mapped, cutOrSame⟩)
    · exact absurd isGap (noGap gap after before below)
    refine ⟨inside, ?_⟩
    intro result other isRun
    cases ran.symm.trans isRun
    refine ⟨fits, ?_⟩
    intro other inRange
    rw [lookups, if_neg]
    · exact mapped other inRange
    · rintro ⟨after, before⟩
      have inRangeEnd := inRange.2
      rcases cutOrSame with whole | same
      · rw [if_pos whole] at ceil
        omega
      · omega

/-- A growing `mremap` that succeeds mapped the pages behind the old range. -/
theorem mremapGrow_ok
    {start oldPages newPages : Nat}
    {reply : MapReply}
    {next : World}
    (startBelow : start < memPages)
    (newBelow : newPages < memPages)
    (grows : oldPages < newPages)
    (call :
      mremapGrow host w m start oldPages newPages reply =
        some (.ok (), next)) :
    (∃ entry,
        w.lookup m start = some entry ∧
          hasFlag entry.flags pAnonymous = true) ∧
      reply.Grants host ∧
        (∀ other, start ≤ other → other < start + oldPages →
          w.lookup m other ≠ none) ∧
        (∀ other, start + oldPages ≤ other → other < start + newPages →
          other < memPages ∧ w.lookup m other = none) ∧
        ∀ other,
          if start + oldPages ≤ other ∧ other < start + newPages then
            next.lookup m other ≠ none
          else
            next.lookup m other = w.lookup m other := by
  have limit := memPages_eq
  rcases mremapGrow_cases call with
    ⟨_, failed, _⟩ | ⟨entry, found, noGap, anonymous, hole, _, mapped⟩
  · cases failed
  rw [Nat.mod_eq_of_lt (by omega)] at hole mapped
  have inExtra :
      ∀ other,
        other ∈ pageRange (start + oldPages) (newPages - oldPages) ↔
          start + oldPages ≤ other ∧ other < start + newPages := by
    intro other
    rw [mem_pageRange_of_lt (by omega)]
    omega
  refine ⟨⟨entry, found, anonymous⟩, ?_, ?_, ?_, ?_⟩
  · rcases grants_of_ptMapNothing mapped with isEmpty | grants
    · omega
    · exact grants
  · intro other after before
    exact (noGap other
      ((mem_pageRange_of_lt (by omega)).mpr ⟨after, before⟩)).2
  · intro other after before
    exact hole other ((inExtra other).mpr ⟨after, before⟩)
  · intro other
    rcases ptMapNothing_cases mapped with
      ⟨isEmpty, _⟩ | ⟨fresh, isFresh, call⟩
    · omega
    have sameLookup : fresh.lookup = w.lookup := by
      rcases isFresh with rfl | ⟨_, _, rfl⟩ <;> rfl
    rcases (ptMap_spec call).2 with ⟨_, failed, _⟩ | ⟨_, lookups⟩
    · cases failed
    rw [lookups, sameLookup]
    by_cases inside : other ∈ pageRange (start + oldPages) (newPages - oldPages)
    · rw [if_pos ((inExtra other).mp inside), if_pos ⟨rfl, inside⟩]
      exact some_ne_none _
    · rw [if_neg (fun both => inside ((inExtra other).mpr both)),
        if_neg (fun both => inside both.2)]

/-- A growing `mremap` that gets to the host succeeds when it grants memory. -/
theorem mremapGrow_isSome
    (host : Host)
    {start oldPages newPages : Nat}
    {reply : MapReply}
    {entry : PtEntry}
    (found : w.lookup m start = some entry)
    (startBelow : start < memPages)
    (newBelow : newPages < memPages)
    (grows : oldPages < newPages)
    (noGap :
      allMapped (w.mem m) (pageRange start oldPages) = some true)
    (anonymous : hasFlag entry.flags pAnonymous = true)
    (hole :
      ptIsHole (w.mem m) (start + oldPages) (newPages - oldPages) =
        some true)
    (grants : reply.Grants host) :
    ∃ next,
      mremapGrow host w m start oldPages newPages reply =
        some (.ok (), next) := by
  have limit := memPages_eq
  have isMapped : memPt (w.mem m) start = some (some entry) :=
    memPt_eq_some.mpr ⟨startBelow, found⟩
  obtain ⟨malloc, memory, replied, aligned⟩ := grants
  obtain ⟨answer, isMalloc⟩ := reply
  cases replied
  cases malloc
  obtain ⟨next, mapped, _⟩ :=
    ptMap_isSome host memory 0 (entry.flags ||| pAnonymous) aligned
      (ptIsHole_true.mp
        (show ptIsHole ((mapAnonymous w ⟨.ok memory, true⟩
            ((newPages - oldPages) * pageSize % 2 ^ 32)).mem m) _ _ =
          some true from hole))
  refine ⟨next, ?_⟩
  have nonempty : newPages - oldPages ≠ 0 := by omega
  simp only [mremapGrow, isMapped, noGap, anonymous, hole, ptMapNothing,
    nonempty, bind_eq_bind, bind_some, if_true, if_false,
    Bool.true_eq_false, Nat.mod_eq_of_lt (show start + oldPages < 2 ^ 32 by
      omega)]
  exact mapped

/-- A growing `mremap` keeps to its range under exactly that condition. -/
theorem mremap_keepsToRange_grow
    {addr oldLen newLen : Nat}
    {flags : Flags}
    {reply : MapReply}
    (words : (mremap addr oldLen newLen flags reply).Words w m)
    (checked : (mremap addr oldLen newLen flags reply).PastChecks w m)
    (grows : page oldLen < page newLen) :
    (mremap addr oldLen newLen flags reply).KeepsToRange host w m ↔
      MremapGrows host w m addr oldLen newLen reply := by
  have limit := memPages_eq
  have startBelow := page_lt words.1
  have oldBelow := page_lt words.2.1
  have newBelow := page_lt words.2.2
  have aligned := checked.1
  have notShrinks : ¬page newLen ≤ page oldLen := Nat.not_le.mpr grows
  have oldBounded : page addr + page oldLen < 2 ^ 32 := by omega
  have extraBounded :
      page addr + page oldLen + (page newLen - page oldLen) < 2 ^ 32 := by
    omega
  have extraEnd :
      page addr + page oldLen + (page newLen - page oldLen) =
        page addr + page newLen := by
    omega
  have nonempty : page newLen - page oldLen ≠ 0 := by omega
  have checkIff := checkedPages_inside (w.mem m) oldBounded
  have holeIff := holePages_inside (w.mem m) extraBounded
  have mapIff := mapPages_inside host reply extraBounded
  rw [extraEnd] at holeIff mapIff
  have runs :
      (mremap addr oldLen newLen flags reply).run host w m =
        (mremapGrow host w m (page addr) (page oldLen) (page newLen)
            reply).map
          fun outcome => (outcome.1.map fun _ => addr, outcome.2) := by
    simp only [run]
    rw [sysMremap_grow checked grows]
  have ceil := ceilPages_eq newLen
  have wholeFits :
      newLen % pageSize = 0 → page addr + page newLen ≤ memPages →
        RangeFits addr newLen := by
    intro whole ends
    have newBounded := words.2.2
    rw [if_pos whole] at ceil
    rw [RangeFits, ceil]
    simp only [page, pageSize, pgOffset] at *
    omega
  constructor
  · intro keeps
    have inside := keeps.inside
    simp only [pages, notShrinks, if_false] at inside
    unfold MremapGrows
    cases found : w.lookup m (page addr) with
    | none => exact .inl rfl
    | some entry =>
      refine .inr ?_
      simp only [found, mem_cons, mem_append] at inside
      obtain ⟨mapped, check⟩ := allMapped_isSome.mpr fun other looked =>
        inside other (.inr (.inl looked))
      cases mapped with
      | false =>
        obtain ⟨other, member, below, gap⟩ := allMapped_false check
        obtain ⟨after, before⟩ :=
          (mem_pageRange_of_lt oldBounded).mp member
        exact .inl ⟨other, after, before, below, gap⟩
      | true =>
        have oldInside : page addr + page oldLen ≤ memPages := by
          by_cases isEmpty : page oldLen = 0
          · omega
          · have last := (allMapped_eq_true.mp check
              (page addr + page oldLen - 1)
              ((mem_pageRange_of_lt oldBounded).mpr
                (by omega))).1
            omega
        refine .inr ⟨oldInside, ?_⟩
        cases anonymous : hasFlag entry.flags pAnonymous with
        | false => exact .inl ⟨entry, rfl, anonymous⟩
        | true =>
          rw [if_neg (by simp [check, anonymous])] at inside
          simp only [mem_append] at inside
          obtain ⟨hole, holeCheck⟩ := isHoleLoop_isSome.mpr
            fun other looked =>
              inside other (.inr (.inr (.inl looked)))
          have holeCheck :
              ptIsHole (w.mem m) (page addr + page oldLen)
                (page newLen - page oldLen) = some hole :=
            holeCheck
          cases hole with
          | false =>
            obtain ⟨other, member, below, mapped⟩ :=
              ptIsHole_false holeCheck
            obtain ⟨after, before⟩ :=
              (mem_pageRange_of_lt extraBounded).mp member
            exact .inr (.inl ⟨other, after,
              extraEnd ▸ before, below, mapped⟩)
          | true =>
            have last := (ptIsHole_true.mp holeCheck
              (page addr + page newLen - 1)
              ((mem_pageRange_of_lt extraBounded).mpr
                (by omega))).1
            have newInside :
                page addr + page newLen ≤ memPages := by
              omega
            refine .inr (.inr ⟨newInside, ?_⟩)
            by_cases grants : reply.Grants host
            · refine .inr ?_
              by_cases whole : newLen % pageSize = 0
              · exact .inl whole
              obtain ⟨next, call⟩ :=
                mremapGrow_isSome host found startBelow newBelow
                  grows check anonymous holeCheck grants
              obtain ⟨fits, covered⟩ :
                  Covers w next m addr
                    (mremap addr oldLen newLen flags reply) :=
                keeps.covers (by rw [runs, call]; rfl)
              rw [if_neg whole] at ceil
              have lastMapped :=
                covered (page addr + page newLen)
                  ⟨by omega, by omega⟩
              have unchanged :=
                (mremapGrow_ok startBelow newBelow grows
                  call).2.2.2.2 (page addr + page newLen)
              rw [if_neg (by omega)] at unchanged
              exact .inr ⟨fits, unchanged ▸ lastMapped⟩
            · exact .inl grants
  · intro condition
    refine ⟨?_, ?_⟩
    · simp only [pages, notShrinks, if_false, mem_cons]
      rintro other (rfl | later)
      · exact startBelow
      cases found : w.lookup m (page addr) with
      | none =>
        rw [found] at later
        cases later
      | some entry =>
        rw [found] at later
        simp only [mem_append] at later
        have condition := condition.resolve_left
          (by rw [found]; exact some_ne_none entry)
        rcases later with looked | later
        · refine checkIff.mpr ?_ other looked
          rcases condition with
            ⟨gap, after, before, below, isGap⟩ | ⟨ends, _⟩
          · exact .inr (.inr ⟨gap, after, before, below, isGap⟩)
          · exact .inr (.inl ends)
        · split at later
          · cases later
          rename_i goesOn
          rw [not_or, not_not] at goesOn
          obtain ⟨noGap, anonymous⟩ := goesOn
          rcases condition with
            ⟨gap, after, before, below, isGap⟩ | ⟨ends, condition⟩
          · exact absurd isGap (allMapped_eq_true.mp noGap gap
              ((mem_pageRange_of_lt oldBounded).mpr
                ⟨after, before⟩)).2
          simp only [mem_append] at later
          rcases condition with
            ⟨first, isFirst, notAnonymous⟩ |
              ⟨taken, after, before, below, isTaken⟩ | ⟨newEnds, _⟩
          · cases found.symm.trans isFirst
            exact absurd notAnonymous anonymous
          · rcases later with looked | mapped
            · exact holeIff.mpr
                (.inr (.inr ⟨taken, after, before, below, isTaken⟩))
                other looked
            · split at mapped
              · rename_i hole
                exact absurd (ptIsHole_true.mp hole taken
                  ((mem_pageRange_of_lt extraBounded).mpr
                    ⟨after, extraEnd ▸ before⟩)).2 isTaken
              · cases mapped
          · rcases later with looked | mapped
            · exact holeIff.mpr (.inr (.inl newEnds)) other looked
            · split at mapped
              · exact mapIff.mpr (.inr (.inr newEnds)) other mapped
              · cases mapped
    · intro result next ran
      rw [runs] at ran
      obtain ⟨⟨code, state⟩, call, finish⟩ :=
        map_eq_some_iff.mp ran
      cases code with
      | error code => cases finish
      | ok _ =>
      have same : state = next := congrArg Prod.snd finish
      subst state
      cases finish
      obtain ⟨⟨entry, found, anonymous⟩, grants, noGap, hole, lookups⟩ :=
        mremapGrow_ok startBelow newBelow grows call
      have mappedAll :
          ∀ other, page addr ≤ other →
            other < page addr + page newLen →
            next.lookup m other ≠ none := by
        intro other after before
        have outcome := lookups other
        split at outcome
        · exact outcome
        · rw [outcome]
          exact noGap other after (by omega)
      rcases condition with
        absent | ⟨gap, after, before, _, isGap⟩ | ⟨_, condition⟩
      · cases found.symm.trans absent
      · exact absurd isGap (noGap gap after before)
      rcases condition with
        ⟨first, isFirst, notAnonymous⟩ |
          ⟨taken, after, before, _, isTaken⟩ | ⟨newEnds, condition⟩
      · cases found.symm.trans isFirst
        exact absurd anonymous (by rw [notAnonymous]; decide)
      · exact absurd (hole taken after before).2 isTaken
      rcases condition with refused | whole | ⟨fits, lastMapped⟩
      · exact absurd grants refused
      · refine ⟨wholeFits whole newEnds, ?_⟩
        intro other inRange
        rw [if_pos whole] at ceil
        exact mappedAll other inRange.1 (by
          have before := inRange.2
          omega)
      · refine ⟨fits, ?_⟩
        intro other inRange
        have before := inRange.2
        by_cases isLast : other = page addr + page newLen
        · have outcome := lookups other
          rw [if_neg (by omega)] at outcome
          rw [outcome, isLast]
          exact lastMapped
        · refine mappedAll other inRange.1 ?_
          split at ceil <;> omega

end RangeCall

end GuestKernel
