import GuestKernel.CallRanges
import GuestKernel.HoleSearch

namespace GuestKernel
open Option

/-!
# When `munmap`, `mprotect` and `mmap` keep to their range

For `munmap`, `mprotect` and `mmap`, the exact condition on the arguments and
on the address space under which the call stays in the page directory and
covers its range when it succeeds.  The conditions come from the overflow of
`PAGE_ROUND_UP` and from page sums that are never compared with the top of the
address space.
-/

variable {start pages : Nat} {w : World} {m : MmId}

private theorem wrapped_unmapPage
    {host : Host}
    {next : World}
    {page : Nat}
    (unmapped : unmapPage host m w page = some next) :
    next.wrapped = w.wrapped := by
  obtain ⟨_, ⟨_, rfl⟩ | ⟨entry, _, dropped⟩⟩ :=
    unmapPage_cases unmapped
  · rfl
  · obtain ⟨record, _, ⟨_, rfl⟩ | ⟨_, rfl⟩⟩ :=
      World.dropRef_cases dropped <;> rfl

theorem wrapped_ptUnmapAlways
    {host : Host}
    {next : World}
    (unmapped : ptUnmapAlways host w m start pages = some next) :
    next.wrapped = w.wrapped := by
  unfold ptUnmapAlways at unmapped
  obtain ⟨state, loop, finish⟩ := bind_eq_some_iff.mp unmapped
  cases finish
  exact Loop.foldlM_invariant
    (motive := fun state => state.wrapped = w.wrapped)
    (fun _ same round => (wrapped_unmapPage round).trans same) rfl loop

/-- `pt_unmap_always` runs to its end inside the directory. -/
theorem ptUnmapAlways_isSome
    (host : Host)
    (accounted : Accounted w)
    (notWrapped : w.wrapped = false)
    (inside :
      ∀ other ∈ unmapPages (w.mem m) start pages, other < memPages) :
    ∃ next, ptUnmapAlways host w m start pages = some next := by
  obtain ⟨last, loop, _⟩ :=
    Loop.foldlM_isSome (unmapPage host m)
      (memWalk (w.mem m) start ((start + pages) % 2 ^ 32)) w
      (motive := fun _ state => Accounted state ∧ state.wrapped = false)
      (by
        rintro done page later state shape ⟨accounted, notWrapped⟩
        have pageInside : page < memPages :=
          inside page (by rw [unmapPages, shape]; simp)
        have round : ∃ next, unmapPage host m state page = some next := by
          cases found : state.lookup m page with
          | none =>
            have isFree : memPt (state.mem m) page = some none :=
              memPt_eq_some.mpr ⟨pageInside, found⟩
            exact ⟨state, by simp [unmapPage, isFree]⟩
          | some entry =>
            have isMapped : memPt (state.mem m) page = some (some entry) :=
              memPt_eq_some.mpr ⟨pageInside, found⟩
            obtain ⟨record, live, _⟩ :=
              (accounted.sound notWrapped).backed found
            have liveCleared :
                (state.clearEntry m page).data entry.data =
                  some record :=
              live
            have dropSome :
                ((state.clearEntry m page).dropRef host
                  entry.data).isSome := by
              simp only [World.dropRef, liveCleared, bind_eq_bind,
                bind_some]
              split <;> rfl
            obtain ⟨next, drop⟩ := isSome_iff_exists.mp dropSome
            exact ⟨next, by simp [unmapPage, isMapped, drop]⟩
        obtain ⟨next, round⟩ := round
        exact ⟨next, round, accounted.unmapPage round,
          (wrapped_unmapPage round).trans notWrapped⟩)
      ⟨accounted, notWrapped⟩
  exact ⟨last.memChanged m, by
    simp only [ptUnmapAlways, loop, bind_eq_bind, bind_some,
      Option.pure_def]⟩

theorem unmapPages_inside
    (mem : Mem)
    (bounded : start + pages < 2 ^ 32) :
    (∀ other ∈ unmapPages mem start pages, other < memPages) ↔
      pages = 0 ∨ start + pages ≤ memPages := by
  unfold unmapPages
  rw [memWalk_inside, Nat.mod_eq_of_lt bounded]
  omega

theorem checkedPages_inside
    (mem : Mem)
    (bounded : start + pages < 2 ^ 32) :
    (∀ other ∈ checkedPages mem start pages, other < memPages) ↔
      pages = 0 ∨ start + pages ≤ memPages ∨
        ∃ other,
          start ≤ other ∧ other < start + pages ∧ other < memPages ∧
            mem.lookup other = none := by
  unfold checkedPages
  rw [pageRange_eq bounded, scanned_range_inside]
  simp only [isNone_iff_eq_none]

theorem holePages_inside
    (mem : Mem)
    (bounded : start + pages < 2 ^ 32) :
    (∀ other ∈ holePages mem start pages, other < memPages) ↔
      pages = 0 ∨ start + pages ≤ memPages ∨
        ∃ other,
          start ≤ other ∧ other < start + pages ∧ other < memPages ∧
            mem.lookup other ≠ none := by
  unfold holePages
  rw [pageRange_eq bounded, scanned_range_inside]
  simp only [isSome_iff_ne_none]

/-- `pt_map` stays in the directory if its range ends there, or is refused. -/
theorem mapPages_inside
    (host : Host)
    (reply : MapReply)
    (bounded : start + pages < 2 ^ 32) :
    (∀ other ∈ mapPages host reply start pages, other < memPages) ↔
      ¬reply.Grants host ∨ pages = 0 ∨ start + pages ≤ memPages := by
  unfold mapPages
  by_cases grants : reply.Grants host
  · rw [if_pos grants]
    simp only [mem_pageRange_of_lt bounded, grants,
      not_true_eq_false, false_or]
    constructor
    · intro inside
      by_contra leaves
      have last := inside (start + pages - 1) (by omega)
      omega
    · intro ends other member
      omega
  · rw [if_neg grants]
    simp [grants]

theorem searchedPages_inside : ∀ other ∈ searchedPages, other < memPages := by
  intro other member
  rw [searchedPages, List.mem_range'_1] at member
  simp only [memPages]
  omega

namespace RangeCall

variable
  {host : Host}
  {w : World}
  {m : MmId}

variable {addr len pages : Nat} {prot flags : Flags} {next : World}
  {anonymous : MapReply} {mapping : FileReply}
  {hostMprotect : Nat → Except Errno Unit}

theorem munmap_run
    (host : Host)
    (checked : (munmap addr len).PastChecks w m) :
    (munmap addr len).run host w m =
      (ptUnmapAlways host w m (page addr) (pageRoundUp len)).map
        fun next => (.ok 0, next) := by
  obtain ⟨aligned, nonempty⟩ := checked
  simp only [run]
  unfold sysMunmap
  rw [if_neg (fun unaligned => unaligned aligned), if_neg nonempty]
  cases ptUnmapAlways host w m (page addr) (pageRoundUp len) <;> rfl

/-- `munmap` keeps to its range exactly when the range fits. -/
theorem munmap_keepsToRange
    (accounted : Accounted w)
    (notWrapped : w.wrapped = false)
    (words : (munmap addr len).Words w m)
    (checked : (munmap addr len).PastChecks w m) :
    (munmap addr len).KeepsToRange host w m ↔ RangeFits addr len := by
  have bounded := page_add_lt words.1 (pageRoundUp_lt len)
  have insideIff :=
    unmapPages_inside (w.mem m) bounded
  constructor
  · intro keeps
    obtain ⟨next, unmapped⟩ :=
      ptUnmapAlways_isSome host accounted notWrapped keeps.inside
    exact (keeps.covers (by rw [munmap_run host checked, unmapped]; rfl)).1
  · intro fits
    obtain ⟨rounded, ends⟩ := fits.pages words.2
    refine ⟨?_, ?_⟩
    · exact insideIff.mpr (.inr (by rw [rounded]; exact ends))
    · intro result next ran
      rw [munmap_run host checked] at ran
      obtain ⟨state, unmapped, finish⟩ := map_eq_some_iff.mp ran
      cases finish
      refine ⟨fits, ?_⟩
      intro other inRange
      rw [(ptUnmapAlways_spec unmapped).2.2.2, if_pos]
      refine ⟨rfl, ?_⟩
      rw [mem_pageRange_of_lt bounded, rounded]
      exact inRange

theorem mprotect_run
    (host : Host)
    (checked : (mprotect addr len prot hostMprotect).PastChecks w m) :
    (mprotect addr len prot hostMprotect).run host w m =
      (ptSetFlags w m (page addr) (pageRoundUp len) prot hostMprotect).map
        fun (result, next) => (result.map fun _ => 0, next) := by
  obtain ⟨aligned, protection⟩ := checked
  simp only [run]
  unfold sysMprotect
  rw [if_neg (fun unaligned => unaligned aligned),
    if_neg (by simp [protection])]

/--
`mprotect` keeps to its range exactly when the rounded length does not wrap
and the range ends in time or has a gap before the top.
-/
theorem mprotect_keepsToRange
    (words : (mprotect addr len prot hostMprotect).Words w m)
    (checked : (mprotect addr len prot hostMprotect).PastChecks w m) :
    (mprotect addr len prot hostMprotect).KeepsToRange host w m ↔
      ceilPages len * pageSize < 2 ^ 32 ∧
        (RangeFits addr len ∨
          ∃ other,
            page addr ≤ other ∧ other < memPages ∧
              w.lookup m other = none) := by
  have bounded := page_add_lt words.1 (pageRoundUp_lt len)
  have insideIff :=
    checkedPages_inside (w.mem m) bounded
  have runs := mprotect_run host checked
  have rounding := pageRoundUp_eq words.2
  constructor
  · intro keeps
    have unwrapped : ceilPages len * pageSize < 2 ^ 32 := by
      by_contra wraps
      -- a wrapped length is zero pages, and changing those succeeds
      rw [if_neg wraps] at rounding
      refine wraps ((keeps.covers ?_ : Covers w (w.memChanged m) m 0 _)).1.1
      have noPages : pageRange (page addr) 0 = [] := by
        rw [pageRange_eq (page_add_lt words.1 (by decide))]
        rfl
      rw [runs, rounding]
      unfold ptSetFlags
      rw [noPages]
      rfl
    rw [if_pos unwrapped] at rounding
    refine ⟨unwrapped, ?_⟩
    rcases insideIff.mp keeps.inside with
      isEmpty | ends | ⟨other, after, _, below, gap⟩
    · refine .inl ⟨unwrapped, ?_⟩
      rw [← rounding, isEmpty, Nat.zero_mul]
      exact Nat.le_of_lt words.1
    · by_cases isEmpty : pageRoundUp len = 0
      · refine .inl ⟨unwrapped, ?_⟩
        rw [← rounding, isEmpty, Nat.zero_mul]
        exact Nat.le_of_lt words.1
      · exact .inl (rangeFits_of_pages words.2 checked.1 isEmpty ends)
    · exact .inr ⟨other, after, below, gap⟩
  · rintro ⟨unwrapped, ends⟩
    rw [if_pos unwrapped] at rounding
    refine ⟨insideIff.mpr ?_, ?_⟩
    · by_cases fits : page addr + pageRoundUp len ≤ memPages
      · exact .inr (.inl fits)
      · rcases ends with rangeFits | ⟨other, after, below, gap⟩
        · rw [rounding]
          exact .inr (.inl (rangeFits.pages words.2).2)
        · exact .inr (.inr ⟨other, after, by omega, below, gap⟩)
    · intro result next ran
      rw [runs] at ran
      obtain ⟨⟨code, state⟩, changed, finish⟩ :=
        map_eq_some_iff.mp ran
      cases code with
      | error code => cases finish
      | ok _ =>
        cases finish
        obtain ⟨_, _, whole, lookups⟩ := ptSetFlags_spec host changed
        rcases ptSetFlags_cases changed with
          ⟨_, failed, _⟩ | ⟨accepted, _⟩
        · cases failed
        have fits : RangeFits addr len := by
          by_cases isEmpty : pageRoundUp len = 0
          · refine ⟨unwrapped, ?_⟩
            rw [← rounding, isEmpty, Nat.zero_mul]
            exact Nat.le_of_lt words.1
          · refine rangeFits_of_pages words.2 checked.1 isEmpty ?_
            have last := (accepted (page addr + pageRoundUp len - 1)
              ((mem_pageRange_of_lt bounded).mpr
                (by omega))).1
            omega
        refine ⟨fits, ?_⟩
        intro other inRange
        have member :
            other ∈ pageRange (page addr) (pageRoundUp len) := by
          rw [mem_pageRange_of_lt bounded, rounding]
          exact inRange
        obtain ⟨entry, found⟩ :=
          ne_none_iff_exists'.mp (accepted other member).2
        refine ⟨{ entry with flags := prot }, ?_, rfl⟩
        rw [lookups, whole rfl, if_pos ⟨rfl, member⟩, found]
        rfl

/-- A `pt_map` that succeeds wrote new entries inside the directory. -/
theorem ptMap_new
    {start offset : Nat}
    {reply : MapReply}
    (mapped :
      ptMap host w m start pages reply offset flags =
        some (.ok (), next)) :
    ∀ other ∈ pageRange start pages,
      other < memPages ∧
        ∃ entry,
          next.lookup m other = some entry ∧ entry.data = w.nextData := by
  intro other member
  rcases ptMap_cases mapped with ⟨_, failed, _⟩ | ⟨_, _, _, loop⟩
  · cases failed
  · refine ⟨mapLoop_inside loop other member,
      mappedEntry w.nextData start offset flags other, ?_, rfl⟩
    rw [(mapLoop_spec loop).2.2, if_pos ⟨rfl, member⟩]

/-- The mapping stage of an `mmap` writes new entries, too. -/
theorem mapChosen_new
    {chosen offset : Nat}
    {file : Option OpenFile}
    (nonempty : pages ≠ 0)
    (mapped :
      mapChosen host w m chosen pages prot flags file offset anonymous
          mapping =
        some (.ok (), next)) :
    ∀ other ∈ pageRange chosen pages,
      other < memPages ∧
        ∃ entry,
          next.lookup m other = some entry ∧ entry.data = w.nextData := by
  obtain ⟨_, _, _, _, _, _, sameNext, call, sameLookup⟩ :=
    mapChosen_ptMap nonempty mapped
  rw [sameLookup, ← sameNext]
  exact ptMap_new call

/-- The page that is chosen for a hint, fixed or not, is the hinted one. -/
theorem choosePage_hinted
    {mem : Mem}
    {chosen : Nat}
    (hinted : addr ≠ 0)
    (choice : choosePage mem addr pages flags = some (.ok chosen)) :
    chosen = page addr := by
  unfold choosePage at choice
  rw [if_pos hinted] at choice
  split at choice
  · cases choice
  · split at choice
    · cases choice
      rfl
    · obtain ⟨_, _, finish⟩ := bind_eq_some_iff.mp choice
      cases finish
      rfl

/-- A success of `mmap` covers its range, wherever it is. -/
theorem mmap_covers
    {args : MmapArgs}
    (words : (mmap args anonymous mapping).Words w m)
    (checked : (mmap args anonymous mapping).PastChecks w m)
    {result : Nat}
    (ran :
      (mmap args anonymous mapping).run host w m =
        some (.ok result, next)) :
    (mmap args anonymous mapping).Covers w next m result := by
  obtain ⟨_, _, _, rounded, aligned⟩ := checked
  rcases mmapCommon_cases ran with
    ⟨_, failed, _⟩ | ⟨_, _, chosen, stage, choice, mapped, shape⟩
  · cases failed
  cases stage with
  | error code => cases shape
  | ok _ =>
  obtain rfl := Except.ok.inj shape
  have isNew := mapChosen_new rounded mapped
  have pagesBelow := pageRoundUp_lt args.len
  have chosenInside : chosen ≤ memPages := by
    by_cases hinted : args.addr = 0
    · unfold choosePage at choice
      rw [if_neg (fun absent => absent hinted)] at choice
      simp only at choice
      split at choice
      · cases choice
      · rename_i found
        cases choice
        have below := (ptFindHole_spec (Nat.pos_of_ne_zero rounded) found).below
        simp only [memPages]
        omega
    · rw [choosePage_hinted hinted choice]
      exact Nat.le_of_lt (page_lt words.1)
  have inRangeIff := fun other =>
    @mem_pageRange_of_lt chosen (pageRoundUp args.len) other (by
      simp only [memPages] at chosenInside pagesBelow
      omega)
  have ends : chosen + pageRoundUp args.len ≤ memPages := by
    have last := (isNew (chosen + pageRoundUp args.len - 1)
      ((inRangeIff _).mpr (by omega))).1
    omega
  have fits : RangeFits (chosen * pageSize) args.len := by
    refine rangeFits_of_pages words.2 (Nat.mul_mod_left _ _) rounded ?_
    rw [page_mul_pageSize]
    exact ends
  refine ⟨?_, fits, ?_⟩
  · intro hinted
    rw [choosePage_hinted hinted choice]
    exact page_mul_of_aligned aligned
  · intro other inRange
    refine (isNew other ((inRangeIff other).mpr ?_)).2
    have sameLength := (fits.pages words.2).1
    unfold InRange at inRange
    rw [page_mul_pageSize, ← sameLength] at inRange
    exact inRange

/--
`mmap` keeps to its range exactly when it got no address, or one whose range
ends in the directory, or when nothing is mapped and the hint is not scanned
to the end of the directory.
-/
theorem mmap_keepsToRange
    {args : MmapArgs}
    (words : (mmap args anonymous mapping).Words w m)
    (checked : (mmap args anonymous mapping).PastChecks w m) :
    (mmap args anonymous mapping).KeepsToRange host w m ↔
      args.addr = 0 ∨ RangeFits args.addr args.len ∨
        ¬MmapMaps host args anonymous mapping ∧
          (hasFlag args.flags mmapFixed = true ∨
            ∃ other,
              page args.addr ≤ other ∧ other < memPages ∧
                w.lookup m other ≠ none) := by
  have rounded := checked.2.2.2.1
  have aligned := checked.2.2.2.2
  have bounded := page_add_lt words.1 (pageRoundUp_lt args.len)
  have holeIff := holePages_inside (w.mem m) bounded
  have fitsIff :
      RangeFits args.addr args.len ↔
        page args.addr + pageRoundUp args.len ≤ memPages := by
    constructor
    · intro fits
      obtain ⟨same, ends⟩ := fits.pages words.2
      rw [same]
      exact ends
    · exact rangeFits_of_pages words.2 aligned rounded
  have mappedIff :
      (∀ reply, mmapReply args anonymous mapping = some reply →
          ∀ other ∈ mapPages host reply (page args.addr)
            (pageRoundUp args.len), other < memPages) ↔
        ¬MmapMaps host args anonymous mapping ∨
          page args.addr + pageRoundUp args.len ≤ memPages := by
    constructor
    · intro inside
      by_contra maps
      rw [not_or, not_not] at maps
      obtain ⟨⟨reply, asked, grants⟩, leaves⟩ := maps
      have ends := (mapPages_inside host reply bounded).mp
        (inside reply asked)
      exact ends.elim (fun refused => refused grants)
        fun ends => ends.elim rounded leaves
    · intro ends reply asked
      refine (mapPages_inside host reply bounded).mpr ?_
      rcases ends with refused | ends
      · exact .inl fun grants => refused ⟨reply, asked, grants⟩
      · exact .inr (.inr ends)
  by_cases hinted : args.addr = 0
  · refine ⟨fun _ => .inl hinted, fun _ => ⟨?_, mmap_covers words checked⟩⟩
    simp only [pages, hinted, if_true, List.mem_append]
    rintro other (searched | maps)
    · exact searchedPages_inside other searched
    · by_cases isBad :
          ptFindHole (w.mem m) (pageRoundUp args.len) = badPage
      · rw [if_pos isBad] at maps
        cases maps
      · rw [if_neg isBad] at maps
        have below :=
          (ptFindHole_spec (Nat.pos_of_ne_zero rounded) isBad).below
        have limit := memPages_eq
        cases asked : mmapReply args anonymous mapping with
        | none =>
          rw [asked] at maps
          cases maps
        | some reply =>
          rw [asked] at maps
          exact (mapPages_inside host reply (by omega)).mpr
            (.inr (.inr (by omega))) other maps
  · have insideIff :
        (∀ other ∈ (mmap args anonymous mapping).pages host w m,
            other < memPages) ↔
          (hasFlag args.flags mmapFixed = true ∨
              page args.addr + pageRoundUp args.len ≤ memPages ∨
                ∃ other,
                  page args.addr ≤ other ∧
                    other < page args.addr + pageRoundUp args.len ∧
                    other < memPages ∧ w.lookup m other ≠ none) ∧
            (¬MmapMaps host args anonymous mapping ∨
              page args.addr + pageRoundUp args.len ≤ memPages) := by
      simp only [pages, hinted, if_false, List.mem_append, or_imp,
        forall_and]
      refine and_congr ?_ (Iff.trans ?_ mappedIff)
      · by_cases isFixed : hasFlag args.flags mmapFixed = true
        · simp [isFixed]
        · rw [if_neg isFixed, holeIff]
          simp only [rounded, isFixed, false_or, Bool.false_eq_true]
          exact Iff.rfl
      · cases mmapReply args anonymous mapping <;> simp
    rw [fitsIff]
    constructor
    · intro keeps
      obtain ⟨scan, maps⟩ := insideIff.mp keeps.inside
      by_cases ends : page args.addr + pageRoundUp args.len ≤ memPages
      · exact .inr (.inl ends)
      · refine .inr (.inr ⟨maps.resolve_right ends, ?_⟩)
        rcases scan with isFixed | inside | ⟨other, after, _, facts⟩
        · exact .inl isFixed
        · exact absurd inside ends
        · exact .inr ⟨other, after, facts⟩
    · intro condition
      refine ⟨insideIff.mpr ?_, mmap_covers words checked⟩
      rcases condition with noHint | ends | ⟨refused, scan⟩
      · exact absurd noHint hinted
      · exact ⟨.inr (.inl ends), .inr ends⟩
      · refine ⟨?_, .inl refused⟩
        by_cases ends : page args.addr + pageRoundUp args.len ≤ memPages
        · exact .inr (.inl ends)
        · rcases scan with isFixed | ⟨other, after, below, mapped⟩
          · exact .inl isFixed
          · exact .inr (.inr ⟨other, after, by omega, below, mapped⟩)

end RangeCall

end GuestKernel
