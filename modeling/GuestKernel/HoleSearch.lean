import GuestKernel.PageTable

namespace GuestKernel

/-!
# The hole that is found

`pt_find_hole` scans downwards and keeps the end of the hole it is in.  The
invariant of its loop says that no hole above the current page is large enough,
and that the hole cannot be continued beyond the end that is kept.
-/

/-- A place for a mapping that `pt_find_hole` may return. -/
structure HoleAt (mem : Mem) (size page : Nat) : Prop where
  above : 0x40000 < page
  below : page + size ≤ 0xf7ffe
  unmapped :
    ∀ other, page ≤ other → other < page + size → mem.lookup other = none

/-- A hole cannot be continued at this page. -/
def EndsHole (mem : Mem) (page : Nat) : Prop :=
  page = 0xf7ffe ∨ mem.lookup page ≠ none

/-- What the loop knows before it looks at the page `0x40000 + remaining`. -/
structure ScannedTo
    (mem : Mem)
    (size remaining : Nat)
    (inHole : Bool)
    (holeEnd : Nat) : Prop where
  bounded : remaining ≤ 0xf7ffd - 0x40000
  tooSmall : ∀ page, HoleAt mem size page → page ≤ 0x40000 + remaining
  outside : inHole = false → EndsHole mem (0x40000 + remaining + 1)
  inside :
    inHole = true →
      EndsHole mem holeEnd ∧ holeEnd ≤ 0xf7ffe ∧
        0x40000 + remaining < holeEnd ∧
        ∀ page,
          0x40000 + remaining < page → page < holeEnd →
          mem.lookup page = none

variable {mem : Mem} {size : Nat}

theorem HoleAt.unmapped_first
    {page : Nat}
    (nonempty : 0 < size)
    (hole : HoleAt mem size page) :
    mem.lookup page = none :=
  hole.unmapped page (Nat.le_refl page) (Nat.lt_add_of_pos_right nonempty)

theorem HoleAt.end_le
    {page holeEnd : Nat}
    (hole : HoleAt mem size page)
    (ends : EndsHole mem holeEnd)
    (before : page ≤ holeEnd) :
    page + size ≤ holeEnd := by
  rcases ends with isTop | isMapped
  · rw [isTop]
    exact hole.below
  · by_contra reaches
    exact isMapped (hole.unmapped holeEnd before (Nat.lt_of_not_le reaches))

/-- The rest of the scan finds the highest place, or there is none. -/
theorem findHoleLoop_highest
    (nonempty : 0 < size)
    (remaining : Nat)
    {inHole : Bool}
    {holeEnd : Nat}
    (scanned : ScannedTo mem size remaining inHole holeEnd) :
    (findHoleLoop mem size remaining inHole holeEnd = badPage ∧
        ∀ page, ¬HoleAt mem size page) ∨
      HoleAt mem size (findHoleLoop mem size remaining inHole holeEnd) ∧
        ∀ page, HoleAt mem size page →
          page ≤ findHoleLoop mem size remaining inHole holeEnd := by
  induction remaining generalizing inHole holeEnd with
  | zero =>
    refine .inl ⟨rfl, fun page hole => ?_⟩
    exact Nat.not_lt_of_le (scanned.tooSmall page hole) hole.above
  | succ remaining inductionHypothesis =>
    have bounded := scanned.bounded
    cases current : mem.lookup (0x40000 + (remaining + 1)) with
    | some entry =>
      have unfolded :
          findHoleLoop mem size (remaining + 1) inHole holeEnd =
            findHoleLoop mem size remaining false holeEnd := by
        simp [findHoleLoop, current]
      rw [unfolded]
      refine inductionHypothesis ?_
      constructor
      case bounded => omega
      case tooSmall =>
        intro page hole
        have atMost := scanned.tooSmall page hole
        have differs : page ≠ 0x40000 + (remaining + 1) := by
          rintro rfl
          rw [hole.unmapped_first nonempty] at current
          cases current
        omega
      case outside =>
        intro _
        exact .inr (by rw [Nat.add_assoc, current]; exact Option.some_ne_none _)
      case inside =>
        intro isInside
        cases isInside
    | none =>
      -- The end of the hole that the page is in.
      obtain ⟨newEnd, newEndShape⟩ :
          ∃ newEnd,
            newEnd = if !inHole then
              0x40000 + (remaining + 1) + 1 else holeEnd :=
        ⟨_, rfl⟩
      have unfolded :
          findHoleLoop mem size (remaining + 1) inHole holeEnd =
            if newEnd - (0x40000 + (remaining + 1)) = size then
              0x40000 + (remaining + 1)
            else
              findHoleLoop mem size remaining true newEnd := by
        simp [findHoleLoop, current, newEndShape]
      have newHole :
          EndsHole mem newEnd ∧ newEnd ≤ 0xf7ffe ∧
            0x40000 + (remaining + 1) < newEnd ∧
            ∀ page,
              0x40000 + remaining < page → page < newEnd →
              mem.lookup page = none := by
        cases inHole with
        | false =>
          simp only [Bool.not_false, if_true] at newEndShape
          rw [newEndShape]
          refine ⟨scanned.outside rfl, by omega, Nat.lt_succ_self _, ?_⟩
          intro page afterStart beforeEnd
          have isCurrent : page = 0x40000 + (remaining + 1) := by omega
          rw [isCurrent, current]
        | true =>
          simp only [Bool.not_true, if_false,
            Bool.false_eq_true] at newEndShape
          obtain ⟨ends, low, further, unmapped⟩ := scanned.inside rfl
          rw [newEndShape]
          refine ⟨ends, low, further, ?_⟩
          intro page afterStart beforeEnd
          by_cases isCurrent : page = 0x40000 + (remaining + 1)
          · rw [isCurrent, current]
          · exact unmapped page (by omega) beforeEnd
      obtain ⟨ends, low, further, unmapped⟩ := newHole
      rw [unfolded]
      by_cases fits : newEnd - (0x40000 + (remaining + 1)) = size
      · rw [if_pos fits]
        refine .inr ⟨?_, scanned.tooSmall⟩
        constructor
        case above => omega
        case below => omega
        case unmapped =>
          intro other atLeast before
          exact unmapped other (by omega) (by omega)
      · rw [if_neg fits]
        refine inductionHypothesis ?_
        constructor
        case bounded => omega
        case tooSmall =>
          intro page hole
          have atMost := scanned.tooSmall page hole
          by_contra notBelow
          have isCurrent : page = 0x40000 + (remaining + 1) := by omega
          have ended := hole.end_le ends (by omega)
          -- A longer hole would have had a place one page higher.
          have higher : HoleAt mem size (page + 1) := by
            constructor
            case above => omega
            case below => omega
            case unmapped =>
              intro other atLeast before
              exact unmapped other (by omega) (by omega)
          have tooHigh := scanned.tooSmall (page + 1) higher
          omega
        case outside =>
          intro isOutside
          cases isOutside
        case inside =>
          intro _
          exact ⟨ends, low, by omega, unmapped⟩

theorem ptFindHole_cases
    (nonempty : 0 < size) :
    (ptFindHole mem size = badPage ∧ ∀ page, ¬HoleAt mem size page) ∨
      HoleAt mem size (ptFindHole mem size) ∧
        ∀ page, HoleAt mem size page → page ≤ ptFindHole mem size := by
  refine findHoleLoop_highest nonempty _ ?_
  constructor
  case bounded => exact Nat.le_refl _
  case tooSmall =>
    intro page hole
    have below := hole.below
    omega
  case outside => exact fun _ => .inl rfl
  case inside =>
    intro isInside
    cases isInside

theorem ptFindHole_spec
    (nonempty : 0 < size)
    (found : ptFindHole mem size ≠ badPage) :
    HoleAt mem size (ptFindHole mem size) :=
  ((ptFindHole_cases nonempty).resolve_left fun none => found none.1).1

/--
`pt_find_hole` returns the highest place for a mapping, and `BAD_PAGE` exactly
when there is none.
-/
theorem ptFindHole_highest
    (mem : Mem)
    (size : Nat)
    (nonempty : 0 < size) :
    (ptFindHole mem size = badPage ↔ ∀ page, ¬HoleAt mem size page) ∧
      (ptFindHole mem size ≠ badPage →
        HoleAt mem size (ptFindHole mem size) ∧
          ∀ page, HoleAt mem size page → page ≤ ptFindHole mem size) := by
  have notBad : ¬HoleAt mem size badPage := fun hole =>
    absurd hole.above (by decide)
  rcases @ptFindHole_cases mem _ nonempty with
    ⟨isBad, noHole⟩ | ⟨isHole, isHighest⟩
  · exact ⟨⟨fun _ => noHole, fun _ => isBad⟩, fun found => (found isBad).elim⟩
  · refine ⟨⟨fun isBad => ?_, fun noHole => ?_⟩, fun _ => ⟨isHole, isHighest⟩⟩
    · rw [isBad] at isHole
      exact (notBad isHole).elim
    · exact (noHole _ isHole).elim

/-- Where the last page below the vdso is taken, the one before it is found. -/
theorem ptFindHole_highest_of_taken :
    ∃ mem : Mem,
      mem.lookup 0xf7ffd ≠ none ∧
        HoleAt mem 1 (ptFindHole mem 1) ∧
        ptFindHole mem 1 = 0xf7ffc := by
  let mem := Mem.empty.fill 0xf7ffd ⟨0, 0, 0⟩
  have second : ptFindHole mem 1 = 0xf7ffc := by
    unfold ptFindHole
    rw [show 0xf7ffd - 0x40000 = 0xb7ffb + 1 + 1 from rfl, findHoleLoop,
      findHoleLoop]
    simp [mem, Mem.lookup_fill]
  have found : ptFindHole mem 1 ≠ badPage := by
    rw [second]
    decide
  exact ⟨mem, by simp [mem, Mem.lookup_fill],
    ((ptFindHole_highest mem 1 Nat.one_pos).2 found).1, second⟩

end GuestKernel
