import GuestKernel.MemoryMachine

namespace GuestKernel
open Option
open World

/-!
# What one `brk` and one `mremap` do

`sys_brk` refuses, maps pages up to the new break, or unmaps pages down to it.
Growing rounds both breaks up to pages, shrinking rounds both down.
`sys_mremap` rounds both lengths down, unmaps the pages between them, or maps
them as more of the same.
-/

variable
  {host : Host}
  {w next : World}
  {m : MmId}
  {newBrk : Nat}
  {reply : MapReply}

@[simp] theorem brk_setBrk (w : World) (m : MmId) (newBrk : Nat) :
    ((w.setBrk m newBrk).mm m).brk = newBrk := by
  simp [setBrk, setBrks]

@[simp] theorem startBrk_setBrk (w : World) (m : MmId) (newBrk : Nat) :
    ((w.setBrk m newBrk).mm m).startBrk = (w.mm m).startBrk := by
  simp [setBrk, setBrks]

@[simp] theorem lookup_setBrk (w : World) (m : MmId) (newBrk : Nat) :
    (w.setBrk m newBrk).lookup = w.lookup := by
  funext other page
  by_cases same : other = m
  · subst other
    simp [World.lookup, mem, setBrk, setBrks]
  · simp [World.lookup, mem, setBrk, setBrks,
      Function.update_of_ne same]

/-- The number of pages a growing `brk` maps, as 32-bit arithmetic has it. -/
def brkGrowth (oldBrk newBrk : Nat) : Nat :=
  (pageRoundUp newBrk + 2 ^ 32 - pageRoundUp oldBrk) % 2 ^ 32

/-- A call that gives up may have asked the host for memory, no more. -/
def OnlyFilled (w next : World) (reply : MapReply) (length : Nat) : Prop :=
  next = w ∨
    ∃ memory,
      reply.memory = .ok memory ∧
        next = w.fillBytes memory length fun _ => 0

theorem OnlyFilled.mm
    {length : Nat}
    (filled : OnlyFilled w next reply length) :
    next.mm = w.mm := by
  rcases filled with rfl | ⟨_, _, rfl⟩ <;> rfl

/-- An anonymous mapping that fails only asked the host for memory. -/
theorem ptMapNothing_failed
    {start pages : Nat}
    {flags : Flags}
    {code : Errno}
    (mapped :
      ptMapNothing host w m start pages reply flags =
        some (.error code, next)) :
    OnlyFilled w next reply (pages * pageSize % 2 ^ 32) := by
  unfold ptMapNothing at mapped
  split at mapped
  · cases mapped
  · have unchanged : next = mapAnonymous w reply (pages * pageSize % 2 ^ 32) := by
      rcases ptMap_cases mapped with ⟨_, _, same⟩ | ⟨_, _, succeeded, _⟩
      · exact same
      · cases succeeded
    unfold mapAnonymous at unchanged
    split at unchanged
    · exact .inl unchanged
    · rename_i memory replied
      exact .inr ⟨memory, replied, unchanged⟩

/-- A growing `brk` gives up, or maps the pages and moves the break. -/
theorem sysBrk_grow_cases
    (above : (w.mm m).startBrk ≤ newBrk)
    (grows : (w.mm m).brk < newBrk)
    (call : sysBrk host w m newBrk reply = some next) :
    OnlyFilled w next reply
        (brkGrowth (w.mm m).brk newBrk * pageSize % 2 ^ 32) ∨
      ∃ state,
        (∀ other ∈ pageRange (pageRoundUp (w.mm m).brk)
            (brkGrowth (w.mm m).brk newBrk),
          other < memPages ∧ w.lookup m other = none) ∧
          ptMapNothing host w m (pageRoundUp (w.mm m).brk)
              (brkGrowth (w.mm m).brk newBrk) reply pWrite =
            some (.ok (), state) ∧
          next = state.setBrk m newBrk := by
  unfold sysBrk at call
  dsimp only at call
  rw [if_neg (Nat.not_lt.mpr above), if_pos grows] at call
  obtain ⟨hole, check, rest⟩ := bind_eq_some_iff.mp call
  cases hole with
  | false =>
    cases rest
    exact .inl (.inl rfl)
  | true =>
    obtain ⟨⟨result, state⟩, mapped, finish⟩ :=
      bind_eq_some_iff.mp rest
    cases result with
    | error code =>
      cases finish
      exact .inl (ptMapNothing_failed mapped)
    | ok _ =>
      cases finish
      exact .inr ⟨state, ptIsHole_true.mp check, mapped, rfl⟩

/-- A `brk` that does not grow moves the break, and unmaps rounding down. -/
theorem sysBrk_shrink_cases
    (above : (w.mm m).startBrk ≤ newBrk)
    (shrinks : newBrk ≤ (w.mm m).brk)
    (call : sysBrk host w m newBrk reply = some next) :
    ∃ state,
      next = state.setBrk m newBrk ∧
        (state = w ∧ newBrk = (w.mm m).brk ∨
          ptUnmapAlways host w m (page newBrk)
              (page (w.mm m).brk - page newBrk) =
            some state) := by
  unfold sysBrk at call
  dsimp only at call
  rw [if_neg (Nat.not_lt.mpr above), if_neg (Nat.not_lt.mpr shrinks)] at call
  split at call
  · obtain ⟨state, unmapped, finish⟩ := bind_eq_some_iff.mp call
    cases finish
    exact ⟨state, rfl, .inr unmapped⟩
  · rename_i stays
    cases call
    exact ⟨w, rfl, .inl ⟨rfl, by omega⟩⟩

theorem sysBrk_below
    (below : newBrk < (w.mm m).startBrk)
    (call : sysBrk host w m newBrk reply = some next) :
    next = w := by
  unfold sysBrk at call
  dsimp only at call
  rw [if_pos below] at call
  exact (some.inj call).symm

section Mremap

variable
  {addr oldLen newLen : Nat}
  {flags : Flags}
  {result : Except Errno Unit}

/-- The argument checks of `sys_mremap`. -/
def MremapChecked (addr : Nat) (flags : Flags) : Prop :=
  pgOffset addr = 0 ∧
    hasFlag flags (~~~(mremapMaymove ||| mremapFixed)) = false ∧
    hasFlag flags mremapFixed = false

/-- A call that fails a check is refused and does nothing. -/
theorem sysMremap_unchecked
    (unchecked : ¬MremapChecked addr flags) :
    sysMremap host w m addr oldLen newLen flags reply =
      some (.error .inval, w) := by
  unfold sysMremap
  split
  · rfl
  rename_i aligned
  split
  · rfl
  rename_i known
  split
  · rfl
  rename_i notFixed
  exact absurd
    ⟨Decidable.not_not.mp aligned, Bool.not_eq_true _ ▸ known,
      Bool.not_eq_true _ ▸ notFixed⟩ unchecked

/-- A checked call that does not grow is a `pt_unmap` of the tail. -/
theorem sysMremap_shrink
    (checked : MremapChecked addr flags)
    (shrinks : page newLen ≤ page oldLen) :
    sysMremap host w m addr oldLen newLen flags reply =
      (ptUnmap host w m ((page addr + page newLen) % 2 ^ 32)
          (page oldLen - page newLen)).map
        fun (success, next) =>
          (if success then .ok () else .error .fault, next) := by
  obtain ⟨aligned, known, notFixed⟩ := checked
  unfold sysMremap
  rw [if_neg (fun unaligned => unaligned aligned),
    if_neg (by simp [known]), if_neg (by simp [notFixed])]
  dsimp only
  rw [if_pos shrinks]
  rcases ptUnmap host w m ((page addr + page newLen) % 2 ^ 32)
    (page oldLen - page newLen) with _ | ⟨_ | _, _⟩ <;> rfl

theorem sysMremap_grow
    (checked : MremapChecked addr flags)
    (grows : page oldLen < page newLen) :
    sysMremap host w m addr oldLen newLen flags reply =
      mremapGrow host w m (page addr) (page oldLen) (page newLen) reply := by
  obtain ⟨aligned, known, notFixed⟩ := checked
  unfold sysMremap
  rw [if_neg (fun unaligned => unaligned aligned),
    if_neg (by simp [known]), if_neg (by simp [notFixed])]
  dsimp only
  rw [if_neg (Nat.not_le.mpr grows)]

/-- A growing call gives up, or maps pages behind an old range without gaps. -/
theorem mremapGrow_cases
    {start oldPages newPages : Nat}
    (call :
      mremapGrow host w m start oldPages newPages reply =
        some (result, next)) :
    (∃ code, result = .error code ∧
        OnlyFilled w next reply
          ((newPages - oldPages) * pageSize % 2 ^ 32)) ∨
      ∃ entry,
        w.lookup m start = some entry ∧
          (∀ other ∈ pageRange start oldPages,
            other < memPages ∧ w.lookup m other ≠ none) ∧
          hasFlag entry.flags pAnonymous = true ∧
          (∀ other ∈
              pageRange ((start + oldPages) % 2 ^ 32)
                (newPages - oldPages),
            other < memPages ∧ w.lookup m other = none) ∧
          result = .ok () ∧
          ptMapNothing host w m ((start + oldPages) % 2 ^ 32)
              (newPages - oldPages) reply entry.flags =
            some (.ok (), next) := by
  unfold mremapGrow at call
  obtain ⟨found, lookedUp, rest⟩ := bind_eq_some_iff.mp call
  obtain ⟨_, isEntry⟩ := memPt_eq_some.mp lookedUp
  cases found with
  | none =>
    cases rest
    exact .inl ⟨.fault, rfl, .inl rfl⟩
  | some entry =>
    obtain ⟨mapped, check, rest⟩ := bind_eq_some_iff.mp rest
    split at rest
    · rename_i noGap
      split at rest
      · cases rest
        exact .inl ⟨.fault, rfl, .inl rfl⟩
      · rename_i anonymous
        obtain ⟨hole, holeCheck, rest⟩ :=
          bind_eq_some_iff.mp rest
        cases hole with
        | false =>
          cases rest
          exact .inl ⟨.nomem, rfl, .inl rfl⟩
        | true =>
          cases result with
          | error code =>
            exact .inl ⟨code, rfl, ptMapNothing_failed rest⟩
          | ok _ =>
            refine .inr ⟨entry, isEntry, ?_, ?_, ?_, rfl, rest⟩
            · rw [noGap] at check
              exact allMapped_eq_true.mp check
            · simpa using anonymous
            · exact ptIsHole_true.mp holeCheck
    · cases rest

end Mremap

end GuestKernel
