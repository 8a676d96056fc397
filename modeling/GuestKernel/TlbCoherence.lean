import GuestKernel.BackingRuns
import GuestKernel.Tlb

namespace GuestKernel
open Option

/-!
# Coherence of the translation cache

The cache is emptied lazily: `tlb_refresh` compares the change counter of the
address space with the one it remembers.  That is sound because every
page-table operation either counts a change or leaves the translations it
found alone (`Steady`).  The exception is a `pt_set_flags` that the host stops
half way after it took write permission from a page.
-/

/--
The counter of an address space only grows; while it stays, every entry keeps
its data and its offset, and a writable page stays writable.
-/
structure Steady (m : MmId) (w next : World) : Prop where
  monotone : (w.mem m).changes ≤ (next.mem m).changes
  stable :
    (next.mem m).changes = (w.mem m).changes →
    ∀ {page entry},
      w.lookup m page = some entry →
      ∃ after,
        next.lookup m page = some after ∧
          after.data = entry.data ∧
          after.offset = entry.offset ∧
          (pWritable entry.flags = true →
            pWritable after.flags = true)

namespace Steady

variable {m : MmId}

variable {w next : World} {other : MmId} {host : Host} {start pages page : Nat}
  {flags : Flags} {result : Except Errno Unit}

/-- Nothing that was mapped changed. -/
theorem ofKept
    (monotone : (w.mem m).changes ≤ (next.mem m).changes)
    (kept :
      ∀ {page entry},
        w.lookup m page = some entry →
        next.lookup m page = some entry) :
    Steady m w next where
  monotone := monotone
  stable _ _ entry found := ⟨entry, kept found, rfl, rfl, id⟩

/-- The change was counted. -/
theorem ofCounted
    (counted : (w.mem m).changes < (next.mem m).changes) :
    Steady m w next where
  monotone := Nat.le_of_lt counted
  stable same := absurd same (Nat.ne_of_gt counted)

theorem ofSameMem
    (same : next.mem m = w.mem m) :
    Steady m w next := by
  refine ofKept (Nat.le_of_eq (by rw [same])) ?_
  intro page entry found
  rw [World.lookup, same]
  exact found

theorem refl (w : World) : Steady m w w :=
  ofSameMem rfl

/-- One steady change after the other is steady. -/
theorem trans
    {first middle last : World}
    (earlier : Steady m first middle)
    (later : Steady m middle last) :
    Steady m first last where
  monotone := Nat.le_trans earlier.monotone later.monotone
  stable := by
    intro same page entry found
    have growsFirst := earlier.monotone
    have growsLast := later.monotone
    obtain ⟨between, inMiddle, data, offset, writable⟩ :=
      earlier.stable (by omega) found
    obtain ⟨after, inLast, dataLast, offsetLast, writableLast⟩ :=
      later.stable (by omega) inMiddle
    exact ⟨after, inLast, dataLast.trans data, offsetLast.trans offset,
      writableLast ∘ writable⟩

/-- A free page may be filled without counting. -/
theorem fillEntry
    (free : w.lookup other page = none)
    (entry : PtEntry) :
    Steady m w (w.fillEntry other page entry) := by
  refine ofKept ((Frame.fillEntry w other page entry :
    Frame plainHost _ _).changes m) ?_
  intro otherPage before found
  rw [World.lookup_fillEntry, if_neg]
  · exact found
  · rintro ⟨rfl, rfl⟩
    cases free.symm.trans found

/-- Host memory is no matter of the page table. -/
theorem fillBytes
    (w : World) (memory length : Nat) (content : Nat → UInt8) :
    Steady m w (w.fillBytes memory length content) :=
  ofSameMem rfl

theorem retain
    {id : DataId}
    (retained : w.retain id = some next) :
    Steady m w next := by
  obtain ⟨_, _, rfl⟩ := World.retain_eq_some.mp retained
  exact ofSameMem rfl

/-- Unmapping counts its change. -/
theorem ptUnmapAlways
    (unmapped : ptUnmapAlways host w other start pages = some next) :
    Steady m w next := by
  obtain ⟨frame, _, changes, lookups⟩ := ptUnmapAlways_spec unmapped
  by_cases same : m = other
  · refine ofCounted ?_
    rw [changes, if_pos same]
    exact Nat.lt_succ_self _
  · refine ofKept (frame.changes m) ?_
    intro page entry found
    rw [lookups, if_neg (fun both => same both.1)]
    exact found

/-- One mapping round fills a free slot, or counts the unmapping. -/
theorem ptMapPage
    {id : DataId}
    {offset : Nat}
    (mapped :
      ptMapPage host other id start offset flags w page = some next) :
    Steady m w next := by
  obtain ⟨inside, unmapped, retained, unmapStep, retain, rfl⟩ :=
    ptMapPage_cases mapped
  have unmapFacts :
      Steady m w unmapped ∧ unmapped.lookup other page = none := by
    rcases unmapStep with ⟨free, rfl⟩ | ⟨state, round, rfl⟩
    · exact ⟨.refl _, free⟩
    · have always :
          GuestKernel.ptUnmapAlways host w other page 1 =
            some (state.memChanged other) := by
        rw [ptUnmapAlways_one inside, round]
        rfl
      refine ⟨ptUnmapAlways always, ?_⟩
      rw [(ptUnmapAlways_spec always).2.2.2, pageRange_one inside,
        if_pos (by simp)]
  refine (unmapFacts.1.trans (Steady.retain retain)).trans
    (fillEntry ?_ _)
  rw [lookup_retain retain]
  exact unmapFacts.2

/-- `pt_map` fills free pages, and unmapping counts. -/
theorem ptMap
    {offset : Nat}
    {reply : MapReply}
    (mapped :
      ptMap host w other start pages reply offset flags =
        some (result, next)) :
    Steady m w next := by
  rcases ptMap_cases mapped with ⟨_, _, rfl⟩ | ⟨memory, _, _, loop⟩
  · exact .refl _
  · have allocated :
        Steady m w (w.newData memory start pages offset) :=
      ofSameMem rfl
    refine allocated.trans (Loop.foldlM_invariant
      (motive := fun state =>
        Steady m (w.newData memory start pages offset) state)
      (fun _ holds round => holds.trans (ptMapPage round)) (.refl _) loop)

theorem ptMapNothing
    {reply : MapReply}
    (mapped :
      ptMapNothing host w other start pages reply flags =
        some (result, next)) :
    Steady m w next := by
  rcases ptMapNothing_cases mapped with
      ⟨_, rfl⟩ | ⟨_, rfl | ⟨_, _, rfl⟩, call⟩
  · exact .refl _
  · exact ptMap call
  · exact (fillBytes w _ _ _).trans (ptMap call)

/-- A fault maps a free page, or counts its copy. -/
theorem memResolveFault
    {type : Access}
    {ptraceCopy : Bool}
    {grow copy : MapReply}
    (resolved :
      memResolveFault host w other page type ptraceCopy grow copy =
        some (result, next)) :
    Steady m w next := by
  obtain ⟨grown, middle, growth, rest⟩ := memResolveFault_cases resolved
  have grownSteady : Steady m w middle := by
    rcases (growStack_cases growth).2 with rfl | ⟨_, mapped⟩
    · exact .refl _
    · exact ptMapNothing mapped
  rcases rest with rfl | rest
  · exact grownSteady
  rcases resolveWrite_cases rest with
      rfl | ⟨entry, record, memory, _, _, _, copied⟩
  · exact grownSteady
  · exact (grownSteady.trans (fillBytes middle _ _ _)).trans
      (ptMap copied)

/-- Sharing counts a change in both address spaces. -/
theorem ptCopyOnWrite
    {src dst : MmId}
    (copied : ptCopyOnWrite host w src dst start pages = some next) :
    Steady m w next := by
  obtain ⟨frame, _, lookups⟩ := ptCopyOnWrite_spec copied
  by_cases involved : m = src ∨ m = dst
  · refine ofCounted ?_
    unfold GuestKernel.ptCopyOnWrite at copied
    obtain ⟨state, loop, finish⟩ := bind_eq_some_iff.mp copied
    cases finish
    have grows : (w.mem m).changes ≤ (state.mem m).changes := by
      refine (Loop.foldlM_invariant
        (motive := fun state => Frame host w state)
        (fun _ holds round => holds.trans (copyPage_spec round).1)
        (.refl w) loop).changes m
    refine Nat.lt_of_le_of_lt grows ?_
    rcases involved with rfl | rfl
    · refine Nat.lt_of_lt_of_le ?_
        ((Frame.memChanged _ dst : Frame host _ _).changes m)
      simp [World.memChanged]
    · refine Nat.lt_of_le_of_lt
        ((Frame.memChanged state src : Frame host _ _).changes m) ?_
      simp [World.memChanged]
  · refine ofKept (frame.changes m) ?_
    intro page entry found
    rw [lookups, if_neg]
    · exact found
    · rintro ⟨_, isSrc | ⟨isDst, _⟩⟩
      · exact involved (.inl isSrc)
      · exact involved (.inr isDst)

/-- The end of an address space is counted. -/
theorem memDestroy
    (destroyed : memDestroy host w other = some next) :
    Steady m w next := by
  obtain ⟨state, always, finish⟩ := bind_eq_some_iff.mp destroyed
  cases finish
  by_cases same : m = other
  · subst other
    refine ofCounted ?_
    rw [World.mem_setMem_same]
    show (w.mem m).changes < (state.mem m).changes
    rw [(ptUnmapAlways_spec always).2.2.1, if_pos rfl]
    exact Nat.lt_succ_self _
  · exact (ptUnmapAlways always).trans
      (ofSameMem (World.mem_setMem_other state same _))

end Steady

/-- The host stops the call after it wrote the flags of some page. -/
def SetFlagsRefused
    (w : World)
    (m : MmId)
    (start pages : Nat)
    (flags : Flags)
    (hostMprotect : Nat → Except Errno Unit) : Prop :=
  ∃ page ∈ setPages w m start pages flags hostMprotect,
    ∃ entry code,
      w.lookup m page = some entry ∧
        hasFlag (flags &&& ~~~entry.flags) (pRead ||| pWrite) = true ∧
        hostMprotect page = .error code

/-- The call writes flags without write permission over a writable page. -/
def TakesWrite
    (w : World)
    (m : MmId)
    (start pages : Nat)
    (flags : Flags)
    (hostMprotect : Nat → Except Errno Unit) : Prop :=
  pWritable flags = false ∧
    ∃ page ∈ setPages w m start pages flags hostMprotect,
      ∃ entry,
        w.lookup m page = some entry ∧ pWritable entry.flags = true

variable {m : MmId} {w next : World} {hostMprotect : Nat → Except Errno Unit}
  {result : Except Errno Unit}

/-- The loop of `pt_set_flags` counts a change unless the host stops it. -/
theorem setFlagsLoop_changes
    {flags : Flags}
    {range : List Nat}
    (distinct : range.Nodup)
    (changed :
      setFlagsLoop m flags hostMprotect w range = some (result, next)) :
    (w.mem m).changes < (next.mem m).changes ∨
      ∃ page ∈ rewrittenPages w m flags hostMprotect range,
        ∃ entry code,
          w.lookup m page = some entry ∧
            hasFlag (flags &&& ~~~entry.flags) (pRead ||| pWrite) = true ∧
            hostMprotect page = .error code := by
  induction range generalizing w with
  | nil =>
    cases changed
    refine .inl ?_
    simp [World.memChanged]
  | cons page rest inductionHypothesis =>
    obtain ⟨notAgain, distinctRest⟩ := List.nodup_cons.mp distinct
    obtain ⟨entry, found, round⟩ := setFlagsLoop_cons changed
    rcases round with
        ⟨⟨code, refused, increases, _⟩, _⟩ | ⟨goesOn, later⟩
    · refine .inr ⟨page, ?_, entry, code, found, increases, refused⟩
      simp [rewrittenPages, found, refused, increases]
    · have agree :
          ∀ other ∈ rest,
            (w.fillEntry m page { entry with flags := flags }).lookup
              m other = w.lookup m other := by
        intro other member
        rw [World.lookup_fillEntry, if_neg]
        rintro ⟨_, rfl⟩
        exact notAgain member
      have grows :=
        (Frame.fillEntry w m page { entry with flags := flags } :
          Frame plainHost _ _).changes m
      rcases inductionHypothesis distinctRest later with
          counted | ⟨other, written, before, code, inRest, refused⟩
      · exact .inl (Nat.lt_of_le_of_lt grows counted)
      · rw [rewrittenPages_congr flags hostMprotect agree] at written
        have isRest := rewrittenPages_subset written
        rw [agree other isRest] at inRest
        refine .inr ⟨other, ?_, before, code, inRest, refused⟩
        rw [rewrittenPages_cons found goesOn]
        exact List.mem_cons_of_mem _ written

/--
`pt_set_flags` is steady unless the host stops it after it took write
permission from a page.
-/
theorem Steady.ptSetFlags
    {other : MmId}
    {start pages : Nat}
    {flags : Flags}
    (changed :
      ptSetFlags w other start pages flags hostMprotect =
        some (result, next))
    (safe :
      ¬ (SetFlagsRefused w other start pages flags hostMprotect ∧
        TakesWrite w other start pages flags hostMprotect)) :
    Steady m w next := by
  obtain ⟨frame, _, _, lookups⟩ :=
    ptSetFlags_spec plainHost changed
  by_cases same : m = other
  · subst other
    rcases ptSetFlags_cases changed with
        ⟨_, _, rfl⟩ | ⟨accepted, loop⟩
    · exact .refl _
    · have allPages :
          setPages w m start pages flags hostMprotect =
            rewrittenPages w m flags hostMprotect
              (pageRange start pages) :=
        if_pos (allMapped_eq_true.mpr accepted)
      rcases setFlagsLoop_changes (pageRange_nodup start pages) loop with
          counted | refused
      · exact .ofCounted counted
      · rw [← allPages] at refused
        refine ⟨frame.changes m, ?_⟩
        intro _ page entry found
        rw [lookups]
        split
        · rename_i written
          refine ⟨{ entry with flags := flags }, ?_, rfl, rfl, ?_⟩
          · rw [found]
            rfl
          · intro writable
            cases kept : pWritable flags with
            | true =>
              rfl
            | false =>
              exact absurd ⟨refused, kept, page, written.2, entry,
                found, writable⟩ safe
        · exact ⟨entry, found, rfl, rfl, id⟩
  · refine .ofKept (frame.changes m) ?_
    intro page entry found
    rw [lookups, if_neg (fun both => same both.1)]
    exact found

/--
The operation is a `pt_set_flags` that the host stops after it took write
permission from a page: it returns an error and counts no change.
-/
def TableAction.Unannounced (w : World) : TableAction → Prop
  | ptSetFlags m start pages flags hostMprotect =>
    SetFlagsRefused w m start pages flags hostMprotect ∧
      TakesWrite w m start pages flags hostMprotect
  | _ => False

/-- Every other operation is steady for every address space. -/
theorem TableAction.steady
    {host : Host}
    {action : TableAction}
    (inUse : m < w.mmCount)
    (announced : ¬ action.Unannounced w)
    (taken : (tableMachine host).step w action next) :
    Steady m w next := by
  obtain ⟨_, run⟩ := taken
  cases action with
  | mmNew =>
    cases run
    refine .ofSameMem ?_
    simp [GuestKernel.mmNew, World.mem, World.addMm,
      Function.update_of_ne (Nat.ne_of_lt inUse)]
  | ptMap other start pages reply offset flags =>
    obtain ⟨⟨_, _⟩, call, rfl⟩ := map_eq_some_iff.mp run
    exact .ptMap call
  | attachFile other page fd offset =>
    obtain ⟨_, _, _, _, rfl⟩ := World.attachFile_eq_some.mp run
    exact .ofSameMem rfl
  | ptMapNothing other start pages reply flags =>
    obtain ⟨⟨_, _⟩, call, rfl⟩ := map_eq_some_iff.mp run
    exact .ptMapNothing call
  | ptUnmap other start pages =>
    obtain ⟨⟨_, _⟩, call, rfl⟩ := map_eq_some_iff.mp run
    rcases ptUnmap_cases call with ⟨_, rfl⟩ | ⟨_, _, always⟩
    · exact .refl _
    · exact .ptUnmapAlways always
  | ptUnmapAlways other start pages =>
    exact .ptUnmapAlways run
  | ptSetFlags other start pages flags hostMprotect =>
    obtain ⟨⟨_, _⟩, call, rfl⟩ := map_eq_some_iff.mp run
    exact .ptSetFlags call announced
  | ptCopyOnWrite src dst start pages =>
    exact .ptCopyOnWrite run
  | memResolveFault other page type ptraceCopy grow copy =>
    obtain ⟨⟨_, _⟩, call, rfl⟩ := map_eq_some_iff.mp run
    exact .memResolveFault call
  | memDestroy other =>
    exact .memDestroy run

end GuestKernel
