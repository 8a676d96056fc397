import GuestKernel.AddressSpace
import GuestKernel.Machine

namespace GuestKernel
open List Option Function
open World

/-!
# What each page-table operation changes

One specification lemma for every operation of `GuestKernel.AddressSpace`.
`Frame` collects what all of them leave alone; the lookup part says exactly
which entries an operation writes.  Later modules cite these lemmas and do not
unfold the operations again.
-/

/-- Everything but the reference count of a record is immutable. -/
def Data.Same (first second : Data) : Prop :=
  second = { first with refcount := second.refcount }

theorem Data.Same.releaseOf
    {first second : Data}
    (same : first.Same second)
    (host : Host)
    (id : DataId) :
    releaseOf host id second = releaseOf host id first := by
  rw [same]
  rfl

/--
What every operation keeps of the records: the break pointers stay, records
are only added, a surviving record keeps its identity, and one that does not
survive was released.
-/
structure Records (host : Host) (w next : World) : Prop where
  mmCount : next.mmCount = w.mmCount
  startBrk : ∀ m, (next.mm m).startBrk = (w.mm m).startBrk
  brk : ∀ m, (next.mm m).brk = (w.mm m).brk
  nextData : w.nextData ≤ next.nextData
  unwrapped : next.wrapped = false → w.wrapped = false
  kept :
    ∀ {id record},
      id < w.nextData →
      next.data id = some record →
      ∃ before, w.data id = some before ∧ before.Same record
  released : w.released <+: next.released
  gone :
    ∀ {id record},
      id < w.nextData →
      w.data id = some record →
      next.data id = none →
      releaseOf host id record ∈ next.released

/--
The frame of the operations that also leave the host bytes alone and only
count page-table changes up.
-/
structure Frame (host : Host) (w next : World) : Prop
    extends Records host w next where
  bytes : next.bytes = w.bytes
  changes : ∀ m, (w.mem m).changes ≤ (next.mem m).changes

namespace Records

variable {host : Host}

/-- A change that leaves all records alone. -/
theorem ofSameData
    {w next : World}
    (data : next.data = w.data)
    (nextData : next.nextData = w.nextData)
    (released : next.released = w.released)
    (mmCount : next.mmCount = w.mmCount)
    (startBrk : ∀ m, (next.mm m).startBrk = (w.mm m).startBrk)
    (brk : ∀ m, (next.mm m).brk = (w.mm m).brk)
    (unwrapped : next.wrapped = false → w.wrapped = false) :
    Records host w next where
  mmCount := mmCount
  startBrk := startBrk
  brk := brk
  nextData := Nat.le_of_eq nextData.symm
  unwrapped := unwrapped
  kept := fun {_ record} _ found => ⟨record, data ▸ found, rfl⟩
  released := released ▸ prefix_rfl
  gone := by
    intro id record _ live dead
    rw [data, live] at dead
    cases dead

/-- Changes that keep the records compose. -/
theorem trans
    {first middle last : World}
    (earlier : Records host first middle)
    (later : Records host middle last) :
    Records host first last where
  mmCount := later.mmCount.trans earlier.mmCount
  startBrk m := (later.startBrk m).trans (earlier.startBrk m)
  brk m := (later.brk m).trans (earlier.brk m)
  nextData := Nat.le_trans earlier.nextData later.nextData
  unwrapped := earlier.unwrapped ∘ later.unwrapped
  kept := by
    intro id record allocated found
    obtain ⟨middleRecord, inMiddle, sameLate⟩ :=
      later.kept (Nat.lt_of_lt_of_le allocated earlier.nextData) found
    obtain ⟨before, inFirst, sameEarly⟩ :=
      earlier.kept allocated inMiddle
    refine ⟨before, inFirst, ?_⟩
    unfold Data.Same at sameLate sameEarly ⊢
    rw [sameLate, sameEarly]
  released := earlier.released.trans later.released
  gone := by
    intro id record allocated live dead
    cases inMiddle : middle.data id with
    | none =>
      exact later.released.subset (earlier.gone allocated live inMiddle)
    | some middleRecord =>
      obtain ⟨before, wasLive, same⟩ := earlier.kept allocated inMiddle
      cases live.symm.trans wasLive
      rw [← same.releaseOf host id]
      exact later.gone
        (Nat.lt_of_lt_of_le allocated earlier.nextData) inMiddle dead

theorem setMem (w : World) (m : MmId) (mem : Mem) :
    Records host w (w.setMem m mem) := by
  refine ofSameData rfl rfl rfl rfl ?_ ?_ id <;>
    intro other <;>
    by_cases same : other = m
  · subst other
    simp [World.setMem]
  · simp [World.setMem, update_of_ne same]
  · subst other
    simp [World.setMem]
  · simp [World.setMem, update_of_ne same]

theorem fillBytes
    (w : World) (memory length : Nat) (content : Nat → UInt8) :
    Records host w (w.fillBytes memory length content) :=
  ofSameData rfl rfl rfl rfl (fun _ => rfl) (fun _ => rfl) id

end Records

namespace Frame

variable {host : Host}

theorem refl (w : World) : Frame host w w where
  toRecords :=
    .ofSameData rfl rfl rfl rfl (fun _ => rfl) (fun _ => rfl) id
  bytes := rfl
  changes _ := Nat.le_refl _

theorem trans
    {first middle last : World}
    (earlier : Frame host first middle)
    (later : Frame host middle last) :
    Frame host first last where
  toRecords := earlier.toRecords.trans later.toRecords
  bytes := later.bytes.trans earlier.bytes
  changes m := Nat.le_trans (earlier.changes m) (later.changes m)

theorem setMem
    (w : World)
    (m : MmId)
    {mem : Mem}
    (grows : (w.mem m).changes ≤ mem.changes) :
    Frame host w (w.setMem m mem) where
  toRecords := .setMem w m mem
  bytes := rfl
  changes other := by
    by_cases same : other = m
    · subst other
      simpa using grows
    · rw [mem_setMem_other w same]

theorem fillEntry
    (w : World) (m : MmId) (page : Nat) (entry : PtEntry) :
    Frame host w (w.fillEntry m page entry) :=
  setMem w m (Nat.le_refl _)

theorem clearEntry (w : World) (m : MmId) (page : Nat) :
    Frame host w (w.clearEntry m page) :=
  setMem w m (by simp)

theorem memChanged (w : World) (m : MmId) :
    Frame host w (w.memChanged m) :=
  setMem w m (by simp)

/-- A new record leaves the old ones alone. -/
theorem newData
    (w : World)
    (memory : Nat)
    (start pages offset : Nat) :
    Frame host w (w.newData memory start pages offset) := by
  have oldData :
      ∀ {id},
        id < w.nextData →
        (w.newData memory start pages offset).data id =
          w.data id :=
    fun isOld => update_of_ne (Nat.ne_of_lt isOld) _ _
  exact {
    bytes := rfl
    mmCount := rfl
    startBrk := fun _ => rfl
    brk := fun _ => rfl
    changes := fun _ => Nat.le_refl _
    nextData := Nat.le_succ _
    unwrapped := fun notWrapped => (Bool.or_eq_false_iff.mp notWrapped).1
    kept := fun {_ record} allocated found =>
      ⟨record, oldData allocated ▸ found, rfl⟩
    released := prefix_rfl
    gone := by
      intro id record allocated live dead
      rw [oldData allocated, live] at dead
      cases dead }

variable {w next : World} {id : DataId}

/-- Rewriting or releasing one live record is framed. -/
theorem ofRecord
    {record : Data}
    {content : Option Data}
    (live : w.data id = some record)
    (data : next.data = update w.data id content)
    (same : ∀ {after}, content = some after → record.Same after)
    (released : w.released <+: next.released)
    (gone :
      content = none → releaseOf host id record ∈ next.released)
    (mm : next.mm = w.mm)
    (mmCount : next.mmCount = w.mmCount)
    (bytes : next.bytes = w.bytes)
    (nextData : next.nextData = w.nextData)
    (unwrapped : next.wrapped = false → w.wrapped = false) :
    Frame host w next where
  bytes := bytes
  mmCount := mmCount
  startBrk m := by rw [mm]
  brk m := by rw [mm]
  changes m := by simp [World.mem, mm]
  nextData := Nat.le_of_eq nextData.symm
  unwrapped := unwrapped
  kept := by
    intro other after _ found
    rw [data] at found
    by_cases isRecord : other = id
    · subst other
      rw [update_self] at found
      exact ⟨record, live, same found⟩
    · rw [update_of_ne isRecord] at found
      exact ⟨after, found, rfl⟩
  released := released
  gone := by
    intro other before _ wasLive dead
    rw [data] at dead
    by_cases isRecord : other = id
    · subst other
      cases live.symm.trans wasLive
      rw [update_self] at dead
      exact gone dead
    · rw [update_of_ne isRecord, wasLive] at dead
      cases dead

theorem retain
    (retained : w.retain id = some next) :
    Frame host w next := by
  obtain ⟨record, live, rfl⟩ := retain_eq_some.mp retained
  refine ofRecord live rfl ?_ prefix_rfl ?_ rfl rfl rfl rfl
    fun notWrapped => (Bool.or_eq_false_iff.mp notWrapped).1
  · rintro after ⟨⟩
    rfl
  · rintro ⟨⟩

/-- Giving a reference back changes a counter or frees the record. -/
theorem dropRef
    (dropped : w.dropRef host id = some next) :
    Frame host w next := by
  obtain ⟨record, live, ⟨_, rfl⟩ | ⟨_, rfl⟩⟩ :=
    dropRef_cases dropped
  · refine ofRecord live rfl ?_ (prefix_append _ _) ?_
      rfl rfl rfl rfl fun same => same
    · rintro after ⟨⟩
    · intro _
      exact mem_append_right _ mem_cons_self
  · refine ofRecord live rfl ?_ prefix_rfl ?_
      rfl rfl rfl rfl fun same => same
    · rintro after ⟨⟩
      rfl
    · rintro ⟨⟩

end Frame

variable {w next : World} {m dst src : MmId} {host : Host}
  {page start pages offset : Nat} {flags : Flags} {result : Except Errno Unit}
  {id : DataId} {range : List Nat} {reply copy : MapReply}
  {hostMprotect : Nat → Except Errno Unit} {type : Access} {ptraceCopy : Bool}

theorem lookup_retain
    (retained : w.retain id = some next) :
    next.lookup = w.lookup := by
  obtain ⟨record, _, rfl⟩ := retain_eq_some.mp retained
  rfl

theorem lookup_dropRef
    (dropped : w.dropRef host id = some next) :
    next.lookup = w.lookup := by
  funext m page
  simp [World.lookup, World.mem, mm_dropRef dropped]

theorem data_dropRef_other
    {other : DataId}
    (dropped : w.dropRef host id = some next)
    (different : other ≠ id) :
    next.data other = w.data other := by
  obtain ⟨record, _, ⟨_, rfl⟩ | ⟨_, rfl⟩⟩ :=
    dropRef_cases dropped <;>
  exact update_of_ne different _ _

theorem nextData_dropRef
    (dropped : w.dropRef host id = some next) :
    next.nextData = w.nextData := by
  obtain ⟨record, _, ⟨_, rfl⟩ | ⟨_, rfl⟩⟩ :=
    dropRef_cases dropped <;>
  rfl

theorem unmapPage_cases
    (unmapped : unmapPage host m w page = some next) :
    page < memPages ∧
      ((w.lookup m page = none ∧ next = w) ∨
        ∃ entry,
          w.lookup m page = some entry ∧
            (w.clearEntry m page).dropRef host entry.data = some next) := by
  unfold unmapPage at unmapped
  obtain ⟨found, lookedUp, rest⟩ := bind_eq_some_iff.mp unmapped
  obtain ⟨inside, foundShape⟩ := memPt_eq_some.mp lookedUp
  refine ⟨inside, ?_⟩
  cases found with
  | none =>
    exact .inl ⟨foundShape, (some.inj rest).symm⟩
  | some entry =>
    exact .inr ⟨entry, foundShape, rest⟩

/-- One round removes one entry and nothing else. -/
theorem unmapPage_spec
    (unmapped : unmapPage host m w page = some next) :
    Frame host w next ∧
      next.nextData = w.nextData ∧
      (∀ other, (next.mem other).changes = (w.mem other).changes) ∧
      ∀ other otherPage,
        next.lookup other otherPage =
          if other = m ∧ otherPage = page then none
          else w.lookup other otherPage := by
  obtain ⟨_, ⟨absent, rfl⟩ | ⟨entry, _, dropped⟩⟩ :=
    unmapPage_cases unmapped
  · refine ⟨.refl _, rfl, fun _ => rfl, ?_⟩
    intro other otherPage
    split
    · rename_i same
      rw [same.1, same.2, absent]
    · rfl
  · refine ⟨(Frame.clearEntry w m page).trans (.dropRef dropped),
      (nextData_dropRef dropped).trans rfl, ?_, ?_⟩
    · intro other
      have cleared :
          ((w.clearEntry m page).mem other).changes =
            (w.mem other).changes := by
        by_cases same : other = m
        · subst other
          simp [World.clearEntry]
        · simp [World.clearEntry, mem_setMem_other w same]
      rw [← cleared]
      simp [World.mem, mm_dropRef dropped]
    · intro other otherPage
      rw [lookup_dropRef dropped, lookup_clearEntry]

/-- The loop of `pt_unmap_always` removes the entries it walks over. -/
theorem unmapLoop_spec
    {walk : List Nat}
    (unmapped : walk.foldlM (unmapPage host m) w = some next) :
    Frame host w next ∧
      next.nextData = w.nextData ∧
      (∀ other, (next.mem other).changes = (w.mem other).changes) ∧
      ∀ other otherPage,
        next.lookup other otherPage =
          if other = m ∧ otherPage ∈ walk then none
          else w.lookup other otherPage := by
  refine Loop.foldlM_prefix
    (motive := fun done state =>
      Frame host w state ∧
        state.nextData = w.nextData ∧
        (∀ other, (state.mem other).changes = (w.mem other).changes) ∧
        ∀ other otherPage,
          state.lookup other otherPage =
            if other = m ∧ otherPage ∈ done then none
            else w.lookup other otherPage)
    ?_ ⟨.refl _, rfl, fun _ => rfl, by simp⟩ unmapped
  rintro done page later state after _
    ⟨frame, sameNext, sameChanges, lookups⟩ round
  obtain ⟨roundFrame, roundNext, roundChanges, roundLookups⟩ :=
    unmapPage_spec round
  refine ⟨frame.trans roundFrame, roundNext.trans sameNext,
    fun other => (roundChanges other).trans (sameChanges other), ?_⟩
  intro other otherPage
  rw [roundLookups, lookups]
  by_cases same : other = m <;>
    by_cases isPage : otherPage = page <;>
      by_cases inDone : otherPage ∈ done <;>
        simp [same, isPage, inDone]

/-- `pt_unmap_always` clears its range and counts one change. -/
theorem ptUnmapAlways_spec
    (unmapped : ptUnmapAlways host w m start pages = some next) :
    Frame host w next ∧
      next.nextData = w.nextData ∧
      (∀ other,
        (next.mem other).changes =
          if other = m then (w.mem other).changes + 1
          else (w.mem other).changes) ∧
      ∀ other otherPage,
        next.lookup other otherPage =
          if other = m ∧ otherPage ∈ pageRange start pages then none
          else w.lookup other otherPage := by
  unfold ptUnmapAlways at unmapped
  obtain ⟨state, loop, finish⟩ := bind_eq_some_iff.mp unmapped
  cases finish
  obtain ⟨frame, sameNext, sameChanges, lookups⟩ := unmapLoop_spec loop
  refine ⟨frame.trans (.memChanged state m), sameNext, ?_, ?_⟩
  · intro other
    by_cases same : other = m
    · subst other
      simp [World.memChanged, sameChanges]
    · simp [World.memChanged, mem_setMem_other state same,
        sameChanges, same]
  · intro other otherPage
    rw [lookup_memChanged, lookups]
    by_cases same : other = m
    · subst other
      by_cases inRange : otherPage ∈ pageRange start pages
      · by_cases mapped : w.lookup m otherPage = none
        · simp [mapped]
        · obtain ⟨after, before⟩ := mem_pageRange.mp inRange
          have walked := mem_memWalk_of_mapped after before mapped
          rw [if_pos ⟨rfl, walked⟩, if_pos ⟨rfl, inRange⟩]
      · have notWalked :
            otherPage ∉
              memWalk (w.mem m) start ((start + pages) % 2 ^ 32) :=
          fun walked => inRange (mem_pageRange.mpr (memWalk_bounds walked))
        rw [if_neg (fun both => notWalked both.2),
          if_neg (fun both => inRange both.2)]
    · rw [if_neg (fun both => same both.1),
        if_neg (fun both => same both.1)]

theorem ptUnmapAlways_one
    (inside : page < memPages) :
    ptUnmapAlways host w m page 1 =
      (unmapPage host m w page).map fun state => state.memChanged m := by
  have stop : (page + 1) % 2 ^ 32 = page + 1 := by
    simp only [memPages] at inside
    omega
  unfold ptUnmapAlways
  rw [stop, memWalk_one]
  simp only [foldlM_cons, foldlM_nil]
  cases unmapPage host m w page <;> rfl

theorem allMapped_eq_true
    {mem : Mem} :
    allMapped mem range = some true ↔
      ∀ page ∈ range, page < memPages ∧ mem.lookup page ≠ none := by
  induction range with
  | nil =>
    simp [allMapped]
  | cons page rest inductionHypothesis =>
    by_cases inside : page < memPages
    · cases found : mem.lookup page <;>
        simp [allMapped, memPt, inside, found, inductionHypothesis]
    · simp [allMapped, memPt, inside]

/-- `pt_unmap` either refuses and changes nothing, or unmaps the range. -/
theorem ptUnmap_cases
    {success : Bool}
    (unmapped : ptUnmap host w m start pages = some (success, next)) :
    (success = false ∧ next = w) ∨
      (success = true ∧
        (∀ page ∈ pageRange start pages,
          page < memPages ∧ w.lookup m page ≠ none) ∧
        ptUnmapAlways host w m start pages = some next) := by
  unfold ptUnmap at unmapped
  obtain ⟨checked, check, rest⟩ := bind_eq_some_iff.mp unmapped
  cases checked with
  | false =>
    cases rest
    exact .inl ⟨rfl, rfl⟩
  | true =>
    obtain ⟨state, always, finish⟩ := bind_eq_some_iff.mp rest
    cases finish
    exact .inr ⟨rfl, allMapped_eq_true.mp check, always⟩

/-- The entry `pt_map` writes for one page. -/
def mappedEntry
    (id : DataId) (start offset : Nat) (flags : Flags) (page : Nat) :
    PtEntry where
  data := id
  offset := (page - start) * pageSize + offset
  flags := flags

/--
`pt_unmap` of one page that was just seen mapped cannot refuse, so the guarded
call of `pt_map` is one round of the unmapping loop.
-/
theorem unmapIfMapped_eq
    (inside : page < memPages) :
    unmapIfMapped host m w page =
      if w.lookup m page = none then some w
      else (unmapPage host m w page).map fun state =>
        state.memChanged m := by
  unfold unmapIfMapped
  cases found : w.lookup m page with
  | none =>
    have isFree : memPt (w.mem m) page = some none :=
      memPt_eq_some.mpr ⟨inside, found⟩
    simp [isFree]
  | some entry =>
    have isMapped : memPt (w.mem m) page = some (some entry) :=
      memPt_eq_some.mpr ⟨inside, found⟩
    have accepted :
        allMapped (w.mem m) (pageRange page 1) = some true := by
      rw [pageRange_one inside]
      refine allMapped_eq_true.mpr ?_
      simp only [mem_singleton, forall_eq]
      exact ⟨inside, by
        rw [show (w.mem m).lookup page = some entry from found]
        exact some_ne_none entry⟩
    simp only [isMapped, bind_eq_bind, bind_some,
      isSome_some, if_true, ptUnmap, accepted,
      ptUnmapAlways_one inside, reduceCtorEq, if_false]
    cases unmapPage host m w page <;> rfl

/-- The steps of one mapping round: unmap, take a reference, write. -/
theorem ptMapPage_cases
    (mapped : ptMapPage host m id start offset flags w page = some next) :
    page < memPages ∧
      ∃ unmapped retained,
        ((w.lookup m page = none ∧ unmapped = w) ∨
          ∃ state,
            unmapPage host m w page = some state ∧
              unmapped = state.memChanged m) ∧
          unmapped.retain id = some retained ∧
          next =
            retained.fillEntry m page
              (mappedEntry id start offset flags page) := by
  unfold ptMapPage at mapped
  obtain ⟨unmapped, unmapStep, rest⟩ := bind_eq_some_iff.mp mapped
  obtain ⟨retained, retainStep, finish⟩ :=
    bind_eq_some_iff.mp rest
  have inside : page < memPages := by
    unfold unmapIfMapped at unmapStep
    obtain ⟨old, lookedUp, _⟩ := bind_eq_some_iff.mp unmapStep
    exact (memPt_eq_some.mp lookedUp).1
  refine ⟨inside, unmapped, retained, ?_, retainStep,
    (some.inj finish).symm⟩
  rw [unmapIfMapped_eq inside] at unmapStep
  split at unmapStep
  · rename_i absent
    exact .inl ⟨absent, (some.inj unmapStep).symm⟩
  · obtain ⟨state, round, shape⟩ := map_eq_some_iff.mp unmapStep
    exact .inr ⟨state, round, shape.symm⟩

/-- One mapping round writes one entry. -/
theorem ptMapPage_spec
    (mapped : ptMapPage host m id start offset flags w page = some next) :
    Frame host w next ∧
      next.nextData = w.nextData ∧
      ∀ other otherPage,
        next.lookup other otherPage =
          if other = m ∧ otherPage = page then
            some (mappedEntry id start offset flags page)
          else
            w.lookup other otherPage := by
  obtain ⟨_, unmapped, retained, unmapStep, retainStep, rfl⟩ :=
    ptMapPage_cases mapped
  have retainNext : retained.nextData = unmapped.nextData := by
    obtain ⟨_, _, rfl⟩ := retain_eq_some.mp retainStep
    rfl
  have unmapFacts :
      Frame host w unmapped ∧
        unmapped.nextData = w.nextData ∧
        ∀ other otherPage,
          ¬(other = m ∧ otherPage = page) →
          unmapped.lookup other otherPage = w.lookup other otherPage := by
    rcases unmapStep with ⟨_, rfl⟩ | ⟨state, round, rfl⟩
    · exact ⟨.refl _, rfl, fun _ _ _ => rfl⟩
    · obtain ⟨frame, sameNext, _, lookups⟩ := unmapPage_spec round
      refine ⟨frame.trans (.memChanged state m), sameNext, ?_⟩
      intro other otherPage elsewhere
      rw [lookup_memChanged, lookups, if_neg elsewhere]
  obtain ⟨unmapFrame, unmapNext, unmapLookups⟩ := unmapFacts
  refine
    ⟨(unmapFrame.trans (.retain retainStep)).trans
        (.fillEntry retained m page _),
      retainNext.trans unmapNext, ?_⟩
  intro other otherPage
  rw [lookup_fillEntry, lookup_retain retainStep]
  split
  · rfl
  · rename_i elsewhere
    exact unmapLookups other otherPage elsewhere

/-- A failed `pt_map` changes nothing; a successful one ran its loop. -/
theorem ptMap_cases
    (mapped :
      ptMap host w m start pages reply offset flags =
        some (result, next)) :
    (∃ code, result = .error code ∧ next = w) ∨
      ∃ memory,
        reply = ⟨.ok memory, true⟩ ∧
          result = .ok () ∧
          (pageRange start pages).foldlM
              (ptMapPage host m w.nextData start offset flags)
              (w.newData memory start pages offset) =
            some next := by
  obtain ⟨memory, malloc⟩ := reply
  unfold ptMap at mapped
  cases memory with
  | error code =>
    cases mapped
    exact .inl ⟨code, rfl, rfl⟩
  | ok memory =>
    simp only at mapped
    split at mapped
    · cases malloc with
      | false =>
        cases mapped
        exact .inl ⟨.nomem, rfl, rfl⟩
      | true =>
        obtain ⟨state, loop, finish⟩ :=
          bind_eq_some_iff.mp mapped
        cases finish
        exact .inr ⟨memory, rfl, rfl, loop⟩
    · cases mapped

/-- The whole loop of `pt_map`: exactly the range gets the new entries. -/
theorem mapLoop_spec
    (mapped :
      range.foldlM (ptMapPage host m id start offset flags) w =
        some next) :
    Frame host w next ∧
      next.nextData = w.nextData ∧
      ∀ other otherPage,
        next.lookup other otherPage =
          if other = m ∧ otherPage ∈ range then
            some (mappedEntry id start offset flags otherPage)
          else
            w.lookup other otherPage := by
  refine Loop.foldlM_prefix
    (motive := fun done state =>
      Frame host w state ∧
        state.nextData = w.nextData ∧
        ∀ other otherPage,
          state.lookup other otherPage =
            if other = m ∧ otherPage ∈ done then
              some (mappedEntry id start offset flags otherPage)
            else
              w.lookup other otherPage)
    ?_ ⟨.refl _, rfl, by simp⟩ mapped
  rintro done page later state after _ ⟨frame, sameNext, lookups⟩ round
  obtain ⟨roundFrame, roundNext, roundLookups⟩ := ptMapPage_spec round
  refine ⟨frame.trans roundFrame, roundNext.trans sameNext, ?_⟩
  intro other otherPage
  rw [roundLookups, lookups]
  by_cases same : other = m <;>
    by_cases isPage : otherPage = page <;>
      by_cases inDone : otherPage ∈ done <;>
        simp [same, isPage, inDone]

theorem mapLoop_inside
    (mapped :
      range.foldlM (ptMapPage host m id start offset flags) w =
        some next) :
    ∀ page ∈ range, page < memPages := by
  refine Loop.foldlM_prefix
    (motive := fun done _ => ∀ page ∈ done, page < memPages)
    ?_ (by simp) mapped
  intro done page later state after _ inside round other member
  rcases mem_append.mp member with earlier | isPage
  · exact inside other earlier
  · rw [mem_singleton.mp isPage]
    exact (ptMapPage_cases round).1

/-- A failed `pt_map` changes nothing; a successful one maps the range. -/
theorem ptMap_spec
    (mapped :
      ptMap host w m start pages reply offset flags =
        some (result, next)) :
    Frame host w next ∧
      ((∃ code, result = .error code ∧ next = w) ∨
        (result = .ok () ∧
          ∀ other otherPage,
            next.lookup other otherPage =
              if other = m ∧ otherPage ∈ pageRange start pages then
                some (mappedEntry w.nextData start offset flags otherPage)
              else
                w.lookup other otherPage)) := by
  rcases ptMap_cases mapped with
      ⟨code, failed, rfl⟩ | ⟨memory, _, succeeded, loop⟩
  · exact ⟨.refl _, .inl ⟨code, failed, rfl⟩⟩
  · obtain ⟨frame, _, lookups⟩ := mapLoop_spec loop
    exact ⟨(Frame.newData w memory start pages offset).trans frame,
      .inr ⟨succeeded, lookups⟩⟩

/-- The records after `pt_map`: the old ones, and the one it made. -/
theorem ptMap_records
    (mapped :
      ptMap host w m start pages reply offset flags =
        some (result, next))
    {record : Data}
    (allocated : id < next.nextData)
    (live : next.data id = some record) :
    (∃ before,
      id < w.nextData ∧ w.data id = some before ∧ before.Same record) ∨
      (id = w.nextData ∧
        reply.memory = .ok record.data ∧
        record.size = pages * pageSize % 2 ^ 32 + offset) := by
  rcases ptMap_cases mapped with ⟨_, _, rfl⟩ | ⟨memory, rfl, _, loop⟩
  · exact .inl ⟨record, allocated, live, rfl⟩
  · obtain ⟨frame, sameNext, _⟩ := mapLoop_spec loop
    rw [sameNext] at allocated
    obtain ⟨before, wasLive, same⟩ := frame.kept allocated live
    by_cases isNew : id = w.nextData
    · subst id
      simp only [World.newData, update_self,
        some.injEq] at wasLive
      subst wasLive
      refine .inr ⟨rfl, ?_⟩
      rw [same]
      exact ⟨rfl, rfl⟩
    · simp only [World.newData, update_of_ne isNew] at wasLive
      exact .inl ⟨before,
        Nat.lt_of_le_of_ne (Nat.le_of_lt_succ allocated) isNew,
        wasLive, same⟩

/-- A mapping round succeeds when the records it touches are live. -/
theorem ptMapPage_isSome
    (host : Host)
    (m : MmId)
    (id : DataId)
    (start offset : Nat)
    (flags : Flags)
    {record : Data}
    (inside : page < memPages)
    (live : w.data id = some record)
    (replaced :
      ∀ {entry},
        w.lookup m page = some entry →
        entry.data ≠ id ∧ ∃ old, w.data entry.data = some old) :
    ∃ next,
      ptMapPage host m id start offset flags w page = some next ∧
        ∃ after,
          next.data id = some after ∧ after.size = record.size := by
  have unmapStep :
      ∃ unmapped,
        unmapIfMapped host m w page = some unmapped ∧
          unmapped.data id = some record := by
    rw [unmapIfMapped_eq inside]
    cases found : w.lookup m page with
    | none =>
      exact ⟨w, rfl, live⟩
    | some entry =>
      obtain ⟨different, old, isLive⟩ := replaced found
      have isMapped : memPt (w.mem m) page = some (some entry) :=
        memPt_eq_some.mpr ⟨inside, found⟩
      have dropSome : ((w.clearEntry m page).dropRef host
          entry.data).isSome := by
        have isLiveCleared :
            (w.clearEntry m page).data entry.data = some old := isLive
        simp only [World.dropRef, isLiveCleared, bind_eq_bind,
          bind_some]
        split <;> rfl
      obtain ⟨dropped, drop⟩ := isSome_iff_exists.mp dropSome
      refine ⟨dropped.memChanged m, ?_, ?_⟩
      · simp [unmapPage, isMapped, drop]
      · exact ((data_dropRef_other drop different.symm).trans rfl).trans
          live
  obtain ⟨unmapped, unmapStep, stillLive⟩ := unmapStep
  obtain ⟨retained, retain⟩ :
      ∃ retained, unmapped.retain id = some retained :=
    ⟨_, retain_eq_some.mpr ⟨record, stillLive, rfl⟩⟩
  refine ⟨retained.fillEntry m page
    (mappedEntry id start offset flags page), ?_, ?_⟩
  · simp only [ptMapPage, unmapStep, retain, bind_eq_bind,
      bind_some, Option.pure_def]
    rfl
  · obtain ⟨_, isLive, rfl⟩ := retain_eq_some.mp retain
    cases stillLive.symm.trans isLive
    exact ⟨_, update_self .., rfl⟩

/-- Mapping into a hole of the directory always runs to its end. -/
theorem ptMap_isSome
    (host : Host)
    (memory offset : Nat)
    (flags : Flags)
    (aligned :
      memory % host.realPageSize = 0 ∨ memory = host.vdsoData)
    (hole :
      ∀ page ∈ pageRange start pages,
        page < memPages ∧ w.lookup m page = none) :
    ∃ next,
      ptMap host w m start pages ⟨.ok memory, true⟩ offset flags =
          some (.ok (), next) ∧
        ∃ record,
          next.data w.nextData = some record ∧
            record.size = pages * pageSize % 2 ^ 32 + offset := by
  obtain ⟨next, loop, _, record, live, size⟩ :=
    Loop.foldlM_isSome
      (ptMapPage host m w.nextData start offset flags)
      (pageRange start pages)
      (w.newData memory start pages offset)
      (motive := fun done state =>
        (∀ page ∈ pageRange start pages,
          page ∉ done → state.lookup m page = none) ∧
        ∃ record,
          state.data w.nextData = some record ∧
            record.size = pages * pageSize % 2 ^ 32 + offset)
      (by
        rintro done page later state shape ⟨unmapped, record, live, size⟩
        have inRange : page ∈ pageRange start pages := by
          simp [shape]
        have notDone := not_done (pageRange_nodup start pages) shape
        have isFree := unmapped page inRange notDone
        obtain ⟨next, round, after, isLive, sameSize⟩ :=
          ptMapPage_isSome host m w.nextData start offset flags
            (hole page inRange).1 live
            (fun found => by cases isFree.symm.trans found)
        refine ⟨next, round, ?_, after, isLive, sameSize.trans size⟩
        intro other otherInRange otherNotDone
        rw [(ptMapPage_spec round).2.2, if_neg]
        · exact unmapped other otherInRange fun isDone =>
            otherNotDone (mem_append_left _ isDone)
        · rintro ⟨_, rfl⟩
          exact otherNotDone (mem_append_right _ (by simp)))
      (by
        exact ⟨fun page inRange _ => (hole page inRange).2,
          _, update_self .., rfl⟩)
  refine ⟨next, ?_, record, live, size⟩
  simp only [ptMap, aligned, if_true, loop]
  rfl

theorem ptMapNothing_cases
    (mapped :
      ptMapNothing host w m start pages reply flags =
        some (result, next)) :
    (pages = 0 ∧ next = w) ∨
      ∃ fresh,
        (fresh = w ∨
          ∃ memory,
            reply.memory = .ok memory ∧
              fresh =
                w.fillBytes memory (pages * pageSize % 2 ^ 32)
                  fun _ => 0) ∧
          ptMap host fresh m start pages reply 0 (flags ||| pAnonymous) =
            some (result, next) := by
  unfold ptMapNothing at mapped
  split at mapped
  · rename_i isEmpty
    cases mapped
    exact .inl ⟨isEmpty, rfl⟩
  · unfold mapAnonymous at mapped
    split at mapped
    · exact .inr ⟨w, .inl rfl, mapped⟩
    · rename_i memory replied
      exact .inr ⟨_, .inr ⟨memory, replied, rfl⟩, mapped⟩

theorem ptMapNothing_records
    (mapped :
      ptMapNothing host w m start pages reply flags =
        some (result, next)) :
    Records host w next := by
  rcases ptMapNothing_cases mapped with
      ⟨_, rfl⟩ | ⟨_, rfl | ⟨_, _, rfl⟩, call⟩
  · exact (Frame.refl _).toRecords
  · exact (ptMap_spec call).1.toRecords
  · exact (Records.fillBytes ..).trans (ptMap_spec call).1.toRecords

/-- One round of `pt_set_flags` rewrites a flag word and may stop there. -/
theorem setFlagsLoop_cons
    {rest : List Nat}
    (changed :
      setFlagsLoop m flags hostMprotect w (page :: rest) =
        some (result, next)) :
    ∃ entry,
      w.lookup m page = some entry ∧
        (((∃ code,
            hostMprotect page = .error code ∧
              hasFlag (flags &&& ~~~entry.flags) (pRead ||| pWrite) ∧
              result = .error code) ∧
            next = w.fillEntry m page { entry with flags := flags }) ∨
          ((hostMprotect page = .ok () ∨
              hasFlag (flags &&& ~~~entry.flags) (pRead ||| pWrite) =
                false) ∧
            setFlagsLoop m flags hostMprotect
                (w.fillEntry m page { entry with flags := flags }) rest =
              some (result, next))) := by
  simp only [setFlagsLoop] at changed
  split at changed
  · rename_i entry lookedUp
    obtain ⟨inside, isEntry⟩ := memPt_eq_some.mp lookedUp
    refine ⟨entry, isEntry, ?_⟩
    split at changed
    · rename_i increases
      split at changed
      · rename_i code refused
        cases changed
        exact .inl ⟨⟨code, refused, increases, rfl⟩, rfl⟩
      · rename_i accepted
        exact .inr ⟨.inl accepted, changed⟩
    · rename_i unchanged
      exact .inr ⟨.inr (Bool.not_eq_true _ ▸ unchanged), changed⟩
  · cases changed

/-- `pt_set_flags` refuses a range with a gap, and changes nothing then. -/
theorem ptSetFlags_cases
    (changed :
      ptSetFlags w m start pages flags hostMprotect =
        some (result, next)) :
    (allMapped (w.mem m) (pageRange start pages) ≠ some true ∧
        result = .error .nomem ∧ next = w) ∨
      ((∀ page ∈ pageRange start pages,
          page < memPages ∧ w.lookup m page ≠ none) ∧
        setFlagsLoop m flags hostMprotect w (pageRange start pages) =
          some (result, next)) := by
  unfold ptSetFlags at changed
  obtain ⟨checked, check, rest⟩ := bind_eq_some_iff.mp changed
  cases checked with
  | false =>
    cases rest
    exact .inl ⟨by rw [check]; decide, rfl, rfl⟩
  | true =>
    exact .inr ⟨allMapped_eq_true.mp check, rest⟩

/--
The pages whose flags the loop of `pt_set_flags` gets to write: all of them,
or those up to the one the host refuses.
-/
def rewrittenPages
    (w : World)
    (m : MmId)
    (flags : Flags)
    (hostMprotect : Nat → Except Errno Unit) :
    List Nat → List Nat
  | [] => []
  | page :: rest =>
    match w.lookup m page, hostMprotect page with
    | none, _ => []
    | some _, .ok () =>
      page :: rewrittenPages w m flags hostMprotect rest
    | some entry, .error _ =>
      if hasFlag (flags &&& ~~~entry.flags) (pRead ||| pWrite) then
        [page]
      else
        page :: rewrittenPages w m flags hostMprotect rest

theorem rewrittenPages_subset :
    rewrittenPages w m flags hostMprotect range ⊆ range := by
  induction range with
  | nil =>
    exact nil_subset _
  | cons page rest inductionHypothesis =>
    have goesOn :
        page :: rewrittenPages w m flags hostMprotect rest ⊆
          page :: rest :=
      cons_subset_cons _ inductionHypothesis
    simp only [rewrittenPages]
    split
    · exact nil_subset _
    · exact goesOn
    · split
      · simp
      · exact goesOn

theorem rewrittenPages_cons
    {rest : List Nat}
    {entry : PtEntry}
    (found : w.lookup m page = some entry)
    (goesOn :
      hostMprotect page = .ok () ∨
        hasFlag (flags &&& ~~~entry.flags) (pRead ||| pWrite) = false) :
    rewrittenPages w m flags hostMprotect (page :: rest) =
      page :: rewrittenPages w m flags hostMprotect rest := by
  rcases goesOn with accepted | unchanged
  · simp [rewrittenPages, found, accepted]
  · cases answer : hostMprotect page <;>
      simp [rewrittenPages, found, answer, unchanged]

theorem rewrittenPages_congr
    (flags : Flags)
    (hostMprotect : Nat → Except Errno Unit)
    (agree : ∀ page ∈ range, next.lookup m page = w.lookup m page) :
    rewrittenPages next m flags hostMprotect range =
      rewrittenPages w m flags hostMprotect range := by
  induction range with
  | nil =>
    rfl
  | cons page rest inductionHypothesis =>
    have later :=
      inductionHypothesis fun other member =>
        agree other (mem_cons_of_mem _ member)
    simp only [rewrittenPages, agree page mem_cons_self, later]

/--
The loop of `pt_set_flags` writes the flags of `rewrittenPages`, which is the
whole range when it succeeds.
-/
theorem setFlagsLoop_spec
    (distinct : range.Nodup)
    (changed :
      setFlagsLoop m flags hostMprotect w range = some (result, next)) :
    Frame host w next ∧
      next.data = w.data ∧
      (result = .ok () →
        rewrittenPages w m flags hostMprotect range = range) ∧
      ∀ other otherPage,
        next.lookup other otherPage =
          if other = m ∧
              otherPage ∈
                rewrittenPages w m flags hostMprotect range then
            (w.lookup m otherPage).map fun entry =>
              { entry with flags := flags }
          else
            w.lookup other otherPage := by
  induction range generalizing w with
  | nil =>
    cases changed
    exact ⟨.memChanged w m, rfl, fun _ => rfl, by simp [rewrittenPages]⟩
  | cons page rest inductionHypothesis =>
    obtain ⟨notAgain, distinctRest⟩ := nodup_cons.mp distinct
    obtain ⟨entry, found, round⟩ := setFlagsLoop_cons changed
    have rewritten :
        ∀ other otherPage,
          (w.fillEntry m page { entry with flags := flags }).lookup
              other otherPage =
            if other = m ∧ otherPage = page then
              (w.lookup m otherPage).map fun entry =>
                { entry with flags := flags }
            else
              w.lookup other otherPage := by
      intro other otherPage
      rw [lookup_fillEntry]
      by_cases same : other = m ∧ otherPage = page
      · simp [same, found]
      · simp [same]
    rcases round with
        ⟨⟨code, refused, increases, rfl⟩, rfl⟩ | ⟨goesOn, later⟩
    · have stops :
          rewrittenPages w m flags hostMprotect (page :: rest) =
            [page] := by
        simp [rewrittenPages, found, refused, increases]
      rw [stops]
      exact ⟨.fillEntry w m page _, rfl, nofun, by simpa using rewritten⟩
    · have samePages :
          rewrittenPages (w.fillEntry m page { entry with flags := flags })
              m flags hostMprotect rest =
            rewrittenPages w m flags hostMprotect rest := by
        refine rewrittenPages_congr flags hostMprotect ?_
        intro other member
        rw [rewritten, if_neg]
        rintro ⟨_, rfl⟩
        exact notAgain member
      obtain ⟨frame, sameData, whole, lookups⟩ :=
        inductionHypothesis distinctRest later
      rw [samePages] at whole lookups
      rw [rewrittenPages_cons found goesOn]
      refine ⟨(Frame.fillEntry w m page _).trans frame, sameData,
        fun succeeded => by rw [whole succeeded], ?_⟩
      intro other otherPage
      rw [lookups, rewritten, rewritten]
      by_cases same : other = m <;>
        by_cases isPage : otherPage = page <;>
          by_cases inDone :
              otherPage ∈
                rewrittenPages w m flags hostMprotect rest <;>
            simp [same, isPage, inDone, comp_def]

/-- The pages whose flags `pt_set_flags` writes. -/
def setPages
    (w : World)
    (m : MmId)
    (start pages : Nat)
    (flags : Flags)
    (hostMprotect : Nat → Except Errno Unit) : List Nat :=
  if allMapped (w.mem m) (pageRange start pages) = some true then
    rewrittenPages w m flags hostMprotect (pageRange start pages)
  else
    []

/-- `pt_set_flags` writes flags inside its range and nothing else. -/
theorem ptSetFlags_spec
    (host : Host)
    (changed :
      ptSetFlags w m start pages flags hostMprotect =
        some (result, next)) :
    Frame host w next ∧
      next.data = w.data ∧
      (result = .ok () →
        setPages w m start pages flags hostMprotect =
          pageRange start pages) ∧
      ∀ other otherPage,
        next.lookup other otherPage =
          if other = m ∧
              otherPage ∈
                setPages w m start pages flags hostMprotect then
            (w.lookup m otherPage).map fun entry =>
              { entry with flags := flags }
          else
            w.lookup other otherPage := by
  rcases ptSetFlags_cases changed with
      ⟨rejected, rfl, rfl⟩ | ⟨accepted, loop⟩
  · have noPages :
        setPages next m start pages flags hostMprotect = [] :=
      if_neg rejected
    rw [noPages]
    exact ⟨.refl _, rfl, nofun, by simp⟩
  · have allPages :
        setPages w m start pages flags hostMprotect =
          rewrittenPages w m flags hostMprotect
            (pageRange start pages) :=
      if_pos (allMapped_eq_true.mpr accepted)
    rw [allPages]
    exact setFlagsLoop_spec (pageRange_nodup start pages) loop

/-- One round of `pt_copy_on_write`. -/
theorem copyPage_cases
    (copied : copyPage host src dst w page = some next) :
    page < memPages ∧
      ((w.lookup src page = none ∧ next = w) ∨
        ∃ entry unmapped retained,
          w.lookup src page = some entry ∧
            ptUnmapAlways host w dst page 1 = some unmapped ∧
            (unmapped.fillEntry src page
                { entry with flags := cowFlags entry.flags }).retain
                entry.data = some retained ∧
            next =
              retained.fillEntry dst page
                { entry with flags := cowFlags entry.flags }) := by
  unfold copyPage at copied
  obtain ⟨found, lookedUp, rest⟩ := bind_eq_some_iff.mp copied
  obtain ⟨inside, isEntry⟩ := memPt_eq_some.mp lookedUp
  refine ⟨inside, ?_⟩
  cases found with
  | none =>
    exact .inl ⟨isEntry, (some.inj rest).symm⟩
  | some entry =>
    obtain ⟨unmapped, always, rest⟩ := bind_eq_some_iff.mp rest
    obtain ⟨retained, retain, finish⟩ := bind_eq_some_iff.mp rest
    exact .inr ⟨entry, unmapped, retained, isEntry, always, retain,
      (some.inj finish).symm⟩

/-- One round shares one entry, marked in both address spaces. -/
theorem copyPage_spec
    (copied : copyPage host src dst w page = some next) :
    Frame host w next ∧
      next.nextData = w.nextData ∧
      ∀ other otherPage,
        next.lookup other otherPage =
          if otherPage = page ∧ (other = src ∨
              other = dst ∧ w.lookup src page ≠ none) then
            (w.lookup src page).map fun entry =>
              { entry with flags := cowFlags entry.flags }
          else
            w.lookup other otherPage := by
  obtain ⟨inside, ⟨absent, rfl⟩ |
      ⟨entry, unmapped, retained, found, always, retain, rfl⟩⟩ :=
    copyPage_cases copied
  · refine ⟨.refl _, rfl, ?_⟩
    intro other otherPage
    by_cases isPage : otherPage = page
    · subst otherPage
      by_cases isSrc : other = src
      · simp [isSrc, absent]
      · simp [isSrc, absent]
    · simp [isPage]
  · obtain ⟨frame, sameNext, _, lookups⟩ := ptUnmapAlways_spec always
    have retainedNext : retained.nextData = unmapped.nextData := by
      obtain ⟨_, _, rfl⟩ := retain_eq_some.mp retain
      rfl
    refine ⟨((frame.trans (.fillEntry unmapped src page _)).trans
        (.retain retain)).trans (.fillEntry retained dst page _),
      retainedNext.trans sameNext, ?_⟩
    intro other otherPage
    rw [lookup_fillEntry, lookup_retain retain,
      lookup_fillEntry, lookups, pageRange_one inside]
    by_cases isPage : otherPage = page <;>
      by_cases isSrc : other = src <;>
        by_cases isDst : other = dst <;>
          simp [isPage, isSrc, isDst, found]

/-- `pt_copy_on_write` shares the mapped pages of its range. -/
theorem ptCopyOnWrite_spec
    (copied : ptCopyOnWrite host w src dst start pages = some next) :
    Frame host w next ∧
      next.nextData = w.nextData ∧
      ∀ other otherPage,
        next.lookup other otherPage =
          if otherPage ∈ pageRange start pages ∧ (other = src ∨
              other = dst ∧ w.lookup src otherPage ≠ none) then
            (w.lookup src otherPage).map fun entry =>
              { entry with flags := cowFlags entry.flags }
          else
            w.lookup other otherPage := by
  unfold ptCopyOnWrite at copied
  obtain ⟨state, loop, finish⟩ := bind_eq_some_iff.mp copied
  cases finish
  have distinct :=
    memWalk_nodup (w.mem src) start ((start + pages) % 2 ^ 32)
  have loopSpec :=
    Loop.foldlM_prefix
      (motive := fun done state =>
        Frame host w state ∧
          state.nextData = w.nextData ∧
          ∀ other otherPage,
            state.lookup other otherPage =
              if otherPage ∈ done ∧ (other = src ∨
                  other = dst ∧ w.lookup src otherPage ≠ none) then
                (w.lookup src otherPage).map fun entry =>
                  { entry with flags := cowFlags entry.flags }
              else
                w.lookup other otherPage)
      (by
        rintro done page later before after shape
          ⟨frame, sameNext, lookups⟩ round
        obtain ⟨roundFrame, roundNext, roundLookups⟩ :=
          copyPage_spec round
        refine ⟨frame.trans roundFrame, roundNext.trans sameNext, ?_⟩
        have notDone := not_done distinct shape
        have sourceKept : before.lookup src page = w.lookup src page := by
          rw [lookups, if_neg fun both => notDone both.1]
        intro other otherPage
        rw [roundLookups, sourceKept, lookups]
        by_cases isPage : otherPage = page
        · subst otherPage
          simp [notDone]
        · simp [isPage])
      ⟨.refl w, rfl, by simp⟩ loop
  obtain ⟨frame, sameNext, lookups⟩ := loopSpec
  refine ⟨(frame.trans (.memChanged state src)).trans (.memChanged _ dst),
    sameNext, ?_⟩
  intro other otherPage
  rw [lookup_memChanged, lookup_memChanged, lookups]
  by_cases found : w.lookup src otherPage = none
  · simp only [found, ne_eq, not_true_eq_false, and_false, or_false,
      map_none]
    by_cases isSrc : other = src
    · simp [isSrc, found]
    · simp [isSrc]
  · have sameMember :
        otherPage ∈ memWalk (w.mem src) start ((start + pages) % 2 ^ 32) ↔
          otherPage ∈ pageRange start pages := by
      rw [mem_pageRange]
      exact ⟨memWalk_bounds,
        fun bounds => mem_memWalk_of_mapped bounds.1 bounds.2 found⟩
    simp only [sameMember]

/-- A stack fault leaves the page alone or maps it anonymously. -/
theorem growStack_cases
    (grown : growStack host w m page reply = some (result, next)) :
    page < memPages ∧
      (next = w ∨
        w.lookup m page = none ∧
          ptMapNothing host w m page 1 reply (pWrite ||| pGrowsdown) =
            some (result, next)) := by
  unfold growStack at grown
  obtain ⟨found, lookedUp, rest⟩ := bind_eq_some_iff.mp grown
  obtain ⟨inside, foundShape⟩ := memPt_eq_some.mp lookedUp
  refine ⟨inside, ?_⟩
  split at rest
  · cases rest
    exact .inl rfl
  · cases rest
    exact .inl rfl
  · split at rest
    · exact .inr ⟨foundShape, rest⟩
    · cases rest
      exact .inl rfl

/-- A write fault does nothing, or maps a copy of the page over it. -/
theorem resolveWrite_cases
    (resolved :
      resolveWrite host w m page type ptraceCopy copy =
        some (result, next)) :
    next = w ∨
      ∃ entry record memory,
        w.lookup m page = some entry ∧
          w.data entry.data = some record ∧
          copy.memory = .ok memory ∧
          ptMap host
              (w.fillBytes memory pageSize fun index =>
                w.bytes (record.data + entry.offset + index))
              m page 1 copy 0
              ((if ptraceCopy then entry.flags ||| (pWrite ||| pCow)
                else entry.flags) &&& ~~~pCow) =
            some (result, next) := by
  unfold resolveWrite at resolved
  split at resolved
  · cases resolved
    exact .inl rfl
  obtain ⟨entry, isEntry, rest⟩ := bind_eq_some_iff.mp resolved
  generalize shape :
    (if ptraceCopy then entry.flags ||| (pWrite ||| pCow)
      else entry.flags) = flags at rest
  simp only at rest
  split at rest
  · cases rest
    exact .inl rfl
  split at rest
  · unfold copyFault at rest
    split at rest
    · cases rest
      exact .inl rfl
    · rename_i memory replied
      obtain ⟨record, live, rest⟩ := bind_eq_some_iff.mp rest
      refine .inr ⟨entry, record, memory, isEntry, live, replied, ?_⟩
      rw [shape]
      exact rest
  · cases rest
    exact .inl rfl

theorem memResolveFault_cases
    {grow : MapReply}
    (resolved :
      memResolveFault host w m page type ptraceCopy grow copy =
        some (result, next)) :
    ∃ grown middle,
      growStack host w m page grow = some (grown, middle) ∧
        (next = middle ∨
          resolveWrite host middle m page type ptraceCopy copy =
            some (result, next)) := by
  unfold memResolveFault at resolved
  obtain ⟨⟨grown, middle⟩, stage, rest⟩ :=
    bind_eq_some_iff.mp resolved
  refine ⟨grown, middle, stage, ?_⟩
  cases grown with
  | error code =>
    cases rest
    exact .inl rfl
  | ok _ =>
    exact .inr rest

theorem memResolveFault_records
    {grow : MapReply}
    (resolved :
      memResolveFault host w m page type ptraceCopy grow copy =
        some (result, next)) :
    Records host w next := by
  obtain ⟨grown, middle, growth, rest⟩ := memResolveFault_cases resolved
  have grownRecords : Records host w middle := by
    rcases (growStack_cases growth).2 with rfl | ⟨_, mapped⟩
    · exact (Frame.refl _).toRecords
    · exact ptMapNothing_records mapped
  rcases rest with rfl | rest
  · exact grownRecords
  rcases resolveWrite_cases rest with
      rfl | ⟨entry, record, memory, _, _, _, copied⟩
  · exact grownRecords
  · exact (grownRecords.trans (.fillBytes ..)).trans
      (ptMap_spec copied).1.toRecords

end GuestKernel
