import GuestKernel.MremapContents

namespace GuestKernel
open Option

/-!
# What resolving a fault does to the page table

`mem_resolve_fault` grows the stack or fails, and then, for a write, keeps the
page, copies it or fails.  Each half gets one lemma that says everything it can
do to the page table, with the reason for each outcome.
-/

variable
  {host : Host}
  {w next : World}
  {m : MmId}
  {page : Nat}
  {type : Access}
  {ptraceCopy : Bool}
  {reply grow copy : MapReply}
  {result : Except Errno Unit}

/-- The next mapped page above this one may grow down. -/
def StackAbove (w : World) (m : MmId) (page : Nat) : Prop :=
  ∃ above entry,
    page < above ∧ above < memPages ∧
      w.lookup m above = some entry ∧
      hasFlag entry.flags pGrowsdown = true ∧
      ∀ other, page < other → other < above → w.lookup m other = none

/-- The flags of a page the stack grew by. -/
def stackFlags : Flags :=
  pWrite ||| pGrowsdown ||| pAnonymous

variable {flags : Flags} {start offset : Nat}

/-- The first value along a range is the one with none before it. -/
theorem findSome?_range'_eq_some
    {α : Type}
    {find : Nat → Option α}
    {value : α}
    {count : Nat} :
    (List.range' start count).findSome? find = some value ↔
      ∃ index,
        start ≤ index ∧ index < start + count ∧ find index = some value ∧
          ∀ other, start ≤ other → other < index → find other = none := by
  induction count generalizing start with
  | zero =>
    constructor
    · intro found
      cases found
    · rintro ⟨index, after, before, _⟩
      omega
  | succ count inductionHypothesis =>
    rw [List.range'_succ, List.findSome?_cons]
    cases here : find start with
    | some first =>
      dsimp only
      constructor
      · intro found
        cases found
        exact ⟨start, Nat.le_refl _, by omega, here,
          fun other after before => by omega⟩
      · rintro ⟨index, after, _, found, first⟩
        rcases Nat.eq_or_lt_of_le after with rfl | later
        · rw [← here, found]
        · have nothing := first start (Nat.le_refl _) later
          rw [here] at nothing
          cases nothing
    | none =>
      refine inductionHypothesis.trans ?_
      constructor
      · rintro ⟨index, after, before, found, first⟩
        refine ⟨index, by omega, by omega, found, ?_⟩
        intro other otherAfter otherBefore
        rcases Nat.eq_or_lt_of_le otherAfter with rfl | later
        · exact here
        · exact first other later otherBefore
      · rintro ⟨index, after, before, found, first⟩
        have notStart : start ≠ index := by
          rintro rfl
          rw [here] at found
          cases found
        exact ⟨index, by omega, by omega, found,
          fun other otherAfter => first other (by omega)⟩

/-- The scan for the next mapped page finds a stack, if there is one. -/
theorem nextMapped_stack :
    (∃ above,
        nextMapped (w.mem m) page = some above ∧
          hasFlag above.flags pGrowsdown = true) ↔
      StackAbove w m page := by
  unfold nextMapped
  constructor
  · rintro ⟨entry, found, grows⟩
    obtain ⟨above, after, before, isEntry, first⟩ :=
      findSome?_range'_eq_some.mp found
    exact ⟨above, entry, after, by omega, isEntry, grows,
      fun other otherAfter => first other otherAfter⟩
  · rintro ⟨above, entry, after, before, isEntry, grows, first⟩
    exact ⟨entry,
      findSome?_range'_eq_some.mpr
        ⟨above, after, by omega, isEntry,
          fun other otherAfter => first other otherAfter⟩,
      grows⟩

/-- The page table after one page was entered, with the given flags. -/
def Replaces
    (w next : World) (m : MmId) (page : Nat) (flags : Flags) : Prop :=
  (∃ entry, next.lookup m page = some entry ∧ entry.flags = flags) ∧
    ∀ other otherPage,
      ¬(other = m ∧ otherPage = page) →
      next.lookup other otherPage = w.lookup other otherPage

theorem ptMap_refused
    {pages : Nat}
    {code : Errno}
    (mapped :
      ptMap host w m start pages reply offset flags =
        some (.error code, next)) :
    ¬reply.Grants host := by
  rintro ⟨malloc, memory, replied, aligned⟩
  unfold ptMap at mapped
  rw [replied] at mapped
  dsimp only at mapped
  rw [if_pos aligned, if_pos malloc] at mapped
  obtain ⟨_, _, finish⟩ := bind_eq_some_iff.mp mapped
  cases finish

/-- Mapping one page enters it, or fails if the host grants no memory. -/
theorem ptMap_onePage
    (inside : page < memPages)
    (mapped :
      ptMap host w m page 1 reply offset flags = some (result, next)) :
    (∃ code, result = .error code) ∧ next = w ∧ ¬reply.Grants host ∨
      result = .ok () ∧ reply.Grants host ∧ Replaces w next m page flags := by
  rcases (ptMap_spec mapped).2 with ⟨code, rfl, rfl⟩ | ⟨rfl, lookups⟩
  · exact .inl ⟨⟨code, rfl⟩, rfl, ptMap_refused mapped⟩
  · rw [pageRange_one inside] at lookups
    simp only [List.mem_singleton] at lookups
    refine .inr ⟨rfl, ptMap_granted mapped,
      ⟨mappedEntry w.nextData page offset flags page, ?_, rfl⟩, ?_⟩
    · exact (lookups m page).trans (if_pos ⟨rfl, rfl⟩)
    · exact fun other otherPage elsewhere =>
        (lookups other otherPage).trans (if_neg elsewhere)

/-- Mapping one page runs to its end if the host grants memory. -/
theorem ptMap_onePage_isSome
    (accounted : Accounted w)
    (notWrapped : w.wrapped = false)
    (inside : page < memPages)
    (granted : reply.Grants host)
    (offset : Nat)
    (flags : Flags) :
    ∃ next,
      ptMap host w m page 1 reply offset flags = some (.ok (), next) := by
  obtain ⟨malloc, memory, replied, aligned⟩ := granted
  have live :
      (w.newData memory page 1 offset).data w.nextData = some _ :=
    Function.update_self ..
  obtain ⟨next, round, _⟩ :=
    ptMapPage_isSome host m w.nextData page offset flags inside live
      (by
        intro entry found
        have isOld := Nat.ne_of_lt (accounted.allocated found)
        obtain ⟨old, isLive, _⟩ :=
          (accounted.sound notWrapped).backed found
        exact ⟨isOld, old, (Function.update_of_ne isOld _ _).trans isLive⟩)
  refine ⟨next, ?_⟩
  unfold ptMap
  rw [replied]
  simp only [aligned, malloc, pageRange_one inside, List.foldlM_cons,
    List.foldlM_nil, if_true, round, bind_eq_bind, bind_some,
    Option.pure_def]

/-- Mapping one page of zeros enters it, or fails if there is no memory. -/
theorem ptMapNothing_onePage
    (inside : page < memPages)
    (mapped :
      ptMapNothing host w m page 1 reply flags = some (result, next)) :
    (∃ code, result = .error code) ∧ OnlyFilled w next reply pageSize ∧
        ¬reply.Grants host ∨
      result = .ok () ∧ reply.Grants host ∧
        Replaces w next m page (flags ||| pAnonymous) := by
  rcases ptMapNothing_cases mapped with
    ⟨isEmpty, _⟩ | ⟨fresh, filled, call⟩
  · exact absurd isEmpty Nat.one_ne_zero
  have sameLookup : fresh.lookup = w.lookup := by
    rcases filled with rfl | ⟨_, _, rfl⟩ <;> rfl
  rcases ptMap_onePage inside call with
    ⟨failed, rfl, refused⟩ | ⟨succeeded, granted, entered, others⟩
  · exact .inl ⟨failed, filled, refused⟩
  · rw [sameLookup] at others
    exact .inr ⟨succeeded, granted, entered, others⟩

/-- What the stack growth of a fault can do, and why. -/
inductive GrowOutcome
    (host : Host) (w : World) (m : MmId) (page : Nat) (reply : MapReply)
    (result : Except Errno Unit) (next : World) : Prop where
  | mapped :
      w.lookup m page ≠ none →
      result = .ok () →
      next = w →
      GrowOutcome host w m page reply result next
  | refused (code : Errno) :
      w.lookup m page = none →
      result = .error code →
      ¬(StackAbove w m page ∧ reply.Grants host) →
      OnlyFilled w next reply pageSize →
      GrowOutcome host w m page reply result next
  | grown :
      w.lookup m page = none →
      result = .ok () →
      StackAbove w m page →
      reply.Grants host →
      Replaces w next m page stackFlags →
      ptMapNothing host w m page 1 reply (pWrite ||| pGrowsdown) =
        some (result, next) →
      GrowOutcome host w m page reply result next

/-- The first half of a fault, on a page that is in the directory. -/
theorem growStack_spec
    (grown : growStack host w m page reply = some (result, next)) :
    page < memPages ∧ GrowOutcome host w m page reply result next := by
  unfold growStack at grown
  obtain ⟨found, lookedUp, rest⟩ := bind_eq_some_iff.mp grown
  obtain ⟨inside, isFound⟩ := memPt_eq_some.mp lookedUp
  refine ⟨inside, ?_⟩
  cases found with
  | some entry =>
    cases rest
    have isMapped : w.lookup m page = some entry := isFound
    exact .mapped (isMapped ▸ some_ne_none _) rfl rfl
  | none =>
    cases isNext : nextMapped (w.mem m) page with
    | none =>
      rw [isNext] at rest
      cases rest
      refine .refused _ isFound rfl ?_ (.inl rfl)
      rintro ⟨stack, _⟩
      obtain ⟨above, found, _⟩ := nextMapped_stack.mpr stack
      rw [isNext] at found
      cases found
    | some above =>
      rw [isNext] at rest
      dsimp only at rest
      split at rest
      case isFalse notStack =>
        cases rest
        refine .refused _ isFound rfl ?_ (.inl rfl)
        rintro ⟨stack, _⟩
        obtain ⟨other, found, grows⟩ := nextMapped_stack.mpr stack
        rw [isNext] at found
        cases found
        exact notStack grows
      case isTrue isStack =>
        have stack := nextMapped_stack.mp ⟨above, isNext, isStack⟩
        rcases ptMapNothing_onePage inside rest with
          ⟨⟨code, failed⟩, filled, refused⟩ | ⟨succeeded, granted, enters⟩
        · exact .refused code isFound failed
            (fun both => refused both.2) filled
        · exact .grown isFound succeeded stack granted enters rest

/-- The flags a write finds; a debugger adds what it needs. -/
def writeFlags (ptraceCopy : Bool) (flags : Flags) : Flags :=
  if ptraceCopy then flags ||| (pWrite ||| pCow) else flags

/-- What the second half of a fault can do to a mapped page, and why. -/
inductive WriteOutcome
    (host : Host) (w : World) (m : MmId) (page : Nat) (type : Access)
    (ptraceCopy : Bool) (copy : MapReply) (entry : PtEntry)
    (result : Except Errno Unit) (next : World) : Prop where
  | kept :
      type = .read ∨ pWritable (writeFlags ptraceCopy entry.flags) = true →
      result = .ok () →
      next = w →
      WriteOutcome host w m page type ptraceCopy copy entry result next
  | refused (code : Errno) :
      type ≠ .read →
      hasFlag (writeFlags ptraceCopy entry.flags) pWrite = false ∨
        hasFlag (writeFlags ptraceCopy entry.flags) pCow = true ∧
          ¬copy.Grants host →
      result = .error code →
      next.lookup = w.lookup →
      (next = w ∨
        ∃ memory record,
          copy.memory = .ok memory ∧ w.data entry.data = some record ∧
            next = w.fillBytes memory pageSize fun index =>
              w.bytes (record.data + entry.offset + index)) →
      WriteOutcome host w m page type ptraceCopy copy entry result next
  | copied :
      type ≠ .read →
      hasFlag (writeFlags ptraceCopy entry.flags) pWrite = true →
      hasFlag (writeFlags ptraceCopy entry.flags) pCow = true →
      result = .ok () →
      copy.Grants host →
      Replaces w next m page
        (writeFlags ptraceCopy entry.flags &&& ~~~pCow) →
      (∃ memory record,
        copy.memory = .ok memory ∧ w.data entry.data = some record ∧
          ptMap host
              (w.fillBytes memory pageSize fun index =>
                w.bytes (record.data + entry.offset + index))
              m page 1 copy 0
              (writeFlags ptraceCopy entry.flags &&& ~~~pCow) =
            some (result, next)) →
      WriteOutcome host w m page type ptraceCopy copy entry result next

/-- The second half of a fault. -/
theorem resolveWrite_spec
    {entry : PtEntry}
    (inside : page < memPages)
    (found : w.lookup m page = some entry)
    (resolved :
      resolveWrite host w m page type ptraceCopy copy =
        some (result, next)) :
    WriteOutcome host w m page type ptraceCopy copy entry result next := by
  unfold resolveWrite at resolved
  split at resolved
  case isTrue isRead =>
    cases resolved
    exact .kept (.inl isRead) rfl rfl
  case isFalse writing =>
    rw [found] at resolved
    change
      (if hasFlag (writeFlags ptraceCopy entry.flags) pWrite = false then
        some (Except.error Errno.fault, w)
      else if hasFlag (writeFlags ptraceCopy entry.flags) pCow = true then
        copyFault host w m page entry (writeFlags ptraceCopy entry.flags) copy
      else
        some (Except.ok (), w)) = some (result, next) at resolved
    split at resolved
    case isTrue readOnly =>
      cases resolved
      exact .refused _ writing (.inl readOnly) rfl rfl (.inl rfl)
    case isFalse canWrite =>
      have isWrite := Bool.of_not_eq_false canWrite
      split at resolved
      case isFalse notCow =>
        cases resolved
        refine .kept (.inr ?_) rfl rfl
        rw [pWritable, isWrite, Bool.of_not_eq_true notCow]
        rfl
      case isTrue isCow =>
        unfold copyFault at resolved
        split at resolved
        · rename_i code refused
          cases resolved
          refine .refused _ writing (.inr ⟨isCow, ?_⟩) rfl rfl (.inl rfl)
          rintro ⟨_, _, replied, _⟩
          rw [refused] at replied
          cases replied
        · rename_i memory replied
          obtain ⟨record, live, call⟩ := bind_eq_some_iff.mp resolved
          rcases ptMap_onePage inside call with
            ⟨⟨code, failed⟩, rfl, refused⟩ | ⟨succeeded, granted, enters⟩
          · exact .refused code writing (.inr ⟨isCow, refused⟩) failed rfl
              (.inr ⟨memory, record, replied, live, rfl⟩)
          · exact .copied writing isWrite isCow succeeded granted enters
              ⟨memory, record, replied, live, call⟩

end GuestKernel
