import GuestKernel.HeapRangeSpecs
import GuestKernel.PageContents

namespace GuestKernel
open Option

/-!
# What `mremap` does to the bytes of a range

A correct `mremap` that succeeds has the new range mapped, keeps the bytes both
ranges share, and touches no page outside them; one that fails touches no page
at all.  `sys_mremap` counts whole pages of both lengths, and its growing half
dereferences the entry of a page it has just seen to be missing.
-/

variable
  {host : Host}
  {w next : World}
  {m : MmId}
  {addr oldLen newLen : Nat}
  {flags : Flags}
  {reply : MapReply}

theorem byte_of_inRange
    {len other : Nat}
    (aligned : pgOffset addr = 0)
    (inRange : InRange addr len other) :
    addr ≤ other * pageSize ∧ other * pageSize < addr + len := by
  obtain ⟨after, before⟩ := inRange
  simp only [pgOffset, page, ceilPages, pageSize] at *
  omega

theorem inRange_of_byte
    {len byte : Nat}
    (aligned : pgOffset addr = 0)
    (after : addr ≤ byte)
    (before : byte < addr + len) :
    InRange addr len (page byte) := by
  unfold InRange
  simp only [pgOffset, page, ceilPages, pageSize] at *
  omega

/-- What a successful `mremap` has to have done. -/
structure MremapSuccess
    (w next : World) (m : MmId) (addr oldLen newLen : Nat) : Prop where
  mapped :
    ∀ byte, addr ≤ byte → byte < addr + newLen →
      byte < 2 ^ 32 ∧ next.lookup m (page byte) ≠ none
  kept :
    ∀ byte, addr ≤ byte → byte < addr + min oldLen newLen →
      readByte next m byte = readByte w m byte
  others :
    ∀ other, ¬InRange addr (max oldLen newLen) other →
      SamePage w next m other

/--
The call has an outcome, so it dereferences no missing entry, and does what it
should in either case.
-/
structure MremapCorrect
    (host : Host) (w : World) (m : MmId) (addr oldLen newLen : Nat)
    (flags : Flags) (reply : MapReply) : Prop where
  defined :
    ∃ outcome,
      sysMremap host w m addr oldLen newLen flags reply = some outcome
  success :
    ∀ {next},
      sysMremap host w m addr oldLen newLen flags reply =
          some (.ok (), next) →
        MremapSuccess w next m addr oldLen newLen
  failure :
    ∀ {code next},
      sysMremap host w m addr oldLen newLen flags reply =
          some (.error code, next) →
        ∀ other, SamePage w next m other

/-- The whole pages between the two lengths, when the range shrinks. -/
def InTail (addr oldLen newLen other : Nat) : Prop :=
  page addr + page newLen ≤ other ∧ other < page addr + page oldLen

/-- When a shrinking `mremap` is correct. -/
def ShrinksCorrectly
    (w : World) (m : MmId) (addr oldLen newLen : Nat) : Prop :=
  (∃ other,
      InTail addr oldLen newLen other ∧ other < memPages ∧
        w.lookup m other = none) ∨
    page addr + page oldLen ≤ memPages ∧
      (∀ other, InRange addr newLen other →
        other < memPages ∧ w.lookup m other ≠ none) ∧
        (newLen % pageSize = 0 ∨ page newLen = page oldLen)

/-- When a growing `mremap` is correct. -/
def GrowsCorrectly
    (host : Host) (w : World) (m : MmId) (addr oldLen newLen : Nat)
    (reply : MapReply) : Prop :=
  w.lookup m (page addr) = none ∨
    (∀ other, page addr ≤ other → other < page addr + page oldLen →
        other < memPages ∧ w.lookup m other ≠ none) ∧
      ((∃ entry,
          w.lookup m (page addr) = some entry ∧
            hasFlag entry.flags pAnonymous = false) ∨
        (∃ other,
          page addr + page oldLen ≤ other ∧
            other < page addr + page newLen ∧
            other < memPages ∧ w.lookup m other ≠ none) ∨
        page addr + page newLen ≤ memPages ∧
          (¬reply.Grants host ∨
            oldLen % pageSize = 0 ∧
              (newLen % pageSize = 0 ∨
                page addr + page newLen < memPages ∧
                  w.lookup m (page addr + page newLen) ≠ none)))

/-- When an `mremap` is correct. -/
def RemapsCorrectly
    (host : Host) (w : World) (m : MmId) (addr oldLen newLen : Nat)
    (flags : Flags) (reply : MapReply) : Prop :=
  ¬MremapChecked addr flags ∨
    if page newLen ≤ page oldLen then
      ShrinksCorrectly w m addr oldLen newLen
    else
      GrowsCorrectly host w m addr oldLen newLen reply

/-- A shrinking `mremap` is correct under exactly that condition. -/
theorem mremapCorrect_shrink
    (kept : WellKept w)
    (addrBounded : addr < 2 ^ 32)
    (oldBounded : oldLen < 2 ^ 32)
    (checked : MremapChecked addr flags)
    (shrinks : page newLen ≤ page oldLen) :
    MremapCorrect host w m addr oldLen newLen flags reply ↔
      ShrinksCorrectly w m addr oldLen newLen := by
  have limit := memPages_eq
  have aligned := checked.1
  have startBelow := page_lt addrBounded
  have oldBelow := page_lt oldBounded
  have ceil := ceilPages_eq newLen
  have runs :
      sysMremap host w m addr oldLen newLen flags reply =
        (ptUnmap host w m (page addr + page newLen)
            (page oldLen - page newLen)).map
          fun outcome =>
            (if outcome.1 then .ok () else .error .fault, outcome.2) := by
    rw [sysMremap_shrink checked shrinks, Nat.mod_eq_of_lt (by omega)]
  have tailEnd :
      page addr + page newLen + (page oldLen - page newLen) =
        page addr + page oldLen := by
    omega
  have ends :=
    @RangeCall.ptUnmap_ends w host m (page addr + page newLen)
      (page oldLen - page newLen) kept.accounted kept.notWrapped (by omega)
  rw [tailEnd] at ends
  obtain ⟨failed, _, gap, after, before, below, isGap⟩ |
    ⟨noGap, ⟨crashed, _, above⟩ | ⟨inBounds, _, next, unmapped, lookups⟩⟩ :=
      ends
  · rw [failed] at runs
    refine iff_of_true ⟨⟨_, runs⟩, ?_, ?_⟩
      (.inl ⟨gap, ⟨after, before⟩, below, isGap⟩)
    · intro next ran
      cases runs.symm.trans ran
    · intro code next ran other
      cases runs.symm.trans ran
      exact .refl _ m other
  · rw [crashed] at runs
    refine iff_of_false ?_ ?_
    · intro correct
      obtain ⟨outcome, ran⟩ := correct.defined
      cases runs.symm.trans ran
    · rintro (⟨gap, ⟨after, before⟩, below, isGap⟩ | ⟨within, _⟩)
      · exact noGap gap after before below isGap
      · omega
  rw [unmapped] at runs
  constructor
  · intro correct
    have succeeded := correct.success runs
    have remains :
        ∀ other, InRange addr newLen other →
          other < memPages ∧ w.lookup m other ≠ none ∧
          ¬InTail addr oldLen newLen other := by
      intro other inRange
      obtain ⟨after, before⟩ := byte_of_inRange aligned inRange
      obtain ⟨inside, stillMapped⟩ :=
        succeeded.mapped (other * pageSize) after before
      rw [page_mul_pageSize, lookups] at stillMapped
      split at stillMapped
      case isTrue => exact absurd rfl stillMapped
      case isFalse notInTail =>
        refine ⟨?_, stillMapped, notInTail⟩
        simp only [pageSize] at inside
        omega
    refine .inr ⟨?_, fun other inRange =>
      ⟨(remains other inRange).1, (remains other inRange).2.1⟩, ?_⟩
    · by_cases nothing : page oldLen = 0 ∨ page newLen < page oldLen
      · omega
      · have last := (remains (page addr + page newLen - 1)
          ⟨by omega, by split at ceil <;> omega⟩).1
        omega
    · by_cases whole : newLen % pageSize = 0
      · exact .inl whole
      · rw [if_neg whole] at ceil
        have lastRemains :=
          (remains (page addr + page newLen) ⟨by omega, by omega⟩).2.2
        unfold InTail at lastRemains
        exact .inr (by omega)
  · rintro (⟨gap, ⟨after, before⟩, below, isGap⟩ | ⟨_, mapped, cutOrSame⟩)
    · exact absurd isGap (noGap gap after before below)
    refine ⟨⟨_, runs⟩, ?_, fun ran => by cases runs.symm.trans ran⟩
    intro state ran
    cases runs.symm.trans ran
    obtain ⟨failed, _⟩ | ⟨_, _, always⟩ := ptUnmap_cases unmapped
    · cases failed
    obtain ⟨_, samePages⟩ := kept.ptUnmapAlways always
    have samePage :
        ∀ other, ¬InTail addr oldLen newLen other →
          SamePage w next m other := by
      intro other outside
      refine samePages other fun member => outside ?_
      rwa [mem_pageRange_of_lt (by omega), tailEnd] at member
    have notInTail :
        ∀ other, InRange addr newLen other →
          ¬InTail addr oldLen newLen other := by
      rintro other ⟨_, before⟩ ⟨after, inOld⟩
      rcases cutOrSame with whole | same
      · rw [if_pos whole] at ceil
        omega
      · omega
    constructor
    case mapped =>
      intro byte after before
      have inRange := inRange_of_byte aligned after before
      obtain ⟨inside, isMapped⟩ := mapped _ inRange
      refine ⟨?_, ?_⟩
      · simp only [page, pageSize] at inside
        omega
      · rw [(samePage _ (notInTail _ inRange)).entry]
        exact isMapped
    case kept =>
      intro byte after before
      exact (samePage _ (notInTail _ (inRange_of_byte aligned after
        (by omega)))).bytes rfl
    case others =>
      intro other outside
      refine samePage other ?_
      rintro ⟨after, before⟩
      refine outside ⟨by omega, ?_⟩
      simp only [page, ceilPages, pageSize] at *
      omega

/-- Memory the host hands out lies on its pages, so `pt_map` accepts it. -/
def MapReply.Aligned (host : Host) (reply : MapReply) : Prop :=
  ∀ {memory}, reply.memory = .ok memory → memory % host.realPageSize = 0

/-- A mapping of one page that the host refuses fails. -/
theorem ptMap_refused_isSome
    {start pages offset : Nat}
    (honest : reply.Aligned host)
    (refused : ¬reply.Grants host) :
    ∃ outcome,
      ptMap host w m start pages reply offset flags = some outcome := by
  obtain ⟨answer, isMalloc⟩ := reply
  unfold ptMap
  cases answer with
  | error code => exact ⟨_, rfl⟩
  | ok memory =>
    have aligned : memory % host.realPageSize = 0 := honest rfl
    cases isMalloc with
    | false => exact ⟨_, by simp only [aligned, true_or, if_true]; rfl⟩
    | true => exact absurd ⟨rfl, memory, rfl, .inl aligned⟩ refused

theorem ptMapNothing_refused
    {start pages : Nat}
    (honest : reply.Aligned host)
    (nonempty : pages ≠ 0)
    (refused : ¬reply.Grants host) :
    ∃ outcome,
      ptMapNothing host w m start pages reply flags = some outcome := by
  unfold ptMapNothing
  rw [if_neg nonempty]
  exact ptMap_refused_isSome honest refused

/-- A growing call without outcome met a gap or left the directory. -/
theorem mremapGrow_defined
    {start oldPages newPages : Nat}
    {outcome : Outcome}
    (call :
      mremapGrow host w m start oldPages newPages reply = some outcome) :
    w.lookup m start = none ∨
      allMapped (w.mem m) (pageRange start oldPages) = some true ∧
        ∃ entry,
          w.lookup m start = some entry ∧
            (hasFlag entry.flags pAnonymous = false ∨
              hasFlag entry.flags pAnonymous = true ∧
                ∃ hole,
                  ptIsHole (w.mem m) ((start + oldPages) % 2 ^ 32)
                    (newPages - oldPages) = some hole) := by
  unfold mremapGrow at call
  obtain ⟨found, lookedUp, rest⟩ := bind_eq_some_iff.mp call
  obtain ⟨_, isEntry⟩ := memPt_eq_some.mp lookedUp
  cases found with
  | none => exact .inl isEntry
  | some entry =>
    obtain ⟨mapped, check, rest⟩ := bind_eq_some_iff.mp rest
    split at rest
    · rename_i noGap
      refine .inr ⟨noGap ▸ check, entry, isEntry, ?_⟩
      split at rest
      · rename_i notAnonymous
        exact .inl notAnonymous
      · rename_i anonymous
        obtain ⟨hole, holeCheck, _⟩ := bind_eq_some_iff.mp rest
        exact .inr ⟨by simpa using anonymous, hole, holeCheck⟩
    · cases rest

/-- A growing `mremap` is correct under exactly that condition. -/
theorem mremapCorrect_grow
    (kept : WellKept w)
    (inMm : m < w.mmCount)
    (addrBounded : addr < 2 ^ 32)
    (oldBounded : oldLen < 2 ^ 32)
    (newBounded : newLen < 2 ^ 32)
    (honest : reply.Aligned host)
    (fresh :
      reply.Fresh w ((page newLen - page oldLen) * pageSize % 2 ^ 32))
    (checked : MremapChecked addr flags)
    (grows : page oldLen < page newLen) :
    MremapCorrect host w m addr oldLen newLen flags reply ↔
      GrowsCorrectly host w m addr oldLen newLen reply := by
  have limit := memPages_eq
  have aligned := checked.1
  have startBelow := page_lt addrBounded
  have oldBelow := page_lt oldBounded
  have newBelow := page_lt newBounded
  have runs :
      sysMremap host w m addr oldLen newLen flags reply =
        mremapGrow host w m (page addr) (page oldLen) (page newLen) reply :=
    sysMremap_grow checked grows
  have noWrap :
      (page addr + page oldLen) % 2 ^ 32 = page addr + page oldLen :=
    Nat.mod_eq_of_lt (by omega)
  have inOld :
      ∀ other,
        other ∈ pageRange (page addr) (page oldLen) ↔
          page addr ≤ other ∧ other < page addr + page oldLen :=
    fun other => mem_pageRange_of_lt (by omega)
  have inExtra :
      ∀ other,
        other ∈ pageRange (page addr + page oldLen)
            (page newLen - page oldLen) ↔
          page addr + page oldLen ≤ other ∧
            other < page addr + page newLen := by
    intro other
    rw [mem_pageRange_of_lt (by omega)]
    omega
  have nonempty : page newLen - page oldLen ≠ 0 := by omega
  have short : (page newLen - page oldLen) * pageSize < 2 ^ 32 := by
    simp only [pageSize]
    omega
  have oldCeil := ceilPages_eq oldLen
  have newCeil := ceilPages_eq newLen
  constructor
  · intro correct
    obtain ⟨outcome, ran⟩ := correct.defined
    rw [runs] at ran
    rcases mremapGrow_defined ran with absent | ⟨noGap, entry, found, rest⟩
    · exact .inl absent
    have mappedOld := allMapped_eq_true.mp noGap
    refine .inr ⟨fun other after before =>
      mappedOld other ((inOld other).mpr ⟨after, before⟩), ?_⟩
    rcases rest with notAnonymous | ⟨anonymous, hole, check⟩
    · exact .inl ⟨entry, found, notAnonymous⟩
    rw [noWrap] at check
    cases hole with
    | false =>
      obtain ⟨other, member, below, taken⟩ := ptIsHole_false check
      obtain ⟨after, before⟩ := (inExtra other).mp member
      exact .inr (.inl ⟨other, after, before, below, taken⟩)
    | true =>
      have free := ptIsHole_true.mp check
      have last := (free (page addr + page newLen - 1)
        ((inExtra _).mpr (by omega))).1
      refine .inr (.inr ⟨by omega, ?_⟩)
      by_cases grants : reply.Grants host
      · refine .inr ?_
        obtain ⟨next, call⟩ :=
          RangeCall.mremapGrow_isSome host found startBelow newBelow grows
            noGap anonymous check grants
        have succeeded := correct.success (by rw [runs, call])
        rcases mremapGrow_cases call with
          ⟨_, failed, _⟩ | ⟨_, _, _, _, _, _, mapped⟩
        · cases failed
        rw [noWrap] at mapped
        obtain ⟨keptNext, samePages⟩ :=
          kept.ptMapNothing inMm short fresh
            (fun other member => (free other member).2) mapped
        have lookups := (RangeCall.mremapGrow_ok startBelow newBelow grows
          call).2.2.2.2
        refine ⟨?_, ?_⟩
        · -- a cut last page of the old range was a hole and is zeros now
          by_contra cut
          rw [if_neg cut] at oldCeil
          obtain ⟨after, before⟩ :=
            byte_of_inRange aligned
              (show InRange addr oldLen (page addr + page oldLen) from
                ⟨by omega, by omega⟩)
          have shorter : oldLen ≤ newLen :=
            Nat.le_of_lt (Nat.lt_of_div_lt_div grows)
          have same := succeeded.kept _ after
            (by rw [Nat.min_eq_left shorter]; exact before)
          have wasFree :
              readByte w m ((page addr + page oldLen) * pageSize) =
                none := by
            refine readByte_unmapped ?_
            rw [page_mul_pageSize]
            exact (free _ ((inExtra _).mpr (by omega))).2
          have nowMapped := lookups (page addr + page oldLen)
          rw [if_pos (by omega)] at nowMapped
          obtain ⟨newEntry, isEntry⟩ :=
            ne_none_iff_exists'.mp nowMapped
          obtain ⟨record, live, _⟩ := keptNext.backed isEntry
          rw [wasFree, readByte_eq
            (by rw [page_mul_pageSize]; exact isEntry) live] at same
          cases same
        · by_cases whole : newLen % pageSize = 0
          · exact .inl whole
          · rw [if_neg whole] at newCeil
            obtain ⟨after, before⟩ :=
              byte_of_inRange aligned
                (show InRange addr newLen (page addr + page newLen) from
                  ⟨by omega, by omega⟩)
            obtain ⟨inside, isMapped⟩ := succeeded.mapped _ after before
            have unchanged := lookups (page addr + page newLen)
            rw [if_neg (by omega)] at unchanged
            rw [page_mul_pageSize, unchanged] at isMapped
            refine .inr ⟨?_, isMapped⟩
            simp only [pageSize] at inside
            omega
      · exact .inl grants
  · intro condition
    refine ⟨?_, ?_, ?_⟩
    · rw [runs]
      cases found : w.lookup m (page addr) with
      | none =>
        have isNone : memPt (w.mem m) (page addr) = some none :=
          memPt_eq_some.mpr ⟨startBelow, found⟩
        exact ⟨(.error .fault, w), by simp [mremapGrow, isNone]⟩
      | some entry =>
        have isMapped : memPt (w.mem m) (page addr) = some (some entry) :=
          memPt_eq_some.mpr ⟨startBelow, found⟩
        obtain ⟨mappedOld, condition⟩ := condition.resolve_left
          (by rw [found]; exact some_ne_none entry)
        have noGap :
            allMapped (w.mem m) (pageRange (page addr) (page oldLen)) =
              some true := by
          refine allMapped_eq_true.mpr ?_
          intro other member
          obtain ⟨after, before⟩ := (inOld other).mp member
          exact mappedOld other after before
        cases anonymous : hasFlag entry.flags pAnonymous with
        | false =>
          exact ⟨(.error .fault, w), by
            simp [mremapGrow, isMapped, noGap, anonymous]⟩
        | true =>
          have holeInside :
              ∃ hole,
                ptIsHole (w.mem m) (page addr + page oldLen)
                  (page newLen - page oldLen) = some hole := by
            refine isHoleLoop_isSome.mpr ?_
            refine (holePages_inside (w.mem m) (by omega)).mpr ?_
            rcases condition with
              ⟨first, isFirst, notAnonymous⟩ |
                ⟨taken, after, before, below, isTaken⟩ | ⟨ends, _⟩
            · cases found.symm.trans isFirst
              rw [anonymous] at notAnonymous
              cases notAnonymous
            · exact .inr (.inr ⟨taken, after, by omega, below, isTaken⟩)
            · exact .inr (.inl (by omega))
          obtain ⟨hole, check⟩ := holeInside
          cases hole with
          | false =>
            exact ⟨(.error .nomem, w), by
              simp [mremapGrow, isMapped, noGap, anonymous, check,
                Nat.mod_eq_of_lt
                  (show page addr + page oldLen < 4294967296 by
                    omega)]⟩
          | true =>
            by_cases grants : reply.Grants host
            · obtain ⟨next, call⟩ :=
                RangeCall.mremapGrow_isSome host found startBelow
                  newBelow grows noGap anonymous check grants
              exact ⟨_, call⟩
            · obtain ⟨outcome, refused⟩ :
                  ∃ outcome,
                    ptMapNothing host w m (page addr + page oldLen)
                      (page newLen - page oldLen) reply
                      entry.flags = some outcome :=
                ptMapNothing_refused honest nonempty grants
              refine ⟨outcome, ?_⟩
              simp only [mremapGrow, isMapped, noGap, anonymous,
                noWrap, check, bind_eq_bind, bind_some,
                if_true, if_false, Bool.true_eq_false]
              exact refused
    · intro next ran
      rw [runs] at ran
      obtain ⟨⟨entry, found, anonymous⟩, grants, noGap, hole, lookups⟩ :=
        RangeCall.mremapGrow_ok startBelow newBelow grows ran
      rcases mremapGrow_cases ran with
        ⟨_, failed, _⟩ | ⟨_, _, _, _, free, _, mapped⟩
      · cases failed
      rw [noWrap] at free mapped
      obtain ⟨_, samePages⟩ :=
        kept.ptMapNothing inMm short fresh
          (fun other member => (free other member).2) mapped
      have samePage :
          ∀ other,
            ¬(page addr + page oldLen ≤ other ∧
              other < page addr + page newLen) →
              SamePage w next m other :=
        fun other outside => samePages other fun member =>
          outside ((inExtra other).mp member)
      obtain ⟨_, condition⟩ := condition.resolve_left
        (by rw [found]; exact some_ne_none entry)
      rcases condition with
        ⟨first, isFirst, notAnonymous⟩ |
          ⟨taken, after, before, _, isTaken⟩ | ⟨ends, condition⟩
      · cases found.symm.trans isFirst
        rw [anonymous] at notAnonymous
        cases notAnonymous
      · exact absurd (hole taken after before).2 isTaken
      obtain ⟨oldWhole, lastMapped⟩ :=
        condition.resolve_left (fun refused => refused grants)
      rw [if_pos oldWhole] at oldCeil
      constructor
      case mapped =>
        intro byte after before
        obtain ⟨first, last⟩ := inRange_of_byte aligned after before
        have outcome := lookups (page byte)
        have byteBound :
            page byte < memPages → byte < 2 ^ 32 := by
          intro inside
          simp only [page, pageSize] at inside
          omega
        by_cases isLast : page byte = page addr + page newLen
        · rw [if_neg (by omega)] at outcome
          rcases lastMapped with whole | ⟨below, isMapped⟩
          · rw [if_pos whole] at newCeil
            omega
          · rw [outcome, isLast]
            exact ⟨byteBound (isLast ▸ below), isMapped⟩
        · have before : page byte < page addr + page newLen := by
            split at newCeil <;> omega
          refine ⟨byteBound (by omega), ?_⟩
          split at outcome
          · exact outcome
          · rw [outcome]
            exact noGap _ first (by omega)
      case kept =>
        intro byte after before
        have inRange : InRange addr oldLen (page byte) :=
          inRange_of_byte aligned after (by omega)
        refine (samePage _ ?_).bytes rfl
        unfold InRange at inRange
        omega
      case others =>
        intro other outside
        refine samePage other ?_
        rintro ⟨after, before⟩
        refine outside ⟨by omega, ?_⟩
        simp only [page, ceilPages, pageSize] at *
        omega
    · intro code next ran other
      rw [runs] at ran
      rcases mremapGrow_cases ran with
        ⟨_, _, filled⟩ | ⟨_, _, _, _, _, succeeded, _⟩
      · exact filled.samePage kept fresh other
      · cases succeeded

/--
An `mremap` does what it should to the bytes of its range under exactly that
condition.
-/
theorem mremapCorrect_iff
    (kept : WellKept w)
    (inMm : m < w.mmCount)
    (addrBounded : addr < 2 ^ 32)
    (oldBounded : oldLen < 2 ^ 32)
    (newBounded : newLen < 2 ^ 32)
    (honest : reply.Aligned host)
    (fresh :
      reply.Fresh w ((page newLen - page oldLen) * pageSize % 2 ^ 32)) :
    MremapCorrect host w m addr oldLen newLen flags reply ↔
      RemapsCorrectly host w m addr oldLen newLen flags reply := by
  unfold RemapsCorrectly
  by_cases checked : MremapChecked addr flags
  · simp only [checked, not_true_eq_false, false_or]
    split
    · rename_i shrinks
      exact mremapCorrect_shrink kept addrBounded oldBounded checked shrinks
    · rename_i grows
      exact mremapCorrect_grow kept inMm addrBounded oldBounded newBounded
        honest fresh checked (Nat.not_le.mp grows)
  · have refused :
        sysMremap host w m addr oldLen newLen flags reply =
          some (.error .inval, w) :=
      sysMremap_unchecked checked
    refine ⟨fun _ => .inl checked, fun _ => ⟨⟨_, refused⟩, ?_, ?_⟩⟩
    · intro next ran
      cases refused.symm.trans ran
    · intro code next ran other
      cases refused.symm.trans ran
      exact .refl _ m other

/-- Growing one anonymous page by a whole page is correct. -/
theorem mremapCorrect_of_one_page :
    ∃ w,
      MremapCorrect plainHost w 0 0x50000000 0x1000 0x2000 0
        (grantMemory 16384) := by
  obtain ⟨w, record, one, kept, _⟩ := exists_onePage_wellKept
  have honest : (grantMemory 16384).Aligned plainHost := by
    rintro memory ⟨⟩
    rfl
  have fresh : (grantMemory 16384).Fresh w
      ((page 0x2000 - page 0x1000) * pageSize % 2 ^ 32) := by
    rintro memory ⟨⟩
    refine ⟨by decide, ?_⟩
    intro id after live
    have isFirst : id = 0 := by
      have numbered := kept.accounted.numbered live
      rw [one.nextData] at numbered
      exact Nat.lt_one_iff.mp numbered
    subst id
    cases one.live.symm.trans live
    rw [one.memory, one.size]
    exact .inr (by decide)
  refine ⟨w, (mremapCorrect_iff kept one.inMm
    (by decide) (by decide) (by decide) honest fresh).mpr (.inr ?_)⟩
  rw [if_neg (by decide)]
  refine .inr ⟨?_, .inr (.inr ⟨by decide, .inr ⟨by decide,
    .inl (by decide)⟩⟩)⟩
  intro other after before
  have isPage : other = 0x50000 := by
    have start : page 0x50000000 = 0x50000 := rfl
    have length : page 0x1000 = 1 := rfl
    omega
  rw [isPage, one.found]
  exact ⟨by decide, some_ne_none _⟩

/--
Shrinking one page to one byte succeeds and loses the page, and growing two
pages of which only the first is mapped dereferences the missing entry.
-/
theorem mremap_loses_page_and_dereferences_null :
    ∃ w next,
      WellKept w ∧
        sysMremap plainHost w 0 0x50000000 0x1000 1 0 (grantMemory 16384) =
            some (.ok (), next) ∧
          readByte w 0 0x50000000 = some 0 ∧
            readByte next 0 0x50000000 = none ∧
            sysMremap plainHost w 0 0x50000000 0x2000 0x3000 0
                (grantMemory 16384) = none ∧
              ¬MremapCorrect plainHost w 0 0x50000000 0x1000 1 0
                  (grantMemory 16384) ∧
                ¬MremapCorrect plainHost w 0 0x50000000 0x2000 0x3000 0
                  (grantMemory 16384) := by
  obtain ⟨w, record, one, kept, isLast⟩ := exists_onePage_wellKept
  have checked : MremapChecked 0x50000000 0 :=
    ⟨by decide, by decide, by decide⟩
  have isMapped := one.isMapped
  have noGap :
      allMapped (w.mem 0) (pageRange 0x50000 1) = some true := by
    rw [pageRange_one (by decide)]
    simp [allMapped, isMapped]
  obtain ⟨next, always⟩ :
      ∃ next, ptUnmapAlways plainHost w 0 0x50000 1 = some next := by
    refine ptUnmapAlways_isSome plainHost kept.accounted kept.notWrapped ?_
    exact (unmapPages_inside (w.mem 0) (by decide)).mpr (.inr (by decide))
  have shrinks :
      sysMremap plainHost w 0 0x50000000 0x1000 1 0 (grantMemory 16384) =
        some (.ok (), next) := by
    rw [sysMremap_shrink checked (by decide),
      show (page 0x50000000 + page 1) % 2 ^ 32 = 0x50000 from rfl,
      show page 0x1000 - page 1 = 1 from rfl, ptUnmap, noGap]
    simp [always]
  have unmapped : next.lookup 0 (page 0x50000000) = none := by
    rw [(ptUnmapAlways_spec always).2.2.2, if_pos]
    exact ⟨rfl, by rw [pageRange_one (by decide)]; exact List.mem_singleton.mpr rfl⟩
  have before : readByte w 0 0x50000000 = some 0 := by
    rw [readByte_eq one.found one.live, one.memory]
    exact congrArg some one.zero
  have after : readByte next 0 0x50000000 = none :=
    readByte_unmapped unmapped
  have crashes :
      sysMremap plainHost w 0 0x50000000 0x2000 0x3000 0
        (grantMemory 16384) = none := by
    rw [sysMremap_grow checked (by decide),
      show page 0x50000000 = 0x50000 from rfl,
      show page 0x2000 = 2 from rfl]
    have gap : memPt (w.mem 0) 0x50001 = some none :=
      memPt_eq_some.mpr ⟨by decide, isLast⟩
    have hasGap :
        allMapped (w.mem 0) (pageRange 0x50000 2) = some false := by
      rw [pageRange_eq (by decide)]
      simp [allMapped, List.range'_succ, isMapped, gap]
    simp [mremapGrow, isMapped, hasGap]
  refine ⟨w, next, kept, shrinks, before, after, crashes, ?_, ?_⟩
  · intro correct
    have same := (correct.success shrinks).kept 0x50000000
      (Nat.le_refl _) (by decide)
    rw [before, after] at same
    cases same
  · intro correct
    obtain ⟨outcome, ran⟩ := correct.defined
    cases crashes.symm.trans ran

end GuestKernel
