import GuestKernel.HostProtectionRuns
import GuestKernel.PageFaults

namespace GuestKernel
open Option

/-!
# What faults, debugger writes and `mprotect` do to the flags of a page

Permission, sharing, anonymity, growth and copy-on-write are bits of one word.
The machine below keeps, beside the page table, the flags the guest has asked
for; a step is faithful if it changes no other bit.
-/

/-- The three operations that rewrite the flags of a mapped page. -/
inductive AttributeAction where
  | resolve
      (page : Nat) (type : Access) (ptraceCopy : Bool)
      (grow copy : MapReply)
  | mprotect
      (addr len : Nat) (prot : Flags)
      (hostMprotect : Nat → Except Errno Unit)

/-- The flags of a page without its permission. -/
def attributes (flags : Flags) : Flags :=
  flags &&& ~~~pRwx

/-- An address space, and the flags the guest has asked for. -/
structure AttributeState where
  world : World
  asked : Nat → Option Flags

/-- Running one operation. -/
def AttributeAction.run (host : Host) (w : World) (m : MmId) :
    AttributeAction → Option Outcome
  | .resolve page type ptraceCopy grow copy =>
    memResolveFault host w m page type ptraceCopy grow copy
  | .mprotect addr len prot hostMprotect =>
    sysMprotect w m addr len prot hostMprotect

/--
What the guest has asked for afterwards: a fault asks for nothing but a new
stack page, and `mprotect` for a permission on the pages whose flags it sets.
-/
def AttributeState.asks
    (state : AttributeState) (m : MmId) (next : World) :
    AttributeAction → Nat → Option Flags
  | .resolve page _ _ _ _ => fun other =>
    if other = page ∧ state.world.lookup m page = none ∧
        (next.lookup m page).isSome then
      some stackFlags
    else
      state.asked other
  | .mprotect addr len prot hostMprotect => fun other =>
    if other ∈ mprotectRewrites state.world m addr len prot hostMprotect then
      (state.asked other).map fun flags => attributes flags ||| prot
    else
      state.asked other

/-- One operation on one address space, whatever its result. -/
inductive AttributeStep (host : Host) (m : MmId) :
    AttributeState → AttributeAction → AttributeState → Prop where
  | run
      {state : AttributeState} {action : AttributeAction}
      {result : Except Errno Unit} {next : World} :
      action.run host state.world m = some (result, next) →
      AttributeStep host m state action
        { world := next, asked := state.asks m next action }

/-- All runs from a page table, with the flags it has there. -/
def attributeMachine (host : Host) (m : MmId) (start : World) :
    Machine AttributeState AttributeAction where
  initial state :=
    state.world = start ∧
      state.asked = fun page => (start.lookup m page).map (·.flags)
  step := AttributeStep host m

/-- A fault may clear copy-on-write and nothing else. -/
def KeepsFlags (before after : Flags) : Prop :=
  after = before ∨ after = before &&& ~~~pCow

/--
The operation changes only the flags it is asked to change: a fault may clear
copy-on-write of its page, or add a stack page below a stack; `mprotect` keeps
all bits but the permission.
-/
structure KeepsAttributes
    (w next : World) (m : MmId) (action : AttributeAction) : Prop where
  others :
    ∀ other otherPage,
      other ≠ m → next.lookup other otherPage = w.lookup other otherPage
  mapped :
    ∀ {page entry},
      w.lookup m page = some entry →
      ∃ after,
        next.lookup m page = some after ∧
          match action with
          | .resolve _ _ _ _ _ => KeepsFlags entry.flags after.flags
          | .mprotect _ _ _ _ =>
            attributes after.flags = attributes entry.flags
  unmapped :
    ∀ {page after},
      w.lookup m page = none →
      next.lookup m page = some after →
      match action with
      | .resolve faulted _ _ _ _ =>
        page = faulted ∧ StackAbove w m page ∧
          after.flags = stackFlags
      | .mprotect _ _ _ _ => False

/-- Every page has the flags asked for, but for copy-on-write. -/
structure HasAsked (m : MmId) (state : AttributeState) : Prop where
  mapped :
    ∀ {page entry},
      state.world.lookup m page = some entry →
      ∃ flags,
        state.asked page = some flags ∧ KeepsFlags flags entry.flags
  unmapped :
    ∀ {page},
      state.world.lookup m page = none → state.asked page = none

/--
A debugger pokes no page that is mapped read-only, unless the host has no
memory for the copy; `mprotect` finds no other bits than the permission.
-/
def AsksForAll (host : Host) (w : World) (m : MmId) :
    AttributeAction → Prop
  | .resolve page type ptraceCopy _ copy =>
    type ≠ .read →
      ptraceCopy = true →
      copy.Grants host →
      ∀ {entry},
        w.lookup m page = some entry →
        hasFlag entry.flags pWrite = true
  | .mprotect addr len prot hostMprotect =>
    ∀ page ∈ mprotectRewrites w m addr len prot hostMprotect,
      ∀ {entry},
        w.lookup m page = some entry → attributes entry.flags = 0

variable {prot : Flags} {ptraceCopy : Bool} {result : Except Errno Unit}
  {state after : AttributeState} {action : AttributeAction}

theorem attributes_of_protection
    (protection : hasFlag prot (~~~pRwx) = false) :
    attributes prot = 0 := by
  simpa [hasFlag, attributes] using protection

theorem KeepsFlags.trans
    {first second third : Flags}
    (before : KeepsFlags first second)
    (after : KeepsFlags second third) :
    KeepsFlags first third := by
  rcases before with rfl | rfl
  · exact after
  · rcases after with rfl | rfl
    · exact .inr rfl
    · refine .inr ?_
      rw [BitVec.and_assoc, BitVec.and_self]

theorem or_clear (first second cleared : Flags) :
    (first ||| second) &&& ~~~cleared =
      first &&& ~~~cleared ||| second &&& ~~~cleared := by
  ext index
  simp [Bool.and_or_distrib_right]

theorem clear_of_protection
    (protection : hasFlag prot (~~~pRwx) = false) :
    prot &&& ~~~pCow = prot := by
  have noAttributes := attributes_of_protection protection
  unfold attributes at noAttributes
  have split : prot = prot &&& pRwx ||| prot &&& ~~~pRwx := by
    ext index
    simp only [BitVec.getElem_or, BitVec.getElem_and, BitVec.getElem_not]
    cases prot[index] <;> cases pRwx[index] <;> rfl
  rw [noAttributes] at split
  have onlyRwx : prot = prot &&& pRwx := split.trans BitVec.or_zero
  have disjoint : pRwx &&& ~~~pCow = pRwx := by decide
  rw [onlyRwx, BitVec.and_assoc, disjoint]

theorem KeepsFlags.protect
    {before after : Flags}
    (kept : KeepsFlags before after)
    (protection : hasFlag prot (~~~pRwx) = false) :
    KeepsFlags (attributes before ||| prot) (attributes after ||| prot) := by
  rcases kept with rfl | rfl
  · exact .inl rfl
  · refine .inr ?_
    rw [or_clear, clear_of_protection protection, attributes, attributes,
      BitVec.and_assoc, BitVec.and_assoc, BitVec.and_comm (~~~pCow)]

theorem or_write_of_hasFlag
    {flags : Flags}
    (isWrite : hasFlag flags pWrite = true) :
    flags ||| pWrite = flags := by
  have isBit : pWrite = BitVec.twoPow 32 1 := by decide
  have bitSet : flags.getLsbD 1 = true := by
    by_contra notSet
    rw [hasFlag, isBit, BitVec.and_twoPow, if_neg notSet] at isWrite
    cases isWrite
  ext index below
  rw [BitVec.getElem_or, isBit, BitVec.getElem_twoPow]
  rcases Decidable.em (index = 1) with rfl | other
  · rw [← BitVec.getLsbD_eq_getElem, bitSet, Bool.true_or]
  · rw [decide_eq_false other, Bool.or_false]

/-- A write keeps the flags unless it needed the debugger's permission. -/
theorem keepsFlags_writeFlags
    {flags : Flags} :
    KeepsFlags flags (writeFlags ptraceCopy flags &&& ~~~pCow) ↔
      ptraceCopy = false ∨ hasFlag flags pWrite = true := by
  cases ptraceCopy with
  | false => exact ⟨fun _ => .inl rfl, fun _ => .inr rfl⟩
  | true =>
    have sameClear :
        writeFlags true flags &&& ~~~pCow =
          (flags ||| pWrite) &&& ~~~pCow := by
      have clears :
          (pWrite ||| pCow) &&& ~~~pCow = pWrite &&& ~~~pCow := by decide
      rw [writeFlags, if_pos rfl, or_clear, clears, ← or_clear]
    have disjoint : ~~~pCow &&& pWrite = pWrite := by decide
    rw [sameClear]
    constructor
    · intro kept
      have added :
          hasFlag ((flags ||| pWrite) &&& ~~~pCow) pWrite = true := by
        rw [hasFlag_clear_of_disjoint _ disjoint, hasFlag_or,
          show hasFlag pWrite pWrite = true by decide, Bool.or_true]
      rcases kept with same | cleared
      · exact .inr (same ▸ added)
      · rw [cleared, hasFlag_clear_of_disjoint _ disjoint] at added
        exact .inr added
    · rintro (isPoke | isWrite)
      · cases isPoke
      · rw [or_write_of_hasFlag isWrite]
        exact .inr rfl

variable
  {host : Host}
  {w next : World}
  {m : MmId}

/-- What a fault can do to the entry of its page. -/
inductive FaultEntry
    (host : Host) (w : World) (m : MmId) (page : Nat) (type : Access)
    (ptraceCopy : Bool) (copy : MapReply) (next : World) : Prop where
  | absent :
      w.lookup m page = none →
      next.lookup m page = none →
      FaultEntry host w m page type ptraceCopy copy next
  | grown (after : PtEntry) :
      w.lookup m page = none →
      StackAbove w m page →
      next.lookup m page = some after →
      after.flags = stackFlags →
      FaultEntry host w m page type ptraceCopy copy next
  | kept (entry : PtEntry) :
      w.lookup m page = some entry →
      next.lookup m page = some entry →
      type = .read ∨ ptraceCopy = false ∨ ¬copy.Grants host →
      FaultEntry host w m page type ptraceCopy copy next
  | copied (entry after : PtEntry) :
      w.lookup m page = some entry →
      type ≠ .read →
      copy.Grants host →
      next.lookup m page = some after →
      after.flags = writeFlags ptraceCopy entry.flags &&& ~~~pCow →
      FaultEntry host w m page type ptraceCopy copy next

theorem writeFlags_poke (flags : Flags) :
    hasFlag (writeFlags true flags) pWrite = true ∧
      hasFlag (writeFlags true flags) pCow = true := by
  constructor
  · rw [writeFlags, if_pos rfl, hasFlag_or,
      show hasFlag (pWrite ||| pCow) pWrite = true by decide, Bool.or_true]
  · rw [writeFlags, if_pos rfl, hasFlag_or,
      show hasFlag (pWrite ||| pCow) pCow = true by decide, Bool.or_true]

theorem writeFlags_stackFlags (ptraceCopy : Bool) :
    writeFlags ptraceCopy stackFlags &&& ~~~pCow = stackFlags := by
  cases ptraceCopy <;> decide

theorem memResolveFault_entry
    {page : Nat}
    {type : Access}
    {grow copy : MapReply}
    (resolved :
      memResolveFault host w m page type ptraceCopy grow copy =
        some (result, next)) :
    FaultEntry host w m page type ptraceCopy copy next ∧
      ∀ other otherPage,
        ¬(other = m ∧ otherPage = page) →
        next.lookup other otherPage = w.lookup other otherPage := by
  unfold memResolveFault at resolved
  obtain ⟨⟨grown, middle⟩, growth, rest⟩ :=
    bind_eq_some_iff.mp resolved
  obtain ⟨inside, outcome⟩ := growStack_spec growth
  cases outcome with
  | refused code absent failed _ filled =>
    cases failed
    cases rest
    have sameLookup : next.lookup = w.lookup := by
      rcases filled with rfl | ⟨_, _, rfl⟩ <;> rfl
    rw [sameLookup]
    exact ⟨.absent absent (by rw [sameLookup, absent]), fun _ _ _ => rfl⟩
  | mapped isMapped succeeded same =>
    cases succeeded
    cases same
    obtain ⟨entry, found⟩ := ne_none_iff_exists'.mp isMapped
    have write := resolveWrite_spec inside found rest
    cases write with
    | kept reason _ same =>
      cases same
      refine ⟨.kept entry found found ?_, fun _ _ _ => rfl⟩
      refine reason.imp id fun writable => .inl ?_
      cases ptraceCopy with
      | false => rfl
      | true =>
        rw [pWritable_of_cow (writeFlags_poke entry.flags).2] at writable
        cases writable
    | refused _ _ reason _ sameLookup _ =>
      rw [sameLookup]
      refine ⟨.kept entry found (by rw [sameLookup, found]) ?_,
        fun _ _ _ => rfl⟩
      refine .inr (reason.imp (fun readOnly => ?_) And.right)
      cases ptraceCopy with
      | false => rfl
      | true =>
        rw [(writeFlags_poke entry.flags).1] at readOnly
        cases readOnly
    | copied writing _ _ _ granted replaces _ =>
      obtain ⟨⟨after, isAfter, flags⟩, others⟩ := replaces
      exact ⟨.copied entry after found writing granted isAfter flags,
        others⟩
  | grown absent succeeded stack _ replaces _ =>
    cases succeeded
    obtain ⟨⟨entry, found, isStack⟩, others⟩ := replaces
    have write := resolveWrite_spec inside found rest
    cases write with
    | kept _ _ same =>
      cases same
      exact ⟨.grown entry absent stack found isStack, others⟩
    | refused _ _ _ _ sameLookup _ =>
      rw [sameLookup]
      exact ⟨.grown entry absent stack (by rw [sameLookup, found]) isStack,
        others⟩
    | copied _ _ _ _ _ copies _ =>
      obtain ⟨⟨after, isAfter, flags⟩, othersAfter⟩ := copies
      rw [isStack, writeFlags_stackFlags] at flags
      exact ⟨.grown after absent stack isAfter flags,
        fun other otherPage elsewhere =>
          (othersAfter other otherPage elsewhere).trans
            (others other otherPage elsewhere)⟩

/-- A fault keeps the attributes unless it is a poke into a read-only page. -/
theorem keepsAttributes_resolve
    {page : Nat}
    {type : Access}
    {grow copy : MapReply}
    (resolved :
      memResolveFault host w m page type ptraceCopy grow copy =
        some (result, next)) :
    KeepsAttributes w next m (.resolve page type ptraceCopy grow copy) ↔
      AsksForAll host w m (.resolve page type ptraceCopy grow copy) := by
  obtain ⟨entry, elsewhere⟩ := memResolveFault_entry resolved
  -- all other pages keep their entries, so only the faulted one matters
  have keeps :
      KeepsAttributes w next m (.resolve page type ptraceCopy grow copy) ↔
        (∀ {entry},
          w.lookup m page = some entry →
          ∃ after,
            next.lookup m page = some after ∧
              KeepsFlags entry.flags after.flags) ∧
          ∀ {after},
            w.lookup m page = none →
            next.lookup m page = some after →
            StackAbove w m page ∧ after.flags = stackFlags := by
    constructor
    · intro kept
      exact ⟨fun found => kept.mapped found,
        fun absent isAfter => (kept.unmapped absent isAfter).2⟩
    · rintro ⟨mapped, unmapped⟩
      constructor
      case others =>
        exact fun other otherPage isOther =>
          elsewhere other otherPage fun both => isOther both.1
      case mapped =>
        intro other entry found
        rcases Decidable.em (other = page) with rfl | isOther
        · exact mapped found
        · refine ⟨entry, ?_, .inl rfl⟩
          rw [elsewhere m other fun both => isOther both.2, found]
      case unmapped =>
        intro other after absent isAfter
        rcases Decidable.em (other = page) with rfl | isOther
        · exact ⟨rfl, unmapped absent isAfter⟩
        · rw [elsewhere m other fun both => isOther both.2, absent] at isAfter
          cases isAfter
  rw [keeps]
  cases entry with
  | absent absent stays =>
    refine ⟨fun _ _ _ _ _ found => ?_, fun _ => ⟨?_, ?_⟩⟩
    · rw [absent] at found
      cases found
    · intro entry found
      rw [absent] at found
      cases found
    · intro after _ isAfter
      rw [stays] at isAfter
      cases isAfter
  | grown stackPage absent stack isAfter flags =>
    refine ⟨fun _ _ _ _ _ found => ?_, fun _ => ⟨?_, ?_⟩⟩
    · rw [absent] at found
      cases found
    · intro entry found
      rw [absent] at found
      cases found
    · intro after _ found
      cases isAfter.symm.trans found
      exact ⟨stack, flags⟩
  | kept entry found isAfter reason =>
    constructor
    · intro _ writing isPoke granted
      rcases reason with isRead | notPoke | refused
      · exact absurd isRead writing
      · cases isPoke.symm.trans notPoke
      · exact absurd granted refused
    · intro _
      refine ⟨?_, fun absent => ?_⟩
      · intro before wasFound
        cases found.symm.trans wasFound
        exact ⟨entry, isAfter, .inl rfl⟩
      · rw [found] at absent
        cases absent
  | copied entry after found writing granted isAfter flags =>
    constructor
    · rintro ⟨mapped, _⟩ _ isPoke _ before wasFound
      cases found.symm.trans wasFound
      obtain ⟨other, isOther, kept⟩ := mapped found
      cases isAfter.symm.trans isOther
      rw [flags, keepsFlags_writeFlags] at kept
      exact kept.resolve_left fun notPoke => by
        cases isPoke.symm.trans notPoke
    · intro asked
      refine ⟨?_, fun absent => ?_⟩
      · intro before wasFound
        cases found.symm.trans wasFound
        refine ⟨after, isAfter, ?_⟩
        rw [flags, keepsFlags_writeFlags]
        cases ptraceCopy with
        | false => exact .inl rfl
        | true => exact .inr (asked writing rfl granted found)
      · rw [found] at absent
        cases absent

/-- `mprotect` keeps the attributes exactly if the pages have none. -/
theorem keepsAttributes_mprotect
    {addr len : Nat}
    {hostMprotect : Nat → Except Errno Unit}
    (call :
      sysMprotect w m addr len prot hostMprotect = some (result, next)) :
    KeepsAttributes w next m (.mprotect addr len prot hostMprotect) ↔
      AsksForAll host w m (.mprotect addr len prot hostMprotect) := by
  obtain ⟨_, protection, lookups⟩ := sysMprotect_spec call
  constructor
  · intro kept page rewrites entry found
    obtain ⟨after, isAfter, same⟩ := kept.mapped found
    rw [lookups, if_pos ⟨rfl, rewrites⟩, found] at isAfter
    cases isAfter
    rw [← same, attributes_of_protection (protection page rewrites)]
  · intro asked
    constructor
    case others =>
      exact fun other otherPage isOther =>
        (lookups other otherPage).trans (if_neg fun both => isOther both.1)
    case mapped =>
      intro page entry found
      rw [lookups]
      split
      · rename_i rewrites
        refine ⟨{ entry with flags := prot }, by rw [found]; rfl, ?_⟩
        rw [asked page rewrites.2 found]
        exact attributes_of_protection (protection page rewrites.2)
      · exact ⟨entry, found, rfl⟩
    case unmapped =>
      intro page after absent isAfter
      rw [lookups, absent] at isAfter
      split at isAfter <;> cases isAfter

theorem keepsAttributes_iff
    (taken : AttributeStep host m state action after) :
    KeepsAttributes state.world after.world m action ↔
      AsksForAll host state.world m action := by
  cases taken with
  | run ran =>
    cases action with
    | resolve => exact keepsAttributes_resolve ran
    | mprotect => exact keepsAttributes_mprotect ran

theorem KeepsAttributes.wasAbsent
    {w next : World}
    {action : AttributeAction}
    {page : Nat}
    (kept : KeepsAttributes w next m action)
    (isAbsent : next.lookup m page = none) :
    w.lookup m page = none := by
  by_contra isMapped
  obtain ⟨before, found⟩ := ne_none_iff_exists'.mp isMapped
  obtain ⟨after, isAfter, _⟩ := kept.mapped found
  cases isAbsent.symm.trans isAfter

/-- A faithful step leaves every page with the flags asked for. -/
theorem HasAsked.step
    (asked : HasAsked m state)
    (allowed : AsksForAll host state.world m action)
    (taken : AttributeStep host m state action after) :
    HasAsked m after := by
  have kept := (keepsAttributes_iff taken).mpr allowed
  cases taken with
  | run ran =>
    rename_i result next
    cases action with
    | resolve page type ptraceCopy grow copy =>
      constructor
      case mapped =>
        intro other entry isEntry
        dsimp only [AttributeState.asks]
        cases found : state.world.lookup m other with
        | some before =>
          obtain ⟨flags, wasAsked, agrees⟩ := asked.mapped found
          obtain ⟨after, isAfter, keeps⟩ := kept.mapped found
          cases isAfter.symm.trans isEntry
          refine ⟨flags, ?_, agrees.trans keeps⟩
          rw [if_neg ?_, wasAsked]
          rintro ⟨rfl, absent, _⟩
          rw [found] at absent
          cases absent
        | none =>
          obtain ⟨rfl, _, isStack⟩ := kept.unmapped found isEntry
          refine ⟨stackFlags, if_pos ⟨rfl, found, ?_⟩, .inl isStack⟩
          exact isSome_iff_exists.mpr ⟨entry, isEntry⟩
      case unmapped =>
        intro other isAbsent
        dsimp only [AttributeState.asks]
        have wasAbsent := kept.wasAbsent isAbsent
        rw [if_neg ?_, asked.unmapped wasAbsent]
        rintro ⟨rfl, _, grown⟩
        rw [show next.lookup m other = none from isAbsent] at grown
        cases grown
    | mprotect addr len prot hostMprotect =>
      obtain ⟨_, protection, lookups⟩ := sysMprotect_spec ran
      constructor
      case mapped =>
        intro other entry isEntry
        dsimp only [AttributeState.asks]
        rw [lookups] at isEntry
        split at isEntry
        case isTrue rewrites =>
          obtain ⟨before, found, rfl⟩ := map_eq_some_iff.mp isEntry
          obtain ⟨flags, wasAsked, agrees⟩ := asked.mapped found
          have prots := protection other rewrites.2
          refine ⟨attributes flags ||| prot, ?_, ?_⟩
          · rw [if_pos rewrites.2, wasAsked, map_some]
          · have keeps := agrees.protect prots
            have onlyProt : (0 : Flags) ||| prot = prot := BitVec.zero_or
            rw [allowed other rewrites.2 found, onlyProt] at keeps
            exact keeps
        case isFalse elsewhere =>
          obtain ⟨flags, wasAsked, agrees⟩ := asked.mapped isEntry
          refine ⟨flags, ?_, agrees⟩
          rw [if_neg fun rewrites => elsewhere ⟨rfl, rewrites⟩, wasAsked]
      case unmapped =>
        intro other isAbsent
        dsimp only [AttributeState.asks]
        have wasAbsent := kept.wasAbsent isAbsent
        rw [asked.unmapped wasAbsent, map_none, ite_self]

/-- A page table has the flags it has. -/
theorem HasAsked.initial
    (isStart : state.world = w)
    (isAsked : state.asked = fun page => (w.lookup m page).map (·.flags)) :
    HasAsked m state := by
  subst isStart
  constructor
  case mapped =>
    intro page entry found
    refine ⟨entry.flags, ?_, .inl rfl⟩
    rw [isAsked]
    exact congrArg (Option.map _) found
  case unmapped =>
    intro page absent
    rw [isAsked]
    exact congrArg (Option.map _) absent

/--
After every run of faults, debugger writes and `mprotect`s that meet the
condition, all pages have the flags asked for; and the next operation keeps
the attributes of all pages exactly if it meets the condition, too.
-/
theorem attributes_kept_iff
    {state after : AttributeState}
    {action : AttributeAction}
    (reachable :
      ((attributeMachine host m w).restrict fun state action =>
        AsksForAll host state.world m action).Reachable state)
    (taken : (attributeMachine host m w).step state action after) :
    HasAsked m state ∧
      (KeepsAttributes state.world after.world m action ↔
        AsksForAll host state.world m action) := by
  refine ⟨?_, keepsAttributes_iff taken⟩
  exact reachable.invariant
    (fun isInitial => .initial isInitial.1 isInitial.2)
    (fun asked step => asked.step step.1 step.2)

/-- The host has no memory. -/
def refuseMemory : MapReply where
  memory := .error .nomem
  malloc := true

/-- A write to a private page in a new address space, through the theorem. -/
theorem attributes_kept_on_write :
    ∃ w record,
      OnePage w record ∧
        ∃ state after : AttributeState,
          state.world = w ∧ HasAsked 0 state ∧
            KeepsAttributes w after.world 0
              (.resolve 0x50000 .write false refuseMemory refuseMemory) := by
  obtain ⟨w, record, one, _⟩ := exists_onePage_wellKept
  let action : AttributeAction :=
    .resolve 0x50000 .write false refuseMemory refuseMemory
  let state : AttributeState :=
    { world := w, asked := fun page => (w.lookup 0 page).map (·.flags) }
  have isMapped := one.isMapped
  have canWrite : hasFlag 0x43 pWrite = true := by decide
  have notCow : hasFlag 0x43 pCow = false := by decide
  have ran : action.run plainHost w 0 = some (.ok (), w) := by
    simp only [action, AttributeAction.run, memResolveFault, growStack,
      isMapped, resolveWrite, one.found, canWrite, notCow,
      bind_eq_bind, bind_some, reduceCtorEq, if_false,
      Bool.true_eq_false, Bool.false_eq_true]
  have taken := @AttributeStep.run plainHost 0 state action _ w ran
  obtain ⟨asked, keeps⟩ :=
    attributes_kept_iff (.initial ⟨rfl, rfl⟩) taken
  exact ⟨w, record, one, state, _, rfl, asked,
    keeps.mpr fun _ isPoke => by cases isPoke⟩

/-- Making that page read-only leaves no other bit of its flags. -/
private theorem onePage_readOnly
    {record : Data}
    (one : OnePage w record)
    (kept : WellKept w) :
    ∃ next,
      sysMprotect w 0 0x50000000 4096 pRead (fun _ => .ok ()) =
          some (.ok (), next) ∧
        next.lookup 0 0x50000 = some ⟨0, 0, pRead⟩ ∧
          Accounted next ∧ next.wrapped = false ∧
          next.data 0 = some record := by
  have isMapped := one.isMapped
  have onePage :
      pageRange (page 0x50000000) (pageRoundUp 4096) = [0x50000] :=
    pageRange_one (by decide)
  have aligned : pgOffset 0x50000000 = 0 := by decide
  have protection : hasFlag pRead (~~~pRwx) = false := by decide
  have notMore :
      hasFlag (pRead &&& ~~~0x43) (pRead ||| pWrite) = false := by decide
  let next := (w.fillEntry 0 0x50000 ⟨0, 0, pRead⟩).memChanged 0
  have call :
      sysMprotect w 0 0x50000000 4096 pRead (fun _ => .ok ()) =
        some (.ok (), next) := by
    simp only [sysMprotect, aligned, protection, ptSetFlags, onePage,
      allMapped, isMapped, setFlagsLoop, notMore, ne_eq, not_true_eq_false,
      if_false, Bool.false_eq_true, isSome_some, if_true,
      bind_eq_bind, bind_some]
    rfl
  refine ⟨next, call, ?_, ?_, kept.notWrapped, one.live⟩
  · rw [World.lookup_memChanged, World.lookup_fillEntry, if_pos ⟨rfl, rfl⟩]
  · rcases sysMprotect_cases call with same | ⟨_, set⟩
    · exact same ▸ kept.accounted
    · exact kept.accounted.ptSetFlags set

/-- A poke into a read-only page gets a copy of it. -/
private theorem poke_isSome
    {entry : PtEntry}
    {record : Data}
    (accounted : Accounted w)
    (notWrapped : w.wrapped = false)
    (found : w.lookup 0 0x50000 = some entry)
    (live : w.data entry.data = some record) :
    ∃ next,
      memResolveFault plainHost w 0 0x50000 .writePtrace true refuseMemory
        (grantMemory 16384) = some (.ok (), next) := by
  have isMapped : memPt (w.mem 0) 0x50000 = some (some entry) :=
    memPt_eq_some.mpr ⟨by decide, found⟩
  obtain ⟨isWrite, isCow⟩ := writeFlags_poke entry.flags
  have copied :=
    accounted.fillBytes 16384 pageSize fun index =>
      w.bytes (record.data + entry.offset + index)
  obtain ⟨next, mapped⟩ :=
    @ptMap_onePage_isSome plainHost _ 0 0x50000 (grantMemory 16384) copied
      notWrapped (by decide) ⟨rfl, 16384, rfl, .inl (by decide)⟩ 0
      (writeFlags true entry.flags &&& ~~~pCow)
  refine ⟨next, ?_⟩
  have isPoke :
      entry.flags ||| (pWrite ||| pCow) = writeFlags true entry.flags := rfl
  simp only [memResolveFault, growStack, isMapped, resolveWrite, found,
    isPoke, isWrite, isCow, copyFault, grantMemory, live,
    bind_eq_bind, bind_some, reduceCtorEq, if_false, if_true,
    Bool.true_eq_false]
  exact mapped

/--
Making a private page read-only drops its anonymity, and a poke into it then
makes it writable.
-/
theorem attributes_lost_and_page_made_writable :
    ∃ w record first second protect poke,
      OnePage w record ∧
        AttributeStep plainHost 0
            { world := w, asked := fun page =>
                (w.lookup 0 page).map (·.flags) } protect first ∧
          AttributeStep plainHost 0 first poke second ∧
            ¬KeepsAttributes w first.world 0 protect ∧
            ¬KeepsAttributes first.world second.world 0 poke ∧
            (first.world.lookup 0 0x50000).map (·.flags) = some pRead ∧
            (second.world.lookup 0 0x50000).map (·.flags) =
              some (pRead ||| pWrite) := by
  obtain ⟨w, record, one, kept, _⟩ := exists_onePage_wellKept
  obtain ⟨next, call, readOnly, accounted, notWrapped, live⟩ :=
    onePage_readOnly one kept
  obtain ⟨last, resolved⟩ := poke_isSome accounted notWrapped readOnly live
  let initial : AttributeState :=
    { world := w, asked := fun page => (w.lookup 0 page).map (·.flags) }
  let protect : AttributeAction :=
    .mprotect 0x50000000 4096 pRead fun _ => .ok ()
  let poke : AttributeAction :=
    .resolve 0x50000 .writePtrace true refuseMemory (grantMemory 16384)
  let first : AttributeState :=
    { world := next, asked := initial.asks 0 next protect }
  have protects := @AttributeStep.run plainHost 0 initial protect _ next call
  have pokes := @AttributeStep.run plainHost 0 first poke _ last resolved
  have loses : ¬KeepsAttributes w next 0 protect := by
    intro kept
    obtain ⟨after, isAfter, same⟩ := kept.mapped one.found
    cases readOnly.symm.trans isAfter
    exact absurd same (by decide)
  have refused : ¬AsksForAll plainHost next 0 poke := by
    intro asked
    have granted : (grantMemory 16384).Grants plainHost :=
      ⟨rfl, 16384, rfl, .inl (by decide)⟩
    exact absurd (asked (by decide) rfl granted readOnly) (by decide)
  have writable :
      (last.lookup 0 0x50000).map (·.flags) = some (pRead ||| pWrite) := by
    obtain ⟨entry, _⟩ := memResolveFault_entry resolved
    cases entry with
    | absent absent _ | grown _ absent _ _ _ => cases readOnly.symm.trans absent
    | kept _ _ _ reason =>
      rcases reason with isRead | notPoke | notGranted
      · cases isRead
      · cases notPoke
      · exact absurd ⟨rfl, 16384, rfl, .inl (by decide)⟩ notGranted
    | copied entry after found _ _ isAfter flags =>
      cases readOnly.symm.trans found
      rw [isAfter, map_some, flags]
      decide
  refine ⟨w, record, first, _, protect, poke, one, protects, pokes, loses,
    (keepsAttributes_iff pokes).not.mpr refused, ?_, writable⟩
  exact congrArg (Option.map (·.flags)) readOnly

end GuestKernel
