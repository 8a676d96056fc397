import GuestKernel.AbstractNames

namespace GuestKernel
open List Option Function

/-!
# Runs of calls on abstract names

What each call does to the table and the sockets, and from it which calls keep
the laws of names.
-/

namespace AbstractWorld

variable {world next : AbstractWorld}

variable {socket : Nat}

/-- A bind finds its name taken, or makes an entry that the socket points to. -/
theorem sysBind_cases
    {name : SockName}
    {hostBind : Except Errno Unit}
    (step : world.run (.bind socket name hostBind) = some next) :
    ∃ content,
      world.sockets socket = some content ∧
        ((∃ entry, world.find name = some entry) ∧ next = world ∨
          world.find name = none ∧
            (hostBind = .ok () ∧
                next = world.addEntry socket name (some name) ∨
              (∃ code, hostBind = .error code) ∧
                (world.addEntry socket name content.bound).abstractRelease
                  world.nextEntry = some next)) := by
  obtain ⟨⟨_, _⟩, call, same⟩ := map_eq_some_iff.mp step
  cases same
  obtain ⟨⟨result, created⟩, get, call⟩ := bind_eq_some_iff.mp call
  cases isOpen : world.sockets socket with
  | none =>
    simp only [abstractGetBind, isOpen] at get
    cases get
  | some content =>
    refine ⟨content, rfl, ?_⟩
    cases found : world.find name with
    | some entry =>
      simp only [abstractGetBind, isOpen, found] at get
      cases get
      cases call
      exact .inl ⟨⟨entry, rfl⟩, rfl⟩
    | none =>
      simp only [abstractGetBind, isOpen, found] at get
      cases get
      have isNew :
          (world.addEntry socket name content.bound).sockets socket =
            some ⟨some world.nextEntry, content.bound⟩ :=
        update_self ..
      refine .inr ⟨rfl, ?_⟩
      obtain ⟨after, isAfter, call⟩ := bind_eq_some_iff.mp call
      cases isNew.symm.trans isAfter
      cases hostBind with
      | ok done =>
        cases call
        refine .inl ⟨rfl, ?_⟩
        simp only [setSocket, addEntry, update_idem]
      | error code =>
        obtain ⟨released, release, call⟩ :=
          bind_eq_some_iff.mp call
        cases call
        exact .inr ⟨⟨code, rfl⟩, release⟩

/-- Another bind leaves the table, or releases the entry of its socket. -/
theorem sysBindOther_cases
    {isPath : Bool}
    {hostBind : Except Errno Unit}
    (step : world.run (.bindOther socket isPath hostBind) = some next) :
    (world.hold socket = none ∨ hostBind = .ok ()) ∧
        next = world.withPathId isPath ∨
      ∃ id,
        world.hold socket = some id ∧ hostBind ≠ .ok () ∧
          (world.withPathId isPath).abstractRelease id = some next := by
  obtain ⟨⟨_, _⟩, call, same⟩ := map_eq_some_iff.mp step
  cases same
  obtain ⟨content, isOpen, call⟩ := bind_eq_some_iff.mp call
  have holds : world.hold socket = content.nameAbstract := by
    rw [hold, isOpen, bind_some]
  rw [holds]
  cases hostBind with
  | ok done =>
    cases call
    exact .inl ⟨.inr rfl, rfl⟩
  | error code =>
    cases isName : content.nameAbstract with
    | none =>
      simp only [isName] at call
      cases call
      exact .inl ⟨.inl rfl, rfl⟩
    | some id =>
      simp only [isName] at call
      obtain ⟨released, release, call⟩ := bind_eq_some_iff.mp call
      cases call
      exact .inr ⟨id, rfl, (fun impossible => nomatch impossible), release⟩

/-- The id of a path is a later one. -/
theorem le_withPathId
    (world : AbstractWorld)
    (noWrap : NoIdWrap world)
    (isPath : Bool) :
    world.nextId ≤ (world.withPathId isPath).nextId := by
  cases isPath with
  | false => exact Nat.le_refl _
  | true =>
    show world.nextId ≤ incremented world.nextId
    rw [incremented_of_small noWrap]
    exact Nat.le_succ _

/-- A lookup finds nothing and changes nothing, or takes a reference. -/
theorem abstractGet_cases
    (world : AbstractWorld)
    (name : SockName) :
    world.find name = none ∧ (world.abstractGet name).2 = world ∨
      ∃ entry,
        world.find name = some entry ∧ entry ∈ world.table ∧
          (world.abstractGet name).2 =
            { world.setEntry
                { entry with refcount := incremented entry.refcount } with
              resolved := (name, entry.socketId) :: world.resolved } := by
  unfold abstractGet
  cases found : world.find name with
  | none => exact .inl ⟨rfl, rfl⟩
  | some entry =>
    exact .inr ⟨entry, rfl, List.mem_of_find?_eq_some found, rfl⟩

theorem holderCount_setSocket
    (content : Option NamedSocket)
    (inside : socket < world.socketCount)
    (id : Nat) :
    (world.setSocket socket content).holderCount id +
        (if world.hold socket = some id then 1 else 0) =
      world.holderCount id +
        if content.bind NamedSocket.nameAbstract = some id then 1 else 0 := by
  have changed :
      (world.setSocket socket content).hold =
        update world.hold socket
          (content.bind NamedSocket.nameAbstract) := by
    funext other
    unfold hold setSocket
    dsimp only
    by_cases same : other = socket
    · rw [same, update_self, update_self]
    · rw [update_of_ne same, update_of_ne same]
  unfold holderCount
  rw [changed]
  exact holders_update_balance world.hold (Finset.mem_range.mpr inside) _ id

/-- A close of a socket without a name, or with one that is released. -/
theorem sockClose_cases
    (step : world.run (.close socket) = some next) :
    ∃ content,
      world.sockets socket = some content ∧
        (content.nameAbstract = none ∧ next = world.setSocket socket none ∨
          ∃ id released,
            content.nameAbstract = some id ∧
              world.abstractRelease id = some released ∧
              next = released.setSocket socket none) := by
  obtain ⟨content, isOpen, step⟩ := bind_eq_some_iff.mp step
  refine ⟨content, isOpen, ?_⟩
  cases isName : content.nameAbstract with
  | none =>
    simp only [isName] at step
    cases step
    exact .inl ⟨rfl, rfl⟩
  | some id =>
    simp only [isName] at step
    obtain ⟨released, release, step⟩ := bind_eq_some_iff.mp step
    cases step
    exact .inr ⟨id, released, rfl, release, rfl⟩

/-- The only reference to an entry is given back. -/
theorem abstractRelease_single
    {entry : UnixAbstract}
    (inTable : entry ∈ world.table)
    (distinct :
      ∀ first ∈ world.table, ∀ second ∈ world.table,
        first.id = second.id → first = second)
    (single : entry.refcount = 1) :
    world.abstractRelease entry.id =
      some
        { world with
          table := world.table.filter fun other => other.id ≠ entry.id } := by
  have found : world.table.find? (·.id == entry.id) = some entry := by
    cases isFound : world.table.find? (·.id == entry.id) with
    | none =>
      have absent := List.find?_eq_none.mp isFound entry inTable
      exact absurd (beq_self_eq_true _) absent
    | some other =>
      have sameId : other.id = entry.id := by
        simpa using List.find?_some isFound
      rw [distinct other (List.mem_of_find?_eq_some isFound) entry inTable
        sameId]
  have last : decremented entry.refcount = 0 := by
    rw [single, decremented_of_pos Nat.one_pos (by decide)]
  simp only [abstractRelease, found, last, if_true]

end AbstractWorld

namespace NamesKept

open AbstractWorld

variable {world next : AbstractWorld}

variable {socket : Nat} {content : NamedSocket}

theorem nobody_holds_next
    (kept : NamesKept world) :
    world.hold socket ≠ some world.nextEntry := by
  intro holds
  obtain ⟨content, isOpen, isName⟩ := bind_eq_some_iff.mp holds
  obtain ⟨entry, inTable, sameId, _⟩ :=
    kept.held socket content _ isOpen isName
  exact absurd (kept.numbered entry inTable)
    (sameId ▸ Nat.lt_irrefl world.nextEntry)

theorem lawful
    (kept : NamesKept world) :
    LawfulNames world where
  resolves := kept.resolves
  listed := by
    intro name
    constructor
    · rintro ⟨entry, inTable, rfl⟩
      have isHeld : world.holderCount entry.id ≠ 0 := by
        rw [← kept.counted entry inTable, kept.single entry inTable]
        exact Nat.one_ne_zero
      have someHolds :
          ∃ socket, world.hold socket = some entry.id := by
        by_contra nobody
        refine isHeld (holders_eq_zero_iff.mpr fun socket _ holds => ?_)
        exact nobody ⟨socket, holds⟩
      obtain ⟨socket, holds⟩ := someHolds
      obtain ⟨content, isOpen, isName⟩ := bind_eq_some_iff.mp holds
      obtain ⟨other, otherIn, sameId, isBound⟩ :=
        kept.held socket content _ isOpen isName
      rw [kept.distinct other otherIn entry inTable sameId] at isBound
      exact ⟨socket, content, isOpen, isBound⟩
    · rintro ⟨socket, content, isOpen, isBound⟩
      cases isName : content.nameAbstract with
      | none =>
        rw [kept.unbound socket content isOpen isName] at isBound
        cases isBound
      | some id =>
        obtain ⟨entry, inTable, _, bound⟩ :=
          kept.held socket content id isOpen isName
        exact ⟨entry, inTable,
          some.inj (bound.symm.trans isBound)⟩
  counted := kept.counted
  live := by
    intro socket id holds
    obtain ⟨content, isOpen, isName⟩ := bind_eq_some_iff.mp holds
    obtain ⟨entry, inTable, sameId, _⟩ :=
      kept.held socket content id isOpen isName
    exact ⟨entry, inTable, sameId⟩

theorem empty : NamesKept AbstractWorld.empty := by
  constructor <;> simp [AbstractWorld.empty]

section

variable (kept : NamesKept world)
include kept

theorem opens
    (step : world.run .open = some next) :
    NamesKept next := by
  cases step
  have isFresh : world.sockets world.socketCount = none := by
    cases isOpen : world.sockets world.socketCount with
    | none => rfl
    | some content =>
      exact absurd (kept.opened _ content isOpen) (Nat.lt_irrefl _)
  have sameHold :
      ∀ socket,
        (update world.sockets world.socketCount
            (some ⟨none, none⟩) socket).bind NamedSocket.nameAbstract =
          world.hold socket := by
    intro socket
    by_cases same : socket = world.socketCount
    · rw [same, update_self, hold, isFresh]
      rfl
    · rw [update_of_ne same]
      rfl
  constructor
  case numbered => exact kept.numbered
  case distinct => exact kept.distinct
  case counted =>
    intro entry inTable
    rw [kept.counted entry inTable]
    unfold holderCount
    have agree :
        holders world.hold (Finset.range (world.socketCount + 1)) entry.id =
          holders world.hold (Finset.range world.socketCount) entry.id :=
      holders_of_subset
      (Finset.range_subset_range.mpr (Nat.le_succ world.socketCount))
      (by
        intro socket inLarge notSmall
        have isLast : socket = world.socketCount :=
          Nat.le_antisymm
            (Nat.le_of_lt_succ (Finset.mem_range.mp inLarge))
            (Nat.not_lt.mp fun below =>
              notSmall (Finset.mem_range.mpr below))
        rw [isLast, hold, isFresh]
        rfl) entry.id
    rw [← agree]
    exact (holders_congr (fun socket _ => sameHold socket) entry.id).symm
  case single => exact kept.single
  case held =>
    intro socket content id isOpen isName
    dsimp only at isOpen ⊢
    rcases eq_some_of_update isOpen with ⟨_, rfl⟩ | ⟨_, wasOpen⟩
    · cases isName
    · exact kept.held socket content id wasOpen isName
  case unbound =>
    intro socket content isOpen isName
    dsimp only at isOpen
    rcases eq_some_of_update isOpen with ⟨_, rfl⟩ | ⟨_, wasOpen⟩
    · rfl
    · exact kept.unbound socket content wasOpen isName
  case opened =>
    intro socket content isOpen
    dsimp only at isOpen ⊢
    rcases eq_some_of_update isOpen with ⟨rfl, _⟩ | ⟨_, wasOpen⟩
    · exact Nat.lt_succ_self _
    · exact Nat.lt_succ_of_lt (kept.opened socket content wasOpen)
  case resolvedIds => exact kept.resolvedIds
  case resolves => exact kept.resolves

theorem withPathId
    (noWrap : NoIdWrap world)
    (isPath : Bool) :
    NamesKept (world.withPathId isPath) :=
  { kept with
    resolvedIds := fun pair isPair =>
      Nat.le_trans (kept.resolvedIds pair isPair)
        (world.le_withPathId noWrap isPath) }

theorem holderCount_addEntry
    (isOpen : world.sockets socket = some content)
    (name : SockName)
    (bound : Option SockName)
    (id : Nat) :
    (world.addEntry socket name bound).holderCount id +
        (if world.hold socket = some id then 1 else 0) =
      world.holderCount id + if some world.nextEntry = some id then 1 else 0 :=
  holderCount_setSocket (some ⟨some world.nextEntry, bound⟩)
    (kept.opened socket content isOpen) id

/-- A bind that succeeds gives the name to its socket. -/
theorem binds
    {name : SockName}
    (noWrap : NoIdWrap world)
    (isOpen : world.sockets socket = some content)
    (noName : world.hold socket = none) :
    NamesKept (world.addEntry socket name (some name)) := by
  have counts := kept.holderCount_addEntry isOpen name (some name)
  have isNext : world.socketNextId = world.nextId + 1 :=
    incremented_of_small noWrap
  have isOne : incremented 0 = 1 := incremented_of_small (by decide)
  have older :
      ∀ entry ∈ world.table, world.nextEntry ≠ entry.id :=
    fun entry inTable same =>
      absurd (kept.numbered entry inTable) (same ▸ Nat.lt_irrefl _)
  have keptHold :
      ∀ entry ∈ world.table,
        (world.addEntry socket name (some name)).holderCount entry.id =
          world.holderCount entry.id := by
    intro entry inTable
    have count := counts entry.id
    rw [noName, if_neg (by simp), if_neg (by simpa using older entry inTable)]
      at count
    exact count
  constructor
  case numbered =>
    intro entry inTable
    rcases mem_cons.mp inTable with rfl | isOld
    · exact Nat.lt_succ_self _
    · exact Nat.lt_succ_of_lt (kept.numbered entry isOld)
  case distinct =>
    intro first firstIn second secondIn sameId
    rcases mem_cons.mp firstIn with rfl | firstOld
    · rcases mem_cons.mp secondIn with rfl | secondOld
      · rfl
      · exact absurd sameId (older second secondOld)
    · rcases mem_cons.mp secondIn with rfl | secondOld
      · exact absurd sameId.symm (older first firstOld)
      · exact kept.distinct first firstOld second secondOld sameId
  case counted =>
    intro entry inTable
    rcases mem_cons.mp inTable with rfl | isOld
    · have count := counts world.nextEntry
      have nobody : world.holderCount world.nextEntry = 0 :=
        holders_eq_zero_iff.mpr fun other _ => kept.nobody_holds_next
      rw [noName, if_neg (by simp), if_pos rfl, nobody] at count
      exact isOne.trans count.symm
    · rw [keptHold entry isOld]
      exact kept.counted entry isOld
  case single =>
    intro entry inTable
    rcases mem_cons.mp inTable with rfl | isOld
    · exact isOne
    · exact kept.single entry isOld
  case held =>
    intro other otherContent id isOther isName
    dsimp only [addEntry] at isOther ⊢
    rcases eq_some_of_update isOther with ⟨_, rfl⟩ | ⟨_, wasOther⟩
    · cases isName
      exact ⟨world.newEntry name, mem_cons_self, rfl, rfl⟩
    · obtain ⟨entry, inTable, sameId, isBound⟩ :=
        kept.held other otherContent id wasOther isName
      exact ⟨entry, mem_cons_of_mem _ inTable, sameId, isBound⟩
  case unbound =>
    intro other otherContent isOther isName
    dsimp only [addEntry] at isOther
    rcases eq_some_of_update isOther with ⟨_, rfl⟩ | ⟨_, wasOther⟩
    · cases isName
    · exact kept.unbound other otherContent wasOther isName
  case opened =>
    intro other otherContent isOther
    dsimp only [addEntry] at isOther ⊢
    rcases eq_some_of_update isOther with ⟨rfl, _⟩ | ⟨_, wasOther⟩
    · exact kept.opened other content isOpen
    · exact kept.opened other otherContent wasOther
  case resolvedIds =>
    intro pair isPair
    rcases mem_cons.mp isPair with rfl | isOld
    · exact Nat.le_refl _
    · refine Nat.le_trans (kept.resolvedIds pair isOld) ?_
      dsimp only [addEntry]
      rw [isNext]
      exact Nat.le_succ _
  case resolves =>
    have fresh : ∀ pair ∈ world.resolved, pair.2 ≠ world.socketNextId := by
      intro pair isOld same
      have atMost := kept.resolvedIds pair isOld
      rw [same, isNext] at atMost
      exact absurd atMost (Nat.not_succ_le_self _)
    intro first firstIn second secondIn sameId
    rcases mem_cons.mp firstIn with rfl | firstOld
    · rcases mem_cons.mp secondIn with rfl | secondOld
      · rfl
      · exact absurd sameId.symm (fresh second secondOld)
    · rcases mem_cons.mp secondIn with rfl | secondOld
      · exact absurd sameId (fresh first firstOld)
      · exact kept.resolves first firstOld second secondOld sameId

/-- A close of a socket without a name leaves the table. -/
theorem closes
    (step : world.run (.close socket) = some next) :
    NamesKept next := by
  obtain ⟨content, isOpen, closed⟩ := sockClose_cases step
  have inside := kept.opened socket content isOpen
  rcases closed with ⟨noName, rfl⟩ | ⟨id, released, isName, release, rfl⟩
  · have holds : world.hold socket = none := by
      rw [hold, isOpen]
      exact noName
    exact {
      numbered := kept.numbered
      distinct := kept.distinct
      counted := by
        intro entry inTable
        rw [kept.counted entry inTable]
        have count := holderCount_setSocket none inside entry.id
        rw [holds, if_neg (by simp)] at count
        simpa using count.symm
      single := kept.single
      held := fun other otherContent id isOther =>
        kept.held other otherContent id (eq_some_of_update_none isOther)
      unbound := fun other otherContent isOther =>
        kept.unbound other otherContent (eq_some_of_update_none isOther)
      opened := fun other otherContent isOther =>
        kept.opened other otherContent (eq_some_of_update_none isOther)
      resolvedIds := kept.resolvedIds
      resolves := kept.resolves }
  · obtain ⟨entry, inTable, rfl, isBound⟩ :=
      kept.held socket content id isOpen isName
    cases (abstractRelease_single inTable kept.distinct
      (kept.single entry inTable)).symm.trans release
    have holds : world.hold socket = some entry.id := by
      rw [hold, isOpen]
      exact isName
    have count := holderCount_setSocket none inside
    -- nobody else held the entry
    have nobody :
        ∀ other, (world.setSocket socket none).hold other ≠ some entry.id := by
      have isZero := count entry.id
      rw [holds, if_pos rfl, ← kept.counted entry inTable,
        kept.single entry inTable] at isZero
      have isNone : (world.setSocket socket none).holderCount entry.id = 0 := by
        simpa using isZero
      intro other isOther
      obtain ⟨otherContent, isContent, _⟩ :=
        bind_eq_some_iff.mp isOther
      exact holders_eq_zero_iff.mp isNone other
        (Finset.mem_range.mpr (kept.opened other otherContent
          (eq_some_of_update_none isContent))) isOther
    have kepts : ∀ other ∈ world.table.filter fun other =>
        other.id ≠ entry.id, other ∈ world.table ∧ other.id ≠ entry.id := by
      intro other inFilter
      simpa using mem_filter.mp inFilter
    exact {
      numbered := fun other inFilter =>
        kept.numbered other (kepts other inFilter).1
      distinct := fun first firstIn second secondIn =>
        kept.distinct first (kepts first firstIn).1 second
          (kepts second secondIn).1
      counted := by
        intro other inFilter
        obtain ⟨otherIn, differs⟩ := kepts other inFilter
        rw [kept.counted other otherIn]
        have same := count other.id
        rw [holds, if_neg (by simpa using differs.symm)] at same
        exact same.symm
      single := fun other inFilter =>
        kept.single other (kepts other inFilter).1
      held := by
        intro other otherContent id isOther isOtherName
        obtain ⟨otherEntry, otherIn, sameId, otherBound⟩ :=
          kept.held other otherContent id (eq_some_of_update_none isOther)
            isOtherName
        refine ⟨otherEntry, mem_filter.mpr ⟨otherIn, ?_⟩, sameId,
          otherBound⟩
        rw [decide_eq_true_iff, sameId]
        rintro rfl
        refine nobody other (bind_eq_some_iff.mpr
          ⟨otherContent, isOther, isOtherName⟩)
      unbound := fun other otherContent isOther =>
        kept.unbound other otherContent (eq_some_of_update_none isOther)
      opened := fun other otherContent isOther =>
        kept.opened other otherContent (eq_some_of_update_none isOther)
      resolvedIds := kept.resolvedIds
      resolves := kept.resolves }

end

end NamesKept

namespace AbstractWorld

variable {world next : AbstractWorld}

variable {bound : Option SockName}

/-- A socket that gets a second entry leaves the first one to nobody. -/
theorem not_lawful_of_second
    {socket id : Nat}
    {content : NamedSocket}
    {name : SockName}
    (kept : NamesKept world)
    (isOpen : world.sockets socket = some content)
    (holds : world.hold socket = some id) :
    ¬LawfulNames (world.addEntry socket name bound) := by
  intro lawful
  obtain ⟨other, isOther, isName⟩ := bind_eq_some_iff.mp holds
  obtain ⟨entry, inTable, rfl, _⟩ := kept.held socket other id isOther isName
  have notNext : world.nextEntry ≠ entry.id := fun same =>
    absurd (kept.numbered entry inTable) (same ▸ Nat.lt_irrefl _)
  have count := kept.holderCount_addEntry isOpen name bound entry.id
  rw [holds, if_pos rfl, if_neg (by simpa using notNext),
    ← kept.counted entry inTable, kept.single entry inTable] at count
  have counted := lawful.counted entry (mem_cons_of_mem _ inTable)
  rw [kept.single entry inTable] at counted
  omega

/-- A socket whose bind fails keeps a pointer to an entry that was freed. -/
theorem not_lawful_of_failed
    {socket : Nat}
    {name : SockName}
    (release :
      (world.addEntry socket name bound).abstractRelease world.nextEntry =
        some next) :
    ¬LawfulNames next := by
  intro lawful
  have found :
      (world.addEntry socket name bound).table.find?
          (·.id == world.nextEntry) = some (world.newEntry name) :=
    List.find?_cons_of_pos (beq_self_eq_true world.nextEntry)
  have last : decremented (world.newEntry name).refcount = 0 :=
    decremented_incremented (by decide)
  simp only [abstractRelease, found, last, if_true] at release
  cases release
  have holds :
      hold
        { world.addEntry socket name bound with
          table := (world.addEntry socket name bound).table.filter
            fun other => other.id ≠ world.nextEntry }
        socket = some world.nextEntry := by
    simp only [hold, addEntry, update_self, bind_some]
  obtain ⟨entry, inTable, isNext⟩ := lawful.live socket world.nextEntry holds
  have notNext := (mem_filter.mp inTable).2
  rw [decide_eq_true_iff] at notNext
  exact notNext isNext

/-- A socket whose entry a failing bind released keeps its pointer to it. -/
theorem not_lawful_of_released
    {socket id : Nat}
    (kept : NamesKept world)
    (holds : world.hold socket = some id)
    (release : world.abstractRelease id = some next) :
    ¬LawfulNames next := by
  intro lawful
  obtain ⟨content, isOpen, isName⟩ := bind_eq_some_iff.mp holds
  obtain ⟨entry, inTable, rfl, _⟩ := kept.held socket content id isOpen isName
  cases (abstractRelease_single inTable kept.distinct
    (kept.single entry inTable)).symm.trans release
  obtain ⟨other, otherIn, sameId⟩ := lawful.live socket entry.id holds
  have differs := (mem_filter.mp otherIn).2
  rw [decide_eq_true_iff] at differs
  exact differs sameId

/-- A lookup that finds an entry takes a reference that no socket holds. -/
theorem not_lawful_of_lookup
    {entry : UnixAbstract}
    {resolved : List (SockName × Nat)}
    (kept : NamesKept world)
    (inTable : entry ∈ world.table) :
    ¬LawfulNames
      { world.setEntry
          { entry with refcount := incremented entry.refcount } with
        resolved := resolved } := by
  intro lawful
  have isTwo : incremented entry.refcount = 2 := by
    rw [kept.single entry inTable]
    exact incremented_of_small (by decide)
  have changed :
      { entry with refcount := incremented entry.refcount } ∈
        (world.setEntry
          { entry with refcount := incremented entry.refcount }).table :=
    List.mem_map.mpr ⟨entry, inTable, if_pos rfl⟩
  have counted :
      incremented entry.refcount = world.holderCount entry.id :=
    lawful.counted _ changed
  rw [isTwo, ← kept.counted entry inTable, kept.single entry inTable]
    at counted
  exact absurd counted (by decide)

theorem lookup_iff
    (kept : NamesKept world)
    (name : SockName) :
    LawfulNames (world.abstractGet name).2 ↔ world.find name = none := by
  rcases world.abstractGet_cases name with
    ⟨isNone, same⟩ | ⟨entry, found, inTable, same⟩
  · rw [same]
    exact iff_of_true kept.lawful isNone
  · rw [same]
    refine iff_of_false (not_lawful_of_lookup kept inTable) ?_
    rw [found]
    exact some_ne_none entry

/-- A call keeps the laws exactly if it is as they need. -/
theorem lawful_iff
    {action : NameStep}
    (kept : NamesKept world)
    (noWrap : NoIdWrap world)
    (step : world.run action = some next) :
    LawfulNames next ↔ KeepsNames world action := by
  cases action with
  | «open» => exact iff_of_true (kept.opens step).lawful trivial
  | bind socket name hostBind =>
    obtain ⟨content, isOpen, outcome⟩ := sysBind_cases step
    rcases outcome with ⟨⟨entry, found⟩, rfl⟩ | ⟨notFound, outcome⟩
    · refine iff_of_true kept.lawful fun isNone => ?_
      rw [found] at isNone
      cases isNone
    rcases outcome with ⟨rfl, rfl⟩ | ⟨⟨code, rfl⟩, release⟩
    · cases holds : world.hold socket with
      | none =>
        exact iff_of_true (kept.binds noWrap isOpen holds).lawful
          fun _ => ⟨holds, rfl⟩
      | some id =>
        refine iff_of_false (not_lawful_of_second kept isOpen holds)
          fun keeps => ?_
        rw [(keeps notFound).1] at holds
        cases holds
    · refine iff_of_false (not_lawful_of_failed release) fun keeps => ?_
      cases (keeps notFound).2
  | bindOther socket isPath hostBind =>
    have passed := kept.withPathId noWrap isPath
    rcases sysBindOther_cases step with
      ⟨keeps, rfl⟩ | ⟨id, holds, failed, release⟩
    · exact iff_of_true passed.lawful keeps
    · refine iff_of_false (not_lawful_of_released passed holds release) ?_
      rintro (noName | bound)
      · cases noName.symm.trans holds
      · exact failed bound
  | connect socket name | sendto socket name =>
    obtain ⟨content, _, rfl⟩ := map_eq_some_iff.mp step
    exact lookup_iff kept name
  | close socket => exact iff_of_true (kept.closes step).lawful trivial
  | pathId =>
    cases step
    exact iff_of_true (kept.withPathId noWrap true).lawful trivial

/-- Such a call keeps what the laws rest on. -/
theorem namesKept_step
    {action : NameStep}
    (kept : NamesKept world)
    (noWrap : NoIdWrap world)
    (keeps : KeepsNames world action)
    (step : world.run action = some next) :
    NamesKept next := by
  have lookup : ∀ name, world.find name = none →
      (world.abstractGet name).2 = world := by
    intro name isNone
    rcases world.abstractGet_cases name with ⟨_, same⟩ | ⟨entry, found, _⟩
    · exact same
    · rw [isNone] at found
      cases found
  cases action with
  | «open» => exact kept.opens step
  | bind socket name hostBind =>
    obtain ⟨content, isOpen, outcome⟩ := sysBind_cases step
    rcases outcome with ⟨_, rfl⟩ | ⟨notFound, outcome⟩
    · exact kept
    rcases outcome with ⟨_, rfl⟩ | ⟨⟨code, rfl⟩, _⟩
    · exact kept.binds noWrap isOpen (keeps notFound).1
    · cases (keeps notFound).2
  | connect socket name | sendto socket name =>
    obtain ⟨content, _, rfl⟩ := map_eq_some_iff.mp step
    exact (lookup name keeps).symm ▸ kept
  | bindOther socket isPath hostBind =>
    rcases sysBindOther_cases step with ⟨_, rfl⟩ | ⟨id, holds, failed, _⟩
    · exact kept.withPathId noWrap isPath
    · rcases keeps with noName | bound
      · cases noName.symm.trans holds
      · exact (failed bound).elim
  | close socket => exact kept.closes step
  | pathId =>
    cases step
    exact kept.withPathId noWrap true

theorem namesKept_of_reachable
    (reachable : lawfulMachine.Reachable world) :
    NamesKept world := by
  refine reachable.invariant ?_ ?_
  · rintro world rfl
    exact .empty
  · rintro world action next kept ⟨⟨keeps, noWrap⟩, step⟩
    exact namesKept_step kept noWrap keeps step

/--
The laws hold in every run in which a bind that gets a new entry is made by a
socket without one and succeeds at the host, no other bind of a socket with an
entry fails there, and no other call looks up a name that is in the table.  A
call after such a run keeps the laws exactly if it is one of these.
-/
theorem names_follow_sockets
    (reachable : lawfulMachine.Reachable world) :
    LawfulNames world ∧
      ∀ action next,
        NoIdWrap world →
        nameMachine.step world action next →
        (LawfulNames next ↔ KeepsNames world action) :=
  ⟨(namesKept_of_reachable reachable).lawful, fun _ _ noWrap step =>
    lawful_iff (namesKept_of_reachable reachable) noWrap step⟩

/-- The ids of the table were given to its names. -/
structure NamesApart (world : AbstractWorld) : Prop where
  known : ∀ entry ∈ world.table, (entry.name, entry.socketId) ∈ world.resolved
  resolvedIds : ∀ pair ∈ world.resolved, pair.2 ≤ world.nextId
  resolves :
    ∀ first ∈ world.resolved, ∀ second ∈ world.resolved,
      first.2 = second.2 → first.1 = second.1

namespace NamesApart

theorem setEntry
    (apart : NamesApart world)
    {entry : UnixAbstract}
    (refcount : Nat)
    (inTable : entry ∈ world.table) :
    NamesApart (world.setEntry { entry with refcount := refcount }) where
  known := by
    intro other isOther
    obtain ⟨before, isBefore, rfl⟩ := List.mem_map.mp isOther
    split
    · exact apart.known entry inTable
    · exact apart.known before isBefore
  resolvedIds := apart.resolvedIds
  resolves := apart.resolves

theorem release
    (apart : NamesApart world)
    {id : Nat}
    (released : world.abstractRelease id = some next) :
    NamesApart next := by
  unfold abstractRelease at released
  split at released
  · cases released
  case h_2 entry found =>
    split at released
    · cases released
      exact { apart with
        known := fun other isOther =>
          apart.known other (mem_filter.mp isOther).1 }
    · cases released
      exact apart.setEntry _ (List.mem_of_find?_eq_some found)

/-- A new entry has an id of its own. -/
theorem addEntry
    (apart : NamesApart world)
    (noWrap : NoIdWrap world)
    (socket : Nat)
    (name : SockName)
    (bound : Option SockName) :
    NamesApart (world.addEntry socket name bound) := by
  have isNext : world.socketNextId = world.nextId + 1 :=
    incremented_of_small noWrap
  have fresh : ∀ pair ∈ world.resolved, pair.2 ≠ world.socketNextId := by
    intro pair isOld same
    have atMost := apart.resolvedIds pair isOld
    rw [same, isNext] at atMost
    exact absurd atMost (Nat.not_succ_le_self _)
  constructor
  case known =>
    intro entry inTable
    rcases mem_cons.mp inTable with rfl | isOld
    · exact mem_cons_self
    · exact mem_cons_of_mem _ (apart.known entry isOld)
  case resolvedIds =>
    intro pair isPair
    rcases mem_cons.mp isPair with rfl | isOld
    · exact Nat.le_refl _
    · refine Nat.le_trans (apart.resolvedIds pair isOld) ?_
      dsimp only [AbstractWorld.addEntry]
      rw [isNext]
      exact Nat.le_succ _
  case resolves =>
    intro first firstIn second secondIn sameId
    rcases mem_cons.mp firstIn with rfl | firstOld
    · rcases mem_cons.mp secondIn with rfl | secondOld
      · rfl
      · exact absurd sameId.symm (fresh second secondOld)
    · rcases mem_cons.mp secondIn with rfl | secondOld
      · exact absurd sameId (fresh first firstOld)
      · exact apart.resolves first firstOld second secondOld sameId

theorem withPathId
    (apart : NamesApart world)
    (noWrap : NoIdWrap world)
    (isPath : Bool) :
    NamesApart (world.withPathId isPath) :=
  { apart with
    resolvedIds := fun pair isPair =>
      Nat.le_trans (apart.resolvedIds pair isPair)
        (world.le_withPathId noWrap isPath) }

/-- A lookup of the name of an entry resolves it again. -/
theorem lookup
    (apart : NamesApart world)
    {name : SockName}
    (own : ∀ entry, world.find name = some entry → entry.name = name) :
    NamesApart (world.abstractGet name).2 := by
  rcases world.abstractGet_cases name with
    ⟨_, same⟩ | ⟨entry, found, inTable, same⟩
  · exact same.symm ▸ apart
  · rw [same]
    have known := apart.known entry inTable
    rw [own entry found] at known
    have changed := apart.setEntry (incremented entry.refcount) inTable
    have isOld : ∀ pair ∈ (name, entry.socketId) :: world.resolved,
        pair ∈ world.resolved := by
      intro pair isPair
      rcases mem_cons.mp isPair with rfl | isOld
      · exact known
      · exact isOld
    exact {
      known := fun other isOther =>
        mem_cons_of_mem _ (changed.known other isOther)
      resolvedIds := fun pair isPair =>
        apart.resolvedIds pair (isOld pair isPair)
      resolves := fun first firstIn second secondIn =>
        apart.resolves first (isOld first firstIn) second
          (isOld second secondIn) }

end NamesApart

/-- A name is released with the socket that bound it, and can be bound again. -/
theorem name_can_be_bound_again :
    ∃ world,
      lawfulMachine.Reachable world ∧
        world.resolved = [([120], 2), ([120], 1)] ∧ LawfulNames world := by
  have small : ∀ id, id ≤ 2 → id + 1 < dwordRange := by
    intro id atMost
    exact Nat.lt_of_le_of_lt (Nat.succ_le_succ atMost) (by decide)
  have start : lawfulMachine.Reachable empty := .initial rfl
  have opened :=
    start.step (a := NameStep.open) ⟨⟨trivial, small 0 (by decide)⟩, rfl⟩
  have bound :=
    opened.step (a := NameStep.bind 0 [120] (.ok ()))
      ⟨⟨fun _ => ⟨rfl, rfl⟩, small 0 (by decide)⟩, rfl⟩
  have closed :=
    bound.step (a := NameStep.close 0)
      ⟨⟨trivial, small 1 (by decide)⟩, rfl⟩
  have again :=
    closed.step (a := NameStep.open) ⟨⟨trivial, small 1 (by decide)⟩, rfl⟩
  have rebound :=
    again.step (a := NameStep.bind 1 [120] (.ok ()))
      ⟨⟨fun _ => ⟨rfl, rfl⟩, small 1 (by decide)⟩, rfl⟩
  exact ⟨_, rebound, rfl, (names_follow_sockets rebound).1⟩

/--
The names `bC` and `cb` have one hash: a connect to the second finds the socket
that bound the first, and after that socket is closed the first name is still
taken.
-/
theorem other_name_resolves_and_stays :
    ∃ world,
      nameMachine.Reachable world ∧
        world.resolved = [([99, 98], 1), ([98, 67], 1)] ∧
        (∃ entry ∈ world.table, entry.name = [98, 67]) ∧
        (∀ socket content,
          world.sockets socket = some content → content.bound = none) ∧
          world.run (.bind 1 [98, 67] (.ok ())) = some world ∧
          ¬LawfulNames world := by
  have start : nameMachine.Reachable empty := .initial rfl
  have first := start.step (a := NameStep.open) rfl
  have second := first.step (a := NameStep.open) rfl
  have bound := second.step (a := NameStep.bind 0 [98, 67] (.ok ())) rfl
  have connected := bound.step (a := NameStep.connect 1 [99, 98]) rfl
  have closed := connected.step (a := NameStep.close 0) rfl
  obtain ⟨world, isWorld, reachable⟩ :
      ∃ world, world = _ ∧ nameMachine.Reachable world := ⟨_, rfl, closed⟩
  have isTable :
      world.table = [⟨0, [98, 67], 1, strHash [98, 67], 1⟩] := by
    rw [isWorld]
    rfl
  have isResolved :
      world.resolved = [([99, 98], 1), ([98, 67], 1)] := by
    rw [isWorld]
    rfl
  refine ⟨world, reachable, isResolved, ?_, ?_, ?_, ?_⟩
  · exact ⟨_, isTable ▸ mem_singleton_self _, rfl⟩
  · intro socket content isOpen
    rw [isWorld] at isOpen
    rcases socket with _ | _ | socket
    · cases isOpen
    · cases isOpen
      rfl
    · cases isOpen
  · rw [isWorld]
    rfl
  · intro lawful
    have same :=
      lawful.resolves ([99, 98], 1) (isResolved ▸ by decide) ([98, 67], 1)
        (isResolved ▸ by decide) rfl
    exact absurd same (by decide)

end AbstractWorld

end GuestKernel
