import GuestKernel.FakeFs

namespace GuestKernel
open List Option
open Rows FakeDb HostTree

/-!
# The store describes the host tree

The paths of the store are the places of the tree, and two of them share an
inode when they are links to one file.  A call that adds a place, takes one
away or renames it keeps this; it changes nothing when it fails.
-/

theorem renderPath_injective
    {first second : List PathString}
    (firstProper : ∀ name ∈ first, ProperName name)
    (secondProper : ∀ name ∈ second, ProperName name)
    (same : renderPath first = renderPath second) :
    first = second := by
  rw [← pathNames_renderPath firstProper, same,
    pathNames_renderPath secondProper]

theorem renderPath_append
    (place rest : List PathString) :
    renderPath (place ++ rest) = renderPath place ++ renderPath rest :=
  flatMap_append ..

theorem renderPath_head
    (place : List PathString) :
    renderPath place = [] ∨ (renderPath place).head? = some slash := by
  cases place with
  | nil => exact .inl rfl
  | cons name rest => exact .inr rfl

variable {place : List PathString}

/-- A path that starts with the path of a place is the path of one below. -/
theorem prefix_of_renderPath
    {above : List PathString}
    {rest : PathString}
    (placeProper : ∀ name ∈ place, ProperName name)
    (aboveProper : ∀ name ∈ above, ProperName name)
    (isNext : rest = [] ∨ rest.head? = some slash)
    (same : renderPath place = renderPath above ++ rest) :
    above <+: place := by
  have names := pathNames_renderPath placeProper
  rw [same] at names
  rcases isNext with rfl | isSlash
  · rw [append_nil, pathNames_renderPath aboveProper] at names
    rw [names]
  · obtain ⟨later, rfl⟩ : ∃ later, rest = slash :: later := by
      cases rest with
      | nil => cases isSlash
      | cons byte later =>
        rw [List.head?_cons, some.injEq] at isSlash
        exact ⟨later, by rw [isSlash]⟩
    rw [pathNames_renderPath_append aboveProper] at names
    exact ⟨_, names⟩

theorem renamedPath_renderPath
    (src dst rest : List PathString) :
    renamedPath (renderPath src) (renderPath dst) (renderPath (src ++ rest)) =
      some (renderPath (dst ++ rest)) :=
  renamedPath_eq_some_iff.mpr
    ⟨renderPath rest, renderPath_append .., renderPath_append ..,
      renderPath_head rest⟩

theorem renamedPath_renderPath_eq_none
    {src : List PathString}
    {dst : PathString}
    (srcProper : ∀ name ∈ src, ProperName name)
    (placeProper : ∀ name ∈ place, ProperName name)
    (notBelow : ¬src <+: place) :
    renamedPath (renderPath src) dst (renderPath place) = none := by
  rw [eq_none_iff_forall_ne_some]
  intro target moves
  obtain ⟨rest, same, _, isNext⟩ := renamedPath_eq_some_iff.mp moves
  exact notBelow (prefix_of_renderPath placeProper srcProper isNext same)

theorem prefix_of_renamedPath
    {dst : List PathString}
    {src old : PathString}
    (dstProper : ∀ name ∈ dst, ProperName name)
    (placeProper : ∀ name ∈ place, ProperName name)
    (moves : renamedPath src (renderPath dst) old = some (renderPath place)) :
    dst <+: place := by
  obtain ⟨rest, _, same, isNext⟩ := renamedPath_eq_some_iff.mp moves
  exact prefix_of_renderPath placeProper dstProper isNext same

namespace FakeFs

/-- The inode in the store of a place. -/
def rowAt (fs : FakeFs) (place : List PathString) : Option Nat :=
  fs.db.paths.lookup (renderPath place)

/-- The store describes the tree. -/
structure Synced (fs : FakeFs) : Prop where
  tree : fs.tree.Sound
  paths :
    ∀ path, (fs.db.paths.lookup path).isSome ↔
      ∃ place, path = renderPath place ∧ (fs.tree.nodeAt place).isSome
  rows :
    ∀ path ino, fs.db.paths.lookup path = some ino →
      ino ≠ 0 ∧ (fs.db.stats.lookup ino).isSome
  links :
    ∀ first second node other,
      fs.tree.nodeAt first = some node → fs.tree.nodeAt second = some other →
      (fs.rowAt first = fs.rowAt second ↔ node.ino = other.ino)

variable {fs next : FakeFs} {env : FakeEnv}

variable {place src dst : List PathString}

section

variable (synced : fs.Synced)
include synced

theorem Synced.isSome_iff
    (proper : ∀ name ∈ place, ProperName name) :
    (fs.rowAt place).isSome ↔ (fs.tree.nodeAt place).isSome := by
  constructor
  · intro isRow
    obtain ⟨other, same, isNode⟩ := (synced.paths _).mp isRow
    obtain ⟨node, isNode'⟩ := isSome_iff_exists.mp isNode
    rw [renderPath_injective proper (synced.tree.proper other node isNode')
      same]
    exact isNode
  · exact fun isNode => (synced.paths _).mpr ⟨place, rfl, isNode⟩

theorem Synced.rowAt_eq_none
    (proper : ∀ name ∈ place, ProperName name)
    (isFree : fs.tree.nodeAt place = none) :
    fs.rowAt place = none := by
  rw [← not_isSome_iff_eq_none, synced.isSome_iff proper, isFree]
  exact Bool.false_ne_true

theorem Synced.rowAt_eq_some
    (isThere : (fs.tree.nodeAt place).isSome) :
    ∃ ino, fs.rowAt place = some ino ∧ ino ≠ 0 ∧
      (fs.db.stats.lookup ino).isSome := by
  obtain ⟨node, isNode⟩ := isSome_iff_exists.mp isThere
  have isRow :=
    (synced.isSome_iff (synced.tree.proper place node isNode)).mpr isThere
  obtain ⟨ino, isRow⟩ := isSome_iff_exists.mp isRow
  exact ⟨ino, isRow, synced.rows _ ino isRow⟩

/--
After a call, every place has the node and the row of an origin, if it has one:
the store still describes the tree.
-/
theorem Synced.of_origin
    (sound : next.tree.Sound)
    (source : List PathString → Option (List PathString))
    (properSource :
      ∀ place old, (∀ name ∈ place, ProperName name) →
        source place = some old → ∀ name ∈ old, ProperName name)
    (nodes :
      ∀ place, next.tree.nodeAt place = (source place).bind fs.tree.nodeAt)
    (isPlace :
      ∀ path, (next.db.paths.lookup path).isSome → IsNormalized path)
    (sameRows :
      ∀ place, (∀ name ∈ place, ProperName name) →
        next.rowAt place = (source place).bind fs.rowAt)
    (stats :
      ∀ path ino, next.db.paths.lookup path = some ino →
        (fs.db.stats.lookup ino).isSome → (next.db.stats.lookup ino).isSome) :
    next.Synced := by
  have isSome_iff :
      ∀ place, (∀ name ∈ place, ProperName name) →
        ((next.rowAt place).isSome ↔ (next.tree.nodeAt place).isSome) := by
    intro place proper
    rw [nodes place, sameRows place proper]
    cases isSource : source place with
    | none => exact Iff.rfl
    | some old => exact synced.isSome_iff (properSource place old proper isSource)
  constructor
  case tree => exact sound
  case paths =>
    intro path
    constructor
    · intro isRow
      obtain ⟨place, proper, rfl⟩ := isPlace path isRow
      exact ⟨place, rfl, (isSome_iff place proper).mp isRow⟩
    · rintro ⟨place, rfl, isNode⟩
      obtain ⟨node, isNode'⟩ := isSome_iff_exists.mp isNode
      exact (isSome_iff place (sound.proper place node isNode')).mpr isNode
  case rows =>
    intro path ino isRow
    obtain ⟨place, proper, rfl⟩ :=
      isPlace path (isSome_iff_exists.mpr ⟨ino, isRow⟩)
    have wasRow := sameRows place proper
    rw [rowAt, isRow] at wasRow
    obtain ⟨old, _, wasRow⟩ := bind_eq_some_iff.mp wasRow.symm
    obtain ⟨notZero, isStat⟩ := synced.rows _ ino wasRow
    exact ⟨notZero, stats _ ino isRow isStat⟩
  case links =>
    intro first second node other isFirst isSecond
    rw [sameRows first (sound.proper first node isFirst),
      sameRows second (sound.proper second other isSecond)]
    rw [nodes] at isFirst isSecond
    obtain ⟨firstOld, fromFirst, wasFirst⟩ := bind_eq_some_iff.mp isFirst
    obtain ⟨secondOld, fromSecond, wasSecond⟩ :=
      bind_eq_some_iff.mp isSecond
    rw [fromFirst, fromSecond]
    exact synced.links firstOld secondOld node other wasFirst wasSecond

/-- A new file has a new row. -/
theorem Synced.created
    (fresh : env.Fresh fs)
    (proper : ∀ name ∈ place, ProperName name)
    (isFree : fs.tree.nodeAt place = none)
    (hasParent : fs.tree.parentIsDir place = true)
    (isDir : Bool)
    (stat : IshStat) :
    Synced
      ⟨fs.tree.added place ⟨isDir, env.ino⟩,
        fs.db.pathCreate (renderPath place) stat env.rowid⟩ := by
  have otherIno :
      ∀ {other node}, fs.tree.nodeAt other = some node →
        node.ino ≠ env.ino :=
    fun isNode => fresh.ino _ _ isNode
  have otherRow :
      ∀ {path ino}, fs.db.paths.lookup path = some ino → ino ≠ env.rowid := by
    rintro path ino isRow rfl
    have isStat := (synced.rows path _ isRow).2
    rw [fresh.row] at isStat
    cases isStat
  have sound : (fs.tree.added place ⟨isDir, env.ino⟩).Sound :=
    synced.tree.added isFree hasParent proper
      fun other node isNode same => (otherIno isNode same).elim
  have newNode :
      (fs.tree.added place ⟨isDir, env.ino⟩).nodeAt place =
        some ⟨isDir, env.ino⟩ :=
    lookup_put_self ..
  have oldNode :
      ∀ other, other ≠ place →
        (fs.tree.added place ⟨isDir, env.ino⟩).nodeAt other =
          fs.tree.nodeAt other :=
    fun other differs => lookup_put_of_ne differs ..
  have newRow :
      (put (renderPath place) env.rowid fs.db.paths).lookup
        (renderPath place) = some env.rowid :=
    lookup_put_self ..
  have oldRow :
      ∀ path, path ≠ renderPath place →
        (put (renderPath place) env.rowid fs.db.paths).lookup path =
          fs.db.paths.lookup path :=
    fun path differs => lookup_put_of_ne differs ..
  have otherPath :
      ∀ other node, fs.tree.nodeAt other = some node → other ≠ place →
        renderPath other ≠ renderPath place :=
    fun other node isNode differs same =>
      differs (renderPath_injective (synced.tree.proper other node isNode)
        proper same)
  constructor
  case tree => exact sound
  case paths =>
    intro path
    dsimp only [pathCreate]
    by_cases isNew : path = renderPath place
    · subst isNew
      refine iff_of_true ?_ ⟨place, rfl, ?_⟩
      · rw [newRow]
        rfl
      · rw [newNode]
        rfl
    · rw [oldRow path isNew, synced.paths]
      constructor
      · rintro ⟨other, rfl, isNode⟩
        refine ⟨other, rfl, ?_⟩
        rw [oldNode other fun same => isNew (by rw [same])]
        exact isNode
      · rintro ⟨other, rfl, isNode⟩
        refine ⟨other, rfl, ?_⟩
        rw [oldNode other fun same => isNew (by rw [same])] at isNode
        exact isNode
  case rows =>
    intro path ino isRow
    dsimp only [pathCreate] at isRow ⊢
    by_cases isNew : path = renderPath place
    · rw [isNew, newRow] at isRow
      cases isRow
      refine ⟨fresh.rowid, ?_⟩
      rw [lookup_put_self]
      rfl
    · rw [oldRow path isNew] at isRow
      rw [lookup_put_of_ne (otherRow isRow)]
      exact synced.rows path ino isRow
  case links =>
    intro first second node other isFirst isSecond
    dsimp only [rowAt, pathCreate] at isFirst isSecond ⊢
    by_cases firstNew : first = place
    · by_cases secondNew : second = place
      · rw [firstNew, newNode] at isFirst
        rw [secondNew, newNode] at isSecond
        cases isFirst
        cases isSecond
        rw [firstNew, secondNew]
        exact iff_of_true rfl rfl
      · rw [firstNew, newNode] at isFirst
        rw [oldNode second secondNew] at isSecond
        cases isFirst
        refine iff_of_false ?_ (otherIno isSecond).symm
        rw [firstNew, newRow, oldRow _ (otherPath _ _ isSecond secondNew)]
        exact fun same => otherRow same.symm rfl
    · rw [oldNode first firstNew] at isFirst
      rw [oldRow _ (otherPath _ _ isFirst firstNew)]
      by_cases secondNew : second = place
      · rw [secondNew, newNode] at isSecond
        cases isSecond
        refine iff_of_false ?_ (otherIno isFirst)
        rw [secondNew, newRow]
        exact fun same => otherRow same rfl
      · rw [oldNode second secondNew] at isSecond
        rw [oldRow _ (otherPath _ _ isSecond secondNew)]
        exact synced.links first second node other isFirst isSecond

/-- A new link has the row of its file. -/
theorem Synced.linked
    {node : HostNode}
    {db : FakeDb}
    (proper : ∀ name ∈ dst, ProperName name)
    (isSource : fs.tree.nodeAt src = some node)
    (isFile : node.isDir = false)
    (isFree : fs.tree.nodeAt dst = none)
    (hasParent : fs.tree.parentIsDir dst = true)
    (links :
      fs.db.pathLink (renderPath src) (renderPath dst) = some db) :
    Synced ⟨fs.tree.added dst node, db⟩ := by
  have isThere : (fs.tree.nodeAt src).isSome := by
    rw [isSource]
    rfl
  obtain ⟨ino, isRow, _⟩ := synced.rowAt_eq_some isThere
  have isPath : fs.db.pathGetInode (renderPath src) = ino := by
    rw [pathGetInode]
    rw [rowAt] at isRow
    rw [isRow]
    rfl
  unfold pathLink at links
  split at links
  · cases links
  rw [isPath] at links
  cases links
  have onlyFiles :
      ∀ other otherNode, fs.tree.nodeAt other = some otherNode →
        otherNode.ino = node.ino →
        otherNode.isDir = false ∧ node.isDir = false := by
    intro other otherNode isNode sameIno
    refine ⟨?_, isFile⟩
    by_contra isDir
    have same := synced.tree.dirs other src otherNode node isNode isSource
      sameIno (Bool.of_not_eq_false isDir)
    rw [same, isSource] at isNode
    cases isNode
    exact isDir isFile
  have sound := synced.tree.added isFree hasParent proper onlyFiles
  refine synced.of_origin sound
    (fun place => if place = dst then some src else some place) ?_ ?_ ?_ ?_ ?_
  · intro place old placeProper isOld
    split at isOld
    · cases isOld
      exact synced.tree.proper src node isSource
    · cases isOld
      exact placeProper
  · intro place
    by_cases isNew : place = dst
    · rw [if_pos isNew, isNew, bind_some, isSource]
      exact lookup_put_self ..
    · rw [if_neg isNew, bind_some]
      exact lookup_put_of_ne isNew ..
  · intro path isSome
    by_cases isNew : path = renderPath dst
    · exact ⟨dst, proper, isNew⟩
    · dsimp only at isSome
      rw [lookup_put_of_ne isNew, synced.paths] at isSome
      obtain ⟨place, rfl, isNode⟩ := isSome
      obtain ⟨placeNode, isNode⟩ := isSome_iff_exists.mp isNode
      exact ⟨place, synced.tree.proper place placeNode isNode, rfl⟩
  · intro place placeProper
    by_cases isNew : place = dst
    · rw [if_pos isNew, isNew, bind_some, isRow]
      exact lookup_put_self ..
    · rw [if_neg isNew, bind_some]
      exact lookup_put_of_ne
        (fun same => isNew (renderPath_injective placeProper proper same)) ..
  · exact fun _ _ _ isStat => isStat

/-- A place that goes takes its row along. -/
theorem Synced.unlinked
    {db : FakeDb}
    {ino : Nat}
    (proper : ∀ name ∈ place, ProperName name)
    (removable : fs.tree.Removable place)
    (unlinks : fs.db.pathUnlink (renderPath place) = some (ino, db)) :
    Synced ⟨fs.tree.removed place, inodeCheckOrphaned env db ino⟩ := by
  unfold pathUnlink at unlinks
  split at unlinks
  · cases unlinks
  cases unlinks
  have samePaths :
      (inodeCheckOrphaned env
        { fs.db with paths := takeOut (renderPath place) fs.db.paths }
        (fs.db.pathGetInode (renderPath place))).paths =
          takeOut (renderPath place) fs.db.paths := by
    unfold inodeCheckOrphaned
    split
    · rfl
    · exact tryCleanupInode_paths ..
  have wasRow :
      ∀ path ino,
        (takeOut (renderPath place) fs.db.paths).lookup path = some ino →
        path ≠ renderPath place ∧ fs.db.paths.lookup path = some ino := by
    intro path ino isRow
    by_cases isGone : path = renderPath place
    · rw [isGone, lookup_takeOut_self] at isRow
      cases isRow
    · rw [lookup_takeOut_of_ne isGone] at isRow
      exact ⟨isGone, isRow⟩
  have sound := synced.tree.removed removable.notRoot fun name =>
    removable.free [name] (cons_ne_nil _ _)
  refine synced.of_origin sound
    (fun other => if other = place then none else some other) ?_ ?_ ?_ ?_ ?_
  · intro other old otherProper isOld
    split at isOld
    · cases isOld
    · cases isOld
      exact otherProper
  · intro other
    by_cases isGone : other = place
    · rw [if_pos isGone, isGone]
      exact lookup_takeOut_self ..
    · rw [if_neg isGone, bind_some]
      exact lookup_takeOut_of_ne isGone ..
  · intro path isSome
    dsimp only at isSome
    rw [samePaths] at isSome
    obtain ⟨ino, isRow⟩ := isSome_iff_exists.mp isSome
    obtain ⟨other, rfl, isNode⟩ :=
      (synced.paths path).mp
        (isSome_iff_exists.mpr ⟨ino, (wasRow path ino isRow).2⟩)
    obtain ⟨node, isNode⟩ := isSome_iff_exists.mp isNode
    exact ⟨other, synced.tree.proper other node isNode, rfl⟩
  · intro other otherProper
    dsimp only [rowAt]
    rw [samePaths]
    by_cases isGone : other = place
    · rw [if_pos isGone, isGone]
      exact lookup_takeOut_self ..
    · rw [if_neg isGone, bind_some]
      exact lookup_takeOut_of_ne
        (fun same => isGone (renderPath_injective otherProper proper same)) ..
  · intro path ino isRow isStat
    dsimp only at isRow ⊢
    rw [samePaths] at isRow
    unfold inodeCheckOrphaned
    split
    · exact isStat
    · rw [tryCleanupInode_stats]
      · exact isStat
      · rintro rfl
        exact ⟨path, isRow⟩

/-- A path of the store after a rename is the path of a place. -/
private theorem isNormalized_of_pathRename
    {path : PathString}
    (dstProper : ∀ name ∈ dst, ProperName name)
    (srcProper : ∀ name ∈ src, ProperName name)
    (isSome :
      ((fs.db.pathRename (renderPath src) (renderPath dst)).paths.lookup
        path).isSome) :
    IsNormalized path := by
  have wasPlace :
      ∀ old, (fs.db.paths.lookup old).isSome → IsNormalized old := by
    intro old isRow
    obtain ⟨place, rfl, isNode⟩ := (synced.paths old).mp isRow
    obtain ⟨node, isNode⟩ := isSome_iff_exists.mp isNode
    exact ⟨place, synced.tree.proper place node isNode, rfl⟩
  by_cases comes :
      ∃ old, renamedPath (renderPath src) (renderPath dst) old = some path ∧
        (fs.db.paths.lookup old).isSome
  · obtain ⟨old, moves, isRow⟩ := comes
    obtain ⟨place, proper, rfl⟩ := wasPlace old isRow
    by_cases isBelow : src <+: place
    · obtain ⟨rest, rfl⟩ := isBelow
      rw [renamedPath_renderPath, some.injEq] at moves
      refine ⟨dst ++ rest, ?_, moves.symm⟩
      intro name isName
      rcases mem_append.mp isName with isDst | isRest
      · exact dstProper name isDst
      · exact proper name (mem_append_right _ isRest)
    · rw [renamedPath_renderPath_eq_none srcProper proper isBelow] at moves
      cases moves
  · have nobody :
        ∀ old,
          renamedPath (renderPath src) (renderPath dst) old = some path →
          fs.db.paths.lookup old = none := by
      intro old moves
      rw [← not_isSome_iff_eq_none]
      exact fun isRow => comes ⟨old, moves, isRow⟩
    apply wasPlace
    dsimp only [pathRename] at isSome
    cases moves : renamedPath (renderPath src) (renderPath dst) path with
    | some target =>
      rw [lookup_relocate_of_gone moves nobody] at isSome
      cases isSome
    | none =>
      rw [lookup_relocate_of_stays moves nobody] at isSome
      exact isSome

/-- A rename in the store takes rows where the tree takes the places. -/
private theorem rowAt_renamed
    (srcProper : ∀ name ∈ src, ProperName name)
    (dstProper : ∀ name ∈ dst, ProperName name)
    (proper : ∀ name ∈ place, ProperName name)
    (renames : fs.tree.Renames src dst) :
    (fs.db.pathRename (renderPath src) (renderPath dst)).paths.lookup
        (renderPath place) =
      (origin src dst place).bind fs.rowAt := by
  obtain ⟨ino, isSome, _⟩ := synced.rowAt_eq_some renames.isSource
  exact renames.lookup_relocate
    (fun _ _ _ => renamedPath_injective)
    (renamedPath_renderPath src dst)
    (renamedPath_renderPath_eq_none srcProper proper)
    (fun old => prefix_of_renamedPath dstProper proper)
    (ne_none_iff_exists'.mpr ⟨ino, isSome⟩)
    (synced.rowAt_eq_none proper)

/-- A rename takes the rows of the places along. -/
theorem Synced.renamed
    (srcProper : ∀ name ∈ src, ProperName name)
    (dstProper : ∀ name ∈ dst, ProperName name)
    (renames : fs.tree.Renames src dst) :
    Synced
      ⟨fs.tree.renamed src dst,
        fs.db.pathRename (renderPath src) (renderPath dst)⟩ := by
  refine synced.of_origin (synced.tree.renamed renames dstProper)
    (origin src dst) ?_ renames.nodeAt_renamed ?_ ?_ ?_
  · intro place old proper isOrigin name isName
    rcases origin_eq_some_iff.mp isOrigin with
      ⟨rest, rfl, rfl⟩ | ⟨_, _, rfl⟩
    · rcases mem_append.mp isName with isSource | isRest
      · exact srcProper name isSource
      · exact proper name (mem_append_right _ isRest)
    · exact proper name isName
  · exact fun path => isNormalized_of_pathRename synced dstProper srcProper
  · exact fun place proper =>
      rowAt_renamed synced srcProper dstProper proper renames
  · exact fun _ _ _ isStat => isStat

/-- A rename of a place to itself keeps every row. -/
theorem Synced.renamed_self
    (proper : ∀ name ∈ place, ProperName name) :
    Synced
      ⟨fs.tree, fs.db.pathRename (renderPath place) (renderPath place)⟩ := by
  refine synced.of_origin synced.tree some ?_ ?_ ?_ ?_ ?_
  · intro other old otherProper same
    cases same
    exact otherProper
  · exact fun _ => rfl
  · exact fun path => isNormalized_of_pathRename synced proper proper
  · intro other _
    refine lookup_relocate_of_fixed ?_ _ _
    intro old new moves
    obtain ⟨rest, rfl, rfl, _⟩ := renamedPath_eq_some_iff.mp moves
    rfl
  · exact fun _ _ _ isStat => isStat

end

/-- A call does not die, keeps the store in step, and fails without a trace. -/
def Settles {Result : Type}
    (fs : FakeFs)
    (run : Option (Except Errno Result × FakeFs)) : Prop :=
  ∃ result next,
    run = some (result, next) ∧ next.Synced ∧
      ∀ err, result = .error err → next = fs

theorem Synced.settles_error
    {Result : Type}
    (synced : fs.Synced)
    (err : Errno) :
    fs.Settles (some ((.error err : Except Errno Result), fs)) :=
  ⟨_, fs, rfl, synced, fun _ _ => rfl⟩

theorem Synced.settles_ok
    {Result : Type}
    (synced : next.Synced)
    (result : Result) :
    fs.Settles (some ((.ok result : Except Errno Result), next)) :=
  ⟨_, next, rfl, synced, fun _ failed => by cases failed⟩

section

variable {place : List PathString}

theorem Synced.fakefsOpen_settles
    (synced : fs.Synced)
    (fresh : env.Fresh fs)
    (proper : ∀ name ∈ place, ProperName name)
    (creat excl : Bool)
    (mode : BitVec 32) :
    fs.Settles (fs.fakefsOpen env (renderPath place) creat excl mode) := by
  unfold fakefsOpen
  rw [pathNames_renderPath proper]
  cases opened : fs.tree.openAt place creat excl env.ino env.refused with
  | error err => exact synced.settles_error err
  | ok tree =>
    dsimp only
    rcases openAt_ok opened with
      ⟨rfl, _, isThere⟩ | ⟨rfl, rfl, isFree, hasParent⟩
    · obtain ⟨ino, isRow, notZero, _⟩ := synced.rowAt_eq_some isThere
      have isInode : fs.db.pathGetInode (renderPath place) = ino := by
        rw [rowAt] at isRow
        rw [pathGetInode, isRow, getD_some]
      have sameDb : fs.openRow env (renderPath place) creat mode = fs.db := by
        rw [openRow, isInode, decide_eq_false notZero, Bool.and_false,
          if_neg Bool.false_ne_true]
      rw [sameDb, isInode, if_neg notZero]
      exact synced.settles_ok ino
    · have noRow : fs.db.pathGetInode (renderPath place) = 0 := by
        have isNone := synced.rowAt_eq_none proper isFree
        rw [rowAt] at isNone
        rw [pathGetInode, isNone, getD_none]
      unfold openRow
      rw [noRow, decide_eq_true rfl, Bool.true_and, if_pos rfl]
      rw [pathCreate_pathGetInode, if_neg fresh.rowid]
      exact (synced.created fresh proper isFree hasParent ..).settles_ok _

variable {dst : List PathString}

section

variable
  (synced : fs.Synced)
  (proper : ∀ name ∈ place, ProperName name)
include synced proper

theorem Synced.fakefsLink_settles
    (dstProper : ∀ name ∈ dst, ProperName name) :
    fs.Settles (fs.fakefsLink env (renderPath place) (renderPath dst)) := by
  unfold fakefsLink
  rw [pathNames_renderPath proper, pathNames_renderPath dstProper]
  cases linked : fs.tree.link place dst env.refused with
  | error err => exact synced.settles_error err
  | ok tree =>
    obtain ⟨node, rfl, isSource, isFile, isFree, hasParent⟩ :=
      link_ok linked
    have isThere : (fs.tree.nodeAt place).isSome := by
      rw [isSource]
      rfl
    obtain ⟨ino, isRow, notZero, _⟩ := synced.rowAt_eq_some isThere
    cases links : fs.db.pathLink (renderPath place) (renderPath dst) with
    | none =>
      unfold pathLink at links
      rw [rowAt] at isRow
      rw [pathGetInode, isRow, getD_some, if_neg notZero]
        at links
      cases links
    | some db =>
      exact (synced.linked dstProper isSource isFile isFree hasParent
        links).settles_ok ()

/-- `fakefs_unlink` and `fakefs_rmdir` settle. -/
theorem Synced.unlinkRow_settles
    {answer : Except Errno HostTree}
    (removes :
      ∀ tree, answer = .ok tree →
        tree = fs.tree.removed place ∧ fs.tree.Removable place) :
    fs.Settles (fs.unlinkRow env (renderPath place) answer) := by
  unfold unlinkRow
  cases answer with
  | error err => exact synced.settles_error err
  | ok tree =>
    obtain ⟨rfl, removable⟩ := removes tree rfl
    obtain ⟨ino, isRow, notZero, _⟩ :=
      synced.rowAt_eq_some removable.isThere
    cases unlinks : fs.db.pathUnlink (renderPath place) with
    | none =>
      unfold pathUnlink at unlinks
      rw [rowAt] at isRow
      rw [pathGetInode, isRow, getD_some, if_neg notZero]
        at unlinks
      cases unlinks
    | some removed =>
      obtain ⟨inode, db⟩ := removed
      exact (synced.unlinked proper removable unlinks).settles_ok ()

/-- `fakefs_rename` settles unless it renames a link to another of its file. -/
theorem Synced.fakefsRename_settles
    (dstProper : ∀ name ∈ dst, ProperName name)
    (notLinks :
      place = dst ∨ env.refused ≠ none ∨
        ∀ node target,
          fs.tree.nodeAt place = some node → fs.tree.nodeAt dst = some target →
          target.ino ≠ node.ino) :
    fs.Settles (fs.fakefsRename env (renderPath place) (renderPath dst)) := by
  unfold fakefsRename
  rw [pathNames_renderPath proper, pathNames_renderPath dstProper]
  cases renamed : fs.tree.rename place dst env.refused with
  | error err => exact synced.settles_error err
  | ok tree =>
    rcases rename_ok synced.tree renamed with
      ⟨rfl, node, target, isNode, isTarget, sameIno⟩ | ⟨rfl, renames⟩
    · rcases notLinks with rfl | isRefused | apart
      · exact (synced.renamed_self proper).settles_ok ()
      · obtain ⟨err, isErr⟩ := ne_none_iff_exists'.mp isRefused
        rw [isErr] at renamed
        cases renamed
      · exact (apart node target isNode isTarget sameIno).elim
    · exact (synced.renamed proper dstProper renames).settles_ok ()

end

section

variable
  (synced : fs.Synced)
  (fresh : env.Fresh fs)
  (proper : ∀ name ∈ place, ProperName name)
include synced fresh proper

/-- `fakefs_symlink` settles unless the host keeps a file it could not write. -/
theorem Synced.fakefsSymlink_settles
    (cleans :
      ∀ tree, fs.tree.openAt place true true env.ino env.refused = .ok tree →
        env.writeError = none ∨ env.unlinkError = none) :
    fs.Settles (fs.fakefsSymlink env (renderPath place)) := by
  unfold fakefsSymlink
  rw [pathNames_renderPath proper]
  cases opened : fs.tree.openAt place true true env.ino env.refused with
  | error err => exact synced.settles_error err
  | ok tree =>
    rcases openAt_ok opened with
      ⟨_, notExclusive, _⟩ | ⟨rfl, _, isFree, hasParent⟩
    · cases notExclusive
    · dsimp only
      cases wrote : env.writeError with
      | none =>
        exact (synced.created fresh proper isFree hasParent ..).settles_ok _
      | some err =>
        rcases cleans _ opened with isNone | isNone
        · rw [wrote] at isNone
          cases isNone
        · have created :
              (fs.tree.added place ⟨false, env.ino⟩).nodeAt place =
                some ⟨false, env.ino⟩ :=
            lookup_put_self ..
          have cleaned :
              (fs.tree.added place ⟨false, env.ino⟩).unlink place none =
                .ok fs.tree := by
            unfold HostTree.unlink
            rw [created]
            exact congrArg Except.ok (removed_added isFree _)
          rw [isNone, cleaned]
          exact synced.settles_error err

/-- `fakefs_mknod` settles unless the host fails to close the new file. -/
theorem Synced.fakefsMknod_settles
    {mode : BitVec 16}
    (dev : BitVec 32)
    (closes :
      ∀ tree, hasType (realMode mode) sIfreg = true →
        fs.tree.openAt place true true env.ino env.refused = .ok tree →
        env.closeError = none) :
    fs.Settles (fs.fakefsMknod env (renderPath place) mode dev) := by
  unfold fakefsMknod realfsMknod
  rw [pathNames_renderPath proper]
  by_cases isFifo : hasType (realMode mode) 0o010000#16 = true
  · rw [if_pos isFifo]
    cases made : fs.tree.make place false env.ino env.refused with
    | error err => exact synced.settles_error err
    | ok tree =>
      obtain ⟨rfl, isFree, hasParent⟩ := make_ok made
      exact (synced.created fresh proper isFree hasParent ..).settles_ok _
  · rw [if_neg isFifo]
    by_cases isReg : hasType (realMode mode) sIfreg = true
    · rw [if_pos isReg]
      cases opened : fs.tree.openAt place true true env.ino env.refused with
      | error err => exact synced.settles_error err
      | ok tree =>
        dsimp only
        rw [closes tree isReg opened]
        rcases openAt_ok opened with
          ⟨_, notExclusive, _⟩ | ⟨rfl, _, isFree, hasParent⟩
        · cases notExclusive
        · exact (synced.created fresh proper isFree hasParent ..).settles_ok _
    · rw [if_neg isReg]
      exact synced.settles_error _

theorem Synced.fakefsMkdir_settles
    (mode : BitVec 16) :
    fs.Settles (fs.fakefsMkdir env (renderPath place) mode) := by
  unfold fakefsMkdir
  rw [pathNames_renderPath proper]
  cases made : fs.tree.make place true env.ino env.refused with
  | error err => exact synced.settles_error err
  | ok tree =>
    obtain ⟨rfl, isFree, hasParent⟩ := make_ok made
    exact (synced.created fresh proper isFree hasParent ..).settles_ok _

end

end

end FakeFs

namespace FakeCall

variable {env : FakeEnv} {fs : FakeFs} {call : FakeCall}

/--
The call does not rename a link of a file to another link of it, and the host
closes and cleans up the files that it made for the call.
-/
def IsTidy (env : FakeEnv) (fs : FakeFs) : FakeCall → Prop
  | .rename src dst =>
    src = dst ∨ env.refused ≠ none ∨
      ∀ node target,
        fs.tree.nodeAt (pathNames src) = some node →
        fs.tree.nodeAt (pathNames dst) = some target →
        target.ino ≠ node.ino
  | .symlink path =>
    ∀ tree,
      fs.tree.openAt (pathNames path) true true env.ino env.refused =
          .ok tree →
        env.writeError = none ∨ env.unlinkError = none
  | .mknod path mode _ =>
    ∀ tree, hasType (realMode mode) sIfreg = true →
      fs.tree.openAt (pathNames path) true true env.ino env.refused =
          .ok tree →
        env.closeError = none
  | _ => True

/-- The paths are normalized, and the new numbers fresh. -/
def IsCalled (env : FakeEnv) (fs : FakeFs) (call : FakeCall) : Prop :=
  (∀ path ∈ call.paths, IsNormalized path) ∧ env.Fresh fs

/-- A tidy call settles. -/
theorem run_settles
    (synced : fs.Synced)
    (isCalled : call.IsCalled env fs)
    (isTidy : call.IsTidy env fs) :
    fs.Settles (call.run env fs) := by
  obtain ⟨normalized, fresh⟩ := isCalled
  cases call with
  | openat path creat excl mode =>
    obtain ⟨place, proper, rfl⟩ := normalized path mem_cons_self
    obtain ⟨result, next, ran, nextSynced, noTrace⟩ :=
      synced.fakefsOpen_settles fresh proper creat excl mode
    refine ⟨result.map fun _ => (), next, ?_, nextSynced, ?_⟩
    · rw [run, ran]
      rfl
    · intro err failed
      cases result with
      | error other => exact noTrace other rfl
      | ok ino => cases failed
  | link src dst =>
    obtain ⟨place, proper, rfl⟩ := normalized src mem_cons_self
    obtain ⟨target, targetProper, rfl⟩ := normalized dst (by simp [paths])
    exact synced.fakefsLink_settles proper targetProper
  | unlink path =>
    obtain ⟨place, proper, rfl⟩ := normalized path mem_cons_self
    refine synced.unlinkRow_settles proper ?_
    rw [pathNames_renderPath proper]
    exact fun tree => unlink_ok synced.tree
  | rmdir path =>
    obtain ⟨place, proper, rfl⟩ := normalized path mem_cons_self
    refine synced.unlinkRow_settles proper ?_
    rw [pathNames_renderPath proper]
    exact fun tree => rmdir_ok
  | rename src dst =>
    obtain ⟨place, proper, rfl⟩ := normalized src mem_cons_self
    obtain ⟨target, targetProper, rfl⟩ := normalized dst (by simp [paths])
    refine synced.fakefsRename_settles proper targetProper ?_
    rcases isTidy with same | isRefused | apart
    · exact .inl (renderPath_injective proper targetProper same)
    · exact .inr (.inl isRefused)
    · rw [pathNames_renderPath proper, pathNames_renderPath targetProper]
        at apart
      exact .inr (.inr apart)
  | symlink path =>
    obtain ⟨place, proper, rfl⟩ := normalized path mem_cons_self
    refine synced.fakefsSymlink_settles fresh proper ?_
    dsimp only [IsTidy] at isTidy
    rw [pathNames_renderPath proper] at isTidy
    exact isTidy
  | mknod path mode dev =>
    obtain ⟨place, proper, rfl⟩ := normalized path mem_cons_self
    refine synced.fakefsMknod_settles fresh proper dev ?_
    dsimp only [IsTidy] at isTidy
    rw [pathNames_renderPath proper] at isTidy
    exact isTidy
  | mkdir path mode =>
    obtain ⟨place, proper, rfl⟩ := normalized path mem_cons_self
    exact synced.fakefsMkdir_settles fresh proper mode

end FakeCall

/-- The calls on one mount, from a store that describes the tree. -/
def fakefsMachine : Machine FakeFs (FakeCall × FakeEnv) where
  initial := FakeFs.Synced
  step fs called next :=
    called.1.IsCalled called.2 fs ∧
      ∃ result, called.1.run called.2 fs = some (result, next)

/-- The machine whose calls are tidy. -/
def tidyMachine : Machine FakeFs (FakeCall × FakeEnv) :=
  fakefsMachine.restrict fun fs called => called.1.IsTidy called.2 fs

namespace FakeFs

variable {fs : FakeFs}

theorem synced_of_reachable
    (reachable : tidyMachine.Reachable fs) :
    fs.Synced := by
  refine reachable.invariant (motive := Synced) (fun isInitial => isInitial) ?_
  rintro fs called next synced ⟨isTidy, isCalled, result, ran⟩
  obtain ⟨_, _, settled, nextSynced, _⟩ :=
    FakeCall.run_settles synced isCalled isTidy
  rw [ran] at settled
  cases settled
  exact nextSynced

/--
In a run of tidy calls, the paths of the store are the places of the tree, two
of them share an inode when they are links to one file, and every call returns,
without a trace when it fails.
-/
theorem store_follows_tree
    (reachable : tidyMachine.Reachable fs) :
    (∀ path, (fs.db.paths.lookup path).isSome ↔
        ∃ place, path = renderPath place ∧ (fs.tree.nodeAt place).isSome) ∧
      (∀ first second node other,
        fs.tree.nodeAt first = some node →
        fs.tree.nodeAt second = some other →
        (fs.rowAt first = fs.rowAt second ↔ node.ino = other.ino)) ∧
      ∀ env (call : FakeCall),
        call.IsCalled env fs → call.IsTidy env fs →
        ∃ result next,
          call.run env fs = some (result, next) ∧ next.Synced ∧
            ∀ err, result = .error err → next = fs := by
  have synced := synced_of_reachable reachable
  exact ⟨synced.paths, synced.links, fun env call isCalled isTidy =>
    FakeCall.run_settles synced isCalled isTidy⟩

/-- A mount with its root only. -/
def emptyMount : FakeFs where
  tree := ⟨[([], ⟨true, 1⟩)]⟩
  db := ⟨[([], 1)], [(1, ⟨0o040755#32, 0, 0, 0#32⟩)]⟩

theorem emptyMount_synced :
    emptyMount.Synced := by
  have onlyRoot :
      ∀ {place node}, emptyMount.tree.nodeAt place = some node →
        place = [] ∧ node = ⟨true, 1⟩ := by
    intro place node isNode
    cases place with
    | nil =>
      cases isNode
      exact ⟨rfl, rfl⟩
    | cons name rest => cases isNode
  have onlyRow :
      ∀ {path ino}, emptyMount.db.paths.lookup path = some ino →
        path = [] ∧ ino = 1 := by
    intro path ino isRow
    cases path with
    | nil =>
      cases isRow
      exact ⟨rfl, rfl⟩
    | cons byte rest => cases isRow
  constructor
  case tree =>
    constructor
    case root => exact ⟨1, rfl⟩
    case parents =>
      intro place name node isNode
      exact (append_ne_nil_of_right_ne_nil place (cons_ne_nil name [])
        (onlyRoot isNode).1).elim
    case dirs =>
      intro place other node otherNode isNode isOther _ _
      rw [(onlyRoot isNode).1, (onlyRoot isOther).1]
    case proper =>
      intro place node isNode name isName
      rw [(onlyRoot isNode).1] at isName
      cases isName
  case paths =>
    intro path
    constructor
    · intro isSome
      obtain ⟨ino, isRow⟩ := isSome_iff_exists.mp isSome
      exact ⟨[], (onlyRow isRow).1, rfl⟩
    · rintro ⟨place, rfl, isSome⟩
      obtain ⟨node, isNode⟩ := isSome_iff_exists.mp isSome
      rw [(onlyRoot isNode).1]
      rfl
  case rows =>
    intro path ino isRow
    rw [(onlyRow isRow).2]
    exact ⟨Nat.one_ne_zero, rfl⟩
  case links =>
    intro first second node other isFirst isSecond
    rw [(onlyRoot isFirst).1, (onlyRoot isFirst).2, (onlyRoot isSecond).1,
      (onlyRoot isSecond).2]
    exact iff_of_true rfl rfl

theorem fresh_of_rows
    {env : FakeEnv}
    (ino : ∀ row ∈ fs.tree.nodes, row.2.ino ≠ env.ino)
    (rowid : env.rowid ≠ 0)
    (row : fs.db.stats.lookup env.rowid = none) :
    env.Fresh fs where
  ino := by
    intro place node isNode
    obtain ⟨before, after, sameNodes, _⟩ := lookup_eq_some_iff.mp isNode
    refine ino (place, node) ?_
    rw [sameNodes]
    exact mem_append_right _ mem_cons_self
  rowid := rowid
  row := row

/-- Surroundings in which nothing fails. -/
def plainEnv (ino rowid : Nat) : FakeEnv where
  euid := 0
  egid := 0
  refused := none
  writeError := none
  unlinkError := none
  closeError := none
  ino := ino
  rowid := rowid
  loaded _ := false

theorem twoNames_normalized :
    IsNormalized [slash, 97] ∧ IsNormalized [slash, 98] :=
  ⟨isNormalized_letter (by decide) (by decide),
    isNormalized_letter (by decide) (by decide)⟩

/-- A file and a link to it share their row. -/
theorem linked_file_shares_its_row :
    ∃ fs,
      tidyMachine.Reachable fs ∧
        fs.rowAt [[97]] = some 2 ∧ fs.rowAt [[98]] = some 2 ∧
        ∀ path, (fs.db.paths.lookup path).isSome ↔
          ∃ place, path = renderPath place ∧ (fs.tree.nodeAt place).isSome := by
  have empty : tidyMachine.Reachable emptyMount := .initial emptyMount_synced
  have created :=
    empty.step
      (a := (FakeCall.openat [slash, 97] true false 0o644#32, plainEnv 2 2))
      ⟨trivial,
        ⟨by simpa [FakeCall.paths] using twoNames_normalized.1,
          fresh_of_rows (by decide) (by decide) rfl⟩, _, rfl⟩
  have linked :=
    created.step (a := (FakeCall.link [slash, 97] [slash, 98], plainEnv 3 3))
      ⟨trivial,
        ⟨by simpa [FakeCall.paths] using twoNames_normalized,
          fresh_of_rows (by decide) (by decide) rfl⟩, _, rfl⟩
  exact ⟨_, linked, rfl, rfl, (store_follows_tree linked).1⟩

/-- After a rename of a link to the other one, its place has no row. -/
theorem renamed_link_loses_its_row :
    ∃ fs,
      fakefsMachine.Reachable fs ∧
        ¬∀ path, (fs.db.paths.lookup path).isSome ↔
          ∃ place, path = renderPath place ∧ (fs.tree.nodeAt place).isSome := by
  have empty : fakefsMachine.Reachable emptyMount := .initial emptyMount_synced
  have created :=
    empty.step
      (a := (FakeCall.openat [slash, 97] true false 0o644#32, plainEnv 2 2))
      ⟨⟨by simpa [FakeCall.paths] using twoNames_normalized.1,
          fresh_of_rows (by decide) (by decide) rfl⟩, _, rfl⟩
  have linked :=
    created.step (a := (FakeCall.link [slash, 97] [slash, 98], plainEnv 3 3))
      ⟨⟨by simpa [FakeCall.paths] using twoNames_normalized,
          fresh_of_rows (by decide) (by decide) rfl⟩, _, rfl⟩
  have renamed :=
    linked.step (a := (FakeCall.rename [slash, 97] [slash, 98], plainEnv 3 3))
      ⟨⟨by simpa [FakeCall.paths] using twoNames_normalized,
          fresh_of_rows (by decide) (by decide) rfl⟩, _, rfl⟩
  refine ⟨_, renamed, ?_⟩
  intro follows
  cases (follows [slash, 97]).mpr ⟨[[97]], rfl, rfl⟩

end FakeFs

end GuestKernel
