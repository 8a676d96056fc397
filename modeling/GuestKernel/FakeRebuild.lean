import GuestKernel.FakeFs
import Mathlib.Logic.Function.Basic

namespace GuestKernel
open List Option
open Rows HostTree

/-!
# Rebuilding the store

`fs/fake-rebuild.c`: the tree was copied, so the files of the host have new
inodes and hard links may have become files of their own.  The loop goes over
the old rows in the order in which the store lists them.
-/

/-- What the host answers for a path apart from what its tree decides. -/
structure RebuildEnv where
  unlinkRefused : PathString → Option Errno
  linkRefused : PathString → Option Errno

/-- `HASH_SIZE`. -/
def hashSize : Nat :=
  2000

/-- The tree, the new tables, and `hashtable` with the entries of a bucket. -/
structure Rebuild where
  tree : HostTree
  db : FakeDb
  hashtable : Nat → List (Nat × PathString)

/-- The search for an entry in its bucket. -/
def tableFind (hashtable : Nat → List (Nat × PathString)) (inode : Nat) :
    Option PathString :=
  (hashtable (inode % hashSize)).lookup inode

/-- `list_add` of a new entry. -/
def tableAdd
    (hashtable : Nat → List (Nat × PathString))
    (inode : Nat)
    (path : PathString) : Nat → List (Nat × PathString) :=
  Function.update hashtable (inode % hashSize)
    ((inode, path) :: hashtable (inode % hashSize))

/-- `unlinkat` and `linkat`; nobody looks at their errors. -/
def relink
    (env : RebuildEnv)
    (tree : HostTree)
    (first path : PathString) : HostTree :=
  let unlinked :=
    (tree.unlink (pathNames path) (env.unlinkRefused path)).toOption.getD tree
  let linked :=
    unlinked.link (pathNames first) (pathNames path) (env.linkRefused path)
  linked.toOption.getD unlinked

/-- `write_stat` and `write_path`; a second row for a path is an error. -/
def writeRow
    (db : FakeDb)
    (path : PathString)
    (realInode : Nat)
    (stat : IshStat) : Option FakeDb :=
  if (db.paths.lookup path).isSome then
    none
  else
    some ⟨(path, realInode) :: db.paths, put realInode stat db.stats⟩

/-- One round of the loop. -/
def visitRow
    (env : RebuildEnv)
    (statsOld : List (Nat × IshStat))
    (state : Rebuild)
    (row : PathString × Nat) : Option Rebuild :=
  match state.tree.nodeAt (pathNames row.1) with
  | none => some state
  | some node =>
    let relinked : Rebuild :=
      match tableFind state.hashtable row.2 with
      | some first => { state with tree := relink env state.tree first row.1 }
      | none =>
        { state with hashtable := tableAdd state.hashtable row.2 row.1 }
    match statsOld.lookup row.2 with
    | none => some relinked
    | some stat =>
      (writeRow relinked.db row.1 node.ino stat).map fun db =>
        { relinked with db := db }

/-- `fakefs_rebuild`; `none` is `die`. -/
def fakefsRebuild (env : RebuildEnv) (fs : FakeFs) : Option FakeFs :=
  (fs.db.paths.foldlM (visitRow env fs.db.stats)
    ⟨fs.tree, ⟨[], []⟩, fun _ => []⟩).map fun state => ⟨state.tree, state.db⟩

namespace FakeFs

/-- The host's inode of the file at a path. -/
def realInode (fs : FakeFs) (path : PathString) : Option Nat :=
  (fs.tree.nodeAt (pathNames path)).map HostNode.ino

/-- A store whose paths are all in the tree. -/
structure Rebuildable (fs : FakeFs) : Prop where
  sound : fs.tree.Sound
  primaryKey : (fs.db.paths.map Prod.fst).Nodup
  normalized : ∀ row ∈ fs.db.paths, IsNormalized row.1
  present : ∀ row ∈ fs.db.paths, (fs.tree.nodeAt (pathNames row.1)).isSome

/-- The paths, the links and the stats are kept under the new numbers. -/
structure KeptBy (fs next : FakeFs) : Prop where
  paths :
    ∀ row ∈ fs.db.paths, (next.db.paths.lookup row.1).isSome
  links :
    ∀ row ∈ fs.db.paths, ∀ other ∈ fs.db.paths,
      (next.db.paths.lookup row.1 = next.db.paths.lookup other.1 ↔
        row.2 = other.2)
  numbers :
    ∀ row ∈ fs.db.paths, ∃ number,
      next.db.paths.lookup row.1 = some number ∧
        next.realInode row.1 = some number
  stats :
    ∀ row ∈ fs.db.paths, ∀ number,
      next.db.paths.lookup row.1 = some number →
      next.db.stats.lookup number = fs.db.stats.lookup row.2

end FakeFs

/-- The first path of an inode. -/
def firstPath (rows : List (PathString × Nat)) (inode : Nat) :
    Option PathString :=
  (rows.find? fun row => row.2 = inode).map Prod.fst

/--
Every inode has a stat, the host still has the links and no others, and it does
not take a link away that it does not give back.
-/
structure LinksIntact (env : RebuildEnv) (fs : FakeFs) : Prop where
  stats : ∀ row ∈ fs.db.paths, (fs.db.stats.lookup row.2).isSome
  links :
    ∀ row ∈ fs.db.paths, ∀ other ∈ fs.db.paths,
      (fs.realInode row.1 = fs.realInode other.1 ↔ row.2 = other.2)
  givenBack :
    ∀ row ∈ fs.db.paths, firstPath fs.db.paths row.2 ≠ some row.1 →
      env.unlinkRefused row.1 = none → env.linkRefused row.1 = none

/-- A new table finds the new entry, and the others as before. -/
theorem tableFind_tableAdd
    (hashtable : Nat → List (Nat × PathString))
    (inode other : Nat)
    (path : PathString) :
    tableFind (tableAdd hashtable inode path) other =
      if other = inode then some path else tableFind hashtable other := by
  unfold tableFind tableAdd
  by_cases sameBucket : other % hashSize = inode % hashSize
  · rw [sameBucket, Function.update_self, lookup_cons]
    by_cases same : other = inode
    · rw [if_pos same, same, beq_self_eq_true]
    · rw [if_neg same, beq_eq_false_iff_ne.mpr same]
  · rw [Function.update_of_ne sameBucket]
    have differs : other ≠ inode := fun same => sameBucket (by rw [same])
    rw [if_neg differs]

theorem firstPath_append
    (rows : List (PathString × Nat))
    (row : PathString × Nat)
    (inode : Nat) :
    firstPath (rows ++ [row]) inode =
      (firstPath rows inode).or
        (if row.2 = inode then some row.1 else none) := by
  unfold firstPath
  rw [List.find?_append, List.find?_singleton]
  by_cases same : row.2 = inode
  · cases rows.find? fun row => row.2 = inode <;> simp [same]
  · cases rows.find? fun row => row.2 = inode <;> simp [same]

variable {row other : PathString × Nat} {node : HostNode} {first : PathString}
  {db : FakeDb} {rows : List (PathString × Nat)} {place : List PathString}

theorem mem_of_firstPath
    {inode : Nat}
    (isFirst : firstPath rows inode = some first) :
    (first, inode) ∈ rows := by
  obtain ⟨row, found, rfl⟩ := map_eq_some_iff.mp isFirst
  have sameInode : row.2 = inode := by
    simpa using List.find?_some found
  rw [← sameInode]
  exact List.mem_of_find?_eq_some found

theorem firstPath_isSome
    (isRow : row ∈ rows) :
    ∃ first, firstPath rows row.2 = some first := by
  rw [← isSome_iff_exists]
  unfold firstPath
  rw [isSome_map, List.find?_isSome]
  exact ⟨row, isRow, decide_eq_true rfl⟩

/-- What is at a path after its unlink and the link to the first path. -/
def relinkedNode (env : RebuildEnv) (path : PathString) (source node : HostNode) :
    Option HostNode :=
  if node.isDir = true ∨ (env.unlinkRefused path).isSome then
    some node
  else if source.isDir = true ∨ (env.linkRefused path).isSome then
    none
  else
    some source

/-- The node at the path of a link, and that nothing else changes. -/
theorem relink_nodeAt
    (env : RebuildEnv)
    {tree : HostTree}
    {path : PathString}
    {source : HostNode}
    (isSource : tree.nodeAt (pathNames first) = some source)
    (isNode : tree.nodeAt (pathNames path) = some node)
    (apart : pathNames first ≠ pathNames path)
    (hasParent : node.isDir = false → tree.parentIsDir (pathNames path) = true) :
    (relink env tree first path).nodeAt (pathNames path) =
        relinkedNode env path source node ∧
      ∀ place, place ≠ pathNames path →
        (relink env tree first path).nodeAt place = tree.nodeAt place := by
  by_cases stays : node.isDir = true ∨ (env.unlinkRefused path).isSome
  · -- The unlink fails, and then the link finds the path in use.
    have same : relink env tree first path = tree := by
      unfold relink
      have notUnlinked :
          (tree.unlink (pathNames path)
            (env.unlinkRefused path)).toOption.getD tree = tree := by
        unfold unlink
        rw [isNode]
        cases refused : env.unlinkRefused path with
        | some err =>
          rfl
        | none =>
          rw [refused] at stays
          dsimp only
          rw [if_pos (stays.resolve_right (by simp))]
          rfl
      rw [notUnlinked]
      dsimp only
      unfold link
      rw [isNode, isSource]
      cases env.linkRefused path <;> rfl
    rw [same, isNode, relinkedNode, if_pos stays]
    exact ⟨rfl, fun _ _ => rfl⟩
  · rw [relinkedNode, if_neg stays]
    rw [not_or, Bool.not_eq_true, not_isSome_iff_eq_none] at stays
    obtain ⟨isFile, notRefused⟩ := stays
    have unlinked :
        (tree.unlink (pathNames path)
          (env.unlinkRefused path)).toOption.getD tree =
            tree.removed (pathNames path) := by
      unfold unlink
      rw [isNode, notRefused]
      dsimp only
      rw [isFile]
      rfl
    have gone : (tree.removed (pathNames path)).nodeAt (pathNames path) = none :=
      lookup_takeOut_self ..
    have elsewhere :
        ∀ place, place ≠ pathNames path →
          (tree.removed (pathNames path)).nodeAt place = tree.nodeAt place :=
      fun place differs => lookup_takeOut_of_ne differs ..
    have stillParent :
        (tree.removed (pathNames path)).parentIsDir (pathNames path) = true := by
      have wasParent := hasParent isFile
      have notRoot := (exists_of_parentIsDir wasParent).1
      have above : (pathNames path).dropLast ≠ pathNames path := by
        intro same
        have shorter := congrArg List.length same
        rw [length_dropLast] at shorter
        have longer := length_pos_of_ne_nil notRoot
        omega
      unfold parentIsDir at wasParent ⊢
      rw [elsewhere _ above]
      exact wasParent
    unfold relink
    rw [unlinked]
    dsimp only
    unfold link
    rw [gone, elsewhere _ apart, isSource]
    cases refused : env.linkRefused path with
    | some err =>
      dsimp only [Except.toOption, Option.getD]
      rw [if_pos (Or.inr isSome_some)]
      exact ⟨gone, elsewhere⟩
    | none =>
      dsimp only
      cases isDir : source.isDir with
      | true =>
        rw [if_pos rfl, if_pos (Or.inl rfl)]
        exact ⟨gone, elsewhere⟩
      | false =>
        rw [if_neg Bool.false_ne_true, if_pos stillParent, if_neg (by simp)]
        refine ⟨lookup_put_self .., ?_⟩
        intro place differs
        rw [← elsewhere place differs]
        exact lookup_put_of_ne differs ..

/-- The tree and the hashtable after some rows. -/
structure LinkedRows
    (env : RebuildEnv)
    (fs : FakeFs)
    (visited : List (PathString × Nat))
    (state : Rebuild) : Prop where
  table : ∀ inode, tableFind state.hashtable inode = firstPath visited inode
  untouched :
    ∀ place, (∀ row ∈ visited, pathNames row.1 ≠ place) →
      state.tree.nodeAt place = fs.tree.nodeAt place
  firsts :
    ∀ path inode, firstPath visited inode = some path →
      state.tree.nodeAt (pathNames path) = fs.tree.nodeAt (pathNames path)
  others :
    ∀ row ∈ visited, ∀ first, firstPath visited row.2 = some first →
      first ≠ row.1 →
      ∃ source node,
        fs.tree.nodeAt (pathNames first) = some source ∧
          fs.tree.nodeAt (pathNames row.1) = some node ∧
          state.tree.nodeAt (pathNames row.1) =
            relinkedNode env row.1 source node

/-- The new tables after some rows. -/
structure WrittenRows
    (fs : FakeFs)
    (visited : List (PathString × Nat))
    (db : FakeDb) : Prop where
  paths :
    ∀ path, db.paths.lookup path =
      (visited.lookup path).bind fun inode =>
        (fs.db.stats.lookup inode).bind fun _ => fs.realInode path
  stats :
    ∀ row ∈ visited, ∀ number, fs.realInode row.1 = some number →
      (fs.db.stats.lookup row.2).isSome → (db.stats.lookup number).isSome
  sources :
    ∀ number stat, db.stats.lookup number = some stat →
      ∃ row ∈ visited,
        fs.realInode row.1 = some number ∧
          fs.db.stats.lookup row.2 = some stat

variable {env : RebuildEnv} {fs next : FakeFs}
variable {visited : List (PathString × Nat)} {state : Rebuild}

/-- A directory stays where it is. -/
theorem LinkedRows.dir_stays
    (linked : LinkedRows env fs visited state)
    (isNode : fs.tree.nodeAt place = some node)
    (isDir : node.isDir = true) :
    state.tree.nodeAt place = some node := by
  by_cases isVisited : ∃ row ∈ visited, pathNames row.1 = place
  · obtain ⟨row, isRow, rfl⟩ := isVisited
    obtain ⟨first, isFirst⟩ := firstPath_isSome isRow
    by_cases same : first = row.1
    · rw [← same, linked.firsts first row.2 isFirst, same, isNode]
    · obtain ⟨source, other, _, isOther, after⟩ :=
        linked.others row isRow first isFirst same
      rw [isNode, some.injEq] at isOther
      rw [after, ← isOther, relinkedNode, if_pos (Or.inl isDir)]
  · rw [linked.untouched, isNode]
    intro row isRow same
    exact isVisited ⟨row, isRow, same⟩

/-- A row of an inode that is new goes into the hashtable. -/
theorem LinkedRows.entered
    (linked : LinkedRows env fs visited state)
    (isNew : firstPath visited row.2 = none)
    (apart : ∀ other ∈ visited, pathNames other.1 ≠ pathNames row.1) :
    LinkedRows env fs (visited ++ [row])
      { state with hashtable := tableAdd state.hashtable row.2 row.1 } := by
  have unchanged : state.tree.nodeAt (pathNames row.1) =
      fs.tree.nodeAt (pathNames row.1) :=
    linked.untouched _ apart
  constructor
  case table =>
    intro inode
    dsimp only
    rw [tableFind_tableAdd, linked.table, firstPath_append]
    by_cases same : inode = row.2
    · rw [if_pos same, if_pos same.symm, same, isNew, none_or]
    · rw [if_neg same, if_neg (Ne.symm same), or_none]
  case untouched =>
    intro place notVisited
    refine linked.untouched place ?_
    intro other isOther
    exact notVisited other (mem_append_left _ isOther)
  case firsts =>
    intro path inode isFirst
    rw [firstPath_append, or_eq_some_iff] at isFirst
    rcases isFirst with wasFirst | ⟨_, isRow⟩
    · exact linked.firsts path inode wasFirst
    · rw [ite_none_right_eq_some, some.injEq] at isRow
      rw [← isRow.2]
      exact unchanged
  case others =>
    intro other isOther first isFirst differs
    rw [firstPath_append, or_eq_some_iff] at isFirst
    rcases mem_append.mp isOther with wasVisited | isRow
    · rcases isFirst with wasFirst | ⟨wasNone, _⟩
      · exact linked.others other wasVisited first wasFirst differs
      · obtain ⟨already, isAlready⟩ := firstPath_isSome wasVisited
        rw [wasNone] at isAlready
        cases isAlready
    · rw [mem_singleton] at isRow
      subst isRow
      rcases isFirst with wasFirst | ⟨_, itself⟩
      · rw [isNew] at wasFirst
        cases wasFirst
      · rw [if_pos rfl, some.injEq] at itself
        exact (differs itself.symm).elim

/-- A row of an inode that was there becomes a link to the first path. -/
theorem LinkedRows.linkedTo
    (linked : LinkedRows env fs visited state)
    (sound : fs.tree.Sound)
    (isFirst : firstPath visited row.2 = some first)
    (isNode : fs.tree.nodeAt (pathNames row.1) = some node)
    (present : ∀ other ∈ visited, (fs.tree.nodeAt (pathNames other.1)).isSome)
    (apart : ∀ other ∈ visited, pathNames other.1 ≠ pathNames row.1) :
    LinkedRows env fs (visited ++ [row])
      { state with tree := relink env state.tree first row.1 } := by
  have firstVisited := mem_of_firstPath isFirst
  obtain ⟨source, isSource⟩ :=
    isSome_iff_exists.mp (present _ firstVisited)
  have sourceNow : state.tree.nodeAt (pathNames first) = some source := by
    rw [linked.firsts first row.2 isFirst]
    exact isSource
  have nodeNow : state.tree.nodeAt (pathNames row.1) = some node := by
    rw [linked.untouched _ apart]
    exact isNode
  have hasParent :
      node.isDir = false →
        state.tree.parentIsDir (pathNames row.1) = true := by
    intro isFile
    have notRoot : pathNames row.1 ≠ [] := by
      intro isRoot
      obtain ⟨ino, root⟩ := sound.root
      rw [isRoot, root, some.injEq] at isNode
      rw [← isNode] at isFile
      cases isFile
    have split := dropLast_append_getLast notRoot
    rw [← split] at isNode
    obtain ⟨ino, isParent⟩ := sound.parents _ _ _ isNode
    unfold parentIsDir
    rw [linked.dir_stays isParent rfl, decide_eq_true notRoot]
    rfl
  obtain ⟨atPath, elsewhere⟩ :=
    relink_nodeAt env sourceNow nodeNow (apart _ firstVisited) hasParent
  have firstIs :
      ∀ inode path, firstPath (visited ++ [row]) inode = some path →
        firstPath visited inode = some path := by
    intro inode path isFirstNow
    rw [firstPath_append, or_eq_some_iff] at isFirstNow
    rcases isFirstNow with wasFirst | ⟨wasNone, isRow⟩
    · exact wasFirst
    · rw [ite_none_right_eq_some] at isRow
      rw [← isRow.1, isFirst] at wasNone
      cases wasNone
  constructor
  case table =>
    intro inode
    dsimp only
    rw [linked.table, firstPath_append]
    by_cases same : row.2 = inode
    · rw [← same, isFirst, some_or]
    · rw [if_neg same, or_none]
  case untouched =>
    intro place notVisited
    dsimp only
    have notRow := notVisited row (mem_append_right _ (by simp))
    rw [elsewhere place notRow.symm]
    refine linked.untouched place ?_
    intro other isOther
    exact notVisited other (mem_append_left _ isOther)
  case firsts =>
    intro path inode isFirstNow
    have wasFirst := firstIs inode path isFirstNow
    dsimp only
    rw [elsewhere _ (apart _ (mem_of_firstPath wasFirst))]
    exact linked.firsts path inode wasFirst
  case others =>
    intro other isOther path isFirstNow differs
    have wasFirst := firstIs other.2 path isFirstNow
    rcases mem_append.mp isOther with wasVisited | isRow
    · dsimp only
      rw [elsewhere _ (apart other wasVisited)]
      exact linked.others other wasVisited path wasFirst differs
    · rw [mem_singleton] at isRow
      subst isRow
      rw [isFirst, some.injEq] at wasFirst
      subst wasFirst
      exact ⟨source, node, isSource, isNode, atPath⟩

theorem WrittenRows.leftOut
    (written : WrittenRows fs visited db)
    (noStat : fs.db.stats.lookup row.2 = none) :
    WrittenRows fs (visited ++ [row]) db := by
  constructor
  case paths =>
    intro path
    rw [written.paths, lookup_append]
    cases found : visited.lookup path with
    | some inode =>
      rfl
    | none =>
      rw [none_or, lookup_cons]
      cases path == row.1 with
      | true => simp only [bind_some, bind_none, noStat]
      | false => rfl
  case stats =>
    intro other isOther number isNumber hasStat
    rcases mem_append.mp isOther with wasVisited | isRow
    · exact written.stats other wasVisited number isNumber hasStat
    · rw [mem_singleton] at isRow
      rw [isRow, noStat] at hasStat
      cases hasStat
  case sources =>
    intro number stat isStat
    obtain ⟨other, isOther, sameNumber⟩ := written.sources number stat isStat
    exact ⟨other, mem_append_left _ isOther, sameNumber⟩

/-- A row is written with the inode that its path had before. -/
theorem WrittenRows.wrote
    {number : Nat}
    {stat : IshStat}
    (written : WrittenRows fs visited db)
    (isNew : visited.lookup row.1 = none)
    (isNumber : fs.realInode row.1 = some number)
    (isStat : fs.db.stats.lookup row.2 = some stat) :
    ∃ after, writeRow db row.1 number stat = some after ∧
      WrittenRows fs (visited ++ [row]) after := by
  have isFree : db.paths.lookup row.1 = none := by
    rw [written.paths, isNew]
    rfl
  refine ⟨⟨(row.1, number) :: db.paths, put number stat db.stats⟩, ?_, ?_⟩
  · unfold writeRow
    rw [isFree]
    rfl
  constructor
  case paths =>
    intro path
    rw [lookup_cons, lookup_append, lookup_cons]
    by_cases same : path = row.1
    · rw [same, beq_self_eq_true, isNew, none_or]
      simp only [bind_some, isStat, isNumber]
    · rw [beq_eq_false_iff_ne.mpr same, lookup_nil, or_none]
      exact written.paths path
  case stats =>
    intro other isOther otherNumber isOtherNumber hasStat
    by_cases same : otherNumber = number
    · rw [same, lookup_put_self]
      rfl
    · rw [lookup_put_of_ne same]
      rcases mem_append.mp isOther with wasVisited | isRow
      · exact written.stats other wasVisited otherNumber isOtherNumber hasStat
      · rw [mem_singleton] at isRow
        rw [isRow, isNumber, some.injEq] at isOtherNumber
        exact (same isOtherNumber.symm).elim
  case sources =>
    intro otherNumber otherStat isOtherStat
    by_cases same : otherNumber = number
    · rw [same, lookup_put_self, some.injEq] at isOtherStat
      subst same isOtherStat
      exact ⟨row, mem_append_right _ (by simp), isNumber, isStat⟩
    · rw [lookup_put_of_ne same] at isOtherStat
      obtain ⟨other, isOther, sameNumber⟩ :=
        written.sources otherNumber otherStat isOtherStat
      exact ⟨other, mem_append_left _ isOther, sameNumber⟩

theorem LinkedRows.withDb
    (linked : LinkedRows env fs visited state)
    (db : FakeDb) :
    LinkedRows env fs visited { state with db := db } :=
  ⟨linked.table, linked.untouched, linked.firsts, linked.others⟩

/-- One round: the row is linked and written. -/
theorem visitRow_step
    (linked : LinkedRows env fs visited state)
    (written : WrittenRows fs visited state.db)
    (sound : fs.tree.Sound)
    (isNode : fs.tree.nodeAt (pathNames row.1) = some node)
    (present : ∀ other ∈ visited, (fs.tree.nodeAt (pathNames other.1)).isSome)
    (apart : ∀ other ∈ visited, pathNames other.1 ≠ pathNames row.1)
    (isNew : visited.lookup row.1 = none) :
    ∃ after, visitRow env fs.db.stats state row = some after ∧
      LinkedRows env fs (visited ++ [row]) after ∧
      WrittenRows fs (visited ++ [row]) after.db := by
  have isNumber : fs.realInode row.1 = some node.ino := by
    unfold FakeFs.realInode
    rw [isNode]
    rfl
  obtain ⟨relinked, isRelinked, sameDb, nowLinked⟩ :
      ∃ relinked : Rebuild,
        (match tableFind state.hashtable row.2 with
          | some first =>
            { state with tree := relink env state.tree first row.1 }
          | none =>
            { state with hashtable := tableAdd state.hashtable row.2 row.1 }) =
            relinked ∧
          relinked.db = state.db ∧
            LinkedRows env fs (visited ++ [row]) relinked := by
    refine ⟨_, rfl, ?_⟩
    rw [linked.table]
    cases isFirst : firstPath visited row.2 with
    | some first =>
      exact ⟨rfl, linked.linkedTo sound isFirst isNode present apart⟩
    | none =>
      exact ⟨rfl, linked.entered isFirst apart⟩
  unfold visitRow
  rw [linked.untouched _ apart, isNode]
  dsimp only
  rw [isRelinked]
  cases isStat : fs.db.stats.lookup row.2 with
  | none =>
    refine ⟨relinked, rfl, nowLinked, ?_⟩
    rw [sameDb]
    exact written.leftOut isStat
  | some stat =>
    obtain ⟨db, isWritten, nowWritten⟩ := written.wrote isNew isNumber isStat
    refine ⟨{ relinked with db := db }, ?_, nowLinked.withDb db, nowWritten⟩
    dsimp only
    rw [sameDb, isWritten]
    rfl

theorem FakeFs.Rebuildable.path_eq
    (rebuildable : fs.Rebuildable)
    (isRow : row ∈ fs.db.paths)
    (isOther : other ∈ fs.db.paths)
    (samePlace : pathNames row.1 = pathNames other.1) :
    row.1 = other.1 := by
  obtain ⟨place, proper, isPath⟩ := rebuildable.normalized row isRow
  obtain ⟨otherPlace, otherProper, isOtherPath⟩ :=
    rebuildable.normalized other isOther
  rw [isPath, isOtherPath, pathNames_renderPath proper,
    pathNames_renderPath otherProper] at samePlace
  rw [isPath, isOtherPath, samePlace]

/-- The loop over the rows that are left. -/
theorem visitRows_run
    (rebuildable : fs.Rebuildable)
    (rest : List (PathString × Nat)) :
    ∀ visited state,
      fs.db.paths = visited ++ rest →
      LinkedRows env fs visited state →
      WrittenRows fs visited state.db →
      ∃ after,
        rest.foldlM (visitRow env fs.db.stats) state = some after ∧
          LinkedRows env fs fs.db.paths after ∧
          WrittenRows fs fs.db.paths after.db := by
  induction rest with
  | nil =>
    intro visited state areRows linked written
    rw [append_nil] at areRows
    rw [areRows]
    exact ⟨state, rfl, linked, written⟩
  | cons row rest inductionHypothesis =>
    intro visited state areRows linked written
    have isRow : row ∈ fs.db.paths := by
      rw [areRows]
      exact mem_append_right _ (mem_cons_self ..)
    have areVisited : ∀ other ∈ visited, other ∈ fs.db.paths := by
      intro other isOther
      rw [areRows]
      exact mem_append_left _ isOther
    have isFresh : ∀ other ∈ visited, other.1 ≠ row.1 := by
      have keys := rebuildable.primaryKey
      rw [areRows, map_append, map_cons] at keys
      intro other isOther
      exact (nodup_append.mp keys).2.2 other.1
        (List.mem_map_of_mem isOther) row.1 (mem_cons_self ..)
    have apart :
        ∀ other ∈ visited, pathNames other.1 ≠ pathNames row.1 := by
      intro other isOther samePlace
      exact isFresh other isOther
        (rebuildable.path_eq (areVisited other isOther) isRow samePlace)
    have isNew : visited.lookup row.1 = none := by
      rw [lookup_eq_none_iff]
      intro other isOther
      rw [bne_iff_ne]
      exact (isFresh other isOther).symm
    obtain ⟨node, isNode⟩ :=
      isSome_iff_exists.mp (rebuildable.present row isRow)
    obtain ⟨after, isAfter, nowLinked, nowWritten⟩ :=
      visitRow_step linked written rebuildable.sound isNode
        (fun other isOther =>
          rebuildable.present other (areVisited other isOther))
        apart isNew
    rw [foldlM_cons, isAfter]
    refine inductionHypothesis (visited ++ [row]) after ?_ nowLinked nowWritten
    rw [areRows, append_assoc]
    rfl

/-- A rebuild does not die, and visits every row. -/
theorem fakefsRebuild_rows
    (env : RebuildEnv)
    (rebuildable : fs.Rebuildable) :
    ∃ state,
      fakefsRebuild env fs = some ⟨state.tree, state.db⟩ ∧
        LinkedRows env fs fs.db.paths state ∧
        WrittenRows fs fs.db.paths state.db := by
  let start : Rebuild := ⟨fs.tree, ⟨[], []⟩, fun _ => []⟩
  have linkedAtStart : LinkedRows env fs [] start := by
    constructor
    case table =>
      intro inode
      rfl
    case untouched =>
      intro place _
      rfl
    case firsts =>
      intro path inode isFirst
      cases isFirst
    case others =>
      intro row isRow
      cases isRow
  have writtenAtStart : WrittenRows fs [] start.db := by
    constructor
    case paths =>
      intro path
      rfl
    case stats =>
      intro row isRow
      cases isRow
    case sources =>
      intro number stat isStat
      cases isStat
  obtain ⟨state, isState, linked, written⟩ :=
    visitRows_run rebuildable fs.db.paths [] start rfl linkedAtStart
      writtenAtStart
  refine ⟨state, ?_, linked, written⟩
  unfold fakefsRebuild
  rw [isState]
  rfl

theorem WrittenRows.number
    (written : WrittenRows fs fs.db.paths db)
    (rebuildable : fs.Rebuildable)
    (isRow : row ∈ fs.db.paths)
    (hasStat : (fs.db.stats.lookup row.2).isSome) :
    db.paths.lookup row.1 = fs.realInode row.1 := by
  obtain ⟨stat, isStat⟩ := isSome_iff_exists.mp hasStat
  have found : fs.db.paths.lookup row.1 = some row.2 :=
    lookup_of_mem rebuildable.primaryKey isRow
  rw [written.paths, found]
  simp only [bind_some, isStat]

/-- A path that was not the first of its inode, and the first. -/
theorem LinkedRows.repeated
    (linked : LinkedRows env fs fs.db.paths state)
    (isRow : row ∈ fs.db.paths)
    (notFirst : firstPath fs.db.paths row.2 ≠ some row.1) :
    ∃ first source node,
      (first, row.2) ∈ fs.db.paths ∧ first ≠ row.1 ∧
        fs.tree.nodeAt (pathNames first) = some source ∧
        fs.tree.nodeAt (pathNames row.1) = some node ∧
        state.tree.nodeAt (pathNames row.1) =
          relinkedNode env row.1 source node := by
  obtain ⟨first, isFirst⟩ := firstPath_isSome isRow
  have differs : first ≠ row.1 := by
    rintro rfl
    exact notFirst isFirst
  obtain ⟨source, node, isSource, isNode, after⟩ :=
    linked.others row isRow first isFirst differs
  exact ⟨first, source, node, mem_of_firstPath isFirst, differs, isSource,
    isNode, after⟩

/-- Two paths of one file are not directories. -/
theorem FakeFs.Rebuildable.isFile
    {source : HostNode}
    (rebuildable : fs.Rebuildable)
    (isRow : row ∈ fs.db.paths)
    (isOther : other ∈ fs.db.paths)
    (differs : other.1 ≠ row.1)
    (isSource : fs.tree.nodeAt (pathNames other.1) = some source)
    (isNode : fs.tree.nodeAt (pathNames row.1) = some node)
    (sameIno : fs.realInode other.1 = fs.realInode row.1) :
    source.ino = node.ino ∧ source.isDir = false ∧ node.isDir = false := by
  unfold FakeFs.realInode at sameIno
  rw [isSource, isNode, map_some, map_some,
    some.injEq] at sameIno
  have apart : pathNames other.1 ≠ pathNames row.1 := fun samePlace =>
    differs (rebuildable.path_eq isOther isRow samePlace)
  refine ⟨sameIno, ?_, ?_⟩
  · rw [← Bool.not_eq_true]
    intro isDir
    exact apart
      (rebuildable.sound.dirs _ _ _ _ isSource isNode sameIno isDir)
  · rw [← Bool.not_eq_true]
    intro isDir
    exact apart
      (rebuildable.sound.dirs _ _ _ _ isNode isSource sameIno.symm isDir).symm

/-- Where the links are intact, a rebuild keeps the store. -/
theorem keptBy_of_linksIntact
    (rebuildable : fs.Rebuildable)
    (intact : LinksIntact env fs)
    (linked : LinkedRows env fs fs.db.paths state)
    (written : WrittenRows fs fs.db.paths state.db) :
    fs.KeptBy ⟨state.tree, state.db⟩ := by
  have number :
      ∀ row ∈ fs.db.paths,
        state.db.paths.lookup row.1 = fs.realInode row.1 := fun row isRow =>
    written.number rebuildable isRow (intact.stats row isRow)
  have hasNumber :
      ∀ row ∈ fs.db.paths, (fs.realInode row.1).isSome := by
    intro row isRow
    unfold FakeFs.realInode
    rw [isSome_map]
    exact rebuildable.present row isRow
  constructor
  case paths =>
    intro row isRow
    dsimp only
    rw [number row isRow]
    exact hasNumber row isRow
  case links =>
    intro row isRow other isOther
    dsimp only
    rw [number row isRow, number other isOther]
    exact intact.links row isRow other isOther
  case numbers =>
    intro row isRow
    obtain ⟨inode, isInode⟩ := isSome_iff_exists.mp (hasNumber row isRow)
    refine ⟨inode, (number row isRow).trans isInode, ?_⟩
    rw [← isInode]
    unfold FakeFs.realInode
    dsimp only
    by_cases isFirst : firstPath fs.db.paths row.2 = some row.1
    · rw [linked.firsts row.1 row.2 isFirst]
    · obtain ⟨first, source, node, firstRow, differs, isSource, isNode, after⟩ :=
        linked.repeated isRow isFirst
      have sameIno : fs.realInode first = fs.realInode row.1 :=
        (intact.links (first, row.2) firstRow row isRow).mpr rfl
      obtain ⟨same, sourceFile, _⟩ :=
        rebuildable.isFile isRow firstRow differs isSource isNode sameIno
      rw [after, isNode]
      unfold relinkedNode
      by_cases stays : node.isDir = true ∨ (env.unlinkRefused row.1).isSome
      · rw [if_pos stays]
      · rw [if_neg stays, if_neg, map_some, map_some, same]
        rw [not_or, not_isSome_iff_eq_none] at stays
        rw [sourceFile, intact.givenBack row isRow isFirst stays.2]
        simp
  case stats =>
    intro row isRow inode isInode
    dsimp only at isInode ⊢
    rw [number row isRow] at isInode
    obtain ⟨stat, isStat⟩ := isSome_iff_exists.mp
      (written.stats row isRow inode isInode (intact.stats row isRow))
    obtain ⟨other, isOther, sameNumber, source⟩ :=
      written.sources inode stat isStat
    have sameInode : row.2 = other.2 :=
      (intact.links row isRow other isOther).mp (isInode.trans sameNumber.symm)
    rw [isStat, sameInode, source]

/-- What a rebuild keeps, it finds intact. -/
theorem linksIntact_of_keptBy
    (rebuildable : fs.Rebuildable)
    (kept : fs.KeptBy ⟨state.tree, state.db⟩)
    (linked : LinkedRows env fs fs.db.paths state)
    (written : WrittenRows fs fs.db.paths state.db) :
    LinksIntact env fs := by
  have hasStat :
      ∀ row ∈ fs.db.paths, (fs.db.stats.lookup row.2).isSome := by
    intro row isRow
    have isKept := kept.paths row isRow
    dsimp only at isKept
    rw [written.paths, lookup_of_mem rebuildable.primaryKey isRow,
      bind_some] at isKept
    cases isStat : fs.db.stats.lookup row.2 with
    | some stat =>
      rfl
    | none =>
      rw [isStat] at isKept
      cases isKept
  have links :
      ∀ row ∈ fs.db.paths, ∀ other ∈ fs.db.paths,
        (fs.realInode row.1 = fs.realInode other.1 ↔ row.2 = other.2) := by
    intro row isRow other isOther
    rw [← written.number rebuildable isRow (hasStat row isRow),
      ← written.number rebuildable isOther (hasStat other isOther)]
    exact kept.links row isRow other isOther
  refine ⟨hasStat, links, ?_⟩
  intro row isRow notFirst notRefused
  obtain ⟨first, source, node, firstRow, differs, isSource, isNode, after⟩ :=
    linked.repeated isRow notFirst
  have sameIno : fs.realInode first = fs.realInode row.1 :=
    (links (first, row.2) firstRow row isRow).mpr rfl
  obtain ⟨_, _, nodeFile⟩ :=
    rebuildable.isFile isRow firstRow differs isSource isNode sameIno
  obtain ⟨number, _, isNumber⟩ := kept.numbers row isRow
  unfold FakeFs.realInode at isNumber
  dsimp only at isNumber
  rw [after, relinkedNode, notRefused, nodeFile, if_neg (by simp)] at isNumber
  cases linkRefused : env.linkRefused row.1 with
  | none =>
    rfl
  | some err =>
    rw [linkRefused, if_pos (Or.inr isSome_some)] at isNumber
    cases isNumber

/-- A rebuild keeps the store exactly when it finds the links intact. -/
theorem fakefsRebuild_keptBy_iff
    (rebuildable : fs.Rebuildable)
    (succeeds : fakefsRebuild env fs = some next) :
    fs.KeptBy next ↔ LinksIntact env fs := by
  obtain ⟨state, isState, linked, written⟩ :=
    fakefsRebuild_rows env rebuildable
  rw [isState, some.injEq] at succeeds
  rw [← succeeds]
  exact ⟨fun kept => linksIntact_of_keptBy rebuildable kept linked written,
    fun intact => keptBy_of_linksIntact rebuildable intact linked written⟩

/-- A host that refuses no call for a reason of its own. -/
def willingHost : RebuildEnv :=
  ⟨fun _ => none, fun _ => none⟩

/-- Two links of one file in the store, and the files that the host has. -/
def twoPaths (ino : Nat) : FakeFs where
  tree :=
    ⟨[([], ⟨true, 2⟩), ([[97]], ⟨false, 10⟩), ([[98]], ⟨false, ino⟩)]⟩
  db := ⟨[([slash, 97], 1), ([slash, 98], 1)], [(1, ⟨0o100644#32, 0, 0, 0#32⟩)]⟩

theorem twoPaths_nodeAt
    {ino : Nat}
    (isNode : (twoPaths ino).tree.nodeAt place = some node) :
    place = [] ∧ node = ⟨true, 2⟩ ∨
      place = [[97]] ∧ node = ⟨false, 10⟩ ∨
      place = [[98]] ∧ node = ⟨false, ino⟩ := by
  obtain ⟨before, after, areRows, _⟩ := lookup_eq_some_iff.mp isNode
  have isRow : (place, node) ∈ (twoPaths ino).tree.nodes := by
    rw [areRows]
    exact mem_append_right _ (mem_cons_self ..)
  simpa [twoPaths] using isRow

/-- `twoPaths` can be rebuilt. -/
theorem twoPaths_rebuildable
    {ino : Nat}
    (notRoot : ino ≠ 2) :
    (twoPaths ino).Rebuildable := by
  constructor
  case sound =>
    constructor
    case root =>
      exact ⟨2, rfl⟩
    case parents =>
      intro place name node isNode
      rcases twoPaths_nodeAt isNode with ⟨isPlace, _⟩ | ⟨isPlace, _⟩ | ⟨isPlace, _⟩
      · simp at isPlace
      · obtain ⟨rfl, _⟩ := append_eq_singleton_iff.mp isPlace
          |>.resolve_right (by simp)
        exact ⟨2, rfl⟩
      · obtain ⟨rfl, _⟩ := append_eq_singleton_iff.mp isPlace
          |>.resolve_right (by simp)
        exact ⟨2, rfl⟩
    case dirs =>
      intro place other node otherNode isNode isOther sameIno isDir
      rcases twoPaths_nodeAt isNode with ⟨rfl, rfl⟩ | ⟨rfl, rfl⟩ | ⟨rfl, rfl⟩
      · rcases twoPaths_nodeAt isOther with ⟨rfl, rfl⟩ | ⟨rfl, rfl⟩ | ⟨rfl, rfl⟩
        · rfl
        · cases sameIno
        · exact (notRoot sameIno.symm).elim
      · cases isDir
      · cases isDir
    case proper =>
      intro place node isNode name isName
      rcases twoPaths_nodeAt isNode with ⟨rfl, _⟩ | ⟨rfl, _⟩ | ⟨rfl, _⟩
      · cases isName
      · rw [mem_singleton] at isName
        rw [isName]
        exact properName_letter (by decide) (by decide)
      · rw [mem_singleton] at isName
        rw [isName]
        exact properName_letter (by decide) (by decide)
  case primaryKey =>
    have keys : [[slash, 97], [slash, 98]].Nodup := by
      decide
    exact keys
  case normalized =>
    intro row isRow
    simp only [twoPaths, mem_cons, not_mem_nil, or_false] at isRow
    rcases isRow with rfl | rfl
    · exact isNormalized_letter (by decide) (by decide)
    · exact isNormalized_letter (by decide) (by decide)
  case present =>
    intro row isRow
    simp only [twoPaths, mem_cons, not_mem_nil, or_false] at isRow
    rcases isRow with rfl | rfl <;> rfl

/-- A copy that kept the link. -/
theorem fakefsRebuild_keptBy_iff_copied :
    ∃ next, fakefsRebuild willingHost (twoPaths 10) = some next ∧
      ((twoPaths 10).KeptBy next ↔ LinksIntact willingHost (twoPaths 10)) :=
  ⟨_, rfl, fakefsRebuild_keptBy_iff (twoPaths_rebuildable (by decide)) rfl⟩

/-- The second of two separate files is a link again; its number is stale. -/
theorem fakefsRebuild_stale_number :
    (twoPaths 11).Rebuildable ∧
      ∃ next, fakefsRebuild willingHost (twoPaths 11) = some next ∧
      next.db.paths.lookup [slash, 98] = some 11 ∧
      next.realInode [slash, 98] = some 10 ∧
      ¬(twoPaths 11).KeptBy next := by
  refine ⟨twoPaths_rebuildable (by decide), _, rfl, by decide, by decide, ?_⟩
  intro kept
  obtain ⟨number, isNumber, isInode⟩ :=
    kept.numbers ([slash, 98], 1) (by decide)
  have stale : number = 11 := (some.inj isNumber).symm
  have fresh : number = 10 := (some.inj isInode).symm
  omega

end GuestKernel
