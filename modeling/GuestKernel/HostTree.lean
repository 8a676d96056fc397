import GuestKernel.PathResolution
import GuestKernel.Rows

namespace GuestKernel
open List Option
open Rows

/-!
# The directory tree of the host

A POSIX tree below `mount->root_fd`: every place, the names from the root on,
has a node or none, and files may have several places.  The calls of
`fs/real.c` either fail and change nothing, for a reason in the tree or for one
that `refused` gives, or succeed as POSIX says.
-/

/-- A file or a directory, and its inode on the host. -/
structure HostNode where
  isDir : Bool
  ino : Nat
  deriving Repr, DecidableEq

/-- The nodes of the tree. -/
structure HostTree where
  nodes : List (List PathString × HostNode)
  deriving Repr, DecidableEq

namespace HostTree

/-- The node at a place. -/
def nodeAt (tree : HostTree) (place : List PathString) : Option HostNode :=
  tree.nodes.lookup place

/-- The directory that a place is in. -/
def parentIsDir (tree : HostTree) (place : List PathString) : Bool :=
  place ≠ [] && (tree.nodeAt place.dropLast).any HostNode.isDir

/-- Something is below a place. -/
def hasChildren (tree : HostTree) (place : List PathString) : Bool :=
  tree.nodes.any fun row => place.isPrefixOf row.1 && row.1 ≠ place

/-- `openat`. -/
def openAt
    (tree : HostTree)
    (place : List PathString)
    (creat excl : Bool)
    (ino : Nat)
    (refused : Option Errno) : Except Errno HostTree :=
  match refused, tree.nodeAt place with
  | some err, _ => .error err
  | none, some node =>
    if creat && excl then .error .exist
    else if creat && node.isDir then .error .isdir
    else .ok tree
  | none, none =>
    if creat && tree.parentIsDir place then
      .ok ⟨put place ⟨false, ino⟩ tree.nodes⟩
    else
      .error .noent

/-- `mkdirat`, and `mkfifo`, which makes no directory. -/
def make
    (tree : HostTree)
    (place : List PathString)
    (isDir : Bool)
    (ino : Nat)
    (refused : Option Errno) : Except Errno HostTree :=
  match refused, tree.nodeAt place with
  | some err, _ => .error err
  | none, some _ => .error .exist
  | none, none =>
    if tree.parentIsDir place then
      .ok ⟨put place ⟨isDir, ino⟩ tree.nodes⟩
    else
      .error .noent

/-- `linkat`. -/
def link
    (tree : HostTree)
    (src dst : List PathString)
    (refused : Option Errno) : Except Errno HostTree :=
  match refused, tree.nodeAt src, tree.nodeAt dst with
  | some err, _, _ => .error err
  | none, none, _ => .error .noent
  | none, some _, some _ => .error .exist
  | none, some node, none =>
    if node.isDir then .error .perm
    else if tree.parentIsDir dst then .ok ⟨put dst node tree.nodes⟩
    else .error .noent

/-- `unlinkat` without `AT_REMOVEDIR`. -/
def unlink
    (tree : HostTree)
    (place : List PathString)
    (refused : Option Errno) : Except Errno HostTree :=
  match refused, tree.nodeAt place with
  | some err, _ => .error err
  | none, none => .error .noent
  | none, some node =>
    if node.isDir then .error .isdir
    else .ok ⟨takeOut place tree.nodes⟩

/-- `unlinkat` with `AT_REMOVEDIR`. -/
def rmdir
    (tree : HostTree)
    (place : List PathString)
    (refused : Option Errno) : Except Errno HostTree :=
  match refused, tree.nodeAt place with
  | some err, _ => .error err
  | none, none => .error .noent
  | none, some node =>
    if node.isDir = false then .error .notdir
    else if place = [] then .error .inval
    else if tree.hasChildren place then .error .notempty
    else .ok ⟨takeOut place tree.nodes⟩

/-- Where a rename takes a place. -/
def renamedPlace (src dst place : List PathString) :
    Option (List PathString) :=
  if src.isPrefixOf place then some (dst ++ place.drop src.length) else none

/-- `renameat`; two links of one file are left as they are. -/
def rename
    (tree : HostTree)
    (src dst : List PathString)
    (refused : Option Errno) : Except Errno HostTree :=
  match refused, tree.nodeAt src with
  | some err, _ => .error err
  | none, none => .error .noent
  | none, some node =>
    if src = [] ∨ dst = [] then .error .busy
    else if tree.parentIsDir dst = false then .error .noent
    else
      match tree.nodeAt dst with
      | none =>
        if node.isDir && src.isPrefixOf dst then .error .inval
        else .ok ⟨relocate (renamedPlace src dst) tree.nodes⟩
      | some target =>
        if target.ino = node.ino then .ok tree
        else if node.isDir && src.isPrefixOf dst then .error .inval
        else if node.isDir && !target.isDir then .error .notdir
        else if !node.isDir && target.isDir then .error .isdir
        else if tree.hasChildren dst then .error .notempty
        else .ok ⟨relocate (renamedPlace src dst) tree.nodes⟩

/-- A tree: directories hold what is in them and have one place each. -/
structure Sound (tree : HostTree) : Prop where
  root : ∃ ino, tree.nodeAt [] = some ⟨true, ino⟩
  parents :
    ∀ place name node, tree.nodeAt (place ++ [name]) = some node →
      ∃ ino, tree.nodeAt place = some ⟨true, ino⟩
  dirs :
    ∀ place other node otherNode,
      tree.nodeAt place = some node → tree.nodeAt other = some otherNode →
      node.ino = otherNode.ino → node.isDir = true → place = other
  proper :
    ∀ place node, tree.nodeAt place = some node →
      ∀ name ∈ place, ProperName name

variable {tree : HostTree}

variable {place rest : List PathString} {node : HostNode}

/-- Above a node there are directories. -/
theorem Sound.above
    (sound : tree.Sound)
    (isNode : tree.nodeAt (place ++ rest) = some node)
    (isBelow : rest ≠ []) :
    ∃ ino, tree.nodeAt place = some ⟨true, ino⟩ := by
  induction rest using List.reverseRecOn generalizing node with
  | nil =>
    exact (isBelow rfl).elim
  | append_singleton rest name inductionHypothesis =>
    rw [← append_assoc] at isNode
    obtain ⟨ino, isDir⟩ := sound.parents _ _ _ isNode
    by_cases isChild : rest = []
    · rw [isChild, append_nil] at isDir
      exact ⟨ino, isDir⟩
    · exact inductionHypothesis isDir isChild

theorem exists_of_parentIsDir
    (hasParent : tree.parentIsDir place = true) :
    place ≠ [] ∧ ∃ ino, tree.nodeAt place.dropLast = some ⟨true, ino⟩ := by
  unfold parentIsDir at hasParent
  rw [Bool.and_eq_true, decide_eq_true_iff, Option.any_eq_true] at hasParent
  obtain ⟨notRoot, ⟨isDir, ino⟩, isNode, isDirectory⟩ := hasParent
  dsimp only at isDirectory
  rw [isDirectory] at isNode
  exact ⟨notRoot, ino, isNode⟩

/-- Nothing is below a place without children. -/
theorem nodeAt_of_not_hasChildren
    (noChildren : tree.hasChildren place = false)
    (isBelow : rest ≠ []) :
    tree.nodeAt (place ++ rest) = none := by
  unfold nodeAt
  rw [lookup_eq_none_iff]
  intro row isRow
  rw [bne_iff_ne]
  intro same
  have notBelow := List.any_eq_false.mp noChildren row isRow
  apply notBelow
  rw [← same, Bool.and_eq_true, isPrefixOf_iff_prefix,
    decide_eq_true_iff]
  refine ⟨prefix_append .., ?_⟩
  rw [Ne, append_right_eq_self]
  exact isBelow

/-- The tree with a node at one more place. -/
def added (tree : HostTree) (place : List PathString) (node : HostNode) :
    HostTree :=
  ⟨put place node tree.nodes⟩

/-- The tree without a place. -/
def removed (tree : HostTree) (place : List PathString) : HostTree :=
  ⟨takeOut place tree.nodes⟩

theorem removed_added
    (isFree : tree.nodeAt place = none)
    (node : HostNode) :
    (tree.added place node).removed place = tree :=
  congrArg HostTree.mk (takeOut_put isFree node)

/-- A new place for a new node, or for a file. -/
theorem Sound.added
    (sound : tree.Sound)
    (isFree : tree.nodeAt place = none)
    (hasParent : tree.parentIsDir place = true)
    (proper : ∀ name ∈ place, ProperName name)
    (isFile :
      ∀ other otherNode, tree.nodeAt other = some otherNode →
        otherNode.ino = node.ino →
        otherNode.isDir = false ∧ node.isDir = false) :
    (tree.added place node).Sound := by
  obtain ⟨notRoot, parentIno, isParent⟩ := exists_of_parentIsDir hasParent
  have atPlace :
      (tree.added place node).nodeAt place = some node :=
    lookup_put_self ..
  have elsewhere :
      ∀ other, other ≠ place →
        (tree.added place node).nodeAt other = tree.nodeAt other :=
    fun other differs => lookup_put_of_ne differs ..
  constructor
  case root =>
    rw [elsewhere [] notRoot.symm]
    exact sound.root
  case parents =>
    intro other name otherNode isNode
    by_cases same : other ++ [name] = place
    · have notItself : other ≠ place := by
        intro isSame
        rw [isSame, append_right_eq_self] at same
        cases same
      rw [elsewhere other notItself]
      rw [← same, dropLast_concat] at isParent
      exact ⟨parentIno, isParent⟩
    · rw [elsewhere _ same] at isNode
      obtain ⟨ino, isDir⟩ := sound.parents other name otherNode isNode
      refine ⟨ino, ?_⟩
      rw [elsewhere other, isDir]
      rintro rfl
      rw [isFree] at isDir
      cases isDir
  case dirs =>
    intro first second firstNode secondNode isFirst isSecond sameIno isDir
    by_cases firstNew : first = place
    · by_cases secondNew : second = place
      · rw [firstNew, secondNew]
      · rw [elsewhere second secondNew] at isSecond
        rw [firstNew, atPlace] at isFirst
        cases isFirst
        rw [(isFile second secondNode isSecond sameIno.symm).2] at isDir
        cases isDir
    · rw [elsewhere first firstNew] at isFirst
      by_cases secondNew : second = place
      · rw [secondNew, atPlace] at isSecond
        cases isSecond
        rw [(isFile first firstNode isFirst sameIno).1] at isDir
        cases isDir
      · rw [elsewhere second secondNew] at isSecond
        exact sound.dirs first second firstNode secondNode isFirst isSecond
          sameIno isDir
  case proper =>
    intro other otherNode isNode
    by_cases same : other = place
    · rw [same]
      exact proper
    · rw [elsewhere other same] at isNode
      exact sound.proper other otherNode isNode

/-- A place that nothing is below goes. -/
theorem Sound.removed
    (sound : tree.Sound)
    (notRoot : place ≠ [])
    (noChildren : ∀ name, tree.nodeAt (place ++ [name]) = none) :
    (tree.removed place).Sound := by
  have gone : (tree.removed place).nodeAt place = none :=
    lookup_takeOut_self ..
  have elsewhere :
      ∀ other, other ≠ place →
        (tree.removed place).nodeAt other = tree.nodeAt other :=
    fun other differs => lookup_takeOut_of_ne differs ..
  have wasNode :
      ∀ other node,
        (tree.removed place).nodeAt other = some node →
        tree.nodeAt other = some node := by
    intro other node isNode
    by_cases same : other = place
    · rw [same, gone] at isNode
      cases isNode
    · rw [← elsewhere other same]
      exact isNode
  constructor
  case root =>
    rw [elsewhere [] notRoot.symm]
    exact sound.root
  case parents =>
    intro other name node isNode
    have before := wasNode _ node isNode
    rw [elsewhere other]
    · exact sound.parents other name node before
    · rintro rfl
      rw [noChildren name] at before
      cases before
  case dirs =>
    intro first second firstNode secondNode isFirst isSecond
    exact sound.dirs first second firstNode secondNode
      (wasNode first firstNode isFirst) (wasNode second secondNode isSecond)
  case proper =>
    exact fun other node isNode =>
      sound.proper other node (wasNode other node isNode)

variable {refused : Option Errno} {next : HostTree}

theorem openAt_ok
    {creat excl : Bool}
    {ino : Nat}
    (ok : tree.openAt place creat excl ino refused = .ok next) :
    (next = tree ∧ (creat && excl) = false ∧ (tree.nodeAt place).isSome) ∨
      (next = tree.added place ⟨false, ino⟩ ∧ creat = true ∧
        tree.nodeAt place = none ∧ tree.parentIsDir place = true) := by
  unfold openAt at ok
  cases refused with
  | some err => cases ok
  | none =>
    cases isNode : tree.nodeAt place with
    | some node =>
      rw [isNode] at ok
      dsimp only at ok
      split at ok
      · cases ok
      case isFalse notExclusive =>
        split at ok
        · cases ok
        · cases ok
          exact .inl ⟨rfl, Bool.of_not_eq_true notExclusive, rfl⟩
    | none =>
      rw [isNode] at ok
      dsimp only at ok
      split at ok
      case isTrue creates =>
        cases ok
        rw [Bool.and_eq_true] at creates
        exact .inr ⟨rfl, creates.1, rfl, creates.2⟩
      · cases ok

theorem make_ok
    {isDir : Bool}
    {ino : Nat}
    (ok : tree.make place isDir ino refused = .ok next) :
    next = tree.added place ⟨isDir, ino⟩ ∧
      tree.nodeAt place = none ∧ tree.parentIsDir place = true := by
  unfold make at ok
  cases refused with
  | some err => cases ok
  | none =>
    cases isNode : tree.nodeAt place with
    | some node =>
      rw [isNode] at ok
      cases ok
    | none =>
      rw [isNode] at ok
      dsimp only at ok
      split at ok
      case isTrue hasParent =>
        cases ok
        exact ⟨rfl, rfl, hasParent⟩
      · cases ok

theorem link_ok
    {src dst : List PathString}
    (ok : tree.link src dst refused = .ok next) :
    ∃ node,
      next = tree.added dst node ∧ tree.nodeAt src = some node ∧
        node.isDir = false ∧ tree.nodeAt dst = none ∧
        tree.parentIsDir dst = true := by
  unfold link at ok
  cases refused with
  | some err => cases ok
  | none =>
    cases isSource : tree.nodeAt src with
    | none =>
      rw [isSource] at ok
      cases ok
    | some node =>
      cases isTarget : tree.nodeAt dst with
      | some target =>
        rw [isSource, isTarget] at ok
        cases ok
      | none =>
        rw [isSource, isTarget] at ok
        dsimp only at ok
        split at ok
        · cases ok
        case isFalse notDir =>
          split at ok
          case isTrue hasParent =>
            cases ok
            exact ⟨node, rfl, rfl, Bool.of_not_eq_true notDir, rfl,
              hasParent⟩
          · cases ok

/-- A place that can go. -/
structure Removable (tree : HostTree) (place : List PathString) : Prop where
  notRoot : place ≠ []
  isThere : (tree.nodeAt place).isSome
  free : ∀ rest, rest ≠ [] → tree.nodeAt (place ++ rest) = none

theorem Sound.nodeAt_below_file
    (sound : tree.Sound)
    (isNode : tree.nodeAt place = some node)
    (isFile : node.isDir = false)
    (isBelow : rest ≠ []) :
    tree.nodeAt (place ++ rest) = none := by
  by_contra isThere
  obtain ⟨below, isThere⟩ := ne_none_iff_exists'.mp isThere
  obtain ⟨ino, isDirectory⟩ := sound.above isThere isBelow
  rw [isNode] at isDirectory
  cases isDirectory
  cases isFile

theorem unlink_ok
    (sound : tree.Sound)
    (ok : tree.unlink place refused = .ok next) :
    next = tree.removed place ∧ tree.Removable place := by
  unfold unlink at ok
  cases refused with
  | some err => cases ok
  | none =>
    cases isNode : tree.nodeAt place with
    | none =>
      rw [isNode] at ok
      cases ok
    | some node =>
      rw [isNode] at ok
      dsimp only at ok
      split at ok
      · cases ok
      case isFalse notDir =>
        cases ok
        have isFile := Bool.of_not_eq_true notDir
        refine ⟨rfl, ?_, ?_, fun rest =>
          sound.nodeAt_below_file isNode isFile⟩
        · rintro rfl
          obtain ⟨ino, isRoot⟩ := sound.root
          rw [isNode] at isRoot
          cases isRoot
          cases isFile
        · rw [isNode]
          rfl

theorem rmdir_ok
    (ok : tree.rmdir place refused = .ok next) :
    next = tree.removed place ∧ tree.Removable place := by
  unfold rmdir at ok
  cases refused with
  | some err => cases ok
  | none =>
    cases isNode : tree.nodeAt place with
    | none =>
      rw [isNode] at ok
      cases ok
    | some node =>
      rw [isNode] at ok
      dsimp only at ok
      split at ok
      · cases ok
      · split at ok
        · cases ok
        case isFalse notRoot =>
          split at ok
          · cases ok
          case isFalse noChildren =>
            cases ok
            refine ⟨rfl, notRoot, ?_, fun rest =>
              nodeAt_of_not_hasChildren (Bool.of_not_eq_true noChildren)⟩
            rw [isNode]
            rfl

/-- The place from where a rename takes what is at a place afterwards. -/
def origin (src dst place : List PathString) : Option (List PathString) :=
  if dst.isPrefixOf place then some (src ++ place.drop dst.length)
  else if src.isPrefixOf place then none
  else some place

/-- The two kinds of places that are taken after a rename. -/
theorem origin_eq_some_iff
    {src dst old : List PathString} :
    origin src dst place = some old ↔
      (∃ rest, place = dst ++ rest ∧ old = src ++ rest) ∨
        ¬dst <+: place ∧ ¬src <+: place ∧ old = place := by
  unfold origin
  by_cases isBelow : dst <+: place
  · obtain ⟨rest, rfl⟩ := isBelow
    rw [if_pos ( isPrefixOf_iff_prefix.mpr (prefix_append ..)),
      drop_left, some.injEq]
    constructor
    · rintro rfl
      exact .inl ⟨rest, rfl, rfl⟩
    · rintro (⟨other, same, rfl⟩ | ⟨notBelow, _⟩)
      · rw [append_cancel_left same]
      · exact (notBelow (prefix_append ..)).elim
  · have notDst : ¬dst.isPrefixOf place = true := fun isPrefix =>
      isBelow ( isPrefixOf_iff_prefix.mp isPrefix)
    have noRest : ¬∃ rest, place = dst ++ rest ∧ old = src ++ rest := by
      rintro ⟨rest, rfl, _⟩
      exact isBelow (prefix_append ..)
    rw [if_neg notDst, or_iff_right noRest, and_iff_right isBelow]
    by_cases isSource : src <+: place
    · rw [if_pos ( isPrefixOf_iff_prefix.mpr isSource)]
      constructor
      · intro taken
        cases taken
      · rintro ⟨notSource, _⟩
        exact (notSource isSource).elim
    · rw [if_neg fun isPrefix =>
          isSource ( isPrefixOf_iff_prefix.mp isPrefix),
        and_iff_right isSource, some.injEq]
      exact eq_comm

theorem renamedPlace_eq_some_iff
    {src dst target : List PathString} :
    renamedPlace src dst place = some target ↔
      ∃ rest, place = src ++ rest ∧ target = dst ++ rest := by
  unfold renamedPlace
  rw [ite_none_right_eq_some, isPrefixOf_iff_prefix,
    some.injEq]
  constructor
  · rintro ⟨⟨rest, rfl⟩, rfl⟩
    exact ⟨rest, rfl, by rw [drop_left]⟩
  · rintro ⟨rest, rfl, rfl⟩
    exact ⟨prefix_append .., by rw [drop_left]⟩

/-- The tree after the rename of a place to another. -/
def renamed (tree : HostTree) (src dst : List PathString) : HostTree :=
  ⟨relocate (renamedPlace src dst) tree.nodes⟩

/-- A rename that takes what is below a place to a place below no node. -/
structure Renames (tree : HostTree) (src dst : List PathString) : Prop where
  notRoot : src ≠ []
  isSource : (tree.nodeAt src).isSome
  hasParent : tree.parentIsDir dst = true
  apart : ¬src <+: dst
  free : ∀ rest, rest ≠ [] → tree.nodeAt (dst ++ rest) = none

variable {src dst : List PathString}

theorem Renames.not_above
    (renames : tree.Renames src dst) :
    ¬dst <+: src := by
  rintro ⟨rest, rfl⟩
  have isSource := renames.isSource
  by_cases isSame : rest = []
  · rw [isSame, append_nil] at renames
    exact renames.apart (prefix_refl _)
  · rw [renames.free rest isSame] at isSource
    cases isSource

theorem Renames.disjoint
    {first second : List PathString}
    (renames : tree.Renames src dst) :
    src ++ first ≠ dst ++ second := by
  intro same
  rcases append_eq_append_iff.mp same with
    ⟨middle, rfl, _⟩ | ⟨middle, rfl, _⟩
  · exact renames.apart (prefix_append ..)
  · exact renames.not_above (prefix_append ..)

/-- Rows relocated along with the places of a rename lie at their origins. -/
theorem Renames.lookup_relocate
    {Key Value : Type}
    [BEq Key]
    [LawfulBEq Key]
    {move : Key → Option Key}
    {rows : List (Key × Value)}
    {key : List PathString → Key}
    {place : List PathString}
    (renames : tree.Renames src dst)
    (injective :
      ∀ first second target,
        move first = some target → move second = some target →
        first = second)
    (moves :
      ∀ rest, move (key (src ++ rest)) = some (key (dst ++ rest)))
    (stays : ¬src <+: place → move (key place) = none)
    (comesBelow : ∀ old, move old = some (key place) → dst <+: place)
    (isRow : rows.lookup (key src) ≠ none)
    (free : tree.nodeAt place = none → rows.lookup (key place) = none) :
    (relocate move rows).lookup (key place) =
      (origin src dst place).bind fun old => rows.lookup (key old) := by
  cases isOrigin : origin src dst place with
  | none =>
    have notBelow : ¬dst <+: place := by
      rintro ⟨rest, rfl⟩
      rw [origin_eq_some_iff.mpr (.inl ⟨rest, rfl, rfl⟩)] at isOrigin
      cases isOrigin
    have isSource : src <+: place := by
      by_contra notSource
      rw [origin_eq_some_iff.mpr (.inr ⟨notBelow, notSource, rfl⟩)]
        at isOrigin
      cases isOrigin
    obtain ⟨rest, rfl⟩ := isSource
    exact lookup_relocate_of_gone (moves rest) fun old movesThere =>
      (notBelow (comesBelow old movesThere)).elim
  | some old =>
    rw [bind_some]
    rcases origin_eq_some_iff.mp isOrigin with
      ⟨rest, rfl, rfl⟩ | ⟨notBelow, notSource, rfl⟩
    · cases isThere : rows.lookup (key (src ++ rest)) with
      | some value =>
        exact lookup_relocate_of_moves injective (moves rest) isThere
      | none =>
        have notEmpty : rest ≠ [] := by
          rintro rfl
          rw [append_nil] at isThere
          exact isRow isThere
        rw [lookup_relocate_of_stays]
        · exact free (renames.free rest notEmpty)
        · refine stays ?_
          rintro ⟨later, same⟩
          exact renames.disjoint same
        · intro other movesThere
          rw [injective other _ _ movesThere (moves rest), isThere]
    · exact lookup_relocate_of_stays (stays notSource)
        fun other movesThere =>
          (notBelow (comesBelow other movesThere)).elim

/-- After a rename, a place has the node of its origin. -/
theorem Renames.nodeAt_renamed
    (renames : tree.Renames src dst)
    (place : List PathString) :
    (tree.renamed src dst).nodeAt place =
      (origin src dst place).bind tree.nodeAt := by
  refine @Renames.lookup_relocate _ _ _ _ _ _ _ _ tree.nodes id _ renames ?_
    (fun rest => renamedPlace_eq_some_iff.mpr ⟨rest, rfl, rfl⟩)
    ?_ ?_ (isSome_iff_ne_none.mp renames.isSource) fun isFree => isFree
  · intro first second target firstMoves secondMoves
    obtain ⟨rest, rfl, rfl⟩ := renamedPlace_eq_some_iff.mp firstMoves
    obtain ⟨later, rfl, same⟩ := renamedPlace_eq_some_iff.mp secondMoves
    rw [append_cancel_left same]
  · intro notSource
    rw [eq_none_iff_forall_ne_some]
    intro target moved
    obtain ⟨later, same, _⟩ := renamedPlace_eq_some_iff.mp moved
    exact notSource ⟨later, same.symm⟩
  · intro old movesThere
    obtain ⟨later, _, same⟩ := renamedPlace_eq_some_iff.mp movesThere
    exact ⟨later, same.symm⟩

/-- A rename leaves a tree. -/
theorem Sound.renamed
    (sound : tree.Sound)
    (renames : tree.Renames src dst)
    (proper : ∀ name ∈ dst, ProperName name) :
    (tree.renamed src dst).Sound := by
  have unmoved :
      ∀ place, ¬dst <+: place → ¬src <+: place →
        (tree.renamed src dst).nodeAt place = tree.nodeAt place := by
    intro place notBelow notSource
    rw [renames.nodeAt_renamed,
      origin_eq_some_iff.mpr (.inr ⟨notBelow, notSource, rfl⟩)]
    rfl
  have moved :
      ∀ rest,
        (tree.renamed src dst).nodeAt (dst ++ rest) =
          tree.nodeAt (src ++ rest) := by
    intro rest
    rw [renames.nodeAt_renamed, origin_eq_some_iff.mpr (.inl ⟨rest, rfl, rfl⟩)]
    rfl
  have wasNode :
      ∀ place node, (tree.renamed src dst).nodeAt place = some node →
        ∃ old, origin src dst place = some old ∧
          tree.nodeAt old = some node := by
    intro place node isNode
    rw [renames.nodeAt_renamed] at isNode
    exact bind_eq_some_iff.mp isNode
  obtain ⟨dstNotRoot, parentIno, isParent⟩ :=
    exists_of_parentIsDir renames.hasParent
  constructor
  case root =>
    rw [unmoved []]
    · exact sound.root
    · exact fun isPrefix => dstNotRoot (prefix_nil.mp isPrefix)
    · exact fun isPrefix => renames.notRoot (prefix_nil.mp isPrefix)
  case parents =>
    intro place name node isNode
    obtain ⟨old, isOrigin, wasAt⟩ := wasNode _ node isNode
    rcases origin_eq_some_iff.mp isOrigin with
      ⟨rest, isPlace, rfl⟩ | ⟨notBelow, notSource, rfl⟩
    · rcases eq_nil_or_concat rest with rfl | ⟨front, last, rfl⟩
      · rw [append_nil] at isPlace
        rw [← isPlace, dropLast_concat] at isParent
        refine ⟨parentIno, ?_⟩
        rw [unmoved place, isParent]
        · rintro ⟨more, rfl⟩
          have sameLength := congrArg List.length isPlace
          simp at sameLength
        · intro isPrefix
          exact renames.apart
            (isPlace ▸ isPrefix.trans (prefix_append ..))
      · rw [concat_eq_append, ← append_assoc] at isPlace
        rw [concat_eq_append, ← append_assoc] at wasAt
        obtain ⟨rfl, _⟩ := append_inj' isPlace rfl
        rw [moved front]
        exact sound.parents _ _ _ wasAt
    · rw [unmoved place]
      · exact sound.parents place name node wasAt
      · exact fun isPrefix =>
          notBelow (isPrefix.trans (prefix_append ..))
      · exact fun isPrefix =>
          notSource (isPrefix.trans (prefix_append ..))
  case dirs =>
    intro first second firstNode secondNode isFirst isSecond sameIno isDir
    obtain ⟨old, isOrigin, wasFirst⟩ := wasNode first firstNode isFirst
    obtain ⟨other, isOther, wasSecond⟩ := wasNode second secondNode isSecond
    have same := sound.dirs old other firstNode secondNode wasFirst wasSecond
      sameIno isDir
    subst same
    rcases origin_eq_some_iff.mp isOrigin with
      ⟨rest, rfl, rfl⟩ | ⟨_, notSource, rfl⟩
    · rcases origin_eq_some_iff.mp isOther with
        ⟨later, rfl, sameOld⟩ | ⟨_, notSource, rfl⟩
      · rw [append_cancel_left sameOld]
      · exact (notSource (prefix_append ..)).elim
    · rcases origin_eq_some_iff.mp isOther with
        ⟨later, rfl, rfl⟩ | ⟨_, _, same⟩
      · exact (notSource (prefix_append ..)).elim
      · exact same
  case proper =>
    intro place node isNode name isName
    obtain ⟨old, isOrigin, wasAt⟩ := wasNode place node isNode
    rcases origin_eq_some_iff.mp isOrigin with
      ⟨rest, rfl, rfl⟩ | ⟨_, _, rfl⟩
    · rcases mem_append.mp isName with isDst | isRest
      · exact proper name isDst
      · exact sound.proper _ node wasAt name (mem_append_right _ isRest)
    · exact sound.proper _ node wasAt name isName

/-- A rename over a place with nothing below it. -/
private theorem Sound.renames
    (sound : tree.Sound)
    (isSource : tree.nodeAt src = some node)
    (notRoot : ¬(src = [] ∨ dst = []))
    (hasParent : ¬tree.parentIsDir dst = false)
    (notSame : src ≠ dst)
    (notInside : ¬(node.isDir && src.isPrefixOf dst) = true)
    (free : ∀ rest, rest ≠ [] → tree.nodeAt (dst ++ rest) = none) :
    tree.Renames src dst where
  notRoot := fun isRoot => notRoot (.inl isRoot)
  isSource := by
    rw [isSource]
    rfl
  hasParent := Bool.of_not_eq_false hasParent
  apart := by
    rintro ⟨rest, isDst⟩
    have notEmpty : rest ≠ [] := by
      rintro rfl
      rw [append_nil] at isDst
      exact notSame isDst
    rcases eq_nil_or_concat rest with rfl | ⟨front, last, rfl⟩
    · exact notEmpty rfl
    · obtain ⟨_, ino, isParent⟩ :=
        exists_of_parentIsDir (Bool.of_not_eq_false hasParent)
      rw [← isDst, concat_eq_append, ← append_assoc,
        dropLast_concat] at isParent
      have isDir : node.isDir = true := by
        by_cases isSame : front = []
        · rw [isSame, append_nil, isSource] at isParent
          cases isParent
          rfl
        · obtain ⟨srcIno, isSrc⟩ := sound.above isParent isSame
          rw [isSource] at isSrc
          cases isSrc
          rfl
      apply notInside
      rw [isDir, Bool.true_and, isPrefixOf_iff_prefix, ← isDst]
      exact prefix_append ..
  free := free

/-- A rename leaves two links of one file, or takes the source to the target. -/
theorem rename_ok
    (sound : tree.Sound)
    (ok : tree.rename src dst refused = .ok next) :
    (next = tree ∧
        ∃ node target,
          tree.nodeAt src = some node ∧ tree.nodeAt dst = some target ∧
            target.ino = node.ino) ∨
      (next = tree.renamed src dst ∧ tree.Renames src dst) := by
  unfold rename at ok
  cases refused with
  | some err => cases ok
  | none =>
    cases isSource : tree.nodeAt src with
    | none =>
      rw [isSource] at ok
      cases ok
    | some node =>
      rw [isSource] at ok
      dsimp only at ok
      split at ok
      · cases ok
      case isFalse notRoot =>
        split at ok
        · cases ok
        case isFalse hasParent =>
          cases isTarget : tree.nodeAt dst with
          | none =>
            rw [isTarget] at ok
            dsimp only at ok
            split at ok
            · cases ok
            case isFalse notInside =>
              cases ok
              refine .inr ⟨rfl, sound.renames isSource notRoot hasParent
                ?_ notInside ?_⟩
              · rintro rfl
                rw [isSource] at isTarget
                cases isTarget
              · intro rest isBelow
                by_contra isNode
                obtain ⟨below, isNode⟩ :=
                  ne_none_iff_exists'.mp isNode
                obtain ⟨ino, isDir⟩ := sound.above isNode isBelow
                rw [isTarget] at isDir
                cases isDir
          | some target =>
            rw [isTarget] at ok
            dsimp only at ok
            split at ok
            case isTrue sameIno =>
              cases ok
              exact .inl ⟨rfl, node, target, rfl, rfl, sameIno⟩
            case isFalse otherIno =>
              split at ok
              · cases ok
              case isFalse notInside =>
                split at ok
                · cases ok
                · split at ok
                  · cases ok
                  · split at ok
                    · cases ok
                    case isFalse noChildren =>
                      cases ok
                      refine .inr ⟨rfl, sound.renames isSource notRoot
                        hasParent ?_ notInside ?_⟩
                      · rintro rfl
                        rw [isSource] at isTarget
                        cases isTarget
                        exact otherIno rfl
                      · intro rest isBelow
                        exact nodeAt_of_not_hasChildren
                          (Bool.of_not_eq_true noChildren) isBelow

end HostTree

end GuestKernel
