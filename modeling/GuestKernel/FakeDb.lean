import GuestKernel.KernelNumbers
import GuestKernel.PathNormalize
import GuestKernel.Rows

namespace GuestKernel
open List

/-!
# The metadata store

`fs/fake-db.c`: the tables `paths` (path, inode) and `stats` (inode, stat), and
the statements on them.  `none` is `die`.
-/

/-- `struct ish_stat`. -/
structure IshStat where
  mode : BitVec 32
  uid : Nat
  gid : Nat
  rdev : BitVec 32
  deriving Repr, DecidableEq

/-- The two tables. -/
structure FakeDb where
  paths : List (PathString × Nat)
  stats : List (Nat × IshStat)
  deriving Repr, DecidableEq

/-- `memcmp` on blobs: a prefix is smaller. -/
def blobLess : PathString → PathString → Bool
  | _, [] => false
  | [], _ :: _ => true
  | byte :: rest, other :: later =>
    if byte = other then blobLess rest later else byte < other

/-- `path >= ? [src plus /] and path < ? [src plus 0]`. -/
def isBelow (src path : PathString) : Bool :=
  !blobLess path (src ++ [slash]) && blobLess path (src ++ [slash + 1])

/-- `change_prefix`. -/
def changePrefix (path : PathString) (start : Nat) (dst : PathString) :
    PathString :=
  dst ++ path.drop start

/-- The new path of a row in the statement of `path_rename`. -/
def renamedPath (src dst path : PathString) : Option PathString :=
  if isBelow src path = true ∨ path = src then
    some (changePrefix path src.length dst)
  else
    none

variable {src path target : PathString}

/-- The range of blobs is the paths below a directory. -/
theorem isBelow_iff :
    isBelow src path = true ↔ ∃ rest, path = src ++ slash :: rest := by
  unfold isBelow
  induction src generalizing path with
  | nil =>
    cases path with
    | nil =>
      simp [blobLess]
    | cons byte rest =>
      by_cases isSlash : byte = slash
      · subst isSlash
        have isLess : slash < slash + 1 := by
          decide
        simp only [nil_append, blobLess]
        simp [isLess]
      · have noPath : ¬∃ later, byte :: rest = [] ++ slash :: later := by
          rintro ⟨later, same⟩
          exact isSlash (List.cons.inj same).1
        rw [iff_false_intro noPath, iff_false]
        simp only [nil_append, blobLess, if_neg isSlash]
        by_cases isNext : byte = slash + 1
        · subst isNext
          simp
        · rw [if_neg isNext, Bool.and_eq_true, Bool.not_eq_true',
            decide_eq_false_iff_not, decide_eq_true_iff]
          rintro ⟨notLess, less⟩
          rw [UInt8.lt_iff_toNat_lt] at notLess less
          have notSame : byte.toNat ≠ slash.toNat := fun same =>
            isSlash (UInt8.toNat_inj.mp same)
          have bound : (slash + 1).toNat = slash.toNat + 1 := rfl
          omega
  | cons byte rest inductionHypothesis =>
    cases path with
    | nil =>
      simp [blobLess]
    | cons other later =>
      by_cases same : other = byte
      · subst same
        simp only [cons_append, blobLess, if_true]
        rw [inductionHypothesis]
        simp
      · have noPath :
            ¬∃ more, other :: later = byte :: rest ++ slash :: more := by
          rintro ⟨more, sameList⟩
          exact same (List.cons.inj sameList).1
        rw [iff_false_intro noPath, iff_false]
        simp only [cons_append, blobLess, if_neg same]
        cases decide (other < byte) <;> decide

/-- The rows that a rename moves, and where to. -/
theorem renamedPath_eq_some_iff
    {dst : PathString} :
    renamedPath src dst path = some target ↔
      ∃ rest,
        path = src ++ rest ∧ target = dst ++ rest ∧
          (rest = [] ∨ rest.head? = some slash) := by
  unfold renamedPath
  rw [Option.ite_none_right_eq_some, isBelow_iff, Option.some.injEq]
  constructor
  · rintro ⟨⟨rest, rfl⟩ | rfl, rfl⟩
    · exact ⟨slash :: rest, rfl, by rw [changePrefix, drop_left], .inr rfl⟩
    · exact ⟨[], (append_nil _).symm,
        by rw [changePrefix, drop_length], .inl rfl⟩
  · rintro ⟨rest, rfl, rfl, isNext⟩
    refine ⟨?_, by rw [changePrefix, drop_left]⟩
    rcases isNext with rfl | isNext
    · exact .inr (append_nil _)
    · cases rest with
      | nil => cases isNext
      | cons byte later =>
        have isSlash : byte = slash := by
          simpa using isNext
        exact .inl ⟨later, isSlash ▸ rfl⟩

theorem renamedPath_injective
    {dst first second : PathString}
    (firstMoves : renamedPath src dst first = some target)
    (secondMoves : renamedPath src dst second = some target) :
    first = second := by
  obtain ⟨rest, rfl, sameTarget, _⟩ := renamedPath_eq_some_iff.mp firstMoves
  obtain ⟨later, rfl, otherTarget, _⟩ := renamedPath_eq_some_iff.mp secondMoves
  rw [sameTarget] at otherTarget
  rw [append_cancel_left otherTarget]

namespace FakeDb

/-- `path_get_inode`; no row has the number 0. -/
def pathGetInode (db : FakeDb) (path : PathString) : Nat :=
  (db.paths.lookup path).getD 0

/-- `path_create`; the row id is the one that SQLite gives the new stat. -/
def pathCreate
    (db : FakeDb) (path : PathString) (stat : IshStat) (rowid : Nat) :
    FakeDb where
  paths := Rows.put path rowid db.paths
  stats := Rows.put rowid stat db.stats

/-- `path_link`. -/
def pathLink (db : FakeDb) (src dst : PathString) : Option FakeDb :=
  if db.pathGetInode src = 0 then
    none
  else
    some { db with paths := Rows.put dst (db.pathGetInode src) db.paths }

/-- `path_unlink`, with the inode of the path. -/
def pathUnlink (db : FakeDb) (path : PathString) : Option (Nat × FakeDb) :=
  if db.pathGetInode path = 0 then
    none
  else
    some (db.pathGetInode path, { db with paths := Rows.takeOut path db.paths })

/--
`path_rename`: one `update or replace`, which takes out the rows that have the
new path of a row.
-/
def pathRename (db : FakeDb) (src dst : PathString) : FakeDb :=
  { db with paths := Rows.relocate (renamedPath src dst) db.paths }

/-- `inode_read_stat_if_exist`. -/
def inodeReadStatIfExist (db : FakeDb) (inode : Nat) : Option IshStat :=
  db.stats.lookup inode

/-- `path_read_stat`. -/
def pathReadStat (db : FakeDb) (path : PathString) : Option (Nat × IshStat) :=
  (db.paths.lookup path).bind fun inode =>
    (db.stats.lookup inode).map fun stat => (inode, stat)

/-- The statement `try_cleanup_inode`. -/
def tryCleanupInode (db : FakeDb) (inode : Nat) : FakeDb :=
  if db.paths.any fun row => row.2 = inode then
    db
  else
    { db with stats := Rows.takeOut inode db.stats }

variable {db : FakeDb}

theorem pathCreate_pathGetInode
    (db : FakeDb)
    (path : PathString)
    (stat : IshStat)
    (rowid : Nat) :
    (db.pathCreate path stat rowid).pathGetInode path = rowid := by
  unfold pathGetInode pathCreate
  rw [Rows.lookup_put_self, Option.getD_some]

@[simp] theorem tryCleanupInode_paths
    (db : FakeDb)
    (inode : Nat) :
    (db.tryCleanupInode inode).paths = db.paths := by
  unfold tryCleanupInode
  split <;> rfl

/-- The cleanup takes the stat of an inode that no path names. -/
theorem tryCleanupInode_stats
    {inode other : Nat}
    (named : other = inode → ∃ path, db.paths.lookup path = some inode) :
    (db.tryCleanupInode inode).stats.lookup other = db.stats.lookup other := by
  unfold tryCleanupInode
  split
  · rfl
  case isFalse isOrphan =>
    refine Rows.lookup_takeOut_of_ne ?_ _
    intro same
    obtain ⟨path, isRow⟩ := named same
    apply isOrphan
    obtain ⟨before, after, sameRows, _⟩ := lookup_eq_some_iff.mp isRow
    rw [sameRows, any_append, any_cons]
    dsimp only
    rw [decide_eq_true rfl, Bool.true_or, Bool.or_true]

end FakeDb

end GuestKernel
