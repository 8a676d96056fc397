import GuestKernel.FakeDb
import GuestKernel.UpdateOrReplace

namespace GuestKernel
open List

/-!
# The statement of `path_rename`

`fs/fake-db.c`: `update or replace paths set path = change_prefix(path, ?, ?)
where (path >= ? and path < ?) or path = ?`, one row after the other, in an
order that SQLite does not promise.
-/

/-- A row of `paths`, with its inode. -/
abbrev PathRow := TableRow PathString Nat

/-- The table `paths`; its primary key is a blob, or `NULL`. -/
structure PathsTable where
  rows : List PathRow
  apart : rows.Pairwise TableRow.Apart

/--
`sqlite_func_change_prefix`.  `sqlite3_malloc` has no memory of size 0, and the
blob at no memory is `NULL`.
-/
def sqliteFuncChangePrefix
    (start : Nat) (dst path : PathString) : Option PathString :=
  if changePrefix path start dst = [] then
    none
  else
    some (changePrefix path start dst)

/-- The condition of the statement, which `NULL` does not meet. -/
def isRenamed (src : PathString) (row : PathRow) : Bool :=
  row.key.any fun path => isBelow src path || path == src

/-- The rows that meet the condition, in some order. -/
structure RenameOrder (table : PathsTable) (src : PathString) where
  visit : List Nat
  perm :
    visit.Perm ((table.rows.filter (isRenamed src)).map TableRow.rowid)

/-- `path_rename`. -/
def PathsTable.pathRename
    (table : PathsTable)
    {src : PathString}
    (order : RenameOrder table src)
    (dst : PathString) : PathsTable where
  rows :=
    updateOrReplace (sqliteFuncChangePrefix src.length dst) order.visit
      table.rows
  apart := apart_updateOrReplace table.apart _

/-- What follows `src` in `src` itself, or in a path below it. -/
def IsBelowPart (rest : PathString) : Prop :=
  rest = [] ∨ rest.head? = some slash

/-- The row has the path `src` followed by this part, or a path below. -/
def IsAt (src : PathString) (row : PathRow) (rest : PathString) : Prop :=
  row.key = some (src ++ rest) ∧ IsBelowPart rest

/-- A row is renamed to the path that this row has. -/
def IsDisplaced
    (src dst : PathString) (rows : List PathRow) (row : PathRow) : Prop :=
  ∃ other ∈ rows, ∃ rest,
    IsAt src other rest ∧ row.key = some (dst ++ rest)

/--
The rows at and below `src` have `dst` in its place and keep their inodes; of
the others exactly those are gone whose paths they now have; and no row is new.
-/
structure Renamed
    (src dst : PathString) (before after : List PathRow) : Prop where
  moved :
    ∀ row ∈ before, ∀ rest,
      IsAt src row rest → { row with key := some (dst ++ rest) } ∈ after
  kept :
    ∀ row ∈ before,
      (∀ rest, ¬IsAt src row rest) →
      ¬IsDisplaced src dst before row → row ∈ after
  only :
    ∀ row ∈ after,
      (∃ old ∈ before, ∃ rest,
          IsAt src old rest ∧
            row = { old with key := some (dst ++ rest) }) ∨
        row ∈ before ∧ (∀ rest, ¬IsAt src row rest) ∧
          ¬IsDisplaced src dst before row

variable
  {table : PathsTable}
  {src dst path : PathString}
  {row other : PathRow}
  {rest later : PathString}

/-- The condition selects the rows at and below `src`. -/
theorem isRenamed_iff :
    isRenamed src row = true ↔ ∃ rest, IsAt src row rest := by
  unfold isRenamed IsAt
  cases row.key with
  | none => simp
  | some path =>
    rw [Option.any_some, Bool.or_eq_true, isBelow_iff, beq_iff_eq]
    constructor
    · rintro (⟨rest, rfl⟩ | rfl)
      · exact ⟨slash :: rest, rfl, .inr rfl⟩
      · exact ⟨[], by rw [append_nil], .inl rfl⟩
    · rintro ⟨rest, isPath, rfl | isNext⟩
      · exact .inr ((Option.some.inj isPath).trans (append_nil src))
      · obtain ⟨later, rfl⟩ := List.head?_eq_some_iff.mp isNext
        exact .inl ⟨later, Option.some.inj isPath⟩

theorem IsAt.newKey
    (isAt : IsAt src row rest) :
    row.newKey (sqliteFuncChangePrefix src.length dst) =
      if dst ++ rest = [] then none else some (dst ++ rest) := by
  unfold TableRow.newKey sqliteFuncChangePrefix changePrefix
  rw [isAt.1, Option.bind_some, drop_left]

theorem IsAt.newKey_of_ne
    (isAt : IsAt src row rest)
    (notRoot : dst ≠ []) :
    row.newKey (sqliteFuncChangePrefix src.length dst) =
      some (dst ++ rest) := by
  rw [isAt.newKey, if_neg]
  exact fun isRoot => notRoot (append_eq_nil_iff.mp isRoot).1

section

variable (order : RenameOrder table src)
include order

theorem RenameOrder.mem_visit
    (isRow : row ∈ table.rows) :
    row.rowid ∈ order.visit ↔ ∃ rest, IsAt src row rest := by
  rw [order.perm.mem_iff, List.mem_map, ← isRenamed_iff]
  constructor
  · rintro ⟨other, isOther, same⟩
    obtain ⟨isOther, isRenamed⟩ := mem_filter.mp isOther
    have sameRow :=
      inj_on_of_nodup_map (nodup_rowids table.apart) isOther isRow same
    exact sameRow ▸ isRenamed
  · exact fun isRenamed =>
      ⟨row, mem_filter.mpr ⟨isRow, isRenamed⟩, rfl⟩

/-- Each of them once, and they get different paths. -/
theorem RenameOrder.visits
    (dst : PathString) :
    Visits (sqliteFuncChangePrefix src.length dst) table.rows
      order.visit := by
  constructor
  case unique =>
    exact nodup_rowids table.apart
  case once =>
    refine order.perm.nodup_iff.mpr ?_
    exact (nodup_rowids table.apart).sublist
      (filter_sublist.map TableRow.rowid)
  case present =>
    intro rowid inVisit
    obtain ⟨row, isRow, same⟩ :=
      List.mem_map.mp (order.perm.mem_iff.mp inVisit)
    exact ⟨row, (mem_filter.mp isRow).1, same⟩
  case apart =>
    intro row isRow other isOther inVisit otherIn notNull same
    obtain ⟨rest, isAt⟩ := (order.mem_visit isRow).mp inVisit
    obtain ⟨later, otherAt⟩ := (order.mem_visit isOther).mp otherIn
    rw [isAt.newKey] at same notNull
    rw [otherAt.newKey] at same
    split at notNull
    · exact absurd rfl notNull
    · rename_i isBlob
      rw [if_neg isBlob] at same
      split at same
      · cases same
      · have sameRest := append_cancel_left (Option.some.inj same)
        refine congrArg TableRow.rowid (eq_of_key table.apart isRow isOther
          (isAt.1 ▸ nofun) ?_)
        rw [isAt.1, otherAt.1, sameRest]

theorem RenameOrder.displaced_iff
    (notRoot : dst ≠ []) :
    (∃ other ∈ table.rows,
        other.rowid ∈ order.visit ∧
          other.Displaces (sqliteFuncChangePrefix src.length dst) row) ↔
      IsDisplaced src dst table.rows row := by
  constructor
  · rintro ⟨other, isOther, inVisit, _, same⟩
    obtain ⟨rest, isAt⟩ := (order.mem_visit isOther).mp inVisit
    rw [isAt.newKey_of_ne notRoot] at same
    exact ⟨other, isOther, rest, isAt, same.symm⟩
  · rintro ⟨other, isOther, rest, isAt, same⟩
    refine ⟨other, isOther, (order.mem_visit isOther).mpr ⟨rest, isAt⟩,
      same ▸ nofun, ?_⟩
    rw [isAt.newKey_of_ne notRoot, same]

theorem RenameOrder.renamed_updatedRows
    (notRoot : dst ≠ []) :
    Renamed src dst table.rows
      (updatedRows (sqliteFuncChangePrefix src.length dst) order.visit
        table.rows) := by
  have updated :
      ∀ row rest,
        IsAt src row rest →
        row.updated (sqliteFuncChangePrefix src.length dst) =
          { row with key := some (dst ++ rest) } := by
    intro row rest isAt
    rw [TableRow.updated, isAt.newKey_of_ne notRoot]
  constructor
  case moved =>
    intro row isRow rest isAt
    refine mem_filterMap.mpr ⟨row, isRow, ?_⟩
    rw [if_pos ((order.mem_visit isRow).mpr ⟨rest, isAt⟩),
      updated row rest isAt]
  case kept =>
    intro row isRow notAt notDisplaced
    refine mem_filterMap.mpr ⟨row, isRow, ?_⟩
    rw [if_neg, if_neg]
    · exact fun displaced =>
        notDisplaced ((order.displaced_iff notRoot).mp displaced)
    · intro inVisit
      obtain ⟨rest, isAt⟩ := (order.mem_visit isRow).mp inVisit
      exact notAt rest isAt
  case only =>
    intro row isLeft
    obtain ⟨old, isOld, becomes⟩ := mem_filterMap.mp isLeft
    split at becomes
    · rename_i inVisit
      obtain ⟨rest, isAt⟩ := (order.mem_visit isOld).mp inVisit
      rw [updated old rest isAt] at becomes
      exact .inl ⟨old, isOld, rest, isAt, (Option.some.inj becomes).symm⟩
    · rename_i notVisited
      split at becomes
      · cases becomes
      · rename_i notDisplaced
        obtain rfl := Option.some.inj becomes
        refine .inr ⟨isOld, fun rest isAt => ?_, fun displaced => ?_⟩
        · exact notVisited ((order.mem_visit isOld).mpr ⟨rest, isAt⟩)
        · exact notDisplaced ((order.displaced_iff notRoot).mpr displaced)

/-- No row to be renamed is visited after one whose new path it has. -/
def RenameOrder.KeepsRows
    (order : RenameOrder table src) (dst : PathString) : Prop :=
  KeepsVisits (sqliteFuncChangePrefix src.length dst) table.rows order.visit

/-- The rows are renamed exactly if the order keeps them. -/
theorem RenameOrder.renamed_iff
    (notRoot : dst ≠ []) :
    Renamed src dst table.rows (table.pathRename order dst).rows ↔
      order.KeepsRows dst := by
  constructor
  · intro renamed
    by_contra displaces
    obtain ⟨rowid, inVisit, isLost⟩ := (order.visits dst).lost displaces
    obtain ⟨row, isRow, rfl⟩ := (order.visits dst).present rowid inVisit
    obtain ⟨rest, isAt⟩ := (order.mem_visit isRow).mp inVisit
    exact isLost
      (List.mem_map.mpr ⟨_, renamed.moved row isRow rest isAt, rfl⟩)
  · intro keeps
    have same := (order.visits dst).updateOrReplace_eq keeps
    dsimp only [PathsTable.pathRename]
    rw [same]
    exact order.renamed_updatedRows notRoot

/--
A new path is that of another row to be renamed only if `src` lies below `dst`
or at the start of it.
-/
theorem RenameOrder.keepsRows_of_apart
    (notAbove : src <+: dst → src = dst)
    (notBelow : ¬dst ++ [slash] <+: src) :
    order.KeepsRows dst := by
  have visits := order.visits dst
  refine List.Pairwise.imp_of_mem ?_ visits.once
  rintro first second firstIn secondIn differs row isRow other isOther rfl rfl
    ⟨notNull, same⟩
  obtain ⟨rest, isAt⟩ := (order.mem_visit isRow).mp firstIn
  obtain ⟨later, otherAt⟩ := (order.mem_visit isOther).mp secondIn
  rw [isAt.newKey, otherAt.1] at same
  split at same
  · cases same
  have samePath := Option.some.inj same
  rcases append_eq_append_iff.mp samePath with
    ⟨between, isSrc, isRest⟩ | ⟨between, isDst, isLater⟩
  · -- `src` goes on where `dst` ends
    cases between with
    | nil =>
      rw [append_nil] at isSrc
      rw [nil_append] at isRest
      have sameRow :=
        eq_of_key table.apart isRow isOther (isAt.1 ▸ nofun)
          (by rw [isAt.1, otherAt.1, isRest])
      exact differs (congrArg TableRow.rowid sameRow)
    | cons byte between =>
      have isSlash : byte = slash := by
        rcases isAt.2 with isEmpty | isNext
        · rw [isEmpty] at isRest
          cases isRest
        · rw [isRest] at isNext
          exact Option.some.inj isNext
      refine notBelow ⟨between, ?_⟩
      rw [isSrc, isSlash, append_assoc]
      rfl
  · -- `dst` goes on where `src` ends
    have isSame := notAbove ⟨between, isDst.symm⟩
    have isEmpty : between = [] := by
      rw [← isSame] at isDst
      exact self_eq_append_right.mp isDst
    rw [isEmpty, nil_append] at isLater
    have sameRow :=
      eq_of_key table.apart isRow isOther (isAt.1 ▸ nofun)
        (by rw [isAt.1, otherAt.1, isLater])
    exact differs (congrArg TableRow.rowid sameRow)

end

/-- The paths of the table and their inodes. -/
def PathsTable.paths (table : PathsTable) : List (PathString × Nat) :=
  table.rows.filterMap fun row => row.key.map fun path => (path, row.value)

/--
A rename to a path other than the root renames the rows exactly if the order
visits no row after one whose new path it has, as every order does unless `src`
lies below `dst`.
-/
theorem path_rename_renames_iff
    (order : RenameOrder table src)
    (notAbove : src <+: dst → src = dst)
    (notRoot : dst ≠ []) :
    (Renamed src dst table.rows (table.pathRename order dst).rows ↔
        order.KeepsRows dst) ∧
      (¬dst ++ [slash] <+: src →
        Renamed src dst table.rows (table.pathRename order dst).rows) :=
  ⟨order.renamed_iff notRoot, fun notBelow =>
    (order.renamed_iff notRoot).mpr
      (order.keepsRows_of_apart notAbove notBelow)⟩

/-- The paths `/d`, `/d/a`, `/d/a/a`, `/d/a/a/b` and `/d/a/b`. -/
def nestedTable : PathsTable where
  rows := [
    ⟨1, some [47, 100], 1⟩,
    ⟨2, some [47, 100, 47, 97], 2⟩,
    ⟨3, some [47, 100, 47, 97, 47, 97], 3⟩,
    ⟨4, some [47, 100, 47, 97, 47, 97, 47, 98], 4⟩,
    ⟨5, some [47, 100, 47, 97, 47, 98], 5⟩]
  apart := by
    unfold TableRow.Apart
    decide

/-- The rows from `/d/a` on, in the order of their numbers. -/
def nestedOrder : RenameOrder nestedTable [47, 100, 47, 97] where
  visit := [2, 3, 4, 5]
  perm := by
    decide

/-- The rows are renamed when `/d/a` is moved to `/e`. -/
theorem path_rename_to_sibling_renames :
    Renamed [47, 100, 47, 97] [47, 101] nestedTable.rows
      (nestedTable.pathRename nestedOrder [47, 101]).rows :=
  (path_rename_renames_iff nestedOrder (by decide) (by decide)).2 (by decide)

/--
When `/d/a` is moved to `/d`, the row of `/d/a/a/b` becomes that of `/d/a/b`,
whose own row is deleted before it is renamed.
-/
theorem path_rename_to_parent_loses_row :
    ¬∀ (table : PathsTable) (src dst : PathString)
        (order : RenameOrder table src),
      (src <+: dst → src = dst) →
        Renamed src dst table.rows (table.pathRename order dst).rows := by
  intro renames
  have renamed :=
    renames nestedTable [47, 100, 47, 97] [47, 100] nestedOrder (by decide)
  have isLeft :=
    renamed.moved ⟨5, some [47, 100, 47, 97, 47, 98], 5⟩ (by decide) [47, 98]
      ⟨rfl, .inr rfl⟩
  revert isLeft
  decide

end GuestKernel
