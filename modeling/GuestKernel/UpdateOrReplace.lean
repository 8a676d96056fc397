import Mathlib.Data.List.Nodup

namespace GuestKernel
open List

/-!
# Updating the keys of a table one row after the other

An `update or replace` first collects the rows that it selects and then gives
each of them its new key, in an order of its own.  A row that has the new key is
deleted, also when it was selected itself and has not been visited yet.  A key
that is `none` is `NULL`, which is equal to no key.
-/

/-- A row of a table, in which the number of the row never changes. -/
structure TableRow (Key Value : Type) where
  rowid : Nat
  key : Option Key
  value : Value
  deriving Repr, DecidableEq

variable
  {Key Value : Type}
  {move : Key → Option Key}
  {rows : List (TableRow Key Value)}
  {row other : TableRow Key Value}
  {visit rest : List Nat}
  {rowid : Nat}

/-- The key that a row is to have. -/
def TableRow.newKey
    (move : Key → Option Key) (row : TableRow Key Value) : Option Key :=
  row.key.bind move

/-- The row that the statement makes of a row. -/
def TableRow.updated
    (move : Key → Option Key) (row : TableRow Key Value) :
    TableRow Key Value :=
  { row with key := row.newKey move }

/-- Two rows of a table with a primary key. -/
def TableRow.Apart (row other : TableRow Key Value) : Prop :=
  row.rowid ≠ other.rowid ∧ (row.key ≠ none → row.key ≠ other.key)

/-- The new key of the first row is the key that the second one has. -/
def TableRow.Displaces
    (move : Key → Option Key) (row other : TableRow Key Value) : Prop :=
  other.key ≠ none ∧ row.newKey move = other.key

/-- Update one row, in the place of one that has its new key. -/
def updateRow
    [DecidableEq Key]
    (rowid : Nat) (new : Option Key) (rows : List (TableRow Key Value)) :
    List (TableRow Key Value) :=
  rows.filterMap fun row =>
    if row.rowid = rowid then
      some { row with key := new }
    else if row.key ≠ none ∧ new = row.key then
      none
    else
      some row

/-- Update the rows with these numbers, as far as they are still there. -/
def updateOrReplace
    [DecidableEq Key]
    (move : Key → Option Key) :
    List Nat → List (TableRow Key Value) → List (TableRow Key Value)
  | [], rows => rows
  | rowid :: rest, rows =>
    match rows.find? fun row => row.rowid = rowid with
    | none => updateOrReplace move rest rows
    | some row =>
      updateOrReplace move rest
        (updateRow rowid (row.newKey move) rows)

instance
    [DecidableEq Key]
    (row other : TableRow Key Value) :
    Decidable (row.Displaces move other) :=
  inferInstanceAs (Decidable (other.key ≠ none ∧ row.newKey move = other.key))

/-- All rows updated at once, in the place of the others with their keys. -/
def updatedRows
    [DecidableEq Key]
    (move : Key → Option Key)
    (visit : List Nat)
    (rows : List (TableRow Key Value)) : List (TableRow Key Value) :=
  rows.filterMap fun row =>
    if row.rowid ∈ visit then
      some (row.updated move)
    else if ∃ other ∈ rows,
        other.rowid ∈ visit ∧ other.Displaces move row then
      none
    else
      some row

/-- The order visits no row that one visited before displaces. -/
def KeepsVisits
    (move : Key → Option Key)
    (rows : List (TableRow Key Value))
    (visit : List Nat) : Prop :=
  visit.Pairwise fun first second =>
    ∀ row ∈ rows, ∀ other ∈ rows,
      row.rowid = first → other.rowid = second → ¬row.Displaces move other

/-- The rows that are visited, each once, which get different keys. -/
structure Visits
    (move : Key → Option Key)
    (rows : List (TableRow Key Value))
    (visit : List Nat) : Prop where
  unique : (rows.map TableRow.rowid).Nodup
  once : visit.Nodup
  present : ∀ rowid ∈ visit, ∃ row ∈ rows, row.rowid = rowid
  apart :
    ∀ row ∈ rows, ∀ other ∈ rows,
      row.rowid ∈ visit → other.rowid ∈ visit →
      row.newKey move ≠ none →
      row.newKey move = other.newKey move → row.rowid = other.rowid

theorem nodup_rowids
    (apart : rows.Pairwise TableRow.Apart) :
    (rows.map TableRow.rowid).Nodup :=
  pairwise_map.mpr (apart.imp And.left)

/-- So have they different keys. -/
theorem eq_of_key
    (apart : rows.Pairwise TableRow.Apart)
    (isRow : row ∈ rows)
    (isOther : other ∈ rows)
    (notNull : row.key ≠ none)
    (same : row.key = other.key) :
    row = other := by
  let Unique (first second : TableRow Key Value) :=
    first.key ≠ none → first.key = second.key → first = second
  have unique :
      ∀ ⦃first⦄, first ∈ rows →
        ∀ ⦃second⦄, second ∈ rows → Unique first second := by
    refine List.Pairwise.forall_of_forall_of_flip ?_ ?_ ?_
    · exact fun _ _ _ _ => rfl
    · refine apart.imp fun holds notNull same => ?_
      exact absurd same (holds.2 notNull)
    · refine apart.imp fun holds notNull same => ?_
      exact absurd same.symm (holds.2 (same ▸ notNull))
  exact unique isRow isOther notNull same

theorem Visits.eq_of_rowid
    (visits : Visits move rows visit)
    (isRow : row ∈ rows)
    (isOther : other ∈ rows)
    (same : row.rowid = other.rowid) :
    row = other :=
  inj_on_of_nodup_map visits.unique isRow isOther same

section
variable [DecidableEq Key]

/-- The rows that an update leaves as they were. -/
theorem mem_updateRow_of_ne
    {new : Option Key}
    (differs : row.rowid ≠ rowid) :
    row ∈ updateRow rowid new rows ↔
      row ∈ rows ∧ ¬(row.key ≠ none ∧ new = row.key) := by
  unfold updateRow
  rw [mem_filterMap]
  constructor
  · rintro ⟨before, isRow, becomes⟩
    split at becomes
    · obtain rfl := Option.some.inj becomes
      contradiction
    · split at becomes
      · cases becomes
      · rename_i stays
        obtain rfl := Option.some.inj becomes
        exact ⟨isRow, stays⟩
  · rintro ⟨isRow, stays⟩
    exact ⟨row, isRow, by rw [if_neg differs, if_neg stays]⟩

/-- An update brings in no new number. -/
theorem rowids_updateRow
    (rowid : Nat)
    (new : Option Key)
    (rows : List (TableRow Key Value)) :
    ((updateRow rowid new rows).map TableRow.rowid).Sublist
      (rows.map TableRow.rowid) := by
  induction rows with
  | nil => exact .slnil
  | cons row rest inductionHypothesis =>
    unfold updateRow at inductionHypothesis ⊢
    rw [filterMap_cons]
    by_cases same : row.rowid = rowid
    · rw [if_pos same]
      exact inductionHypothesis.cons_cons _
    · rw [if_neg same]
      split
      · exact inductionHypothesis.cons _
      · rename_i stays
        split at stays
        · cases stays
        · obtain rfl := Option.some.inj stays
          exact inductionHypothesis.cons_cons _

theorem rowids_updateOrReplace
    (visit : List Nat)
    (rows : List (TableRow Key Value)) :
    ((updateOrReplace move visit rows).map TableRow.rowid).Sublist
      (rows.map TableRow.rowid) := by
  induction visit generalizing rows with
  | nil => exact .refl _
  | cons rowid rest inductionHypothesis =>
    unfold updateOrReplace
    split
    · exact inductionHypothesis rows
    · exact (inductionHypothesis _).trans (rowids_updateRow _ _ rows)

/-- The row that is visited first is found. -/
theorem Visits.find
    (visits : Visits move rows (rowid :: rest)) :
    ∃ row ∈ rows,
      row.rowid = rowid ∧
        updateOrReplace move (rowid :: rest) rows =
          updateOrReplace move rest
            (updateRow rowid (row.newKey move) rows) := by
  obtain ⟨present, isPresent, isNumber⟩ :=
    visits.present rowid mem_cons_self
  cases found : rows.find? fun row => row.rowid = rowid with
  | none =>
    have absent := List.find?_eq_none.mp found present isPresent
    exact absurd (decide_eq_true isNumber) absent
  | some row =>
    have isRow := List.mem_of_find?_eq_some found
    have same : row.rowid = rowid := by
      simpa using List.find?_some found
    refine ⟨row, isRow, same, ?_⟩
    conv_lhs => unfold updateOrReplace
    rw [found]

theorem apart_updateRow
    (apart : rows.Pairwise TableRow.Apart)
    (rowid : Nat)
    (new : Option Key) :
    (updateRow rowid new rows).Pairwise TableRow.Apart := by
  refine List.Pairwise.filterMap _ ?_ apart
  rintro row other ⟨idsApart, keysApart⟩ rowAfter isRow otherAfter isOther
  by_cases isFirst : row.rowid = rowid
  · rw [if_pos isFirst] at isRow
    rw [if_neg fun isSecond => idsApart (isFirst.trans isSecond.symm)]
      at isOther
    split at isOther
    · cases isOther
    · rename_i stays
      obtain rfl := Option.some.inj isRow
      obtain rfl := Option.some.inj isOther
      refine ⟨idsApart, fun notNull same => stays ⟨?_, same⟩⟩
      exact fun isNull => notNull (same.trans isNull)
  · rw [if_neg isFirst] at isRow
    split at isRow
    · cases isRow
    · rename_i stays
      obtain rfl := Option.some.inj isRow
      by_cases isSecond : other.rowid = rowid
      · rw [if_pos isSecond] at isOther
        obtain rfl := Option.some.inj isOther
        exact ⟨idsApart, fun notNull same => stays ⟨notNull, same.symm⟩⟩
      · rw [if_neg isSecond] at isOther
        split at isOther
        · cases isOther
        · obtain rfl := Option.some.inj isOther
          exact ⟨idsApart, keysApart⟩

theorem apart_updateOrReplace
    (apart : rows.Pairwise TableRow.Apart)
    (visit : List Nat) :
    (updateOrReplace move visit rows).Pairwise TableRow.Apart := by
  induction visit generalizing rows with
  | nil => exact apart
  | cons rowid rest inductionHypothesis =>
    unfold updateOrReplace
    split
    · exact inductionHypothesis apart
    · exact inductionHypothesis (apart_updateRow apart _ _)

section

variable
  (visits : Visits move rows (rowid :: rest))
  (keeps :
    ∀ other ∈ rows, other.rowid ∈ rest → ¬row.Displaces move other)
include visits keeps

theorem Visits.mem_rest
    (inRest : other.rowid ∈ rest) :
    other ∈ updateRow rowid (row.newKey move) rows ↔ other ∈ rows := by
  have differs : other.rowid ≠ rowid := fun same =>
    (nodup_cons.mp visits.once).1 (same ▸ inRest)
  rw [mem_updateRow_of_ne differs, and_iff_left_iff_imp]
  exact fun isOther => keeps other isOther inRest

/-- So the rest of the visits is as before. -/
theorem Visits.tail :
    Visits move (updateRow rowid (row.newKey move) rows) rest := by
  have stays :=
    fun {other} inRest =>
      @mem_rest Key Value move rows row other rest rowid _ visits keeps
        inRest
  constructor
  case unique =>
    exact visits.unique.sublist (rowids_updateRow _ _ rows)
  case once =>
    exact (nodup_cons.mp visits.once).2
  case present =>
    intro later inRest
    obtain ⟨other, isOther, rfl⟩ :=
      visits.present later (mem_cons_of_mem _ inRest)
    exact ⟨other, (stays inRest).mpr isOther, rfl⟩
  case apart =>
    intro first isFirst second isSecond firstIn secondIn
    exact visits.apart first ((stays firstIn).mp isFirst) second
      ((stays secondIn).mp isSecond) (mem_cons_of_mem _ firstIn)
      (mem_cons_of_mem _ secondIn)

end

/-- One visit and the rest at once are all visits at once. -/
theorem Visits.updatedRows_cons
    (visits : Visits move rows (rowid :: rest))
    (isRow : row ∈ rows)
    (isFirst : row.rowid = rowid)
    (keeps :
      ∀ other ∈ rows, other.rowid ∈ rest → ¬row.Displaces move other) :
    updatedRows move rest (updateRow rowid (row.newKey move) rows) =
      updatedRows move (rowid :: rest) rows := by
  have stays :=
    fun {other} inRest =>
      @mem_rest Key Value move rows row other rest rowid _ visits keeps
        inRest
  have notAgain : rowid ∉ rest := (nodup_cons.mp visits.once).1
  -- the rows that displace one, but for the first
  have later :
      ∀ target : TableRow Key Value,
        (∃ other ∈ updateRow rowid (row.newKey move) rows,
            other.rowid ∈ rest ∧ other.Displaces move target) ↔
          ∃ other ∈ rows, other.rowid ∈ rest ∧ other.Displaces move target := by
    intro target
    constructor
    · rintro ⟨other, isOther, inRest, displaces⟩
      exact ⟨other, (stays inRest).mp isOther, inRest, displaces⟩
    · rintro ⟨other, isOther, inRest, displaces⟩
      exact ⟨other, (stays inRest).mpr isOther, inRest, displaces⟩
  conv_lhs => unfold updatedRows
  simp only [later]
  unfold updateRow updatedRows
  rw [filterMap_filterMap]
  refine filterMap_congr fun target isTarget => ?_
  by_cases isVisited : target.rowid = rowid
  · have same : target = row :=
      visits.eq_of_rowid isTarget isRow (isVisited.trans isFirst.symm)
    subst same
    have notDisplaced :
        ¬∃ other ∈ rows,
          other.rowid ∈ rest ∧
            other.Displaces move { target with key := target.newKey move } := by
      rintro ⟨other, isOther, inRest, notNull, sameKey⟩
      have sameRow :=
        visits.apart other isOther target isTarget
          (mem_cons_of_mem _ inRest) (isVisited ▸ mem_cons_self)
          (sameKey ▸ notNull) sameKey
      exact notAgain (isVisited ▸ sameRow ▸ inRest)
    have inVisit : target.rowid ∈ rowid :: rest :=
      isVisited ▸ mem_cons_self
    rw [if_pos isVisited, Option.bind_some, if_neg notDisplaced,
      if_pos inVisit]
    rw [if_neg (show ¬target.rowid ∈ rest from isVisited ▸ notAgain)]
    rfl
  · rw [if_neg isVisited]
    by_cases inRest : target.rowid ∈ rest
    · have notDisplaced :
          ¬(target.key ≠ none ∧ row.newKey move = target.key) :=
        keeps target isTarget inRest
      rw [if_neg notDisplaced, Option.bind_some, if_pos inRest,
        if_pos (mem_cons_of_mem _ inRest)]
    · have notVisited : ¬target.rowid ∈ rowid :: rest := by
        rw [mem_cons, not_or]
        exact ⟨isVisited, inRest⟩
      rw [if_neg notVisited]
      by_cases displaced : target.key ≠ none ∧ row.newKey move = target.key
      · have someone :
            ∃ other ∈ rows,
              other.rowid ∈ rowid :: rest ∧ other.Displaces move target :=
          ⟨row, isRow, isFirst ▸ mem_cons_self, displaced⟩
        rw [if_pos displaced, if_pos someone]
        rfl
      · have sameDisplaced :
            (∃ other ∈ rows,
                other.rowid ∈ rowid :: rest ∧ other.Displaces move target) ↔
              ∃ other ∈ rows,
                other.rowid ∈ rest ∧ other.Displaces move target := by
          constructor
          · rintro ⟨other, isOther, inVisit, displaces⟩
            rcases mem_cons.mp inVisit with same | inRest
            · have sameRow :=
                visits.eq_of_rowid isOther isRow (same.trans isFirst.symm)
              exact absurd (sameRow ▸ displaces) displaced
            · exact ⟨other, isOther, inRest, displaces⟩
          · rintro ⟨other, isOther, inRest, displaces⟩
            exact ⟨other, isOther, mem_cons_of_mem _ inRest, displaces⟩
        rw [if_neg displaced, Option.bind_some, if_neg inRest]
        simp only [sameDisplaced]

/-- Where no visit displaces a later one, all rows are updated as at once. -/
theorem Visits.updateOrReplace_eq
    (visits : Visits move rows visit)
    (keeps : KeepsVisits move rows visit) :
    updateOrReplace move visit rows = updatedRows move visit rows := by
  induction visit generalizing rows with
  | nil =>
    unfold updateOrReplace updatedRows
    simp
  | cons rowid rest inductionHypothesis =>
    obtain ⟨row, isRow, isFirst, runs⟩ := visits.find
    obtain ⟨first, later⟩ := pairwise_cons.mp keeps
    have firstKeeps :
        ∀ other ∈ rows, other.rowid ∈ rest → ¬row.Displaces move other :=
      fun other isOther inRest =>
        first other.rowid inRest row isRow other isOther isFirst rfl
    have restVisits := visits.tail firstKeeps
    have restKeeps :
        KeepsVisits move (updateRow rowid (row.newKey move) rows) rest := by
      refine List.Pairwise.imp_of_mem ?_ later
      intro second third secondIn thirdIn holds other isOther target
        isTarget sameOther sameTarget
      subst sameOther
      subst sameTarget
      exact holds other ((visits.mem_rest firstKeeps secondIn).mp isOther)
        target ((visits.mem_rest firstKeeps thirdIn).mp isTarget) rfl rfl
    rw [runs, inductionHypothesis restVisits restKeeps,
      visits.updatedRows_cons isRow isFirst firstKeeps]

/-- Else one of the rows that were to be updated is lost. -/
theorem Visits.lost
    (visits : Visits move rows visit)
    (displaces : ¬KeepsVisits move rows visit) :
    ∃ rowid ∈ visit,
      rowid ∉ (updateOrReplace move visit rows).map TableRow.rowid := by
  induction visit generalizing rows with
  | nil => exact absurd .nil displaces
  | cons rowid rest inductionHypothesis =>
    obtain ⟨row, isRow, isFirst, runs⟩ := visits.find
    rw [runs]
    by_cases firstKeeps :
        ∀ other ∈ rows, other.rowid ∈ rest → ¬row.Displaces move other
    · have restVisits := visits.tail firstKeeps
      have restDisplaces :
          ¬KeepsVisits move (updateRow rowid (row.newKey move) rows)
            rest := by
        intro restKeeps
        refine displaces (pairwise_cons.mpr ⟨?_, ?_⟩)
        · intro second secondIn other isOther target isTarget same
            sameTarget
          have sameRow :=
            visits.eq_of_rowid isOther isRow (same.trans isFirst.symm)
          subst sameRow
          exact firstKeeps target isTarget (sameTarget ▸ secondIn)
        · refine List.Pairwise.imp_of_mem ?_ restKeeps
          intro second third secondIn thirdIn holds other isOther target
            isTarget sameOther sameTarget
          subst sameOther
          subst sameTarget
          exact holds other
            ((visits.mem_rest firstKeeps secondIn).mpr isOther) target
            ((visits.mem_rest firstKeeps thirdIn).mpr isTarget) rfl rfl
      obtain ⟨lost, inRest, isLost⟩ :=
        inductionHypothesis restVisits restDisplaces
      exact ⟨lost, mem_cons_of_mem _ inRest, isLost⟩
    · simp only [not_forall, not_not] at firstKeeps
      obtain ⟨other, isOther, inRest, displaced⟩ := firstKeeps
      refine ⟨other.rowid, mem_cons_of_mem _ inRest, fun isLeft => ?_⟩
      have isThere := (rowids_updateOrReplace rest _).subset isLeft
      obtain ⟨left, isLeftRow, sameId⟩ := List.mem_map.mp isThere
      have differs : left.rowid ≠ rowid := by
        rw [sameId]
        exact fun same =>
          (nodup_cons.mp visits.once).1 (same ▸ inRest)
      obtain ⟨isOld, stays⟩ := (mem_updateRow_of_ne differs).mp isLeftRow
      have sameRow := visits.eq_of_rowid isOld isOther sameId
      exact stays (sameRow ▸ displaced)

end

end GuestKernel
