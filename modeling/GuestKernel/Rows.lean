import Mathlib.Data.List.Basic

namespace GuestKernel
open List Option

/-!
# Keyed rows

A table with a primary key is a list of rows; what counts is the value that
`List.lookup` finds.  A row is put, taken out, or relocated together with
others to new keys, where it replaces what was there.
-/

namespace Rows

variable {Key Value : Type} [BEq Key]

/-- Put a row, in the place of one with the same key. -/
def put (key : Key) (value : Value) (rows : List (Key × Value)) :
    List (Key × Value) :=
  (key, value) :: rows.filter fun row => !(row.1 == key)

/-- Take a row out. -/
def takeOut (key : Key) (rows : List (Key × Value)) : List (Key × Value) :=
  rows.filter fun row => !(row.1 == key)

/-- The rows that move, under their new keys. -/
def moved (move : Key → Option Key) (rows : List (Key × Value)) :
    List (Key × Value) :=
  rows.filterMap fun row => (move row.1).map fun key => (key, row.2)

/-- Move rows to new keys, in the place of what has these keys. -/
def relocate (move : Key → Option Key) (rows : List (Key × Value)) :
    List (Key × Value) :=
  moved move rows ++
    rows.filter fun row =>
      (move row.1).isNone && ((moved move rows).lookup row.1).isNone

variable {key : Key} {rows : List (Key × Value)} {move : Key → Option Key}
  {value : Value}

theorem nodup_takeOut
    (apart : (rows.map Prod.fst).Nodup) :
    ((takeOut key rows).map Prod.fst).Nodup :=
  apart.sublist (filter_sublist.map Prod.fst)

variable [LawfulBEq Key]

/-- Rows chosen by their key keep their values. -/
theorem lookup_filter
    (keep : Key → Bool)
    (key : Key)
    (rows : List (Key × Value)) :
    (rows.filter fun row => keep row.1).lookup key =
      if keep key then rows.lookup key else none := by
  induction rows with
  | nil =>
    split <;> rfl
  | cons row rest inductionHypothesis =>
    by_cases same : key = row.1
    · subst same
      by_cases kept : keep row.1 = true
      · rw [filter_cons, if_pos kept, if_pos kept, lookup_cons,
          lookup_cons, beq_self_eq_true]
      · rw [filter_cons, if_neg kept, inductionHypothesis, if_neg kept,
          if_neg kept]
    · have differs : (key == row.1) = false := beq_eq_false_iff_ne.mpr same
      have skipped : (row :: rest).lookup key = rest.lookup key := by
        rw [lookup_cons, differs]
      rw [skipped]
      by_cases kept : keep row.1 = true
      · rw [filter_cons, if_pos kept, lookup_cons, differs]
        exact inductionHypothesis
      · rw [filter_cons, if_neg kept, inductionHypothesis]

@[simp] theorem lookup_put_self
    (key : Key)
    (value : Value)
    (rows : List (Key × Value)) :
    (put key value rows).lookup key = some value := by
  rw [put, lookup_cons, beq_self_eq_true]

theorem lookup_put_of_ne
    {other : Key}
    (differs : other ≠ key)
    (value : Value)
    (rows : List (Key × Value)) :
    (put key value rows).lookup other = rows.lookup other := by
  rw [put, lookup_cons, beq_eq_false_iff_ne.mpr differs]
  dsimp only
  rw [lookup_filter (fun row => !(row == key)), if_pos]
  rw [beq_eq_false_iff_ne.mpr differs]
  rfl

@[simp] theorem lookup_takeOut_self
    (key : Key)
    (rows : List (Key × Value)) :
    (takeOut key rows).lookup key = none := by
  rw [takeOut, lookup_filter (fun row => !(row == key)), beq_self_eq_true]
  rfl

theorem lookup_takeOut_of_ne
    {other : Key}
    (differs : other ≠ key)
    (rows : List (Key × Value)) :
    (takeOut key rows).lookup other = rows.lookup other := by
  rw [takeOut, lookup_filter (fun row => !(row == key)), if_pos]
  rw [beq_eq_false_iff_ne.mpr differs]
  rfl

theorem takeOut_put
    (isFree : rows.lookup key = none)
    (value : Value) :
    takeOut key (put key value rows) = rows := by
  have others : rows.filter (fun row => !(row.1 == key)) = rows := by
    rw [filter_eq_self]
    intro row isRow
    rw [Bool.not_eq_true', beq_eq_false_iff_ne]
    rintro rfl
    exact bne_iff_ne.mp (lookup_eq_none_iff.mp isFree row isRow) rfl
  rw [takeOut, put, others, filter_cons, beq_self_eq_true,
    if_neg (by decide), others]

theorem nodup_put
    (apart : (rows.map Prod.fst).Nodup)
    (value : Value) :
    ((put key value rows).map Prod.fst).Nodup := by
  rw [put, map_cons, nodup_cons]
  refine ⟨?_, nodup_takeOut apart⟩
  intro isKey
  obtain ⟨row, isRow, sameKey⟩ := List.mem_map.mp isKey
  have differs := (mem_filter.mp isRow).2
  rw [sameKey, beq_self_eq_true] at differs
  cases differs

theorem lookup_of_mem
    (apart : (rows.map Prod.fst).Nodup)
    (isRow : (key, value) ∈ rows) :
    rows.lookup key = some value := by
  obtain ⟨before, after, rfl⟩ := append_of_mem isRow
  rw [map_append, map_cons] at apart
  have isFirst := (nodup_append.mp apart).2.2
  refine lookup_eq_some_iff.mpr ⟨before, after, rfl, ?_⟩
  intro row isBefore
  rw [bne_iff_ne]
  exact (isFirst row.1 (List.mem_map_of_mem isBefore) key
    (mem_cons_self ..)).symm

/-- Where the keys are apart, a row that is taken out is the only one. -/
theorem perm_takeOut
    (apart : (rows.map Prod.fst).Nodup)
    (found : rows.lookup key = some value) :
    rows.Perm ((key, value) :: takeOut key rows) := by
  obtain ⟨before, after, rfl, _⟩ := lookup_eq_some_iff.mp found
  rw [map_append, map_cons] at apart
  have alone :=
    (nodup_cons.mp (perm_middle.nodup_iff.mp apart)).1
  have others : ∀ row ∈ before ++ after, (!(row.1 == key)) = true := by
    intro row isRow
    rw [Bool.not_eq_true', beq_eq_false_iff_ne]
    intro sameKey
    rw [← map_append] at alone
    exact alone (List.mem_map.mpr ⟨row, isRow, sameKey⟩)
  have left : takeOut key (before ++ (key, value) :: after) =
      before ++ after := by
    rw [takeOut, filter_append, filter_cons, beq_self_eq_true,
      if_neg (by decide), ← filter_append,
      filter_eq_self.mpr others]
  rw [left]
  exact perm_middle

/-- A row that moves is found under its new key. -/
theorem lookup_moved
    (injective :
      ∀ first second target,
        move first = some target → move second = some target →
        first = second)
    {old new : Key}
    (moves : move old = some new)
    (rows : List (Key × Value)) :
    (moved move rows).lookup new = rows.lookup old := by
  induction rows with
  | nil =>
    rfl
  | cons row rest inductionHypothesis =>
    unfold moved at inductionHypothesis ⊢
    by_cases same : old = row.1
    · subst same
      rw [filterMap_cons, moves]
      dsimp only [map_some]
      rw [lookup_cons, lookup_cons, beq_self_eq_true,
        beq_self_eq_true]
    · have differs : (old == row.1) = false := beq_eq_false_iff_ne.mpr same
      rw [lookup_cons, differs, filterMap_cons]
      cases target : move row.1 with
      | none => exact inductionHypothesis
      | some key =>
        have otherKey : (new == key) = false := by
          rw [beq_eq_false_iff_ne]
          rintro rfl
          exact same (injective old row.1 new moves target)
        dsimp only [map_some]
        rw [lookup_cons, otherKey]
        exact inductionHypothesis

theorem lookup_moved_eq_none
    (nobody : ∀ old, move old = some key → rows.lookup old = none) :
    (moved move rows).lookup key = none := by
  rw [lookup_eq_none_iff]
  intro row isMoved
  unfold moved at isMoved
  obtain ⟨before, isRow, movesTo⟩ := mem_filterMap.mp isMoved
  obtain ⟨target, moves, rfl⟩ := map_eq_some_iff.mp movesTo
  rw [bne_iff_ne]
  rintro rfl
  have absent := lookup_eq_none_iff.mp (nobody before.1 moves) before isRow
  exact bne_iff_ne.mp absent rfl

theorem lookup_relocate_of_moves
    (injective :
      ∀ first second target,
        move first = some target → move second = some target →
        first = second)
    {old new : Key}
    (moves : move old = some new)
    (isRow : rows.lookup old = some value) :
    (relocate move rows).lookup new = some value := by
  rw [relocate, lookup_append, lookup_moved injective moves, isRow]
  rfl

theorem lookup_relocate_of_gone
    {target : Key}
    (moves : move key = some target)
    (nobody : ∀ old, move old = some key → rows.lookup old = none) :
    (relocate move rows).lookup key = none := by
  rw [relocate, lookup_append, lookup_moved_eq_none nobody,
    none_or,
    lookup_filter fun key =>
      (move key).isNone && ((moved move rows).lookup key).isNone, moves]
  rfl

theorem lookup_relocate_of_stays
    (stays : move key = none)
    (nobody : ∀ old, move old = some key → rows.lookup old = none) :
    (relocate move rows).lookup key = rows.lookup key := by
  have unmoved := lookup_moved_eq_none nobody
  rw [relocate, lookup_append, unmoved, none_or,
    lookup_filter fun key =>
      (move key).isNone && ((moved move rows).lookup key).isNone, stays,
    unmoved]
  rfl

/-- A relocation of rows to their own keys changes nothing. -/
theorem lookup_relocate_of_fixed
    (fixed : ∀ old new, move old = some new → new = old)
    (key : Key)
    (rows : List (Key × Value)) :
    (relocate move rows).lookup key = rows.lookup key := by
  cases isRow : rows.lookup key with
  | some value =>
    cases moves : move key with
    | some target =>
      have same := fixed key target moves
      subst same
      refine lookup_relocate_of_moves ?_ moves isRow
      intro first second target firstMoves secondMoves
      rw [← fixed first target firstMoves, fixed second target secondMoves]
    | none =>
      rw [lookup_relocate_of_stays moves, isRow]
      intro old movesThere
      rw [← fixed old key movesThere, moves] at movesThere
      cases movesThere
  | none =>
    have nobody : ∀ old, move old = some key → rows.lookup old = none := by
      intro old movesThere
      rw [← fixed old key movesThere]
      exact isRow
    cases moves : move key with
    | some target => exact lookup_relocate_of_gone moves nobody
    | none => rw [lookup_relocate_of_stays moves nobody, isRow]

end Rows

end GuestKernel
