import Mathlib.Data.List.Basic

namespace GuestKernel
open List

/-!
# Lists grouped by a key

A list is grouped when the items of one key stand next to each other.  One
group can then be found, and replaced, by a single walk that stops at the
first item after it.
-/

variable {Item Key : Type}

/-- The items of one key are next to each other. -/
def Grouped (key : Item → Key) : List Item → Prop
  | [] => True
  | item :: rest =>
    ((∀ other ∈ rest, key other ≠ key item) ∨
        ∃ next later, rest = next :: later ∧ key next = key item) ∧
      Grouped key rest

/-- The part of a list before, in and after the group of a key. -/
structure GroupSplit
    (key : Item → Key) (group : Key) (before own after : List Item) :
    Prop where
  notBefore : ∀ item ∈ before, key item ≠ group
  inGroup : ∀ item ∈ own, key item = group
  notAfter : ∀ item ∈ after, key item ≠ group
  last : own = [] → after = []

namespace Grouped

variable {key : Item → Key}

variable {group : Key} {after before : List Item}

/-- A list whose first item opens the group is the group and the rest. -/
theorem split_head
    {item : Item}
    {rest : List Item}
    (grouped : Grouped key (item :: rest))
    (opens : key item = group) :
    ∃ own after,
      rest = own ++ after ∧
        (∀ other ∈ own, key other = group) ∧
        ∀ other ∈ after, key other ≠ group := by
  induction rest generalizing item with
  | nil =>
    exact ⟨[], [], rfl, nofun, nofun⟩
  | cons next later inductionHypothesis =>
    obtain ⟨closes | ⟨_, _, shape, same⟩, groupedRest⟩ := grouped
    · refine ⟨[], next :: later, rfl, nofun, ?_⟩
      intro other member
      rw [← opens]
      exact closes other member
    · cases shape
      obtain ⟨own, after, rfl, inGroup, outside⟩ :=
        inductionHypothesis groupedRest (same.trans opens)
      refine ⟨next :: own, after, rfl, ?_, outside⟩
      intro other member
      rcases mem_cons.mp member with rfl | inOwn
      · exact same.trans opens
      · exact inGroup other inOwn

/-- Every grouped list splits at every key. -/
theorem split
    [DecidableEq Key]
    {items : List Item}
    (grouped : Grouped key items)
    (group : Key) :
    ∃ before own after,
      items = before ++ (own ++ after) ∧
        GroupSplit key group before own after := by
  induction items with
  | nil =>
    exact ⟨[], [], [], rfl, nofun, nofun, nofun, fun _ => rfl⟩
  | cons item rest inductionHypothesis =>
    by_cases opens : key item = group
    · obtain ⟨own, after, rfl, inGroup, outside⟩ :=
        grouped.split_head opens
      refine ⟨[], item :: own, after, rfl, nofun, ?_, outside, nofun⟩
      intro other member
      rcases mem_cons.mp member with rfl | inOwn
      · exact opens
      · exact inGroup other inOwn
    · obtain ⟨before, own, after, rfl, parts⟩ :=
        inductionHypothesis grouped.2
      refine ⟨item :: before, own, after, rfl, ?_, parts.inGroup,
        parts.notAfter, parts.last⟩
      intro other member
      rcases mem_cons.mp member with rfl | inBefore
      · exact opens
      · exact parts.notBefore other inBefore

theorem of_append
    (grouped : Grouped key (before ++ after)) :
    Grouped key after := by
  induction before with
  | nil =>
    exact grouped
  | cons item rest inductionHypothesis =>
    exact inductionHypothesis grouped.2

/-- One group followed by a grouped list without it is grouped. -/
theorem own_append
    {own : List Item}
    (inGroup : ∀ item ∈ own, key item = group)
    (outside : ∀ item ∈ after, key item ≠ group)
    (grouped : Grouped key after) :
    Grouped key (own ++ after) := by
  induction own with
  | nil =>
    exact grouped
  | cons item rest inductionHypothesis =>
    have isOwn := inGroup item mem_cons_self
    have restInGroup :
        ∀ other ∈ rest, key other = group :=
      fun other member => inGroup other (mem_cons_of_mem _ member)
    refine ⟨?_, inductionHypothesis restInGroup⟩
    cases rest with
    | nil =>
      refine .inl fun other member => ?_
      rw [isOwn]
      exact outside other member
    | cons next later =>
      exact .inr ⟨next, later ++ after, rfl,
        (restInGroup next mem_cons_self).trans isOwn.symm⟩

/-- Replacing one group by items of the same key keeps a list grouped. -/
theorem replace
    {own replacement : List Item}
    (grouped : Grouped key (before ++ (own ++ after)))
    (parts : GroupSplit key group before own after)
    (inGroup : ∀ item ∈ replacement, key item = group) :
    Grouped key (before ++ (replacement ++ after)) := by
  obtain ⟨outside, isOwn, noneAfter, last⟩ := parts
  induction before with
  | nil =>
    rw [nil_append] at grouped ⊢
    exact own_append inGroup noneAfter (of_append grouped)
  | cons item rest inductionHypothesis =>
    have different := outside item mem_cons_self
    refine ⟨?_, inductionHypothesis grouped.2 fun other member =>
      outside other (mem_cons_of_mem _ member)⟩
    obtain ⟨closes | ⟨next, later, shape, same⟩, _⟩ := grouped
    · refine .inl fun other member => ?_
      rcases mem_append.mp member with inRest | inTail
      · exact closes other (mem_append_left _ inRest)
      rcases mem_append.mp inTail with inNew | inAfter
      · rw [inGroup other inNew]
        exact different.symm
      · exact closes other
          (mem_append_right _ (mem_append_right _ inAfter))
    · cases rest with
      | cons first others =>
        cases shape
        exact .inr ⟨next, _, rfl, same⟩
      | nil =>
        -- the group cannot start here, and without it nothing follows
        cases own with
        | nil =>
          rw [last rfl] at shape
          cases shape
        | cons first others =>
          cases shape
          exact absurd
            (same.symm.trans (isOwn next mem_cons_self))
            different

/-- Removing whole groups keeps a list grouped. -/
theorem filter
    {items : List Item}
    (grouped : Grouped key items)
    (keep : Key → Bool) :
    Grouped key (items.filter fun item => keep (key item)) := by
  induction items with
  | nil =>
    trivial
  | cons item rest inductionHypothesis =>
    have groupedRest := inductionHypothesis grouped.2
    cases kept : keep (key item) with
    | false =>
      rw [filter_cons_of_neg (by simp [kept])]
      exact groupedRest
    | true =>
      rw [filter_cons_of_pos (by simp [kept])]
      refine ⟨?_, groupedRest⟩
      obtain ⟨closes | ⟨next, later, rfl, same⟩, _⟩ := grouped
      · exact .inl fun other member =>
          closes other (mem_of_mem_filter member)
      · refine .inr ⟨next, later.filter fun item => keep (key item),
          ?_, same⟩
        rw [filter_cons_of_pos (by simp [same, kept])]

end Grouped

end GuestKernel
