import Mathlib.Data.List.DropRight
import Mathlib.Data.List.Flatten
import Mathlib.Data.List.Forall2

namespace GuestKernel
open List

/-!
# Texts that remember what was typed

A letter of a text carries the stamps of the keystrokes it stands for.  Texts
are cut, joined and unified, and the stamps tell what has become of a text that
was typed: a text holds it when its letters are still there, in their order.
-/

/-- A character of a text, and the keystrokes it stands for. -/
structure Letter (Character : Type) where
  character : Character
  stamps : List Nat
  deriving Repr, DecidableEq

/-- A text that remembers what was typed. -/
abbrev StampedText (Character : Type) := List (Letter Character)

variable {Character : Type}

namespace StampedText

/-- The text as a reader sees it. -/
def string (text : StampedText Character) : List Character :=
  text.map Letter.character

/-- The keystrokes that a text stands for. -/
def stamps (text : StampedText Character) : List Nat :=
  text.flatMap Letter.stamps

/-- The text that keystrokes make. -/
def typed (keystrokes : List (Character × Nat)) : StampedText Character :=
  keystrokes.map fun keystroke => ⟨keystroke.1, [keystroke.2]⟩

/-- Two texts that read the same become one that stands for both. -/
def unify (first second : StampedText Character) : StampedText Character :=
  first.zipWith (fun letter other =>
    { letter with stamps := letter.stamps ++ other.stamps }) second

/-- Keystrokes that are still there, in their order. -/
def Holds
    (text : StampedText Character)
    (keystrokes : List (Character × Nat)) : Prop :=
  List.SublistForall₂
    (fun keystroke letter =>
      letter.character = keystroke.1 ∧ keystroke.2 ∈ letter.stamps)
    keystrokes text

end StampedText

/-- The keystrokes that are not among those given up. -/
def keystrokesWithout
    (gone : List Nat)
    (keystrokes : List (Character × Nat)) : List (Character × Nat) :=
  keystrokes.filter fun keystroke => decide (keystroke.2 ∉ gone)

/-- A list without what is blank at its two ends. -/
def trimming {Item : Type} (isBlank : Item → Bool) (items : List Item) :
    List Item :=
  (items.dropWhile isBlank).rdropWhile isBlank

section Keystrokes

variable {gone more : List Nat} {keystrokes : List (Character × Nat)}

theorem keystrokesWithout_sublist
    (isMore : gone ⊆ more)
    (keystrokes : List (Character × Nat)) :
    (keystrokesWithout more keystrokes).Sublist
      (keystrokesWithout gone keystrokes) := by
  refine monotone_filter_right keystrokes fun keystroke isKept => ?_
  simp only [decide_eq_true_eq] at isKept ⊢
  exact fun isGone => isKept (isMore isGone)

theorem keystrokesWithout_append :
    keystrokesWithout (gone ++ more) keystrokes =
      keystrokesWithout more (keystrokesWithout gone keystrokes) := by
  unfold keystrokesWithout
  rw [List.filter_filter]
  refine filter_congr fun keystroke _ => ?_
  rw [← Bool.decide_and]
  refine decide_eq_decide.mpr ?_
  rw [mem_append, not_or, and_comm]

end Keystrokes

namespace StampedText

variable {text other first second : StampedText Character}
  {keystrokes fewer : List (Character × Nat)}

namespace Holds

theorem nil : Holds text [] :=
  List.SublistForall₂.nil

theorem eq_nil
    (holds : Holds ([] : StampedText Character) keystrokes) :
    keystrokes = [] := by
  cases holds
  rfl

theorem stamp_mem
    (holds : Holds text keystrokes)
    {keystroke : Character × Nat}
    (isKeystroke : keystroke ∈ keystrokes) :
    keystroke.2 ∈ stamps text := by
  induction holds with
  | nil =>
    cases isKeystroke
  | cons isIt _ inductionHypothesis =>
    rcases mem_cons.mp isKeystroke with rfl | isLater
    · exact mem_append_left _ isIt.2
    · exact mem_append_right _ (inductionHypothesis isLater)
  | cons_right _ inductionHypothesis =>
    exact mem_append_right _ (inductionHypothesis isKeystroke)

/-- A text holds each part of what it holds. -/
theorem of_fewer
    (holds : Holds text keystrokes)
    (isPart : fewer.Sublist keystrokes) :
    Holds text fewer := by
  induction holds generalizing fewer with
  | nil =>
    rw [sublist_nil.mp isPart]
    exact nil
  | cons isIt _ inductionHypothesis =>
    cases isPart with
    | cons _ isPart =>
      exact .cons_right (inductionHypothesis isPart)
    | cons_cons _ isPart =>
      exact .cons isIt (inductionHypothesis isPart)
  | cons_right _ inductionHypothesis =>
    exact .cons_right (inductionHypothesis isPart)

theorem of_sublist
    (holds : Holds text keystrokes)
    (isPart : text.Sublist other) :
    Holds other keystrokes := by
  obtain ⟨letters, areIts, arePart⟩ := sublistForall₂_iff.mp holds
  exact sublistForall₂_iff.mpr ⟨letters, areIts, arePart.trans isPart⟩

/-- A joined text holds a first part in its first and the rest in its second. -/
theorem split
    (holds : Holds (first ++ second) keystrokes) :
    ∃ early late,
      keystrokes = early ++ late ∧ Holds first early ∧ Holds second late := by
  induction first generalizing keystrokes with
  | nil =>
    exact ⟨[], keystrokes, rfl, .nil, holds⟩
  | cons letter rest inductionHypothesis =>
    cases holds with
    | nil =>
      exact ⟨[], [], rfl, .nil, .nil⟩
    | cons isIt holds =>
      obtain ⟨early, late, rfl, holdsEarly, holdsLate⟩ :=
        inductionHypothesis holds
      exact ⟨_ :: early, late, rfl, .cons isIt holdsEarly, holdsLate⟩
    | cons_right holds =>
      obtain ⟨early, late, rfl, holdsEarly, holdsLate⟩ :=
        inductionHypothesis holds
      exact ⟨early, late, rfl, .cons_right holdsEarly, holdsLate⟩

theorem append
    {late : List (Character × Nat)}
    (holds : Holds first keystrokes)
    (holdsLate : Holds second late) :
    Holds (first ++ second) (keystrokes ++ late) := by
  induction holds with
  | @nil letters =>
    exact holdsLate.of_sublist (sublist_append_right _ _)
  | cons isIt _ inductionHypothesis =>
    exact .cons isIt inductionHypothesis
  | cons_right _ inductionHypothesis =>
    exact .cons_right inductionHypothesis

theorem cut
    {lost : StampedText Character}
    (holds : Holds (first ++ lost ++ second) keystrokes) :
    Holds (first ++ second) (keystrokesWithout (stamps lost) keystrokes) := by
  obtain ⟨early, late, rfl, holdsEarly, holdsLate⟩ := holds.split
  obtain ⟨early, between, rfl, holdsEarly, holdsBetween⟩ := holdsEarly.split
  have noneBetween : keystrokesWithout (stamps lost) between = [] := by
    refine filter_eq_nil_iff.mpr fun keystroke isBetween => ?_
    rw [decide_eq_true_eq, not_not]
    exact holdsBetween.stamp_mem isBetween
  unfold keystrokesWithout at noneBetween ⊢
  rw [filter_append, filter_append, noneBetween, append_nil]
  exact (holdsEarly.of_fewer filter_sublist).append
    (holdsLate.of_fewer filter_sublist)

/-- Letters that stand for more hold what they held. -/
theorem mono
    (holds : Holds text keystrokes)
    (standsForMore :
      List.Forall₂
        (fun letter richer =>
          richer.character = letter.character ∧
            letter.stamps ⊆ richer.stamps)
        text other) :
    Holds other keystrokes := by
  induction holds generalizing other with
  | nil =>
    exact .nil
  | cons isIt _ inductionHypothesis =>
    cases standsForMore with
    | cons isRicher areRicher =>
      exact .cons ⟨isRicher.1.trans isIt.1, isRicher.2 isIt.2⟩
        (inductionHypothesis areRicher)
  | cons_right _ inductionHypothesis =>
    cases standsForMore with
    | cons _ areRicher =>
      exact .cons_right (inductionHypothesis areRicher)

theorem typed (keystrokes : List (Character × Nat)) :
    Holds (StampedText.typed keystrokes) keystrokes := by
  induction keystrokes with
  | nil =>
    exact .nil
  | cons keystroke rest inductionHypothesis =>
    exact .cons ⟨rfl, mem_singleton_self _⟩ inductionHypothesis

end Holds

/-- Each letter of a unified text stands for more than the two it is made of. -/
theorem unify_richer
    (sameString : first.string = second.string) :
    List.Forall₂
        (fun letter richer =>
          richer.character = letter.character ∧
            letter.stamps ⊆ richer.stamps)
        first (unify first second) ∧
      List.Forall₂
        (fun letter richer =>
          richer.character = letter.character ∧
            letter.stamps ⊆ richer.stamps)
        second (unify first second) := by
  induction first generalizing second with
  | nil =>
    cases second with
    | nil => exact ⟨.nil, .nil⟩
    | cons _ _ => cases sameString
  | cons letter rest inductionHypothesis =>
    cases second with
    | nil =>
      cases sameString
    | cons other others =>
      obtain ⟨sameCharacter, sameRest⟩ := List.cons.inj sameString
      obtain ⟨richer, alsoRicher⟩ := inductionHypothesis sameRest
      exact
        ⟨.cons ⟨rfl, subset_append_left _ _⟩ richer,
          .cons ⟨sameCharacter, subset_append_right _ _⟩ alsoRicher⟩

end StampedText

end GuestKernel
