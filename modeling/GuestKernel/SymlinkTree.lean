import Mathlib.Data.List.Basic
import Mathlib.Data.List.Infix

namespace GuestKernel
open List

/-!
# Resolution in a tree with symlinks

A place is the list of names from the root down to it.  A path is a list of
moves, a symlink stands for the moves of its target, and resolution carries
the moves out one by one, from left to right.  Nothing here depends on how a
name or a path is written.
-/

/-- One move of a path. -/
inductive Move (Name : Type) where
  | here
  | up
  | into (name : Name)
  deriving Repr, DecidableEq

/-- The target of a symlink: its moves, from the root or from its directory. -/
structure SymlinkTarget (Name : Type) where
  absolute : Bool
  moves : List (Move Name)

/-- A tree says which places are symlinks. -/
abbrev SymlinkTree (Name : Type) := List Name → Option (SymlinkTarget Name)

namespace SymlinkTree

variable {Name : Type}

/--
The reference resolution of moves from a place.  A symlink in the last place
of the path is followed only if `follow` says so.
-/
inductive Resolves (tree : SymlinkTree Name) (follow : Bool) :
    List Name → List (Move Name) → List Name → Prop where
  | done {place : List Name} :
      Resolves tree follow place [] place
  | here {place result : List Name} {rest : List (Move Name)} :
      Resolves tree follow place rest result →
      Resolves tree follow place (.here :: rest) result
  | up {place result : List Name} {rest : List (Move Name)} :
      Resolves tree follow place.dropLast rest result →
      Resolves tree follow place (.up :: rest) result
  | into {place result : List Name} {rest : List (Move Name)}
      {name : Name} :
      tree (place ++ [name]) = none ∨ rest = [] ∧ follow = false →
      Resolves tree follow (place ++ [name]) rest result →
      Resolves tree follow place (.into name :: rest) result
  | link {place result : List Name} {rest : List (Move Name)}
      {name : Name} {target : SymlinkTarget Name} :
      tree (place ++ [name]) = some target →
      rest ≠ [] ∨ follow = true →
      Resolves tree follow (if target.absolute then [] else place)
        (target.moves ++ rest) result →
      Resolves tree follow place (.into name :: rest) result

/-- Neither the place nor a directory on the way to it is a symlink. -/
def LinkFree (tree : SymlinkTree Name) (place : List Name) : Prop :=
  ∀ front, front <+: place → front ≠ [] → tree front = none

variable
  {tree : SymlinkTree Name}
  {follow : Bool}
  {place result : List Name}
  {moves : List (Move Name)}

theorem linkFree_nil : tree.LinkFree [] := by
  intro front isPrefix nonempty
  exact (nonempty (prefix_nil.mp isPrefix)).elim

theorem LinkFree.ofFront
    {front : List Name}
    (free : tree.LinkFree place)
    (isPrefix : front <+: place) :
    tree.LinkFree front :=
  fun _ inFront => free _ (inFront.trans isPrefix)

theorem LinkFree.concat
    {name : Name}
    (free : tree.LinkFree place)
    (plain : tree (place ++ [name]) = none) :
    tree.LinkFree (place ++ [name]) := by
  intro front isPrefix nonempty
  rcases prefix_concat_iff.mp isPrefix with rfl | inPlace
  · exact plain
  · exact free front inPlace nonempty

namespace Resolves

/-- Moves resolve to at most one place. -/
theorem deterministic
    {other : List Name}
    (resolves : tree.Resolves follow place moves result)
    (otherwise : tree.Resolves follow place moves other) :
    other = result := by
  induction resolves with
  | done =>
    cases otherwise
    rfl
  | here _ inductionHypothesis =>
    cases otherwise with
    | here later =>
      exact inductionHypothesis later
  | up _ inductionHypothesis =>
    cases otherwise with
    | up later =>
      exact inductionHypothesis later
  | into plain _ inductionHypothesis =>
    cases otherwise with
    | into _ later =>
      exact inductionHypothesis later
    | link isLink follows _ =>
      rcases plain with isPlain | ⟨isLast, stays⟩
      · cases isPlain.symm.trans isLink
      · rcases follows with more | followed
        · exact (more isLast).elim
        · cases stays.symm.trans followed
  | link isLink follows _ inductionHypothesis =>
    cases otherwise with
    | into plain _ =>
      rcases plain with isPlain | ⟨isLast, stays⟩
      · cases isPlain.symm.trans isLink
      · rcases follows with more | followed
        · exact (more isLast).elim
        · cases stays.symm.trans followed
    | link alsoLink _ later =>
      cases isLink.symm.trans alsoLink
      exact inductionHypothesis later

/-- Walking down to a place free of symlinks and on is starting from it. -/
theorem of_walk_down
    {names : List Name}
    (free : tree.LinkFree (place ++ names))
    (resolves :
      tree.Resolves follow place (names.map .into ++ moves) result) :
    tree.Resolves follow (place ++ names) moves result := by
  induction names generalizing place with
  | nil =>
    simpa using resolves
  | cons name names inductionHypothesis =>
    rw [append_cons] at free ⊢
    have plain : tree (place ++ [name]) = none :=
      free _ (prefix_append _ _) (by simp)
    cases resolves with
    | into _ later =>
      exact inductionHypothesis free later
    | link isLink _ _ =>
      cases plain.symm.trans isLink

/--
From a place free of symlinks, only the last name of the result can be a
symlink, and that only when links are not followed.
-/
theorem linkFree
    (resolves : tree.Resolves follow place moves result)
    (free : tree.LinkFree place) :
    tree.LinkFree result.dropLast ∧
      (follow = true → tree.LinkFree result) := by
  induction resolves with
  | done =>
    exact ⟨free.ofFront ( dropLast_prefix _), fun _ => free⟩
  | here _ inductionHypothesis =>
    exact inductionHypothesis free
  | up _ inductionHypothesis =>
    exact inductionHypothesis (free.ofFront ( dropLast_prefix _))
  | into plain later inductionHypothesis =>
    rcases plain with isPlain | ⟨isLast, stays⟩
    · exact inductionHypothesis (free.concat isPlain)
    · subst isLast
      cases later
      rw [dropLast_concat]
      exact ⟨free, fun followed => by cases stays.symm.trans followed⟩
  | link _ _ _ inductionHypothesis =>
    refine inductionHypothesis ?_
    split
    · exact linkFree_nil
    · exact free

end Resolves

end SymlinkTree

end GuestKernel
