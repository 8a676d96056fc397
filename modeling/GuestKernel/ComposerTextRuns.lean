import GuestKernel.ComposerDraftRuns

namespace CodexPad
open List Function

open GuestKernel

/-!
# Where the typed texts are

Each keystroke is at one place at most, and what is left of a text is at one
place as a whole.  Every step but an edit moves texts from place to place.
-/

variable {Character : Type}

namespace ComposerWorld

/-- The places that a text may be at. -/
def MayBeAt
    (world : ComposerWorld Character)
    (text : TypedText Character) : DraftPlace → Prop
  | .draft key =>
    ∃ thread, world.MayBeDraftOf text thread ∧ draftKey thread = key
  | .send task =>
    ∀ send, world.sends task = some send →
      world.MayBeDraftOf text send.place.target

/-- The keystrokes that were deleted or trimmed. -/
def gone (world : ComposerWorld Character) : List Nat :=
  world.deleted ++ world.trimmed

/-- What is left of a text. -/
def left
    (world : ComposerWorld Character)
    (text : TypedText Character) : List (Character × Nat) :=
  keystrokesWithout world.gone text.keystrokes

theorem select_rest
    (world : ComposerWorld Character)
    (thread : Option ThreadID) :
    (world.select thread).sends = world.sends ∧
      (world.select thread).nextStamp = world.nextStamp ∧
      (world.select thread).typedTexts = world.typedTexts ∧
      (world.select thread).deleted = world.deleted ∧
      (world.select thread).trimmed = world.trimmed ∧
      (world.select thread).firstThreads = world.firstThreads := by
  unfold select
  split <;> exact ⟨rfl, rfl, rfl, rfl, rfl, rfl⟩

theorem adoptThread_records
    (world : ComposerWorld Character)
    (creation : ThreadCreation)
    (thread : ThreadID) :
    (world.adoptThread creation thread).nextStamp = world.nextStamp ∧
      (world.adoptThread creation thread).typedTexts = world.typedTexts ∧
      (world.adoptThread creation thread).deleted = world.deleted ∧
      (world.adoptThread creation thread).trimmed = world.trimmed ∧
      (world.adoptThread creation thread).firstThreads =
        world.firstThreads := by
  have selected := (world.select_rest (some thread)).2
  unfold adoptThread
  split
  · dsimp only
    split <;> exact selected
  · exact ⟨rfl, rfl, rfl, rfl, rfl⟩

variable {world next : ComposerWorld Character} {creation : ThreadCreation}
  {text : TypedText Character}

theorem draft_adoptThread
    {thread : ThreadID}
    (noSend : creation.send = none) :
    (world.adoptThread creation thread).draft = world.draft := by
  unfold adoptThread
  rw [noSend]
  split
  · exact world.draft_select (some thread)
  · rfl

/-- A thread that is adopted with a draft has that of no thread. -/
theorem draft_adoptThread_preserving
    {thread : ThreadID}
    (isSend : creation.send.isSome = true)
    (unselected :
      creation.generation = world.selectionGeneration →
      world.selectedThreadID = none) :
    (world.adoptThread creation thread).draft = world.draft ∨
      (creation.generation = world.selectionGeneration ∧
        (world.adoptThread creation thread).draft =
          Function.update
            (Function.update world.draft thread.val (world.draft ""))
            "" []) := by
  by_cases isCurrent : world.selectionGeneration = creation.generation
  · have isNone := unselected isCurrent.symm
    refine .inr ⟨isCurrent.symm, ?_⟩
    have sameComposer : world.draft "" = world.composerText := by
      rw [← world.draft_selected, isNone]
      rfl
    have adopted :
        world.adoptThread creation thread =
          { world.select (some thread) with
            composerText := world.composerText
            drafts :=
              Function.update (world.select (some thread)).drafts "" [] } := by
      unfold adoptThread
      rw [if_pos isCurrent, if_pos isSend, isNone]
      rfl
    have selected :
        (world.select (some thread)).selectedThreadID = some thread ∧
          (world.select (some thread)).drafts =
            Function.update world.drafts "" world.composerText := by
      unfold select
      rw [isNone]
      exact ⟨rfl, rfl⟩
    rw [adopted]
    funext key
    rw [draft]
    dsimp only
    rw [selected.1, selected.2]
    by_cases isOld : key = ""
    · subst isOld
      rw [if_neg fun same => thread.property same.symm, update_self,
        update_self]
    · rw [update_of_ne isOld, update_of_ne isOld,
        update_of_ne isOld]
      by_cases isNew : key = thread.val
      · subst isNew
        rw [update_self, sameComposer]
        exact if_pos rfl
      · rw [update_of_ne isNew, draft_of_ne]
        · exact if_neg isNew
        · rw [isNone]
          exact isOld
  · refine .inl ?_
    unfold adoptThread
    rw [if_neg isCurrent]

/-- The books on the keystrokes. -/
structure TextLaw
    (alphabet : Alphabet Character)
    (world : ComposerWorld Character) : Prop where
  apart :
    ∀ place other stamp,
      stamp ∈ StampedText.stamps (world.textAt place) →
      stamp ∈ StampedText.stamps (world.textAt other) → place = other
  known :
    ∀ place, ∀ stamp ∈ StampedText.stamps (world.textAt place),
      stamp < world.nextStamp
  typed :
    ∀ text ∈ world.typedTexts, ∀ keystroke ∈ text.keystrokes,
      keystroke.2 < world.nextStamp
  faithful :
    ∀ place, ∀ letter ∈ world.textAt place,
      ∀ text ∈ world.typedTexts, ∀ keystroke ∈ text.keystrokes,
        keystroke.2 ∈ letter.stamps → keystroke.1 = letter.character
  blank :
    ∀ text ∈ world.typedTexts, ∀ keystroke ∈ text.keystrokes,
      keystroke.2 ∈ world.trimmed → alphabet.isBlank keystroke.1 = true
  trimmed : ∀ stamp ∈ world.trimmed, stamp < world.nextStamp
  kept :
    ∀ text ∈ world.typedTexts,
      world.left text = [] ∨
        ∃ place, world.MayBeAt text place ∧
          (world.textAt place).Holds (world.left text)

theorem MayBeDraftOf.mono
    {thread : Option ThreadID}
    (mayBe : world.MayBeDraftOf text thread)
    (moreThreads : world.firstThreads ⊆ next.firstThreads) :
    next.MayBeDraftOf text thread := by
  rcases mayBe with same | ⟨noThread, made, isMade, same⟩
  · exact .inl same
  · exact .inr ⟨noThread, made, moreThreads isMade, same⟩

theorem MayBeDraftOf.of_none
    {made : ThreadID}
    (mayBe : world.MayBeDraftOf text none)
    (isMade : made ∈ next.firstThreads) :
    next.MayBeDraftOf text (some made) := by
  refine .inr ⟨?_, made, isMade, rfl⟩
  rcases mayBe with same | ⟨noThread, _⟩
  · exact same.symm
  · exact noThread

namespace TextLaw

variable {alphabet : Alphabet Character} {world next : ComposerWorld Character}

theorem new : TextLaw alphabet (.new : ComposerWorld Character) := by
  have isEmpty : ∀ place,
      (.new : ComposerWorld Character).textAt place = [] := by
    intro place
    cases place with
    | draft key =>
      change ite _ _ _ = _
      split <;> rfl
    | send task =>
      rfl
  constructor
  · intro place _ stamp isStamp
    rw [isEmpty] at isStamp
    cases isStamp
  · intro place stamp isStamp
    rw [isEmpty] at isStamp
    cases isStamp
  · exact fun _ isTyped => by cases isTyped
  · exact fun _ _ _ _ isTyped => by cases isTyped
  · exact fun _ isTyped => by cases isTyped
  · exact fun _ isTrimmed => by cases isTrimmed
  · exact fun _ isTyped => by cases isTyped

/--
Texts move: what stands at a place comes from places that are moved there, and
what was held is held where it is moved to, but for what is trimmed.
-/
theorem moves
    (law : world.TextLaw alphabet)
    (goes : DraftPlace → DraftPlace)
    (sameStamp : next.nextStamp = world.nextStamp)
    (sameTexts : next.typedTexts = world.typedTexts)
    (sameDeleted : next.deleted = world.deleted)
    (moreTrimmed : world.trimmed ⊆ next.trimmed)
    (blanks :
      ∀ stamp ∈ next.trimmed, stamp ∈ world.trimmed ∨
        ∃ place, ∃ letter ∈ world.textAt place, stamp ∈ letter.stamps ∧
          alphabet.isBlank letter.character = true)
    (comes :
      ∀ place, ∀ letter ∈ next.textAt place, ∀ stamp ∈ letter.stamps,
        ∃ source, goes source = place ∧
          ∃ old ∈ world.textAt source, stamp ∈ old.stamps ∧
          old.character = letter.character)
    (holds :
      ∀ place keystrokes, (world.textAt place).Holds keystrokes →
        (next.textAt (goes place)).Holds
          (keystrokesWithout next.gone keystrokes))
    (may :
      ∀ text place, world.textAt place ≠ [] → world.MayBeAt text place →
        next.MayBeAt text (goes place)) :
    next.TextLaw alphabet := by
  have comesFrom : ∀ place stamp,
      stamp ∈ StampedText.stamps (next.textAt place) →
      ∃ source, goes source = place ∧
        stamp ∈ StampedText.stamps (world.textAt source) := by
    intro place stamp isStamp
    obtain ⟨letter, isLetter, isIts⟩ := mem_flatMap.mp isStamp
    obtain ⟨source, isMoved, old, isOld, isOlds, _⟩ :=
      comes place letter isLetter stamp isIts
    exact ⟨source, isMoved, mem_flatMap.mpr ⟨old, isOld, isOlds⟩⟩
  have moreGone : world.gone ⊆ next.gone := by
    intro stamp isGone
    unfold gone at isGone ⊢
    rw [sameDeleted]
    rcases mem_append.mp isGone with isDeleted | isTrimmed
    · exact mem_append_left _ isDeleted
    · exact mem_append_right _ (moreTrimmed isTrimmed)
  constructor
  · intro place other stamp isHere isThere
    obtain ⟨source, rfl, wasHere⟩ := comesFrom place stamp isHere
    obtain ⟨source', rfl, wasThere⟩ := comesFrom other stamp isThere
    rw [law.apart source source' stamp wasHere wasThere]
  · intro place stamp isHere
    obtain ⟨source, rfl, wasHere⟩ := comesFrom place stamp isHere
    rw [sameStamp]
    exact law.known source stamp wasHere
  · rw [sameStamp, sameTexts]
    exact law.typed
  · intro place letter isLetter text isTyped keystroke isKeystroke isStamp
    rw [sameTexts] at isTyped
    obtain ⟨source, _, old, isOld, isOlds, sameCharacter⟩ :=
      comes place letter isLetter keystroke.2 isStamp
    rw [← sameCharacter]
    exact law.faithful source old isOld text isTyped keystroke isKeystroke
      isOlds
  · intro text isTyped keystroke isKeystroke isTrimmed
    rw [sameTexts] at isTyped
    rcases blanks keystroke.2 isTrimmed with
      old | ⟨place, letter, isLetter, isStamp, isBlank⟩
    · exact law.blank text isTyped keystroke isKeystroke old
    · rw [law.faithful place letter isLetter text isTyped keystroke isKeystroke
        isStamp]
      exact isBlank
  · rw [sameStamp]
    intro stamp isTrimmed
    rcases blanks stamp isTrimmed with old | ⟨place, letter, isLetter, isIts, _⟩
    · exact law.trimmed stamp old
    · exact law.known place stamp
        (mem_flatMap.mpr ⟨letter, isLetter, isIts⟩)
  · intro text isTyped
    rw [sameTexts] at isTyped
    have isPart :
        (next.left text).Sublist
          (keystrokesWithout next.gone (world.left text)) := by
      unfold left
      rw [← keystrokesWithout_append]
      exact keystrokesWithout_sublist
        (append_subset.mpr ⟨moreGone, fun _ isGone => isGone⟩) _
    rcases law.kept text isTyped with isNothing | ⟨place, mayBe, isHeld⟩
    · rw [isNothing] at isPart
      exact .inl (sublist_nil.mp isPart)
    · by_cases isEmpty : world.textAt place = []
      · rw [isEmpty] at isHeld
        rw [isHeld.eq_nil] at isPart
        exact .inl (sublist_nil.mp isPart)
      · exact .inr
          ⟨goes place, may text place isEmpty mayBe,
            (holds place _ isHeld).of_fewer isPart⟩

/-- A step that leaves every text where it is. -/
theorem same
    (law : world.TextLaw alphabet)
    (sameStamp : next.nextStamp = world.nextStamp)
    (sameTexts : next.typedTexts = world.typedTexts)
    (sameDeleted : next.deleted = world.deleted)
    (sameTrimmed : next.trimmed = world.trimmed)
    (sameText : ∀ place, next.textAt place = world.textAt place)
    (may :
      ∀ text place, world.MayBeAt text place → next.MayBeAt text place) :
    next.TextLaw alphabet := by
  refine law.moves id sameStamp sameTexts sameDeleted ?_ ?_ ?_ ?_ ?_
  · rw [sameTrimmed]
    exact fun _ isTrimmed => isTrimmed
  · rw [sameTrimmed]
    exact fun _ isTrimmed => .inl isTrimmed
  · intro place letter isLetter stamp isStamp
    rw [sameText] at isLetter
    exact ⟨place, rfl, letter, isLetter, isStamp, rfl⟩
  · intro place keystrokes isHeld
    rw [sameText]
    exact isHeld.of_fewer filter_sublist
  · exact fun text place _ mayBe => may text place mayBe

/-- A text moves from one place to another, and no other place changes. -/
theorem movesTo
    (law : world.TextLaw alphabet)
    {source target : DraftPlace}
    (differs : target ≠ source)
    (sameStamp : next.nextStamp = world.nextStamp)
    (sameTexts : next.typedTexts = world.typedTexts)
    (sameDeleted : next.deleted = world.deleted)
    (moreTrimmed : world.trimmed ⊆ next.trimmed)
    (blanks :
      ∀ stamp ∈ next.trimmed, stamp ∈ world.trimmed ∨
        ∃ letter ∈ world.textAt source, stamp ∈ letter.stamps ∧
          alphabet.isBlank letter.character = true)
    (isEmpty : next.textAt source = [])
    (others :
      ∀ place, place ≠ source → place ≠ target →
        next.textAt place = world.textAt place)
    (comes :
      ∀ letter ∈ next.textAt target, ∀ stamp ∈ letter.stamps,
        ∃ old ∈ world.textAt source ++ world.textAt target,
          stamp ∈ old.stamps ∧ old.character = letter.character)
    (holds :
      ∀ keystrokes,
        (world.textAt source).Holds keystrokes ∨
            (world.textAt target).Holds keystrokes →
          (next.textAt target).Holds
            (keystrokesWithout next.gone keystrokes))
    (mayMove :
      ∀ text, world.MayBeAt text source → next.MayBeAt text target)
    (mayStay :
      ∀ text place, place ≠ source → world.textAt place ≠ [] →
        world.MayBeAt text place → next.MayBeAt text place) :
    next.TextLaw alphabet := by
  refine law.moves (fun place => if place = source then target else place)
    sameStamp sameTexts sameDeleted moreTrimmed ?_ ?_ ?_ ?_
  · intro stamp isTrimmed
    exact (blanks stamp isTrimmed).imp_right fun isNew => ⟨source, isNew⟩
  · intro place letter isLetter stamp isStamp
    by_cases isTarget : place = target
    · subst isTarget
      obtain ⟨old, isOld, isIts⟩ := comes letter isLetter stamp isStamp
      rcases mem_append.mp isOld with isFirst | isSecond
      · exact ⟨source, if_pos rfl, old, isFirst, isIts⟩
      · exact ⟨place, if_neg differs, old, isSecond, isIts⟩
    · by_cases isSource : place = source
      · subst isSource
        rw [isEmpty] at isLetter
        cases isLetter
      · rw [others place isSource isTarget] at isLetter
        exact ⟨place, if_neg isSource, letter, isLetter, isStamp, rfl⟩
  · intro place keystrokes isHeld
    by_cases isSource : place = source
    · subst isSource
      rw [if_pos rfl]
      exact holds keystrokes (.inl isHeld)
    · rw [if_neg isSource]
      by_cases isTarget : place = target
      · subst isTarget
        exact holds keystrokes (.inr isHeld)
      · rw [others place isSource isTarget]
        exact isHeld.of_fewer filter_sublist
  · intro text place isOccupied mayBe
    by_cases isSource : place = source
    · subst isSource
      rw [if_pos rfl]
      exact mayMove text mayBe
    · rw [if_neg isSource]
      exact mayStay text place isSource isOccupied mayBe

variable {task : Nat} {text : StampedText Character} {thread : ThreadID}

section

variable (law : world.TextLaw alphabet)
include law

/-- The composer's text is taken by a send for the selected thread. -/
theorem takes
    (place : SendPlace)
    (isFree : world.sends task = none)
    (isTarget : place.target = world.selectedThreadID)
    (sameStamp : next.nextStamp = world.nextStamp)
    (sameTexts : next.typedTexts = world.typedTexts)
    (sameDeleted : next.deleted = world.deleted)
    (sameFirst : next.firstThreads = world.firstThreads)
    (sameSelection : next.selectedThreadID = world.selectedThreadID)
    (sameDrafts : next.drafts = world.drafts)
    (isTaken : next.composerText = [])
    (isTrimmed :
      next.trimmed = world.trimmed ++ alphabet.trimmings world.composerText)
    (isSent :
      next.sends =
        Function.update world.sends task
          (some ⟨alphabet.trimming world.composerText, place⟩)) :
    next.TextLaw alphabet := by
  let selected := draftKey world.selectedThreadID
  have wasFree : world.textAt (.send task) = [] := by
    rw [textAt_send, isFree]
    rfl
  have nowSent :
      next.textAt (.send task) = alphabet.trimming world.composerText := by
    rw [textAt_send, isSent, update_self]
    rfl
  have wasComposer : world.textAt (.draft selected) = world.composerText :=
    world.draft_selected
  have sameMay : ∀ text thread, world.MayBeDraftOf text thread →
      next.MayBeDraftOf text thread := by
    intro text thread mayBe
    unfold MayBeDraftOf at mayBe ⊢
    rw [sameFirst]
    exact mayBe
  refine @movesTo _ _ _ _ law (.draft selected) (.send task) nofun
    sameStamp sameTexts sameDeleted ?_ ?_ ?_ ?_ ?_ ?_ ?_ ?_
  · rw [isTrimmed]
    exact subset_append_left _ _
  · intro stamp wasTrimmed
    rw [isTrimmed] at wasTrimmed
    rcases mem_append.mp wasTrimmed with old | isNew
    · exact .inl old
    · obtain ⟨letter, isLetter, isIts⟩ := alphabet.blank_of_trimmings isNew
      exact .inr ⟨letter, wasComposer ▸ isLetter, isIts⟩
  · rw [textAt_draft, draft, sameSelection, if_pos rfl, isTaken]
  · intro other notDraft notSend
    cases other with
    | draft key =>
      have isOther : key ≠ draftKey world.selectedThreadID :=
        fun same => notDraft (congrArg DraftPlace.draft same)
      rw [textAt_draft, textAt_draft, draft, sameSelection, if_neg isOther,
        draft_of_ne isOther, sameDrafts]
    | send other =>
      rw [textAt_send, isSent, update_of_ne]
      · rfl
      · exact fun same => notSend (congrArg DraftPlace.send same)
  · intro letter isLetter stamp isStamp
    rw [nowSent] at isLetter
    refine ⟨letter, mem_append_left _ ?_, isStamp, rfl⟩
    rw [wasComposer]
    exact (alphabet.trimming_sublist _).subset isLetter
  · rintro keystrokes (isHeld | isHeld)
    · rw [nowSent]
      rw [wasComposer] at isHeld
      refine (alphabet.holds_trimming isHeld).of_fewer ?_
      refine keystrokesWithout_sublist ?_ keystrokes
      unfold gone
      rw [isTrimmed, ← append_assoc]
      exact subset_append_right _ _
    · rw [wasFree] at isHeld
      rw [isHeld.eq_nil]
      exact .nil
  · rintro text ⟨thread, mayBe, sameKey⟩ send isSend
    rw [isSent, update_self] at isSend
    cases isSend
    rw [isTarget, ← draftKey_injective sameKey]
    exact sameMay text thread mayBe
  · intro text source _ isOccupied mayBe
    cases source with
    | draft key =>
      obtain ⟨thread, mayBe, sameKey⟩ := mayBe
      exact ⟨thread, sameMay text thread mayBe, sameKey⟩
    | send other =>
      intro send isSend
      rw [isSent, update_of_ne] at isSend
      · exact sameMay text _ (mayBe send isSend)
      · rintro rfl
        exact isOccupied wasFree

/-- The text of a send is put back into the draft of its thread. -/
theorem restores
    [DecidableEq Character]
    {send : ComposerSend Character}
    {thread : Option ThreadID}
    (isSend : world.sends task = some send)
    (isTarget : send.place.target = thread)
    (sameStamp : next.nextStamp = world.nextStamp)
    (sameTexts : next.typedTexts = world.typedTexts)
    (sameDeleted : next.deleted = world.deleted)
    (sameTrimmed : next.trimmed = world.trimmed)
    (sameFirst : next.firstThreads = world.firstThreads)
    (isRestored :
      next.draft =
        Function.update world.draft (draftKey thread)
          (alphabet.recovered send.text (world.draft (draftKey thread))))
    (isOver : next.sends = Function.update world.sends task none) :
    next.TextLaw alphabet := by
  let key := draftKey thread
  have wasSent : world.textAt (.send task) = send.text := by
    rw [textAt_send, isSend]
    rfl
  have nowDraft :
      next.textAt (.draft key) =
        alphabet.recovered send.text (world.draft key) := by
    rw [textAt_draft, isRestored, update_self]
  have moreThreads : world.firstThreads ⊆ next.firstThreads := by
    rw [sameFirst]
    exact fun _ isMade => isMade
  refine @movesTo _ _ _ _ law (.send task) (.draft key) nofun
    sameStamp sameTexts sameDeleted ?_ ?_ ?_ ?_ ?_ ?_ ?_ ?_
  · rw [sameTrimmed]
    exact fun _ isTrimmed => isTrimmed
  · rw [sameTrimmed]
    exact fun _ isTrimmed => .inl isTrimmed
  · rw [textAt_send, isOver, update_self]
    rfl
  · intro other notSend notDraft
    cases other with
    | draft other =>
      rw [textAt_draft, isRestored, update_of_ne]
      · rfl
      · exact fun same => notDraft (congrArg DraftPlace.draft same)
    | send other =>
      rw [textAt_send, isOver, update_of_ne]
      · rfl
      · exact fun same => notSend (congrArg DraftPlace.send same)
  · intro letter isLetter stamp isStamp
    rw [nowDraft] at isLetter
    rw [wasSent]
    exact alphabet.recovered_comesFrom letter isLetter stamp isStamp
  · intro keystrokes isHeld
    refine StampedText.Holds.of_fewer ?_ filter_sublist
    rw [nowDraft]
    rw [wasSent] at isHeld
    rcases isHeld with isHeld | isHeld
    · exact alphabet.recovered_holds isHeld
    · exact alphabet.recovered_holds_pending isHeld
  · intro text mayBe
    exact ⟨thread, (isTarget ▸ mayBe send isSend).mono moreThreads, rfl⟩
  · intro text source _ _ mayBe
    cases source with
    | draft other =>
      obtain ⟨thread, mayBe, sameKey⟩ := mayBe
      exact ⟨thread, mayBe.mono moreThreads, sameKey⟩
    | send other =>
      intro otherSend isOther
      rw [isOver] at isOther
      exact (mayBe otherSend (eq_some_of_update_none isOther)).mono
        moreThreads

/-- A send goes on in the thread that was made, which may be adopted. -/
theorem continues
    (revision : Nat)
    (isWaiting : world.sends task = some ⟨text, .creatingThread⟩)
    (sameStamp : next.nextStamp = world.nextStamp)
    (sameTexts : next.typedTexts = world.typedTexts)
    (sameDeleted : next.deleted = world.deleted)
    (sameTrimmed : next.trimmed = world.trimmed)
    (isFirst : next.firstThreads = thread :: world.firstThreads)
    (adopted :
      next.draft = world.draft ∨
        (world.draft thread.val = [] ∧
          next.draft =
            Function.update
              (Function.update world.draft thread.val (world.draft "")) "" []))
    (isStarting :
      next.sends =
        Function.update world.sends task
          (some ⟨text, .startingTurn thread revision⟩)) :
    next.TextLaw alphabet := by
  have moreThreads : world.firstThreads ⊆ next.firstThreads := by
    rw [isFirst]
    exact fun _ isMade => mem_cons_of_mem _ isMade
  have sameSends : ∀ other,
      next.textAt (.send other) = world.textAt (.send other) := by
    intro other
    rw [textAt_send, textAt_send, isStarting]
    by_cases same : other = task
    · rw [same, update_self, isWaiting]
      rfl
    · rw [update_of_ne same]
  have maySend : ∀ typed other, world.MayBeAt typed (.send other) →
      next.MayBeAt typed (.send other) := by
    intro typed other mayBe send isSend
    rw [isStarting] at isSend
    rcases eq_some_of_update isSend with ⟨rfl, rfl⟩ | ⟨_, wasSend⟩
    · have mayBe := mayBe _ isWaiting
      refine MayBeDraftOf.of_none mayBe ?_
      rw [isFirst]
      exact mem_cons_self
    · exact (mayBe send wasSend).mono moreThreads
  rcases adopted with sameDraft | ⟨wasEmpty, isAdopted⟩
  · refine law.same sameStamp sameTexts sameDeleted sameTrimmed ?_ ?_
    · intro place
      cases place with
      | draft key => rw [textAt_draft, sameDraft, textAt_draft]
      | send other => exact sameSends other
    · intro typed place mayBe
      cases place with
      | draft key =>
        obtain ⟨thread, mayBe, sameKey⟩ := mayBe
        exact ⟨thread, mayBe.mono moreThreads, sameKey⟩
      | send other => exact maySend typed other mayBe
  have nowAdopted :
      next.textAt (.draft thread.val) = world.textAt (.draft "") := by
    rw [textAt_draft, isAdopted, update_of_ne thread.property,
      update_self]
    rfl
  refine @movesTo _ _ _ _ law (.draft "") (.draft thread.val) ?_
    sameStamp sameTexts sameDeleted ?_ ?_ ?_ ?_ ?_ ?_ ?_ ?_
  · exact fun same => thread.property (DraftPlace.draft.inj same)
  · rw [sameTrimmed]
    exact fun _ isTrimmed => isTrimmed
  · rw [sameTrimmed]
    exact fun _ isTrimmed => .inl isTrimmed
  · rw [textAt_draft, isAdopted, update_self]
  · intro other notOld notNew
    cases other with
    | draft other =>
      rw [textAt_draft, isAdopted, update_of_ne,
        update_of_ne]
      · rfl
      · exact fun same => notNew (congrArg DraftPlace.draft same)
      · exact fun same => notOld (congrArg DraftPlace.draft same)
    | send other => exact sameSends other
  · intro letter isLetter stamp isStamp
    rw [nowAdopted] at isLetter
    exact ⟨letter, mem_append_left _ isLetter, isStamp, rfl⟩
  · intro keystrokes isHeld
    refine StampedText.Holds.of_fewer ?_ filter_sublist
    rcases isHeld with isHeld | isHeld
    · rw [nowAdopted]
      exact isHeld
    · rw [textAt_draft, wasEmpty] at isHeld
      rw [isHeld.eq_nil]
      exact .nil
  · rintro typed ⟨draftThread, mayBe, sameKey⟩
    rw [@draftKey_injective draftThread none sameKey] at mayBe
    refine ⟨some thread, mayBe.of_none ?_, rfl⟩
    rw [isFirst]
    exact mem_cons_self
  · intro typed source _ _ mayBe
    cases source with
    | draft key =>
      obtain ⟨draftThread, mayBe, sameKey⟩ := mayBe
      exact ⟨draftThread, mayBe.mono moreThreads, sameKey⟩
    | send other => exact maySend typed other mayBe

theorem startsTurn
    {revision : Nat}
    (tracking : TurnTracking)
    (isStarting :
      world.sends task = some ⟨text, .startingTurn thread revision⟩) :
    TextLaw alphabet
      { world with
        tracking := tracking
        sends :=
          Function.update world.sends task
            (some ⟨text, .succeeded thread⟩) } := by
  refine law.same rfl rfl rfl rfl ?_ ?_
  · intro place
    cases place with
    | draft key => rfl
    | send other =>
      rw [textAt_send, textAt_send]
      dsimp only
      by_cases same : other = task
      · rw [same, update_self, isStarting]
        rfl
      · rw [update_of_ne same]
  · intro typed place mayBe
    cases place with
    | draft key => exact mayBe
    | send other =>
      intro send isSend
      dsimp only at isSend
      rcases eq_some_of_update isSend with ⟨rfl, rfl⟩ | ⟨_, wasSend⟩
      · exact mayBe ⟨text, .startingTurn thread revision⟩ isStarting
      · exact mayBe send wasSend

/-- The user replaces a piece of the composer's text. -/
theorem edits
    (start length : Nat)
    (inserted : List Character) :
    (world.edit start length inserted).TextLaw alphabet := by
  let key := draftKey world.selectedThreadID
  let keystrokes := inserted.zipIdx world.nextStamp
  let lost := (world.composerText.drop start).take length
  have wasComposer : world.textAt (.draft key) = world.composerText :=
    world.draft_selected
  have nowComposer :
      (world.edit start length inserted).textAt (.draft key) =
        world.composerText.take start ++ StampedText.typed keystrokes ++
          (world.composerText.drop start).drop length :=
    draft_selected (world.edit start length inserted)
  have others : ∀ other, other ≠ .draft key →
      (world.edit start length inserted).textAt other =
        world.textAt other := by
    intro other notDraft
    cases other with
    | draft other =>
      have isOther : other ≠ draftKey world.selectedThreadID :=
        fun same => notDraft (congrArg DraftPlace.draft same)
      have sameDraft :
          (world.edit start length inserted).draft other =
            world.drafts other :=
        draft_of_ne isOther
      rw [textAt_draft, textAt_draft, draft_of_ne isOther, sameDraft]
    | send other => rfl
  have isKeystroke : ∀ character stamp, (character, stamp) ∈ keystrokes →
      world.nextStamp ≤ stamp ∧ stamp < world.nextStamp + inserted.length :=
    fun character stamp isIts =>
      ⟨le_snd_of_mem_zipIdx isIts, snd_lt_add_of_mem_zipIdx isIts⟩
  have letters : ∀ place,
      ∀ letter ∈ (world.edit start length inserted).textAt place,
        letter ∈ world.textAt place ∨
          (place = .draft key ∧
            ∃ keystroke ∈ keystrokes,
              letter = ⟨keystroke.1, [keystroke.2]⟩) := by
    intro place letter isLetter
    by_cases isDraft : place = .draft key
    · subst isDraft
      rw [nowComposer] at isLetter
      rw [wasComposer]
      rcases mem_append.mp isLetter with isEarlier | isAfter
      · rcases mem_append.mp isEarlier with isBefore | isNew
        · exact .inl ((take_sublist _ _).subset isBefore)
        · obtain ⟨keystroke, isIts, rfl⟩ := List.mem_map.mp isNew
          exact .inr ⟨rfl, keystroke, isIts, rfl⟩
      · exact .inl ((drop_sublist _ _).subset
          ((drop_sublist _ _).subset isAfter))
    · rw [others place isDraft] at isLetter
      exact .inl isLetter
  have stamps : ∀ place stamp,
      stamp ∈ StampedText.stamps
          ((world.edit start length inserted).textAt place) →
        stamp ∈ StampedText.stamps (world.textAt place) ∨
          (place = .draft key ∧ world.nextStamp ≤ stamp ∧
            stamp < world.nextStamp + inserted.length) := by
    intro place stamp isStamp
    obtain ⟨letter, isLetter, isIts⟩ := mem_flatMap.mp isStamp
    rcases letters place letter isLetter with
      old | ⟨isDraft, ⟨character, new⟩, isNew, rfl⟩
    · exact .inl (mem_flatMap.mpr ⟨letter, old, isIts⟩)
    · rw [mem_singleton.mp isIts]
      exact .inr ⟨isDraft, isKeystroke character new isNew⟩
  constructor
  · intro place other stamp isHere isThere
    rcases stamps place stamp isHere with isOld | ⟨rfl, isNew, _⟩
    · rcases stamps other stamp isThere with isOld' | ⟨_, isNew, _⟩
      · exact law.apart place other stamp isOld isOld'
      · have := law.known place stamp isOld
        omega
    · rcases stamps other stamp isThere with isOld | ⟨rfl, _, _⟩
      · have := law.known other stamp isOld
        omega
      · rfl
  · intro place stamp isHere
    change stamp < world.nextStamp + inserted.length
    rcases stamps place stamp isHere with isOld | ⟨_, _, isNew⟩
    · have := law.known place stamp isOld
      omega
    · exact isNew
  · intro text isTyped keystroke isIts
    change keystroke.2 < world.nextStamp + inserted.length
    rcases mem_cons.mp isTyped with rfl | isOld
    · exact (isKeystroke keystroke.1 keystroke.2 isIts).2
    · have := law.typed text isOld keystroke isIts
      omega
  · intro place letter isLetter text isTyped keystroke isIts isStamp
    rcases letters place letter isLetter with
      isOld | ⟨_, ⟨character, new⟩, isNew, rfl⟩
    · have isKnown := law.known place keystroke.2
        (mem_flatMap.mpr ⟨letter, isOld, isStamp⟩)
      rcases mem_cons.mp isTyped with rfl | wasTyped
      · have := (isKeystroke keystroke.1 keystroke.2 isIts).1
        omega
      · exact law.faithful place letter isOld text wasTyped keystroke isIts
          isStamp
    · have sameStamp := mem_singleton.mp isStamp
      have isLater := (isKeystroke character new isNew).1
      rcases mem_cons.mp isTyped with rfl | wasTyped
      · have isFirst := List.mk_mem_zipIdx_iff_le_and_getElem?_sub.mp isIts
        have isSecond := List.mk_mem_zipIdx_iff_le_and_getElem?_sub.mp isNew
        rw [sameStamp] at isFirst
        exact Option.some.inj (isFirst.2.symm.trans isSecond.2)
      · have := law.typed text wasTyped keystroke isIts
        omega
  · intro text isTyped keystroke isIts wasTrimmed
    rcases mem_cons.mp isTyped with rfl | wasTyped
    · have := (isKeystroke keystroke.1 keystroke.2 isIts).1
      have := law.trimmed keystroke.2 wasTrimmed
      omega
    · exact law.blank text wasTyped keystroke isIts wasTrimmed
  · intro stamp wasTrimmed
    change stamp < world.nextStamp + inserted.length
    have := law.trimmed stamp wasTrimmed
    omega
  · intro text isTyped
    rcases mem_cons.mp isTyped with rfl | wasTyped
    · refine .inr ⟨.draft key, ⟨_, .inl rfl, rfl⟩, ?_⟩
      rw [nowComposer]
      refine StampedText.Holds.of_fewer ?_ filter_sublist
      refine (StampedText.Holds.typed keystrokes).of_sublist ?_
      exact (sublist_append_right _ _).trans (sublist_append_left _ _)
    have leftNow :
        (world.edit start length inserted).left text =
          keystrokesWithout
            (world.deleted ++ StampedText.stamps lost ++ world.trimmed)
            text.keystrokes :=
      rfl
    have isPart :
        ((world.edit start length inserted).left text).Sublist
          (keystrokesWithout (StampedText.stamps lost) (world.left text)) := by
      rw [leftNow, left, ← keystrokesWithout_append]
      refine keystrokesWithout_sublist (fun stamp isGone => ?_) _
      unfold gone at isGone
      simp only [mem_append] at isGone ⊢
      tauto
    rcases law.kept text wasTyped with isNothing | ⟨place, mayBe, isHeld⟩
    · rw [isNothing] at isPart
      exact .inl (sublist_nil.mp isPart)
    · refine .inr ⟨place, ?_, ?_⟩
      · cases place <;> exact mayBe
      · by_cases isDraft : place = .draft key
        · subst isDraft
          rw [wasComposer] at isHeld
          rw [nowComposer]
          have isCut :
              StampedText.Holds
                (world.composerText.take start ++
                  (world.composerText.drop start).drop length)
                (keystrokesWithout (StampedText.stamps lost)
                  (world.left text)) := by
            refine StampedText.Holds.cut ?_
            rw [append_assoc, take_append_drop,
              take_append_drop]
            exact isHeld
          refine (isCut.of_fewer isPart).of_sublist ?_
          exact (sublist_append_left _ _).append (List.Sublist.refl _)
        · rw [others place isDraft]
          exact isHeld.of_fewer (isPart.trans filter_sublist)

theorem sendComposer
    (isFree : world.sends task = none) :
    (world.sendComposer alphabet task).TextLaw alphabet := by
  rcases world.sendComposer_cases alphabet task with
    isSame | ⟨_, ⟨thread, isSelected, sent⟩ | ⟨isSelected, _, sent⟩⟩
  · rw [isSame]
    exact law
  · rw [sent]
    exact law.takes (.startingTurn thread _) isFree isSelected.symm
      rfl rfl rfl rfl rfl rfl rfl rfl rfl
  · rw [sent]
    exact law.takes .creatingThread isFree isSelected.symm
      rfl rfl rfl rfl rfl rfl rfl rfl rfl

/-- The thread that a send waited for was made. -/
theorem adopts
    (threads : world.ThreadLaw)
    {creation : ThreadCreation}
    (isCreation : world.creation = some creation)
    (isMade : creation.thread = some thread)
    (isSend : creation.send = some task)
    (isWaiting : world.sends task = some ⟨text, .creatingThread⟩) :
    TextLaw alphabet
      { ({ world with creation := none }.adoptThread creation
          thread).startTurn task thread text with
        firstThreads := thread :: world.firstThreads } := by
  have isSome : creation.send.isSome = true := by
    rw [isSend]
    rfl
  obtain ⟨sameStamp, sameTexts, sameDeleted, sameTrimmed, _⟩ :=
    { world with creation := none }.adoptThread_records creation thread
  have sameSends :=
    ({ world with creation := none }.adoptThread_rest creation thread).2.2
  have adopted :=
    @draft_adoptThread_preserving _ { world with creation := none } creation
      thread isSome (threads.unselected creation isCreation isSome)
  let adoptedWorld := { world with creation := none }.adoptThread creation thread
  refine law.continues (adoptedWorld.tracking.turnRevisions thread.val) isWaiting
    sameStamp sameTexts sameDeleted sameTrimmed rfl ?_ ?_
  · rcases adopted with sameDraft | ⟨isCurrent, isAdopted⟩
    · exact .inl sameDraft
    · exact .inr
        ⟨(threads.made creation thread isCreation isMade isCurrent).draft,
          isAdopted⟩
  · exact congrArg (fun sends => Function.update sends task _) sameSends

theorem step
    [DecidableEq Character]
    {action : ComposerStep Character}
    (threads : world.ThreadLaw)
    (ran : world.run alphabet action = some next) :
    next.TextLaw alphabet := by
  have mayStay : ∀ (later : ComposerWorld Character),
      later.sends = world.sends → later.firstThreads = world.firstThreads →
      ∀ text place, world.MayBeAt text place → later.MayBeAt text place := by
    intro later sameSends sameFirst text place mayBe
    cases place with
    | draft key =>
      obtain ⟨thread, mayBe, sameKey⟩ := mayBe
      refine ⟨thread, mayBe.mono ?_, sameKey⟩
      rw [sameFirst]
      exact fun _ isMade => isMade
    | send task =>
      intro send isSend
      rw [sameSends] at isSend
      refine (mayBe send isSend).mono ?_
      rw [sameFirst]
      exact fun _ isMade => isMade
  cases action with
  | edits start length inserted =>
    cases ran
    exact law.edits start length inserted
  | selects thread =>
    simp only [run] at ran
    split at ran
    · cases ran
      obtain ⟨sameSends, sameStamp, sameTexts, sameDeleted, sameTrimmed,
        sameFirst⟩ := world.select_rest thread
      refine law.same sameStamp sameTexts sameDeleted sameTrimmed ?_
        (mayStay _ sameSends sameFirst)
      intro place
      cases place with
      | draft key =>
        rw [textAt_draft, draft_select, textAt_draft]
      | send task =>
        rw [textAt_send, sameSends, textAt_send]
    · cases ran
  | createThread =>
    cases ran
    unfold ComposerWorld.createThread
    split
    · exact law
    · exact law.same rfl rfl rfl rfl (fun place => by cases place <;> rfl)
        (mayStay _ rfl rfl)
  | sendComposer task =>
    simp only [run] at ran
    split at ran
    · rename_i isFree
      cases ran
      exact law.sendComposer (Option.isNone_iff_eq_none.mp isFree)
    · cases ran
  | listsThread thread | turnsChange tracking | readyChanges isReady =>
    cases ran
    exact law.same rfl rfl rfl rfl (fun place => by cases place <;> rfl)
      (mayStay _ rfl rfl)
  | makesThread thread =>
    simp only [run] at ran
    split at ran
    · split at ran
      · cases ran
      · cases ran
        exact law.same rfl rfl rfl rfl
          (fun place => by cases place <;> rfl) (mayStay _ rfl rfl)
    · cases ran
  | creationEnds succeeded =>
    obtain ⟨creation, isCreation, ended⟩ := Option.bind_eq_some_iff.mp ran
    rcases endCreation_cases ended with
      ⟨thread, isMade, ⟨noSend, rfl⟩ | ⟨task, send, isSend, isSent, rfl⟩⟩ |
        ⟨_, rfl⟩ | ⟨task, send, isSend, isSent, rfl⟩
    · obtain ⟨sameStamp, sameTexts, sameDeleted, sameTrimmed, sameFirst⟩ :=
        { world with creation := none }.adoptThread_records creation thread
      have sameSends :=
        ({ world with creation := none }.adoptThread_rest creation
          thread).2.2
      refine law.same sameStamp sameTexts sameDeleted sameTrimmed ?_
        (mayStay _ sameSends sameFirst)
      intro place
      cases place with
      | draft key =>
        rw [textAt_draft, draft_adoptThread noSend]
        rfl
      | send task =>
        rw [textAt_send, sameSends]
        rfl
    · obtain ⟨text, isWaiting⟩ := threads.waits creation task isCreation isSend
      rw [isWaiting] at isSent
      cases isSent
      exact law.adopts threads isCreation isMade isSend isWaiting
    · exact law.same rfl rfl rfl rfl (fun place => by cases place <;> rfl)
        (mayStay _ rfl rfl)
    · obtain ⟨text, isWaiting⟩ := threads.waits creation task isCreation isSend
      rw [isWaiting] at isSent
      cases isSent
      have isTarget : SendPlace.creatingThread.target = none := rfl
      refine law.restores isWaiting isTarget rfl rfl rfl rfl rfl ?_ rfl
      exact draft_restoreDraft alphabet { world with creation := none }
        text none
  | turnStartEnds task turns =>
    obtain ⟨text, thread, revision, tracking, isStarting, rfl | rfl⟩ :=
      endTurnStart_cases ran
    · exact law.startsTurn tracking isStarting
    · have isTarget :
          (SendPlace.startingTurn thread revision).target = some thread :=
        rfl
      refine law.restores isStarting isTarget rfl rfl rfl rfl rfl ?_ rfl
      exact draft_restoreDraft alphabet { world with tracking := tracking }
        text (some thread)

theorem preserves
    {text : TypedText Character}
    (isTyped : text ∈ world.typedTexts) :
    world.PreservesBySends text := by
  rcases law.kept text isTyped with isNothing | ⟨place, mayBe, isHeld⟩
  · refine .inl ?_
    change world.composerText.Holds (world.left text)
    rw [isNothing]
    exact .nil
  cases place with
  | draft key =>
    obtain ⟨thread, mayBe, rfl⟩ := mayBe
    by_cases isSelected : draftKey thread = draftKey world.selectedThreadID
    · rw [textAt_draft, isSelected, draft_selected] at isHeld
      exact .inl isHeld
    · rw [textAt_draft, draft_of_ne isSelected] at isHeld
      exact .inr (.inl ⟨thread, mayBe, isHeld⟩)
  | send task =>
    cases isLeft : world.left text with
    | nil =>
      refine .inl ?_
      change world.composerText.Holds (world.left text)
      rw [isLeft]
      exact .nil
    | cons keystroke rest =>
      have isFirst : keystroke ∈ world.left text := by
        rw [isLeft]
        exact mem_cons_self
      have isHere := isHeld.stamp_mem isFirst
      cases isSend : world.sends task with
      | none =>
        rw [textAt_send, isSend] at isHere
        cases isHere
      | some send =>
        rw [textAt_send, isSend] at isHeld
        refine .inr (.inr ⟨task, ⟨send, isSend, isHeld⟩, ?_⟩)
        rintro other ⟨otherSend, isOther, otherHeld⟩
        have isThere :
            keystroke.2 ∈
              StampedText.stamps (world.textAt (.send other)) := by
          rw [textAt_send, isOther]
          exact StampedText.Holds.stamp_mem otherHeld isFirst
        have samePlace := law.apart _ _ _ isThere isHere
        cases samePlace
        rfl

end

end TextLaw

end ComposerWorld

/--
What was typed of a text and neither deleted nor trimmed away is in the
composer, in a draft of its thread or in exactly one send.  What is trimmed away
are blanks, and a send that waits for its thread is the one it is made for.
-/
theorem typed_texts_are_kept
    [DecidableEq Character]
    {alphabet : Alphabet Character}
    {world : ComposerWorld Character}
    (reachable : (composerMachine alphabet).Reachable world) :
    (∀ text ∈ world.typedTexts,
        world.PreservesBySends text ∧
          ∀ keystroke ∈ text.keystrokes, keystroke.2 ∈ world.trimmed →
            alphabet.isBlank keystroke.1 = true) ∧
      ∀ task text, world.sends task = some ⟨text, .creatingThread⟩ →
        ∃ creation, world.creation = some creation ∧
          creation.send = some task := by
  have laws : world.TextLaw alphabet ∧ world.ThreadLaw := by
    refine Machine.Reachable.invariant
      (motive := fun world => world.TextLaw alphabet ∧ world.ThreadLaw)
      ?_ ?_ reachable
    · intro world isNew
      rw [show world = .new from isNew]
      exact ⟨.new, .new⟩
    · intro world action next laws ran
      exact ⟨laws.1.step laws.2 ran, laws.2.step ran⟩
  exact ⟨fun text isTyped =>
    ⟨laws.1.preserves isTyped, laws.1.blank text isTyped⟩, laws.2.waiting⟩

/-- The characters of Lean. -/
def plainAlphabet : Alphabet Char where
  newline := '\n'
  isBlank := Char.isWhitespace

/-- A thread. -/
def threadA : ThreadID := ⟨"A", by decide⟩

/-- A failed send leaves its text in the composer. -/
theorem typed_text_is_kept_by_failed_send :
    ∃ world : ComposerWorld Char,
      (composerMachine plainAlphabet).Reachable world ∧
        ∃ text ∈ world.typedTexts,
          world.PreservesBySends text ∧
            world.composerText.string = ['h', 'i'] := by
  have failed : (composerMachine plainAlphabet).Reachable _ :=
    Machine.Reachable.foldlM (ComposerWorld.run plainAlphabet)
      (fun taken => taken) (.initial rfl)
      (rfl :
        [ComposerStep.readyChanges true, .edits 0 0 ['h', 'i'],
          .sendComposer 0, .creationEnds false].foldlM
            (ComposerWorld.run plainAlphabet) .new = some _)
  exact ⟨_, failed, _, mem_cons_self,
    ((typed_texts_are_kept failed).1 _ mem_cons_self).1, rfl⟩

/-- A keystroke is kept, but no place where it may be has it. -/
theorem ComposerWorld.not_preserves
    {alphabet : Alphabet Character}
    {world : ComposerWorld Character}
    {text : TypedText Character}
    (keystroke : Character × Nat)
    (isKept : keystroke ∈ keystrokesWithout world.deleted text.keystrokes)
    (notComposer : keystroke.2 ∉ StampedText.stamps world.composerText)
    (notDraft :
      keystroke.2 ∉ StampedText.stamps (world.drafts (draftKey text.thread)))
    (notSent :
      ∀ task send, world.sends task = some send → IsRequested send.place →
        ¬send.text.Holds
          (GuestKernel.trimming
            (fun keystroke => alphabet.isBlank keystroke.1)
            (keystrokesWithout world.deleted text.keystrokes))) :
    ¬world.Preserves alphabet text := by
  rintro (isHeld | isHeld | ⟨task, ⟨send, isSend, isRequested, isHeld⟩, _⟩)
  · exact notComposer (isHeld.stamp_mem isKept)
  · exact notDraft (isHeld.stamp_mem isKept)
  · exact notSent task send isSend isRequested isHeld

/--
A text is nowhere while its thread is made, it is in the draft of another thread
when its thread was adopted, and it has lost its blanks when its send failed.
-/
theorem typed_texts_are_not_always_preserved :
    (∃ world : ComposerWorld Char,
      (composerMachine plainAlphabet).Reachable world ∧
        world.creation.isSome ∧
        ∃ text ∈ world.typedTexts, ¬world.Preserves plainAlphabet text) ∧
      (∃ world : ComposerWorld Char,
        (composerMachine plainAlphabet).Reachable world ∧
          world.firstThreads = [threadA] ∧
          ∃ text ∈ world.typedTexts, ¬world.Preserves plainAlphabet text) ∧
      ∃ world : ComposerWorld Char,
        (composerMachine plainAlphabet).Reachable world ∧
          world.trimmed ≠ [] ∧
          ∃ text ∈ world.typedTexts, ¬world.Preserves plainAlphabet text := by
  have creating : (composerMachine plainAlphabet).Reachable _ :=
    Machine.Reachable.foldlM (ComposerWorld.run plainAlphabet)
      (fun taken => taken) (.initial rfl)
      (rfl :
        [ComposerStep.readyChanges true, .edits 0 0 ['h'],
          .sendComposer 0].foldlM (ComposerWorld.run plainAlphabet) .new =
            some _)
  have adopted : (composerMachine plainAlphabet).Reachable _ :=
    Machine.Reachable.foldlM (ComposerWorld.run plainAlphabet)
      (fun taken => taken) creating
      (rfl :
        [ComposerStep.edits 0 0 ['n'], .makesThread threadA,
          .creationEnds true, .selects none].foldlM
            (ComposerWorld.run plainAlphabet) _ = some _)
  have failed : (composerMachine plainAlphabet).Reachable _ :=
    Machine.Reachable.foldlM (ComposerWorld.run plainAlphabet)
      (fun taken => taken) (.initial rfl)
      (rfl :
        [ComposerStep.readyChanges true, .listsThread threadA,
          .selects (some threadA), .edits 0 0 ['h', ' '], .sendComposer 0,
          .turnStartEnds 0 none].foldlM (ComposerWorld.run plainAlphabet) .new =
            some _)
  refine ⟨⟨_, creating, rfl, _, mem_cons_self, ?_⟩,
    ⟨_, adopted, rfl, _, mem_cons_self, ?_⟩,
    ⟨_, failed, ?_, _, mem_cons_self, ?_⟩⟩
  · refine ComposerWorld.not_preserves ('h', 0) (by decide) (by decide)
      (by decide) ?_
    intro task send isSend isRequested
    by_cases isFirst : task = 0
    · subst isFirst
      cases isSend
      exact absurd rfl isRequested
    · cases (update_of_ne isFirst _ _).symm.trans isSend
  · refine ComposerWorld.not_preserves ('n', 1) (by decide) (by decide)
      (by decide) ?_
    intro task send isSend _ isHeld
    by_cases isFirst : task = 0
    · subst isFirst
      cases isSend
      exact absurd (isHeld.stamp_mem (by decide : ('n', 1) ∈ _)) (by decide)
    · change
        Function.update (Function.update (fun _ => none) 0 _) 0 _ task =
          some send at isSend
      rw [update_of_ne isFirst, update_of_ne isFirst]
        at isSend
      cases isSend
  · decide
  · refine ComposerWorld.not_preserves (' ', 1) (by decide) (by decide)
      (by decide) ?_
    intro task send isSend
    change
      Function.update (Function.update (fun _ => none) 0 _) 0 none task =
        some send at isSend
    by_cases isFirst : task = 0
    · rw [isFirst, update_self] at isSend
      cases isSend
    · rw [update_of_ne isFirst, update_of_ne isFirst]
        at isSend
      cases isSend

end CodexPad
