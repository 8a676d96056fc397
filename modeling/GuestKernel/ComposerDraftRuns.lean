import GuestKernel.ComposerDrafts

namespace CodexPad
open List Function

open GuestKernel

/-!
# No typed text is lost

Seen by its key, a draft is the same whether it is in the composer or in the
table, and selecting a thread changes no draft.  A text moves as a whole: from a
draft into a send, from a send into a draft, and from the draft without a thread
into that of a new one, where nothing has been typed yet.
-/

variable {Character : Type}

/-- The thread that a send is for, as far as it is known. -/
def SendPlace.target : SendPlace → Option ThreadID
  | creatingThread => none
  | startingTurn thread _ => some thread
  | succeeded thread => some thread

/-- A place that a typed text can be at. -/
inductive DraftPlace where
  | draft (key : String)
  | send (task : Nat)
  deriving DecidableEq

theorem draftKey_injective : Function.Injective draftKey := by
  intro first second sameKey
  cases first with
  | none =>
    cases second with
    | none => rfl
    | some thread => exact absurd sameKey.symm thread.property
  | some thread =>
    cases second with
    | none => exact absurd sameKey thread.property
    | some other => exact congrArg some (Subtype.ext sameKey)

/-- Each keystroke of a text is that of the same character of another. -/
def ComesFrom (text source : StampedText Character) : Prop :=
  ∀ letter ∈ text, ∀ stamp ∈ letter.stamps,
    ∃ old ∈ source, stamp ∈ old.stamps ∧ old.character = letter.character

namespace ComesFrom

variable {text source : StampedText Character}

theorem of_subset (isPart : text ⊆ source) : ComesFrom text source :=
  fun letter isLetter _ isStamp => ⟨letter, isPart isLetter, isStamp, rfl⟩

/-- What was unified comes from the two. -/
theorem unify
    {first second : StampedText Character}
    (sameString : first.string = second.string) :
    ComesFrom (first.unify second) (first ++ second) := by
  induction first generalizing second with
  | nil =>
    exact fun _ isLetter => by cases isLetter
  | cons letter rest inductionHypothesis =>
    cases second with
    | nil =>
      exact fun _ isLetter => by cases isLetter
    | cons other others =>
      obtain ⟨sameCharacter, sameRest⟩ := List.cons.inj sameString
      intro unified isUnified stamp isStamp
      rcases mem_cons.mp isUnified with rfl | isLater
      · rcases mem_append.mp isStamp with isFirst | isSecond
        · exact ⟨letter, mem_cons_self, isFirst, rfl⟩
        · refine ⟨other, ?_, isSecond, sameCharacter.symm⟩
          exact mem_append_right _ mem_cons_self
      · obtain ⟨old, isOld, isIts⟩ :=
          inductionHypothesis sameRest unified isLater stamp isStamp
        refine ⟨old, ?_, isIts⟩
        rcases mem_append.mp isOld with isFirst | isSecond
        · exact mem_append_left _ (mem_cons_of_mem _ isFirst)
        · exact mem_append_right _ (mem_cons_of_mem _ isSecond)

end ComesFrom

namespace Alphabet

variable (alphabet : Alphabet Character)

theorem trimming_sublist (text : StampedText Character) :
    (alphabet.trimming text).Sublist text :=
  ( rdropWhile_prefix _ _).sublist.trans (dropWhile_sublist _)

variable {keystrokes : List (Character × Nat)}

/-- Trimming gives up no more than the keystrokes it says. -/
theorem holds_trimming
    {text : StampedText Character}
    (holds : text.Holds keystrokes) :
    (alphabet.trimming text).Holds
      (keystrokesWithout (alphabet.trimmings text) keystrokes) := by
  let isBlank := fun letter : Letter Character =>
    alphabet.isBlank letter.character
  have holdsLater :
      StampedText.Holds (text.dropWhile isBlank)
        (keystrokesWithout (StampedText.stamps (text.takeWhile isBlank))
          keystrokes) := by
    refine @StampedText.Holds.cut _ [] _ _ _ ?_
    rw [nil_append, takeWhile_append_dropWhile]
    exact holds
  rw [trimmings, keystrokesWithout_append]
  have isSplit :
      text.dropWhile isBlank =
        (text.dropWhile isBlank).rdropWhile isBlank ++
          (text.dropWhile isBlank).rtakeWhile isBlank ++ [] := by
    rw [append_nil, rdropWhile_append_rtakeWhile]
  have holdsBetween := StampedText.Holds.cut (isSplit ▸ holdsLater)
  rw [append_nil] at holdsBetween
  exact holdsBetween

/-- What trimming gives up are blanks of the text. -/
theorem blank_of_trimmings
    {text : StampedText Character}
    {stamp : Nat}
    (isTrimmed : stamp ∈ alphabet.trimmings text) :
    ∃ letter ∈ text, stamp ∈ letter.stamps ∧
      alphabet.isBlank letter.character = true := by
  let isBlank := fun letter : Letter Character =>
    alphabet.isBlank letter.character
  rcases mem_append.mp isTrimmed with leads | trails
  · obtain ⟨letter, isLetter, isIts⟩ := mem_flatMap.mp leads
    exact ⟨letter, ( takeWhile_prefix _).subset isLetter, isIts,
      mem_takeWhile_imp (p := isBlank) isLetter⟩
  · obtain ⟨letter, isLetter, isIts⟩ := mem_flatMap.mp trails
    exact
      ⟨letter,
        (dropWhile_sublist _).subset
          ((rtakeWhile_suffix _ _).subset isLetter),
        isIts, mem_rtakeWhile_imp (p := isBlank) isLetter⟩

variable [DecidableEq Character] {text pending : StampedText Character}

/-- A recovered draft comes from the text and what was typed since. -/
theorem recovered_comesFrom :
    ComesFrom (alphabet.recovered text pending) (text ++ pending) := by
  unfold recovered
  split
  · exact .of_subset (subset_append_left _ _)
  · split
    · rename_i sameString
      exact .unify sameString.symm
    · intro letter isLetter stamp isStamp
      simp only [mem_append, mem_cons, not_mem_nil,
        or_false] at isLetter
      rcases isLetter with (isFirst | rfl | rfl) | isSecond
      · exact ⟨letter, mem_append_left _ isFirst, isStamp, rfl⟩
      · cases isStamp
      · cases isStamp
      · exact ⟨letter, mem_append_right _ isSecond, isStamp, rfl⟩

theorem recovered_holds
    (holds : text.Holds keystrokes) :
    (alphabet.recovered text pending).Holds keystrokes := by
  unfold recovered
  split
  · exact holds
  · split
    · rename_i sameString
      exact holds.mono (StampedText.unify_richer sameString.symm).1
    · refine holds.of_sublist ?_
      rw [append_assoc]
      exact sublist_append_left _ _

theorem recovered_holds_pending
    (holds : pending.Holds keystrokes) :
    (alphabet.recovered text pending).Holds keystrokes := by
  unfold recovered
  split
  · rename_i isEmpty
    rw [List.isEmpty_iff.mp isEmpty] at holds
    rw [holds.eq_nil]
    exact .nil
  · split
    · rename_i sameString
      exact holds.mono (StampedText.unify_richer sameString.symm).2
    · exact holds.of_sublist (sublist_append_right _ _)

end Alphabet

namespace ComposerWorld

/-- The draft of a key, in the composer or in the table. -/
def draft
    (world : ComposerWorld Character)
    (key : String) : StampedText Character :=
  if key = draftKey world.selectedThreadID then world.composerText
  else world.drafts key

/-- The text at a place. -/
def textAt
    (world : ComposerWorld Character) : DraftPlace → StampedText Character
  | .draft key => world.draft key
  | .send task => (world.sends task).elim [] ComposerSend.text

@[simp] theorem textAt_draft
    (world : ComposerWorld Character)
    (key : String) :
    world.textAt (.draft key) = world.draft key :=
  rfl

@[simp] theorem textAt_send
    (world : ComposerWorld Character)
    (task : Nat) :
    world.textAt (.send task) =
      (world.sends task).elim [] ComposerSend.text :=
  rfl

theorem draft_selected (world : ComposerWorld Character) :
    world.draft (draftKey world.selectedThreadID) = world.composerText :=
  if_pos rfl

variable {world next : ComposerWorld Character} {thread : ThreadID}
  {alphabet : Alphabet Character}

theorem draft_of_ne
    {key : String}
    (isOther : key ≠ draftKey world.selectedThreadID) :
    world.draft key = world.drafts key :=
  if_neg isOther

theorem draft_select
    (world : ComposerWorld Character)
    (thread : Option ThreadID) :
    (world.select thread).draft = world.draft := by
  unfold select
  split
  · rfl
  · rename_i isOther
    have keysDiffer : draftKey thread ≠ draftKey world.selectedThreadID :=
      fun same => isOther (draftKey_injective same.symm)
    funext key
    unfold draft
    dsimp only
    by_cases isNew : key = draftKey thread
    · subst isNew
      rw [if_pos rfl, if_neg keysDiffer, update_of_ne keysDiffer]
    · rw [if_neg isNew]
      split
      · rename_i isOld
        rw [isOld, update_self]
      · rename_i isOld
        rw [update_of_ne isOld]

theorem draft_restoreDraft
    [DecidableEq Character]
    (alphabet : Alphabet Character)
    (world : ComposerWorld Character)
    (text : StampedText Character)
    (thread : Option ThreadID) :
    (world.restoreDraft alphabet text thread).draft =
      update world.draft (draftKey thread)
        (alphabet.recovered text (world.draft (draftKey thread))) := by
  have pending :
      (if world.selectedThreadID = thread then world.composerText
        else world.drafts (draftKey thread)) =
          world.draft (draftKey thread) := by
    split
    · rename_i same
      rw [← same, draft_selected]
    · rename_i isOther
      exact (draft_of_ne fun same =>
        isOther (draftKey_injective same.symm)).symm
  have sameSelection :
      (world.restoreDraft alphabet text thread).selectedThreadID =
        world.selectedThreadID :=
    rfl
  have composer :
      (world.restoreDraft alphabet text thread).composerText =
        if world.selectedThreadID = thread then
          alphabet.recovered text (world.draft (draftKey thread))
        else
          world.composerText := by
    rw [← pending]
    rfl
  have drafts :
      (world.restoreDraft alphabet text thread).drafts =
        update world.drafts (draftKey thread)
          (alphabet.recovered text (world.draft (draftKey thread))) := by
    rw [← pending]
    rfl
  funext key
  rw [draft, sameSelection, composer, drafts]
  by_cases isIts : key = draftKey thread
  · subst isIts
    rw [update_self, update_self]
    by_cases same : world.selectedThreadID = thread
    · rw [if_pos same, ite_self]
    · rw [if_neg fun sameKey => same (draftKey_injective sameKey.symm)]
  · rw [update_of_ne isIts, update_of_ne isIts]
    by_cases isSelected : key = draftKey world.selectedThreadID
    · rw [if_pos isSelected, if_neg, isSelected, draft_selected]
      exact fun same => isIts (same ▸ isSelected)
    · rw [if_neg isSelected, draft_of_ne isSelected]

/-- `sendComposer` does nothing, starts a turn or asks for a thread. -/
theorem sendComposer_cases
    (alphabet : Alphabet Character)
    (world : ComposerWorld Character)
    (task : Nat) :
    world.sendComposer alphabet task = world ∨
      (alphabet.trimming world.composerText).isEmpty = false ∧
        ((∃ thread, world.selectedThreadID = some thread ∧
            world.sendComposer alphabet task =
              (world.takeText alphabet).startTurn task thread
                (alphabet.trimming world.composerText)) ∨
          (world.selectedThreadID = none ∧ world.creation = none ∧
            world.sendComposer alphabet task =
              { world.takeText alphabet with
                creation := some ⟨some task, world.selectionGeneration, none⟩
                sends :=
                  update world.sends task
                    (some
                      ⟨alphabet.trimming world.composerText,
                        .creatingThread⟩) })) := by
  unfold sendComposer
  dsimp only
  split
  · rename_i guards
    simp only [Bool.and_eq_true, Bool.not_eq_true', isTurnRunning,
      Bool.or_eq_false_iff, Option.isSome_eq_false_iff,
      Option.isNone_iff_eq_none] at guards
    obtain ⟨⟨isReady, isNotEmpty⟩, _, noCreation⟩ := guards
    have created :
        (world.takeText alphabet).createThread (some task) =
          { world.takeText alphabet with
            creation := some ⟨some task, world.selectionGeneration, none⟩ } := by
      rw [createThread, if_neg]
      · rfl
      · simp [takeText, noCreation, isReady]
    refine .inr ⟨isNotEmpty, ?_⟩
    cases isSelected : world.selectedThreadID with
    | some thread =>
      exact .inl ⟨thread, rfl, rfl⟩
    | none =>
      refine .inr ⟨rfl, noCreation, ?_⟩
      dsimp only
      rw [created]
  · exact .inl rfl

/-- Adopting a thread makes none, and sends nothing. -/
theorem adoptThread_rest
    (world : ComposerWorld Character)
    (creation : ThreadCreation)
    (thread : ThreadID) :
    (world.adoptThread creation thread).threads = world.threads ∧
      (world.adoptThread creation thread).creation = world.creation ∧
      (world.adoptThread creation thread).sends = world.sends := by
  have selected :
      (world.select (some thread)).threads = world.threads ∧
        (world.select (some thread)).creation = world.creation ∧
        (world.select (some thread)).sends = world.sends := by
    unfold select
    split <;> exact ⟨rfl, rfl, rfl⟩
  unfold adoptThread
  split
  · dsimp only
    split <;> exact selected
  · exact ⟨rfl, rfl, rfl⟩

/-- `createThread` ends with a thread or without, and with a send or without. -/
theorem endCreation_cases
    [DecidableEq Character]
    {creation : ThreadCreation}
    {succeeded : Bool}
    (ended : world.endCreation alphabet creation succeeded = some next) :
    (∃ thread, creation.thread = some thread ∧
        ((creation.send = none ∧
            next =
              { world with creation := none }.adoptThread creation thread) ∨
          ∃ task send, creation.send = some task ∧
            world.sends task = some send ∧
            next =
              { ({ world with creation := none }.adoptThread creation
                  thread).startTurn task thread send.text with
                firstThreads := thread :: world.firstThreads })) ∨
      (creation.send = none ∧ next = { world with creation := none }) ∨
      ∃ task send, creation.send = some task ∧
        world.sends task = some send ∧
        next =
          { { world with creation := none }.restoreDraft alphabet send.text
              none with
            sends := update world.sends task none } := by
  unfold endCreation at ended
  cases succeeded with
  | true =>
    obtain ⟨thread, isMade, ended⟩ := Option.bind_eq_some_iff.mp ended
    refine .inl ⟨thread, isMade, ?_⟩
    cases isSend : creation.send with
    | none =>
      rw [isSend] at ended
      cases ended
      exact .inl ⟨rfl, rfl⟩
    | some task =>
      rw [isSend] at ended
      obtain ⟨send, isWaiting, rfl⟩ := Option.map_eq_some_iff.mp ended
      exact .inr ⟨task, send, rfl, isWaiting, rfl⟩
  | false =>
    refine .inr ?_
    cases isSend : creation.send with
    | none =>
      rw [isSend] at ended
      cases ended
      exact .inl ⟨rfl, rfl⟩
    | some task =>
      rw [isSend] at ended
      obtain ⟨send, isWaiting, rfl⟩ := Option.map_eq_some_iff.mp ended
      exact .inr ⟨task, send, rfl, isWaiting, rfl⟩

/-- A turn was started, or the text is put back. -/
theorem endTurnStart_cases
    [DecidableEq Character]
    {task : Nat}
    {turns : Option (List TurnReport)}
    (ended : world.endTurnStart alphabet task turns = some next) :
    ∃ text thread revision tracking,
      world.sends task = some ⟨text, .startingTurn thread revision⟩ ∧
        (next =
            { world with
              tracking := tracking
              sends :=
                update world.sends task
                  (some ⟨text, .succeeded thread⟩) } ∨
          next =
            { { world with tracking := tracking }.restoreDraft alphabet text
                (some thread) with
              sends := update world.sends task none }) := by
  unfold endTurnStart at ended
  split at ended
  · rename_i text thread revision isStarting
    refine
      ⟨text, thread, revision,
        world.tracking.responded ⟨.turnStart, thread.val, revision, 0⟩ turns,
        isStarting, ?_⟩
    cases turns with
    | none =>
      cases ended
      exact .inr rfl
    | some _ =>
      cases ended
      exact .inl rfl
  · cases ended

/-- Nothing was ever typed in a thread or sent to it. -/
structure IsUntouched
    (world : ComposerWorld Character)
    (thread : ThreadID) : Prop where
  unselected : world.selectedThreadID ≠ some thread
  noDraft : world.drafts thread.val = []
  noSend :
    ∀ task send, world.sends task = some send →
      send.place.target ≠ some thread

/--
A thread that was made is untouched as long as the selection is the one from
before, and one send waits for it at most.
-/
structure ThreadLaw (world : ComposerWorld Character) : Prop where
  unknown : ∀ thread, thread ∉ world.threads → world.IsUntouched thread
  listed :
    ∀ creation thread, world.creation = some creation →
      creation.thread = some thread → thread ∈ world.threads
  made :
    ∀ creation thread, world.creation = some creation →
      creation.thread = some thread →
      creation.generation = world.selectionGeneration →
      world.IsUntouched thread
  past :
    ∀ creation, world.creation = some creation →
      creation.generation ≤ world.selectionGeneration
  unselected :
    ∀ creation, world.creation = some creation →
      creation.send.isSome = true →
      creation.generation = world.selectionGeneration →
      world.selectedThreadID = none
  waits :
    ∀ creation task, world.creation = some creation →
      creation.send = some task →
      ∃ text, world.sends task = some ⟨text, .creatingThread⟩
  waiting :
    ∀ task text, world.sends task = some ⟨text, .creatingThread⟩ →
      ∃ creation, world.creation = some creation ∧ creation.send = some task

section

variable (untouched : world.IsUntouched thread)
include untouched

/-- Untouched threads stay so when only other threads are touched. -/
theorem IsUntouched.of_others
    (selection :
      next.selectedThreadID = world.selectedThreadID ∨
        next.selectedThreadID ≠ some thread)
    (drafts :
      next.drafts thread.val = world.drafts thread.val ∨
        next.drafts thread.val = [])
    (sends :
      ∀ task send, next.sends task = some send →
        world.sends task = some send ∨ send.place.target ≠ some thread) :
    next.IsUntouched thread where
  unselected := by
    rcases selection with same | isOther
    · rw [same]
      exact untouched.unselected
    · exact isOther
  noDraft := by
    rcases drafts with same | isEmpty
    · rw [same]
      exact untouched.noDraft
    · exact isEmpty
  noSend := by
    intro task send isSend
    rcases sends task send isSend with old | isOther
    · exact untouched.noSend task send old
    · exact isOther

theorem IsUntouched.draft :
    world.draft thread.val = [] := by
  have isOther : thread.val ≠ draftKey world.selectedThreadID := by
    intro same
    exact untouched.unselected (@draftKey_injective _ (some thread) same.symm)
  rw [draft_of_ne isOther, untouched.noDraft]

theorem IsUntouched.select
    {selected : Option ThreadID}
    (isOther : selected ≠ some thread) :
    (world.select selected).IsUntouched thread := by
  unfold ComposerWorld.select
  split
  · exact untouched
  · refine untouched.of_others (.inr isOther) (.inl ?_) fun _ _ isSend =>
      .inl isSend
    refine update_of_ne ?_ _ _
    intro same
    exact untouched.unselected (@draftKey_injective _ (some thread) same.symm)

theorem IsUntouched.restoreDraft
    [DecidableEq Character]
    (alphabet : Alphabet Character)
    (text : StampedText Character)
    {restored : Option ThreadID}
    (isOther : restored ≠ some thread) :
    (world.restoreDraft alphabet text restored).IsUntouched thread := by
  refine untouched.of_others (.inl rfl) (.inl ?_) fun _ _ isSend => .inl isSend
  refine update_of_ne ?_ _ _
  exact fun same => isOther (@draftKey_injective _ (some thread) same.symm)

/-- A turn that is started elsewhere leaves a thread untouched. -/
theorem IsUntouched.startTurn
    (task : Nat)
    (text : StampedText Character)
    {started : ThreadID}
    (isOther : started ≠ thread) :
    (world.startTurn task started text).IsUntouched thread := by
  refine untouched.of_others (.inl rfl) (.inl rfl) ?_
  intro other send isSend
  have isSend :
      update world.sends task (some _) other = some send :=
    isSend
  rcases eq_some_of_update isSend with ⟨_, rfl⟩ | ⟨_, wasSend⟩
  · exact .inr fun isTarget => isOther (Option.some.inj isTarget)
  · exact .inl wasSend

theorem IsUntouched.adoptThread
    (creation : ThreadCreation)
    {adopted : ThreadID}
    (isOther : adopted ≠ thread) :
    (world.adoptThread creation adopted).IsUntouched thread := by
  unfold ComposerWorld.adoptThread
  split
  · have selected :=
      IsUntouched.select untouched
        fun same : some adopted = some thread =>
          isOther (Option.some.inj same)
    dsimp only
    split
    · refine selected.of_others (.inl rfl) ?_ fun _ _ isSend => .inl isSend
      by_cases same : thread.val = draftKey world.selectedThreadID
      · exact .inr (same ▸ update_self _ _ _)
      · exact .inl (update_of_ne same _ _)
    · exact selected
  · exact untouched

end

namespace ThreadLaw

variable {world next : ComposerWorld Character}

theorem new : ThreadLaw (.new : ComposerWorld Character) where
  unknown := fun _ _ =>
    { unselected := fun isSelected => by cases isSelected
      noDraft := rfl
      noSend := fun _ _ isSend => by cases isSend }
  listed := fun _ _ isCreation => by cases isCreation
  made := fun _ _ isCreation => by cases isCreation
  past := fun _ isCreation => by cases isCreation
  unselected := fun _ isCreation => by cases isCreation
  waits := fun _ _ isCreation => by cases isCreation
  waiting := fun _ _ isSend => by cases isSend

theorem select
    (law : world.ThreadLaw)
    {thread : Option ThreadID}
    (isListed : ∀ id ∈ thread, id ∈ world.threads) :
    (world.select thread).ThreadLaw := by
  by_cases same : world.selectedThreadID = thread
  · rw [ComposerWorld.select, if_pos same]
    exact law
  have isLater :
      (world.select thread).selectionGeneration =
        world.selectionGeneration + 1 := by
    rw [ComposerWorld.select, if_neg same]
  have sameRest :
      (world.select thread).threads = world.threads ∧
        (world.select thread).creation = world.creation ∧
        (world.select thread).sends = world.sends := by
    rw [ComposerWorld.select, if_neg same]
    exact ⟨rfl, rfl, rfl⟩
  obtain ⟨sameThreads, sameCreation, sameSends⟩ := sameRest
  constructor
  · rw [sameThreads]
    intro id isUnknown
    refine (law.unknown id isUnknown).select ?_
    intro isSelected
    exact isUnknown (isListed id isSelected)
  · rw [sameThreads, sameCreation]
    exact law.listed
  · rw [sameCreation, isLater]
    intro creation id isCreation _ isCurrent
    have := law.past creation isCreation
    omega
  · rw [sameCreation, isLater]
    intro creation isCreation
    exact Nat.le_succ_of_le (law.past creation isCreation)
  · rw [sameCreation, isLater]
    intro creation isCreation _ isCurrent
    have := law.past creation isCreation
    omega
  · rw [sameCreation, sameSends]
    exact law.waits
  · rw [sameCreation, sameSends]
    exact law.waiting

section

variable
  (law : world.ThreadLaw)
  (sameThreads : next.threads = world.threads)
  (sameCreation : next.creation = world.creation)
  (sameSelection : next.selectedThreadID = world.selectedThreadID)
  (sameGeneration : next.selectionGeneration = world.selectionGeneration)
include law sameThreads sameCreation sameSelection sameGeneration

/-- A step that leaves the threads, their creation and the selection. -/
theorem of_untouched
    (untouched :
      ∀ thread, world.IsUntouched thread → next.IsUntouched thread)
    (waiting :
      ∀ task text,
        next.sends task = some ⟨text, .creatingThread⟩ ↔
          world.sends task = some ⟨text, .creatingThread⟩) :
    next.ThreadLaw := by
  constructor
  · rw [sameThreads]
    exact fun thread isUnknown => untouched thread (law.unknown thread isUnknown)
  · rw [sameThreads, sameCreation]
    exact law.listed
  · rw [sameCreation, sameGeneration]
    exact fun creation thread isCreation isMade isCurrent =>
      untouched thread (law.made creation thread isCreation isMade isCurrent)
  · rw [sameCreation, sameGeneration]
    exact law.past
  · rw [sameCreation, sameGeneration, sameSelection]
    exact law.unselected
  · rw [sameCreation]
    intro creation task isCreation isSend
    obtain ⟨text, isWaiting⟩ := law.waits creation task isCreation isSend
    exact ⟨text, (waiting task text).mpr isWaiting⟩
  · rw [sameCreation]
    exact fun task text isWaiting =>
      law.waiting task text ((waiting task text).mp isWaiting)

/-- A step that changes no thread, no selection, no stored draft and no send. -/
theorem of_same
    (sameDrafts : next.drafts = world.drafts)
    (sameSends : next.sends = world.sends) :
    next.ThreadLaw := by
  refine law.of_untouched sameThreads sameCreation sameSelection sameGeneration
    ?_ ?_
  · intro thread untouched
    refine untouched.of_others (.inl sameSelection)
      (.inl (congrFun sameDrafts _)) ?_
    rw [sameSends]
    exact fun _ _ isSend => .inl isSend
  · rw [sameSends]
    exact fun _ _ => Iff.rfl

end

theorem lists
    (law : world.ThreadLaw)
    (thread : ThreadID) :
    ThreadLaw { world with threads := thread :: world.threads } where
  unknown := by
    intro other isUnknown
    have untouched :=
      law.unknown other fun isKnown =>
        isUnknown (mem_cons_of_mem _ isKnown)
    exact untouched.of_others (.inl rfl) (.inl rfl) fun _ _ isSend =>
      .inl isSend
  listed := fun creation made isCreation isMade =>
    mem_cons_of_mem _ (law.listed creation made isCreation isMade)
  made := fun creation made isCreation isMade isCurrent =>
    (law.made creation made isCreation isMade isCurrent).of_others
      (.inl rfl) (.inl rfl) fun _ _ isSend => .inl isSend
  past := law.past
  unselected := law.unselected
  waits := law.waits
  waiting := law.waiting

variable {task : Nat} {thread : ThreadID} {creation : ThreadCreation}
  {send : Option Nat} {text : StampedText Character}

section

variable (law : world.ThreadLaw)
include law

/-- The server makes the thread it was asked for. -/
theorem makes
    {generation : Nat}
    (isCreation : world.creation = some ⟨send, generation, none⟩)
    (isNew : thread ∉ world.threads) :
    ThreadLaw
      { world with
        threads := thread :: world.threads
        creation := some ⟨send, generation, some thread⟩ } := by
  have listed := law.lists thread
  constructor
  · exact fun other isUnknown =>
      (listed.unknown other isUnknown).of_others (.inl rfl) (.inl rfl)
        fun _ _ isSend => .inl isSend
  · intro creation made isCreation isMade
    cases isCreation
    cases isMade
    exact mem_cons_self
  · intro creation made isCreation isMade _
    cases isCreation
    cases isMade
    exact (law.unknown thread isNew).of_others (.inl rfl) (.inl rfl)
      fun _ _ isSend => .inl isSend
  · intro creation isMade
    cases isMade
    exact law.past ⟨send, generation, none⟩ isCreation
  · intro creation isMade
    cases isMade
    exact law.unselected ⟨send, generation, none⟩ isCreation
  · intro creation task isMade
    cases isMade
    exact law.waits ⟨send, generation, none⟩ task isCreation
  · intro task text isWaiting
    obtain ⟨creation, isOld, isSend⟩ := law.waiting task text isWaiting
    rw [isCreation] at isOld
    cases isOld
    exact ⟨_, rfl, isSend⟩

/-- `createThread` is called; a send that waits for it has no thread yet. -/
theorem creates
    {composerText : StampedText Character}
    {sends : Nat → Option (ComposerSend Character)}
    {trimmed : List Nat}
    (noCreation : world.creation = none)
    (unselected : send.isSome = true → world.selectedThreadID = none)
    (waits :
      ∀ task, send = some task →
        ∃ text, sends task = some ⟨text, .creatingThread⟩)
    (waiting :
      ∀ task other, sends task = some other →
        world.sends task = some other ∨
          (send = some task ∧ other.place = .creatingThread)) :
    ThreadLaw
      { world with
        creation := some ⟨send, world.selectionGeneration, none⟩
        composerText := composerText
        trimmed := trimmed
        sends := sends } where
  unknown := by
    intro thread isUnknown
    refine (law.unknown thread isUnknown).of_others (.inl rfl) (.inl rfl) ?_
    intro task other isSend
    rcases waiting task other isSend with old | ⟨_, isWaiting⟩
    · exact .inl old
    · rw [isWaiting]
      exact .inr fun isTarget => by cases isTarget
  listed := fun _ _ isCreation isMade => by
    cases isCreation
    cases isMade
  made := fun _ _ isCreation isMade => by
    cases isCreation
    cases isMade
  past := fun _ isCreation => by
    cases isCreation
    exact Nat.le_refl _
  unselected := fun _ isCreation isSend _ => by
    cases isCreation
    exact unselected isSend
  waits := fun _ task isCreation isSend => by
    cases isCreation
    exact waits task isSend
  waiting := fun task text isWaiting => by
    rcases waiting task _ isWaiting with old | ⟨isSend, _⟩
    · obtain ⟨_, isCreation, _⟩ := law.waiting task text old
      rw [noCreation] at isCreation
      cases isCreation
    · exact ⟨_, rfl, isSend⟩

/-- The creation is over, and so is the waiting of its send. -/
theorem ends
    (isCreation : world.creation = some creation)
    (sameThreads : next.threads = world.threads)
    (noCreation : next.creation = none)
    (untouched :
      ∀ thread, thread ∉ world.threads → world.IsUntouched thread →
        next.IsUntouched thread)
    (sameSends :
      ∀ task, creation.send ≠ some task →
        next.sends task = world.sends task)
    (isOver :
      ∀ task text, creation.send = some task →
        next.sends task ≠ some ⟨text, .creatingThread⟩) :
    next.ThreadLaw := by
  constructor
  · rw [sameThreads]
    exact fun thread isUnknown =>
      untouched thread isUnknown (law.unknown thread isUnknown)
  · rw [noCreation]
    exact fun _ _ isCreation => by cases isCreation
  · rw [noCreation]
    exact fun _ _ isCreation => by cases isCreation
  · rw [noCreation]
    exact fun _ isCreation => by cases isCreation
  · rw [noCreation]
    exact fun _ isCreation => by cases isCreation
  · rw [noCreation]
    exact fun _ _ isCreation => by cases isCreation
  · intro task text isWaiting
    by_cases isSend : creation.send = some task
    · exact absurd isWaiting (isOver task text isSend)
    · rw [sameSends task isSend] at isWaiting
      obtain ⟨other, isOther, isSend'⟩ := law.waiting task text isWaiting
      rw [isCreation] at isOther
      cases isOther
      exact absurd isSend' isSend

/-- A send from a thread starts its turn at once. -/
theorem startTurn
    (isFree : world.sends task = none)
    (isSelected : world.selectedThreadID = some thread)
    (text : StampedText Character) :
    (world.startTurn task thread text).ThreadLaw := by
  refine law.of_untouched rfl rfl rfl rfl ?_ ?_
  · intro other untouched
    refine untouched.startTurn task text ?_
    intro same
    exact untouched.unselected (same ▸ isSelected)
  · intro other waitingText
    change update world.sends task (some _) other = _ ↔ _
    by_cases same : other = task
    · rw [same, update_self, isFree]
      exact ⟨fun isWaiting => (by cases isWaiting),
        fun isWaiting => (by cases isWaiting)⟩
    · rw [update_of_ne same]

theorem takeText
    (alphabet : Alphabet Character) :
    (world.takeText alphabet).ThreadLaw :=
  law.of_same rfl rfl rfl rfl rfl rfl

/-- `sendComposer` takes its text or does nothing. -/
theorem sendComposer
    (alphabet : Alphabet Character)
    (isFree : world.sends task = none) :
    (world.sendComposer alphabet task).ThreadLaw := by
  rcases world.sendComposer_cases alphabet task with
    same | ⟨_, ⟨thread, isSelected, sent⟩ | ⟨isSelected, noCreation, sent⟩⟩
  · rw [same]
    exact law
  · rw [sent]
    exact (law.takeText alphabet).startTurn isFree isSelected _
  · rw [sent]
    refine law.creates noCreation (fun _ => isSelected) ?_ ?_
    · intro other isSend
      cases isSend
      exact ⟨_, update_self _ _ _⟩
    · intro other send isSend
      rcases eq_some_of_update isSend with ⟨rfl, rfl⟩ | ⟨_, wasSend⟩
      · exact .inr ⟨rfl, rfl⟩
      · exact .inl wasSend

end

section

variable
  (law : world.ThreadLaw)
  (isCreation : world.creation = some creation)
include law isCreation

theorem adoptThread
    (isMade : creation.thread = some thread)
    (noSend : creation.send = none) :
    ({ world with creation := none }.adoptThread creation
      thread).ThreadLaw := by
  obtain ⟨sameThreads, sameCreation, sameSends⟩ :=
    { world with creation := none }.adoptThread_rest creation thread
  refine law.ends isCreation sameThreads sameCreation ?_ ?_ ?_
  · intro other isUnknown untouched
    have untouched :
        ({ world with creation := none } :
          ComposerWorld Character).IsUntouched other :=
      untouched.of_others (.inl rfl) (.inl rfl) fun _ _ isSend => .inl isSend
    refine untouched.adoptThread creation ?_
    intro same
    exact isUnknown (same ▸ law.listed creation thread isCreation isMade)
  · intro task _
    rw [sameSends]
  · intro task _ isSend
    rw [noSend] at isSend
    cases isSend

/-- The thread of a creation is adopted, and the send goes on in it. -/
theorem adoptThread_startTurn
    (isMade : creation.thread = some thread)
    (isSend : creation.send = some task)
    (text : StampedText Character) :
    ThreadLaw
      { ({ world with creation := none }.adoptThread creation
          thread).startTurn task thread text with
        firstThreads := thread :: world.firstThreads } := by
  obtain ⟨sameThreads, sameCreation, sameSends⟩ :=
    { world with creation := none }.adoptThread_rest creation thread
  refine law.ends isCreation sameThreads sameCreation ?_ ?_ ?_
  · intro other isUnknown untouched
    have isOther : thread ≠ other := by
      intro same
      exact isUnknown (same ▸ law.listed creation thread isCreation isMade)
    have untouched :
        ({ world with creation := none } :
          ComposerWorld Character).IsUntouched other :=
      untouched.of_others (.inl rfl) (.inl rfl) fun _ _ isSend => .inl isSend
    exact ((untouched.adoptThread creation isOther).startTurn task text
      isOther).of_others (.inl rfl) (.inl rfl) fun _ _ isSend => .inl isSend
  · intro other isOther
    refine (update_of_ne ?_ _ _).trans (congrFun sameSends other)
    rintro rfl
    exact isOther isSend
  · intro other waitingText isSame isWaiting
    rw [isSend] at isSame
    cases isSame
    simp only [ComposerWorld.startTurn, update_self] at isWaiting
    cases isWaiting

/-- No thread was made, and the text is put back. -/
theorem restores
    [DecidableEq Character]
    (isSend : creation.send = some task)
    (alphabet : Alphabet Character)
    (text : StampedText Character) :
    ThreadLaw
      { { world with creation := none }.restoreDraft alphabet text none with
        sends := update world.sends task none } := by
  refine law.ends isCreation rfl rfl ?_ ?_ ?_
  · intro other _ untouched
    have untouched :
        ({ world with creation := none } :
          ComposerWorld Character).IsUntouched other :=
      untouched.of_others (.inl rfl) (.inl rfl) fun _ _ isSend => .inl isSend
    exact (untouched.restoreDraft alphabet text
      (fun isOther => by cases isOther)).of_others (.inl rfl) (.inl rfl)
      fun _ _ isSend => .inl (eq_some_of_update_none isSend)
  · intro other isOther
    refine update_of_ne ?_ _ _
    rintro rfl
    exact isOther isSend
  · intro other waitingText isSame isWaiting
    rw [isSend] at isSame
    cases isSame
    simp only [update_self] at isWaiting
    cases isWaiting

end

/-- The place of a send that no longer waits. -/
theorem waiting_update_iff
    {send : Option (ComposerSend Character)}
    (wasStarting :
      ∀ text, world.sends task ≠ some ⟨text, .creatingThread⟩)
    (isStarting : ∀ text, send ≠ some ⟨text, .creatingThread⟩)
    (key : Nat)
    (text : StampedText Character) :
    update world.sends task send key =
        some ⟨text, .creatingThread⟩ ↔
      world.sends key = some ⟨text, .creatingThread⟩ := by
  by_cases same : key = task
  · rw [same, update_self]
    exact ⟨fun isWaiting => absurd isWaiting (isStarting text),
      fun isWaiting => absurd isWaiting (wasStarting text)⟩
  · rw [update_of_ne same]

theorem startsTurn
    (law : world.ThreadLaw)
    {revision : Nat}
    (tracking : TurnTracking)
    (isStarting :
      world.sends task = some ⟨text, .startingTurn thread revision⟩) :
    ThreadLaw
      { world with
        tracking := tracking
        sends :=
          update world.sends task
            (some ⟨text, .succeeded thread⟩) } := by
  refine law.of_untouched rfl rfl rfl rfl ?_
    (waiting_update_iff (fun _ isWaiting => ?_) fun _ isWaiting => ?_)
  · intro other untouched
    refine untouched.of_others (.inl rfl) (.inl rfl) fun key send isSend => ?_
    by_cases same : key = task
    · refine .inr fun isTarget => ?_
      simp only [same, update_self, Option.some.injEq] at isSend
      rw [← isSend] at isTarget
      exact untouched.noSend task _ isStarting isTarget
    · simp only [update_of_ne same] at isSend
      exact .inl isSend
  · rw [isStarting] at isWaiting
    cases isWaiting
  · cases isWaiting

/-- A turn could not be started, and the text is put back. -/
theorem restoresIn
    [DecidableEq Character]
    (law : world.ThreadLaw)
    {revision : Nat}
    (tracking : TurnTracking)
    (isStarting :
      world.sends task = some ⟨text, .startingTurn thread revision⟩)
    (alphabet : Alphabet Character) :
    ThreadLaw
      { { world with tracking := tracking }.restoreDraft alphabet text
          (some thread) with
        sends := update world.sends task none } := by
  refine law.of_untouched rfl rfl rfl rfl ?_
    (waiting_update_iff (fun _ isWaiting => ?_) fun _ isWaiting => ?_)
  · intro other untouched
    have isOther := untouched.noSend task _ isStarting
    have untouched :
        ({ world with tracking := tracking } :
          ComposerWorld Character).IsUntouched other :=
      untouched.of_others (.inl rfl) (.inl rfl) fun _ _ isSend => .inl isSend
    exact (untouched.restoreDraft alphabet text isOther).of_others (.inl rfl)
      (.inl rfl) fun _ _ isSend => .inl (eq_some_of_update_none isSend)
  · rw [isStarting] at isWaiting
    cases isWaiting
  · cases isWaiting

theorem step
    [DecidableEq Character]
    {alphabet : Alphabet Character}
    {action : ComposerStep Character}
    (law : world.ThreadLaw)
    (ran : world.run alphabet action = some next) :
    next.ThreadLaw := by
  cases action with
  | edits start length inserted | turnsChange tracking | readyChanges isReady =>
    cases ran
    exact law.of_same rfl rfl rfl rfl rfl rfl
  | selects thread =>
    simp only [run] at ran
    split at ran
    · rename_i isListed
      cases ran
      exact law.select isListed
    · cases ran
  | createThread =>
    cases ran
    unfold ComposerWorld.createThread
    split
    · exact law
    · rename_i guard
      simp only [Bool.or_eq_true, Bool.not_eq_true', not_or,
        Option.not_isSome_iff_eq_none] at guard
      exact law.creates guard.1 (fun isSend => by cases isSend)
        (fun _ isSend => by cases isSend) fun _ _ isSend => .inl isSend
  | sendComposer task =>
    simp only [run] at ran
    split at ran
    · rename_i isFree
      cases ran
      exact law.sendComposer alphabet (Option.isNone_iff_eq_none.mp isFree)
    · cases ran
  | listsThread thread =>
    cases ran
    exact law.lists thread
  | makesThread thread =>
    simp only [run] at ran
    split at ran
    · rename_i send generation isCreation
      split at ran
      · cases ran
      · rename_i isNew
        cases ran
        exact law.makes isCreation isNew
    · cases ran
  | creationEnds succeeded =>
    obtain ⟨creation, isCreation, ended⟩ := Option.bind_eq_some_iff.mp ran
    rcases endCreation_cases ended with
      ⟨thread, isMade, ⟨noSend, rfl⟩ | ⟨task, send, isSend, _, rfl⟩⟩ |
        ⟨noSend, rfl⟩ | ⟨task, send, isSend, isWaiting, rfl⟩
    · exact law.adoptThread isCreation isMade noSend
    · exact law.adoptThread_startTurn isCreation isMade isSend send.text
    · refine law.ends isCreation rfl rfl ?_ (fun _ _ => rfl) ?_
      · exact fun _ _ untouched =>
          untouched.of_others (.inl rfl) (.inl rfl) fun _ _ isSend =>
            .inl isSend
      · intro task _ isSend
        rw [noSend] at isSend
        cases isSend
    · exact law.restores isCreation isSend alphabet send.text
  | turnStartEnds task turns =>
    obtain ⟨text, thread, revision, tracking, isStarting, rfl | rfl⟩ :=
      endTurnStart_cases ran
    · exact law.startsTurn tracking isStarting
    · exact law.restoresIn tracking isStarting alphabet

end ThreadLaw

end ComposerWorld

end CodexPad
