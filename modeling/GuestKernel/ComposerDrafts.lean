import GuestKernel.StampedTexts
import GuestKernel.WorkspaceTurns

namespace CodexPad
open Function

open GuestKernel

/-!
# The composer and the drafts

The selected thread's draft is in the composer of `CodexWorkspaceModel.swift`,
the others are in a table.  `sendComposer` takes the text away and may have to
put it back when a thread cannot be made or a turn cannot be started.

Texts are stamped with the keystrokes they stand for, which the code does not
see.  Characters are compared as Swift compares them.
-/

/-- The identity of a thread, which the server never leaves empty. -/
abbrev ThreadID := { name : String // name ≠ "" }

/-- `threadID ?? ""`. -/
def draftKey : Option ThreadID → String
  | none => ""
  | some thread => thread.val

/-- What the code asks of characters. -/
structure Alphabet (Character : Type) where
  newline : Character
  /-- Membership in `.whitespacesAndNewlines`. -/
  isBlank : Character → Bool

/-- Where a send is: its text is in a `turn/start` from the second place on. -/
inductive SendPlace where
  | creatingThread
  | startingTurn (thread : ThreadID) (revision : Nat)
  | succeeded (thread : ThreadID)

/-- A call of `sendComposer` that has taken its text. -/
structure ComposerSend (Character : Type) where
  text : StampedText Character
  place : SendPlace

/--
A call of `createThread`: the send that waits for it and keeps the draft, the
selection's generation at its start, and the thread once the server has made it.
-/
structure ThreadCreation where
  send : Option Nat
  generation : Nat
  thread : Option ThreadID

/-- A text as it was typed, and the thread that was selected. -/
structure TypedText (Character : Type) where
  thread : Option ThreadID
  keystrokes : List (Character × Nat)

/--
The model's fields about the composer, the threads that the server has, and the
records of what was typed, deleted and trimmed and of the threads made for a
first send.  `isCreatingThread` is whether there is a creation.
-/
structure ComposerWorld (Character : Type) where
  selectedThreadID : Option ThreadID
  composerText : StampedText Character
  /-- A missing draft reads as the empty one. -/
  drafts : String → StampedText Character
  selectionGeneration : Nat
  isReady : Bool
  tracking : TurnTracking
  creation : Option ThreadCreation
  sends : Nat → Option (ComposerSend Character)
  threads : List ThreadID
  nextStamp : Nat
  typedTexts : List (TypedText Character)
  deleted : List Nat
  trimmed : List Nat
  firstThreads : List ThreadID

/-- Steps of the user, of the server and on the main actor. -/
inductive ComposerStep (Character : Type) where
  /-- The user replaces a piece of the composer's text. -/
  | edits (start length : Nat) (inserted : List Character)
  | selects (thread : Option ThreadID)
  /-- `createThread` without a draft to preserve. -/
  | createThread
  | sendComposer (task : Nat)
  /-- The server has a thread, of which it tells or which it was asked for. -/
  | listsThread (thread : ThreadID)
  | makesThread (thread : ThreadID)
  /-- `createThread` and the send that waits for it go on. -/
  | creationEnds (succeeded : Bool)
  /-- `sendComposer` goes on after `turn/start`, with `none` after an error. -/
  | turnStartEnds (task : Nat) (turns : Option (List TurnReport))
  /-- Notifications and other responses, in any way. -/
  | turnsChange (tracking : TurnTracking)
  | readyChanges (isReady : Bool)

variable {Character : Type}

namespace Alphabet

/-- `trimmingCharacters(in: .whitespacesAndNewlines)`. -/
def trimming
    (alphabet : Alphabet Character)
    (text : StampedText Character) : StampedText Character :=
  GuestKernel.trimming (fun letter => alphabet.isBlank letter.character) text

/-- The keystrokes that `trimming` takes from a text. -/
def trimmings
    (alphabet : Alphabet Character)
    (text : StampedText Character) : List Nat :=
  let isBlank := fun letter : Letter Character =>
    alphabet.isBlank letter.character
  StampedText.stamps (text.takeWhile isBlank) ++
    StampedText.stamps ((text.dropWhile isBlank).rtakeWhile isBlank)

/--
The text that `restoreDraft` makes of a text and what was typed since.  Where
the two are equal the code keeps the one, which then stands for both.
-/
def recovered
    [DecidableEq Character]
    (alphabet : Alphabet Character)
    (text pending : StampedText Character) : StampedText Character :=
  if pending.isEmpty then text
  else if pending.string = text.string then text.unify pending
  else text ++ [⟨alphabet.newline, []⟩, ⟨alphabet.newline, []⟩] ++ pending

end Alphabet

namespace ComposerWorld

/-- The model at its start. -/
def new : ComposerWorld Character where
  selectedThreadID := none
  composerText := []
  drafts := fun _ => []
  selectionGeneration := 0
  isReady := false
  tracking := .new
  creation := none
  sends := fun _ => none
  threads := []
  nextStamp := 0
  typedTexts := []
  deleted := []
  trimmed := []
  firstThreads := []

/-- `isTurnRunning`. -/
def isTurnRunning (world : ComposerWorld Character) : Bool :=
  world.tracking.isTurnRunning (draftKey world.selectedThreadID) ||
    world.creation.isSome

/-- The user's edit, with the keystrokes noted. -/
def edit
    (world : ComposerWorld Character)
    (start length : Nat)
    (inserted : List Character) : ComposerWorld Character :=
  let keystrokes := inserted.zipIdx world.nextStamp
  let lost := (world.composerText.drop start).take length
  { world with
    composerText :=
      world.composerText.take start ++ StampedText.typed keystrokes ++
        (world.composerText.drop start).drop length
    nextStamp := world.nextStamp + inserted.length
    typedTexts := ⟨world.selectedThreadID, keystrokes⟩ :: world.typedTexts
    deleted := world.deleted ++ StampedText.stamps lost }

/-- `selectedThreadID` is set, with its `didSet`. -/
def select
    (world : ComposerWorld Character)
    (thread : Option ThreadID) : ComposerWorld Character :=
  if world.selectedThreadID = thread then world
  else
    let drafts :=
      update world.drafts (draftKey world.selectedThreadID)
        world.composerText
    { world with
      selectedThreadID := thread
      drafts
      composerText := drafts (draftKey thread)
      selectionGeneration := world.selectionGeneration + 1 }

/-- `restoreDraft`. -/
def restoreDraft
    [DecidableEq Character]
    (alphabet : Alphabet Character)
    (world : ComposerWorld Character)
    (text : StampedText Character)
    (thread : Option ThreadID) : ComposerWorld Character :=
  let key := draftKey thread
  let pending :=
    if world.selectedThreadID = thread then world.composerText
    else world.drafts key
  let recovered := alphabet.recovered text pending
  { world with
    composerText :=
      if world.selectedThreadID = thread then recovered
      else world.composerText
    drafts := update world.drafts key recovered }

/-- `sendComposer` from its thread to the request `turn/start`. -/
def startTurn
    (world : ComposerWorld Character)
    (task : Nat)
    (thread : ThreadID)
    (text : StampedText Character) : ComposerWorld Character :=
  { world with
    tracking := world.tracking.begin .turnStart thread.val
    sends := update world.sends task
      (some
        { text
          place :=
            .startingTurn thread (world.tracking.turnRevisions thread.val) }) }

/-- `createThread` up to its request. -/
def createThread
    (world : ComposerWorld Character)
    (send : Option Nat) : ComposerWorld Character :=
  if world.creation.isSome || !world.isReady then world
  else
    { world with
      creation := some ⟨send, world.selectionGeneration, none⟩ }

/-- The composer's text is taken to be sent. -/
def takeText
    (alphabet : Alphabet Character)
    (world : ComposerWorld Character) : ComposerWorld Character :=
  { world with
    composerText := []
    trimmed := world.trimmed ++ alphabet.trimmings world.composerText }

/-- `sendComposer` up to its first request. -/
def sendComposer
    (alphabet : Alphabet Character)
    (world : ComposerWorld Character)
    (task : Nat) : ComposerWorld Character :=
  let text := alphabet.trimming world.composerText
  if world.isReady && !text.isEmpty && !world.isTurnRunning then
    let taken := world.takeText alphabet
    match world.selectedThreadID with
    | some thread => taken.startTurn task thread text
    | none =>
      { taken.createThread (some task) with
        sends :=
          update world.sends task (some ⟨text, .creatingThread⟩) }
  else
    world

/-- A thread was made, and is selected if nothing else was in between. -/
def adoptThread
    (world : ComposerWorld Character)
    (creation : ThreadCreation)
    (thread : ThreadID) : ComposerWorld Character :=
  if world.selectionGeneration = creation.generation then
    let selected := world.select (some thread)
    if creation.send.isSome then
      { selected with
        composerText := world.composerText
        drafts :=
          update selected.drafts (draftKey world.selectedThreadID) [] }
    else
      selected
  else
    world

/-- `createThread` goes on, and then the send that waits for it. -/
def endCreation
    [DecidableEq Character]
    (alphabet : Alphabet Character)
    (world : ComposerWorld Character)
    (creation : ThreadCreation)
    (succeeded : Bool) : Option (ComposerWorld Character) :=
  let ended := { world with creation := none }
  if succeeded then
    creation.thread.bind fun thread =>
      let adopted := ended.adoptThread creation thread
      match creation.send with
      | none => some adopted
      | some task =>
        (world.sends task).map fun send =>
          { adopted.startTurn task thread send.text with
            firstThreads := thread :: world.firstThreads }
  else
    match creation.send with
    | none => some ended
    | some task =>
      (world.sends task).map fun send =>
        { ended.restoreDraft alphabet send.text none with
          sends := update world.sends task none }

/-- `sendComposer` after its turn was started, or could not be. -/
def endTurnStart
    [DecidableEq Character]
    (alphabet : Alphabet Character)
    (world : ComposerWorld Character)
    (task : Nat)
    (turns : Option (List TurnReport)) : Option (ComposerWorld Character) :=
  match world.sends task with
  | some ⟨text, .startingTurn thread revision⟩ =>
    let request : TurnRequest := ⟨.turnStart, thread.val, revision, 0⟩
    let ended := { world with tracking := world.tracking.responded request turns }
    match turns with
    | some _ =>
      some
        { ended with
          sends :=
            update world.sends task
              (some ⟨text, .succeeded thread⟩) }
    | none =>
      some
        { ended.restoreDraft alphabet text (some thread) with
          sends := update world.sends task none }
  | _ => none

/-- One step. -/
def run
    [DecidableEq Character]
    (alphabet : Alphabet Character)
    (world : ComposerWorld Character) :
    ComposerStep Character → Option (ComposerWorld Character)
  | .edits start length inserted => some (world.edit start length inserted)
  | .selects thread =>
    if ∀ id ∈ thread, id ∈ world.threads then some (world.select thread)
    else none
  | .createThread => some (world.createThread none)
  | .sendComposer task =>
    if (world.sends task).isNone then some (world.sendComposer alphabet task)
    else none
  | .listsThread thread =>
    some { world with threads := thread :: world.threads }
  | .makesThread thread =>
    match world.creation with
    | some ⟨send, generation, none⟩ =>
      if thread ∈ world.threads then none
      else
        some
          { world with
            threads := thread :: world.threads
            creation := some ⟨send, generation, some thread⟩ }
    | _ => none
  | .creationEnds succeeded =>
    world.creation.bind fun creation =>
      world.endCreation alphabet creation succeeded
  | .turnStartEnds task turns => world.endTurnStart alphabet task turns
  | .turnsChange tracking => some { world with tracking }
  | .readyChanges isReady => some { world with isReady }

/-- A send whose `turn/start` is in flight or succeeded. -/
def IsRequested (place : SendPlace) : Prop :=
  place ≠ .creatingThread

/--
What was typed of a text and not deleted is in the composer, in the draft of its
thread or, trimmed, in exactly one `turn/start`.
-/
def Preserves
    (alphabet : Alphabet Character)
    (world : ComposerWorld Character)
    (text : TypedText Character) : Prop :=
  let kept := keystrokesWithout world.deleted text.keystrokes
  world.composerText.Holds kept ∨
    (world.drafts (draftKey text.thread)).Holds kept ∨
    ∃! task,
      ∃ send, world.sends task = some send ∧ IsRequested send.place ∧
        send.text.Holds
          (GuestKernel.trimming
            (fun keystroke => alphabet.isBlank keystroke.1) kept)

/--
The threads whose draft a text may be in: the one it was typed in or, if there
was none, one that was made for a first send.
-/
def MayBeDraftOf
    (world : ComposerWorld Character)
    (text : TypedText Character)
    (thread : Option ThreadID) : Prop :=
  thread = text.thread ∨
    (text.thread = none ∧ ∃ made ∈ world.firstThreads, thread = some made)

/--
What was typed of a text and neither deleted nor trimmed is in the composer, in
a draft of its thread or in exactly one send, which waits for its thread or has
its `turn/start` in flight or succeeded.
-/
def PreservesBySends
    (world : ComposerWorld Character)
    (text : TypedText Character) : Prop :=
  let kept :=
    keystrokesWithout (world.deleted ++ world.trimmed) text.keystrokes
  world.composerText.Holds kept ∨
    (∃ thread, world.MayBeDraftOf text thread ∧
      (world.drafts (draftKey thread)).Holds kept) ∨
    ∃! task, ∃ send, world.sends task = some send ∧ send.text.Holds kept

end ComposerWorld

/-- The composer from the start on. -/
def composerMachine
    [DecidableEq Character]
    (alphabet : Alphabet Character) :
    Machine (ComposerWorld Character) (ComposerStep Character) where
  initial world := world = .new
  step world action next := world.run alphabet action = some next

end CodexPad
