import GuestKernel.KernelNumbers
import GuestKernel.PathRounds

namespace GuestKernel
open Option

/-!
# Mounts

`fs/mount.c`: the list of mounts, longest point first and newest first among
points of one length, the search for the mount of a path, and the trimming of
its point from the path.
-/

/-- What stands before the first match does not match. -/
theorem related_of_find?
    {Item : Type}
    {relation : Item → Item → Prop}
    {isMatch : Item → Bool}
    {items : List Item}
    {found other : Item}
    (ordered : items.Pairwise relation)
    (isFound : items.find? isMatch = some found)
    (isItem : other ∈ items)
    (matchesOther : isMatch other = true) :
    other = found ∨ relation found other := by
  induction items with
  | nil =>
    cases isItem
  | cons first rest inductionHypothesis =>
    obtain ⟨before, orderedRest⟩ := List.pairwise_cons.mp ordered
    by_cases matchesFirst : isMatch first = true
    · rw [List.find?_cons_of_pos matchesFirst] at isFound
      cases isFound
      rcases List.mem_cons.mp isItem with rfl | isLater
      · exact .inl rfl
      · exact .inr (before other isLater)
    · rw [List.find?_cons_of_neg matchesFirst] at isFound
      rcases List.mem_cons.mp isItem with rfl | isLater
      · exact (matchesFirst matchesOther).elim
      · exact inductionHypothesis orderedRest isFound isLater

/-- `struct mount`; the serial number stands for its address. -/
structure MountEntry where
  serial : Nat
  point : PathString
  source : PathString
  info : PathString
  flags : Nat
  fs : Nat
  refcount : Nat
  deriving Repr, DecidableEq

/-- `mounts`, and the serial number of the next mount. -/
structure MountTable where
  mounts : List MountEntry
  next : Nat
  deriving Repr, DecidableEq

/-- The comparison of `mount_find`. -/
def MountEntry.covers (mount : MountEntry) (path : PathString) : Bool :=
  mount.point.isPrefixOf path &&
    decide ((path.drop mount.point.length).head? ∈ [some slash, none])

namespace MountTable

/-- Write to the mount with a serial number. -/
def modify
    (table : MountTable)
    (serial : Nat)
    (change : MountEntry → MountEntry) : MountTable :=
  { table with
    mounts := table.mounts.map fun mount =>
      if mount.serial = serial then change mount else mount }

/--
`mount_find`.  Without a mount that covers the path the loop ends at the head
of the list, which is no mount.
-/
def mountFind
    (table : MountTable) (path : PathString) : Option (MountEntry × MountTable) :=
  if pathIsNormalized path = false ∨ table.mounts = [] then
    none
  else
    (table.mounts.find? fun mount => mount.covers path).map fun mount =>
      (mount, table.modify mount.serial fun mount =>
        { mount with refcount := incremented mount.refcount })

/-- `find_mount_and_trim_path`, with what is left of the path. -/
def findMountAndTrimPath
    (table : MountTable)
    (path : PathString) : Option (MountEntry × PathString × MountTable) :=
  (table.mountFind path).map fun (mount, table) =>
    (mount, path.drop mount.point.length, table)

/-- `mount_retain`. -/
def mountRetain (table : MountTable) (serial : Nat) : MountTable :=
  table.modify serial fun mount =>
    { mount with refcount := incremented mount.refcount }

/-- `mount_release`. -/
def mountRelease (table : MountTable) (serial : Nat) : MountTable :=
  table.modify serial fun mount =>
    { mount with refcount := decremented mount.refcount }

/-- The loop of `do_mount` over the list, and `list_add_before`. -/
def insertMount (new : MountEntry) : List MountEntry → List MountEntry
  | [] => [new]
  | mount :: rest =>
    if mount.point.length ≤ new.point.length then new :: mount :: rest
    else mount :: insertMount new rest

/-- `do_mount`; `mounted` is the error of `fs->mount`. -/
def doMount
    (table : MountTable)
    (fs : Nat)
    (source point info : PathString)
    (flags : Nat)
    (allocated : Bool)
    (mounted : Option Errno) : Option Errno × MountTable :=
  if allocated = false then
    (some .nomem, table)
  else
    match mounted with
    | some err => (some err, table)
    | none =>
      let new : MountEntry := {
        serial := table.next
        point := point
        source := source
        info := info
        flags := flags
        fs := fs
        refcount := 0 }
      (none, {
        mounts := insertMount new table.mounts
        next := table.next + 1 })

/-- `mount_remove`. -/
def mountRemove
    (table : MountTable) (mount : MountEntry) : Option Errno × MountTable :=
  if mount.refcount ≠ 0 then
    (some .busy, table)
  else
    (none, { table with
      mounts := table.mounts.eraseP fun other =>
        other.serial = mount.serial })

/-- `do_umount`. -/
def doUmount
    (table : MountTable) (point : PathString) : Option Errno × MountTable :=
  match table.mounts.find? fun mount => mount.point = point with
  | none => (some .inval, table)
  | some mount => table.mountRemove mount

/-- Which mount a lookup finds. -/
def lookup (table : MountTable) (path : PathString) : Option MountEntry :=
  (table.mountFind path).map Prod.fst

end MountTable

/-- What happens to the mounts. -/
inductive MountStep where
  | mount
      (fs : Nat)
      (source point info : PathString)
      (flags : Nat)
      (allocated : Bool)
      (mounted : Option Errno)
  | umount (point : PathString)
  | find (path : PathString)
  | retain (serial : Nat)
  | release (serial : Nat)

/-- The code a step runs. -/
def MountStep.run (table : MountTable) : MountStep → Option MountTable
  | mount fs source point info flags allocated mounted =>
    if pathIsNormalized point then
      some (table.doMount fs source point info flags allocated mounted).2
    else
      none
  | umount point =>
    if pathIsNormalized point then some (table.doUmount point).2 else none
  | find path => (table.mountFind path).map Prod.snd
  | retain serial => some (table.mountRetain serial)
  | release serial => some (table.mountRelease serial)

/-- All sequences of mounts, unmounts and lookups, from an empty list on. -/
def mountMachine : Machine MountTable MountStep where
  initial table := table = { mounts := [], next := 0 }
  step table step next := step.run table = some next

/-- A mount stands before another one. -/
def MountEntry.Before (mount later : MountEntry) : Prop :=
  later.point.length < mount.point.length ∨
    (later.point.length = mount.point.length ∧ later.serial < mount.serial)

namespace MountTable

/-- Longer points first, then newer mounts; all points are normalized. -/
structure Ordered (table : MountTable) : Prop where
  sorted : table.mounts.Pairwise MountEntry.Before
  old : ∀ mount ∈ table.mounts, mount.serial < table.next
  normalized :
    ∀ mount ∈ table.mounts, pathIsNormalized mount.point = true

variable {table : MountTable} {mounts : List MountEntry}

theorem mem_insertMount
    {new mount : MountEntry} :
    mount ∈ insertMount new mounts ↔ mount = new ∨ mount ∈ mounts := by
  induction mounts with
  | nil =>
    simp [insertMount]
  | cons first rest inductionHypothesis =>
    unfold insertMount
    by_cases isPlace : first.point.length ≤ new.point.length
    · rw [if_pos isPlace, List.mem_cons]
    · rw [if_neg isPlace, List.mem_cons, inductionHypothesis, List.mem_cons]
      exact or_left_comm

/-- The insertion keeps the order. -/
theorem pairwise_insertMount
    {new : MountEntry}
    (sorted : mounts.Pairwise MountEntry.Before)
    (isNew : ∀ mount ∈ mounts, mount.serial < new.serial) :
    (insertMount new mounts).Pairwise MountEntry.Before := by
  induction mounts with
  | nil =>
    exact List.pairwise_singleton ..
  | cons first rest inductionHypothesis =>
    obtain ⟨before, sortedRest⟩ := List.pairwise_cons.mp sorted
    unfold insertMount
    by_cases isPlace : first.point.length ≤ new.point.length
    · rw [if_pos isPlace]
      refine List.pairwise_cons.mpr ⟨?_, sorted⟩
      intro mount isOld
      have shorter : mount.point.length ≤ new.point.length := by
        rcases List.mem_cons.mp isOld with rfl | isLater
        · exact isPlace
        · rcases before mount isLater with less | ⟨same, _⟩
          · exact Nat.le_trans (Nat.le_of_lt less) isPlace
          · exact same ▸ isPlace
      rcases Nat.lt_or_eq_of_le shorter with less | same
      · exact .inl less
      · exact .inr ⟨same, isNew mount isOld⟩
    · rw [if_neg isPlace]
      refine List.pairwise_cons.mpr ⟨?_, ?_⟩
      · intro mount isMember
        rcases mem_insertMount.mp isMember with rfl | isLater
        · exact .inl (Nat.lt_of_not_le isPlace)
        · exact before mount isLater
      · exact inductionHypothesis sortedRest fun mount isLater =>
          isNew mount (List.mem_cons_of_mem _ isLater)

/-- A write that keeps points and serial numbers keeps the order. -/
theorem Ordered.modify
    {serial : Nat}
    {change : MountEntry → MountEntry}
    (ordered : table.Ordered)
    (samePoint : ∀ mount, (change mount).point = mount.point)
    (sameSerial : ∀ mount, (change mount).serial = mount.serial) :
    (table.modify serial change).Ordered := by
  have changedPoint :
      ∀ mount : MountEntry,
        (if mount.serial = serial then change mount else mount).point =
          mount.point := by
    intro mount
    by_cases isMount : mount.serial = serial
    · rw [if_pos isMount, samePoint]
    · rw [if_neg isMount]
  have changedSerial :
      ∀ mount : MountEntry,
        (if mount.serial = serial then change mount else mount).serial =
          mount.serial := by
    intro mount
    by_cases isMount : mount.serial = serial
    · rw [if_pos isMount, sameSerial]
    · rw [if_neg isMount]
  constructor
  case sorted =>
    refine List.pairwise_map.mpr (ordered.sorted.imp ?_)
    intro mount later isBefore
    unfold MountEntry.Before
    rw [changedPoint, changedPoint, changedSerial, changedSerial]
    exact isBefore
  case old =>
    intro mount isMount
    obtain ⟨before, isBefore, rfl⟩ := List.mem_map.mp isMount
    rw [changedSerial]
    exact ordered.old before isBefore
  case normalized =>
    intro mount isMount
    obtain ⟨before, isBefore, rfl⟩ := List.mem_map.mp isMount
    rw [changedPoint]
    exact ordered.normalized before isBefore

theorem Ordered.step
    {next : MountTable}
    {step : MountStep}
    (ordered : table.Ordered)
    (run : step.run table = some next) :
    next.Ordered := by
  cases step with
  | mount fs source point info flags allocated mounted =>
    simp only [MountStep.run, ite_none_right_eq_some] at run
    obtain ⟨normalized, same⟩ := run
    cases same
    unfold doMount
    cases allocated with
    | false => exact ordered
    | true =>
      cases mounted with
      | some err => exact ordered
      | none =>
        constructor
        case sorted => exact pairwise_insertMount ordered.sorted ordered.old
        case old =>
          intro mount isMount
          rcases mem_insertMount.mp isMount with rfl | isOld
          · exact Nat.lt_succ_self _
          · exact Nat.lt_succ_of_lt (ordered.old mount isOld)
        case normalized =>
          intro mount isMount
          rcases mem_insertMount.mp isMount with rfl | isOld
          · exact normalized
          · exact ordered.normalized mount isOld
  | umount point =>
    simp only [MountStep.run, ite_none_right_eq_some] at run
    obtain ⟨_, same⟩ := run
    cases same
    unfold doUmount
    split
    · exact ordered
    · unfold mountRemove
      split
      · exact ordered
      · constructor
        case sorted => exact ordered.sorted.sublist List.eraseP_sublist
        case old =>
          exact fun mount isMount =>
            ordered.old mount (List.mem_of_mem_eraseP isMount)
        case normalized =>
          exact fun mount isMount =>
            ordered.normalized mount (List.mem_of_mem_eraseP isMount)
  | find path =>
    obtain ⟨⟨mount, found⟩, isFound, same⟩ := map_eq_some_iff.mp run
    cases same
    unfold mountFind at isFound
    split at isFound
    · cases isFound
    · obtain ⟨mount, _, same⟩ := map_eq_some_iff.mp isFound
      cases same
      exact ordered.modify (fun _ => rfl) (fun _ => rfl)
  | retain serial | release serial =>
    cases run
    exact ordered.modify (fun _ => rfl) (fun _ => rfl)

theorem ordered_of_reachable
    (reachable : mountMachine.Reachable table) :
    table.Ordered := by
  refine Machine.Reachable.invariant
    (motive := fun table => table.Ordered) ?_ ?_ reachable
  · rintro _ rfl
    exact ⟨.nil, fun _ isMount => (nomatch isMount),
      fun _ isMount => (nomatch isMount)⟩
  · intro before step after ordered taken
    exact ordered.step taken

end MountTable

/-- The point is the path or stands before a slash in it. -/
def MountEntry.IsAbove (mount : MountEntry) (path : PathString) : Prop :=
  path = mount.point ∨ ∃ rest, path = mount.point ++ slash :: rest

variable {mount : MountEntry} {path : PathString}

/-- What is left of a path below a mount that covers it. -/
theorem MountEntry.covers_iff :
    mount.covers path = true ↔
      ∃ rest,
        path = mount.point ++ rest ∧
          (rest = [] ∨ rest.head? = some slash) := by
  rw [MountEntry.covers, Bool.and_eq_true, List.isPrefixOf_iff_prefix,
    decide_eq_true_iff]
  constructor
  · rintro ⟨⟨rest, rfl⟩, next⟩
    rw [List.drop_left] at next
    refine ⟨rest, rfl, ?_⟩
    cases rest with
    | nil => exact .inl rfl
    | cons byte later => exact .inr (by simpa using next)
  · rintro ⟨rest, rfl, next⟩
    refine ⟨⟨rest, rfl⟩, ?_⟩
    rw [List.drop_left]
    rcases next with rfl | next
    · exact List.mem_cons_of_mem _ List.mem_cons_self
    · rw [next]
      exact List.mem_cons_self

theorem MountEntry.covers_iff_isAbove :
    mount.covers path = true ↔ mount.IsAbove path := by
  rw [MountEntry.covers_iff]
  constructor
  · rintro ⟨rest, rfl, next⟩
    cases rest with
    | nil => exact .inl (List.append_nil _)
    | cons byte later =>
      have isSlash : byte = slash := by
        simpa using next
      exact .inr ⟨later, isSlash ▸ rfl⟩
  · rintro (same | ⟨rest, same⟩)
    · exact ⟨[], same.trans (List.append_nil _).symm, .inl rfl⟩
    · exact ⟨slash :: rest, same, .inr rfl⟩

theorem MountEntry.IsAbove.point_eq
    {other : MountEntry}
    (isAbove : mount.IsAbove path)
    (otherAbove : other.IsAbove path)
    (sameLength : other.point.length = mount.point.length) :
    other.point = mount.point := by
  obtain ⟨rest, same, _⟩ :=
    MountEntry.covers_iff.mp (MountEntry.covers_iff_isAbove.mpr isAbove)
  obtain ⟨otherRest, otherSame, _⟩ :=
    MountEntry.covers_iff.mp (MountEntry.covers_iff_isAbove.mpr otherAbove)
  exact (List.append_inj (otherSame.symm.trans same) sameLength).1

namespace MountTable

variable {table after : MountTable} {path : PathString} {mount : MountEntry}

theorem mountFind_some
    (found : table.mountFind path = some (mount, after)) :
    pathIsNormalized path = true ∧
      table.mounts.find? (fun mount => mount.covers path) = some mount := by
  unfold mountFind at found
  split at found
  case isTrue =>
    cases found
  case isFalse allowed =>
    obtain ⟨first, isFirst, same⟩ := map_eq_some_iff.mp found
    cases same
    refine ⟨?_, isFirst⟩
    rw [not_or, Bool.not_eq_false] at allowed
    exact allowed.1

theorem lookup_eq
    (normalized : pathIsNormalized path = true) :
    table.lookup path =
      table.mounts.find? fun mount => mount.covers path := by
  unfold lookup mountFind
  by_cases empty : table.mounts = []
  · rw [if_pos (.inr empty), empty]
    rfl
  · rw [if_neg (not_or.mpr ⟨by rw [normalized]; decide, empty⟩),
      Option.map_map]
    exact Option.map_id' ..

theorem lookup_congr
    {other : MountTable}
    (sameMounts : table.mounts = other.mounts) :
    table.lookup path = other.lookup path := by
  unfold lookup mountFind
  rw [sameMounts]
  split
  · rfl
  · rw [Option.map_map, Option.map_map]
    rfl

/-- No other mount above the path has a longer point or is a later one. -/
theorem Ordered.longest_of_find
    {other : MountEntry}
    (ordered : table.Ordered)
    (found : table.mountFind path = some (mount, after))
    (isMount : other ∈ table.mounts)
    (isAbove : other.IsAbove path) :
    other.point.length < mount.point.length ∨
      (other.point = mount.point ∧ other.serial ≤ mount.serial) := by
  obtain ⟨_, isFirst⟩ := mountFind_some found
  have foundAbove : mount.IsAbove path :=
    MountEntry.covers_iff_isAbove.mp
      (List.find?_some (p := (MountEntry.covers · path)) isFirst)
  rcases related_of_find? ordered.sorted isFirst isMount
    (MountEntry.covers_iff_isAbove.mpr isAbove) with rfl | before
  · exact .inr ⟨rfl, Nat.le_refl _⟩
  · rcases before with less | ⟨same, older⟩
    · exact .inl less
    · exact .inr ⟨foundAbove.point_eq isAbove same, Nat.le_of_lt older⟩

/-- Trimming the point leaves a normalized rest. -/
theorem trimmed_of_find
    {rest : PathString}
    (found :
      table.findMountAndTrimPath path = some (mount, rest, after)) :
    pathIsNormalized rest = true ∧ mount.point ++ rest = path := by
  obtain ⟨⟨first, searched⟩, isFound, same⟩ :=
    map_eq_some_iff.mp found
  cases same
  obtain ⟨normalized, isFirst⟩ := mountFind_some isFound
  obtain ⟨rest, rfl, next⟩ :=
    MountEntry.covers_iff.mp
      (List.find?_some (p := (MountEntry.covers · path)) isFirst)
  rw [List.drop_left]
  refine ⟨?_, rfl⟩
  rw [pathIsNormalized, Bool.and_eq_true, noDoubleSlash_append] at normalized
  rw [pathIsNormalized, Bool.and_eq_true, decide_eq_true_iff]
  exact ⟨next, normalized.2.2.1⟩

/-- The entry just inserted is the first one at its point. -/
theorem find?_insertMount
    (new : MountEntry)
    (mounts : List MountEntry) :
    (insertMount new mounts).find? (fun mount => mount.point = new.point) =
      some new := by
  induction mounts with
  | nil =>
    simp [insertMount]
  | cons first rest inductionHypothesis =>
    unfold insertMount
    by_cases isPlace : first.point.length ≤ new.point.length
    · rw [if_pos isPlace]
      exact List.find?_cons_of_pos (decide_eq_true rfl)
    · have differs : first.point ≠ new.point := fun same =>
        isPlace (Nat.le_of_eq (congrArg List.length same))
      rw [if_neg isPlace,
        List.find?_cons_of_neg (by simpa using differs)]
      exact inductionHypothesis

/-- Removing the entry just inserted gives back the list. -/
theorem eraseP_insertMount
    {new : MountEntry}
    {mounts : List MountEntry}
    (isNew : ∀ mount ∈ mounts, mount.serial ≠ new.serial) :
    (insertMount new mounts).eraseP (fun mount => mount.serial = new.serial) =
      mounts := by
  induction mounts with
  | nil =>
    simp [insertMount]
  | cons first rest inductionHypothesis =>
    obtain ⟨firstOld, restOld⟩ := List.forall_mem_cons.mp isNew
    unfold insertMount
    by_cases isPlace : first.point.length ≤ new.point.length
    · rw [if_pos isPlace]
      exact List.eraseP_cons_of_pos (decide_eq_true rfl)
    · rw [if_neg isPlace,
        List.eraseP_cons_of_neg (by simpa using firstOld),
        inductionHypothesis restOld]

/-- An unmount right after a mount gives back the list of mounts. -/
theorem Ordered.umount_of_mount
    {fs flags : Nat}
    {source point info : PathString}
    {allocated : Bool}
    {mounted : Option Errno}
    (ordered : table.Ordered)
    (succeeds :
      table.doMount fs source point info flags allocated mounted =
        (none, after)) :
    (after.doUmount point).1 = none ∧
      (after.doUmount point).2.mounts = table.mounts := by
  unfold doMount at succeeds
  cases allocated with
  | false =>
    cases succeeds
  | true =>
    cases mounted with
    | some err =>
      cases succeeds
    | none =>
      cases succeeds
      have isNew :
          ∀ mount ∈ table.mounts, mount.serial ≠ table.next :=
        fun mount isOld => Nat.ne_of_lt (ordered.old mount isOld)
      have isFirst :=
        find?_insertMount
          { serial := table.next, point := point, source := source
            info := info, flags := flags, fs := fs, refcount := 0 }
          table.mounts
      unfold doUmount
      rw [isFirst]
      exact ⟨rfl, eraseP_insertMount isNew⟩

/--
After every sequence of mounts and unmounts a search finds the longest point
above the path, the newest mount among equal ones; trimming leaves a
normalized rest of the path; and an unmount of a point just mounted gives every
path its old mount back.
-/
theorem mounts_resolve
    {table : MountTable}
    (reachable : mountMachine.Reachable table) :
    (∀ path, pathIsNormalized path = true →
      (∃ mount ∈ table.mounts, mount.IsAbove path) →
      ∃ mount after, table.mountFind path = some (mount, after)) ∧
    (∀ path mount after, table.mountFind path = some (mount, after) →
      mount ∈ table.mounts ∧
        mount.IsAbove path ∧
        ∀ other ∈ table.mounts, other.IsAbove path →
          other.point.length < mount.point.length ∨
            (other.point = mount.point ∧ other.serial ≤ mount.serial)) ∧
    (∀ path mount rest after,
      table.findMountAndTrimPath path = some (mount, rest, after) →
      table.mountFind path = some (mount, after) ∧
        pathIsNormalized rest = true ∧
        mount.point ++ rest = path) ∧
    (∀ fs source point info flags allocated mounted after,
      pathIsNormalized point = true →
      table.doMount fs source point info flags allocated mounted =
        (none, after) →
        (after.doUmount point).1 = none ∧
          ∀ path, (after.doUmount point).2.lookup path = table.lookup path) := by
  have ordered := ordered_of_reachable reachable
  refine ⟨?_, ?_, ?_, ?_⟩
  · rintro path normalized ⟨mount, isMount, isAbove⟩
    have covers := MountEntry.covers_iff_isAbove.mpr isAbove
    have isFound :
        (table.mounts.find? fun mount => mount.covers path).isSome := by
      rw [List.find?_isSome]
      exact ⟨mount, isMount, covers⟩
    rw [← lookup_eq normalized] at isFound
    obtain ⟨found, isLookup⟩ := isSome_iff_exists.mp isFound
    obtain ⟨⟨first, after⟩, isFirst, _⟩ := map_eq_some_iff.mp isLookup
    exact ⟨first, after, isFirst⟩
  · intro path mount after found
    obtain ⟨_, isFirst⟩ := mountFind_some found
    exact ⟨List.mem_of_find?_eq_some isFirst,
      MountEntry.covers_iff_isAbove.mp
        (List.find?_some (p := (MountEntry.covers · path)) isFirst),
      fun other isMount isAbove =>
        ordered.longest_of_find found isMount isAbove⟩
  · intro path mount rest after found
    refine ⟨?_, trimmed_of_find found⟩
    obtain ⟨⟨first, searched⟩, isFound, same⟩ :=
      map_eq_some_iff.mp found
    cases same
    exact isFound
  · intro fs source point info flags allocated mounted after _ succeeds
    obtain ⟨noError, sameMounts⟩ := ordered.umount_of_mount succeeds
    refine ⟨noError, ?_⟩
    intro path
    exact lookup_congr sameMounts

/-- The root and a file system on `/a`. -/
def rootAndA : MountTable where
  mounts := [
    { serial := 1, point := [slash, 97], source := [], info := []
      flags := 0, fs := 1, refcount := 0 },
    { serial := 0, point := [], source := [], info := []
      flags := 0, fs := 0, refcount := 0 }]
  next := 2

/-- The mount on `/a` does not take the path `/ab` from the root. -/
theorem sibling_stays_on_root :
    mountMachine.Reachable rootAndA ∧
      ∃ mount after,
        rootAndA.mountFind [slash, 97, 98] = some (mount, after) ∧
          mount.fs = 0 ∧
          ∀ other ∈ rootAndA.mounts, other.IsAbove [slash, 97, 98] →
            other.point.length < mount.point.length ∨
              (other.point = mount.point ∧ other.serial ≤ mount.serial) := by
  have mounted : mountMachine.Reachable rootAndA :=
    Machine.Reachable.foldlM MountStep.run (fun run => run)
      (.initial rfl)
      (show [MountStep.mount 0 [] [] [] 0 true none,
          .mount 1 [] [slash, 97] [] 0 true none].foldlM MountStep.run
            { mounts := [], next := 0 } = some rootAndA
        from by decide)
  refine ⟨mounted, _, _, rfl, rfl, ?_⟩
  exact ((mounts_resolve mounted).2.1 [slash, 97, 98] _ _ rfl).2.2

end MountTable

/-- The byte between two items of `info`. -/
def comma : UInt8 := 44

/-- `mount_param_flag`, as long as it has the fuel. -/
def mountParamFlag (flag : PathString) : Nat → PathString → Option Bool
  | 0, _ => none
  | fuel + 1, info =>
    if info = [] then
      some false
    else if flag.isPrefixOf info then
      some true
    else
      -- `strcspn` stops at a comma, and stays there the next time.
      mountParamFlag flag fuel (info.dropWhile (· != comma))

/-- On a comma the scan does not move. -/
theorem mountParamFlag_on_comma
    {flag rest : PathString}
    (nonempty : flag ≠ [])
    (noComma : comma ∉ flag)
    (fuel : Nat) :
    mountParamFlag flag fuel (comma :: rest) = none := by
  have notHere : flag.isPrefixOf (comma :: rest) = false := by
    cases flag with
    | nil => exact absurd rfl nonempty
    | cons first others =>
      have differs : first ≠ comma := by
        intro same
        exact noComma (same ▸ List.mem_cons_self)
      simp [List.isPrefixOf, differs]
  induction fuel with
  | zero => rfl
  | succ fuel inductionHypothesis =>
    simpa [mountParamFlag, notHere] using inductionHypothesis

/-- Where the scan goes on, it is at its end or on a comma. -/
theorem dropWhile_comma (info : PathString) :
    (comma ∉ info ∧ info.dropWhile (· != comma) = []) ∨
      (comma ∈ info ∧ ∃ rest, info.dropWhile (· != comma) = comma :: rest) := by
  induction info with
  | nil => simp
  | cons first rest inductionHypothesis =>
    by_cases isComma : first = comma
    · subst isComma
      exact .inr ⟨List.mem_cons_self, rest, by simp⟩
    · have later : comma ∈ first :: rest ↔ comma ∈ rest := by
        simp [Ne.symm isComma]
      simpa [later, isComma] using inductionHypothesis

/-- The scan ends with the right answer where the first item decides it. -/
theorem mount_param_flag_iff
    (info flag : PathString)
    (nonempty : flag ≠ [])
    (noComma : comma ∉ flag) :
    (∃ enough, ∀ fuel, enough ≤ fuel →
      mountParamFlag flag fuel info =
        some (decide (flag ∈ info.splitOn comma))) ↔
      (flag <+: info ∧ flag ∈ info.splitOn comma) ∨
        (¬flag <+: info ∧ comma ∉ info) := by
  have alone (absent : comma ∉ info) : info.splitOn comma = [info] := by
    refine List.splitOnP_eq_singleton ?_
    intro byte member
    simpa using ne_of_mem_of_not_mem member absent
  by_cases isPrefix : flag <+: info
  · have notEmpty : info ≠ [] := by
      rintro rfl
      exact nonempty (List.prefix_nil.mp isPrefix)
    have found (fuel : Nat) : mountParamFlag flag (fuel + 1) info = some true := by
      simp [mountParamFlag, notEmpty, isPrefix]
    simp only [isPrefix, true_and, not_true_eq_false, false_and, or_false]
    constructor
    · rintro ⟨enough, answers⟩
      have answer := answers (enough + 1) (Nat.le_succ _)
      rw [found] at answer
      exact of_decide_eq_true (some.inj answer).symm
    · intro isItem
      refine ⟨1, ?_⟩
      intro fuel isEnough
      obtain ⟨fuel, rfl⟩ := Nat.exists_eq_add_of_le' isEnough
      rw [found, decide_eq_true isItem]
  · simp only [isPrefix, false_and, not_false_eq_true, true_and, false_or]
    have next (fuel : Nat) (notEmpty : info ≠ []) :
        mountParamFlag flag (fuel + 1) info =
          mountParamFlag flag fuel (info.dropWhile (· != comma)) := by
      simp [mountParamFlag, notEmpty, isPrefix]
    constructor
    · rintro ⟨enough, answers⟩ hasComma
      obtain ⟨absent, _⟩ | ⟨_, rest, stops⟩ := dropWhile_comma info
      · exact absent hasComma
      · have answer := answers (enough + 1) (Nat.le_succ _)
        rw [next _ (List.ne_nil_of_mem hasComma), stops,
          mountParamFlag_on_comma nonempty noComma] at answer
        cases answer
    · intro absent
      have notItem : flag ∉ info.splitOn comma := by
        rw [alone absent, List.mem_singleton]
        rintro rfl
        exact isPrefix (List.prefix_refl _)
      refine ⟨2, ?_⟩
      intro fuel isEnough
      obtain ⟨fuel, rfl⟩ := Nat.exists_eq_add_of_le' isEnough
      rw [decide_eq_false notItem]
      by_cases isEmpty : info = []
      · simp [mountParamFlag, isEmpty]
      · obtain ⟨_, atEnd⟩ | ⟨hasComma, _⟩ := dropWhile_comma info
        · rw [next _ isEmpty, atEnd]
          simp [mountParamFlag]
        · exact absurd hasComma absent

/-- The first item `a` of `a,b` is found. -/
theorem mount_param_flag_first :
    ∃ enough, ∀ fuel, enough ≤ fuel →
      mountParamFlag [97] fuel [97, comma, 98] =
        some (decide ([97] ∈ [97, comma, 98].splitOn comma)) :=
  (mount_param_flag_iff [97, comma, 98] [97] (by decide) (by decide)).mpr
    (.inl ⟨by decide, by decide⟩)

/-- The scan of `a,b` for `b` does not end. -/
theorem mount_param_flag_hangs :
    [98] ∈ [97, comma, 98].splitOn comma ∧
      ∀ fuel, mountParamFlag [98] fuel [97, comma, 98] = none := by
  refine ⟨by decide, ?_⟩
  intro fuel
  cases fuel with
  | zero => rfl
  | succ fuel =>
    exact @mountParamFlag_on_comma _ [98] (by decide) (by decide) fuel

end GuestKernel
