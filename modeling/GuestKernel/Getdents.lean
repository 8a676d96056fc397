import GuestKernel.Machine
import GuestKernel.PathNormalize
import Mathlib.Algebra.GroupWithZero.Nat

namespace GuestKernel
open List

/-!
# Reading directories

`getdents` and `getdents64` of `fs/dir.c`, over a directory whose positions are
the numbers of its entries.  Reads of the directory and writes to the guest's
memory may fail.
-/

/-- `struct dir_entry`. -/
structure DirEntry where
  inode : Nat
  name : PathString
  named : name.length ≤ 255

/-- A record: what `fill_dirent` returns, and the bytes that it fills. -/
structure Dirent where
  entry : DirEntry
  reclen : Nat
  bytes : List UInt8

/-- The low `n` bytes of a number, lowest first. -/
def littleEndian (n number : Nat) : List UInt8 :=
  (List.range n).map fun i => UInt8.ofNat (number / 256 ^ i)

/-- `fill_dirent_32`. -/
def fillDirent32 (entry : DirEntry) (offset : Nat) : Dirent :=
  let reclen := (10 + entry.name.length + 2) % 2 ^ 16
  { entry := entry
    reclen := reclen
    bytes :=
      littleEndian 4 entry.inode ++ littleEndian 4 offset ++
        littleEndian 2 reclen ++ entry.name ++ [0, 0] }

/-- `fill_dirent_64`. -/
def fillDirent64 (entry : DirEntry) (offset : Nat) : Dirent :=
  let reclen := (19 + entry.name.length + 1) % 2 ^ 16
  { entry := entry
    reclen := reclen
    bytes :=
      littleEndian 8 entry.inode ++ littleEndian 8 offset ++
        littleEndian 2 reclen ++ [0] ++ entry.name ++ [0] }

/-- A call, and which reads and writes fail while it runs. -/
structure GetdentsCall where
  is64 : Bool
  dirents : Nat
  count : Nat
  readError : Nat → Option Int
  writeFails : Nat → Bool

/-- What a call returns, where it leaves the directory, and its records. -/
structure GetdentsResult where
  returned : Except Int Nat
  position : Nat
  records : List Dirent

namespace GetdentsCall

/-- `fill_dirent` of a call. -/
def fill (call : GetdentsCall) (entry : DirEntry) (offset : Nat) : Dirent :=
  if call.is64 then fillDirent64 entry offset else fillDirent32 entry offset

/-- The loop, with the entries that are left, `dirents` and `count`. -/
def loop (call : GetdentsCall) :
    List DirEntry → Nat → Nat → Nat → List Dirent → GetdentsResult
  | rest, ptr, dirents, count, records =>
    match call.readError ptr with
    -- Neither this exit nor the one for a fault goes back to `ptr`.
    | some err => ⟨.error err, ptr, records⟩
    | none =>
      match rest with
      | [] => ⟨.ok (call.count - count), ptr, records⟩
      | entry :: rest =>
        let dirent := call.fill entry (ptr + 1)
        if dirent.reclen > count then
          ⟨.ok (call.count - count), ptr, records⟩
        else if call.writeFails dirents then
          ⟨.error (-14), ptr + 1, records⟩
        else
          call.loop rest (ptr + 1) ((dirents + dirent.reclen) % 2 ^ 32)
            (count - dirent.reclen) (records ++ [dirent])

/-- `sys_getdents_common`. -/
def sysGetdents
    (call : GetdentsCall)
    (entries : List DirEntry)
    (position : Nat) : GetdentsResult :=
  call.loop (entries.drop position) position call.dirents call.count []

/-- No read or write of the loop fails. -/
def Smooth (call : GetdentsCall) : List DirEntry → Nat → Nat → Nat → Prop
  | [], ptr, _, _ => call.readError ptr = none
  | entry :: rest, ptr, dirents, count =>
    call.readError ptr = none ∧
      ((call.fill entry (ptr + 1)).reclen ≤ count →
        call.writeFails dirents = false ∧
          call.Smooth rest (ptr + 1)
            ((dirents + (call.fill entry (ptr + 1)).reclen) % 2 ^ 32)
            (count - (call.fill entry (ptr + 1)).reclen))

/--
The first read fails, or none of the reads and writes does and the next entry,
if there is one, fits.
-/
def Proceeds
    (call : GetdentsCall)
    (entries : List DirEntry)
    (position : Nat) : Prop :=
  call.readError position ≠ none ∨
    (call.Smooth (entries.drop position) position call.dirents call.count ∧
      ∀ entry ∈ entries[position]?,
        (call.fill entry (position + 1)).reclen ≤ call.count)

/--
An error returns no records and leaves the position.  Otherwise the records are
those of the next entries, they are as long as they say and together as long as
the call says, and there are none only at the end.
-/
def Meets
    (call : GetdentsCall)
    (entries : List DirEntry)
    (position : Nat)
    (result : GetdentsResult) : Prop :=
  result.records.map (·.entry) =
      (entries.drop position).take (result.position - position) ∧
    position ≤ result.position ∧
    (∀ dirent ∈ result.records, dirent.bytes.length = dirent.reclen) ∧
    match result.returned with
    | .error _ => result.position = position
    | .ok n =>
      n = (result.records.map (·.reclen)).sum ∧ n ≤ call.count ∧
        (n = 0 → entries.drop position = [])

theorem fill_exact (call : GetdentsCall) (entry : DirEntry) (offset : Nat) :
    (call.fill entry offset).entry = entry ∧
      (call.fill entry offset).bytes.length =
        (call.fill entry offset).reclen ∧
      0 < (call.fill entry offset).reclen := by
  have named := entry.named
  unfold fill fillDirent32 fillDirent64 littleEndian
  split <;> refine ⟨rfl, ?_, by dsimp only; omega⟩ <;> simp <;> omega

/-- What the loop does when nothing fails: the records that it adds. -/
theorem loop_spec
    {call : GetdentsCall}
    {rest : List DirEntry}
    {ptr dirents count : Nat}
    (smooth : call.Smooth rest ptr dirents count)
    (below : count ≤ call.count)
    (records : List Dirent) :
    ∃ more,
      call.loop rest ptr dirents count records =
          ⟨.ok (call.count - count + (more.map (·.reclen)).sum),
            ptr + more.length, records ++ more⟩ ∧
        more.map (·.entry) = rest.take more.length ∧
        (∀ dirent ∈ more, dirent.bytes.length = dirent.reclen ∧
          0 < dirent.reclen) ∧
        (more.map (·.reclen)).sum ≤ count ∧
        (more = [] → ∀ entry ∈ rest.head?,
          count < (call.fill entry (ptr + 1)).reclen) := by
  induction rest generalizing ptr dirents count records with
  | nil =>
    rw [Smooth] at smooth
    refine ⟨[], ?_, rfl, nofun, Nat.zero_le _, nofun⟩
    rw [loop, smooth]
    simp
  | cons entry rest inductionHypothesis =>
    obtain ⟨noError, goesOn⟩ := smooth
    rw [loop, noError]
    dsimp only
    by_cases isBig : (call.fill entry (ptr + 1)).reclen > count
    · refine ⟨[], ?_, rfl, nofun, Nat.zero_le _, ?_⟩
      · rw [if_pos isBig]
        simp
      · rintro _ _ ⟨⟩
        exact isBig
    · obtain ⟨written, smooth⟩ := goesOn (by omega)
      obtain ⟨isEntry, isExact⟩ := call.fill_exact entry (ptr + 1)
      obtain ⟨more, ended, sameEntries, exact, fits, _⟩ :=
        inductionHypothesis smooth (by omega)
          (records ++ [call.fill entry (ptr + 1)])
      refine ⟨call.fill entry (ptr + 1) :: more, ?_, ?_, ?_, ?_, nofun⟩
      · rw [if_neg isBig, written, if_neg Bool.false_ne_true, ended]
        simp only [map_cons, sum_cons, length_cons,
          append_assoc, singleton_append]
        have returned (sum : Nat) :
            call.count - (count - (call.fill entry (ptr + 1)).reclen) + sum =
              call.count - count +
                ((call.fill entry (ptr + 1)).reclen + sum) := by
          omega
        rw [returned, Nat.add_assoc ptr, Nat.add_comm 1]
      · rw [map_cons, sameEntries, isEntry]
        rfl
      · exact forall_mem_cons.mpr ⟨isExact, exact⟩
      · rw [map_cons, sum_cons]
        omega

/-- A call that proceeds does what it should. -/
theorem meets_of_proceeds
    {call : GetdentsCall}
    {entries : List DirEntry}
    {position : Nat}
    (proceeds : call.Proceeds entries position) :
    call.Meets entries position (call.sysGetdents entries position) := by
  unfold sysGetdents Meets
  rcases proceeds with fails | ⟨smooth, fits⟩
  · obtain ⟨err, isError⟩ := Option.ne_none_iff_exists'.mp fails
    have ended :
        call.loop (entries.drop position) position call.dirents call.count [] =
          ⟨.error err, position, []⟩ := by
      rw [loop.eq_def]
      dsimp only
      rw [isError]
    rw [ended]
    simp
  · obtain ⟨more, ended, sameEntries, exact, inCount, full⟩ :=
      loop_spec smooth (Nat.le_refl _) []
    rw [ended]
    dsimp only
    rw [nil_append, Nat.add_sub_cancel_left, Nat.sub_self, Nat.zero_add]
    refine ⟨sameEntries, Nat.le_add_right .., fun dirent member =>
      (exact dirent member).1, rfl, inCount, ?_⟩
    intro nothing
    have noMore : more = [] := by
      cases more with
      | nil => rfl
      | cons first others =>
        have positive := (exact first mem_cons_self).2
        rw [map_cons, sum_cons] at nothing
        omega
    rw [drop_eq_nil_iff, ← List.getElem?_eq_none_iff]
    refine Option.eq_none_iff_forall_ne_some.mpr ?_
    intro entry isNext
    have isBig := full noMore entry (by rw [List.head?_drop]; exact isNext)
    have isSmall := fits entry isNext
    omega

end GetdentsCall

/-- A position in a directory, and the entries that calls have returned. -/
structure DirReading where
  position : Nat
  returned : List DirEntry

/-- Calls on a directory; a call that fails returns no entries. -/
def dirMachine (entries : List DirEntry) : Machine DirReading GetdentsCall where
  initial reading := reading = ⟨0, []⟩
  step reading call next :=
    let result := call.sysGetdents entries reading.position
    next =
      ⟨result.position,
        match result.returned with
        | .error _ => reading.returned
        | .ok _ => reading.returned ++ result.records.map (·.entry)⟩

/--
As long as all calls proceed, they have returned the entries up to the position,
each once and in their order, and the next call that proceeds does what it
should.
-/
theorem getdents_returns_each_once
    {entries : List DirEntry}
    {reading : DirReading}
    (reachable :
      ((dirMachine entries).restrict fun reading call =>
        call.Proceeds entries reading.position).Reachable reading) :
    reading.returned = entries.take reading.position ∧
      ∀ call : GetdentsCall, call.Proceeds entries reading.position →
        call.Meets entries reading.position
          (call.sysGetdents entries reading.position) := by
  refine ⟨?_, fun _ => GetdentsCall.meets_of_proceeds⟩
  refine reachable.invariant
    (motive := fun reading =>
      reading.returned = entries.take reading.position) ?_ ?_
  · rintro _ rfl
    rfl
  · rintro before call _ sofar ⟨proceeds, rfl⟩
    obtain ⟨sameEntries, onward, _, answered⟩ :=
      GetdentsCall.meets_of_proceeds proceeds
    dsimp only
    split
    case h_1 err isError =>
      rw [isError] at answered
      rw [sofar, show _ = before.position from answered]
    case h_2 n isOk =>
      rw [sameEntries, sofar, ← take_add, Nat.add_sub_cancel' onward]

/-- A file whose name is one letter. -/
def letterA : DirEntry := ⟨5, [97], by decide⟩

/-- After a call for which nothing failed. -/
theorem getdents_of_one_file :
    [letterA] = [letterA].take 1 ∧
      ∀ call : GetdentsCall, call.Proceeds [letterA] 1 →
        call.Meets [letterA] 1 (call.sysGetdents [letterA] 1) := by
  have proceeds :
      GetdentsCall.Proceeds ⟨true, 0, 64, fun _ => none, fun _ => false⟩
        [letterA] 0 := by
    refine .inr ⟨⟨rfl, fun _ => ⟨rfl, rfl⟩⟩, ?_⟩
    rintro _ ⟨⟩
    decide
  have start :
      ((dirMachine [letterA]).restrict fun reading call =>
        call.Proceeds [letterA] reading.position).Reachable ⟨0, []⟩ :=
    .initial rfl
  exact getdents_returns_each_once (start.step ⟨proceeds, rfl⟩)

/--
A buffer that is too short for the next record looks like the end, and an entry
that cannot be written is skipped.
-/
theorem getdents_loses_entries :
    ((⟨true, 0, 10, fun _ => none, fun _ => false⟩ : GetdentsCall).sysGetdents
        [letterA] 0).returned = .ok 0 ∧
      ((⟨true, 0, 64, fun _ => none, fun _ => true⟩ : GetdentsCall).sysGetdents
        [letterA] 0).position = 1 ∧
      ¬(⟨true, 0, 10, fun _ => none, fun _ => false⟩ : GetdentsCall).Meets
          [letterA] 0
          (GetdentsCall.sysGetdents ⟨true, 0, 10, fun _ => none, fun _ => false⟩
            [letterA] 0) := by
  refine ⟨rfl, rfl, ?_⟩
  rintro ⟨_, _, _, _, _, atEnd⟩
  exact absurd (atEnd rfl) (by decide)

end GuestKernel
