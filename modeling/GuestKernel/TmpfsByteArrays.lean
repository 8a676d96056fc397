import GuestKernel.SeekRuns
import Mathlib.Logic.Function.Basic

namespace GuestKernel
open List Option Function

/-!
# Files in memory as byte arrays

The descriptors of `fs/tmp.c` share files.  Their calls are compared with those on
byte arrays that have one offset for each descriptor.
-/

/-- `tmpfs_lseek`. -/
def tmpfsLseek (inode : TmpInode) (offset off : OffT) (whence : Nat) :
    Except Errno OffT :=
  genericSeek offset off whence
    (if whence = 2 then ⟨inode.data.length, inode.fits⟩ else ⟨0, by decide⟩)

/-- A call on a regular file; a buffer is not larger than an offset can tell. -/
inductive TmpfsCall (Fd : Type) where
  | lseek (fd : Fd) (off : OffT) (whence : Nat)
  | read (fd : Fd) (bufsize : Nat)
  | write (fd : Fd) (env : SeekEnv) (bytes : List UInt8)
      (fits : (bytes.length : Int) ≤ offTMax)

/-- What a call returns, with the bytes of a read. -/
inductive TmpfsAnswer where
  | position (place : Int)
  | data (bytes : List UInt8)
  | count (count : Nat)
  | failed (err : Errno)

/-- The answer of a call that gives a value. -/
def TmpfsAnswer.ofResult {α : Type} (value : α → TmpfsAnswer) :
    Except Errno α → TmpfsAnswer
  | .error err => .failed err
  | .ok result => value result

/-- The files, and what the descriptors have open. -/
structure TmpfsFds (Fd File : Type) where
  inode : File → TmpInode
  file : Fd → File
  offset : Fd → OffT

/-- Byte arrays, with an offset for each descriptor. -/
structure ByteFiles (Fd File : Type) where
  bytes : File → List UInt8
  file : Fd → File
  offset : Fd → Nat

section Calls

variable {Fd File : Type} [DecidableEq Fd] [DecidableEq File]

namespace TmpfsFds

/-- Run a call; `none` is an access outside the data of the file. -/
def step (fds : TmpfsFds Fd File) :
    TmpfsCall Fd → Option (TmpfsAnswer × TmpfsFds Fd File)
  | .lseek fd off whence =>
    match tmpfsLseek (fds.inode (fds.file fd)) (fds.offset fd) off whence with
    | .error err => some (.failed err, fds)
    | .ok place =>
      some
        (.position place.val,
          { fds with offset := update fds.offset fd place })
  | .read fd bufsize =>
    (tmpfsRead (fds.inode (fds.file fd)) (fds.offset fd) bufsize).map
      fun after =>
        (.ofResult .data after.1,
          { fds with offset := update fds.offset fd after.2 })
  | .write fd env bytes _ =>
    (tmpfsWrite env (fds.inode (fds.file fd)) (fds.offset fd) bytes).map
      fun after =>
        (.ofResult .count after.1,
          { fds with
            inode := update fds.inode (fds.file fd) after.2.1
            offset := update fds.offset fd after.2.2 })

/-- Run calls, with their answers. -/
def run (fds : TmpfsFds Fd File) :
    List (TmpfsCall Fd) → Option (List TmpfsAnswer × TmpfsFds Fd File)
  | [] => some ([], fds)
  | call :: rest =>
    (fds.step call).bind fun after =>
      (after.2.run rest).map fun last => (after.1 :: last.1, last.2)

/-- What a call has to be: no seek before the file, and no read beyond it. -/
def Inside (fds : TmpfsFds Fd File) : TmpfsCall Fd → Prop
  | .lseek _ off whence => whence = 0 → 0 ≤ off.val
  | .read fd bufsize =>
    let size := (fds.inode (fds.file fd)).data.length
    bufsize = 0 ∨ (fds.offset fd).val ≤ size ∨
      size + 2 ^ 64 < (fds.offset fd).val + bufsize
  | .write .. => True

/-- Every call is inside when its turn comes. -/
def AllInside (fds : TmpfsFds Fd File) : List (TmpfsCall Fd) → Prop
  | [] => True
  | call :: rest =>
    fds.Inside call ∧ ∀ after, fds.step call = some after → after.2.AllInside rest

/-- Regular files, and no offset before one. -/
structure Regular (fds : TmpfsFds Fd File) : Prop where
  files : ∀ file, (fds.inode file).isDir = false
  offsets : ∀ fd, 0 ≤ (fds.offset fd).val

/-- What the files and offsets stand for. -/
def byteFiles (fds : TmpfsFds Fd File) : ByteFiles Fd File where
  bytes file := (fds.inode file).data
  file := fds.file
  offset fd := (fds.offset fd).val.toNat

end TmpfsFds

namespace ByteFiles

/-- Bytes that are written at an offset, after zeros where there is a gap. -/
def written (old : List UInt8) (offset : Nat) (bytes : List UInt8) : List UInt8 :=
  (old ++ List.replicate (offset - old.length) 0).take offset ++
    (bytes ++ old.drop (offset + bytes.length))

/-- Where a seek goes, if that is a position. -/
def target (size offset : Nat) (off : Int) (whence : Nat) : Option Int :=
  let base : Option Int :=
    match whence with
    | 0 => some 0
    | 1 => some offset
    | 2 => some size
    | _ => none
  base.bind fun base =>
    if 0 ≤ base + off ∧ base + off ≤ offTMax then some (base + off) else none

/-- Run a call; a host without memory for the file refuses a write. -/
def step (files : ByteFiles Fd File) :
    TmpfsCall Fd → TmpfsAnswer × ByteFiles Fd File
  | .lseek fd off whence =>
    let size := (files.bytes (files.file fd)).length
    match target size (files.offset fd) off.val whence with
    | none => (.failed .inval, files)
    | some place =>
      (.position place,
        { files with
          offset := update files.offset fd place.toNat })
  | .read fd bufsize =>
    let bytes :=
      ((files.bytes (files.file fd)).drop (files.offset fd)).take bufsize
    (.data bytes,
      { files with
        offset :=
          update files.offset fd (files.offset fd + bytes.length) })
  | .write fd env bytes _ =>
    let old := files.bytes (files.file fd)
    let stop := files.offset fd + bytes.length
    if old.length < stop ∧ env.allocates stop = false then
      (.failed .nomem, files)
    else
      (.count bytes.length,
        { files with
          bytes :=
            update files.bytes (files.file fd)
              (written old (files.offset fd) bytes)
          offset := update files.offset fd stop })

/-- Run calls, with their answers. -/
def run (files : ByteFiles Fd File) :
    List (TmpfsCall Fd) → List TmpfsAnswer × ByteFiles Fd File
  | [] => ([], files)
  | call :: rest =>
    let after := files.step call
    let last := after.2.run rest
    (after.1 :: last.1, last.2)

end ByteFiles

variable {fds : TmpfsFds Fd File} {inode : TmpInode} {offset off : OffT}
  {bytes : List UInt8}

/-- A read that is inside takes what there is, another one is not answered. -/
theorem tmpfsRead_eq
    (bufsize : Nat)
    (isFile : inode.isDir = false)
    (positive : 0 ≤ offset.val) :
    let taken := (inode.data.drop offset.val.toNat).take bufsize
    tmpfsRead inode offset bufsize =
      if bufsize = 0 ∨ offset.val ≤ inode.data.length ∨
          inode.data.length + 2 ^ 64 < offset.val + bufsize then
        some (.ok taken, OffT.ofInt (offset.val + taken.length))
      else
        none := by
  have sizeHigh := inode.fits
  have offsetHigh := offset.property.2
  have isMax := offTMax_eq
  unfold tmpfsRead
  rw [isFile, OffT.toSizeT_of_nonneg positive, if_neg Bool.false_ne_true]
  dsimp only
  generalize isStart : offset.val.toNat = start
  generalize isCount :
    (if (inode.data.length + (2 ^ 64 - start)) % 2 ^ 64 < bufsize then
        if inode.data.length ≤ start then 0
        else (inode.data.length + (2 ^ 64 - start)) % 2 ^ 64
      else bufsize) = count
  have isMin : offset.val ≤ inode.data.length ∨ bufsize = 0 ∨
      inode.data.length + 2 ^ 64 < offset.val + bufsize →
        count = min bufsize (inode.data.length - start) := by
    intro inside
    rw [← isCount]
    split_ifs <;> omega
  by_cases inside : bufsize = 0 ∨ offset.val ≤ inode.data.length ∨
      inode.data.length + 2 ^ 64 < offset.val + bufsize
  · have isTaken :
        (inode.data.drop start).take count =
          (inode.data.drop start).take bufsize := by
      rw [take_eq_take_iff, length_drop]
      omega
    rw [if_pos inside, if_pos (by simp [inData]; omega), isTaken,
      length_take, length_drop, isMin (by omega)]
  · rw [if_neg inside, if_neg]
    have isWhole : count = bufsize := by
      rw [← isCount]
      split_ifs <;> omega
    simp [inData]
    omega

/-- A write fills the file up to its end, or finds no memory for it. -/
theorem tmpfsWrite_eq
    (env : SeekEnv)
    (isFile : inode.isDir = false)
    (positive : 0 ≤ offset.val)
    (fits : (bytes.length : Int) ≤ offTMax) :
    let stop := offset.val.toNat + bytes.length
    if inode.data.length < stop ∧ env.allocates stop = false then
      tmpfsWrite env inode offset bytes = some (.error .nomem, inode, offset)
    else
      ∃ after place,
        tmpfsWrite env inode offset bytes =
            some (.ok bytes.length, after, place) ∧
          after.isDir = false ∧
            after.data =
                ByteFiles.written inode.data offset.val.toNat bytes ∧
              place.val = offset.val + bytes.length := by
  have sizeHigh := inode.fits
  have offsetHigh := offset.property.2
  have isMax := offTMax_eq
  dsimp only
  unfold tmpfsWrite
  rw [isFile, OffT.toSizeT_of_nonneg positive, if_neg Bool.false_ne_true,
    Nat.mod_eq_of_lt (by omega)]
  dsimp only
  have copies :
      ∀ grown : TmpInode,
        grown.isDir = false → offset.val.toNat + bytes.length ≤ grown.data.length →
        ∃ after place,
          tmpfsCopy grown offset bytes =
              some (.ok bytes.length, after, place) ∧
            after.isDir = false ∧
              after.data =
                  grown.data.take offset.val.toNat ++
                    (bytes ++ grown.data.drop (offset.val.toNat + bytes.length)) ∧
                place.val = offset.val + bytes.length := by
    intro grown isFile room
    have grownHigh := grown.fits
    unfold tmpfsCopy
    by_cases empty : bytes = []
    · rw [if_pos empty, empty]
      exact ⟨grown, _, rfl, isFile, by simp,
        (OffT.ofInt_val offset.property).trans (Int.add_zero _).symm⟩
    · rw [if_neg empty, dif_pos ⟨positive, room⟩]
      exact ⟨_, _, rfl, isFile, rfl, OffT.ofInt_val ⟨by omega, by omega⟩⟩
  split
  case isTrue refused =>
    rw [if_pos refused.1, tmpfsFileResize, dif_neg]
    rw [refused.2]
    exact fun allocated => Bool.false_ne_true allocated.1
  case isFalse granted =>
    by_cases grows : inode.data.length < offset.val.toNat + bytes.length
    · have allocates : env.allocates (offset.val.toNat + bytes.length) = true := by
        by_contra refused
        exact granted ⟨grows, Bool.eq_false_iff.mpr refused⟩
      have bound := env.bounded _ allocates
      rw [if_pos grows, tmpfsFileResize, dif_pos ⟨allocates, by omega⟩]
      obtain ⟨after, place, ran, stillFile, isData, isPlace⟩ :=
        copies
          ⟨inode.isDir,
            inode.data ++
              List.replicate
                (offset.val.toNat + bytes.length - inode.data.length) 0,
            by rw [length_append, length_replicate]; omega⟩
          isFile (by rw [length_append, length_replicate]; omega)
      refine ⟨after, place, ran, stillFile, ?_, isPlace⟩
      have isGap :
          min (offset.val.toNat - inode.data.length)
              (offset.val.toNat + bytes.length - inode.data.length) =
            offset.val.toNat - inode.data.length := by
        omega
      rw [isData, ByteFiles.written, take_append, take_append,
        take_replicate, take_replicate, isGap, Nat.min_self,
        drop_eq_nil_of_le (by simp; omega),
        drop_eq_nil_of_le (by omega)]
    · rw [if_neg grows]
      obtain ⟨after, place, ran, stillFile, isData, isPlace⟩ :=
        copies inode isFile (by omega)
      refine ⟨after, place, ran, stillFile, ?_, isPlace⟩
      rw [isData, ByteFiles.written, Nat.sub_eq_zero_of_le (by omega),
        replicate_zero, append_nil]

/-- A seek that is inside goes where it is to go. -/
theorem tmpfsLseek_cases
    (inode : TmpInode)
    (off : OffT)
    (whence : Nat)
    (positive : 0 ≤ offset.val)
    (inside : whence = 0 → 0 ≤ off.val) :
    let target :=
      ByteFiles.target inode.data.length offset.val.toNat off.val whence
    (tmpfsLseek inode offset off whence = .error .inval ∧ target = none) ∨
      ∃ place : OffT,
        tmpfsLseek inode offset off whence = .ok place ∧
          target = some place.val ∧ 0 ≤ place.val := by
  have isMax := offTMax_eq
  have isOffset : (offset.val.toNat : Int) = offset.val :=
    Int.toNat_of_nonneg positive
  have offHigh := off.property.2
  have byBase : ∀ size base,
      seekBase offset size whence = some base → whence ≠ 0 →
      let target :=
        if 0 ≤ base + off.val ∧ base + off.val ≤ offTMax then
          some (base + off.val)
        else
          none
      (genericSeek offset off whence size = .error .inval ∧ target = none) ∨
        ∃ place : OffT,
          genericSeek offset off whence size = .ok place ∧
            target = some place.val ∧ 0 ≤ place.val := by
    intro size base isBase notSet
    obtain ⟨moves, refuses⟩ := @genericSeek_eq offset off _ _ _ isBase notSet
    by_cases inRange : 0 ≤ base + off.val ∧ base + off.val ≤ offTMax
    · exact .inr ⟨⟨_, by omega, inRange.2⟩, (moves _).mpr ⟨inRange.1, rfl⟩,
        if_pos inRange, inRange.1⟩
    · exact .inl ⟨refuses inRange, if_neg inRange⟩
  match whence with
  | 0 =>
    have above := inside rfl
    refine .inr ⟨off, rfl, ?_, above⟩
    exact (if_pos (by omega)).trans (congrArg some (Int.zero_add _))
  | 1 =>
    dsimp only [ByteFiles.target, bind_some]
    rw [isOffset]
    exact byBase _ _ rfl (by decide)
  | 2 => exact byBase ⟨inode.data.length, inode.fits⟩ _ rfl (by decide)
  | _ + 3 => exact .inl ⟨rfl, rfl⟩

namespace TmpfsFds

variable {call : TmpfsCall Fd}

omit [DecidableEq File] in
/-- The offset of a descriptor is moved. -/
theorem Regular.moved
    (regular : fds.Regular)
    (fd : Fd)
    {place : OffT}
    (positive : 0 ≤ place.val) :
    let next := { fds with offset := update fds.offset fd place }
    next.Regular ∧
      next.byteFiles =
        { fds.byteFiles with
          offset :=
            update fds.byteFiles.offset fd place.val.toNat } := by
  refine ⟨⟨regular.files, ?_⟩, ?_⟩
  · exact (forall_update_iff _ fun _ (offset : OffT) => 0 ≤ offset.val).mpr
      ⟨positive, fun other _ => regular.offsets other⟩
  · unfold byteFiles
    congr 1
    exact funext fun other =>
      apply_update (fun _ (offset : OffT) => offset.val.toNat)
        fds.offset fd place other

omit [DecidableEq Fd] in
/-- A file gets other data. -/
theorem Regular.replaced
    (regular : fds.Regular)
    (file : File)
    (isFile : inode.isDir = false) :
    let next := { fds with inode := update fds.inode file inode }
    next.Regular ∧
      next.byteFiles =
        { fds.byteFiles with
          bytes := update fds.byteFiles.bytes file inode.data } := by
  refine ⟨⟨?_, regular.offsets⟩, ?_⟩
  · exact (forall_update_iff _
      fun _ (inode : TmpInode) => inode.isDir = false).mpr
      ⟨isFile, fun other _ => regular.files other⟩
  · unfold byteFiles
    congr 1
    exact funext fun other =>
      apply_update (fun _ => TmpInode.data) fds.inode file inode other

/-- A call that is inside does what it does on the byte arrays. -/
theorem Regular.step_inside
    (regular : fds.Regular)
    (inside : fds.Inside call) :
    ∃ next,
      fds.step call = some ((fds.byteFiles.step call).1, next) ∧
        next.Regular ∧ next.byteFiles = (fds.byteFiles.step call).2 := by
  have isMax := offTMax_eq
  cases call with
  | lseek fd off whence =>
    unfold step ByteFiles.step
    dsimp only
    rcases tmpfsLseek_cases (fds.inode (fds.file fd)) off whence
        (regular.offsets fd) inside with
      ⟨refused, isTarget⟩ | ⟨place, moved, isTarget, above⟩
    · change
        ByteFiles.target (fds.byteFiles.bytes (fds.byteFiles.file fd)).length
          (fds.byteFiles.offset fd) off.val whence = none at isTarget
      rw [refused, isTarget]
      exact ⟨fds, rfl, regular, rfl⟩
    · change
        ByteFiles.target (fds.byteFiles.bytes (fds.byteFiles.file fd)).length
          (fds.byteFiles.offset fd) off.val whence = some place.val
        at isTarget
      obtain ⟨stillRegular, areFiles⟩ := regular.moved fd above
      rw [moved, isTarget]
      exact ⟨_, rfl, stillRegular, areFiles⟩
  | read fd bufsize =>
    have positive := regular.offsets fd
    have sizeHigh := (fds.inode (fds.file fd)).fits
    have offsetHigh := (fds.offset fd).property.2
    have isRead := (tmpfsRead_eq bufsize
      (regular.files (fds.file fd)) positive).trans (if_pos inside)
    unfold step ByteFiles.step
    dsimp only
    rw [isRead]
    generalize isTaken :
      ((fds.inode (fds.file fd)).data.drop
        (fds.offset fd).val.toNat).take bufsize = taken
    have few : taken.length ≤
        (fds.inode (fds.file fd)).data.length - (fds.offset fd).val.toNat := by
      rw [← isTaken, length_take, length_drop]
      exact Nat.min_le_right _ _
    have isPlace :
        (OffT.ofInt ((fds.offset fd).val + taken.length)).val =
          (fds.offset fd).val + taken.length :=
      OffT.ofInt_val ⟨by omega, by omega⟩
    generalize OffT.ofInt ((fds.offset fd).val + taken.length) = place
      at isPlace
    obtain ⟨stillRegular, areFiles⟩ :=
      regular.moved fd (by omega : 0 ≤ place.val)
    refine ⟨_, by rw [← isTaken]; rfl, stillRegular, areFiles.trans ?_⟩
    rw [isPlace, Int.toNat_add positive (by omega), Int.toNat_natCast,
      ← isTaken]
    rfl
  | write fd env bytes fits =>
    have isWrite := tmpfsWrite_eq env (regular.files (fds.file fd))
      (regular.offsets fd) fits
    unfold step
    dsimp only at isWrite ⊢
    split at isWrite
    case isTrue refused =>
      have isStep :
          fds.byteFiles.step (.write fd env bytes fits) =
            (.failed .nomem, fds.byteFiles) :=
        if_pos refused
      rw [isWrite, isStep, map_some, update_eq_self,
        update_eq_self]
      exact ⟨fds, rfl, regular, rfl⟩
    case isFalse granted =>
      obtain ⟨after, place, ran, isFile, isData, isPlace⟩ := isWrite
      have positive := regular.offsets fd
      obtain ⟨halfRegular, halfFiles⟩ :=
        regular.replaced (fds.file fd) isFile
      obtain ⟨stillRegular, areFiles⟩ :=
        halfRegular.moved fd (by omega : 0 ≤ place.val)
      rw [ran, show fds.byteFiles.step (.write fd env bytes fits) = _ from
        if_neg granted]
      refine ⟨_, rfl, stillRegular, areFiles.trans ?_⟩
      rw [halfFiles, isData, isPlace, Int.toNat_add positive (by omega),
        Int.toNat_natCast]
      rfl

/-- A call that is not inside is not answered, or with an offset before the file. -/
theorem Regular.step_outside
    (regular : fds.Regular)
    (outside : ¬fds.Inside call)
    {next : TmpfsFds Fd File}
    {answer : TmpfsAnswer}
    (made : fds.step call = some (answer, next)) :
    answer ≠ (fds.byteFiles.step call).1 := by
  cases call with
  | lseek fd off whence =>
    obtain ⟨isSet, negative⟩ := Classical.not_imp.mp outside
    have noTarget :
        ByteFiles.target (fds.byteFiles.bytes (fds.byteFiles.file fd)).length
          (fds.byteFiles.offset fd) off.val whence = none := by
      rw [isSet]
      exact if_neg (by omega)
    subst isSet
    cases made
    unfold ByteFiles.step
    dsimp only
    rw [noTarget]
    exact TmpfsAnswer.noConfusion
  | read fd bufsize =>
    have notRead := (tmpfsRead_eq bufsize (regular.files (fds.file fd))
      (regular.offsets fd)).trans (if_neg outside)
    unfold step at made
    dsimp only at made
    rw [notRead] at made
    cases made
  | write => exact (outside trivial).elim

/--
Calls answer as those on byte arrays, and leave their contents and offsets, if
and only if none of them reads beyond its file or seeks before it.
-/
theorem tmpfs_runs_as_byte_arrays_iff
    (calls : List (TmpfsCall Fd))
    (regular : fds.Regular) :
    ((fds.run calls).map fun last => (last.1, last.2.byteFiles)) =
        some (fds.byteFiles.run calls) ↔
      fds.AllInside calls := by
  induction calls generalizing fds with
  | nil => exact iff_of_true rfl trivial
  | cons call rest inductionHypothesis =>
    unfold run ByteFiles.run AllInside
    dsimp only
    by_cases inside : fds.Inside call
    · obtain ⟨next, made, stillRegular, areFiles⟩ := regular.step_inside inside
      have afterwards := inductionHypothesis stillRegular
      rw [made, and_iff_right inside, ← areFiles, bind_some]
      simp only [some.injEq, forall_eq', ← afterwards]
      cases next.run rest with
      | none => simp
      | some last => simp [Prod.ext_iff]
    · refine iff_of_false ?_ fun both => inside both.1
      cases made : fds.step call with
      | none => simp
      | some after =>
        have differs := regular.step_outside inside made
        rw [bind_some]
        cases after.2.run rest with
        | none => simp
        | some last => simp [differs]

/-- An open file of these bytes, at its start. -/
def opened (data : List UInt8) (fits : (data.length : Int) ≤ offTMax) :
    TmpfsFds Unit Unit where
  inode _ := ⟨false, data, fits⟩
  file _ := ()
  offset _ := ⟨0, isOffT_zero⟩

theorem one_byte_is_read :
    let fds := opened [7] (by decide)
    ((fds.run [.read () 1]).map fun last => (last.1, last.2.byteFiles)) =
      some (fds.byteFiles.run [.read () 1]) :=
  (tmpfs_runs_as_byte_arrays_iff [.read () 1]
    ⟨fun _ => rfl, fun _ => Int.le_refl 0⟩).mpr
    ⟨.inr (.inl (by decide)), fun _ _ => trivial⟩

/-- A read at an offset beyond the end is out of the data. -/
theorem read_beyond_the_end :
    ¬∀ (fds : TmpfsFds Unit Unit) (calls : List (TmpfsCall Unit)),
      fds.Regular →
      ((fds.run calls).map fun last => (last.1, last.2.byteFiles)) =
        some (fds.byteFiles.run calls) := by
  intro agrees
  have isOutside :
      (opened [] (by decide)).run [.lseek () ⟨1, by decide⟩ 0, .read () 1] =
        none :=
    rfl
  have same :=
    agrees (opened [] (by decide)) [.lseek () ⟨1, by decide⟩ 0, .read () 1]
      ⟨fun _ => rfl, fun _ => Int.le_refl 0⟩
  rw [isOutside] at same
  cases same

end TmpfsFds

end Calls

end GuestKernel
