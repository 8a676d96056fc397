import GuestKernel.SeekCalls

namespace GuestKernel
open List

/-!
# Files behind `generic_seek`

The reads and writes of `fs/tmp.c` and `fs/proc.c` at the offset of a
descriptor, and the calls of `kernel/fs.c` on top of them.  `none` is an access
outside the data of a file, or a failed assertion.
-/

/-- `struct tmp_inode`: a directory or the bytes of a file. -/
structure TmpInode where
  isDir : Bool
  data : List UInt8
  fits : (data.length : Int) ≤ offTMax

/-- The file system of a descriptor that seeks with `generic_seek`. -/
inductive SeekData where
  | tmpfs (inode : TmpInode)
  | proc (isDir : Bool)

/-- `S_ISDIR(fd->type)`. -/
def SeekData.isDir : SeekData → Bool
  | .tmpfs inode => inode.isDir
  | .proc isDir => isDir

/-- A descriptor and its file. -/
structure SeekFile where
  data : SeekData
  offset : OffT

/--
What a call finds around it: the allocations of the host, none of which is
larger than an offset can tell; the size of the data of `proc_refresh_data`,
in the call and in a seek after it; and what the entry of `fs/proc.c` has.
-/
structure SeekEnv where
  allocates : Nat → Bool
  bounded : ∀ size, allocates size = true → (size : Int) ≤ offTMax
  refresh : Except Errno FileSize
  again : Except Errno FileSize
  pread : Option (Except Errno Nat)
  pwrite : Option (Except Errno Nat)
  updates : Bool

/-- The conversion of an offset to a `size_t`. -/
def OffT.toSizeT (offset : OffT) : Nat :=
  (offset.val % 2 ^ 64).toNat

/-- The bytes from an offset on are bytes of the data. -/
def inData (offset : OffT) (count length : Nat) : Bool :=
  count = 0 || (0 ≤ offset.val && offset.val + count ≤ length)

/-- `tmpfs_read`, with the offset it leaves. -/
def tmpfsRead (inode : TmpInode) (offset : OffT) (bufsize : Nat) :
    Option (Except Errno (List UInt8) × OffT) :=
  if inode.isDir then
    some (.error .isdir, offset)
  else
    let size := inode.data.length
    let left := (size + (2 ^ 64 - offset.toSizeT)) % 2 ^ 64
    let count :=
      if left < bufsize then
        if size ≤ offset.toSizeT then 0 else left
      else
        bufsize
    if inData offset count size then
      some
        (.ok ((inode.data.drop offset.val.toNat).take count),
          OffT.ofInt (offset.val + count))
    else
      none

/-- `tmpfs_file_resize` to a larger size. -/
def tmpfsFileResize (env : SeekEnv) (inode : TmpInode) (size : Nat) :
    Option TmpInode :=
  if allocated : env.allocates size = true ∧ inode.data.length ≤ size then
    some {
      isDir := inode.isDir
      data := inode.data ++ List.replicate (size - inode.data.length) 0
      fits := by
        have bound := env.bounded size allocated.1
        rw [length_append, length_replicate]
        omega }
  else
    none

/-- `memcpy` into the data at an offset. -/
def TmpInode.put
    (inode : TmpInode) (offset : Nat) (bytes : List UInt8)
    (inside : offset + bytes.length ≤ inode.data.length) : TmpInode where
  isDir := inode.isDir
  data :=
    inode.data.take offset ++
      (bytes ++ inode.data.drop (offset + bytes.length))
  fits := by
    have bound := inode.fits
    simp only [length_append, length_take, length_drop]
    omega

/-- The copy of `tmpfs_write`, after the file is large enough. -/
def tmpfsCopy (inode : TmpInode) (offset : OffT) (bytes : List UInt8) :
    Option (Except Errno Nat × TmpInode × OffT) :=
  if bytes = [] then
    some (.ok 0, inode, OffT.ofInt offset.val)
  else if
      inside :
        0 ≤ offset.val ∧
          offset.val.toNat + bytes.length ≤ inode.data.length then
    some
      (.ok bytes.length, inode.put offset.val.toNat bytes inside.2,
        OffT.ofInt (offset.val + bytes.length))
  else
    none

/-- `tmpfs_write`, with the file and the offset it leaves. -/
def tmpfsWrite
    (env : SeekEnv)
    (inode : TmpInode)
    (offset : OffT)
    (bytes : List UInt8) : Option (Except Errno Nat × TmpInode × OffT) :=
  if inode.isDir then
    some (.error .isdir, inode, offset)
  else
    let stop := (offset.toSizeT + bytes.length) % 2 ^ 64
    if inode.data.length < stop then
      match tmpfsFileResize env inode stop with
      | none => some (.error .nomem, inode, offset)
      | some grown => tmpfsCopy grown offset bytes
    else
      tmpfsCopy inode offset bytes

/-- `proc_pread`: the number of bytes; an entry's own gives what it says. -/
def procPread (env : SeekEnv) (bufsize : Nat) (offset : OffT) :
    Except Errno Nat :=
  match env.pread with
  | some answer => answer.map fun count => min count bufsize
  | none =>
    env.refresh.map fun size =>
      let remaining :=
        if size.val < offset.toSizeT then 0
        else size.val - offset.toSizeT
      if remaining < bufsize then remaining else bufsize

/-- `proc_pwrite`. -/
def procPwrite (env : SeekEnv) (isDir : Bool) (bufsize : Nat) :
    Except Errno Nat :=
  if isDir then
    .error .isdir
  else
    match env.pwrite with
    | some answer => answer.map fun count => min count bufsize
    | none => if env.updates then .ok bufsize else .error .perm

namespace SeekFile

/-- The size that `fd->ops->lseek` gives to `generic_seek`. -/
def size (env : SeekEnv) (file : SeekFile) : Except Errno FileSize :=
  match file.data with
  | .tmpfs inode => .ok ⟨inode.data.length, inode.fits⟩
  | .proc _ => env.refresh

/-- The descriptor, for the seek calls. -/
def fd (env : SeekEnv) (file : SeekFile) : SeekFd where
  lseek := some (.generic (file.size env))
  offset := file.offset

/-- `fd->ops->lseek(fd, res, LSEEK_CUR)` after a transfer of `fs/proc.c`. -/
def advance (env : SeekEnv) (file : SeekFile) (count : Nat) : SeekFile :=
  if 0 < count then
    { file with
      offset :=
        (SeekOps.generic env.again).moved file.offset (OffT.ofInt count) 1 }
  else
    file

/-- `sys_read_buf`: the number of bytes. -/
def readBuf (env : SeekEnv) (file : SeekFile) (size : Nat) :
    Option (Except Errno Nat × SeekFile) :=
  if file.data.isDir then
    some (.error .isdir, file)
  else
    match file.data with
    | .tmpfs inode =>
      (tmpfsRead inode file.offset size).map fun answer =>
        (answer.1.map List.length, { file with offset := answer.2 })
    | .proc _ =>
      match procPread env size file.offset with
      | .error err => some (.error err, file)
      | .ok count => some (.ok count, file.advance env count)

/-- `sys_write_buf`. -/
def writeBuf (env : SeekEnv) (file : SeekFile) (bytes : List UInt8) :
    Option (Except Errno Nat × SeekFile) :=
  match file.data with
  | .tmpfs inode =>
    (tmpfsWrite env inode file.offset bytes).map fun answer =>
      (answer.1, ⟨.tmpfs answer.2.1, answer.2.2⟩)
  | .proc isDir =>
    match procPwrite env isDir bytes.length with
    | .error err => some (.error err, file)
    | .ok count => some (.ok count, file.advance env count)

end SeekFile

/-- What a call returns. -/
inductive SeekAnswer where
  | failed (err : SeekError)
  | position (place : OffT)
  | count (count : Nat)

/-- A call on a descriptor; `faults` says that guest memory is in the way. -/
inductive SeekCall where
  | lseek (off : BitVec 32) (whence : Nat)
  | llseek (offHigh offLow : BitVec 32) (whence : Nat) (faults : Bool)
  | read (size : BitVec 32) (faults : Bool)
  | write (bytes : List UInt8) (faults : Bool)
  | pread (size : BitVec 32) (off : OffT) (faults : Bool)
  | pwrite (bytes : List UInt8) (off : OffT) (faults : Bool)

/-- The answer of `sys_lseek` or `sys__llseek`, and the file after it. -/
def SeekOutcome.answer (outcome : SeekOutcome) (file : SeekFile) :
    SeekAnswer × SeekFile :=
  (match outcome.result with
    | .error err => .failed err
    | .ok place => .position place,
    match outcome.fd with
    | none => file
    | some fd => { file with offset := fd.offset })

/-- The copy of the bytes that were read to the guest. -/
def copiedOut (count : Nat) (faults : Bool) : SeekAnswer :=
  if faults && 0 < count then .failed (.code .fault) else .count count

/-- The end of `sys_read`, which keeps the count in an `int_t`. -/
def readAnswer (result : Except Errno Nat) (faults : Bool) : SeekAnswer :=
  match result with
  | .error err => .failed (.code err)
  | .ok count =>
    if 2 ^ 31 ≤ count then .failed (.negative (OffT.ofInt count))
    else copiedOut count faults

/-- The end of `sys_pread`. -/
def preadAnswer (result : Except SeekError Nat) (faults : Bool) : SeekAnswer :=
  match result with
  | .error err => .failed err
  | .ok count => copiedOut count faults

/-- The answer of a write. -/
def writeAnswer (result : Except SeekError Nat) : SeekAnswer :=
  match result with
  | .error err => .failed err
  | .ok count => .count count

/--
The branch of `sys_pread` and `sys_pwrite` for a descriptor that can only read
and write at its offset: seek, transfer, and seek back.
-/
def SeekFile.around
    (env : SeekEnv)
    (file : SeekFile)
    (off : OffT)
    (transfer : SeekFile → Option (Except Errno Nat × SeekFile)) :
    Option (Except SeekError Nat × SeekFile) :=
  let ops := SeekOps.generic (file.size env)
  let moved := { file with offset := off }
  if off.val < 0 then
    some (.error (.negative off), moved)
  else
    match ops.seek file.offset ⟨0, isOffT_zero⟩ 1 with
    | .error _ => none
    | .ok saved =>
      (transfer moved).map fun answer =>
        (answer.1.mapError .code, { answer.2 with offset := saved })

/-- Run a call. -/
def SeekCall.run (env : SeekEnv) (file : SeekFile) :
    SeekCall → Option (SeekAnswer × SeekFile)
  | .lseek off whence =>
    some ((sysLseek (some (file.fd env)) off whence).answer file)
  | .llseek offHigh offLow whence faults =>
    some
      ((sysLlseek (some (file.fd env)) offHigh offLow whence
        faults).answer file)
  | .read size faults =>
    if env.allocates size.toNat then
      (file.readBuf env size.toNat).map fun answer =>
        (readAnswer answer.1 faults, answer.2)
    else
      some (.failed (.code .nomem), file)
  | .write bytes faults =>
    if !env.allocates bytes.length then
      some (.failed (.code .nomem), file)
    else if faults then
      some (.failed (.code .fault), file)
    else
      (file.writeBuf env bytes).map fun answer =>
        (writeAnswer (answer.1.mapError .code), answer.2)
  | .pread size off faults =>
    if !env.allocates ((size.toNat + 1) % 2 ^ 32) then
      some (.failed (.code .nomem), file)
    else
      match file.data with
      | .proc _ =>
        some
          (preadAnswer
            ((procPread env size.toNat off).mapError .code) faults, file)
      | .tmpfs inode =>
        (file.around env off fun moved =>
          (tmpfsRead inode moved.offset size.toNat).map fun answer =>
            (answer.1.map List.length,
              { moved with offset := answer.2 })).map fun answer =>
          (preadAnswer answer.1 faults, answer.2)
  | .pwrite bytes off faults =>
    if !env.allocates ((bytes.length + 1) % 2 ^ 32) then
      some (.failed (.code .nomem), file)
    else if faults then
      some (.failed (.code .fault), file)
    else
      match file.data with
      | .proc isDir =>
        some
          (writeAnswer
            ((procPwrite env isDir bytes.length).mapError .code), file)
      | .tmpfs inode =>
        (file.around env off fun moved =>
          (tmpfsWrite env inode moved.offset bytes).map fun answer =>
            (answer.1, ⟨.tmpfs answer.2.1, answer.2.2⟩)).map
          fun answer => (writeAnswer answer.1, answer.2)

end GuestKernel
