import GuestKernel.FileLock
import GuestKernel.KernelNumbers
import Mathlib.Logic.Function.Basic

namespace GuestKernel
open Function

/-!
# Descriptor tables

`fs/fd.c`: the tables of open descriptors, their close-on-exec bits and the
reference counts of the open files.  Descriptor numbers are 32-bit values that
the guest chooses freely; they are signed for some comparisons and unsigned
for others.

`none` is an access outside an array, the use of freed memory or a failed
assertion.
-/

/-- `fd_t`: the bits of a signed 32-bit number. -/
abbrev FdNum := BitVec 32

/-- The identity of an inode. -/
abbrev InodeId := Nat

/-- The identity of a table, which owns its POSIX locks. -/
abbrev TableId := OwnerId

/-- `struct fd`; `closes` counts how often it was closed for good. -/
structure FdObject where
  refcount : Nat
  inode : Option InodeId
  closes : Nat
  freed : Bool
  deriving Repr, DecidableEq

/-- `struct fdtable`. -/
structure FdTable where
  refcount : Nat
  files : List (Option FdId)
  cloexec : List Bool
  deriving Repr, DecidableEq

/-- The `size` of a table. -/
def FdTable.size (table : FdTable) : Nat :=
  table.files.length

/-- All open files and tables; `current` is `current->files`. -/
structure FdWorld where
  objects : FdId → Option FdObject
  tables : TableId → Option FdTable
  tableCount : Nat
  current : Option TableId
  locks : InodeId → List FileLock

/--
What a call meets outside of the tables: the limit of the process for open
files, whether there is memory, and the errors of the `close` of the files.
-/
structure FdHost where
  limit : Nat
  memory : Bool
  closeError : FdId → Option Errno

/-- `O_CLOEXEC_`. -/
def oCloexec : BitVec 32 := 524288#32

/-- The index of an array access with a descriptor; negative is outside. -/
def slotIndex (f : FdNum) : Option Nat :=
  if f.toInt < 0 then none else some f.toNat

namespace FdWorld

/-- A `struct fd` that was not freed. -/
def live (w : FdWorld) (fd : FdId) : Option FdObject :=
  (w.objects fd).filter fun object => !object.freed

/-- Write a `struct fd`. -/
def setObject (w : FdWorld) (fd : FdId) (object : FdObject) : FdWorld :=
  { w with objects := update w.objects fd (some object) }

/-- Write or free a table. -/
def setTable
    (w : FdWorld) (t : TableId) (table : Option FdTable) : FdWorld :=
  { w with tables := update w.tables t table }

/-- `table->files[f] = fd`. -/
def writeFile
    (w : FdWorld)
    (t : TableId)
    (f : FdNum)
    (fd : Option FdId) : Option FdWorld := do
  let index ← slotIndex f
  let table ← w.tables t
  if index < table.files.length then
    pure (w.setTable t
      (some { table with files := table.files.set index fd }))
  else
    none

/-- `bit_set` and `bit_clear` on `table->cloexec`. -/
def writeBit
    (w : FdWorld) (t : TableId) (f : FdNum) (bit : Bool) : Option FdWorld := do
  let index ← slotIndex f
  let table ← w.tables t
  if index < table.cloexec.length then
    pure (w.setTable t
      (some { table with cloexec := table.cloexec.set index bit }))
  else
    none

/-- `bit_test` on `table->cloexec`. -/
def testBit (w : FdWorld) (t : TableId) (f : FdNum) : Option Bool := do
  let index ← slotIndex f
  let table ← w.tables t
  table.cloexec[index]?

/-- `fd_retain`, also written `fd->refcount++`. -/
def fdRetain (w : FdWorld) (fd : FdId) : Option FdWorld := do
  let object ← w.live fd
  pure (w.setObject fd
    { object with refcount := incremented object.refcount })

/-- `fd_close`; `host` has the error of the file's own `close`. -/
def fdClose
    (host : FdHost)
    (w : FdWorld)
    (fd : FdId) : Option (FdWorld × Except Errno Unit) := do
  let object ← w.live fd
  let count := decremented object.refcount
  if count = 0 then
    let closed := { object with
      refcount := 0
      closes := object.closes + 1
      freed := true }
    match host.closeError fd with
    | some err => pure (w.setObject fd closed, .error err)
    | none => pure (w.setObject fd closed, .ok ())
  else
    pure (w.setObject fd { object with refcount := count }, .ok ())

/-- `file_lock_remove_owned_by`, if the file has an inode. -/
def removeOwnedLocks
    (w : FdWorld) (object : FdObject) (owner : TableId) : FdWorld :=
  match object.inode with
  | none => w
  | some inode =>
    { w with
      locks := update w.locks inode
        (fileLockRemoveOwnedBy (w.locks inode) owner) }

/-- `fdtable_get`: it compares with the size of the current table. -/
def fdtableGet
    (w : FdWorld) (t : TableId) (f : FdNum) : Option (Option FdId) := do
  let current ← w.tables (← w.current)
  if f.toInt < 0 ∨ current.size ≤ f.toNat then
    pure none
  else
    let table ← w.tables t
    table.files[f.toNat]?

/-- `f_get`. -/
def fGet (w : FdWorld) (f : FdNum) : Option (Option FdId) := do
  w.fdtableGet (← w.current) f

/-- `fdtable_close`. -/
def fdtableClose
    (host : FdHost)
    (w : FdWorld)
    (t : TableId)
    (f : FdNum) : Option (FdWorld × Except Errno Unit) := do
  match ← w.fdtableGet t f with
  | none => pure (w, .error .badf)
  | some fd =>
    let object ← w.live fd
    let (w, err) ← (w.removeOwnedLocks object t).fdClose host fd
    let w ← w.writeFile t f none
    pure (← w.writeBit t f false, err)

/-- `f_close`. -/
def fClose
    (host : FdHost)
    (w : FdWorld)
    (f : FdNum) : Option (FdWorld × Except Errno Unit) := do
  w.fdtableClose host (← w.current) f

/-- `fdtable_resize`, with the slots and bits it adds. -/
def fdtableResize
    (host : FdHost)
    (w : FdWorld)
    (t : TableId)
    (size : Nat) : Option (FdWorld × Except Errno Unit) := do
  let table ← w.tables t
  -- currently the only legitimate use of this is to expand the table
  if size ≤ table.size then
    none
  else if host.memory = false then
    pure (w, .error .nomem)
  else
    let more := size - table.size
    pure (w.setTable t
      (some { table with
        files := table.files ++ List.replicate more none
        cloexec := table.cloexec ++ List.replicate more false }), .ok ())

/-- `fdtable_expand`; `max + 1` wraps. -/
def fdtableExpand
    (host : FdHost)
    (w : FdWorld)
    (t : TableId)
    (max : FdNum) : Option (FdWorld × Except Errno Unit) := do
  let size := (max + 1).toNat
  if host.limit < size then
    pure (w, .error .mfile)
  else
    let table ← w.tables t
    if size ≤ table.size then
      pure (w, .ok ())
    else
      w.fdtableResize host t size

/-- `fdtable_new`. -/
def fdtableNew
    (host : FdHost)
    (w : FdWorld)
    (size : Nat) : Option (FdWorld × Except Errno TableId) :=
  if host.memory = false then
    some (w, .error .nomem)
  else if size = 0 then
    -- the assertion of `fdtable_resize`
    none
  else
    let table := {
      refcount := 1
      files := List.replicate size none
      cloexec := List.replicate size false }
    some ({ w.setTable w.tableCount (some table) with
      tableCount := w.tableCount + 1 }, .ok w.tableCount)

/-- `fdtable_copy`; its `size` is an `int`. -/
def fdtableCopy
    (host : FdHost)
    (w : FdWorld)
    (t : TableId) : Option (FdWorld × Except Errno TableId) := do
  let table ← w.tables t
  if 2 ^ 31 ≤ table.size then
    none
  else
    match ← w.fdtableNew host table.size with
    | (w, .error err) => pure (w, .error err)
    | (w, .ok copy) =>
      let w ← (table.files.filterMap id).foldlM fdRetain w
      pure (w.setTable copy (some { table with refcount := 1 }), .ok copy)

/-- `fdtable_release`, once it has taken one from the count of the table. -/
def releaseCounted
    (host : FdHost)
    (w : FdWorld)
    (t : TableId)
    (table : FdTable)
    (count : Nat) : Option FdWorld :=
  let w := w.setTable t (some { table with refcount := count })
  if count = 0 then do
    let w ← (List.range table.size).foldlM
      (fun w f =>
        (w.fdtableClose host t (BitVec.ofNat 32 f)).map Prod.fst) w
    pure (w.setTable t none)
  else
    some w

/-- `fdtable_release`. -/
def fdtableRelease
    (host : FdHost) (w : FdWorld) (t : TableId) : Option FdWorld := do
  let table ← w.tables t
  w.releaseCounted host t table (decremented table.refcount)

/-- One round of `fdtable_do_cloexec`. -/
def cloexecRound
    (host : FdHost) (t : TableId) (w : FdWorld) (f : Nat) : Option FdWorld := do
  if ← w.testBit t (BitVec.ofNat 32 f) then
    (w.fdtableClose host t (BitVec.ofNat 32 f)).map Prod.fst
  else
    pure w

/-- `fdtable_do_cloexec`. -/
def fdtableDoCloexec
    (host : FdHost) (w : FdWorld) (t : TableId) : Option FdWorld := do
  let table ← w.tables t
  (List.range table.size).foldlM (cloexecRound host t) w

/--
The loop of `f_install_start`, with as many rounds left as descriptors below
`size`.
-/
def installLoop (files : List (Option FdId)) : Nat → Nat → Option Nat
  | 0, f => some f
  | rounds + 1, f =>
    if 2 ^ 31 ≤ f then
      -- the index is negative as an `fd_t`
      none
    else
      match files[f]? with
      | none => none
      | some none => some f
      | some (some _) => installLoop files rounds (f + 1)

/-- The end of `f_install_start`; `f` is negative if the table is too large. -/
def installAt
    (host : FdHost)
    (w : FdWorld)
    (t : TableId)
    (fd : FdId)
    (f : FdNum) : Except Errno Unit → Option (FdWorld × Except Errno FdNum)
  | .error err => do
      let (w, _) ← w.fdClose host fd
      pure (w, .error err)
  | .ok () =>
    if f.toInt < 0 then do
      let (w, _) ← w.fdClose host fd
      pure (w, .error (.host (dwordRange - f.toNat)))
    else do
      let w ← w.writeFile t f (some fd)
      let w ← w.writeBit t f false
      pure (w, .ok f)

/-- `f_install_start`; the limit is cut to 32 bits. -/
def fInstallStart
    (host : FdHost)
    (w : FdWorld)
    (fd : FdId)
    (start : FdNum) : Option (FdWorld × Except Errno FdNum) :=
  if start.toInt < 0 then
    -- the assertion
    none
  else do
    let t ← w.current
    let table ← w.tables t
    let size := min (host.limit % dwordRange) table.size
    let place ← installLoop table.files (size - start.toNat) start.toNat
    let f := BitVec.ofNat 32 place
    if size ≤ place then
      let (w, expanded) ← w.fdtableExpand host t f
      w.installAt host t fd f expanded
    else
      w.installAt host t fd f (.ok ())

/-- `f_install`; `cloexec` is whether the flags have `O_CLOEXEC_`. -/
def fInstall
    (host : FdHost)
    (w : FdWorld)
    (fd : FdId)
    (cloexec : Bool) : Option (FdWorld × Except Errno FdNum) := do
  match ← w.fInstallStart host fd 0 with
  | (w, .error err) => pure (w, .error err)
  | (w, .ok f) =>
    if cloexec then
      pure (← w.writeBit (← w.current) f true, .ok f)
    else
      pure (w, .ok f)

/-- `sys_dup`. -/
def sysDup
    (host : FdHost)
    (w : FdWorld)
    (f : FdNum) : Option (FdWorld × Except Errno FdNum) := do
  match ← w.fGet f with
  | none => pure (w, .error .badf)
  | some fd => (← w.fdRetain fd).fInstall host fd false

/-- `sys_dup3`. -/
def sysDup3
    (host : FdHost)
    (w : FdWorld)
    (f newF : FdNum)
    (flags : BitVec 32) : Option (FdWorld × Except Errno FdNum) := do
  let t ← w.current
  match ← w.fGet f with
  | none => pure (w, .error .badf)
  | some fd =>
    match ← w.fdtableExpand host t newF with
    | (w, .error err) => pure (w, .error err)
    | (w, .ok ()) =>
      let w ← w.fdRetain fd
      let (w, _) ← w.fClose host newF
      let w ← w.writeFile t newF (some fd)
      if flags &&& oCloexec ≠ 0 then
        pure (← w.writeBit t newF true, .ok newF)
      else
        pure (w, .ok newF)

/-- `sys_dup2`. -/
def sysDup2
    (host : FdHost)
    (w : FdWorld)
    (f newF : FdNum) : Option (FdWorld × Except Errno FdNum) :=
  w.sysDup3 host f newF 0

/-- `F_DUPFD_` of `sys_fcntl`. -/
def fcntlDupfd
    (host : FdHost)
    (w : FdWorld)
    (f : FdNum)
    (arg : BitVec 32) : Option (FdWorld × Except Errno FdNum) := do
  match ← w.fGet f with
  | none => pure (w, .error .badf)
  | some fd => (← w.fdRetain fd).fInstallStart host fd arg

/-- `F_DUPFD_CLOEXEC_` of `sys_fcntl`: an error is an index of the bits. -/
def fcntlDupfdCloexec
    (host : FdHost)
    (w : FdWorld)
    (f : FdNum)
    (arg : BitVec 32) : Option (FdWorld × Except Errno FdNum) := do
  let t ← w.current
  match ← w.fGet f with
  | none => pure (w, .error .badf)
  | some fd =>
    match ← (← w.fdRetain fd).fInstallStart host fd arg with
    | (_, .error _) => none
    | (w, .ok newF) => pure (← w.writeBit t newF true, .ok newF)

/-- `F_SETFD_` of `sys_fcntl`. -/
def fcntlSetfd
    (w : FdWorld)
    (f : FdNum)
    (arg : BitVec 32) : Option (FdWorld × Except Errno FdNum) := do
  let t ← w.current
  match ← w.fGet f with
  | none => pure (w, .error .badf)
  | some _ => pure (← w.writeBit t f (arg &&& 1 ≠ 0), .ok 0)

/-- `sys_close`. -/
def sysClose
    (host : FdHost)
    (w : FdWorld)
    (f : FdNum) : Option (FdWorld × Except Errno FdNum) := do
  let (w, err) ← w.fClose host f
  pure (w, err.map fun _ => 0)

end FdWorld

/-- The calls of a process on its table. -/
inductive FdCall where
  | install (fd : FdId) (cloexec : Bool)
  | dup (f : FdNum)
  | dup2 (f newF : FdNum)
  | dup3 (f newF : FdNum) (flags : BitVec 32)
  | dupfd (f : FdNum) (arg : BitVec 32)
  | dupfdCloexec (f : FdNum) (arg : BitVec 32)
  | setfd (f : FdNum) (arg : BitVec 32)
  | close (f : FdNum)
  deriving Repr, DecidableEq

/-- The code of a call. -/
def FdCall.run
    (host : FdHost)
    (w : FdWorld) : FdCall → Option (FdWorld × Except Errno FdNum)
  | install fd cloexec => w.fInstall host fd cloexec
  | dup f => w.sysDup host f
  | dup2 f newF => w.sysDup2 host f newF
  | dup3 f newF flags => w.sysDup3 host f newF flags
  | dupfd f arg => w.fcntlDupfd host f arg
  | dupfdCloexec f arg => w.fcntlDupfdCloexec host f arg
  | setfd f arg => w.fcntlSetfd f arg
  | close f => w.sysClose host f

end GuestKernel
