import GuestKernel.Errno
import GuestKernel.PageTable

namespace GuestKernel
open Function

/-!
# Loading a segment

`load_entry` of `kernel/exec.c`: a file mapping, zeros in its last page, and
pages without a file behind it.
-/

/-- `PH_W`. -/
def phW : Flags := 0x02

/-- What `load_entry` reads of a `struct prg_header`; every field is a dword. -/
structure PrgHeader where
  offset : Nat
  vaddr : Nat
  filesize : Nat
  memsize : Nat
  flags : Flags

/-- The pages that are mapped, with their flags, and the bytes in them. -/
structure LoadMemory where
  flags : Nat → Option Flags
  bytes : Nat → UInt8

/-- How `user_put` ends; `wild` copies what lies behind the byte in the host. -/
inductive PutEnd where
  | put (mem : LoadMemory)
  | failed (mem : LoadMemory)
  | wild

/-- The host: its page size, and the errors of its two kinds of `mmap`. -/
structure LoadHost where
  realPageSize : Nat
  refused : Nat → Option Errno
  refusedAnonymous : Nat → Option Errno

/-- `mmap` of a file, which refuses the length 0. -/
def LoadHost.mmap (host : LoadHost) (length : Nat) : Option Errno :=
  if length = 0 then some .inval else host.refused length

namespace LoadMemory

variable (host : LoadHost) (mem : LoadMemory)

/-- `pt_map`, with the bytes of the memory that it maps. -/
def ptMap (start pages : Nat) (made : Nat → UInt8) (flags : Flags) :
    LoadMemory where
  flags other :=
    if other ∈ pageRange start pages then some flags else mem.flags other
  bytes addr :=
    if page addr ∈ pageRange start pages then made addr else mem.bytes addr

/-- `realfs_mmap`; beyond its end the file shows zeros. -/
def realfsMmap (file : Nat → UInt8) (start pages offset : Nat) (flags : Flags) :
    Except Errno LoadMemory :=
  match host.mmap (pages * pageSize % 2 ^ 32 + offset % host.realPageSize) with
  | some err => .error err
  | none =>
    .ok (mem.ptMap start pages
      (fun addr => file (offset + (addr - start * pageSize))) flags)

/-- `pt_map_nothing`. -/
def ptMapNothing (start pages : Nat) (flags : Flags) :
    Except Errno LoadMemory :=
  if pages = 0 then
    .ok mem
  else
    match host.refusedAnonymous (pages * pageSize % 2 ^ 32) with
    | some err => .error err
    | none => .ok (mem.ptMap start pages (fun _ => 0) (flags ||| pAnonymous))

/-- `mem_ptr` finds the page for a write. -/
def isWritable (page : Nat) : Bool :=
  (mem.flags page).any (hasFlag · pWrite)

/--
`user_put` of a byte.  In the last page `chunk_end` is 0: the copy goes on to
the end of the page, and then from page 0 on.
-/
def userPut (addr : Nat) (value : UInt8) : PutEnd :=
  if mem.isWritable (page addr) then
    let written := { mem with bytes := update mem.bytes addr value }
    if page addr + 1 < memPages then .put written
    else if addr + 1 < 2 ^ 32 ∨ mem.isWritable 0 then .wild
    else .failed written
  else
    .failed mem

end LoadMemory

/-- The headers in question, for the memory that `load_entry` finds. -/
structure PrgHeader.Loadable (ph : PrgHeader) (addr : Nat) (mem : LoadMemory) :
    Prop where
  isDword : ph.offset < 2 ^ 32
  writable : hasFlag ph.flags phW = true
  congruent : ph.offset % pageSize = addr % pageSize
  ordered : ph.filesize ≤ ph.memsize
  inside : addr + ph.memsize ≤ 2 ^ 32
  free :
    ∀ other, page addr ≤ other → other * pageSize < addr + ph.memsize →
      mem.flags other = none

variable
  {host : LoadHost}
  {file : Nat → UInt8}
  {mem mapped : LoadMemory}
  {ph : PrgHeader}
  {addr start len : Nat}
  {flags : Flags}

/-- Where the pages with bytes of the file end. -/
def fileEndPage (ph : PrgHeader) (addr : Nat) : Nat :=
  page addr + pageRoundUp (ph.filesize + pgOffset addr)

/-- Where a segment lies, for linear arithmetic. -/
theorem PrgHeader.Loadable.places
    (loadable : ph.Loadable addr mem)
    (covers : pageRoundUp (ph.filesize + pgOffset addr) ≠ 0) :
    pgOffset addr ≤ ph.offset ∧
      addr + ph.filesize ≤ fileEndPage ph addr * 4096 ∧
      fileEndPage ph addr * 4096 < addr + ph.filesize + 4096 ∧
      page addr < fileEndPage ph addr ∧ fileEndPage ph addr ≤ 2 ^ 20 := by
  have inside := loadable.inside
  have ordered := loadable.ordered
  have congruent := loadable.congruent
  simp only [fileEndPage, pageRoundUp, page, pgOffset, pageSize] at *
  omega

/-- Memory without pages. -/
def noPages : LoadMemory :=
  ⟨fun _ => none, fun _ => 0⟩

end GuestKernel
