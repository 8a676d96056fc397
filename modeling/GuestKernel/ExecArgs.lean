import GuestKernel.FlatMemory
import Mathlib.Data.List.DropRight

namespace GuestKernel

/-!
# Argument and environment vectors

`sys_execve`, `user_read_string_array`, `do_execve`, `shebang_exec` and the stack
setup of `elf_exec`.  The vectors are read from the memory of the caller into
flat buffers and written to the new stack.

A buffer is the list of the bytes written to it; what the code does beyond its
end, and a failed assertion, is `undefined`.  The interpreter of a script is an
ELF file, and loading an ELF file succeeds; the vectors hold at most `ARGV_MAX`
bytes, so no address on the stack wraps.
-/

open ByteMemory (wordBytes wordsBytes)

/-- A byte. -/
abbrev Byte := BitVec 8

/-- `ARGV_MAX`. -/
def argvMax : Nat := 32 * 4096

/-- Why `execve` does not start the program. -/
inductive ExecError where
  | fault
  | e2big
  | noexec
  | undefined
  deriving Repr, DecidableEq

/-- `struct exec_args`. -/
structure ExecArgs where
  count : Nat
  args : List Byte
  deriving Repr, DecidableEq

/-- The kind of a file, and what is in a script. -/
inductive ExecFile where
  | elf
  | script (content : List Byte)

/-- What the loaded program tells the new process, in its `auxv`. -/
structure ElfImage where
  vdsoEntry : BitVec 32
  vdso : BitVec 32
  phdr : BitVec 32
  phnum : BitVec 32
  base : BitVec 32
  entry : BitVec 32

/-- The new memory of the stack, and `esp`. -/
structure StartedProcess where
  memory : FlatMemory
  esp : Nat

/-- A step that may leave a buffer or fail an assertion. -/
def orUndefined {α : Type} : Option α → Except ExecError α
  | some value => .ok value
  | none => .error .undefined

/-- The inner loop of `user_read_string_array`. -/
def readString (memory : FlatMemory) (max : Nat) :
    Nat → Nat → List Byte → Except ExecError (List Byte)
  | 0, _, _ => .error .undefined
  | rounds + 1, address, buf =>
    if max ≤ buf.length then
      .error .e2big
    else
      match memory address with
      | none => .error .fault
      | some byte =>
        if byte = 0 then
          .ok (buf ++ [byte])
        else
          readString memory max rounds (address + 1) (buf ++ [byte])

/-- The outer loop. -/
def readStrings (memory : FlatMemory) (max : Nat) :
    Nat → Nat → Nat → List Byte → Except ExecError ExecArgs
  | 0, _, _, _ => .error .undefined
  | rounds + 1, address, count, buf =>
    match FlatMemory.readWord memory address with
    | none => .error .fault
    | some pointer =>
      if pointer = 0 then
        if max ≤ buf.length then
          .error .e2big
        else
          .ok ⟨count, buf ++ [0]⟩
      else do
        let buf ← readString memory max (max + 1) pointer.toNat buf
        readStrings memory max rounds (address + 4) (count + 1) buf

/-- `user_read_string_array`; each round fills a byte of the buffer. -/
def userReadStringArray (memory : FlatMemory) (address max : Nat) :
    Except ExecError ExecArgs :=
  readStrings memory max (max + 1) address 0 []

/-- `args + strlen(args) + 1`. -/
def skipString : List Byte → Option (List Byte)
  | [] => none
  | byte :: rest => if byte = 0 then some rest else skipString rest

/-- The loop of `do_execve` that counts the strings of the environment. -/
def countStrings : Nat → List Byte → Option Nat
  | 0, _ => none
  | rounds + 1, args =>
    match args with
    | [] => none
    | byte :: _ =>
      if byte = 0 then
        some 0
      else
        (skipString args).bind fun rest =>
          (countStrings rounds rest).map (· + 1)

/-- `args_size`, with its assertion. -/
def argsSize : Nat → List Byte → Option Nat
  | 0, [] => none
  | 0, byte :: _ => if byte = 0 then some 1 else none
  | count + 1, args =>
    (skipString args).bind fun rest =>
      (argsSize count rest).map (args.length - rest.length + ·)

/-- The first line of the first 127 bytes, up to a NUL. -/
def firstLine (content : List Byte) : Option (List Byte) :=
  let header := (content.take 127).takeWhile (· ≠ 0)
  if 0x0a ∈ header then some (header.takeWhile (· ≠ 0x0a)) else none

/-- The interpreter and the argument of a line. -/
def parseShebang (line : List Byte) : Option (List Byte × Option (List Byte)) :=
  match line with
  | hash :: bang :: rest =>
    if hash = 0x23 ∧ bang = 0x21 then
      let p := rest.dropWhile (· = 0x20)
      let interpreter := p.takeWhile (· ≠ 0x20)
      let argument :=
        ((p.dropWhile (· ≠ 0x20)).dropWhile (· = 0x20)).rdropWhile (· = 0x20)
      if p = [] then
        none
      else if argument = [] then
        some (interpreter, none)
      else
        some (interpreter, some argument)
    else
      none
  | _ => none

/-- `argv.count - 1`, as a `size_t`. -/
def countLess (count : Nat) : Nat :=
  (count + (2 ^ 64 - 1)) % 2 ^ 64

/-- What `shebang_exec` copies before the rest of the arguments. -/
def extraArgs (interpreter : List Byte) (argument : Option (List Byte))
    (file : List Byte) : List Byte :=
  match argument with
  | none => interpreter ++ 0 :: file ++ [0]
  | some argument => interpreter ++ 0 :: argument ++ 0 :: file ++ [0]

/-- The new vector of `shebang_exec`, and the interpreter. -/
def shebangArgs (content file : List Byte) (argv : ExecArgs) :
    Except ExecError (List Byte × ExecArgs) :=
  match (firstLine content).bind parseShebang with
  | none => .error .noexec
  | some (interpreter, argument) => do
      let rest ← orUndefined (skipString argv.args)
      let restSize ← orUndefined (argsSize (countLess argv.count) rest)
      if argvMax ≤ restSize + (extraArgs interpreter argument file).length then
        .error .e2big
      else
        .ok (interpreter,
          ⟨((if argument.isSome then 3 else 2) + countLess argv.count) % 2 ^ 64,
            extraArgs interpreter argument file ++ rest.take restSize⟩)

/-- The top of the stack. -/
def stackTop : Nat := 0xffffe000

/-- The stack, which grows down to the last byte of the mapping below it. -/
def freshStack (below : Nat) : FlatMemory :=
  fun address =>
    if below < address ∧ address < stackTop then some 0 else none

/-- `user_write`. -/
def userWrite (memory : FlatMemory) (start : Nat) (bytes : List Byte) :
    Except ExecError FlatMemory :=
  if ∀ offset, offset < bytes.length → (memory (start + offset)).isSome then
    .ok (FlatMemory.store memory start bytes)
  else
    .error .fault

/-- `copy_string` and `args_copy`: below `sp`, which moves down. -/
def pushBytes (memory : FlatMemory) (sp : Nat) (bytes : List Byte) :
    Except ExecError (FlatMemory × Nat) := do
  let memory ← userWrite memory (sp - bytes.length) bytes
  if sp - bytes.length = 0 then
    .error .fault
  else
    .ok (memory, sp - bytes.length)

/-- `args_copy`. -/
def argsCopy (memory : FlatMemory) (sp : Nat) (args : ExecArgs) :
    Except ExecError (FlatMemory × Nat) := do
  let size ← orUndefined (argsSize args.count args.args)
  pushBytes memory sp (args.args.take size)

/-- `user_strlen`; none for its -1. -/
def userStrlen (memory : FlatMemory) : Nat → Nat → Option Nat
  | 0, _ => none
  | rounds + 1, address =>
    (memory address).bind fun byte =>
      if byte = 0 then
        some 0
      else
        (userStrlen memory rounds (address + 1)).map (· + 1)

/-- `addr + user_strlen(addr) + 1`. -/
def afterString (memory : FlatMemory) (address : Nat) : Nat :=
  match userStrlen memory (2 ^ 32) address with
  | some length => address + length + 1
  | none => address

/-- One of the loops that write the pointers to the strings of a vector. -/
def putPointers : Nat → FlatMemory → Nat → Nat →
    Except ExecError (FlatMemory × Nat)
  | 0, memory, p, _ => .ok (memory, p)
  | count + 1, memory, p, address => do
      let memory ← userWrite memory p (wordBytes (BitVec.ofNat 32 address))
      putPointers count memory (p + 4) (afterString memory address)

/-- The entries of `aux`, type and value. -/
def auxWords (image : ElfImage) (random file platform : Nat) :
    List (BitVec 32) :=
  [32, image.vdsoEntry, 33, image.vdso, 16, 0, 6, 4096, 17, 0x64,
    3, image.phdr, 4, 32, 5, image.phnum, 7, image.base, 8, 0,
    9, image.entry, 11, 0, 12, 0, 13, 0, 14, 0, 23, 0,
    25, BitVec.ofNat 32 random, 26, 0, 31, BitVec.ofNat 32 file,
    15, BitVec.ofNat 32 platform, 0, 0]

/-- `"i686"`. -/
def platformBytes : List Byte := [0x69, 0x36, 0x38, 0x36, 0]

/-- The stack setup of `elf_exec`. -/
def elfExec (stack : FlatMemory) (image : ElfImage) (random : Vector Byte 16)
    (file : List Byte) (argv envp : ExecArgs) :
    Except ExecError StartedProcess := do
  let (memory, fileAddr) ← pushBytes stack (stackTop - 8) (file ++ [0])
  let (memory, envpAddr) ← argsCopy memory fileAddr envp
  let (memory, argvAddr) ← argsCopy memory envpAddr argv
  let (memory, platformAddr) ←
    pushBytes memory (argvAddr / 16 * 16) platformBytes
  let memory ← userWrite memory (platformAddr - 16) random.toList
  let aux := wordsBytes (auxWords image (platformAddr - 16) fileAddr platformAddr)
  let pointers := ((argv.count + 1) + (envp.count + 1) + 1) * 4
  let esp := (platformAddr - 16 - pointers - aux.length) / 16 * 16
  -- `argc` is written as a `size_t`, eight bytes
  let memory ← userWrite memory esp
    (wordsBytes
      [BitVec.ofNat 32 argv.count, BitVec.ofNat 32 (argv.count / 2 ^ 32)])
  let (memory, p) ← putPointers argv.count memory (esp + 4) argvAddr
  let (memory, p) ← putPointers envp.count memory (p + 4) envpAddr
  let memory ← userWrite memory (p + 4) aux
  return ⟨memory, esp⟩

/-- `format_exec` and `shebang_exec`. -/
def formatExec (stack : FlatMemory) (image : ElfImage)
    (random : Vector Byte 16) (kind : ExecFile) (file : List Byte)
    (argv envp : ExecArgs) : Except ExecError StartedProcess :=
  match kind with
  | .elf => elfExec stack image random file argv envp
  | .script content => do
      let (interpreter, argv) ← shebangArgs content file argv
      elfExec stack image random interpreter argv envp

/-- `do_execve`. -/
def doExecve (stack : FlatMemory) (image : ElfImage) (random : Vector Byte 16)
    (kind : ExecFile) (file : List Byte) (argv : ExecArgs)
    (envp : List Byte) : Except ExecError StartedProcess := do
  let count ← orUndefined (countStrings (envp.length + 1) envp)
  formatExec stack image random kind file argv ⟨count, envp⟩

/-- `sys_execve`. -/
def sysExecve (guest stack : FlatMemory) (image : ElfImage)
    (random : Vector Byte 16) (kind : ExecFile) (file : List Byte)
    (argvAddr envpAddr : Nat) : Except ExecError StartedProcess := do
  let argv ← userReadStringArray guest argvAddr argvMax
  let envp ←
    if envpAddr ≠ 0 then
      (userReadStringArray guest envpAddr argvMax).map ExecArgs.args
    else
      pure [0, 0]
  doExecve stack image random kind file argv envp

/-- A string lies at an address. -/
def StringAt (memory : FlatMemory) (address : Nat) (string : List Byte) : Prop :=
  FlatMemory.HoldsBytes memory address (string ++ [0])

/-- An array of pointers to strings, with a null pointer at the end. -/
def VectorAt (memory : FlatMemory) : Nat → List (List Byte) → Prop
  | address, [] => FlatMemory.readWord memory address = some 0
  | address, string :: rest =>
    (∃ pointer,
      FlatMemory.readWord memory address = some pointer ∧ pointer ≠ 0 ∧
        StringAt memory pointer.toNat string) ∧
      VectorAt memory (address + 4) rest

/-- A process starts with these vectors. -/
structure StartsWith
    (process : StartedProcess) (args envs : List (List Byte)) : Prop where
  argc :
    FlatMemory.readWord process.memory process.esp =
      some (BitVec.ofNat 32 args.length)
  argv : VectorAt process.memory (process.esp + 4) args
  envp :
    VectorAt process.memory (process.esp + 4 + 4 * (args.length + 1)) envs

/-- A script that begins with `#!interp [arg]`. -/
def IsShebang
    (content interpreter : List Byte) (argument : Option (List Byte)) : Prop :=
  ∃ before between after rest,
    (interpreter ≠ [] ∧ ∀ byte ∈ interpreter, byte ∉ [0, 0x0a, 0x20]) ∧
      (∀ text ∈ argument,
        (∀ byte ∈ text, byte ∉ [0, 0x0a]) ∧
          (∃ first, text.head? = some first ∧ first ≠ 0x20) ∧
          ∃ last, text.getLast? = some last ∧ last ≠ 0x20) ∧
        content =
          0x23 :: 0x21 :: (List.replicate before 0x20 ++ interpreter ++
            (match argument with
              | none => []
              | some text => List.replicate (between + 1) 0x20 ++ text) ++
            List.replicate after 0x20 ++ 0x0a :: rest)

/-- The argument list that a file is to be started with. -/
inductive StartArgs (file : List Byte) (args : List (List Byte)) :
    ExecFile → List (List Byte) → Prop where
  | elf : StartArgs file args .elf args
  | script {content interpreter : List Byte} {argument : Option (List Byte)} :
      IsShebang content interpreter argument →
      StartArgs file args (.script content)
        (interpreter :: argument.toList ++ file :: args.tail)

end GuestKernel
