import GuestKernel.ExecStack

namespace GuestKernel
open FlatMemory

/-!
# The vectors of a started program

`sys_execve` starts a program with its argument list, and with its environment
up to the first empty string.
-/

open FlatMemory (store HoldsBytes readWord)
open ByteMemory (wordBytes wordsBytes)

namespace Packing

variable {memory next : FlatMemory}
variable {args envs vector : List (List Byte)}
variable {argv envp : ExecArgs}
variable {image : ElfImage}
variable {random : Vector Byte 16}
variable {file : List Byte}
variable {below : Nat}
variable {process : StartedProcess}

theorem userWrite_above
    {start address : Nat}
    {bytes : List Byte}
    (step : userWrite memory start bytes = .ok next)
    (isAbove : start + bytes.length ≤ address) :
    next address = memory address := by
  rw [(userWrite_ok step).1]
  exact store_after isAbove

theorem userWrite_below
    {start address : Nat}
    {bytes : List Byte}
    (step : userWrite memory start bytes = .ok next)
    (isBelow : address < start) :
    next address = memory address := by
  rw [(userWrite_ok step).1]
  exact store_before isBelow

theorem userWrite_holds
    {start : Nat}
    {bytes : List Byte}
    (step : userWrite memory start bytes = .ok next) :
    HoldsBytes next start bytes := by
  rw [(userWrite_ok step).1]
  exact holds_store

/-- The strings on the stack before the pointers are written. -/
structure Pushed
    (below : Nat) (args envs : List (List Byte)) (memory : FlatMemory)
    (bottom argvAddr envpAddr : Nat) : Prop where
  inStack : InStack below memory
  argv : HoldsBytes memory argvAddr (packed args)
  envp : HoldsBytes memory envpAddr (packed envs)
  fresh : ∀ address, address < bottom → memory address = freshStack below address
  inTop : bottom ≤ stackTop
  argvAbove : bottom ≤ argvAddr
  envpAbove : bottom ≤ envpAddr
  argvFits : 0 < argvAddr ∧ argvAddr + (packed args).length < 2 ^ 32
  envpFits : 0 < envpAddr ∧ envpAddr + (packed envs).length < 2 ^ 32

/-- The file name, the vectors, the platform and the random bytes are pushed. -/
theorem pushed_of_steps
    {named withEnvp withArgv withPlatform : FlatMemory}
    {fileAddr envpAddr argvAddr platformAddr : Nat}
    (noNulArgs : NoNul args)
    (noNulEnvs : NoNul envs)
    (packsArgs : Packs argv args)
    (packsEnvs : Packs envp envs)
    (pushFile :
      pushBytes (freshStack below) (stackTop - 8) (file ++ [0]) =
        .ok (named, fileAddr))
    (copyEnvp : argsCopy named fileAddr envp = .ok (withEnvp, envpAddr))
    (copyArgv : argsCopy withEnvp envpAddr argv = .ok (withArgv, argvAddr))
    (pushPlatform :
      pushBytes withArgv (argvAddr / 16 * 16) platformBytes =
        .ok (withPlatform, platformAddr))
    (writeRandom :
      userWrite withPlatform (platformAddr - 16) random.toList = .ok memory) :
    Pushed below args envs memory (platformAddr - 16) argvAddr envpAddr := by
  obtain ⟨writeFile, _, fileEnd⟩ := pushBytes_ok pushFile
  obtain ⟨writeEnvp, envpPos, envpEnd⟩ := argsCopy_ok noNulEnvs packsEnvs copyEnvp
  obtain ⟨writeArgv, argvPos, argvEnd⟩ := argsCopy_ok noNulArgs packsArgs copyArgv
  obtain ⟨writePlatform, _, platformEnd⟩ := pushBytes_ok pushPlatform
  have inFresh : InStack below (freshStack below) := by
    intro address isSome
    unfold freshStack at isSome
    split at isSome
    case isTrue inside => exact inside
    case isFalse => cases isSome
  have inNamed := inFresh.write writeFile
  have inEnvp := inNamed.write writeEnvp
  have inArgv := inEnvp.write writeArgv
  have inPlatform := inArgv.write writePlatform
  have randomLength : random.toList.length = 16 := Vector.length_toList
  have randomStart := (inPlatform.start_of_write writeRandom (by omega)).1
  have platformLength : platformBytes.length = 5 := rfl
  have topValue : stackTop = 0xffffe000 := rfl
  have argvHolds := (holds_append.mp (userWrite_holds writeArgv)).1
  have envpHolds := (holds_append.mp (userWrite_holds writeEnvp)).1
  rw [List.length_append, List.length_singleton] at fileEnd
  have lengths :
      (packed args ++ [(0 : Byte)]).length = (packed args).length + 1 ∧
        (packed envs ++ [(0 : Byte)]).length = (packed envs).length + 1 := by
    constructor <;> rw [List.length_append, List.length_singleton]
  refine ⟨inPlatform.write writeRandom, ?_, ?_, ?_, by omega, by omega,
    by omega, ⟨argvPos, by omega⟩, ⟨envpPos, by omega⟩⟩
  · refine argvHolds.congr fun address atLeast _ => ?_
    rw [userWrite_above writeRandom (by omega),
      userWrite_above writePlatform (by omega)]
  · refine envpHolds.congr fun address atLeast _ => ?_
    rw [userWrite_above writeRandom (by omega),
      userWrite_above writePlatform (by omega),
      userWrite_above writeArgv (by omega)]
  · intro address isBelow
    rw [userWrite_below writeRandom isBelow,
      userWrite_below writePlatform (by omega),
      userWrite_below writeArgv (by omega),
      userWrite_below writeEnvp (by omega),
      userWrite_below writeFile (by omega)]

/-- The pointers are written below the strings. -/
theorem startsWith_of_steps
    {pushed counted withArgs withEnvs last : FlatMemory}
    {aux : List Byte}
    {bottom argvAddr envpAddr esp afterArgs afterEnvs : Nat}
    (noNulArgs : NoNul args)
    (noNulEnvs : NoNul envs)
    (atMost : args.length < 2 ^ 32)
    (isPushed : Pushed below args envs pushed bottom argvAddr envpAddr)
    (isEsp :
      esp =
        (bottom - ((args.length + 1) + (envs.length + 1) + 1) * 4 -
          aux.length) / 16 * 16)
    (writeArgc :
      userWrite pushed esp
          (wordsBytes
            [BitVec.ofNat 32 args.length,
              BitVec.ofNat 32 (args.length / 2 ^ 32)]) =
        .ok counted)
    (putArgs :
      putPointers args.length counted (esp + 4) argvAddr =
        .ok (withArgs, afterArgs))
    (putEnvs :
      putPointers envs.length withArgs (afterArgs + 4) envpAddr =
        .ok (withEnvs, afterEnvs))
    (writeAux : userWrite withEnvs (afterEnvs + 4) aux = .ok last) :
    StartsWith ⟨last, esp⟩ args envs := by
  have espInStack := (isPushed.inStack.start_of_write writeArgc (by simp)).1
  have argvAbove := isPushed.argvAbove
  have envpAbove := isPushed.envpAbove
  obtain ⟨argvPos, argvSmall⟩ := isPushed.argvFits
  obtain ⟨envpPos, envpSmall⟩ := isPushed.envpFits
  have argcLength :
      (wordsBytes
        [BitVec.ofNat 32 args.length,
          BitVec.ofNat 32 (args.length / 2 ^ 32)]).length = 8 := by
    rw [ByteMemory.wordsBytes_length]
    rfl
  have argcHolds := userWrite_holds writeArgc
  rw [wordsBytes, wordsBytes, holds_append,
    ByteMemory.wordBytes_length] at argcHolds
  have argvCounted : HoldsBytes counted argvAddr (packed args) :=
    isPushed.argv.congr fun address atLeast _ =>
      userWrite_above writeArgc (by omega)
  obtain ⟨rfl, argsSame, argsPointers⟩ := putPointers_ok argvCounted noNulArgs
    (by omega) (by omega) putArgs
  have envpWithArgs : HoldsBytes withArgs envpAddr (packed envs) :=
    isPushed.envp.congr fun address atLeast _ => by
      rw [argsSame address (by omega), userWrite_above writeArgc (by omega)]
  obtain ⟨rfl, envsSame, envsPointers⟩ := putPointers_ok envpWithArgs noNulEnvs
    (by omega) (by omega) putEnvs
  have above : ∀ address, bottom ≤ address → last address = pushed address := by
    intro address atLeast
    rw [userWrite_above writeAux (by omega), envsSame address (by omega),
      argsSame address (by omega), userWrite_above writeArgc (by omega)]
  have zero : ∀ address, esp + 4 ≤ address → address < bottom →
      counted address = some 0 := by
    intro address atLeast isBelow
    rcases Nat.lt_or_ge address (esp + 8) with inHigh | behind
    · have isHigh : args.length / 2 ^ 32 = 0 := Nat.div_eq_of_lt atMost
      rw [isHigh, wordsBytes, List.append_nil] at argcHolds
      have isByte : (wordBytes (BitVec.ofNat 32 0))[address - (esp + 4)]? =
          some 0 := by
        obtain ⟨offset, isOffset⟩ : ∃ offset, address - (esp + 4) = offset :=
          ⟨_, rfl⟩
        rw [isOffset]
        have small : offset < 4 := by omega
        rcases offset with _ | _ | _ | _ | offset
        · rfl
        · rfl
        · rfl
        · rfl
        · omega
      have isZero := argcHolds.2 _ 0 isByte
      rwa [Nat.add_sub_cancel' atLeast] at isZero
    · rw [userWrite_above writeArgc (by omega), isPushed.fresh address isBelow]
      exact if_pos ⟨by omega, Nat.lt_of_lt_of_le isBelow isPushed.inTop⟩
  refine ⟨?_, ?_, ?_⟩
  · refine readWord_of_holds (argcHolds.1.congr ?_)
    intro address _ isBelow
    rw [ByteMemory.wordBytes_length] at isBelow
    dsimp only at isBelow ⊢
    rw [userWrite_below writeAux (by omega), envsSame address (by omega),
      argsSame address (by omega)]
  · dsimp only
    refine vectorAt_of_pointers ?_ ?_ argvPos (by omega) ?_
    · refine argsPointers.congr fun address _ isBelow => ?_
      rw [ByteMemory.wordsBytes_length, pointers_length] at isBelow
      rw [userWrite_below writeAux (by omega), envsSame address (by omega)]
    · exact isPushed.argv.congr fun address atLeast _ =>
        above address (by omega)
    · refine readWord_zero fun offset isSmall => ?_
      rw [userWrite_below writeAux (by omega), envsSame _ (by omega),
        argsSame _ (by omega)]
      exact zero _ (by omega) (by omega)
  · dsimp only
    have isPlace :
        esp + 4 + 4 * (args.length + 1) = esp + 4 + 4 * args.length + 4 := by
      omega
    rw [isPlace]
    refine vectorAt_of_pointers ?_ ?_ envpPos (by omega) ?_
    · refine envsPointers.congr fun address _ isBelow => ?_
      rw [ByteMemory.wordsBytes_length, pointers_length] at isBelow
      rw [userWrite_below writeAux (by omega)]
    · exact isPushed.envp.congr fun address atLeast _ =>
        above address (by omega)
    · refine readWord_zero fun offset isSmall => ?_
      rw [userWrite_below writeAux (by omega), envsSame _ (by omega),
        argsSame _ (by omega)]
      exact zero _ (by omega) (by omega)

/-- A started program finds its vectors. -/
theorem elfExec_ok
    (noNulArgs : NoNul args)
    (noNulEnvs : NoNul envs)
    (packsArgs : Packs argv args)
    (packsEnvs : Packs envp envs)
    (atMost : args.length < 2 ^ 32)
    (step :
      elfExec (freshStack below) image random file argv envp = .ok process) :
    StartsWith process args envs := by
  obtain ⟨⟨named, fileAddr⟩, pushFile, step⟩ := bind_ok step
  obtain ⟨⟨withEnvp, envpAddr⟩, copyEnvp, step⟩ := bind_ok step
  obtain ⟨⟨withArgv, argvAddr⟩, copyArgv, step⟩ := bind_ok step
  obtain ⟨⟨withPlatform, platformAddr⟩, pushPlatform, step⟩ := bind_ok step
  obtain ⟨pushed, writeRandom, step⟩ := bind_ok step
  dsimp only at pushPlatform writeRandom step copyArgv copyEnvp
  have isPushed := pushed_of_steps noNulArgs noNulEnvs packsArgs packsEnvs
    pushFile copyEnvp copyArgv pushPlatform writeRandom
  obtain ⟨counted, writeArgc, step⟩ := bind_ok step
  obtain ⟨⟨withArgs, afterArgs⟩, putArgs, step⟩ := bind_ok step
  obtain ⟨⟨withEnvs, afterEnvs⟩, putEnvs, step⟩ := bind_ok step
  obtain ⟨last, writeAux, step⟩ := bind_ok step
  cases step
  rw [packsArgs.1] at writeArgc putArgs
  rw [packsEnvs.1] at putEnvs
  rw [packsArgs.1, packsEnvs.1] at *
  exact startsWith_of_steps noNulArgs noNulEnvs atMost isPushed rfl writeArgc
    putArgs putEnvs writeAux

theorem defined_userWrite
    {start : Nat}
    {bytes : List Byte} :
    Defined (userWrite memory start bytes) := by
  unfold userWrite
  intro isUndefined
  split at isUndefined
  · cases isUndefined
  · cases isUndefined

theorem defined_pushBytes
    {sp : Nat}
    {bytes : List Byte} :
    Defined (pushBytes memory sp bytes) := by
  refine defined_userWrite.bind fun written _ isUndefined => ?_
  split at isUndefined
  · cases isUndefined
  · cases isUndefined

theorem defined_argsCopy
    {sp : Nat}
    (noNul : NoNul args)
    (packs : Packs argv args) :
    Defined (argsCopy memory sp argv) := by
  obtain ⟨isCount, junk, isBuffer⟩ := packs
  unfold argsCopy
  rw [isCount, isBuffer, argsSize_packed noNul junk]
  exact defined_pushBytes

theorem defined_putPointers
    {count p address : Nat} :
    Defined (putPointers count memory p address) := by
  induction count generalizing memory p address with
  | zero =>
    intro isUndefined
    cases isUndefined
  | succ count inductionHypothesis =>
    exact defined_userWrite.bind fun written _ => inductionHypothesis

/-- The stack setup is defined for packed vectors. -/
theorem defined_elfExec
    (noNulArgs : NoNul args)
    (noNulEnvs : NoNul envs)
    (packsArgs : Packs argv args)
    (packsEnvs : Packs envp envs) :
    Defined (elfExec memory image random file argv envp) := by
  refine defined_pushBytes.bind fun named _ => ?_
  refine (defined_argsCopy noNulEnvs packsEnvs).bind fun withEnvp _ => ?_
  refine (defined_argsCopy noNulArgs packsArgs).bind fun withArgv _ => ?_
  refine defined_pushBytes.bind fun withPlatform _ => ?_
  refine defined_userWrite.bind fun pushed _ => ?_
  refine defined_userWrite.bind fun counted _ => ?_
  refine defined_putPointers.bind fun withArgs _ => ?_
  refine defined_putPointers.bind fun withEnvs _ => ?_
  refine defined_userWrite.bind fun last _ isUndefined => ?_
  cases isUndefined

/-- A packed vector is refused or arrives. -/
theorem elfExec_spec
    (noNulArgs : NoNul args)
    (noNulEnvs : NoNul envs)
    (packsArgs : Packs argv args)
    (packsEnvs : Packs envp envs)
    (atMost : args.length < 2 ^ 32) :
    (∃ error,
        elfExec (freshStack below) image random file argv envp =
          .error error ∧ error ≠ .undefined) ∨
      ∃ process,
        elfExec (freshStack below) image random file argv envp = .ok process ∧
          StartsWith process args envs := by
  cases isResult : elfExec (freshStack below) image random file argv envp with
  | error error =>
    refine .inl ⟨error, rfl, ?_⟩
    rintro rfl
    exact defined_elfExec noNulArgs noNulEnvs packsArgs packsEnvs isResult
  | ok process =>
    exact .inr ⟨process, rfl,
      elfExec_ok noNulArgs noNulEnvs packsArgs packsEnvs atMost isResult⟩

/-- A script is started without any argument. -/
def BareScript (kind : ExecFile) (args : List (List Byte)) : Prop :=
  (∃ content, kind = .script content) ∧ args = []

/-- Strings of a part of a vector have no NUL either. -/
theorem noNul_interpreter
    {content interpreter : List Byte}
    {argument : Option (List Byte)}
    (isShebang : IsShebang content interpreter argument)
    (fileNoNul : (0 : Byte) ∉ file)
    (noNul : NoNul args) :
    NoNul (interpreter :: argument.toList ++ file :: args.tail) := by
  obtain ⟨before, between, after, rest, isWord, isArgument, _⟩ := isShebang
  intro string isString
  rcases List.mem_append.mp isString with inFront | behind
  · rcases List.mem_cons.mp inFront with rfl | isText
    · exact fun isNul => isWord.2 0 isNul List.mem_cons_self
    · exact fun isNul =>
        (isArgument string (Option.mem_toList.mp isText)).1 0 isNul
          List.mem_cons_self
  · rcases List.mem_cons.mp behind with rfl | isRest
    · exact fileNoNul
    · exact noNul string (List.mem_of_mem_tail isRest)

/-- What `do_execve` starts, or why it does not. -/
theorem doExecve_spec
    {kind : ExecFile}
    {buffer junk : List Byte}
    (noNulArgs : NoNul args)
    (noNulEnvs : NoNul envs)
    (fileNoNul : (0 : Byte) ∉ file)
    (startArgs : StartArgs file args kind vector)
    (isArgv : argv = ⟨args.length, packed args ++ [0]⟩)
    (atMost : args.length ≤ argvMax)
    (isBuffer : buffer = packed envs ++ 0 :: junk) :
    (∃ error,
        doExecve (freshStack below) image random kind file argv buffer =
          .error error ∧ error ≠ .undefined) ∨
      BareScript kind args ∧
          doExecve (freshStack below) image random kind file argv buffer =
            .error .undefined ∨
        ¬BareScript kind args ∧
          ∃ process,
            doExecve (freshStack below) image random kind file argv buffer =
              .ok process ∧
                StartsWith process vector (upToEmpty envs) := by
  obtain ⟨count, isCount, packsEnvs⟩ := packs_environment noNulEnvs isBuffer
  have noNulPart : NoNul (upToEmpty envs) := fun other isOther =>
    noNulEnvs other ((List.takeWhile_prefix _).mem isOther)
  have small : args.length < 2 ^ 31 := by
    unfold argvMax at atMost
    omega
  unfold doExecve
  rw [isCount, orUndefined, ok_bind]
  unfold formatExec
  cases startArgs with
  | elf =>
    dsimp only
    have notBare : ¬BareScript .elf args := by
      rintro ⟨⟨content, isScript⟩, _⟩
      cases isScript
    subst isArgv
    have packsArgs : Packs ⟨args.length, packed args ++ [0]⟩ args :=
      ⟨rfl, [], rfl⟩
    rcases elfExec_spec noNulArgs noNulPart packsArgs packsEnvs (by omega)
      with isError | started
    · exact .inl isError
    · exact .inr (.inr ⟨notBare, started⟩)
  | @script content interpreter argument isShebang =>
    dsimp only
    rcases shebangArgs_spec isShebang noNulArgs isArgv atMost with
      ⟨error, isError, notUndefined⟩ | ⟨noArgs, isUndefined⟩ |
        ⟨hasArgs, passed, isPassed, packsPassed⟩
    · rw [isError]
      exact .inl ⟨error, rfl, notUndefined⟩
    · rw [isUndefined]
      exact .inr (.inl ⟨⟨⟨content, rfl⟩, noArgs⟩, rfl⟩)
    · have notBare : ¬BareScript (.script content) args := fun isBare =>
        hasArgs isBare.2
      have noNulPassed := noNul_interpreter isShebang fileNoNul noNulArgs
      have fewPassed :
          (interpreter :: argument.toList ++ file :: args.tail).length <
            2 ^ 32 := by
        have fewTail : args.tail.length ≤ args.length := by
          rw [List.length_tail]
          omega
        cases argument with
        | none =>
          simp only [Option.toList_none, List.length_cons,
            List.length_append, List.length_nil]
          omega
        | some text =>
          simp only [Option.toList_some, List.length_cons,
            List.length_append, List.length_nil]
          omega
      rw [isPassed, ok_bind]
      rcases elfExec_spec noNulPassed noNulPart packsPassed packsEnvs
        fewPassed with isError | started
      · exact .inl isError
      · exact .inr (.inr ⟨notBare, started⟩)

/-- The environment that the caller passes. -/
def EnvironmentAt
    (guest : FlatMemory) (envpAddr : Nat) (envs : List (List Byte)) : Prop :=
  if envpAddr = 0 then envs = [] else VectorAt guest envpAddr envs

/-- What `sys_execve` starts, or why it does not. -/
theorem sysExecve_spec
    {guest : FlatMemory}
    {kind : ExecFile}
    {argvAddr envpAddr : Nat}
    (isArgs : VectorAt guest argvAddr args)
    (isEnvs : EnvironmentAt guest envpAddr envs)
    (noNulArgs : NoNul args)
    (noNulEnvs : NoNul envs)
    (fileNoNul : (0 : Byte) ∉ file)
    (startArgs : StartArgs file args kind vector) :
    (∃ error,
        sysExecve guest (freshStack below) image random kind file argvAddr
            envpAddr = .error error ∧ error ≠ .undefined) ∨
      BareScript kind args ∧
          sysExecve guest (freshStack below) image random kind file argvAddr
            envpAddr = .error .undefined ∨
        ¬BareScript kind args ∧
          ∃ process,
            sysExecve guest (freshStack below) image random kind file argvAddr
                envpAddr = .ok process ∧
              StartsWith process vector (upToEmpty envs) := by
  have tooBig : ExecError.e2big ≠ .undefined := fun same => by cases same
  unfold sysExecve
  rw [userReadStringArray_spec isArgs noNulArgs]
  by_cases argsFit : (packed args).length + 1 ≤ argvMax
  case neg =>
    rw [if_neg argsFit]
    exact .inl ⟨.e2big, rfl, tooBig⟩
  rw [if_pos argsFit, ok_bind]
  have atMost : args.length ≤ argvMax :=
    Nat.le_trans (length_le_packed args) (Nat.le_of_succ_le argsFit)
  unfold EnvironmentAt at isEnvs
  by_cases isNull : envpAddr = 0
  · rw [if_pos isNull] at isEnvs
    rw [if_neg (not_not.mpr isNull)]
    subst isEnvs
    have isBuffer : ([0, 0] : List Byte) = packed [] ++ 0 :: [0] := rfl
    exact doExecve_spec noNulArgs noNulEnvs fileNoNul startArgs rfl atMost
      isBuffer
  · rw [if_neg isNull] at isEnvs
    rw [if_pos isNull, userReadStringArray_spec isEnvs noNulEnvs]
    by_cases envsFit : (packed envs).length + 1 ≤ argvMax
    · rw [if_pos envsFit]
      exact doExecve_spec noNulArgs noNulEnvs fileNoNul startArgs rfl atMost rfl
    · rw [if_neg envsFit]
      exact .inl ⟨.e2big, rfl, tooBig⟩

end Packing

open Packing

/--
Every call that `sys_execve` accepts, that is, does not answer with an error,
starts the program with the argument list of its file and with the whole
environment if and only if no string of the environment is empty and no script
is started without any argument.
-/
theorem vectors_arrive_iff
    {guest : FlatMemory}
    {kind : ExecFile}
    {file : List Byte}
    {args envs vector : List (List Byte)}
    {argvAddr envpAddr : Nat}
    (below : Nat)
    (image : ElfImage)
    (random : Vector Byte 16)
    (isArgs : VectorAt guest argvAddr args)
    (isEnvs : EnvironmentAt guest envpAddr envs)
    (noNulArgs : NoNul args)
    (noNulEnvs : NoNul envs)
    (fileNoNul : (0 : Byte) ∉ file)
    (startArgs : StartArgs file args kind vector)
    (accepted :
      ∀ error,
        sysExecve guest (freshStack below) image random kind file argvAddr
            envpAddr = .error error → error = .undefined) :
    (∃ process,
        sysExecve guest (freshStack below) image random kind file argvAddr
            envpAddr = .ok process ∧ StartsWith process vector envs) ↔
      (∀ env ∈ envs, env ≠ []) ∧ ¬BareScript kind args := by
  have spec := @sysExecve_spec args envs vector image random file below guest
    kind argvAddr envpAddr isArgs isEnvs noNulArgs noNulEnvs fileNoNul startArgs
  have noNulPart : NoNul (upToEmpty envs) := fun other isOther =>
    noNulEnvs other ((List.takeWhile_prefix _).mem isOther)
  constructor
  · rintro ⟨process, isResult, starts⟩
    rcases spec with ⟨error, isError, _⟩ | ⟨_, isUndefined⟩ |
      ⟨notBare, other, isOther, otherStarts⟩
    · rw [isResult] at isError
      cases isError
    · rw [isResult] at isUndefined
      cases isUndefined
    · rw [isResult] at isOther
      cases isOther
      have whole := vectorAt_unique starts.envp otherStarts.envp noNulEnvs
        noNulPart
      refine ⟨fun env isEnv => ?_, notBare⟩
      rw [whole] at isEnv
      have notEmpty := List.mem_takeWhile_imp isEnv
      simpa using notEmpty
  · rintro ⟨notEmpty, notBare⟩
    have whole : upToEmpty envs = envs :=
      List.takeWhile_eq_self_iff.mpr fun env isEnv => by
        simpa using notEmpty env isEnv
    rcases spec with ⟨error, isError, notUndefined⟩ | ⟨isBare, _⟩ |
      ⟨_, process, isResult, starts⟩
    · exact absurd (accepted error isError) notUndefined
    · exact absurd isBare notBare
    · rw [whole] at starts
      exact ⟨process, isResult, starts⟩

/-- The error of a call. -/
def refusal : Except ExecError StartedProcess → Option ExecError
  | .ok _ => none
  | .error error => some error

/-- A caller with the argument `a` and the environment `A=1`, `B`. -/
def plainCaller : FlatMemory :=
  store (store (fun _ => none) 16 (wordsBytes [48, 0, 50, 54, 0]))
    48 [0x61, 0, 0x41, 0x3d, 0x31, 0, 0x42, 0]

/-- A caller with an empty string between `A=1` and `B`. -/
def emptyCaller : FlatMemory :=
  store (store (fun _ => none) 16 (wordsBytes [48, 0, 50, 54, 55, 0]))
    48 [0x61, 0, 0x41, 0x3d, 0x31, 0, 0, 0x42, 0]

/-- An image whose addresses do not matter. -/
def plainImage : ElfImage := ⟨0, 0, 0, 0, 0, 0⟩

/-- A program gets its two environment strings. -/
theorem plain_environment_arrives :
    ∃ process,
      sysExecve plainCaller (freshStack 0xfffdd000) plainImage
          (Vector.replicate 16 0) .elf [0x61] 16 24 = .ok process ∧
        StartsWith process [[0x61]] [[0x41, 0x3d, 0x31], [0x42]] := by
  have isArgs : VectorAt plainCaller 16 [[0x61]] :=
    ⟨⟨48, by decide, by decide, holds_of_bytes (by decide)⟩,
      (by decide : readWord _ _ = some 0)⟩
  have isEnvs : EnvironmentAt plainCaller 24 [[0x41, 0x3d, 0x31], [0x42]] :=
    ⟨⟨50, by decide, by decide, holds_of_bytes (by decide)⟩,
      ⟨54, by decide, by decide, holds_of_bytes (by decide)⟩,
      (by decide : readWord _ _ = some 0)⟩
  have isAccepted :
      refusal
          (sysExecve plainCaller (freshStack 0xfffdd000) plainImage
            (Vector.replicate 16 0) .elf [0x61] 16 24) = none := by
    decide +kernel
  have fileNoNul : (0 : Byte) ∉ ([0x61] : List Byte) := by decide
  refine (vectors_arrive_iff 0xfffdd000 plainImage (Vector.replicate 16 0)
    isArgs isEnvs (by unfold NoNul; decide) (by unfold NoNul; decide)
    fileNoNul .elf ?_).mpr ⟨by decide, ?_⟩
  · intro error isError
    rw [isError] at isAccepted
    cases isAccepted
  · rintro ⟨⟨content, isScript⟩, _⟩
    cases isScript

/-- The strings behind an empty one do not arrive. -/
theorem empty_string_ends_environment :
    VectorAt emptyCaller 16 [[0x61]] ∧
      VectorAt emptyCaller 24 [[0x41, 0x3d, 0x31], [], [0x42]] ∧
      ∃ process,
        sysExecve emptyCaller (freshStack 0xfffdd000) plainImage
            (Vector.replicate 16 0) .elf [0x61] 16 24 = .ok process ∧
          ¬StartsWith process [[0x61]] [[0x41, 0x3d, 0x31], [], [0x42]] := by
  have isArgs : VectorAt emptyCaller 16 [[0x61]] :=
    ⟨⟨48, by decide, by decide, holds_of_bytes (by decide)⟩,
      (by decide : readWord _ _ = some 0)⟩
  have isEnvs : VectorAt emptyCaller 24 [[0x41, 0x3d, 0x31], [], [0x42]] :=
    ⟨⟨50, by decide, by decide, holds_of_bytes (by decide)⟩,
      ⟨54, by decide, by decide, holds_of_bytes (by decide)⟩,
      ⟨55, by decide, by decide, holds_of_bytes (by decide)⟩,
      (by decide : readWord _ _ = some 0)⟩
  have noNulEnvs : NoNul [[0x41, 0x3d, 0x31], [], [0x42]] := by
    unfold NoNul
    decide
  have isAccepted :
      refusal
          (sysExecve emptyCaller (freshStack 0xfffdd000) plainImage
            (Vector.replicate 16 0) .elf [0x61] 16 24) = none := by
    decide +kernel
  have fileNoNul : (0 : Byte) ∉ ([0x61] : List Byte) := by decide
  refine ⟨isArgs, isEnvs, ?_⟩
  have isEnvironment :
      EnvironmentAt emptyCaller 24 [[0x41, 0x3d, 0x31], [], [0x42]] :=
    isEnvs
  have spec := @sysExecve_spec _ _ _ plainImage (Vector.replicate 16 0) _
    0xfffdd000 _ _ _ _ isArgs isEnvironment (by unfold NoNul; decide) noNulEnvs
    fileNoNul .elf
  rcases spec with
    ⟨error, isError, _⟩ | ⟨_, isUndefined⟩ | ⟨_, process, isOk, starts⟩
  · rw [isError] at isAccepted
    cases isAccepted
  · rw [isUndefined] at isAccepted
    cases isAccepted
  · refine ⟨process, isOk, fun whole => ?_⟩
    have same := vectorAt_unique whole.envp starts.envp noNulEnvs
      (by unfold NoNul; decide)
    exact absurd same (by decide)

end GuestKernel
