import GuestKernel.ByteMemory
import GuestKernel.CpuFlags
import GuestKernel.Signals

namespace GuestKernel
open ByteMemory

/-!
# Signal frames

The frames that `receive_signal` puts on the stack of a handler, the way back
through the trampolines of the vdso, and the two system calls that restore a
frame.  A frame is the list of its 32-bit words, in the order of
`kernel/signal.h`.
-/

/-- `struct sigcontext_`; a segment register stands with its padding. -/
structure SigContext where
  gs : BitVec 32
  fs : BitVec 32
  es : BitVec 32
  ds : BitVec 32
  di : BitVec 32
  si : BitVec 32
  bp : BitVec 32
  sp : BitVec 32
  bx : BitVec 32
  dx : BitVec 32
  cx : BitVec 32
  ax : BitVec 32
  trapno : BitVec 32
  err : BitVec 32
  ip : BitVec 32
  cs : BitVec 32
  flags : BitVec 32
  spAtSignal : BitVec 32
  ss : BitVec 32
  fpstate : BitVec 32
  oldmask : BitVec 32
  cr2 : BitVec 32
  deriving Repr, DecidableEq

namespace SigContext

/-- The words of a context. -/
def words (sc : SigContext) : List (BitVec 32) :=
  [sc.gs, sc.fs, sc.es, sc.ds, sc.di, sc.si, sc.bp, sc.sp, sc.bx, sc.dx,
    sc.cx, sc.ax, sc.trapno, sc.err, sc.ip, sc.cs, sc.flags, sc.spAtSignal,
    sc.ss, sc.fpstate, sc.oldmask, sc.cr2]

/-- The context in some words. -/
def ofWords (words : List (BitVec 32)) : SigContext where
  gs := words.getD 0 0
  fs := words.getD 1 0
  es := words.getD 2 0
  ds := words.getD 3 0
  di := words.getD 4 0
  si := words.getD 5 0
  bp := words.getD 6 0
  sp := words.getD 7 0
  bx := words.getD 8 0
  dx := words.getD 9 0
  cx := words.getD 10 0
  ax := words.getD 11 0
  trapno := words.getD 12 0
  err := words.getD 13 0
  ip := words.getD 14 0
  cs := words.getD 15 0
  flags := words.getD 16 0
  spAtSignal := words.getD 17 0
  ss := words.getD 18 0
  fpstate := words.getD 19 0
  oldmask := words.getD 20 0
  cr2 := words.getD 21 0

theorem ofWords_words (sc : SigContext) (rest : List (BitVec 32)) :
    ofWords (sc.words ++ rest) = sc :=
  rfl

end SigContext

/-- `struct sigframe_`, with the words of its `retcode`. -/
structure SigFrame where
  restorer : BitVec 32
  sig : BitVec 32
  sc : SigContext
  fpstate : List (BitVec 32)
  extramask : BitVec 32
  retcode : List (BitVec 32)

/-- The words of a frame. -/
def SigFrame.words (frame : SigFrame) : List (BitVec 32) :=
  [frame.restorer, frame.sig] ++ (frame.sc.words ++
    (frame.fpstate ++ (frame.extramask :: frame.retcode)))

/-- `struct stack_t_`. -/
structure StackT where
  stack : BitVec 32
  flags : BitVec 32
  size : BitVec 32
  deriving Repr, DecidableEq

/-- `struct rt_sigframe_`; `info` has all words of its union. -/
structure RtSigFrame where
  restorer : BitVec 32
  sig : BitVec 32
  pinfo : BitVec 32
  puc : BitVec 32
  info : List (BitVec 32)
  ucFlags : BitVec 32
  ucLink : BitVec 32
  ucStack : StackT
  ucMcontext : SigContext
  ucSigmask : SigSet
  retcode : List (BitVec 32)

/-- The words of a frame. -/
def RtSigFrame.words (frame : RtSigFrame) : List (BitVec 32) :=
  [frame.restorer, frame.sig, frame.pinfo, frame.puc] ++ (frame.info ++
    ([frame.ucFlags, frame.ucLink, frame.ucStack.stack, frame.ucStack.flags,
      frame.ucStack.size] ++ (frame.ucMcontext.words ++
        (frame.ucSigmask.setWidth 32 :: frame.ucSigmask.extractLsb' 32 32 ::
          frame.retcode))))

/-- The words of a `struct siginfo_` in a union of 128 bytes. -/
def SigInfo.words (info : SigInfo) : List (BitVec 32) :=
  (BitVec.ofInt 32 info.sig :: info.sigErrno :: info.code ::
    (info.fields ++ List.replicate 29 0)).take 32

/-- The trampolines of the vdso, and the room for the state of the host. -/
structure SignalHost where
  sigreturn : BitVec 32
  rtSigreturn : BitVec 32
  differ : sigreturn ≠ rtSigreturn
  xsaveExtra : BitVec 32
  fxsaveExtra : BitVec 32

/-- `is_on_altstack`. -/
def isOnAltstack (sp : BitVec 32) (hand : Sighand) : Bool :=
  decide (hand.altstack < sp ∧ sp ≤ hand.altstack + hand.altstackSize)

/-- `altstack_to_user`. -/
def altstackToUser (hand : Sighand) (sp : BitVec 32) : StackT where
  stack := hand.altstack
  flags :=
    (if hand.altstack = 0 then 2#32 else 0#32) |||
      (if isOnAltstack sp hand then 1#32 else 0#32)
  size := hand.altstackSize

/-- `setup_sigcontext`; the flags of the task are collapsed too. -/
def setupSigcontext (cpu : CpuState) (blocked : SigSet) : SigContext where
  gs := 0
  fs := 0
  es := 0
  ds := 0
  di := cpu.regs.edi
  si := cpu.regs.esi
  bp := cpu.regs.ebp
  sp := cpu.regs.esp
  bx := cpu.regs.ebx
  dx := cpu.regs.edx
  cx := cpu.regs.ecx
  ax := cpu.regs.eax
  trapno := cpu.trapno
  err := 0
  ip := cpu.eip
  cs := 0
  flags := cpu.collapseFlags.eflags
  spAtSignal := cpu.regs.esp
  ss := 0
  fpstate := 0
  oldmask := blocked.setWidth 32
  cr2 := if cpu.trapno = 13#32 then cpu.segfaultAddr else 0

/-- `setup_sigframe`. -/
def setupSigframe
    (host : SignalHost)
    (info : SigInfo)
    (cpu : CpuState)
    (blocked : SigSet) : SigFrame where
  restorer := host.sigreturn
  sig := BitVec.ofInt 32 info.sig
  sc := setupSigcontext cpu blocked
  fpstate := List.replicate 156 0
  extramask := blocked.extractLsb' 32 32
  retcode := [0x0071b858#32, 0x80cd0000#32]

/-- `setup_rt_sigframe`, with the fields that depend on its address. -/
def setupRtSigframe
    (host : SignalHost)
    (hand : Sighand)
    (info : SigInfo)
    (cpu : CpuState)
    (blocked : SigSet)
    (sp : BitVec 32) : RtSigFrame where
  restorer := host.rtSigreturn
  sig := BitVec.ofInt 32 info.sig
  pinfo := sp + 16#32
  puc := sp + 144#32
  info := info.words
  ucFlags := 0
  ucLink := 0
  ucStack := altstackToUser hand cpu.regs.esp
  ucMcontext := setupSigcontext cpu blocked
  ucSigmask := blocked
  retcode := [0x0000adb8#32, 0x0080cd00#32]

/-- Where `receive_signal` puts a frame of this size. -/
def frameAddress
    (host : SignalHost)
    (hand : Sighand)
    (sp size : BitVec 32) : BitVec 32 :=
  let sp :=
    if hand.altstack ≠ 0 ∧ isOnAltstack sp hand = false then
      hand.altstack + hand.altstackSize
    else
      sp
  let sp :=
    if host.xsaveExtra ≠ 0 then
      ((sp - host.xsaveExtra) &&& ~~~0x3f#32) - host.fxsaveExtra
    else
      sp
  ((sp - size + 4#32) &&& ~~~0xf#32) - 4#32

/-- What a thread has when it starts a handler or comes back from one. -/
structure SignalThread where
  cpu : CpuState
  blocked : SigSet
  hand : Sighand

/-- Whether the action wants a `struct siginfo_`. -/
def SigAction.needSiginfo (action : SigAction) : Bool :=
  decide (action.flags &&& saSiginfo ≠ 0)

/-- `sizeof(struct sigframe_)` or `sizeof(struct rt_sigframe_)`. -/
def frameSize (needSiginfo : Bool) : Nat :=
  if needSiginfo then 268 else 732

/-- The words of the frame for an action. -/
def frameWords
    (host : SignalHost)
    (hand : Sighand)
    (action : SigAction)
    (info : SigInfo)
    (cpu : CpuState)
    (blocked : SigSet)
    (sp : BitVec 32) : List (BitVec 32) :=
  if action.needSiginfo then
    (setupRtSigframe host hand info cpu blocked sp).words
  else
    (setupSigframe host info cpu blocked).words

/--
`receive_signal` when it calls a handler; `written` is whether the frame could
be written.
-/
def callHandler
    (host : SignalHost)
    (info : SigInfo)
    (thread : SignalThread)
    (memory : ByteMemory 32)
    (written : Bool) : Option (SignalThread × ByteMemory 32) := do
  if (← signalAction thread.hand info.sig) ≠ .callHandler then
    none
  else
    let action ← thread.hand.read info.sig
    let cpu := thread.cpu.collapseFlags
    let sp :=
      frameAddress host thread.hand cpu.regs.esp
        (BitVec.ofNat 32 (frameSize action.needSiginfo))
    let words :=
      frameWords host thread.hand action info thread.cpu thread.blocked sp
    let regs := { cpu.regs with
      eax := BitVec.ofInt 32 info.sig
      esp := sp }
    let regs :=
      if action.needSiginfo then
        { regs with edx := sp + 16#32, ecx := sp + 144#32 }
      else
        regs
    let blocked ← SignalWorld.maskInHandler thread.blocked action info.sig
    if written = false then
      none
    else
      pure
        ({ cpu := { cpu with regs := regs, eip := action.handler }
           blocked := blocked
           hand :=
            if action.flags &&& saResethand = 0 then thread.hand
            else thread.hand.write info.sig .default },
          writeBytes memory sp (wordsBytes words))

/-- `restore_sigcontext`. -/
def restoreSigcontext (context : SigContext) (cpu : CpuState) : CpuState :=
  let cpu := { cpu with
    regs := {
      eax := context.ax
      ecx := context.cx
      edx := context.dx
      ebx := context.bx
      esp := context.sp
      ebp := context.bp
      esi := context.si
      edi := context.di }
    eip := context.ip }
  let cpu := cpu.collapseFlags
  { cpu with
    eflags :=
      (context.flags &&& CpuState.useFlags) |||
        (cpu.eflags &&& ~~~CpuState.useFlags) }

/-- `sys_sigreturn`, if the frame can be read. -/
def sysSigreturn
    (thread : SignalThread) (memory : ByteMemory 32) : Option SignalThread := do
  let words ←
    readWords memory (thread.cpu.regs.esp - 8#32) 183
  let sc := SigContext.ofWords (words.drop 2)
  let extramask := words.getD 180 0
  let oldmask : SigSet := extramask ++ sc.oldmask
  pure { thread with
    cpu := restoreSigcontext sc thread.cpu
    blocked := oldmask &&& ~~~unblockableMask }

/-- `sys_rt_sigreturn`, if the frame can be read. -/
def sysRtSigreturn
    (thread : SignalThread) (memory : ByteMemory 32) : Option SignalThread := do
  let words ←
    readWords memory (thread.cpu.regs.esp - 4#32) 67
  let cpu := restoreSigcontext (SigContext.ofWords (words.drop 41)) thread.cpu
  let stack := words.getD 38 0
  let size := words.getD 40 0
  let sigmask : SigSet := words.getD 64 0 ++ words.getD 63 0
  let hand :=
    if isOnAltstack cpu.regs.esp thread.hand = false ∧ 2048#32 ≤ size then
      { thread.hand with altstack := stack, altstackSize := size }
    else
      thread.hand
  pure {
    cpu := cpu
    blocked := sigmask &&& ~~~unblockableMask
    hand := hand }

/-- The `ret` of a handler. -/
def handlerRet (cpu : CpuState) (memory : ByteMemory 32) : Option CpuState := do
  let target ← readWord memory cpu.regs.esp
  pure { cpu with
    eip := target
    regs := { cpu.regs with esp := cpu.regs.esp + 4#32 } }

/-- The code at the trampolines, up to their `int $0x80`. -/
def trampoline
    (host : SignalHost)
    (cpu : CpuState)
    (memory : ByteMemory 32) : Option CpuState :=
  if cpu.eip = host.sigreturn then do
    let popped ← readWord memory cpu.regs.esp
    pure { cpu with regs := { cpu.regs with
      ebx := popped
      esp := cpu.regs.esp + 4#32
      eax := 119#32 } }
  else if cpu.eip = host.rtSigreturn then
    pure { cpu with regs := { cpu.regs with eax := 173#32 } }
  else
    none

/-- `handle_interrupt` on the system calls 119 and 173. -/
def handleSigreturn
    (thread : SignalThread) (memory : ByteMemory 32) : Option SignalThread := do
  let after ←
    if thread.cpu.regs.eax = 119#32 then sysSigreturn thread memory
    else if thread.cpu.regs.eax = 173#32 then sysRtSigreturn thread memory
    else none
  -- `cpu->eax = result`, and both system calls return `cpu->eax`
  let result := after.cpu.regs.eax
  pure { after with cpu := { after.cpu with
    regs := { after.cpu.regs with eax := result } } }

/-- The way of a thread from the `ret` of its handler on. -/
def returnFromHandler
    (host : SignalHost)
    (thread : SignalThread)
    (memory : ByteMemory 32) : Option SignalThread := do
  let cpu ← handlerRet thread.cpu memory
  let cpu ← trampoline host cpu memory
  handleSigreturn { thread with cpu := cpu } memory

end GuestKernel
