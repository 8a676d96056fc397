import GuestKernel.SignalFrames
import GuestKernel.SignalSteps

namespace GuestKernel
open List Option
open ByteMemory CpuState

/-!
# Coming back from a handler

What `sys_sigreturn` and `sys_rt_sigreturn` restore of the thread that a
signal interrupted.  `restore_sigcontext` writes `eflags` and does not expand
it, so the bytes of the carry and overflow flags stay as the handler left
them.
-/

theorem SigInfo.words_length (info : SigInfo) : info.words.length = 32 := by
  unfold SigInfo.words
  rw [length_take, length_cons, length_cons,
    length_cons, length_append, length_replicate]
  omega

theorem RtSigFrame.words_eq (frame : RtSigFrame) :
    frame.words =
      (frame.restorer :: frame.sig :: frame.pinfo :: frame.puc ::
          frame.info) ++
        ([frame.ucFlags, frame.ucLink, frame.ucStack.stack,
          frame.ucStack.flags, frame.ucStack.size] ++
          (frame.ucMcontext.words ++
            (frame.ucSigmask.setWidth 32 ::
              frame.ucSigmask.extractLsb' 32 32 :: frame.retcode))) :=
  rfl

/-- The words of a frame from its `uc` on. -/
theorem setupRtSigframe_drop
    (host : SignalHost)
    (hand : Sighand)
    (info : SigInfo)
    (cpu : CpuState)
    (blocked : SigSet)
    (sp : BitVec 32) :
    (setupRtSigframe host hand info cpu blocked sp).words.drop 36 =
      let uc := altstackToUser hand cpu.regs.esp
      [0, 0, uc.stack, uc.flags, uc.size] ++
        ((setupSigcontext cpu blocked).words ++
          [blocked.setWidth 32, blocked.extractLsb' 32 32, 0x0000adb8#32,
            0x0080cd00#32]) := by
  rw [RtSigFrame.words_eq, drop_append_of_le_length]
  · rw [drop_eq_nil_of_le]
    · rfl
    · exact Nat.le_of_eq (congrArg (fun n => n + 4) info.words_length)
  · exact Nat.le_of_eq (congrArg (fun n => n + 4) info.words_length).symm

/-- A frame of either kind has its size. -/
theorem frameWords_length
    (host : SignalHost)
    (hand : Sighand)
    (action : SigAction)
    (info : SigInfo)
    (cpu : CpuState)
    (blocked : SigSet)
    (sp : BitVec 32) :
    4 * (frameWords host hand action info cpu blocked sp).length =
      frameSize action.needSiginfo := by
  unfold frameWords frameSize
  cases action.needSiginfo with
  | false =>
    rfl
  | true =>
    rw [if_pos rfl, if_pos rfl]
    simp only [RtSigFrame.words, setupRtSigframe, SigContext.words,
      length_append, length_cons, length_nil,
      SigInfo.words_length]

theorem readWord_of_readWords
    {memory : ByteMemory 32}
    {address word : BitVec 32}
    {rest : List (BitVec 32)}
    {count : Nat}
    (words :
      readWords memory address (count + 1) =
        some (word :: rest)) :
    readWord memory address = some word ∧
      readWords memory (address + 4#32) count = some rest := by
  obtain ⟨first, isFirst, words⟩ := bind_eq_some_iff.mp words
  obtain ⟨others, isOthers, same⟩ := bind_eq_some_iff.mp words
  cases same
  exact ⟨isFirst, isOthers⟩

theorem readWords_of_unmodified
    {memory after : ByteMemory 32}
    {sp : BitVec 32}
    {words : List (BitVec 32)}
    (fits : 4 * words.length ≤ 2 ^ 32)
    (unmodified :
      ByteMemory.AgreeOn sp (4 * words.length) after
        (writeBytes memory sp (wordsBytes words))) :
    readWords after sp words.length = some words :=
  (readWords_congr unmodified).trans
    (readWords_writeBytes memory sp fits)

theorem flag_restoreSigcontext
    {index : Nat}
    (context : SigContext)
    (cpu : CpuState)
    (isUsed : useFlags.getLsbD index = true) :
    (restoreSigcontext context cpu).flag index =
      if index = 0 then decide (cpu.cf ≠ 0)
      else if index = 11 then decide (cpu.of ≠ 0)
      else context.flags.getLsbD index := by
  by_cases isCarry : index = 0
  · subst isCarry
    rfl
  by_cases isOverflow : index = 11
  · subst isOverflow
    rfl
  rw [if_neg isCarry, if_neg isOverflow]
  have bit :
      (restoreSigcontext context cpu).eflags.getLsbD index =
        context.flags.getLsbD index := by
    show ((context.flags &&& useFlags) |||
      (_ &&& ~~~useFlags)).getLsbD index = _
    simp [BitVec.getLsbD_or, BitVec.getLsbD_and, isUsed]
  have plain :
      (restoreSigcontext context cpu).flag index =
        (restoreSigcontext context cpu).eflags.getLsbD index := by
    unfold flag
    rw [if_neg isCarry]
    by_cases isPf : index = 2
    · subst isPf
      rfl
    by_cases isAf : index = 4
    · subst isAf
      rfl
    by_cases isZf : index = 6
    · subst isZf
      rfl
    by_cases isSf : index = 7
    · subst isSf
      rfl
    rw [if_neg isPf, if_neg isAf, if_neg isZf, if_neg isSf,
      if_neg isOverflow]
  rw [plain, bit]

/-- Taking the two signals out changes nothing exactly if they are not in. -/
theorem and_not_unblockable_eq_iff {set : SigSet} :
    set &&& ~~~unblockableMask = set ↔ set &&& unblockableMask = 0 := by
  constructor
  · intro same
    rw [← same]
    apply BitVec.eq_of_getLsbD_eq
    intro index inside
    simp
  · intro isZero
    obtain ⟨noKill, noStop⟩ := and_unblockable_eq_zero_iff.mp isZero
    apply BitVec.eq_of_getLsbD_eq
    intro index inside
    by_cases isEighth : index = 8
    · subst isEighth
      rw [BitVec.getLsbD_and, noKill, Bool.false_and]
    · by_cases isEighteenth : index = 18
      · subst isEighteenth
        rw [BitVec.getLsbD_and, noStop, Bool.false_and]
      · simp [unblockableMask, isEighth, isEighteenth, inside]

theorem append_halves (set : SigSet) :
    (set.extractLsb' 32 32 ++ set.setWidth 32 : SigSet) = set := by
  apply BitVec.eq_of_getLsbD_eq
  intro index inside
  rw [BitVec.getLsbD_append]
  by_cases low : index < 32
  · simp [low]
  · have high : 32 + (index - 32) = index := by omega
    simp [low, high, show index - 32 < 32 by omega]

/-- The context in a frame with a `struct siginfo_`. -/
theorem setupRtSigframe_mcontext
    (host : SignalHost)
    (hand : Sighand)
    (info : SigInfo)
    (cpu : CpuState)
    (blocked : SigSet)
    (sp : BitVec 32) :
    SigContext.ofWords
        ((setupRtSigframe host hand info cpu blocked sp).words.drop 41) =
      setupSigcontext cpu blocked := by
  have behind :=
    congrArg (List.drop 5)
      (setupRtSigframe_drop host hand info cpu blocked sp)
  rw [drop_drop] at behind
  rw [behind]
  exact SigContext.ofWords_words _ _

/-- The mask in a frame with a `struct siginfo_`. -/
theorem setupRtSigframe_sigmask
    (host : SignalHost)
    (hand : Sighand)
    (info : SigInfo)
    (cpu : CpuState)
    (blocked : SigSet)
    (sp : BitVec 32) :
    ((setupRtSigframe host hand info cpu blocked sp).words.getD 64 0 ++
        (setupRtSigframe host hand info cpu blocked sp).words.getD 63 0 :
          SigSet) = blocked := by
  have wordAt :
      ∀ index word,
        ((setupRtSigframe host hand info cpu blocked sp).words.drop
            36)[index]? = some word →
          (setupRtSigframe host hand info cpu blocked sp).words.getD
            (36 + index) 0 = word := by
    intro index word isWord
    rw [List.getElem?_drop] at isWord
    rw [List.getD_eq_getElem?_getD, isWord]
    rfl
  rw [setupRtSigframe_drop] at wordAt
  rw [wordAt 28 (blocked.extractLsb' 32 32) rfl,
    wordAt 27 (blocked.setWidth 32) rfl]
  exact append_halves blocked

/-- What both system calls make of the frame that was set up. -/
structure ReadBack
    (thread back resumed : SignalThread) : Prop where
  cpu :
    ∃ entered,
      entered.cf = back.cpu.cf ∧
        entered.of = back.cpu.of ∧
        resumed.cpu =
          restoreSigcontext (setupSigcontext thread.cpu thread.blocked) entered
  blocked : resumed.blocked = thread.blocked &&& ~~~unblockableMask

/-- The handler returns to the address on top of its stack. -/
theorem handlerRet_of_readWord
    {cpu : CpuState}
    {memory : ByteMemory 32}
    {word : BitVec 32}
    (isWord : readWord memory cpu.regs.esp = some word) :
    handlerRet cpu memory =
      some { cpu with
        eip := word
        regs := { cpu.regs with esp := cpu.regs.esp + 4#32 } } := by
  unfold handlerRet
  rw [isWord]
  rfl

/-- The way back over a `struct sigframe_`. -/
theorem returnFromHandler_sigframe
    {host : SignalHost}
    {info : SigInfo}
    {thread back : SignalThread}
    {after : ByteMemory 32}
    (words :
      readWords after back.cpu.regs.esp 183 =
        some (setupSigframe host info thread.cpu thread.blocked).words) :
    ∃ resumed,
      returnFromHandler host back after = some resumed ∧
        ReadBack thread back resumed := by
  obtain ⟨restorer, others⟩ :=
    @readWord_of_readWords after _ host.sigreturn _ 182 words
  obtain ⟨sig, _⟩ :=
    @readWord_of_readWords after _ (BitVec.ofInt 32 info.sig) _ 181 others
  have stack :
      back.cpu.regs.esp + 4#32 + 4#32 - 8#32 = back.cpu.regs.esp := by
    rw [BitVec.add_assoc]
    exact BitVec.add_sub_cancel _ _
  unfold returnFromHandler
  rw [handlerRet_of_readWord restorer, bind_eq_bind, bind_some]
  unfold trampoline
  rw [if_pos rfl, sig, bind_eq_bind, bind_some]
  simp only [Option.pure_def, bind_some]
  unfold handleSigreturn
  rw [if_pos rfl]
  unfold sysSigreturn
  dsimp only
  rw [stack, words]
  refine ⟨_, rfl, ⟨_, rfl, rfl, rfl⟩, ?_⟩
  exact congrArg (fun set => set &&& ~~~unblockableMask)
    (append_halves thread.blocked)

theorem sysRtSigreturn_of_readWords
    {thread : SignalThread}
    {memory : ByteMemory 32}
    {words : List (BitVec 32)}
    (isWords :
      readWords memory (thread.cpu.regs.esp - 4#32) 67 =
        some words) :
    ∃ resumed,
      sysRtSigreturn thread memory = some resumed ∧
        resumed.cpu =
          restoreSigcontext (SigContext.ofWords (words.drop 41)) thread.cpu ∧
        resumed.blocked =
          (words.getD 64 0 ++ words.getD 63 0 : SigSet) &&&
            ~~~unblockableMask := by
  unfold sysRtSigreturn
  rw [isWords]
  exact ⟨_, rfl, rfl, rfl⟩

/-- The way back over a `struct rt_sigframe_`. -/
theorem returnFromHandler_rtSigframe
    {host : SignalHost}
    {hand : Sighand}
    {info : SigInfo}
    {thread back : SignalThread}
    {after : ByteMemory 32}
    {sp : BitVec 32}
    (words :
      readWords after back.cpu.regs.esp 67 =
        some
          (setupRtSigframe host hand info thread.cpu thread.blocked sp).words) :
    ∃ resumed,
      returnFromHandler host back after = some resumed ∧
        ReadBack thread back resumed := by
  obtain ⟨restorer, others⟩ :=
    @readWord_of_readWords after _ host.rtSigreturn _ 66 words
  have stack :
      back.cpu.regs.esp + 4#32 - 4#32 = back.cpu.regs.esp :=
    BitVec.add_sub_cancel _ _
  unfold returnFromHandler
  rw [handlerRet_of_readWord restorer, bind_eq_bind, bind_some]
  unfold trampoline
  rw [if_neg (Ne.symm host.differ), if_pos rfl]
  simp only [Option.pure_def, bind_some]
  unfold handleSigreturn
  rw [if_neg (show ¬ 173#32 = 119#32 by decide), if_pos rfl]
  obtain ⟨resumed, isResumed, cpu, blocked⟩ :=
    @sysRtSigreturn_of_readWords
      { back with cpu := { back.cpu with
          eip := host.rtSigreturn
          regs := { back.cpu.regs with
            eax := 173#32
            esp := back.cpu.regs.esp + 4#32 } } }
      after _
      ((congrArg (fun address => readWords after address 67)
        stack).trans words)
  rw [isResumed]
  rw [setupRtSigframe_mcontext] at cpu
  rw [setupRtSigframe_sigmask] at blocked
  exact ⟨resumed, rfl, ⟨_, rfl, rfl, cpu⟩, blocked⟩

/-- The thread is again as the signal found it. -/
structure Restored (thread resumed : SignalThread) : Prop where
  regs : resumed.cpu.regs = thread.cpu.regs
  eip : resumed.cpu.eip = thread.cpu.eip
  flags :
    ∀ index,
      useFlags.getLsbD index = true →
      resumed.cpu.flag index = thread.cpu.flag index
  blocked : resumed.blocked = thread.blocked

theorem flag_of_readBack
    {thread back resumed : SignalThread}
    {index : Nat}
    (readBack : ReadBack thread back resumed)
    (isUsed : useFlags.getLsbD index = true) :
    resumed.cpu.flag index =
      if index = 0 then decide (back.cpu.cf ≠ 0)
      else if index = 11 then decide (back.cpu.of ≠ 0)
      else thread.cpu.flag index := by
  obtain ⟨entered, sameCf, sameOf, isCpu⟩ := readBack.cpu
  rw [isCpu, flag_restoreSigcontext _ _ isUsed, sameCf, sameOf]
  by_cases isCarry : index = 0
  · rw [if_pos isCarry, if_pos isCarry]
  by_cases isOverflow : index = 11
  · rw [if_neg isCarry, if_neg isCarry, if_pos isOverflow, if_pos isOverflow]
  rw [if_neg isCarry, if_neg isCarry, if_neg isOverflow, if_neg isOverflow]
  exact getLsbD_collapseFlags thread.cpu isUsed isCarry isOverflow

/-- When the frame brings back everything. -/
theorem restored_iff
    {thread back resumed : SignalThread}
    (readBack : ReadBack thread back resumed) :
    Restored thread resumed ↔
      (back.cpu.cf = 0 ↔ thread.cpu.cf = 0) ∧
        (back.cpu.of = 0 ↔ thread.cpu.of = 0) ∧
        thread.blocked &&& unblockableMask = 0 := by
  constructor
  · intro restored
    have carry := restored.flags 0 (by decide)
    rw [flag_of_readBack readBack (by decide)] at carry
    have overflow := restored.flags 11 (by decide)
    rw [flag_of_readBack readBack (by decide)] at overflow
    refine ⟨?_, ?_, ?_⟩
    · exact not_iff_not.mp (decide_eq_decide.mp carry)
    · exact not_iff_not.mp (decide_eq_decide.mp overflow)
    · apply and_not_unblockable_eq_iff.mp
      rw [← readBack.blocked]
      exact restored.blocked
  · rintro ⟨sameCarry, sameOverflow, clean⟩
    obtain ⟨_, _, _, isCpu⟩ := readBack.cpu
    refine ⟨?_, ?_, ?_, ?_⟩
    · rw [isCpu]
      rfl
    · rw [isCpu]
      rfl
    · intro index isUsed
      rw [flag_of_readBack readBack isUsed]
      by_cases isCarry : index = 0
      · rw [if_pos isCarry, isCarry]
        exact decide_eq_decide.mpr (not_iff_not.mpr sameCarry)
      by_cases isOverflow : index = 11
      · rw [if_neg isCarry, if_pos isOverflow, isOverflow]
        exact decide_eq_decide.mpr (not_iff_not.mpr sameOverflow)
      rw [if_neg isCarry, if_neg isOverflow]
    · rw [readBack.blocked]
      exact and_not_unblockable_eq_iff.mpr clean

/-- The frame of a handler that is called stands where its stack begins. -/
theorem framed_of_callHandler
    {host : SignalHost}
    {info : SigInfo}
    {thread started : SignalThread}
    {memory framed : ByteMemory 32}
    {action : SigAction}
    (isAction : thread.hand.read info.sig = some action)
    (called :
      callHandler host info thread memory true = some (started, framed)) :
    framed =
      writeBytes memory started.cpu.regs.esp
        (wordsBytes
          (frameWords host thread.hand action info thread.cpu thread.blocked
            started.cpu.regs.esp)) := by
  unfold callHandler at called
  obtain ⟨control, _, called⟩ := bind_eq_some_iff.mp called
  by_cases notCalled : control ≠ .callHandler
  · rw [if_pos notCalled] at called
    cases called
  rw [if_neg notCalled] at called
  obtain ⟨found, isFound, called⟩ := bind_eq_some_iff.mp called
  rw [isAction] at isFound
  cases isFound
  obtain ⟨blocked, _, called⟩ := bind_eq_some_iff.mp called
  rw [if_neg (show ¬ true = false by decide)] at called
  cases wants : action.needSiginfo with
  | false | true =>
    rw [wants] at called
    cases called
    rfl

/--
A handler is called if its signal asks for that and has a bit; it starts with
the carry and overflow flags of the thread.
-/
theorem exists_callHandler
    {host : SignalHost}
    {info : SigInfo}
    {thread : SignalThread}
    {memory : ByteMemory 32}
    {action : SigAction}
    {blocked : SigSet}
    (calls : signalAction thread.hand info.sig = some .callHandler)
    (isAction : thread.hand.read info.sig = some action)
    (isMask :
      SignalWorld.maskInHandler thread.blocked action info.sig =
        some blocked) :
    ∃ started framed,
      callHandler host info thread memory true = some (started, framed) ∧
        started.cpu.cf = thread.cpu.cf ∧ started.cpu.of = thread.cpu.of := by
  unfold callHandler
  rw [calls, bind_eq_bind, bind_some,
    if_neg (not_not_intro rfl), isAction, bind_eq_bind,
    bind_some, isMask]
  exact ⟨_, _, rfl, rfl, rfl⟩

section

variable
  {host : SignalHost}
  {info : SigInfo}
  {thread started back : SignalThread}
  {memory framed after : ByteMemory 32}
  {action : SigAction}
  (isAction : thread.hand.read info.sig = some action)
  (called :
    callHandler host info thread memory true = some (started, framed))
  (sameStack : back.cpu.regs.esp = started.cpu.regs.esp)
  (unmodified :
    ByteMemory.AgreeOn started.cpu.regs.esp (frameSize action.needSiginfo)
      after framed)
include isAction called sameStack unmodified

/--
A handler that comes back with its stack and its frame as it found them gets
to the system call of its frame.
-/
theorem return_reads_back :
    ∃ resumed,
      returnFromHandler host back after = some resumed ∧
        ReadBack thread back resumed := by
  have size :=
    frameWords_length host thread.hand action info thread.cpu thread.blocked
      started.cpu.regs.esp
  rw [framed_of_callHandler isAction called, ← size, ← sameStack] at unmodified
  have fits :
      4 * (frameWords host thread.hand action info thread.cpu thread.blocked
        back.cpu.regs.esp).length ≤ 2 ^ 32 := by
    rw [sameStack, size]
    cases action.needSiginfo with
    | false => decide
    | true => decide
  have words := readWords_of_unmodified fits unmodified
  rw [← sameStack] at size
  unfold frameWords at size words
  cases wants : action.needSiginfo with
  | false =>
    rw [wants, if_neg Bool.false_ne_true] at words
    exact returnFromHandler_sigframe words
  | true =>
    rw [wants, if_pos rfl] at size
    have count :
        (setupRtSigframe host thread.hand info thread.cpu thread.blocked
          back.cpu.regs.esp).words.length = 67 :=
      Nat.eq_of_mul_eq_mul_left (by decide) size
    rw [wants, if_pos rfl, count] at words
    exact returnFromHandler_rtSigframe words

/--
The handler was called with its frame in memory and comes back with its stack
and its frame as it found them.  Then the system call of its frame brings
back everything exactly if the handler left the carry and overflow flags as
they were at the signal, and the signal found SIGKILL and SIGSTOP unblocked.
-/
theorem return_restores_iff :
    ∃ resumed,
      returnFromHandler host back after = some resumed ∧
        (Restored thread resumed ↔
          (back.cpu.cf = 0 ↔ thread.cpu.cf = 0) ∧
            (back.cpu.of = 0 ↔ thread.cpu.of = 0) ∧
            thread.blocked &&& unblockableMask = 0) := by
  obtain ⟨resumed, isResumed, readBack⟩ :=
    return_reads_back isAction called sameStack unmodified
  exact ⟨resumed, isResumed, restored_iff readBack⟩

end

/-- A thread with clear flags and a handler for every signal. -/
def handledThread : SignalThread where
  cpu := {
    regs := {
      eax := 0, ecx := 0, edx := 0, ebx := 0
      esp := 65536#32, ebp := 0, esi := 0, edi := 0 }
    eip := 8192#32
    eflags := 0
    cf := 0
    of := 0
    res := 0
    op1 := 0
    op2 := 0
    trapno := 0
    segfaultAddr := 0
    pfRes := false
    zfRes := true
    sfRes := false
    afOps := false }
  blocked := 0
  hand := {
    action := fun _ => {
      handler := 4096#32
      flags := 0
      restorer := 0
      mask := 0 }
    altstack := 0
    altstackSize := 0 }

/-- Trampolines at two addresses. -/
def trampolineHost : SignalHost where
  sigreturn := 100#32
  rtSigreturn := 200#32
  differ := by decide
  xsaveExtra := 0
  fxsaveExtra := 0

/-- A handler that does nothing leaves no trace. -/
theorem idle_handler_restores :
    ∃ started framed resumed,
      callHandler trampolineHost { SigInfo.nil with sig := 10 } handledThread
          (fun _ => some 0) true = some (started, framed) ∧
        returnFromHandler trampolineHost started framed = some resumed ∧
          Restored handledThread resumed := by
  let info : SigInfo := { SigInfo.nil with sig := 10 }
  obtain ⟨started, framed, called, sameCf, sameOf⟩ :=
    @exists_callHandler trampolineHost info handledThread (fun _ => some 0)
      (handledThread.hand.action 10) 512#64 (by decide) rfl (by decide)
  obtain ⟨resumed, isResumed, restores⟩ :=
    @return_restores_iff _ _ _ _ started _ _ _ _ rfl called rfl (fun _ _ => rfl)
  refine ⟨started, framed, resumed, called, isResumed, restores.mpr ?_⟩
  rw [sameCf, sameOf]
  exact ⟨Iff.rfl, Iff.rfl, by decide⟩

/-- A handler that sets the carry flag leaves it set. -/
theorem handler_leaves_carry :
    ∃ started framed resumed,
      callHandler trampolineHost { SigInfo.nil with sig := 10 } handledThread
          (fun _ => some 0) true = some (started, framed) ∧
        returnFromHandler trampolineHost
            { started with cpu := { started.cpu with cf := 1 } } framed =
          some resumed ∧
          handledThread.cpu.flag 0 = false ∧
          resumed.cpu.flag 0 = true := by
  let info : SigInfo := { SigInfo.nil with sig := 10 }
  obtain ⟨started, framed, called, _⟩ :=
    @exists_callHandler trampolineHost info handledThread (fun _ => some 0)
      (handledThread.hand.action 10) 512#64 (by decide) rfl (by decide)
  obtain ⟨resumed, isResumed, readBack⟩ :=
    @return_reads_back _ _ _ _
      { started with cpu := { started.cpu with cf := 1 } } _ _ _ _ rfl called
      rfl (fun _ _ => rfl)
  refine ⟨started, framed, resumed, called, isResumed, rfl, ?_⟩
  exact flag_of_readBack readBack (by decide)

end GuestKernel
