import GuestKernel.SeekAgreement
import GuestKernel.TmpfsFiles

namespace GuestKernel
open Option
open OffT SeekOps

/-!
# Runs of seeks, reads and writes

A call is lawful when it leaves an offset that is not negative, moves only when
it succeeds, and a seek goes to its base and offset.  `generic_seek` does not
check the offset of `LSEEK_SET`; `sys__llseek`, `sys_lseek` and `sys_read` move
before they find that they cannot report it.
-/

/-- The offset of a seek, and what it counts from. -/
def SeekCall.target : SeekCall → Option (OffT × Nat)
  | .lseek off whence => some (ofDword off, whence)
  | .llseek offHigh offLow whence _ =>
    some (ofInt (offHigh.toNat * 2 ^ 32 + offLow.toNat), whence)
  | _ => none

/-- The base of a seek and its offset add up to this offset. -/
def SeekFile.Goes
    (env : SeekEnv)
    (file : SeekFile)
    (off : OffT)
    (whence : Nat)
    (target : Int) : Prop :=
  ∃ size base,
    file.size env = .ok size ∧ seekBase file.offset size whence = some base ∧
      target = base + off.val ∧ target ≤ offTMax

/-- A call leaves the offset as it is to. -/
structure SeekCall.Lawful
    (env : SeekEnv)
    (call : SeekCall)
    (file next : SeekFile)
    (answer : SeekAnswer) : Prop where
  nonneg : 0 ≤ next.offset.val
  unchanged : ∀ err, answer = .failed err → next.offset = file.offset
  placed :
    ∀ place, answer = .position place →
      next.offset = place ∧
        ∃ off whence,
          call.target = some (off, whence) ∧
            file.Goes env off whence place.val

/-- The number of bytes that a read of this size moves the offset by. -/
def SeekFile.taken (env : SeekEnv) (file : SeekFile) (size : Nat) : Nat :=
  match file.data with
  | .tmpfs inode =>
    if inode.isDir then 0
    else min size (inode.data.length - file.offset.val.toNat)
  | .proc isDir =>
    match isDir, procPread env size file.offset, env.again with
    | false, .ok count, .ok _ =>
      if file.offset.val + count ≤ offTMax then count else 0
    | _, _, _ => 0

/-- The file is one of `fs/tmp.c`. -/
def SeekFile.IsTmpfs (file : SeekFile) : Prop :=
  ∃ inode, file.data = .tmpfs inode

/--
What a call has to be: no `LSEEK_SET`, `pread` or `pwrite` of a negative offset,
and where the call cannot report that it moved (the result cannot be written,
does not fit, or is negative as an `int_t`) it does not move.
-/
def SeekCall.Safe (env : SeekEnv) (file : SeekFile) : SeekCall → Prop
  | .lseek off whence =>
    ∀ target, file.Goes env (ofDword off) whence target →
      2 ^ 32 ≤ target → target = file.offset.val
  | .llseek offHigh offLow whence faults =>
    ∀ target,
      file.Goes env (ofInt (offHigh.toNat * 2 ^ 32 + offLow.toNat))
        whence target →
        (whence = 0 → 0 ≤ target) ∧
          (faults = true → 0 ≤ target → target = file.offset.val)
  | .read size faults =>
    env.allocates size.toNat = true →
      file.taken env size.toNat = 0 ∨
        file.taken env size.toNat < 2 ^ 31 ∧ faults = false
  | .write _ _ => True
  | .pread size off _ =>
    env.allocates ((size.toNat + 1) % 2 ^ 32) = true →
      file.IsTmpfs → 0 ≤ off.val
  | .pwrite bytes off faults =>
    env.allocates ((bytes.length + 1) % 2 ^ 32) = true →
      faults = false → file.IsTmpfs → 0 ≤ off.val

variable {env : SeekEnv} {offset place : OffT} {file next : SeekFile}
  {count bufsize : Nat} {inode : TmpInode} {bytes : List UInt8}
  {answer result : Except Errno Nat}

theorem SeekFile.Goes.unique
    {off : OffT}
    {whence : Nat}
    {first second : Int}
    (goes : file.Goes env off whence first)
    (alsoGoes : file.Goes env off whence second) :
    first = second := by
  obtain ⟨size, base, isSize, isBase, isFirst, _⟩ := goes
  obtain ⟨other, otherBase, isOther, isOtherBase, isSecond, _⟩ := alsoGoes
  cases isSize.symm.trans isOther
  cases isBase.symm.trans isOtherBase
  exact isFirst.trans isSecond.symm

/-- What the backend answers to a seek. -/
theorem SeekFile.seek_cases
    (env : SeekEnv)
    (file : SeekFile)
    (off : OffT)
    (whence : Nat) :
    (∃ err,
        (generic (file.size env)).seek file.offset off whence =
            .error err ∧
          ∀ target, file.Goes env off whence target →
            target < 0 ∧ whence ≠ 0) ∨
      ∃ place : OffT,
        (generic (file.size env)).seek file.offset off whence =
            .ok place ∧
          file.Goes env off whence place.val ∧
            (0 ≤ place.val ∨ whence = 0) := by
  cases isSize : file.size env with
  | error err =>
    refine .inl ⟨err, rfl, ?_⟩
    rintro target ⟨size, _, isOther, _⟩
    cases isSize.symm.trans isOther
  | ok size =>
    by_cases isSet : whence = 0
    · subst isSet
      exact .inr ⟨off, rfl,
        ⟨size, 0, isSize, rfl, (Int.zero_add _).symm, off.property.2⟩,
        .inr rfl⟩
    · cases isBase : seekBase file.offset size whence with
      | none =>
        have noBase :
            (generic (.ok size)).base file.offset whence =
              .error .inval := by
          simp only [SeekOps.base, isBase]
        refine .inl ⟨.inval, seek_of_base_error noBase off, ?_⟩
        rintro target ⟨other, base, isOther, isOtherBase, _⟩
        cases isSize.symm.trans isOther
        cases isBase.symm.trans isOtherBase
      | some base =>
        obtain ⟨moves, refuses⟩ := @genericSeek_eq _ off _ _ _ isBase isSet
        by_cases inRange :
            0 ≤ base + off.val ∧ base + off.val ≤ offTMax
        · have isMax := offTMax_eq
          have fits : IsOffT (base + off.val) := ⟨by omega, inRange.2⟩
          exact .inr ⟨⟨_, fits⟩,
            (moves ⟨_, fits⟩).mpr ⟨inRange.1, rfl⟩,
            ⟨size, base, isSize, isBase, rfl, inRange.2⟩,
            .inl inRange.1⟩
        · refine .inl ⟨.inval, refuses inRange, ?_⟩
          rintro target ⟨other, otherBase, isOther, isOtherBase, isTarget,
            bounded⟩
          cases isSize.symm.trans isOther
          cases isBase.symm.trans isOtherBase
          exact ⟨by omega, isSet⟩

section Calls

variable
  {env : SeekEnv}
  {file next : SeekFile}
  {answer : SeekAnswer}

variable {call : SeekCall} {whence : Nat}

theorem SeekCall.Lawful.failed
    {err : SeekError}
    (positive : 0 ≤ file.offset.val)
    (same : next.offset = file.offset) :
    call.Lawful env file next (.failed err) where
  nonneg := by
    rw [same]
    exact positive
  unchanged _ _ := same
  placed _ impossible := by cases impossible

theorem SeekCall.Lawful.failed_iff
    {err : SeekError}
    (positive : 0 ≤ file.offset.val) :
    call.Lawful env file next (.failed err) ↔ next.offset = file.offset :=
  ⟨fun lawful => lawful.unchanged err rfl, .failed positive⟩

theorem SeekCall.Lawful.counted
    {count : Nat}
    (positive : 0 ≤ next.offset.val) :
    call.Lawful env file next (.count count) where
  nonneg := positive
  unchanged _ impossible := by cases impossible
  placed _ impossible := by cases impossible

theorem SeekCall.Lawful.landed
    {off place : OffT}
    (isTarget : call.target = some (off, whence))
    (goes : file.Goes env off whence place.val)
    (low : 0 ≤ place.val)
    (same : next.offset = place) :
    call.Lawful env file next (.position place) where
  nonneg := by
    rw [same]
    exact low
  unchanged _ impossible := by cases impossible
  placed other isPlace := by
    cases isPlace
    exact ⟨same, off, whence, isTarget, goes⟩

/-- `sys__llseek` is lawful exactly when it is safe. -/
theorem llseek_lawful_iff
    {offHigh offLow : BitVec 32}
    {faults : Bool}
    (positive : 0 ≤ file.offset.val)
    (ran :
      (SeekCall.llseek offHigh offLow whence faults).run env file =
        some (answer, next)) :
    (SeekCall.llseek offHigh offLow whence faults).Lawful env file next
        answer ↔
      (SeekCall.llseek offHigh offLow whence faults).Safe env file := by
  have ran := some.inj ran
  simp only [sysLlseek, SeekFile.fd] at ran
  rcases file.seek_cases env
      (ofInt (offHigh.toNat * 2 ^ 32 + offLow.toNat)) whence with
    ⟨err, refused, goesBelow⟩ | ⟨place, landed, goes, kind⟩
  · simp only [refused, SeekOps.moved] at ran
    cases ran
    refine iff_of_true (.failed positive rfl) ?_
    intro target goes
    obtain ⟨below, notSet⟩ := goesBelow target goes
    exact ⟨fun isSet => absurd isSet notSet, fun _ low => by omega⟩
  · simp only [landed, SeekOps.moved] at ran
    by_cases negative : place.val < 0
    · simp only [if_pos negative] at ran
      cases ran
      refine iff_of_false (fun lawful => ?_) (fun safe => ?_)
      · have nonneg := lawful.nonneg
        simp only at nonneg
        omega
      · have low := (safe place.val goes).1 (kind.resolve_left (by omega))
        omega
    · simp only [if_neg negative] at ran
      cases faults with
      | true =>
        cases ran
        refine (SeekCall.Lawful.failed_iff positive).trans ?_
        constructor
        · intro same target alsoGoes
          have isPlace := goes.unique alsoGoes
          have stays : place = file.offset := same
          exact ⟨fun _ => by omega, fun _ _ => by rw [← isPlace, stays]⟩
        · intro safe
          exact Subtype.ext ((safe place.val goes).2 rfl (by omega))
      | false =>
        cases ran
        refine iff_of_true
          (.landed rfl goes (Int.not_lt.mp negative) rfl) ?_
        intro target alsoGoes
        have isPlace := goes.unique alsoGoes
        exact ⟨fun _ => by omega, fun impossible => by cases impossible⟩

/-- `sys_lseek` is lawful exactly when it is safe. -/
theorem lseek_lawful_iff
    {off : BitVec 32}
    (positive : 0 ≤ file.offset.val)
    (ran :
      (SeekCall.lseek off whence).run env file = some (answer, next)) :
    (SeekCall.lseek off whence).Lawful env file next answer ↔
      (SeekCall.lseek off whence).Safe env file := by
  have ran := some.inj ran
  simp only [sysLseek, SeekFile.fd] at ran
  rcases file.seek_cases env (ofDword off) whence with
    ⟨err, refused, goesBelow⟩ | ⟨place, landed, goes, kind⟩
  · simp only [refused, SeekOps.moved] at ran
    cases ran
    refine iff_of_true (.failed positive rfl) ?_
    intro target goes large
    have below := (goesBelow target goes).1
    omega
  · simp only [landed, SeekOps.moved] at ran
    have low : 0 ≤ place.val := by
      rcases kind with low | isSet
      · exact low
      · subst isSet
        obtain ⟨_, _, _, isBase, isPlace, _⟩ := goes
        cases isBase
        have isOff : (ofDword off).val = off.toNat := rfl
        omega
    by_cases fits : place.val < 2 ^ 32
    · simp only [if_pos (And.intro low fits)] at ran
      cases ran
      refine iff_of_true (.landed rfl goes low rfl) ?_
      intro target alsoGoes large
      have isPlace := goes.unique alsoGoes
      omega
    · simp only [if_neg (fun both : 0 ≤ place.val ∧ place.val < 2 ^ 32 =>
        fits both.2)] at ran
      cases ran
      refine (SeekCall.Lawful.failed_iff positive).trans ?_
      constructor
      · intro same target alsoGoes _
        have isPlace := goes.unique alsoGoes
        have stays : place = file.offset := same
        rw [← isPlace, stays]
      · intro safe
        exact Subtype.ext (safe place.val goes (by omega))

end Calls

theorem OffT.toSizeT_of_nonneg
    (positive : 0 ≤ offset.val) :
    offset.toSizeT = offset.val.toNat := by
  have high := offset.property.2
  have isMax := offTMax_eq
  rw [toSizeT, Int.emod_eq_of_lt positive (by omega)]

private theorem OffT.forward
    {length : Nat}
    (positive : 0 ≤ offset.val)
    (bounded : (length : Int) ≤ offTMax)
    (inside : inData offset count length = true) :
    (ofInt (offset.val + count)).val = offset.val + count ∧
      count ≤ length - offset.val.toNat := by
  have isMax := offTMax_eq
  have high := offset.property.2
  have kinds : count = 0 ∨ offset.val + count ≤ length := by
    simpa [inData, positive] using inside
  refine ⟨ofInt_val ⟨?_, ?_⟩, ?_⟩ <;> omega

theorem tmpfsRead_cases
    {answer : Except Errno (List UInt8)}
    (positive : 0 ≤ offset.val)
    (ran : tmpfsRead inode offset bufsize = some (answer, place)) :
    (inode.isDir = true ∧ answer = .error .isdir ∧ place = offset) ∨
      inode.isDir = false ∧
        ∃ bytes,
          answer = .ok bytes ∧
            bytes.length =
              min bufsize (inode.data.length - offset.val.toNat) ∧
              place.val = offset.val + bytes.length := by
  have isMax := offTMax_eq
  have offsetHigh := offset.property.2
  have sizeHigh := inode.fits
  unfold tmpfsRead at ran
  cases isDir : inode.isDir with
  | true =>
    rw [if_pos isDir] at ran
    cases ran
    exact .inl ⟨rfl, rfl, rfl⟩
  | false =>
    rw [if_neg (by simp [isDir]), toSizeT_of_nonneg positive] at ran
    simp only at ran
    -- the count is what is left, also where that wraps
    generalize isCount :
      (if
            (inode.data.length + (2 ^ 64 - offset.val.toNat)) % 2 ^ 64 <
              bufsize then
          if inode.data.length ≤ offset.val.toNat then 0
          else (inode.data.length + (2 ^ 64 - offset.val.toNat)) % 2 ^ 64
        else
          bufsize) = count at ran
    have asked :
        count = bufsize ∨
          count = inode.data.length - offset.val.toNat ∧
            inode.data.length - offset.val.toNat < bufsize := by
      split at isCount
      · split at isCount <;> omega
      · exact .inl isCount.symm
    cases inside : inData offset count inode.data.length with
    | false =>
      simp [inside] at ran
    | true =>
      rw [if_pos inside] at ran
      cases ran
      obtain ⟨isPlace, room⟩ := OffT.forward positive sizeHigh inside
      refine .inr ⟨rfl, _, rfl, ?_⟩
      rw [List.length_take, List.length_drop]
      exact ⟨by omega, by rw [isPlace]; omega⟩

private theorem tmpfsCopy_cases
    {after : TmpInode}
    (ran : tmpfsCopy inode offset bytes = some (answer, after, place)) :
    answer = .ok bytes.length ∧ place.val = offset.val + bytes.length := by
  have isMax := offTMax_eq
  have sizeHigh := inode.fits
  unfold tmpfsCopy at ran
  by_cases empty : bytes = []
  · subst empty
    cases ran
    exact ⟨rfl, (ofInt_val offset.property).trans (Int.add_zero _).symm⟩
  · rw [if_neg empty] at ran
    split at ran
    · rename_i inside
      cases ran
      exact ⟨rfl, ofInt_val ⟨by omega, by omega⟩⟩
    · cases ran

theorem tmpfsWrite_cases
    {after : TmpInode}
    (ran : tmpfsWrite env inode offset bytes = some (answer, after, place)) :
    (∃ err, answer = .error err ∧ place = offset) ∨
      answer = .ok bytes.length ∧
        place.val = offset.val + bytes.length := by
  unfold tmpfsWrite at ran
  cases isDir : inode.isDir with
  | true =>
    rw [if_pos isDir] at ran
    cases ran
    exact .inl ⟨.isdir, rfl, rfl⟩
  | false =>
    rw [if_neg (by simp [isDir])] at ran
    simp only at ran
    split at ran
    · split at ran
      · cases ran
        exact .inl ⟨.nomem, rfl, rfl⟩
      · exact .inr (tmpfsCopy_cases ran)
    · exact .inr (tmpfsCopy_cases ran)

/-- `proc_pread` gives no more than what is asked for. -/
theorem procPread_le
    (found : procPread env bufsize offset = .ok count) :
    count ≤ bufsize := by
  unfold procPread at found
  cases isPread : env.pread with
  | some answer =>
    cases answer with
    | error err =>
      simp [isPread, Except.map] at found
    | ok count =>
      simp only [isPread, Except.map, Except.ok.injEq] at found
      omega
  | none =>
    cases refreshed : env.refresh with
    | error err =>
      simp [isPread, refreshed, Except.map] at found
    | ok size =>
      simp only [isPread, refreshed, Except.map, Except.ok.injEq] at found
      subst found
      split <;> split <;> omega

/-- `proc_pwrite` takes no more than it is given. -/
theorem procPwrite_le
    {isDir : Bool}
    (found : procPwrite env isDir bufsize = .ok count) :
    count ≤ bufsize := by
  unfold procPwrite at found
  split at found
  · cases found
  · cases isPwrite : env.pwrite with
    | some answer =>
      cases answer with
      | error err =>
        simp [isPwrite, Except.map] at found
      | ok count =>
        simp only [isPwrite, Except.map, Except.ok.injEq] at found
        omega
    | none =>
      simp only [isPwrite] at found
      split at found
      · cases found
        exact Nat.le_refl _
      · cases found

/-- The seek after a transfer of `fs/proc.c` goes forward or not at all. -/
theorem SeekFile.advance_offset
    (env : SeekEnv)
    (file : SeekFile)
    (positive : 0 ≤ file.offset.val)
    (bounded : (count : Int) ≤ offTMax) :
    (file.advance env count).offset.val =
      file.offset.val +
        (match env.again with
          | .ok _ => if file.offset.val + count ≤ offTMax then count else 0
          | .error _ => 0 : Nat) := by
  have isMax := offTMax_eq
  unfold advance
  split
  · have isCount : (ofInt count).val = count :=
      ofInt_val ⟨by omega, bounded⟩
    cases env.again with
    | error err =>
      exact (Int.add_zero _).symm
    | ok size =>
      obtain ⟨moves, refuses⟩ :=
        @genericSeek_eq file.offset (ofInt count) 1 size _ rfl
          (by decide)
      rw [isCount] at moves refuses
      simp only [SeekOps.moved, seek]
      by_cases fits : file.offset.val + count ≤ offTMax
      · rw [if_pos fits]
        have lands :=
          (moves ⟨file.offset.val + count, by omega, fits⟩).mpr
            ⟨by simp only; omega, rfl⟩
        rw [lands]
      · rw [if_neg fits, refuses (fun both => fits both.2)]
        exact (Int.add_zero _).symm
  · have isZero : count = 0 := by omega
    subst isZero
    cases env.again with
    | error err =>
      exact (Int.add_zero _).symm
    | ok size =>
      simp

theorem SeekFile.readBuf_cases
    {size : Nat}
    (positive : 0 ≤ file.offset.val)
    (bounded : (size : Int) ≤ offTMax)
    (ran : file.readBuf env size = some (result, next)) :
    next.offset.val = file.offset.val + file.taken env size ∧
      ((∃ err, result = .error err ∧ file.taken env size = 0) ∨
        ∃ count,
          result = .ok count ∧
            (file.taken env size = 0 ∨ file.taken env size = count)) := by
  obtain ⟨data, offset⟩ := file
  cases data with
  | tmpfs inode =>
    cases isDir : inode.isDir with
    | true =>
      simp only [readBuf, SeekData.isDir, isDir, if_true,
        some.injEq, Prod.mk.injEq] at ran
      obtain ⟨rfl, rfl⟩ := ran
      simp [taken, isDir]
    | false =>
      simp only [readBuf, SeekData.isDir, isDir, Bool.false_eq_true,
        if_false, map_eq_some_iff] at ran
      obtain ⟨⟨answer, place⟩, read, isNext⟩ := ran
      cases isNext
      rcases tmpfsRead_cases positive read with
        ⟨impossible, _⟩ | ⟨_, bytes, rfl, count, isPlace⟩
      · rw [isDir] at impossible
        cases impossible
      · have same :
            taken env ⟨.tmpfs inode, offset⟩ size = bytes.length := by
          simp only [taken, isDir, Bool.false_eq_true, if_false]
          exact count.symm
        rw [same]
        exact ⟨isPlace, .inr ⟨_, rfl, .inr rfl⟩⟩
  | proc isDir =>
    cases isDir with
    | true =>
      simp only [readBuf, SeekData.isDir, if_true, some.injEq,
        Prod.mk.injEq] at ran
      obtain ⟨rfl, rfl⟩ := ran
      simp [taken]
    | false =>
      simp only [readBuf, SeekData.isDir, Bool.false_eq_true,
        if_false] at ran
      cases found : procPread env size offset with
      | error err =>
        simp only [found, some.injEq, Prod.mk.injEq] at ran
        obtain ⟨rfl, rfl⟩ := ran
        simp [taken, found]
      | ok count =>
        simp only [found, some.injEq, Prod.mk.injEq] at ran
        obtain ⟨rfl, rfl⟩ := ran
        have few := procPread_le found
        have moved :=
          advance_offset env ⟨.proc false, offset⟩ positive
            (show (count : Int) ≤ offTMax by omega)
        cases again : env.again with
        | error err =>
          simp only [again] at moved
          simp [taken, found, again, moved]
        | ok size =>
          simp only [again] at moved
          refine ⟨?_, .inr ⟨count, rfl, ?_⟩⟩
          · simp only [taken, found, again]
            exact moved
          · simp only [taken, found, again]
            split
            · exact .inr rfl
            · exact .inl rfl

theorem SeekFile.writeBuf_cases
    (positive : 0 ≤ file.offset.val)
    (bounded : (bytes.length : Int) ≤ offTMax)
    (ran : file.writeBuf env bytes = some (result, next)) :
    (∃ err, result = .error err ∧ next.offset = file.offset) ∨
      ∃ count, result = .ok count ∧ 0 ≤ next.offset.val := by
  obtain ⟨data, offset⟩ := file
  cases data with
  | tmpfs inode =>
    simp only [writeBuf, map_eq_some_iff] at ran
    obtain ⟨⟨answer, after, place⟩, wrote, isNext⟩ := ran
    cases isNext
    rcases tmpfsWrite_cases wrote with
      ⟨err, rfl, rfl⟩ | ⟨rfl, isPlace⟩
    · exact .inl ⟨err, rfl, rfl⟩
    · simp only at positive isPlace
      exact .inr ⟨_, rfl, by simp only; omega⟩
  | proc isDir =>
    simp only [writeBuf] at ran
    cases found : procPwrite env isDir bytes.length with
    | error err =>
      simp only [found, some.injEq, Prod.mk.injEq] at ran
      obtain ⟨rfl, rfl⟩ := ran
      exact .inl ⟨err, rfl, rfl⟩
    | ok count =>
      simp only [found, some.injEq, Prod.mk.injEq] at ran
      obtain ⟨rfl, rfl⟩ := ran
      have few := procPwrite_le found
      have moved :=
        advance_offset env ⟨.proc isDir, offset⟩ positive
          (show (count : Int) ≤ offTMax by omega)
      refine .inr ⟨count, rfl, ?_⟩
      rw [moved]
      exact Int.add_nonneg positive (Int.natCast_nonneg _)

section Calls

variable
  {env : SeekEnv}
  {file next : SeekFile}
  {answer : SeekAnswer}

variable {faults : Bool} {off : OffT} {bytes : List UInt8}
  {transfer : SeekFile → Option (Except Errno Nat × SeekFile)}

/-- `sys_read` is lawful exactly when it is safe. -/
theorem read_lawful_iff
    {size : BitVec 32}
    (positive : 0 ≤ file.offset.val)
    (ran : (SeekCall.read size faults).run env file = some (answer, next)) :
    (SeekCall.read size faults).Lawful env file next answer ↔
      (SeekCall.read size faults).Safe env file := by
  simp only [SeekCall.run] at ran
  cases allocated : env.allocates size.toNat with
  | false =>
    simp only [allocated, Bool.false_eq_true, if_false, some.injEq,
      Prod.mk.injEq] at ran
    obtain ⟨rfl, rfl⟩ := ran
    refine iff_of_true (.failed positive rfl) fun impossible => ?_
    rw [allocated] at impossible
    cases impossible
  | true =>
    simp only [allocated, if_true, map_eq_some_iff] at ran
    obtain ⟨⟨result, after⟩, read, isNext⟩ := ran
    cases isNext
    obtain ⟨isPlace, kinds⟩ :=
      SeekFile.readBuf_cases positive (env.bounded _ allocated) read
    have stays :
        after.offset = file.offset ↔ file.taken env size.toNat = 0 := by
      rw [Subtype.ext_iff]
      omega
    have safe_iff :
        (SeekCall.read size faults).Safe env file ↔
          file.taken env size.toNat = 0 ∨
            file.taken env size.toNat < 2 ^ 31 ∧ faults = false :=
      ⟨fun safe => safe allocated, fun safe _ => safe⟩
    rw [safe_iff]
    rcases kinds with ⟨err, rfl, none⟩ | ⟨count, rfl, kinds⟩
    · exact iff_of_true (.failed positive (stays.mpr none)) (.inl none)
    · simp only [readAnswer]
      by_cases huge : 2 ^ 31 ≤ count
      · rw [if_pos huge]
        refine (SeekCall.Lawful.failed_iff positive).trans (stays.trans ?_)
        constructor
        · exact Or.inl
        · rintro (none | ⟨few, _⟩)
          · exact none
          · omega
      · rw [if_neg huge]
        cases faulted : faults && decide (0 < count) with
        | true =>
          obtain ⟨rfl, _⟩ := Bool.and_eq_true_iff.mp faulted
          simp only [copiedOut, faulted, if_true]
          refine
            (SeekCall.Lawful.failed_iff positive).trans (stays.trans ?_)
          simp
        | false =>
          simp only [copiedOut, faulted, Bool.false_eq_true, if_false]
          refine iff_of_true (.counted (by omega)) ?_
          cases faults with
          | false =>
            exact .inr ⟨by omega, rfl⟩
          | true =>
            simp only [Bool.true_and, decide_eq_false_iff_not] at faulted
            exact .inl (by omega)

theorem write_lawful
    (positive : 0 ≤ file.offset.val)
    (ran : (SeekCall.write bytes faults).run env file = some (answer, next)) :
    (SeekCall.write bytes faults).Lawful env file next answer := by
  simp only [SeekCall.run] at ran
  cases allocated : env.allocates bytes.length with
  | false =>
    simp only [allocated, Bool.not_false, if_true, some.injEq,
      Prod.mk.injEq] at ran
    obtain ⟨rfl, rfl⟩ := ran
    exact .failed positive rfl
  | true =>
    simp only [allocated, Bool.not_true, Bool.false_eq_true, if_false] at ran
    cases faults with
    | true =>
      cases ran
      exact .failed positive rfl
    | false =>
      simp only [Bool.false_eq_true, if_false,
        map_eq_some_iff] at ran
      obtain ⟨⟨result, after⟩, wrote, isNext⟩ := ran
      cases isNext
      rcases SeekFile.writeBuf_cases positive (env.bounded _ allocated)
          wrote with
        ⟨err, rfl, same⟩ | ⟨count, rfl, low⟩
      · exact .failed positive same
      · exact .counted low

/-- A transfer at another offset comes back to the one before it. -/
theorem SeekFile.around_cases
    {result : Except SeekError Nat}
    (positive : 0 ≤ file.offset.val)
    (ran : file.around env off transfer = some (result, next)) :
    (off.val < 0 ∧ result = .error (.negative off) ∧ next.offset = off) ∨
      0 ≤ off.val ∧ next.offset = file.offset := by
  unfold around at ran
  by_cases negative : off.val < 0
  · rw [if_pos negative] at ran
    cases ran
    exact .inl ⟨negative, rfl, rfl⟩
  · refine .inr ⟨Int.not_lt.mp negative, ?_⟩
    rw [if_neg negative] at ran
    cases isSize : file.size env with
    | error err =>
      simp [isSize, seek] at ran
    | ok size =>
      have stays :
          (generic (.ok size)).seek file.offset ⟨0, isOffT_zero⟩ 1 =
            .ok file.offset :=
        ((@genericSeek_eq file.offset ⟨0, isOffT_zero⟩ 1 size _ rfl
          (by decide)).1 file.offset).mpr
            ⟨positive, (Int.add_zero _).symm⟩
      simp only [isSize, stays, map_eq_some_iff] at ran
      obtain ⟨after, _, isNext⟩ := ran
      cases isNext
      rfl

/-- A transfer at another offset is lawful exactly if that is not negative. -/
private theorem around_lawful_iff
    {call : SeekCall}
    {ending : Except SeekError Nat → SeekAnswer}
    (positive : 0 ≤ file.offset.val)
    (fails : ∀ err, ending (.error err) = .failed err)
    (answers :
      ∀ result,
        (∃ err, ending result = .failed err) ∨
          ∃ count, ending result = .count count)
    (ran :
      ((file.around env off transfer).map fun answer =>
        (ending answer.1, answer.2)) = some (answer, next)) :
    call.Lawful env file next answer ↔ 0 ≤ off.val := by
  rw [map_eq_some_iff] at ran
  obtain ⟨⟨result, after⟩, around, isNext⟩ := ran
  cases isNext
  rcases SeekFile.around_cases positive around with
    ⟨negative, rfl, same⟩ | ⟨low, same⟩
  · rw [fails]
    refine (SeekCall.Lawful.failed_iff positive).trans ?_
    rw [same, Subtype.ext_iff]
    constructor <;> intro <;> omega
  · refine iff_of_true ?_ low
    rcases answers result with ⟨err, isAnswer⟩ | ⟨count, isAnswer⟩
    · rw [isAnswer]
      exact .failed positive same
    · rw [isAnswer]
      exact .counted (by rw [same]; exact positive)

private theorem copiedOut_cases
    (count : Nat)
    (faults : Bool) :
    (∃ err, copiedOut count faults = .failed err) ∨
      ∃ given, copiedOut count faults = .count given := by
  unfold copiedOut
  split
  · exact .inl ⟨_, rfl⟩
  · exact .inr ⟨_, rfl⟩

/-- `sys_pread` is lawful exactly when it is safe. -/
theorem pread_lawful_iff
    {size : BitVec 32}
    (positive : 0 ≤ file.offset.val)
    (ran :
      (SeekCall.pread size off faults).run env file = some (answer, next)) :
    (SeekCall.pread size off faults).Lawful env file next answer ↔
      (SeekCall.pread size off faults).Safe env file := by
  simp only [SeekCall.run] at ran
  cases allocated : env.allocates ((size.toNat + 1) % 2 ^ 32) with
  | false =>
    simp only [allocated, Bool.not_false, if_true, some.injEq,
      Prod.mk.injEq] at ran
    obtain ⟨rfl, rfl⟩ := ran
    refine iff_of_true (.failed positive rfl) fun impossible => ?_
    rw [allocated] at impossible
    cases impossible
  | true =>
    simp only [allocated, Bool.not_true, Bool.false_eq_true, if_false] at ran
    cases isData : file.data with
    | proc isDir =>
      simp only [isData] at ran
      refine iff_of_true ?_ fun _ isTmpfs => ?_
      · cases found : procPread env size.toNat off with
        | error err =>
          simp only [found] at ran
          cases ran
          exact .failed positive rfl
        | ok count =>
          simp only [found] at ran
          cases ran
          rcases copiedOut_cases count faults with
            ⟨err, isAnswer⟩ | ⟨given, isAnswer⟩
          · simp only [Except.mapError, preadAnswer, isAnswer]
            exact .failed positive rfl
          · simp only [Except.mapError, preadAnswer, isAnswer]
            exact .counted positive
      · obtain ⟨inode, isTmpfs⟩ := isTmpfs
        cases isData.symm.trans isTmpfs
    | tmpfs inode =>
      simp only [isData] at ran
      refine
        (@around_lawful_iff _ _ _ _ _ _ _
          (fun result => preadAnswer result faults) positive
          (fun _ => rfl) (fun result => ?_) ran).trans
          ⟨fun low _ _ => low, fun safe => safe allocated ⟨inode, isData⟩⟩
      cases result with
      | error err =>
        exact .inl ⟨err, rfl⟩
      | ok count =>
        exact copiedOut_cases count faults

/-- `sys_pwrite` is lawful exactly when it is safe. -/
theorem pwrite_lawful_iff
    (positive : 0 ≤ file.offset.val)
    (ran :
      (SeekCall.pwrite bytes off faults).run env file = some (answer, next)) :
    (SeekCall.pwrite bytes off faults).Lawful env file next answer ↔
      (SeekCall.pwrite bytes off faults).Safe env file := by
  simp only [SeekCall.run] at ran
  cases allocated : env.allocates ((bytes.length + 1) % 2 ^ 32) with
  | false =>
    simp only [allocated, Bool.not_false, if_true, some.injEq,
      Prod.mk.injEq] at ran
    obtain ⟨rfl, rfl⟩ := ran
    refine iff_of_true (.failed positive rfl) fun impossible => ?_
    rw [allocated] at impossible
    cases impossible
  | true =>
    simp only [allocated, Bool.not_true, Bool.false_eq_true, if_false] at ran
    cases faults with
    | true =>
      cases ran
      exact iff_of_true (.failed positive rfl)
        fun _ impossible => by cases impossible
    | false =>
      simp only [Bool.false_eq_true, if_false] at ran
      cases isData : file.data with
      | proc isDir =>
        simp only [isData] at ran
        refine iff_of_true ?_ fun _ _ isTmpfs => ?_
        · cases found : procPwrite env isDir bytes.length with
          | error err =>
            simp only [found] at ran
            cases ran
            exact .failed positive rfl
          | ok count =>
            simp only [found] at ran
            cases ran
            exact .counted positive
        · obtain ⟨inode, isTmpfs⟩ := isTmpfs
          cases isData.symm.trans isTmpfs
      | tmpfs inode =>
        simp only [isData] at ran
        refine
          (around_lawful_iff positive (fun _ => rfl) (fun result => ?_)
            ran).trans
            ⟨fun low _ _ _ => low,
              fun safe => safe allocated rfl ⟨inode, isData⟩⟩
        cases result with
        | error err =>
          exact .inl ⟨err, rfl⟩
        | ok count =>
          exact .inr ⟨count, rfl⟩

/-- A call at an offset that is not negative is lawful exactly when safe. -/
theorem SeekCall.lawful_iff_safe
    {call : SeekCall}
    (positive : 0 ≤ file.offset.val)
    (ran : call.run env file = some (answer, next)) :
    call.Lawful env file next answer ↔ call.Safe env file := by
  cases call with
  | lseek off whence =>
    exact lseek_lawful_iff positive ran
  | llseek offHigh offLow whence faults =>
    exact llseek_lawful_iff positive ran
  | read size faults =>
    exact read_lawful_iff positive ran
  | write bytes faults =>
    exact iff_of_true (write_lawful positive ran) trivial
  | pread size off faults =>
    exact pread_lawful_iff positive ran
  | pwrite bytes off faults =>
    exact pwrite_lawful_iff positive ran

end Calls

/-- A call on the descriptor, or a change of the file by another one. -/
inductive SeekAction where
  | made (env : SeekEnv) (call : SeekCall)
  | changed (data : SeekData)

/-- A step of a descriptor that uses `generic_seek`. -/
inductive SeekStep : SeekFile → SeekAction → SeekFile → Prop where
  | made
      {env : SeekEnv}
      {call : SeekCall}
      {file next : SeekFile}
      {answer : SeekAnswer} :
      call.run env file = some (answer, next) →
      SeekStep file (.made env call) next
  | changed {file : SeekFile} {data : SeekData} :
      SeekStep file (.changed data) { file with data }

/-- A descriptor from the `open` that makes it. -/
def seekMachine : Machine SeekFile SeekAction where
  initial file := file.offset.val = 0
  step := SeekStep

/-- The calls that are safe where they are made. -/
def SeekAction.Safe (file : SeekFile) : SeekAction → Prop
  | .made env call => SeekCall.Safe env file call
  | .changed _ => True

theorem SeekStep.nonneg
    {action : SeekAction}
    (positive : 0 ≤ file.offset.val)
    (safe : action.Safe file)
    (step : SeekStep file action next) :
    0 ≤ next.offset.val := by
  cases step with
  | made ran =>
    exact ((SeekCall.lawful_iff_safe positive ran).mpr safe).nonneg
  | changed =>
    exact positive

/--
In a run of safe calls the offset is never negative, and the next call is lawful
exactly when it is safe too.
-/
theorem seeks_are_lawful_iff
    {file : SeekFile}
    (reachable : (seekMachine.restrict SeekAction.Safe).Reachable file) :
    0 ≤ file.offset.val ∧
      ∀ env call answer next,
        SeekCall.run env file call = some (answer, next) →
        (call.Lawful env file next answer ↔ call.Safe env file) := by
  have positive : 0 ≤ file.offset.val := by
    refine
      Machine.Reachable.invariant
        (motive := fun file : SeekFile => 0 ≤ file.offset.val)
        (fun isInitial => Int.le_of_eq (Eq.symm isInitial)) ?_ reachable
    intro state action next kept step
    exact SeekStep.nonneg kept step.1 step.2
  exact ⟨positive, fun _ _ _ _ ran => SeekCall.lawful_iff_safe positive ran⟩

/-- An empty file of `fs/tmp.c`, just opened. -/
def emptySeekFile : SeekFile where
  data := .tmpfs ⟨false, [], by decide⟩
  offset := ⟨0, isOffT_zero⟩

/-- A host without memory. -/
def bareEnv : SeekEnv where
  allocates _ := false
  bounded _ impossible := by cases impossible
  refresh := .error .nomem
  again := .error .nomem
  pread := none
  pwrite := none
  updates := false

/-- The same file after a seek to the sixth byte. -/
def movedSeekFile : SeekFile :=
  { emptySeekFile with offset := ⟨5, by decide⟩ }

/-- After that seek, too, each call is lawful exactly when it is safe. -/
theorem moved_seeks_are_lawful_iff :
    0 ≤ movedSeekFile.offset.val ∧
      ∀ env call answer next,
        SeekCall.run env movedSeekFile call = some (answer, next) →
        (call.Lawful env movedSeekFile next answer ↔
          call.Safe env movedSeekFile) := by
  have ran :
      (SeekCall.lseek 5 0).run bareEnv emptySeekFile =
        some (.position ⟨5, by decide⟩, movedSeekFile) := by
    rfl
  refine seeks_are_lawful_iff
    (.step (.initial (show emptySeekFile.offset.val = 0 from rfl))
      ⟨?_, SeekStep.made ran⟩)
  rintro target ⟨_, base, _, isBase, rfl, _⟩ beyond
  cases isBase
  exact absurd beyond (by decide)

/-- `_llseek` with `LSEEK_SET` and −1 leaves the offset at −1. -/
theorem llseek_leaves_negative_offset :
    ¬∀ file, seekMachine.Reachable file → 0 ≤ file.offset.val := by
  intro positive
  have isNegative :
      ofInt
          ((0xffffffff : BitVec 32).toNat * 2 ^ 32 +
            (0xffffffff : BitVec 32).toNat) = ⟨-1, by decide⟩ :=
    Subtype.ext (by decide)
  have ran :
      (SeekCall.llseek 0xffffffff 0xffffffff 0 false).run bareEnv
          emptySeekFile =
        some
          (.failed (.negative ⟨-1, by decide⟩),
            { emptySeekFile with offset := ⟨-1, by decide⟩ }) := by
    simp only [SeekCall.run, sysLlseek, SeekFile.fd, isNegative]
    rfl
  have reached :=
    positive _
      (.step (.initial (show emptySeekFile.offset.val = 0 from rfl))
        (SeekStep.made ran))
  exact absurd reached (by decide)

end GuestKernel
