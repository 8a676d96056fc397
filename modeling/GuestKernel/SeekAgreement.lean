import GuestKernel.SeekCalls

namespace GuestKernel
open OffT SeekOutcome

/-!
# The two seek calls

`sys_lseek` against `sys__llseek` with the sign of the offset extended.  It
extends the offset with zeroes instead, and cannot tell an error code from a
position that does not fit.
-/

/-- The high half of an offset of 32 bits with its sign extended. -/
def signHigh (off : BitVec 32) : BitVec 32 :=
  if off.msb then BitVec.allOnes 32 else 0#32

/--
The narrow call leaves the descriptor as the wide one does and returns the same
position or error, or refuses a position that is too large and does not move.
-/
def SeekAgrees
    (fd : Option SeekFd) (off : BitVec 32) (whence : Nat) : Prop :=
  let wide := sysLlseek fd (signHigh off) off whence false
  match wide.result with
  | .error err => sysLseek fd off whence = ⟨.error err, wide.fd⟩
  | .ok position =>
    if position.val < 2 ^ 32 then
      sysLseek fd off whence = ⟨.ok position, wide.fd⟩
    else
      sysLseek fd off whence = ⟨.error (.code .overflow), fd⟩

/--
What an offset counts from, or the error that does not depend on it.
-/
def SeekOps.base
    (ops : SeekOps) (offset : OffT) (whence : Nat) : Except Errno Int :=
  match ops with
  | .generic (.error err) => .error err
  | .generic (.ok size) =>
    match seekBase offset size whence with
    | none => .error .inval
    | some base => .ok base
  | .host isDir seekable size =>
    if isDir ∧ whence = 0 then
      .ok 0
    else
      match seekBase offset size whence with
      | none => .error .inval
      | some base => if seekable then .ok base else .error .spipe
  | .null => .ok 0

/-- The error of a position that is no `off_t_`. -/
def SeekOps.beyond : SeekOps → Errno
  | .host _ _ _ => .overflow
  | _ => .inval

/--
The base and the offset give a position; one that fits comes from an offset
that is not negative, and one that does not fit is either where the descriptor
stands or out of reach of the offset without its sign.
-/
def SeekSuits
    (ops : SeekOps) (offset : OffT) (off : BitVec 32) (whence : Nat) : Prop :=
  match ops.base offset whence with
  | .error err => err = .overflow
  | .ok base =>
    0 ≤ base + off.toInt ∧
      (offTMax < base + off.toInt → ops.beyond = .overflow) ∧
      if base + off.toInt < 2 ^ 32 then
        0 ≤ off.toInt
      else
        offset.val = base + off.toNat ∨ offTMax < base + off.toNat

variable {ops : SeekOps}

/-- An error that does not depend on the offset. -/
theorem SeekOps.seek_of_base_error
    {offset : OffT}
    {whence : Nat}
    {err : Errno}
    (isError : ops.base offset whence = .error err)
    (off : OffT) :
    ops.seek offset off whence = .error err := by
  cases ops with
  | null =>
    cases isError
  | generic size =>
    cases size with
    | error code =>
      cases isError
      rfl
    | ok size =>
      obtain _ | _ | _ | later := whence
      case ok.succ.succ.succ =>
        cases isError
        rfl
      all_goals cases isError
  | host isDir seekable size =>
    simp only [base] at isError
    simp only [seek]
    by_cases dirSet : isDir = true ∧ whence = 0
    · rw [if_pos dirSet] at isError
      cases isError
    · rw [if_neg dirSet] at isError ⊢
      obtain _ | _ | _ | later := whence
      case succ.succ.succ =>
        cases isError
        exact if_pos (by omega)
      all_goals
        cases seekable with
        | false =>
          cases isError
          rfl
        | true =>
          cases isError

/-- Where a seek goes from its base. -/
structure SeekOps.From
    (ops : SeekOps)
    (answer : Except Errno OffT)
    (target : Int) : Prop where
  moves :
    0 ≤ target → target ≤ offTMax →
      ∃ position : OffT, answer = .ok position ∧ position.val = target
  refuses :
    target < 0 →
      (∃ position : OffT, answer = .ok position ∧ position.val < 0) ∨
        answer = .error .inval
  beyond : offTMax < target → answer = .error ops.beyond

theorem SeekOps.From.landed
    {off : OffT} :
    ops.From (.ok off) (0 + off.val) where
  moves _ _ := ⟨off, rfl, (Int.zero_add _).symm⟩
  refuses below := .inl ⟨off, rfl, by omega⟩
  beyond above := by
    have high := off.property.2
    omega

/-- Every seek with a base goes to the base and the offset. -/
theorem SeekOps.seek_from
    {offset : OffT}
    {whence : Nat}
    {base : Int}
    (notNull : ops ≠ .null)
    (isBase : ops.base offset whence = .ok base)
    (off : OffT) :
    ops.From (ops.seek offset off whence) (base + off.val) := by
  have isMax := offTMax_eq
  cases ops with
  | null =>
    exact absurd rfl notNull
  | generic size =>
    cases size with
    | error code =>
      cases isBase
    | ok size =>
      by_cases isSet : whence = 0
      · subst isSet
        cases isBase
        exact .landed
      · cases found : seekBase offset size whence with
        | none =>
          simp only [SeekOps.base, found] at isBase
          cases isBase
        | some start =>
          simp only [SeekOps.base, found] at isBase
          have same := Except.ok.inj isBase
          subst same
          obtain ⟨moves, refuses⟩ :=
            @genericSeek_eq _ off _ _ _ found isSet
          constructor
          case moves =>
            intro low high
            have fits : IsOffT (start + off.val) := ⟨by omega, high⟩
            exact ⟨⟨_, fits⟩, (moves ⟨_, fits⟩).mpr ⟨low, rfl⟩, rfl⟩
          case refuses =>
            intro below
            exact .inr (refuses (by omega))
          case beyond =>
            intro above
            exact refuses (by omega)
  | host isDir seekable size =>
    simp only [SeekOps.base] at isBase
    simp only [seek]
    by_cases dirSet : isDir = true ∧ whence = 0
    · rw [if_pos dirSet] at isBase ⊢
      cases isBase
      exact .landed
    · rw [if_neg dirSet] at isBase ⊢
      cases found : seekBase offset size whence with
      | none =>
        rw [found] at isBase
        cases isBase
      | some start =>
        rw [found] at isBase
        have valid : ¬2 < whence := by
          intro large
          obtain _ | _ | _ | later := whence
          case succ.succ.succ => cases found
          all_goals omega
        cases seekable with
        | false =>
          cases isBase
        | true =>
          have same := Except.ok.inj isBase
          subst same
          rw [if_neg valid, if_pos rfl, hostLseek, found]
          simp only
          constructor
          case moves =>
            intro low high
            have fits : IsOffT (start + off.val) := ⟨by omega, high⟩
            refine ⟨⟨_, fits⟩, ?_, rfl⟩
            rw [if_neg (by omega), dif_pos fits]
          case refuses =>
            intro below
            exact .inr (if_pos below)
          case beyond =>
            intro above
            rw [if_neg (by omega), dif_neg (fun fits => by
              have high := fits.2
              omega)]
            rfl

/-- The wide offset is the one with its sign extended. -/
theorem ofInt_signHigh (off : BitVec 32) :
    (ofInt ((signHigh off).toNat * 2 ^ 32 + off.toNat)).val =
      off.toInt := by
  have bound := off.isLt
  have isMax := offTMax_eq
  unfold signHigh
  cases sign : off.msb with
  | false =>
    have low := BitVec.toInt_eq_toNat_of_msb sign
    rw [low]
    have same :
        (((if false = true then BitVec.allOnes 32 else 0#32).toNat : Int) *
          2 ^ 32 + off.toNat) = off.toNat := by
      simp
    rw [same]
    exact ofInt_val ⟨by omega, by omega⟩
  | true =>
    have low := BitVec.toInt_eq_toNat_cond off
    have high := BitVec.msb_eq_true_iff_two_mul_ge.mp sign
    rw [if_neg (by omega)] at low
    have same :
        (((if true = true then BitVec.allOnes 32 else 0#32).toNat : Int) *
          2 ^ 32 + off.toNat) = off.toInt + (2 ^ 64 : Nat) := by
      have ones : (BitVec.allOnes 32).toNat = 4294967295 := rfl
      rw [if_pos rfl, ones, low]
      omega
    rw [ofInt_eq, same, Int.add_bmod_right]
    refine Int.bmod_eq_of_le ?_ ?_ <;> omega

theorem toNat_of_toInt (off : BitVec 32) :
    (0 ≤ off.toInt ∧ (off.toNat : Int) = off.toInt) ∨
      (off.toInt < 0 ∧ (off.toNat : Int) = off.toInt + 2 ^ 32) := by
  have bound := off.isLt
  have isInt := BitVec.toInt_eq_toNat_cond off
  split at isInt
  · exact .inl ⟨by omega, by omega⟩
  · exact .inr ⟨by omega, by omega⟩

section Calls

variable
  {ops : SeekOps}
  {offset position : OffT}
  {whence : Nat}
  {err : Errno}

variable {off offHigh offLow : BitVec 32} {base : Int}

theorem sysLlseek_of_error
    (failed :
      ops.seek offset
        (ofInt (offHigh.toNat * 2 ^ 32 + offLow.toNat)) whence =
          .error err) :
    sysLlseek (some ⟨some ops, offset⟩) offHigh offLow whence false =
      ⟨.error (.code err), some ⟨some ops, offset⟩⟩ := by
  simp only [sysLlseek, SeekOps.moved, failed]
  cases ops <;> rfl

theorem sysLlseek_of_ok
    (notNull : ops ≠ .null)
    (moved :
      ops.seek offset
        (ofInt (offHigh.toNat * 2 ^ 32 + offLow.toNat)) whence =
          .ok position) :
    sysLlseek (some ⟨some ops, offset⟩) offHigh offLow whence false =
      ⟨if position.val < 0 then .error (.negative position) else .ok position,
        some ⟨some ops, position⟩⟩ := by
  simp only [sysLlseek, SeekOps.moved, moved]
  cases ops with
  | null => exact absurd rfl notNull
  | generic | host => split <;> rfl

theorem sysLseek_of_error
    (failed : ops.seek offset (ofDword off) whence = .error err) :
    sysLseek (some ⟨some ops, offset⟩) off whence =
      ⟨.error (.code .overflow), some ⟨some ops, offset⟩⟩ := by
  simp only [sysLseek, SeekOps.moved, failed]
  cases ops <;> rfl

theorem sysLseek_of_ok
    (notNull : ops ≠ .null)
    (moved : ops.seek offset (ofDword off) whence = .ok position) :
    sysLseek (some ⟨some ops, offset⟩) off whence =
      ⟨if 0 ≤ position.val ∧ position.val < 2 ^ 32 then .ok position
        else .error (.code .overflow),
        some ⟨some ops, position⟩⟩ := by
  simp only [sysLseek, SeekOps.moved, moved]
  cases ops with
  | null => exact absurd rfl notNull
  | generic | host => split <;> rfl

theorem sysLseek_error
    {error : SeekError}
    (failed :
      (sysLseek (some ⟨some ops, offset⟩) off whence).result =
        .error error) :
    error = .code .overflow := by
  simp only [sysLseek] at failed
  split at failed
  · exact (Except.error.inj failed).symm
  · split at failed
    · cases failed
    · exact (Except.error.inj failed).symm

section

variable
  (notNull : ops ≠ .null)
  (isBase : ops.base offset whence = .ok base)
include notNull isBase

/-- The wide call goes where the signed offset says. -/
theorem wide_from (off : BitVec 32) :
    ops.From
      (ops.seek offset
        (ofInt ((signHigh off).toNat * 2 ^ 32 + off.toNat)) whence)
      (base + off.toInt) := by
  rw [← ofInt_signHigh off]
  exact SeekOps.seek_from notNull isBase _

/-- A position below the file is refused by the wide call only. -/
theorem not_agrees_of_below
    (below : base + off.toInt < 0) :
    ¬SeekAgrees (some ⟨some ops, offset⟩) off whence := by
  intro agrees
  have wide := wide_from notNull isBase off
  rcases wide.refuses below with ⟨position, landed, negative⟩ | refused
  · simp only [SeekAgrees, sysLlseek_of_ok notNull landed, if_pos negative]
      at agrees
    have same := sysLseek_error (congrArg result agrees)
    cases same
  · simp only [SeekAgrees, sysLlseek_of_error refused] at agrees
    have same := sysLseek_error (congrArg result agrees)
    cases same

/-- A position that is no `off_t_` is refused by both calls. -/
theorem agrees_of_above
    (above : offTMax < base + off.toInt) :
    SeekAgrees (some ⟨some ops, offset⟩) off whence ↔
      ops.beyond = .overflow := by
  have bound := off.isLt
  have wide := wide_from notNull isBase off
  have narrow := SeekOps.seek_from notNull isBase (ofDword off)
  have narrowTarget : (ofDword off).val = off.toNat := rfl
  have narrowAbove : offTMax < base + (ofDword off).val := by
    have signs := toNat_of_toInt off
    omega
  simp only [SeekAgrees,
    sysLlseek_of_error (wide.beyond above),
    sysLseek_of_error (narrow.beyond narrowAbove)]
  constructor
  · intro same
    exact (SeekError.code.inj
      (Except.error.inj (congrArg result same))).symm
  · intro isOverflow
    rw [isOverflow]

/-- A position that fits is the same for an offset that is not negative. -/
theorem agrees_of_inside
    (low : 0 ≤ base + off.toInt)
    (high : base + off.toInt ≤ offTMax) :
    SeekAgrees (some ⟨some ops, offset⟩) off whence ↔
      if base + off.toInt < 2 ^ 32 then
        0 ≤ off.toInt
      else
        offset.val = base + off.toNat ∨ offTMax < base + off.toNat := by
  have bound := off.isLt
  have signs := toNat_of_toInt off
  have wide := wide_from notNull isBase off
  have narrow := SeekOps.seek_from notNull isBase (ofDword off)
  have narrowTarget : (ofDword off).val = off.toNat := rfl
  rw [narrowTarget] at narrow
  obtain ⟨position, landed, isPosition⟩ := wide.moves low high
  simp only [SeekAgrees, sysLlseek_of_ok notNull landed,
    if_neg (show ¬position.val < 0 by omega)]
  rw [isPosition]
  by_cases tooFar : offTMax < base + off.toNat
  · rw [sysLseek_of_error (narrow.beyond tooFar)]
    split
    · refine iff_of_false (fun same => ?_) (by omega)
      cases congrArg result same
    · exact iff_of_true rfl (.inr tooFar)
  · obtain ⟨other, otherLanded, isOther⟩ := narrow.moves (by omega) (by omega)
    rw [sysLseek_of_ok notNull otherLanded]
    split
    · rename_i fits
      by_cases positive : 0 ≤ off.toInt
      · refine iff_of_true ?_ positive
        have same : other = position := Subtype.ext (by omega)
        rw [same, if_pos ⟨by omega, by omega⟩]
      · refine iff_of_false (fun same => ?_) positive
        rw [if_neg (by omega)] at same
        cases congrArg result same
    · rename_i large
      rw [if_neg (by omega)]
      constructor
      · intro same
        have isOffset :
            some (SeekFd.mk (some ops) other) = some ⟨some ops, offset⟩ :=
          congrArg SeekOutcome.fd same
        cases isOffset
        exact .inl isOther
      · intro stands
        have same : other = offset :=
          Subtype.ext (by omega)
        rw [same]

end

end Calls

/--
The narrow call agrees with the wide one exactly when the descriptor is bad or
cannot seek at all, or is one of `fs/mem.c`, or the seek suits it.
-/
theorem seek_agrees_iff
    (fd : Option SeekFd) (off : BitVec 32) (whence : Nat) :
    SeekAgrees fd off whence ↔
      ∀ ops offset,
        fd = some ⟨some ops, offset⟩ →
        ops = .null ∨ SeekSuits ops offset off whence := by
  match fd with
  | none =>
    refine iff_of_true ?_ fun _ _ impossible => ?_
    · simp only [SeekAgrees, sysLlseek, sysLseek]
    · cases impossible
  | some ⟨none, offset⟩ =>
    refine iff_of_true ?_ fun _ _ impossible => ?_
    · simp only [SeekAgrees, sysLlseek, sysLseek]
    · cases impossible
  | some ⟨some ops, offset⟩ =>
    have single :
        (∀ other otherOffset,
            some (SeekFd.mk (some ops) offset) =
              some ⟨some other, otherOffset⟩ →
            other = .null ∨ SeekSuits other otherOffset off whence) ↔
          ops = .null ∨ SeekSuits ops offset off whence := by
      constructor
      · exact fun all => all ops offset rfl
      · rintro suits other otherOffset ⟨⟩
        exact suits
    rw [single]
    by_cases isNull : ops = .null
    · subst isNull
      refine iff_of_true ?_ (.inl rfl)
      simp [SeekAgrees, sysLlseek, sysLseek, SeekOps.seek, SeekOps.moved]
    · rw [or_iff_right isNull]
      unfold SeekSuits
      cases isBase : ops.base offset whence with
      | error err =>
        have wide :=
          SeekOps.seek_of_base_error isBase
            (ofInt ((signHigh off).toNat * 2 ^ 32 + off.toNat))
        have narrow :=
          SeekOps.seek_of_base_error isBase (ofDword off)
        simp only [SeekAgrees, sysLlseek_of_error wide,
          sysLseek_of_error narrow]
        constructor
        · intro same
          cases congrArg result same
          rfl
        · intro isOverflow
          rw [isOverflow]
      | ok base =>
        by_cases low : 0 ≤ base + off.toInt
        · by_cases high : base + off.toInt ≤ offTMax
          · rw [agrees_of_inside isNull isBase low high]
            refine ⟨fun suits => ⟨low, fun above => ?_, suits⟩,
              fun suits => suits.2.2⟩
            omega
          · rw [agrees_of_above isNull isBase (by omega)]
            refine ⟨fun isOverflow => ⟨low, fun _ => isOverflow, ?_⟩,
              fun suits => suits.2.1 (by omega)⟩
            have isMax := offTMax_eq
            have signs := toNat_of_toInt off
            have bound := off.isLt
            have wordHigh := BitVec.toInt_lt (x := off)
            rw [if_neg (by omega)]
            exact .inr (by omega)
        · refine iff_of_false ?_ (fun suits => low suits.1)
          exact not_agrees_of_below isNull isBase (by omega)

/-- A file of ten bytes, with the position behind them. -/
def tenByteFd : SeekFd where
  lseek := some (.generic (.ok ⟨10, by decide⟩))
  offset := ⟨10, by decide⟩

/-- The calls do not agree on a seek one byte back. -/
theorem lseek_one_back_disagrees : ¬SeekAgrees (some tenByteFd) (-1) 1 := by
  intro agrees
  have suits :=
    (@agrees_of_inside (.generic (.ok ⟨10, by decide⟩)) _ _ _ _ nofun rfl
      (by decide) (by decide)).mp agrees
  exact absurd suits (by decide)

end GuestKernel
