import GuestKernel.FdTableSteps

namespace GuestKernel
open Option
open FdTable

/-!
# The steps of the descriptor calls

`FdCall.Step` lists everything a call can do, in terms of the updates of
`GuestKernel.FdTableSteps`.  The calls that duplicate a descriptor differ only
in where they look for a free one and in the close-on-exec bit, and so do the
calls that replace a chosen descriptor.
-/

namespace FdCall

/-- The descriptor a call starts from. -/
def source : FdCall → Option FdNum
  | install _ _ => none
  | dup f | dup2 f _ | dup3 f _ _ | dupfd f _ | dupfdCloexec f _
  | setfd f _ | close f => some f

/-- Where a duplicating call starts to look, and the bit it asks for. -/
def duplicates : FdCall → Option (Nat × Bool)
  | dup _ => some (0, false)
  | dupfd _ arg => some (arg.toNat, false)
  | dupfdCloexec _ arg => some (arg.toNat, true)
  | _ => none

/-- The descriptor a call replaces, and the bit it asks for. -/
def replaces : FdCall → Option (FdNum × Bool)
  | dup2 _ newF => some (newF, false)
  | dup3 _ newF flags => some (newF, flags &&& oCloexec ≠ 0)
  | _ => none

/-- What a call does to a world whose current table is `table`. -/
inductive Step
    (host : FdHost)
    (w : FdWorld)
    (t : TableId)
    (table : FdTable) :
    FdCall → FdWorld → Except Errno FdNum → Prop where
  | notOpen {call : FdCall} {f : FdNum} :
      call.source = some f →
      table.get table.size f = none →
      Step host w t table call w (.error .badf)
  | install {fd cloexec next result} :
      FdWorld.InstallStep host w t table fd 0 cloexec next result →
      Step host w t table (install fd cloexec) next result
  | duplicate {call : FdCall} {f fd start bit next result} :
      call.source = some f →
      call.duplicates = some (start, bit) →
      table.get table.size f = some fd →
      FdWorld.InstallStep host (w.retained fd) t table fd start bit next
        result →
      Step host w t table call next result
  | refused {call : FdCall} {replaced : FdNum × Bool} (err : Errno) :
      call.replaces = some replaced →
      Step host w t table call w (.error err)
  | replace {call : FdCall} {f newF fd bit} :
      call.source = some f →
      call.replaces = some (newF, bit) →
      table.get table.size f = some fd →
      newF.toNat < 2 ^ 31 →
      newF.toNat < host.limit →
      Step host w t table call
        ((((w.grow t (newF.toNat + 1)).retained fd).closedSlot t table
          newF.toNat).store t newF.toNat (some fd)
          (bit || (table.slot newF.toNat).isNone && table.bit newF.toNat))
        (.ok newF)
  | setfd {f arg fd} :
      table.get table.size f = some fd →
      Step host w t table (setfd f arg)
        (w.store t f.toNat (some fd) (arg &&& 1 ≠ 0)) (.ok 0)
  | close {f fd result} :
      table.get table.size f = some fd →
      Step host w t table (close f) (w.closed t f.toNat fd) result

end FdCall

namespace FdWorld

variable
  {host : FdHost}
  {w next : FdWorld}
  {t : TableId}
  {table : FdTable}
  {fd : FdId}
  {f : FdNum}
  {result : Except Errno FdNum}

/-- Setting the bit of a file that was just installed. -/
theorem writeBit_installed
    {start : Nat}
    (isTable : w.tables t = some table)
    (shaped : table.Shaped)
    (step : InstallStep host w t table fd start false next (.ok f)) :
    ∃ after,
      next.writeBit t f true = some after ∧
        InstallStep host w t table fd start true after (.ok f) := by
  cases step with
  | placed place fromStart below inUse free room =>
    have small : (BitVec.ofNat 32 place).toNat = place := by
      rw [BitVec.toNat_ofNat]
      exact Nat.mod_eq_of_lt (by omega)
    have grown : (table.grow (place + 1)).Shaped :=
      shaped.grow (by unfold dwordRange; omega)
    have within : place < (table.grow (place + 1)).size := by
      rw [size_grow]
      omega
    refine ⟨_, ?_, .placed place fromStart below inUse free room⟩
    rw [writeBit_run (store_self (grow_self isTable _) ..)
      (grown.store ..) ⟨by omega, by
        rw [small, size_store]
        exact within⟩, small, slot_store within, if_pos rfl,
      store, store, mapTable_mapTable]
    simp only [store_store]
    rfl

theorem fInstall_cases
    {cloexec : Bool}
    (isCurrent : w.current = some t)
    (isTable : w.tables t = some table)
    (shaped : table.Shaped)
    (run : w.fInstall host fd cloexec = some (next, result)) :
    InstallStep host w t table fd 0 cloexec next result := by
  unfold fInstall at run
  obtain ⟨⟨middle, found⟩, start, run⟩ := bind_eq_some_iff.mp run
  obtain ⟨_, step⟩ := fInstallStart_cases isCurrent isTable shaped start
  cases found with
  | error err =>
    cases run
    cases step with
    | refused => exact .refused err
    | pastLast size _ small => exact .pastLast size err small
  | ok f =>
    have stillCurrent : middle.current = some t := by
      cases step
      exact isCurrent
    cases cloexec with
    | false =>
      cases run
      exact step
    | true =>
      simp only [↓reduceIte, stillCurrent, bind_eq_bind,
        bind_some] at run
      obtain ⟨after, write, same⟩ := bind_eq_some_iff.mp run
      cases same
      obtain ⟨_, sameWrite, installed⟩ :=
        writeBit_installed isTable shaped step
      cases write.symm.trans sameWrite
      exact installed

theorem closedSlot_self
    (isTable : w.tables t = some table)
    (index : Nat) :
    (w.closedSlot t table index).tables t =
      some (if (table.slot index).isNone then table
        else table.store index none false) := by
  unfold closedSlot
  cases content : table.slot index with
  | none =>
    exact isTable
  | some old =>
    unfold closed
    apply store_self
    exact (congrFun (eq_of_unlocked w t old).2.1 t).trans isTable

variable {err : Except Errno Unit}

/-- What `f_close` did on the current table. -/
theorem fClose_cases
    (isCurrent : w.current = some t)
    (isTable : w.tables t = some table)
    (shaped : table.Shaped)
    (run : w.fClose host f = some (next, err)) :
    (table.get table.size f = none ∧ next = w ∧ err = .error .badf) ∨
      ∃ fd object,
        table.get table.size f = some fd ∧ w.live fd = some object ∧
          next = w.closed t f.toNat fd := by
  unfold fClose at run
  rw [isCurrent] at run
  apply fdtableClose_cases
    (fdtableGet_run isCurrent isTable isTable (.inr (Nat.le_refl _)))
    isTable shaped _ run
  intro isOpen
  obtain ⟨fd, found⟩ := ne_none_iff_exists'.mp isOpen
  obtain ⟨positive, found⟩ := get_eq_some_iff.mp found
  exact ⟨positive, lt_size_of_slot found⟩

/-- The end of `sys_dup3`: the slot is closed and written again. -/
theorem replace_run
    {newF : FdNum}
    (isTable : w.tables t = some table)
    (shaped : table.Shaped)
    (inside : Inside newF table)
    (fd : FdId)
    (bit : Bool) :
    (((w.closedSlot t table newF.toNat).writeFile t newF (some fd)).bind
      fun w =>
        if bit = true then w.writeBit t newF true else some w) =
      some ((w.closedSlot t table newF.toNat).store t newF.toNat (some fd)
        (bit ||
          (table.slot newF.toNat).isNone && table.bit newF.toNat)) := by
  obtain ⟨now, isNow, nowShaped, nowInside, nowBit⟩ :
      ∃ now,
        (w.closedSlot t table newF.toNat).tables t = some now ∧
          now.Shaped ∧ Inside newF now ∧
          now.bit newF.toNat =
            ((table.slot newF.toNat).isNone && table.bit newF.toNat) := by
    have isNow := closedSlot_self isTable newF.toNat
    cases content : table.slot newF.toNat with
    | none =>
      rw [content] at isNow
      exact ⟨table, isNow, shaped, inside, by simp⟩
    | some old =>
      rw [content] at isNow
      refine ⟨_, isNow, shaped.store .., ?_, ?_⟩
      · exact ⟨inside.1, by
          simp only [isNone_some, Bool.false_eq_true, ↓reduceIte,
            size_store]
          exact inside.2⟩
      · simpa using bit_store shaped inside.2 none false
          newF.toNat
  rw [writeFile_run isNow nowInside, bind_some, nowBit]
  cases bit with
  | false =>
    simp
  | true =>
    rw [if_pos rfl, writeBit_run (store_self isNow ..) (nowShaped.store ..)
      ⟨nowInside.1, by rw [size_store]; exact nowInside.2⟩,
      slot_store nowInside.2, if_pos rfl, store, store,
      mapTable_mapTable]
    simp only [store_store, Bool.true_or]
    rfl

theorem closedSlot_grow
    (w : FdWorld) (t : TableId) (table : FdTable) (size index : Nat) :
    w.closedSlot t (table.grow size) index = w.closedSlot t table index := by
  unfold closedSlot
  rw [slot_grow]

theorem toNat_add_one
    (positive : f.toNat < 2 ^ 31) :
    (f + 1).toNat = f.toNat + 1 := by
  rw [BitVec.toNat_add]
  exact Nat.mod_eq_of_lt (by simp; omega)

theorem room_of_expandError
    {size : Nat}
    (noError : host.expandError table size = none) :
    size ≤ host.limit := by
  unfold FdHost.expandError at noError
  split at noError
  · cases noError
  · omega

/-- What `f_close` leaves when the descriptor is not negative. -/
theorem eq_closedSlot_of_fClose
    (isCurrent : w.current = some t)
    (isTable : w.tables t = some table)
    (shaped : table.Shaped)
    (positive : f.toNat < 2 ^ 31)
    (run : w.fClose host f = some (next, err)) :
    next = w.closedSlot t table f.toNat := by
  unfold closedSlot
  rcases fClose_cases isCurrent isTable shaped run with
    ⟨empty, same, _⟩ | ⟨fd, _, found, _, same⟩
  · cases content : table.slot f.toNat with
    | none =>
      exact same
    | some fd =>
      cases empty.symm.trans (get_eq_some_iff.mpr ⟨positive, content⟩)
  · rw [(get_eq_some_iff.mp found).2]
    exact same

theorem sysDup3_cases
    {call : FdCall}
    {newF : FdNum}
    {flags : BitVec 32}
    (isSource : call.source = some f)
    (isReplaced :
      call.replaces = some (newF, decide (flags &&& oCloexec ≠ 0)))
    (isCurrent : w.current = some t)
    (isTable : w.tables t = some table)
    (shaped : table.Shaped)
    (run : w.sysDup3 host f newF flags = some (next, result)) :
    call.Step host w t table next result := by
  unfold sysDup3 at run
  simp only [isCurrent, bind_eq_bind, bind_some,
    fGet_run isCurrent isTable] at run
  cases found : table.get table.size f with
  | none =>
    rw [found] at run
    cases run
    exact .notOpen isSource found
  | some fd =>
    simp only [found, fdtableExpand_run host isTable, bind_some]
      at run
    cases refusal : host.expandError table (newF + 1).toNat with
    | some err =>
      rw [refusal] at run
      cases run
      exact .refused err isReplaced
    | none =>
      simp only [refusal] at run
      obtain ⟨held, retain, run⟩ := bind_eq_some_iff.mp run
      obtain ⟨⟨middle, err⟩, close, run⟩ :=
        bind_eq_some_iff.mp run
      obtain ⟨written, write, tail⟩ := bind_eq_some_iff.mp run
      obtain ⟨rfl, _⟩ := eq_retained_of_fdRetain retain
      have isGrown :
          ((w.grow t (newF + 1).toNat).retained fd).tables t =
            some (table.grow (newF + 1).toNat) :=
        grow_self isTable _
      have grownShaped : (table.grow (newF + 1).toNat).Shaped :=
        shaped.grow (BitVec.isLt _)
      have stillCurrent :
          ((w.grow t (newF + 1).toNat).retained fd).current = some t :=
        isCurrent
      have positive : newF.toNat < 2 ^ 31 := by
        rcases fClose_cases stillCurrent isGrown grownShaped close with
          ⟨_, rfl, _⟩ | ⟨_, _, isOpen, _, _⟩
        · exact (inside_of_writeFile isGrown write).1
        · exact (get_eq_some_iff.mp isOpen).1
      have isClosed :=
        eq_closedSlot_of_fClose stillCurrent isGrown grownShaped positive
          close
      subst isClosed
      have number := toNat_add_one positive
      have inside : Inside newF (table.grow (newF + 1).toNat) := by
        refine ⟨positive, ?_⟩
        rw [size_grow, number]
        omega
      have replaced :=
        replace_run isGrown grownShaped inside fd
          (decide (flags &&& oCloexec ≠ 0))
      rw [closedSlot_grow, slot_grow, bit_grow, number]
        at replaced
      obtain ⟨same, sameWrite, last⟩ :=
        bind_eq_some_iff.mp replaced
      rw [closedSlot_grow, number] at write
      cases write.symm.trans sameWrite
      have ending :
          result = .ok newF ∧
            (if decide (flags &&& oCloexec ≠ 0) = true then
              written.writeBit t newF true
            else some written) = some next := by
        by_cases flag : flags &&& oCloexec ≠ 0
        · rw [if_pos flag] at tail
          obtain ⟨after, setBit, same⟩ :=
            bind_eq_some_iff.mp tail
          cases same
          exact ⟨rfl, by rw [if_pos (decide_eq_true flag), setBit]⟩
        · rw [if_neg flag] at tail
          cases tail
          exact ⟨rfl, by rw [if_neg (by simpa using flag)]⟩
      obtain ⟨rfl, isNext⟩ := ending
      cases isNext.symm.trans last
      have room := room_of_expandError refusal
      rw [number] at room
      exact .replace isSource isReplaced found positive room

theorem step_of_run
    {call : FdCall}
    (isCurrent : w.current = some t)
    (isTable : w.tables t = some table)
    (shaped : table.Shaped)
    (run : call.run host w = some (next, result)) :
    call.Step host w t table next result := by
  have get := @fGet_run w t table
  cases call with
  | install fd cloexec =>
    exact .install (fInstall_cases isCurrent isTable shaped run)
  | dup f =>
    simp only [FdCall.run, sysDup, get isCurrent isTable,
      bind_eq_bind, bind_some] at run
    cases found : table.get table.size f with
    | none =>
      rw [found] at run
      cases run
      exact .notOpen rfl found
    | some fd =>
      rw [found] at run
      obtain ⟨held, retain, install⟩ := bind_eq_some_iff.mp run
      obtain ⟨rfl, _⟩ := eq_retained_of_fdRetain retain
      have step :
          InstallStep host (w.retained fd) t table fd 0 false next
            result :=
        fInstall_cases isCurrent isTable shaped install
      exact .duplicate rfl rfl found step
  | dup2 f newF =>
    apply sysDup3_cases rfl _ isCurrent isTable shaped run
    simp [FdCall.replaces]
  | dup3 f newF flags =>
    exact sysDup3_cases rfl rfl isCurrent isTable shaped run
  | dupfd f arg =>
    simp only [FdCall.run, fcntlDupfd, get isCurrent isTable,
      bind_eq_bind, bind_some] at run
    cases found : table.get table.size f with
    | none =>
      rw [found] at run
      cases run
      exact .notOpen rfl found
    | some fd =>
      rw [found] at run
      obtain ⟨held, retain, install⟩ := bind_eq_some_iff.mp run
      obtain ⟨rfl, _⟩ := eq_retained_of_fdRetain retain
      have step :
          arg.toNat < 2 ^ 31 ∧
            InstallStep host (w.retained fd) t table fd arg.toNat false
              next result :=
        fInstallStart_cases isCurrent isTable shaped install
      exact .duplicate rfl rfl found step.2
  | dupfdCloexec f arg =>
    simp only [FdCall.run, fcntlDupfdCloexec, isCurrent,
      get isCurrent isTable, bind_eq_bind, bind_some] at run
    cases found : table.get table.size f with
    | none =>
      rw [found] at run
      cases run
      exact .notOpen rfl found
    | some fd =>
      rw [found] at run
      obtain ⟨held, retain, run⟩ := bind_eq_some_iff.mp run
      obtain ⟨⟨middle, place⟩, install, run⟩ :=
        bind_eq_some_iff.mp run
      obtain ⟨rfl, _⟩ := eq_retained_of_fdRetain retain
      have step :
          arg.toNat < 2 ^ 31 ∧
            InstallStep host (w.retained fd) t table fd arg.toNat false
              middle place :=
        fInstallStart_cases isCurrent isTable shaped install
      cases place with
      | error err =>
        cases run
      | ok newF =>
        obtain ⟨after, setBit, same⟩ := bind_eq_some_iff.mp run
        cases same
        have isRetained : (w.retained fd).tables t = some table :=
          isTable
        obtain ⟨_, sameWrite, installed⟩ :=
          writeBit_installed isRetained shaped step.2
        cases setBit.symm.trans sameWrite
        exact .duplicate rfl rfl found installed
  | setfd f arg =>
    simp only [FdCall.run, fcntlSetfd, isCurrent, get isCurrent isTable,
      bind_eq_bind, bind_some] at run
    cases found : table.get table.size f with
    | none =>
      rw [found] at run
      cases run
      exact .notOpen rfl found
    | some fd =>
      obtain ⟨positive, isSlot⟩ := get_eq_some_iff.mp found
      rw [found] at run
      simp only [writeBit_run isTable shaped
        ⟨positive, lt_size_of_slot isSlot⟩, isSlot,
        bind_some] at run
      cases run
      exact .setfd found
  | close f =>
    simp only [FdCall.run, sysClose] at run
    obtain ⟨⟨after, err⟩, close, same⟩ := bind_eq_some_iff.mp run
    cases same
    rcases fClose_cases isCurrent isTable shaped close with
      ⟨empty, rfl, rfl⟩ | ⟨fd, _, found, _, rfl⟩
    · exact .notOpen rfl empty
    · exact .close found

end FdWorld

end GuestKernel
