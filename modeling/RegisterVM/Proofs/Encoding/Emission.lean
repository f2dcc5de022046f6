import RegisterVM.Proofs.Encoding.Tiling

/-
  What an assembler does to its code. Accepted instructions tile
  what they add to its end, and a patch replaces a jump in its
  middle by the one with the new target. All checks come before
  the first change, so a refused request leaves nothing behind.

  Key definitions include:
    * `Assembler.outOfRange?`

  Key theorems include:
    * `Assembler.run_emit`
    * `Assembler.atomic_emit`
    * `Assembler.emit_eq_ok`
    * `Assembler.emitTimes_eq_ok`
    * `Assembler.emit_of_emitTimes_error`
    * `Assembler.overwrite_target`
-/

namespace RegisterVM

------------------------------------------------------------
-- Emitting
------------------------------------------------------------

namespace Assembler

theorem map_kind_zipWith
    (kinds : List OperandKind)
    (values : List Nat)
    (hLength : values.length = kinds.length) :
    (List.zipWith Operand.mk kinds values).map Operand.kind =
      kinds := by
  induction kinds generalizing values with
  | nil => rfl
  | cons kind kinds ih =>
      cases values with
      | nil => cases hLength
      | cons value values =>
          have hRest : values.length = kinds.length := by
            simpa using hLength
          rw [List.zipWith_cons_cons, List.map_cons,
            ih values hRest]

/- The first operand beyond the range of its kind, if any. -/
def outOfRange?
    (w : Widths)
    (operands : List Operand) : Option Operand :=
  operands.find? fun operand => w.maxValue operand.kind < operand.value

/- The check looks at the operands in order and changes nothing. -/
theorem run_checkAll
    (op : Opcode)
    (operands : List Operand)
    (asm : Assembler) :
    (checkAll op operands).run asm =
      match outOfRange? asm.widths operands with
      | some operand =>
        (.error
          (.range op operand (asm.widths.widthOf operand.kind)),
          asm)
      | none => (.ok (), asm) := by
  induction operands with
  | nil => rfl
  | cons operand rest ih =>
      rw [checkAll, Effect.run_get_bind, outOfRange?,
        List.find?_cons]
      dsimp only
      by_cases hFits :
          operand.value ≤ asm.widths.maxValue operand.kind
      · have hLt := Nat.not_lt.mpr hFits
        rw [if_pos hFits, decide_eq_false hLt]
        exact ih
      · have hLt := Nat.lt_of_not_le hFits
        rw [if_neg hFits, decide_eq_true hLt]
        rfl

/- Operands are appended one after the other. -/
theorem run_pushAll
    (operands : List Operand)
    (asm : Assembler) :
    (pushAll operands).run asm =
      (.ok (),
        { asm with
          code :=
            asm.code ++
              operands.flatMap (operandBytes asm.widths) }) := by
  induction operands generalizing asm with
  | nil =>
      rw [List.flatMap_nil, Array.appendList_nil]
      rfl
  | cons operand rest ih =>
      have hCode :
          asm.code ++ operandBytes asm.widths operand ++
              rest.flatMap (operandBytes asm.widths) =
            asm.code ++
              (operand :: rest).flatMap
                (operandBytes asm.widths) := by
        apply Array.toList_inj.mp
        simp
      rw [pushAll, Effect.run_get_bind, Effect.run_bind]
      show (pushAll rest).run _ = _
      rw [ih, ← hCode]

/-
  What becomes of an instruction: one with a wrong number of
  operands, or with an operand beyond its range, is refused and
  leaves no bytes behind; any other goes to the end of the code.
-/
theorem run_emit
    (op : Opcode)
    (values : List Nat)
    (asm : Assembler) :
    (emit op values).run asm =
      if values.length = op.operands.length then
        match outOfRange? asm.widths (tagged op values) with
        | some operand =>
          (.error
            (.range op operand (asm.widths.widthOf operand.kind)),
            asm)
        | none =>
          (.ok asm.here,
            { asm with
              code :=
                asm.code ++
                  instrBytes asm.widths op (tagged op values) })
      else
        (.error (.arity op op.operands.length values.length),
          asm) := by
  unfold emit
  dsimp only
  split
  next =>
    rw [Effect.run_bind, run_checkAll]
    cases outOfRange? asm.widths (tagged op values) with
    | some operand => rfl
    | none =>
        dsimp only
        rw [Effect.run_get_bind, Effect.run_bind]
        show
          (pushAll (tagged op values) >>= fun _ =>
            pure asm.here).run { asm with code := _ } = _
        rw [Effect.run_bind, run_pushAll, instrBytes,
          Array.appendList_cons, Array.appendList_cons,
          Array.appendList_nil]
        rfl
  next => rfl

variable {w : Widths} {asm asm' : Assembler} {op : Opcode}
  {values : List Nat} {offset : Nat}

/- A refused instruction leaves the assembler as it was. -/
theorem atomic_emit
    (op : Opcode)
    (values : List Nat) :
    (emit op values).Atomic := by
  intro asm e asm' hEmit
  rw [run_emit] at hEmit
  split at hEmit
  next =>
    split at hEmit
    next => cases hEmit; rfl
    next => cases hEmit
  next => cases hEmit; rfl

/- An accepted instruction goes to the end of the code. -/
theorem emit_eq_ok
    (hEmit : (emit op values).run asm = (.ok offset, asm')) :
    offset = asm.here ∧ asm'.widths = asm.widths ∧
      asm'.code.toList =
        asm.code.toList ++
          instrBytes asm.widths op (tagged op values) ∧
      values.length = op.operands.length ∧
      asm.widths.Holds op.operands (tagged op values) := by
  rw [run_emit] at hEmit
  split at hEmit
  next hLength =>
    split at hEmit
    next => cases hEmit
    next hRange =>
      cases hEmit
      refine ⟨rfl, rfl, by simp, hLength, ?_, ?_⟩
      · exact map_kind_zipWith op.operands values hLength
      · intro operand hMem
        have hFits := List.find?_eq_none.mp hRange operand hMem
        simpa using hFits
  next => cases hEmit

theorem here_emit
    (hWidths : asm.widths = w)
    (hEmit : (emit op values).run asm = (.ok offset, asm')) :
    asm'.here = asm.here + w.instrLen op := by
  rcases emit_eq_ok hEmit with ⟨_, _, hCode, _, hHolds⟩
  rw [hWidths] at hCode hHolds
  unfold here
  rw [← Array.length_toList, hCode, List.length_append,
    Array.length_toList, hHolds.length_instrBytes]

/- A repeated instruction tiles what it adds, copy by copy. -/
theorem emitTimes_eq_ok
    (hWidths : asm.widths = w)
    {times last : Nat}
    (hEmit :
      (emitTimes op values times).run asm = (.ok last, asm')) :
    last - (times - 1) * w.instrLen op = asm.here ∧
      asm'.widths = w ∧
      asm'.code.toList =
        asm.code.toList ++
          encoded w (repeated w op values times asm.here) ∧
      Tiles w asm.here (repeated w op values times asm.here)
        asm'.here := by
  induction times generalizing asm with
  | zero =>
      cases hEmit
      refine ⟨by simp, hWidths, ?_, .nil _⟩
      simp [repeated, encoded]
  | succ times ih =>
      cases times with
      | zero =>
          rcases emit_eq_ok hEmit with
            ⟨hLast, hSame, hCode, _, hHolds⟩
          rw [hWidths] at hHolds
          refine ⟨by simp [hLast], hSame.trans hWidths, ?_, ?_⟩
          · rw [hCode, hWidths]
            simp [repeated, encoded, instrAt]
          · rw [here_emit hWidths hEmit]
            exact .cons hHolds (.nil _)
      | succ times =>
          rw [emitTimes] at hEmit
          rcases Effect.run_bind_eq_ok.mp hEmit with
            ⟨first, asm₁, hFirst, hEmit⟩
          rcases emit_eq_ok hFirst with
            ⟨_, hSame, hCode, _, hHolds⟩
          have hHere := here_emit hWidths hFirst
          rcases ih (hSame.trans hWidths) hEmit with
            ⟨hLast, hEndWidths, hEndCode, hTiles⟩
          rw [hWidths] at hCode hHolds
          rw [hHere] at hLast hEndCode hTiles
          refine ⟨?_, hEndWidths, ?_, .cons hHolds hTiles⟩
          · rw [Nat.add_sub_cancel] at hLast ⊢
            rw [Nat.succ_mul]
            omega
          · rw [hEndCode, hCode]
            simp [repeated, encoded, instrAt]

/- Whether an instruction is refused is up to the widths. -/
theorem emit_error_of_widths
    {asm₁ asm₁' : Assembler}
    {e : AssembleError}
    (hWidths : asm₁.widths = asm.widths)
    (hEmit : (emit op values).run asm₁ = (.error e, asm₁')) :
    (emit op values).run asm = (.error e, asm) := by
  rw [run_emit] at hEmit ⊢
  rw [hWidths] at hEmit
  split at hEmit
  next hArity =>
    rw [if_pos hArity]
    split at hEmit
    next operand hRange =>
      cases hEmit
      rfl
    next => cases hEmit
  next hArity =>
    cases hEmit
    rw [if_neg hArity]

/- A repeated instruction is refused at its first copy, if at all. -/
theorem emit_of_emitTimes_error
    {times : Nat}
    {e : AssembleError}
    (hEmit :
      (emitTimes op values times).run asm = (.error e, asm')) :
    (emit op values).run asm = (.error e, asm) ∧ asm' = asm := by
  have hHere :
      ∀ {asm asm'},
        (emit op values).run asm = (.error e, asm') →
          (emit op values).run asm = (.error e, asm) ∧
            asm' = asm := by
    intro asm asm' hEmit
    have hSame := atomic_emit op values asm e asm' hEmit
    rw [hSame] at hEmit
    exact ⟨hEmit, hSame⟩
  induction times generalizing asm with
  | zero => cases hEmit
  | succ times ih =>
      cases times with
      | zero => exact hHere hEmit
      | succ times =>
          rw [emitTimes] at hEmit
          rcases Effect.run_bind_eq_error.mp hEmit with
            hFirst | ⟨first, asm₁, hFirst, hEmit⟩
          · exact hHere hFirst
          · rcases emit_eq_ok hFirst with ⟨_, hWidths, _⟩
            have hLater := emit_error_of_widths hWidths (ih hEmit).1
            rw [hFirst] at hLater
            cases hLater

------------------------------------------------------------
-- Jumps And Patches
------------------------------------------------------------

/- A jump is emitted with target zero, or else refused. -/
theorem run_emitJump
    (op : Opcode)
    (values : List Nat)
    (asm : Assembler) :
    (emitJump op values).run asm =
      if op.operands.getLast? = some .ip then
        match (emit op (values ++ [0])).run asm with
        | (.ok instr, asm') =>
          (.ok ⟨instr, asm'.here - asm'.widths.ip.toNat⟩, asm')
        | (.error e, asm') => (.error e, asm')
      else
        (.error (.notJump op), asm) := by
  unfold emitJump
  dsimp only
  split
  next =>
    rw [Effect.run_bind]
    rcases (emit op (values ++ [0])).run asm with
      ⟨_ | instr, asm'⟩ <;> rfl
  next => rfl

/- A refused jump leaves the assembler as it was. -/
theorem atomic_emitJump
    (op : Opcode)
    (values : List Nat) :
    (emitJump op values).Atomic := by
  intro asm e asm' hJump
  rw [run_emitJump] at hJump
  split at hJump
  next =>
    split at hJump
    next => cases hJump
    next hEmit =>
      cases hJump
      exact atomic_emit op (values ++ [0]) asm _ _ hEmit
  next => cases hJump; rfl

/- An accepted jump is an instruction, and its label is kept. -/
theorem emitJump_eq_ok
    {label : JumpLabel}
    (hJump : (emitJump op values).run asm = (.ok label, asm')) :
    op.operands.getLast? = some .ip ∧
      (emit op (values ++ [0])).run asm =
        (.ok label.instr, asm') ∧
      label.operandAt = asm'.here - asm'.widths.ip.toNat := by
  rw [run_emitJump] at hJump
  split at hJump
  next hLast =>
    split at hJump
    next hEmit =>
      cases hJump
      exact ⟨hLast, hEmit, rfl⟩
    next => cases hJump
  next => cases hJump

/- The operands of a jump end with its target. -/
theorem tagged_append
    (hLast : op.operands.getLast? = some .ip)
    (hLength : (values ++ [0]).length = op.operands.length) :
    ∃ lead, ∀ target,
      tagged op (values ++ [target]) = lead ++ [⟨.ip, target⟩] := by
  rcases List.getLast?_eq_some_iff.mp hLast with ⟨kinds, hKinds⟩
  refine ⟨List.zipWith Operand.mk kinds values, ?_⟩
  intro target
  have hSame : kinds.length = values.length := by
    rw [hKinds] at hLength
    simpa using hLength.symm
  rw [tagged, hKinds, List.zipWith_append hSame]
  rfl

/- A jump may point to any target in the range of jumps. -/
theorem holds_target
    (hLast : op.operands.getLast? = some .ip)
    (hLength : (values ++ [0]).length = op.operands.length)
    (hHolds : w.Holds op.operands (tagged op (values ++ [0])))
    {target : Nat}
    (hTarget : target ≤ w.maxValue .ip) :
    w.Holds op.operands (tagged op (values ++ [target])) := by
  rcases tagged_append hLast hLength with ⟨lead, hLead⟩
  rw [hLead] at hHolds ⊢
  constructor
  · rw [← hHolds.kinds, List.map_append, List.map_append]
    rfl
  · intro operand hMem
    rcases List.mem_append.mp hMem with hMem | hMem
    · exact hHolds.range operand (List.mem_append_left _ hMem)
    · rw [List.mem_singleton.mp hMem]
      exact hTarget

/- A patch is accepted when its target is in range. -/
theorem run_patch
    (label : JumpLabel)
    (target : Nat)
    (asm : Assembler) :
    (patch label target).run asm =
      if target ≤ asm.widths.maxValue .ip then
        (.ok (),
          { asm with
            code := overwrite asm.code label.operandAt
              (bytesLE asm.widths.ip.toNat target) })
      else
        (.error (.target target asm.widths.ip), asm) := by
  unfold patch
  rw [Effect.run_get_bind]
  dsimp only
  split <;> rfl

/- A refused patch leaves the assembler as it was. -/
theorem atomic_patch
    (label : JumpLabel)
    (target : Nat) :
    (patch label target).Atomic := by
  intro asm e asm' hPatch
  rw [run_patch] at hPatch
  split at hPatch
  next => cases hPatch
  next => cases hPatch; rfl

theorem patch_eq_ok
    {label : JumpLabel}
    {target : Nat}
    (hPatch : (patch label target).run asm = (.ok (), asm')) :
    target ≤ asm.widths.maxValue .ip ∧
      asm' =
        { asm with
          code := overwrite asm.code label.operandAt
            (bytesLE asm.widths.ip.toNat target) } := by
  rw [run_patch] at hPatch
  split at hPatch
  next hTarget =>
    cases hPatch
    exact ⟨hTarget, rfl⟩
  next => cases hPatch

theorem size_overwrite
    (code : Code)
    (position : Nat)
    (bytes : List UInt8) :
    (overwrite code position bytes).size = code.size := by
  induction bytes generalizing code position with
  | nil => rfl
  | cons b rest ih =>
      rw [overwrite, ih, Array.size_setIfInBounds]

/- Overwriting bytes within a buffer replaces just them. -/
theorem overwrite_append
    {code : Code}
    {before old new after : List UInt8}
    (hCode : code.toList = before ++ old ++ after)
    (hLength : old.length = new.length) :
    (overwrite code before.length new).toList =
      before ++ new ++ after := by
  induction new generalizing code before old with
  | nil =>
      rw [List.length_eq_zero_iff.mp hLength] at hCode
      exact hCode
  | cons b new ih =>
      cases old with
      | nil => cases hLength
      | cons first old =>
          have hSet :
              (code.setIfInBounds before.length b).toList =
                (before ++ [b]) ++ old ++ after := by
            rw [Array.toList_setIfInBounds, hCode]
            simp
          have hRest : old.length = new.length := by
            simpa using hLength
          have hDone := ih hSet hRest
          rw [List.length_append] at hDone
          rw [overwrite]
          simpa using hDone

/-
  Patching a jump within a buffer replaces the jump by the one
  with the new target.
-/
theorem overwrite_target
    {code : Code}
    {before after : List UInt8}
    (hLast : op.operands.getLast? = some .ip)
    (hLength : (values ++ [0]).length = op.operands.length)
    {old : Nat}
    (hHolds : w.Holds op.operands (tagged op (values ++ [old])))
    (hCode :
      code.toList =
        before ++
          instrBytes w op (tagged op (values ++ [old])) ++ after)
    (target : Nat) :
    (overwrite code
        (before.length + w.instrLen op - w.ip.toNat)
        (bytesLE w.ip.toNat target)).toList =
      before ++
        instrBytes w op (tagged op (values ++ [target])) ++
          after := by
  rcases tagged_append hLast hLength with ⟨lead, hLead⟩
  have hBytes :
      ∀ x,
        instrBytes w op (tagged op (values ++ [x])) =
          instrBytes w op lead ++ bytesLE w.ip.toNat x := by
    intro x
    rw [hLead]
    simp [instrBytes, operandBytes, Widths.widthOf]
  have hPlace :
      before.length + w.instrLen op - w.ip.toNat =
        (before ++ instrBytes w op lead).length := by
    rw [← hHolds.length_instrBytes, hBytes, List.length_append,
      List.length_append, length_bytesLE]
    omega
  have hOld :
      code.toList =
        (before ++ instrBytes w op lead) ++
          bytesLE w.ip.toNat old ++ after := by
    rw [hCode, hBytes]
    simp
  rw [hPlace, overwrite_append hOld (by simp), hBytes]
  simp

end Assembler

end RegisterVM
