import RegisterVM.Proofs.Encoding.Emission

/-
  Which code an assembler can produce. Bytes that are read as an
  operand or an instruction are the very bytes that writing it
  would put there, so code that is decoded without a fault can be
  assembled again from what was decoded. An assembler refuses
  such an instruction only for a slot or a count of four bytes
  beyond its range; the code it can produce is the code that is
  decoded with all operands in range, and each such code comes
  from one sequence of instructions only.

  Key definitions include:
    * `Instr.emission`
    * `Decoder.Accepts`
    * `Assembler.emitAll`

  Key theorems include:
    * `bytesLE_natLE`
    * `Decoder.drop_of_decode`
    * `Assembler.emitAll_of_walk`
    * `Assembler.emitAll_tiles`
    * `Assembler.producible_iff_accepted`
-/

namespace RegisterVM

------------------------------------------------------------
-- Writing What Was Read
------------------------------------------------------------

/- Writing the number that bytes spell gives the bytes. -/
theorem bytesLE_natLE
    (bytes : List UInt8) :
    bytesLE bytes.length (natLE bytes) = bytes := by
  induction bytes with
  | nil => rfl
  | cons b rest ih =>
      have hByte := b.toNat_lt
      have hFirst :
          UInt8.ofNat (b.toNat + 256 * natLE rest) = b := by
        apply UInt8.toNat_inj.mp
        rw [UInt8.toNat_ofNat']
        omega
      have hOthers :
          (b.toNat + 256 * natLE rest) / 256 = natLE rest := by
        omega
      rw [List.length_cons, natLE, bytesLE, hFirst, hOthers, ih]

/- The bytes of a number that is read stand where it was read. -/
theorem Code.drop_of_readLE
    {code : Code}
    {ip width value next : Nat}
    (hRead : (code.readLE width).run ip = (.ok value, next)) :
    code.toList.drop ip =
        bytesLE width value ++ code.toList.drop next ∧
      value < 256 ^ width := by
  rw [run_readLE] at hRead
  split at hRead
  next hBound =>
    cases hRead
    have hBytes :
        (code.extract ip (ip + width)).toList =
          (code.toList.drop ip).take width := by
      rw [Array.toList_extract, List.extract_eq_take_drop,
        Nat.add_sub_cancel_left]
    have hLength :
        ((code.toList.drop ip).take width).length = width := by
      rw [List.length_take, List.length_drop,
        Array.length_toList]
      omega
    have hWrite :=
      bytesLE_natLE ((code.toList.drop ip).take width)
    rw [hLength] at hWrite
    rw [hBytes]
    constructor
    · rw [hWrite, ← List.drop_drop, List.take_append_drop]
    · have hFits := natLE_lt ((code.toList.drop ip).take width)
      rwa [hLength] at hFits
  next => cases hRead

/- A byte that encodes an opcode is the byte of the opcode. -/
theorem Opcode.byte_of_ofByte?
    {b : UInt8}
    {op : Opcode}
    (hOpcode : ofByte? b = some op) :
    op.byte = b := by
  have hTable : all.map byte = (List.range 77).map UInt8.ofNat :=
    rfl
  have hAll : all[b.toNat]? = some op := by
    rw [← hOpcode, ofByte?, table, List.getElem?_toArray]
  have hBound : b.toNat < 77 :=
    (List.getElem?_eq_some_iff.mp hAll).1
  have hByte :=
    congrArg (fun bytes : List UInt8 => bytes[b.toNat]?) hTable
  rw [List.getElem?_map, hAll] at hByte
  simpa [hBound] using hByte

namespace Decoder

variable {w : Widths} {decoder : Decoder} {code : Code}

/- The bytes of an operand that is read stand where it was read. -/
theorem drop_of_readOperand
    (hWidths : decoder.widths = w)
    {kind : OperandKind}
    {operand : Operand}
    {ip next : Nat}
    (hRead :
      (decoder.readOperand kind code).run ip =
        (.ok operand, next)) :
    operand.kind = kind ∧
      code.toList.drop ip =
        Assembler.operandBytes w operand ++
          code.toList.drop next ∧
      operand.value < 256 ^ (w.widthOf operand.kind).toNat := by
  rw [readOperand_eq_readLE, hWidths, Effect.run_map] at hRead
  rcases hNumber :
      (code.readLE (w.widthOf kind).toNat).run ip with
    ⟨e | value, next'⟩
  · rw [hNumber] at hRead
    cases hRead
  · rw [hNumber] at hRead
    cases hRead
    have hBytes := Code.drop_of_readLE hNumber
    exact ⟨rfl, hBytes⟩

theorem drop_of_readOperands
    (hWidths : decoder.widths = w)
    {kinds : List OperandKind}
    {operands : List Operand}
    {ip next : Nat}
    (hRead :
      (decoder.readOperands code kinds).run ip =
        (.ok operands, next)) :
    operands.map Operand.kind = kinds ∧
      code.toList.drop ip =
        operands.flatMap (Assembler.operandBytes w) ++
          code.toList.drop next ∧
      ∀ operand ∈ operands,
        operand.value < 256 ^ (w.widthOf operand.kind).toNat := by
  induction kinds generalizing operands ip with
  | nil =>
      cases hRead
      exact ⟨rfl, rfl, nofun⟩
  | cons kind kinds ih =>
      rcases readOperands_cons_eq_ok hRead with
        ⟨operand, middle, rest, hFirst, hOthers, rfl⟩
      rcases drop_of_readOperand hWidths hFirst with
        ⟨hKind, hBytes, hFits⟩
      rcases ih hOthers with ⟨hKinds, hRestBytes, hRestFit⟩
      refine ⟨?_, ?_, ?_⟩
      · rw [List.map_cons, hKind, hKinds]
      · rw [hBytes, hRestBytes, List.flatMap_cons,
          List.append_assoc]
      · exact List.forall_mem_cons.mpr ⟨hFits, hRestFit⟩

/-
  A decoded instruction has operands of the kinds of its opcode,
  and its bytes stand where it was decoded.
-/
theorem drop_of_decode
    (hWidths : decoder.widths = w)
    {offset : Nat}
    {instr : Instr}
    (hDecode : decoder.decode code offset = .ok instr) :
    instr.operands.map Operand.kind = instr.opcode.operands ∧
      code.toList.drop offset =
        Assembler.instrBytes w instr.opcode instr.operands ++
          code.toList.drop instr.next ∧
      ∀ operand ∈ instr.operands,
        operand.value < 256 ^ (w.widthOf operand.kind).toNat := by
  rcases decode_eq_ok hDecode with
    ⟨_, ⟨byte, hByte, hOpcode⟩, hRead⟩
  rcases drop_of_readOperands hWidths hRead with
    ⟨hKinds, hBytes, hFits⟩
  refine ⟨hKinds, ?_, hFits⟩
  have hAt : code.toList[offset]? = some instr.opcode.byte := by
    rw [Array.getElem?_toList, hByte,
      Opcode.byte_of_ofByte? hOpcode]
  rcases List.getElem?_eq_some_iff.mp hAt with ⟨hBound, hHere⟩
  rw [List.drop_eq_getElem_cons hBound, hHere, hBytes]
  rfl

end Decoder

------------------------------------------------------------
-- Emissions
------------------------------------------------------------

/- What to ask of an assembler to get an instruction. -/
def Instr.emission
    (instr : Instr) : Opcode × List Nat :=
  (instr.opcode, instr.operands.map Operand.value)

namespace Assembler

/-
  Emit instructions in order. The result is the instructions that
  were accepted, and the assembler after them.
-/
def emitAll
    (asm : Assembler) :
    List (Opcode × List Nat) → List (Opcode × List Nat) × Assembler
  | [] => ([], asm)
  | (op, values) :: rest =>
    match (emit op values).run asm with
    | (.ok _, asm) =>
      let (accepted, last) := asm.emitAll rest
      ((op, values) :: accepted, last)
    | (.error _, asm) => asm.emitAll rest

variable {w : Widths} {asm : Assembler} {op : Opcode}

/- Operands of the right kinds are given by their values. -/
theorem zipWith_map_value
    (operands : List Operand) :
    List.zipWith Operand.mk (operands.map Operand.kind)
        (operands.map Operand.value) =
      operands := by
  induction operands with
  | nil => rfl
  | cons operand rest ih =>
      rw [List.map_cons, List.map_cons, List.zipWith_cons_cons, ih]

theorem map_value_zipWith
    (kinds : List OperandKind)
    (values : List Nat)
    (hLength : values.length = kinds.length) :
    (List.zipWith Operand.mk kinds values).map Operand.value =
      values := by
  induction kinds generalizing values with
  | nil => rw [List.length_eq_zero_iff.mp hLength]; rfl
  | cons kind kinds ih =>
      cases values with
      | nil => cases hLength
      | cons value values =>
          have hRest : values.length = kinds.length := by
            simpa using hLength
          rw [List.zipWith_cons_cons, List.map_cons,
            ih values hRest]

/- Operands in range are accepted and go to the end of the code. -/
theorem emit_of_holds
    (hWidths : asm.widths = w)
    {operands : List Operand}
    (hHolds : w.Holds op.operands operands) :
    (emit op (operands.map Operand.value)).run asm =
      (.ok asm.here,
        { asm with code := asm.code ++ instrBytes w op operands }) := by
  have hTagged :
      tagged op (operands.map Operand.value) = operands := by
    rw [tagged, ← hHolds.kinds, zipWith_map_value]
  have hArity :
      (operands.map Operand.value).length = op.operands.length := by
    simp [← hHolds.kinds]
  have hRange : outOfRange? w operands = none := by
    apply List.find?_eq_none.mpr
    intro operand hMem
    simpa using hHolds.range operand hMem
  rw [run_emit, if_pos hArity]
  simp only [hTagged, hWidths, hRange]

/-
  What was accepted tiles the code that was added, instruction by
  instruction.
-/
theorem emitAll_tiles
    (hWidths : asm.widths = w)
    (calls : List (Opcode × List Nat)) :
    ∃ instrs,
      (asm.emitAll calls).1 = instrs.map Instr.emission ∧
        (asm.emitAll calls).2.code.toList =
          asm.code.toList ++ encoded w instrs ∧
        Tiles w asm.here instrs (asm.emitAll calls).2.here := by
  induction calls generalizing asm with
  | nil => exact ⟨[], rfl, (List.append_nil _).symm, .nil _⟩
  | cons call rest ih =>
      rcases call with ⟨op, values⟩
      rw [emitAll]
      rcases hEmit : (emit op values).run asm with
        ⟨e | offset, asm'⟩
      · rw [atomic_emit op values asm e asm' hEmit]
        exact ih hWidths
      · rcases emit_eq_ok hEmit with
          ⟨_, hSame, hCode, hLength, hHolds⟩
        have hHere := here_emit hWidths hEmit
        rw [hWidths] at hCode hHolds
        rcases ih (hSame.trans hWidths) with
          ⟨instrs, hAccepted, hRest, hTiles⟩
        rw [hHere] at hTiles
        refine ⟨instrAt w asm.here op values :: instrs, ?_, ?_,
          .cons hHolds hTiles⟩
        · have hValues :=
            map_value_zipWith op.operands values hLength
          rw [List.map_cons, ← hAccepted]
          exact congrArg
            (fun vs => (op, vs) :: (asm'.emitAll rest).1)
            hValues.symm
        · rw [hRest, hCode]
          simp [encoded, instrAt]

end Assembler

------------------------------------------------------------
-- Assembling Decoded Code
------------------------------------------------------------

namespace Decoder

/- The instructions of a walk, as far as it goes. -/
def decoded
    (decoder : Decoder)
    (code : Code) : List Instr :=
  (decoder.instrs code).filterMap Except.toOption

/- Code that is decoded without a fault, all operands in range. -/
structure Accepts
    (decoder : Decoder)
    (code : Code) : Prop where
  faultless : ∀ e, .error e ∉ decoder.instrs code
  range :
    ∀ instr ∈ decoder.decoded code, ∀ operand ∈ instr.operands,
      operand.value ≤ decoder.widths.maxValue operand.kind

theorem instrs_of_faultless
    {decoder : Decoder}
    {code : Code}
    (hFaultless : ∀ e, .error e ∉ decoder.instrs code) :
    decoder.instrs code = (decoder.decoded code).map .ok := by
  unfold decoded
  generalize decoder.instrs code = items at hFaultless
  induction items with
  | nil => rfl
  | cons item rest ih =>
      cases item with
      | error e => exact absurd List.mem_cons_self (hFaultless e)
      | ok instr =>
          have hRest := ih fun e hMem =>
            hFaultless e (List.mem_cons_of_mem _ hMem)
          exact congrArg (fun items => Except.ok instr :: items) hRest

/- Tiles are in range. -/
theorem range_of_tiles
    {w : Widths}
    {start stop : Nat}
    {instrs : List Instr}
    (hTiles : Tiles w start instrs stop) :
    ∀ instr ∈ instrs, ∀ operand ∈ instr.operands,
      operand.value ≤ w.maxValue operand.kind := by
  induction hTiles with
  | nil offset => exact nofun
  | cons hHolds _ ih =>
      exact List.forall_mem_cons.mpr ⟨hHolds.range, ih⟩

/- Tiled code is accepted, and decodes to its tiles. -/
theorem accepts_of_tiles
    {w : Widths}
    (hValid : w.Valid)
    {decoder : Decoder}
    (hWidths : decoder.widths = w)
    {code : Code}
    {stop : Nat}
    {instrs : List Instr}
    (hTiles : Tiles w 0 instrs stop)
    (hCode : code.toList = encoded w instrs) :
    decoder.decoded code = instrs ∧ decoder.Accepts code := by
  have hInstrs : decoder.instrs code = instrs.map .ok := by
    rw [Decoder.instrs, walk_of_tiles hValid hWidths hTiles hCode]
  have hDecoded : decoder.decoded code = instrs := by
    rw [decoded, hInstrs, List.filterMap_map]
    exact List.filterMap_some
  refine ⟨hDecoded, ?_, ?_⟩
  · intro e hMem
    rw [hInstrs] at hMem
    rcases List.mem_map.mp hMem with ⟨_, _, hEq⟩
    cases hEq
  · rw [hDecoded, hWidths]
    exact range_of_tiles hTiles

/-
  A decoded operand is out of range only as a slot or a count of
  four bytes beyond 2^31 - 1.
-/
theorem maxValue_lt_iff
    {w : Widths}
    (hValid : w.Valid)
    {operand : Operand}
    (hFits :
      operand.value < 256 ^ (w.widthOf operand.kind).toNat) :
    w.maxValue operand.kind < operand.value ↔
      w.widthOf operand.kind = 4 ∧
        (operand.kind = .slot ∨ operand.kind = .count) ∧
        2 ^ 31 - 1 < operand.value := by
  rcases operand with ⟨kind, value⟩
  dsimp only at hFits ⊢
  have hWidth :
      w.widthOf kind = 1 ∨ w.widthOf kind = 2 ∨
        w.widthOf kind = 4 := by
    cases kind with
    | slot | count => exact hValid.slot
    | ip => exact Or.inr hValid.ip
    | konst | id => exact Or.inr hValid.konst
  unfold Widths.maxValue
  rcases hWidth with hWidth | hWidth | hWidth
  · rw [hWidth] at hFits ⊢
    simp at hFits ⊢
    omega
  · rw [hWidth] at hFits ⊢
    simp at hFits ⊢
    omega
  · rw [hWidth] at hFits ⊢
    cases kind <;> simp at hFits ⊢ <;> omega

/- The operands of a walk fit their bytes. -/
theorem fits_of_walk
    {w : Widths}
    {decoder : Decoder}
    (hWidths : decoder.widths = w)
    {code : Code}
    {fuel : Nat}
    {walker : Walker}
    {instr : Instr}
    (hMem :
      .ok instr ∈ (Walker.items decoder code fuel walker).1) :
    ∀ operand ∈ instr.operands,
      operand.value < 256 ^ (w.widthOf operand.kind).toNat := by
  induction fuel generalizing walker with
  | zero => cases hMem
  | succ fuel ih =>
      rw [Walker.items] at hMem
      unfold Walker.next? at hMem
      split at hMem
      next => cases hMem
      next item walker' hNext =>
        split at hNext
        next => cases hNext
        next =>
          rcases List.mem_cons.mp hMem with hHere | hLater
          · subst hHere
            cases hDecode : decoder.decode code walker.ip with
            | error e =>
                rw [hDecode] at hNext
                cases hNext
            | ok first =>
                rw [hDecode] at hNext
                cases hNext
                exact (drop_of_decode hWidths hDecode).2.2
          · exact ih hLater

end Decoder

namespace Assembler

variable {w : Widths} {decoder : Decoder} {code : Code}

/- Past the end of the code, all of it is built. -/
theorem built_of_past
    {built : Code}
    {ip : Nat}
    (hCode : code.toList = built.toList ++ code.toList.drop ip)
    (hPast : code.size ≤ ip) :
    built = code := by
  have hDrop : code.toList.drop ip = [] := by
    apply List.drop_of_length_le
    simpa using hPast
  rw [hDrop, List.append_nil] at hCode
  exact Array.toList_inj.mp hCode.symm

/-
  A walk without a fault from some offset on yields what to emit
  after the code before that offset to get the whole code.
-/
theorem emitAll_of_walk
    (hWidths : decoder.widths = w)
    {fuel ip : Nat}
    {built : Code}
    (hCode : code.toList = built.toList ++ code.toList.drop ip)
    (hFuel : code.size - ip ≤ fuel)
    {instrs : List Instr}
    (hWalk :
      (Walker.items decoder code fuel { ip }).1 = instrs.map .ok)
    (hRange :
      ∀ instr ∈ instrs, ∀ operand ∈ instr.operands,
        operand.value ≤ w.maxValue operand.kind) :
    emitAll { widths := w, code := built }
        (instrs.map Instr.emission) =
      (instrs.map Instr.emission, { widths := w, code }) := by
  induction fuel generalizing ip built instrs with
  | zero =>
      have hPast : code.size ≤ ip := by omega
      cases List.map_eq_nil_iff.mp hWalk.symm
      rw [built_of_past hCode hPast]
      rfl
  | succ fuel ih =>
      rw [Walker.items] at hWalk
      by_cases hPast : code.size ≤ ip
      · have hNext :
            Walker.next? { ip } decoder code = none :=
          if_pos (Or.inr hPast)
        rw [hNext] at hWalk
        cases List.map_eq_nil_iff.mp hWalk.symm
        rw [built_of_past hCode hPast]
        rfl
      · cases hDecode : decoder.decode code ip with
        | error e =>
            have hNext :
                Walker.next? { ip } decoder code =
                  some (.error e, { ip, failed := true }) := by
              unfold Walker.next?
              rw [if_neg (by simp [hPast]), hDecode]
            rw [hNext] at hWalk
            cases instrs <;> cases hWalk
        | ok instr =>
            have hNext :
                Walker.next? { ip } decoder code =
                  some (.ok instr, { ip := instr.next }) := by
              unfold Walker.next?
              rw [if_neg (by simp [hPast]), hDecode]
            rw [hNext] at hWalk
            cases instrs with
            | nil => cases hWalk
            | cons first rest =>
                rw [List.map_cons, List.cons.injEq] at hWalk
                rcases hWalk with ⟨hFirst, hRest⟩
                cases hFirst
                rcases Decoder.drop_of_decode hWidths hDecode with
                  ⟨hKinds, hBytes, _⟩
                have hEmit :
                    (emit instr.opcode
                        (instr.operands.map Operand.value)).run
                        { widths := w, code := built } =
                      (.ok built.size,
                        { widths := w
                          code :=
                            built ++
                              instrBytes w instr.opcode
                                instr.operands }) :=
                  emit_of_holds rfl
                    ⟨hKinds, hRange instr List.mem_cons_self⟩
                -- An instruction has at least its opcode byte.
                have hLength := congrArg List.length hBytes
                simp only [List.length_append, List.length_drop,
                  Array.length_toList, instrBytes,
                  List.length_cons] at hLength
                have hPlace :
                    code.toList =
                      (built ++
                          instrBytes w instr.opcode
                            instr.operands).toList ++
                        code.toList.drop instr.next := by
                  rw [hBytes] at hCode
                  simpa using hCode
                have hLeft : code.size - instr.next ≤ fuel := by
                  omega
                have hTail :=
                  ih hPlace hLeft hRest
                    (List.forall_mem_cons.mp hRange).2
                rw [List.map_cons, Instr.emission, emitAll, hEmit]
                simp only [hTail]

/-
  The code that an assembler can produce is the code that is
  decoded without a fault and with all operands in range: some
  instructions give the code exactly if this is so, those that
  are accepted on the way are then the decoded ones, and emitting
  the decoded ones gives the code back, byte for byte. Of what is
  decoded, only slots and counts of four bytes can be out of
  range.
-/
theorem producible_iff_accepted
    {w : Widths}
    (hValid : w.Valid) :
    ∃ asm decoder,
      Assembler.new w = .ok asm ∧
      Decoder.ofWidths w = .ok decoder ∧
      ∀ code : Code,
        ((∃ calls, (asm.emitAll calls).2.code = code) ↔
          decoder.Accepts code) ∧
        (∀ calls, (asm.emitAll calls).2.code = code →
          (asm.emitAll calls).1 =
            (decoder.decoded code).map Instr.emission) ∧
        (decoder.Accepts code →
          asm.emitAll ((decoder.decoded code).map Instr.emission) =
            ((decoder.decoded code).map Instr.emission,
              { widths := w, code })) ∧
        ∀ instr ∈ decoder.decoded code,
          ∀ operand ∈ instr.operands,
            w.maxValue operand.kind < operand.value ↔
              w.widthOf operand.kind = 4 ∧
                (operand.kind = .slot ∨ operand.kind = .count) ∧
                2 ^ 31 - 1 < operand.value := by
  rcases Decoder.ofWidths_of_valid hValid with
    ⟨decoder, hDecoder, hWidths⟩
  refine ⟨{ widths := w }, decoder, ?_, hDecoder, ?_⟩
  · rw [Assembler.new, (Widths.check_eq_ok_iff w).mpr hValid]
    rfl
  intro code
  -- Whatever is emitted tiles the code from its start on.
  have hAccepts :
      ∀ calls, (emitAll { widths := w } calls).2.code = code →
        (emitAll { widths := w } calls).1 =
            (decoder.decoded code).map Instr.emission ∧
          decoder.Accepts code := by
    intro calls hProduced
    have hFresh : ({ widths := w } : Assembler).widths = w := rfl
    rcases emitAll_tiles hFresh calls with
      ⟨instrs, hAccepted, hBytes, hTiles⟩
    rw [hProduced] at hBytes
    rcases Decoder.accepts_of_tiles hValid hWidths hTiles hBytes with
      ⟨hDecoded, hAccepts⟩
    exact ⟨by rw [hAccepted, hDecoded], hAccepts⟩
  have hRebuilt :
      decoder.Accepts code →
        emitAll { widths := w }
            ((decoder.decoded code).map Instr.emission) =
          ((decoder.decoded code).map Instr.emission,
            { widths := w, code }) := by
    intro hAccepts
    have hRange := hAccepts.range
    rw [hWidths] at hRange
    have hWalk :
        (Walker.items decoder code code.size { ip := 0 }).1 =
          (decoder.decoded code).map .ok :=
      Decoder.instrs_of_faultless hAccepts.faultless
    exact emitAll_of_walk hWidths rfl (Nat.sub_le _ _) hWalk
      hRange
  refine ⟨⟨?_, ?_⟩, ?_, hRebuilt, ?_⟩
  · rintro ⟨calls, hProduced⟩
    exact (hAccepts calls hProduced).2
  · intro hAccepted
    exact ⟨_, by rw [hRebuilt hAccepted]⟩
  · intro calls hProduced
    exact (hAccepts calls hProduced).1
  · intro instr hMem operand hOperand
    rcases List.mem_filterMap.mp hMem with ⟨item, hItem, hOk⟩
    cases item with
    | error e => cases hOk
    | ok first =>
        cases hOk
        exact Decoder.maxValue_lt_iff hValid
          (Decoder.fits_of_walk hWidths hItem operand hOperand)

/- The widest register move to slot 1, from a slot of four bytes. -/
def moveCode
    (last : UInt8) : Code :=
  #[Opcode.moveInt.byte, 1, 0, 0, 0, 255, 255, 255, last]

theorem producible_iff_accepted_of_moveCode :
    Widths.wide.Valid ∧
      ∃ asm decoder,
        Assembler.new .wide = .ok asm ∧
        Decoder.ofWidths .wide = .ok decoder ∧
        asm.emitAll [(.moveInt, [1, 2147483647])] =
          ([(.moveInt, [1, 2147483647])],
            { widths := .wide, code := moveCode 127 }) ∧
        ¬∃ calls, (asm.emitAll calls).2.code = moveCode 128 := by
  have hValid : Widths.wide.Valid := by decide
  rcases producible_iff_accepted hValid with
    ⟨asm, decoder, hNew, hDecoder, hImage⟩
  have hSlots : decoder = .slot32 4 4 := by
    cases hDecoder
    rfl
  subst hSlots
  have hLow :
      (Decoder.slot32 4 4).instrs (moveCode 127) =
        [.ok ⟨0, .moveInt, [⟨.slot, 1⟩, ⟨.slot, 2147483647⟩], 9⟩] := by
    decide +kernel
  have hHigh :
      (Decoder.slot32 4 4).instrs (moveCode 128) =
        [.ok ⟨0, .moveInt, [⟨.slot, 1⟩, ⟨.slot, 2164260863⟩], 9⟩] := by
    decide +kernel
  rcases hImage (moveCode 127) with ⟨_, _, hRebuilt, _⟩
  rcases hImage (moveCode 128) with ⟨hIff, _, _, _⟩
  refine ⟨hValid, asm, _, hNew, hDecoder, ?_, ?_⟩
  · have hAccepts :
        (Decoder.slot32 4 4).Accepts (moveCode 127) := by
      constructor
      · simp [hLow]
      · simp [Decoder.decoded, hLow, Except.toOption,
          Decoder.widths, Widths.maxValue, Widths.widthOf]
    simpa [Decoder.decoded, hLow, Except.toOption,
      Instr.emission] using hRebuilt hAccepts
  · intro hProduced
    have hRange := (hIff.mp hProduced).range
    simp [Decoder.decoded, hHigh, Except.toOption,
      Decoder.widths, Widths.maxValue, Widths.widthOf] at hRange

end Assembler

end RegisterVM
