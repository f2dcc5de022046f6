import Mathlib
import RegisterVM.Encoding.Assembler

/-
  Readers. All strategies of a decoder read an operand as one
  little-endian number as wide as the operand's kind, so that
  reading finds what writing has put in place, wherever in a
  buffer it stands.

  Key definitions include:
    * `Widths.Holds`
    * `Assembler.instrBytes`

  Key theorems include:
    * `natLE_bytesLE`
    * `Code.run_readLE`
    * `Decoder.readOperand_eq_readLE`
    * `Decoder.decode_instrBytes`
-/

namespace RegisterVM

------------------------------------------------------------
-- Little-Endian Numbers
------------------------------------------------------------

@[simp]
theorem length_bytesLE
    (width value : Nat) :
    (bytesLE width value).length = width := by
  induction width generalizing value with
  | zero => rfl
  | succ width ih => simp [bytesLE, ih]

/- Reading the bytes of a number gives its residue. -/
theorem natLE_bytesLE
    (width value : Nat) :
    natLE (bytesLE width value) = value % 256 ^ width := by
  induction width generalizing value with
  | zero => simp [bytesLE, natLE, Nat.mod_one]
  | succ width ih =>
      rw [bytesLE, natLE, ih, Nat.pow_succ', Nat.mod_mul]
      simp

/- Bytes spell a number that fits their count. -/
theorem natLE_lt
    (bytes : List UInt8) :
    natLE bytes < 256 ^ bytes.length := by
  induction bytes with
  | nil => simp [natLE]
  | cons b rest ih =>
      have hByte := b.toNat_lt
      rw [natLE, List.length_cons, Nat.pow_succ']
      omega

------------------------------------------------------------
-- Reading From Known Bytes
------------------------------------------------------------

/- A number is read and passed, or the cursor stays. -/
theorem Code.run_readLE
    (code : Code)
    (width ip : Nat) :
    (code.readLE width).run ip =
      if ip + width ≤ code.size then
        (.ok (natLE (code.extract ip (ip + width)).toList),
          ip + width)
      else
        (.error (.truncated ip width), ip) := by
  unfold readLE
  rw [Effect.run_get_bind]
  dsimp only
  split <;> rfl

/- A number that stands in a buffer is read from its place. -/
theorem Code.run_readLE_append
    {code : Code}
    {before bytes after : List UInt8}
    (hCode : code.toList = before ++ bytes ++ after) :
    (code.readLE bytes.length).run before.length =
      (.ok (natLE bytes), before.length + bytes.length) := by
  have hSize : code.size = (before ++ bytes ++ after).length := by
    rw [← hCode, Array.length_toList]
  have hBound : before.length + bytes.length ≤ code.size := by
    rw [hSize]
    simp only [List.length_append]
    omega
  have hBytes :
      (code.extract before.length
        (before.length + bytes.length)).toList = bytes := by
    rw [Array.toList_extract, hCode]
    simp [List.extract_eq_take_drop]
  rw [run_readLE, if_pos hBound, hBytes]

/- The bytes at a position are the first byte and the others. -/
theorem Code.natLE_extract_succ
    {code : Code}
    {ip width : Nat}
    (hBound : ip < code.size) :
    natLE (code.extract ip (ip + (width + 1))).toList =
      code[ip].toNat +
        256 *
          natLE (code.extract (ip + 1) (ip + 1 + width)).toList := by
  have hDrop :
      code.toList.drop ip = code[ip] :: code.toList.drop (ip + 1) := by
    rw [List.drop_eq_getElem_cons (by simpa using hBound)]
    simp
  have hFirst :
      (code.extract ip (ip + (width + 1))).toList =
        code[ip] ::
          (code.extract (ip + 1) (ip + 1 + width)).toList := by
    simp only [Array.toList_extract, List.extract_eq_take_drop,
      Nat.add_sub_cancel_left, hDrop, List.take_succ_cons]
  rw [hFirst, natLE]

theorem Code.natLE_extract_zero
    (code : Code)
    (ip : Nat) :
    natLE (code.extract ip (ip + 0)).toList = 0 := by
  simp [natLE]

namespace Decoder

/- The decoder of valid widths reads these widths. -/
theorem ofWidths_of_valid
    {w : Widths}
    (hValid : w.Valid) :
    ∃ decoder, ofWidths w = .ok decoder ∧ decoder.widths = w := by
  have hCheck := (Widths.check_eq_ok_iff w).mpr hValid
  rcases w with ⟨slot, ip, konst⟩
  unfold ofWidths
  rw [hCheck]
  rcases hValid.slot with hSlot | hSlot | hSlot
  · cases hSlot
    exact ⟨slot8 ip konst, rfl, rfl⟩
  · cases hSlot
    exact ⟨slot16 ip konst, rfl, rfl⟩
  · cases hSlot
    exact ⟨slot32 ip konst, rfl, rfl⟩

/- Every strategy reads slots as little-endian numbers. -/
theorem readSlot_eq_readLE
    (decoder : Decoder)
    (code : Code) :
    decoder.readSlot code =
      code.readLE decoder.widths.slot.toNat := by
  funext ip
  cases decoder with
  | slot8 ipWidth konst =>
      show (readSlot _ code).run ip = (code.readLE 1).run ip
      rw [Code.run_readLE, readSlot, Effect.run_get_bind]
      dsimp only
      by_cases hBound : ip + 1 ≤ code.size
      · rw [if_pos hBound, Array.getElem?_eq_getElem hBound]
        rw [Code.natLE_extract_succ hBound,
          Code.natLE_extract_zero]
        rfl
      · have hLast : code[ip]? = none :=
          Array.getElem?_eq_none_iff.mpr (by omega)
        rw [if_neg hBound, hLast]
        rfl
  | slot16 ipWidth konst =>
      show (readSlot _ code).run ip = (code.readLE 2).run ip
      rw [Code.run_readLE, readSlot, Effect.run_get_bind]
      dsimp only
      by_cases hBound : ip + 2 ≤ code.size
      · have hFirst : ip < code.size := by omega
        have hSecond : ip + 1 < code.size := by omega
        rw [if_pos hBound, Array.getElem?_eq_getElem hFirst,
          Array.getElem?_eq_getElem hSecond]
        rw [Code.natLE_extract_succ hFirst,
          Code.natLE_extract_succ hSecond,
          Code.natLE_extract_zero]
        rfl
      · have hLast : code[ip + 1]? = none :=
          Array.getElem?_eq_none_iff.mpr (by omega)
        rw [if_neg hBound, hLast]
        cases code[ip]? <;> rfl
  | slot32 ipWidth konst =>
      show (readSlot _ code).run ip = (code.readLE 4).run ip
      rw [Code.run_readLE, readSlot, Effect.run_get_bind]
      dsimp only
      by_cases hBound : ip + 4 ≤ code.size
      · have hFirst : ip < code.size := by omega
        have hSecond : ip + 1 < code.size := by omega
        have hThird : ip + 2 < code.size := by omega
        have hFourth : ip + 3 < code.size := by omega
        have hBytes :
            natLE (code.extract ip (ip + 4)).toList =
              code[ip].toNat + 256 * code[ip + 1].toNat +
                65536 * code[ip + 2].toNat +
                16777216 * code[ip + 3].toNat := by
          rw [Code.natLE_extract_succ hFirst,
            Code.natLE_extract_succ hSecond,
            Code.natLE_extract_succ hThird,
            Code.natLE_extract_succ hFourth,
            Code.natLE_extract_zero]
          omega
        rw [if_pos hBound, hBytes,
          Array.getElem?_eq_getElem hFirst,
          Array.getElem?_eq_getElem hSecond,
          Array.getElem?_eq_getElem hThird,
          Array.getElem?_eq_getElem hFourth]
        rfl
      · have hLast : code[ip + 3]? = none :=
          Array.getElem?_eq_none_iff.mpr (by omega)
        rw [if_neg hBound, hLast]
        cases code[ip]? <;> cases code[ip + 1]? <;>
          cases code[ip + 2]? <;> rfl

/- Every operand is a little-endian number of its kind's width. -/
theorem readOperand_eq_readLE
    (decoder : Decoder)
    (kind : OperandKind)
    (code : Code) :
    decoder.readOperand kind code =
      Operand.mk kind <$>
        code.readLE (decoder.widths.widthOf kind).toNat := by
  cases kind with
  | slot | count =>
      unfold readOperand
      simp only [readCount, readSlot_eq_readLE]
      rfl
  | ip | konst | id => rfl

/- An operand is read and passed, or the cursor stays. -/
theorem run_readOperand
    (decoder : Decoder)
    (kind : OperandKind)
    (code : Code)
    (ip : Nat) :
    let width := (decoder.widths.widthOf kind).toNat
    (decoder.readOperand kind code).run ip =
      if ip + width ≤ code.size then
        (.ok ⟨kind, natLE (code.extract ip (ip + width)).toList⟩,
          ip + width)
      else
        (.error (.truncated ip width), ip) := by
  intro width
  rw [readOperand_eq_readLE, Effect.run_map, Code.run_readLE]
  by_cases hInside : ip + width ≤ code.size
  · rw [if_pos hInside, if_pos hInside]
  · rw [if_neg hInside, if_neg hInside]

end Decoder

------------------------------------------------------------
-- Operands In Range
------------------------------------------------------------

namespace Widths

/- Every value in the range of a kind fits its bytes. -/
theorem maxValue_lt
    (w : Widths)
    (hValid : w.Valid)
    (kind : OperandKind) :
    w.maxValue kind < 256 ^ (w.widthOf kind).toNat := by
  have hWidth :
      w.widthOf kind = 1 ∨ w.widthOf kind = 2 ∨
        w.widthOf kind = 4 := by
    cases kind with
    | slot | count => exact hValid.slot
    | ip => exact Or.inr hValid.ip
    | konst | id => exact Or.inr hValid.konst
  unfold maxValue
  rcases hWidth with hWidth | hWidth | hWidth
  · simp [hWidth]
  · simp [hWidth]
  · rw [hWidth]
    cases kind <;> decide

/- Writing a value in range and reading it back yields it. -/
theorem natLE_operandBytes
    {w : Widths}
    (hValid : w.Valid)
    {operand : Operand}
    (hRange : operand.value ≤ w.maxValue operand.kind) :
    natLE (Assembler.operandBytes w operand) = operand.value := by
  have hFits := w.maxValue_lt hValid operand.kind
  rw [Assembler.operandBytes, natLE_bytesLE]
  exact Nat.mod_eq_of_lt (Nat.lt_of_le_of_lt hRange hFits)

/- Operands of given kinds, each in the range of its kind. -/
structure Holds
    (w : Widths)
    (kinds : List OperandKind)
    (operands : List Operand) : Prop where
  kinds : operands.map Operand.kind = kinds
  range :
    ∀ operand ∈ operands,
      operand.value ≤ w.maxValue operand.kind

end Widths

------------------------------------------------------------
-- Decoding What Was Encoded
------------------------------------------------------------

/- The bytes of an instruction. -/
def Assembler.instrBytes
    (w : Widths)
    (op : Opcode)
    (operands : List Operand) : List UInt8 :=
  op.byte :: operands.flatMap (operandBytes w)

namespace Decoder

variable {w : Widths} {decoder : Decoder} {code : Code}

/- An opcode is read and passed, or the cursor stays. -/
theorem run_readOpcode
    (code : Code)
    (ip : Nat) :
    (readOpcode code).run ip =
      match code[ip]? with
      | none => (.error (.truncated ip 1), ip)
      | some byte =>
        match Opcode.ofByte? byte with
        | none => (.error (.unknownOpcode ip byte), ip)
        | some op => (.ok op, ip + 1) := by
  unfold readOpcode
  rw [Effect.run_get_bind]
  cases code[ip]? with
  | none => rfl
  | some byte =>
      dsimp only
      cases Opcode.ofByte? byte <;> rfl

/- An instruction is its opcode and then the operands of it. -/
theorem decode_eq
    (decoder : Decoder)
    (code : Code)
    (offset : Nat) :
    decoder.decode code offset =
      match (readOpcode code).run offset with
      | (.error e, _) => .error e
      | (.ok opcode, ip) =>
        match (decoder.readOperands code opcode.operands).run ip with
        | (.error e, _) => .error e
        | (.ok operands, next) =>
          .ok { offset, opcode, operands, next } := by
  unfold decode readInstr
  rw [Effect.run_get_bind, Effect.run_bind]
  rcases (readOpcode code).run offset with ⟨_ | opcode, ip⟩
  · rfl
  · dsimp only
    rw [Effect.run_bind]
    rcases (decoder.readOperands code opcode.operands).run ip with
      ⟨_ | operands, next⟩ <;> rfl

/- Operands are read one after the other. -/
theorem readOperands_cons_eq_ok
    {kind : OperandKind}
    {kinds : List OperandKind}
    {operands : List Operand}
    {ip next : Nat}
    (hRead :
      (decoder.readOperands code (kind :: kinds)).run ip =
        (.ok operands, next)) :
    ∃ operand middle rest,
      (decoder.readOperand kind code).run ip =
          (.ok operand, middle) ∧
        (decoder.readOperands code kinds).run middle =
          (.ok rest, next) ∧
        operands = operand :: rest := by
  rw [readOperands] at hRead
  rcases Effect.run_bind_eq_ok.mp hRead with
    ⟨operand, middle, hFirst, hOthers⟩
  rcases Effect.run_bind_eq_ok.mp hOthers with
    ⟨rest, last, hRest, hEnd⟩
  cases hEnd
  exact ⟨operand, middle, rest, hFirst, hRest, rfl⟩

/- A decoded instruction is an opcode byte and then operands. -/
theorem decode_eq_ok
    {offset : Nat}
    {instr : Instr}
    (hDecode : decoder.decode code offset = .ok instr) :
    instr.offset = offset ∧
      (∃ byte, code[offset]? = some byte ∧
        Opcode.ofByte? byte = some instr.opcode) ∧
      (decoder.readOperands code instr.opcode.operands).run
          (offset + 1) =
        (.ok instr.operands, instr.next) := by
  rw [decode_eq, run_readOpcode] at hDecode
  cases hByte : code[offset]? with
  | none =>
      rw [hByte] at hDecode
      cases hDecode
  | some byte =>
      rw [hByte] at hDecode
      dsimp only at hDecode
      cases hOpcode : Opcode.ofByte? byte with
      | none =>
          rw [hOpcode] at hDecode
          cases hDecode
      | some op =>
          rw [hOpcode] at hDecode
          dsimp only at hDecode
          rcases hRead :
              (decoder.readOperands code op.operands).run
                (offset + 1) with
            ⟨e | operands, next⟩
          · rw [hRead] at hDecode
            cases hDecode
          · rw [hRead] at hDecode
            cases hDecode
            exact ⟨rfl, ⟨byte, rfl, hOpcode⟩, hRead⟩

/- Operands that stand in a buffer are read from their place. -/
theorem run_readOperands_operandBytes
    (hValid : w.Valid)
    (hWidths : decoder.widths = w)
    {kinds : List OperandKind}
    {operands : List Operand}
    (hHolds : w.Holds kinds operands)
    {before after : List UInt8}
    (hCode :
      code.toList =
        before ++ operands.flatMap (Assembler.operandBytes w) ++
          after) :
    (decoder.readOperands code kinds).run before.length =
      (.ok operands,
        before.length +
          (operands.flatMap (Assembler.operandBytes w)).length) := by
  rcases hHolds with ⟨rfl, hRange⟩
  induction operands generalizing before with
  | nil => rfl
  | cons operand rest ih =>
      have hFirst :
          (decoder.readOperand operand.kind code).run
              before.length =
            (.ok operand,
              (before ++
                Assembler.operandBytes w operand).length) := by
        have hPlace :
            code.toList =
              before ++ Assembler.operandBytes w operand ++
                (rest.flatMap (Assembler.operandBytes w) ++
                  after) := by
          rw [hCode]
          simp
        have hLength :
            (Assembler.operandBytes w operand).length =
              (w.widthOf operand.kind).toNat :=
          length_bytesLE _ _
        have hRead := Code.run_readLE_append hPlace
        rw [hLength, Widths.natLE_operandBytes hValid
          (hRange operand List.mem_cons_self)] at hRead
        rw [readOperand_eq_readLE, hWidths, Effect.run_map, hRead,
          List.length_append, hLength]
      have hPlace :
          code.toList =
            (before ++ Assembler.operandBytes w operand) ++
              rest.flatMap (Assembler.operandBytes w) ++
                after := by
        rw [hCode]
        simp
      have hRest := ih hPlace fun other hMem =>
        hRange other (List.mem_cons_of_mem _ hMem)
      rw [List.map_cons, readOperands, Effect.run_bind, hFirst]
      dsimp only
      rw [Effect.run_bind, hRest, List.flatMap_cons,
        List.length_append, List.length_append, Nat.add_assoc]
      rfl

/- An instruction that stands in a buffer is decoded as it is. -/
theorem decode_instrBytes
    (hValid : w.Valid)
    (hWidths : decoder.widths = w)
    {op : Opcode}
    {operands : List Operand}
    (hHolds : w.Holds op.operands operands)
    {before after : List UInt8}
    (hCode :
      code.toList =
        before ++ Assembler.instrBytes w op operands ++ after) :
    decoder.decode code before.length =
      .ok
        { offset := before.length
          opcode := op
          operands
          next :=
            before.length +
              (Assembler.instrBytes w op operands).length } := by
  have hOpcode :
      (readOpcode code).run before.length =
        (.ok op, (before ++ [op.byte]).length) := by
    have hByte : code[before.length]? = some op.byte := by
      rw [← Array.getElem?_toList, hCode, Assembler.instrBytes]
      simp
    rw [run_readOpcode, hByte]
    simp [Opcode.ofByte?_byte]
  have hPlace :
      code.toList =
        (before ++ [op.byte]) ++
          operands.flatMap (Assembler.operandBytes w) ++
            after := by
    rw [hCode, Assembler.instrBytes]
    simp
  have hOperands :=
    run_readOperands_operandBytes hValid hWidths hHolds hPlace
  rw [decode_eq, hOpcode]
  dsimp only
  rw [hOperands]
  simp [Assembler.instrBytes, Nat.add_assoc, Nat.add_comm]

end Decoder

end RegisterVM
