import RegisterVM.Proofs.Encoding.Readers

/-
  Tilings of code. Instructions that follow one another without a
  gap, each with operands in range, are what a walk over their
  bytes yields.

  Key definitions include:
    * `encoded`
    * `Tiles`
    * `repeated`

  Key theorems include:
    * `Tiles.length_encoded`
    * `Tiles.of_append`
    * `Decoder.walk_of_tiles`
-/

namespace RegisterVM

------------------------------------------------------------
-- Tiling
------------------------------------------------------------

/- The bytes of instructions, one after the other. -/
def encoded
    (w : Widths)
    (instrs : List Instr) : List UInt8 :=
  instrs.flatMap fun instr =>
    Assembler.instrBytes w instr.opcode instr.operands

/-
  Instructions that cover the bytes from one offset to another
  without a gap, each with operands in range.
-/
inductive Tiles
    (w : Widths) : Nat → List Instr → Nat → Prop where
  | nil (offset : Nat) : Tiles w offset [] offset
  | cons {offset stop : Nat} {op : Opcode}
      {operands : List Operand} {rest : List Instr}
      (hHolds : w.Holds op.operands operands)
      (hRest : Tiles w (offset + w.instrLen op) rest stop) :
    Tiles w offset
      (⟨offset, op, operands, offset + w.instrLen op⟩ :: rest)
      stop

theorem length_operandBytes
    (w : Widths)
    (operands : List Operand) :
    1 + (operands.flatMap (Assembler.operandBytes w)).length =
      (operands.map Operand.kind).foldr
        (fun kind size => (w.widthOf kind).toNat + size) 1 := by
  induction operands with
  | nil => rfl
  | cons operand rest ih =>
      rw [List.map_cons, List.foldr_cons, ← ih,
        List.flatMap_cons, List.length_append,
        Assembler.operandBytes, length_bytesLE]
      omega

/- An instruction has the size that its opcode says. -/
theorem Widths.Holds.length_instrBytes
    {w : Widths}
    {op : Opcode}
    {operands : List Operand}
    (hHolds : w.Holds op.operands operands) :
    (Assembler.instrBytes w op operands).length =
      w.instrLen op := by
  have hLength := length_operandBytes w operands
  rw [hHolds.kinds] at hLength
  rw [Assembler.instrBytes, List.length_cons, Nat.add_comm]
  exact hLength

namespace Tiles

variable {w : Widths} {start middle stop : Nat}
  {instrs instrs' : List Instr}

/- Tiles cover as many bytes as they have. -/
theorem length_encoded
    (hTiles : Tiles w start instrs stop) :
    start + (encoded w instrs).length = stop := by
  induction hTiles with
  | nil offset => rfl
  | cons hHolds _ ih =>
      rw [encoded, List.flatMap_cons, List.length_append,
        hHolds.length_instrBytes, ← Nat.add_assoc]
      exact ih

theorem append
    (hFirst : Tiles w start instrs middle)
    (hSecond : Tiles w middle instrs' stop) :
    Tiles w start (instrs ++ instrs') stop := by
  induction hFirst with
  | nil offset => exact hSecond
  | cons hHolds _ ih => exact .cons hHolds (ih hSecond)

theorem of_append
    (hTiles : Tiles w start (instrs ++ instrs') stop) :
    ∃ middle, Tiles w start instrs middle ∧
      Tiles w middle instrs' stop := by
  induction instrs generalizing start with
  | nil => exact ⟨start, .nil start, hTiles⟩
  | cons first rest ih =>
      cases hTiles with
      | cons hHolds hRest =>
          rcases ih hRest with ⟨middle, hBefore, hAfter⟩
          exact ⟨middle, .cons hHolds hBefore, hAfter⟩

end Tiles

/- An instruction with given values at an offset. -/
def instrAt
    (w : Widths)
    (offset : Nat)
    (op : Opcode)
    (values : List Nat) : Instr :=
  ⟨offset, op, Assembler.tagged op values, offset + w.instrLen op⟩

/- An instruction a number of times, from an offset on. -/
def repeated
    (w : Widths)
    (op : Opcode)
    (values : List Nat) : (times first : Nat) → List Instr
  | 0, _ => []
  | times + 1, first =>
    instrAt w first op values ::
      repeated w op values times (first + w.instrLen op)

------------------------------------------------------------
-- Walking Over Tiles
------------------------------------------------------------

section Walks

variable {w : Widths} {decoder : Decoder} {code : Code}

/- A walk that stands before tiles yields them all and ends. -/
theorem Walker.items_of_tiles
    (hValid : w.Valid)
    (hWidths : decoder.widths = w)
    {start stop : Nat}
    {instrs : List Instr}
    (hTiles : Tiles w start instrs stop)
    {before : List UInt8}
    (hStart : before.length = start)
    (hCode : code.toList = before ++ encoded w instrs)
    {fuel : Nat}
    (hFuel : (encoded w instrs).length ≤ fuel) :
    Walker.items decoder code fuel { ip := start } =
      (instrs.map .ok, { ip := code.size }) := by
  have hStop : code.size = stop := by
    rw [← Array.length_toList, hCode, List.length_append, hStart]
    exact hTiles.length_encoded
  induction hTiles generalizing before fuel with
  | nil offset =>
      have hEnd :
          Walker.next? { ip := offset } decoder code = none :=
        if_pos (Or.inr (Nat.le_of_eq hStop))
      cases fuel with
      | zero => rw [Walker.items, hStop, List.map_nil]
      | succ fuel => rw [Walker.items, hEnd, hStop, List.map_nil]
  | @cons offset stop op operands rest hHolds hRest ih =>
      have hLength := hHolds.length_instrBytes
      have hPlace :
          code.toList =
            before ++ Assembler.instrBytes w op operands ++
              encoded w rest := by
        rw [hCode, encoded, encoded, List.flatMap_cons,
          List.append_assoc]
      have hInside : ¬code.size ≤ offset := by
        rw [← Array.length_toList, hPlace, ← hStart]
        simp only [List.length_append, Assembler.instrBytes,
          List.length_cons]
        omega
      have hDecode :=
        Decoder.decode_instrBytes hValid hWidths hHolds hPlace
      rw [hStart, hLength] at hDecode
      have hNext :
          Walker.next? { ip := offset } decoder code =
            some
              (.ok ⟨offset, op, operands,
                  offset + w.instrLen op⟩,
                { ip := offset + w.instrLen op }) := by
        unfold Walker.next?
        rw [if_neg (by simp [hInside]), hDecode]
      have hSize :
          (encoded w (⟨offset, op, operands,
              offset + w.instrLen op⟩ :: rest)).length =
            w.instrLen op + (encoded w rest).length := by
        rw [encoded, List.flatMap_cons, List.length_append,
          hLength, encoded]
      have hPositive : 0 < w.instrLen op := by
        rw [← hLength, Assembler.instrBytes]
        exact Nat.succ_pos _
      cases fuel with
      | zero => omega
      | succ fuel =>
          have hBefore :
              (before ++
                  Assembler.instrBytes w op operands).length =
                offset + w.instrLen op := by
            rw [List.length_append, hStart, hLength]
          have hLeft : (encoded w rest).length ≤ fuel := by
            omega
          have hItems := ih hBefore hPlace hLeft hStop
          rw [Walker.items, hNext]
          simp only [hItems, List.map_cons]

/- The walk over tiled code yields its tiles. -/
theorem Decoder.walk_of_tiles
    (hValid : w.Valid)
    (hWidths : decoder.widths = w)
    {stop : Nat}
    {instrs : List Instr}
    (hTiles : Tiles w 0 instrs stop)
    (hCode : code.toList = encoded w instrs) :
    decoder.walk code =
      (instrs.map .ok, { ip := code.size }) := by
  have hFuel : (encoded w instrs).length ≤ code.size := by
    rw [← Array.length_toList, hCode]
  have hBefore : code.toList = [] ++ encoded w instrs := hCode
  exact Walker.items_of_tiles hValid hWidths hTiles rfl hBefore
    hFuel

end Walks

end RegisterVM
