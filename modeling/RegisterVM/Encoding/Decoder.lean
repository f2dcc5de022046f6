import RegisterVM.Encoding.Code

/-
  Decoders. A decoder is chosen once for a function from its
  widths; the three strategies differ in how they read slot
  indices, and each reads its own number of bytes directly.

  Key definitions include:
    * `Operand`
    * `Instr`
    * `Decoder`
    * `Decoder.ofWidths`
    * `Decoder.readOperand`
    * `Decoder.decode`
    * `Decoder.readAll`
    * `Walker`
    * `Decoder.instrs`
-/

namespace RegisterVM

------------------------------------------------------------
-- Instructions
------------------------------------------------------------

/- A decoded operand. -/
structure Operand where
  kind : OperandKind
  value : Nat
  deriving DecidableEq, Repr

/- An operand in listing form. -/
def Operand.text
    (operand : Operand) : String :=
  operand.kind.mark ++ toString operand.value

/- A decoded instruction and the bytes it covers. -/
structure Instr where
  offset : Nat
  opcode : Opcode
  operands : List Operand
  next : Nat
  deriving DecidableEq, Repr

namespace Instr

/- The value of an operand, by position. -/
def operand?
    (instr : Instr)
    (i : Nat) : Option Nat :=
  instr.operands[i]?.map Operand.value

/- The number of bytes an instruction covers. -/
def size
    (instr : Instr) : Nat :=
  instr.next - instr.offset

end Instr

------------------------------------------------------------
-- Decoder strategies
------------------------------------------------------------

/- A decoder for slot indices of one, two or four bytes. -/
inductive Decoder where
  | slot8 (ip konst : UInt8)
  | slot16 (ip konst : UInt8)
  | slot32 (ip konst : UInt8)
  deriving DecidableEq, Repr

namespace Decoder

/- The widths that a decoder reads. -/
def widths : Decoder → Widths
  | slot8 ip konst => ⟨1, ip, konst⟩
  | slot16 ip konst => ⟨2, ip, konst⟩
  | slot32 ip konst => ⟨4, ip, konst⟩

/-
  Choose the decoder for some widths. The slot width selects the
  strategy, and its fault comes before those of other widths.
-/
def ofWidths
    (w : Widths) : Except WidthError Decoder := do
  let decoder ←
    if w.slot = 1 then .ok (slot8 w.ip w.konst)
    else if w.slot = 2 then .ok (slot16 w.ip w.konst)
    else if w.slot = 4 then .ok (slot32 w.ip w.konst)
    else .error (.noDecoder w.slot)
  w.check
  return decoder

------------------------------------------------------------
-- Reading operands
------------------------------------------------------------

/- Read a slot index and step past it. -/
def readSlot
    (decoder : Decoder)
    (code : Code) : Cursor Nat := do
  let offset ← get
  match decoder with
  | slot8 .. =>
    match code[offset]? with
    | some b =>
      set (offset + 1)
      return b.toNat
    | none => throw (.truncated offset 1)
  | slot16 .. =>
    match code[offset]?, code[offset + 1]? with
    | some b0, some b1 =>
      set (offset + 2)
      return b0.toNat + 256 * b1.toNat
    | _, _ => throw (.truncated offset 2)
  | slot32 .. =>
    match code[offset]?, code[offset + 1]?, code[offset + 2]?,
      code[offset + 3]? with
    | some b0, some b1, some b2, some b3 =>
      set (offset + 4)
      return b0.toNat + 256 * b1.toNat + 65536 * b2.toNat
        + 16777216 * b3.toNat
    | _, _, _, _ => throw (.truncated offset 4)

/- Read an argument count, which is as wide as a slot index. -/
def readCount
    (decoder : Decoder)
    (code : Code) : Cursor Nat :=
  decoder.readSlot code

/- Read a constant id. -/
def readConst
    (decoder : Decoder)
    (code : Code) : Cursor Nat :=
  code.readLE decoder.widths.konst.toNat

/- Read a jump target. -/
def readIp
    (decoder : Decoder)
    (code : Code) : Cursor Nat :=
  code.readLE decoder.widths.ip.toNat

/- Read an operand of a given kind. -/
def readOperand
    (decoder : Decoder)
    (kind : OperandKind)
    (code : Code) : Cursor Operand := do
  let value ←
    match kind with
    | .slot => decoder.readSlot code
    | .count => decoder.readCount code
    | .ip => decoder.readIp code
    | .konst | .id => decoder.readConst code
  return ⟨kind, value⟩

/- Read an opcode. -/
def readOpcode
    (code : Code) : Cursor Opcode := do
  let offset ← get
  match code[offset]? with
  | none => throw (.truncated offset 1)
  | some byte =>
    match Opcode.ofByte? byte with
    | none => throw (.unknownOpcode offset byte)
    | some op =>
      set (offset + 1)
      return op

/- Read operands of the given kinds, one after another. -/
def readOperands
    (decoder : Decoder)
    (code : Code) :
    List OperandKind → Cursor (List Operand)
  | [] => return []
  | kind :: kinds => do
    let operand ← decoder.readOperand kind code
    let operands ← decoder.readOperands code kinds
    return operand :: operands

/- Read an instruction. -/
def readInstr
    (decoder : Decoder)
    (code : Code) : Cursor Instr := do
  let offset ← get
  let opcode ← readOpcode code
  let operands ← decoder.readOperands code opcode.operands
  return { offset, opcode, operands, next := ← get }

/- Decode the instruction at an offset. -/
def decode
    (decoder : Decoder)
    (code : Code)
    (offset : Nat) : Except DecodeError Instr :=
  ((decoder.readInstr code).run offset).1

end Decoder

------------------------------------------------------------
-- Reading through a shared cursor
------------------------------------------------------------

/- One read through a cursor. -/
inductive Read where
  | opcode
  | slot
  | count
  | konst
  | ip
  | operand (kind : OperandKind)
  deriving DecidableEq, Repr

/- What a read yields. -/
inductive ReadValue where
  | opcode (op : Opcode)
  | number (value : Nat)
  | operand (operand : Operand)
  deriving DecidableEq, Repr

namespace Decoder

/- Perform one read. -/
def read
    (decoder : Decoder)
    (code : Code) : Read → Cursor ReadValue
  | .opcode => return .opcode (← readOpcode code)
  | .slot => return .number (← decoder.readSlot code)
  | .count => return .number (← decoder.readCount code)
  | .konst => return .number (← decoder.readConst code)
  | .ip => return .number (← decoder.readIp code)
  | .operand kind => return .operand (← decoder.readOperand kind code)

/-
  Perform reads through one cursor. Each outcome comes with the
  cursor that the read has left behind, and the next read starts
  there.
-/
def readAll
    (decoder : Decoder)
    (code : Code) :
    List Read → Nat → List (Except DecodeError ReadValue × Nat)
  | [], _ => []
  | r :: rest, ip =>
    let (outcome, ip) := (decoder.read code r).run ip
    (outcome, ip) :: decoder.readAll code rest ip

end Decoder

------------------------------------------------------------
-- Walking a buffer
------------------------------------------------------------

/- The position of a linear walk over a buffer. -/
structure Walker where
  ip : Nat := 0
  failed : Bool := false
  deriving DecidableEq, Repr

/-
  The next item of a walk. A walk ends at the end of the buffer
  or after its first fault.
-/
def Walker.next?
    (walker : Walker)
    (decoder : Decoder)
    (code : Code) :
    Option (Except DecodeError Instr × Walker) :=
  if walker.failed ∨ code.size ≤ walker.ip then
    none
  else
    match decoder.decode code walker.ip with
    | .ok instr => some (.ok instr, { walker with ip := instr.next })
    | .error e => some (.error e, { walker with failed := true })

/- At most `fuel` items of a walk, and where it stands then. -/
def Walker.items
    (decoder : Decoder)
    (code : Code) :
    (fuel : Nat) → Walker → List (Except DecodeError Instr) × Walker
  | 0, walker => ([], walker)
  | fuel + 1, walker =>
    match walker.next? decoder code with
    | none => ([], walker)
    | some (item, walker) =>
      let (items, walker) := Walker.items decoder code fuel walker
      (item :: items, walker)

/-
  The whole walk over a buffer. Every item but a fault covers at
  least one byte, so the size of the buffer bounds their number.
-/
def Decoder.walk
    (decoder : Decoder)
    (code : Code) : List (Except DecodeError Instr) × Walker :=
  Walker.items decoder code code.size {}

/- The items of the walk over a buffer. -/
def Decoder.instrs
    (decoder : Decoder)
    (code : Code) : List (Except DecodeError Instr) :=
  (decoder.walk code).1

end RegisterVM
