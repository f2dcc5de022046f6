/-
  The operations of the machine and the fixed shape of each.

  An instruction carries no length: the shape of its opcode is
  the only way to know how many operand bytes follow. The table
  below is therefore shared by the decoder, the assembler and
  the listing.

  Key definitions include:
    * `OperandKind`
    * `OperandKind.mark`
    * `Shape`
    * `Shape.operands`
    * `Opcode`
    * `Opcode.mnemonic`
    * `Opcode.shape`
    * `Opcode.all`
    * `Opcode.byte`
    * `Opcode.ofByte?`
-/

namespace RegisterVM

------------------------------------------------------------
-- Operands
------------------------------------------------------------

/-
  What an encoded operand stands for. Its width in bytes is a
  property of the function that holds the instruction.
-/
inductive OperandKind where
  /- Index of a frame slot. -/
  | slot
  /- Index into the constant pool. -/
  | konst
  /- Absolute jump target, in bytes. -/
  | ip
  /- Number of arguments. -/
  | count
  /- Constant-pool index of a method or field name. -/
  | id
  deriving DecidableEq, Repr, Inhabited

namespace OperandKind

/- All kinds of operand. -/
def all : List OperandKind :=
  [slot, konst, ip, count, id]

/- The letters written before an operand in a listing. -/
def mark : OperandKind → String
  | slot => "s"
  | konst => "k"
  | ip => "ip"
  | count => "n"
  | id => "#"

end OperandKind

------------------------------------------------------------
-- Shapes
------------------------------------------------------------

/- The operand lists that instructions may have. -/
inductive Shape where
  | bare
  | slot
  | slots2
  | slots3
  | constSlot
  | target
  | slotTarget
  /- Method id, first argument, argument count, result. -/
  | directCall
  /- Receiver, method id, first argument, argument count, result. -/
  | virtualCall
  /- Object, field id, value. -/
  | field
  /- Statement id, result. -/
  | eval
  deriving DecidableEq, Repr, Inhabited

namespace Shape

/- The operand kinds of a shape, in encoding order. -/
def operands : Shape → List OperandKind
  | bare => []
  | slot => [.slot]
  | slots2 => [.slot, .slot]
  | slots3 => [.slot, .slot, .slot]
  | constSlot => [.konst, .slot]
  | target => [.ip]
  | slotTarget => [.slot, .ip]
  | directCall => [.id, .slot, .count, .slot]
  | virtualCall => [.slot, .id, .slot, .count, .slot]
  | field => [.slot, .id, .slot]
  | eval => [.id, .slot]

/- Number of operands of a shape. -/
def arity
    (shape : Shape) : Nat :=
  shape.operands.length

end Shape

------------------------------------------------------------
-- Opcodes
------------------------------------------------------------

/-
  The operations. The byte of an opcode is its position in this
  list, counted from zero.
-/
inductive Opcode where
  | nop
  | retVoid
  | moveObj
  | moveInt
  | moveReal
  | moveBool
  | intToReal
  | realToInt
  | boolToInt
  | intToBool
  | negInt
  | negReal
  | notBool
  | invInt
  | constNull
  | constInt
  | constReal
  | constBool
  | constObj
  | addInt
  | subInt
  | mulInt
  | divInt
  | modInt
  | addReal
  | subReal
  | mulReal
  | divReal
  | modReal
  | andInt
  | orInt
  | xorInt
  | shlInt
  | shrInt
  | ushrInt
  | cmpEqInt
  | cmpNeqInt
  | cmpLtInt
  | cmpLteInt
  | cmpGtInt
  | cmpGteInt
  | cmpEqReal
  | cmpNeqReal
  | cmpLtReal
  | cmpLteReal
  | cmpGtReal
  | cmpGteReal
  | cmpEqBool
  | cmpNeqBool
  | cmpEqIntReal
  | cmpEqRealInt
  | cmpNeqIntReal
  | cmpNeqRealInt
  | cmpLtIntReal
  | cmpLtRealInt
  | cmpLteIntReal
  | cmpLteRealInt
  | cmpGtIntReal
  | cmpGtRealInt
  | cmpGteIntReal
  | cmpGteRealInt
  | andBool
  | orBool
  | incInt
  | decInt
  | ret
  | jmp
  | jmpIfTrue
  | jmpIfFalse
  | callDirect
  | callFallback
  | callVirtual
  | getField
  | setField
  | getIndex
  | setIndex
  | evalFallback
  deriving DecidableEq, Repr, Inhabited

namespace Opcode

/- The name of an opcode in listings. -/
def mnemonic : Opcode → String
  | nop => "NOP"
  | retVoid => "RET_VOID"
  | moveObj => "MOVE_OBJ"
  | moveInt => "MOVE_INT"
  | moveReal => "MOVE_REAL"
  | moveBool => "MOVE_BOOL"
  | intToReal => "INT_TO_REAL"
  | realToInt => "REAL_TO_INT"
  | boolToInt => "BOOL_TO_INT"
  | intToBool => "INT_TO_BOOL"
  | negInt => "NEG_INT"
  | negReal => "NEG_REAL"
  | notBool => "NOT_BOOL"
  | invInt => "INV_INT"
  | constNull => "CONST_NULL"
  | constInt => "CONST_INT"
  | constReal => "CONST_REAL"
  | constBool => "CONST_BOOL"
  | constObj => "CONST_OBJ"
  | addInt => "ADD_INT"
  | subInt => "SUB_INT"
  | mulInt => "MUL_INT"
  | divInt => "DIV_INT"
  | modInt => "MOD_INT"
  | addReal => "ADD_REAL"
  | subReal => "SUB_REAL"
  | mulReal => "MUL_REAL"
  | divReal => "DIV_REAL"
  | modReal => "MOD_REAL"
  | andInt => "AND_INT"
  | orInt => "OR_INT"
  | xorInt => "XOR_INT"
  | shlInt => "SHL_INT"
  | shrInt => "SHR_INT"
  | ushrInt => "USHR_INT"
  | cmpEqInt => "CMP_EQ_INT"
  | cmpNeqInt => "CMP_NEQ_INT"
  | cmpLtInt => "CMP_LT_INT"
  | cmpLteInt => "CMP_LTE_INT"
  | cmpGtInt => "CMP_GT_INT"
  | cmpGteInt => "CMP_GTE_INT"
  | cmpEqReal => "CMP_EQ_REAL"
  | cmpNeqReal => "CMP_NEQ_REAL"
  | cmpLtReal => "CMP_LT_REAL"
  | cmpLteReal => "CMP_LTE_REAL"
  | cmpGtReal => "CMP_GT_REAL"
  | cmpGteReal => "CMP_GTE_REAL"
  | cmpEqBool => "CMP_EQ_BOOL"
  | cmpNeqBool => "CMP_NEQ_BOOL"
  | cmpEqIntReal => "CMP_EQ_INT_REAL"
  | cmpEqRealInt => "CMP_EQ_REAL_INT"
  | cmpNeqIntReal => "CMP_NEQ_INT_REAL"
  | cmpNeqRealInt => "CMP_NEQ_REAL_INT"
  | cmpLtIntReal => "CMP_LT_INT_REAL"
  | cmpLtRealInt => "CMP_LT_REAL_INT"
  | cmpLteIntReal => "CMP_LTE_INT_REAL"
  | cmpLteRealInt => "CMP_LTE_REAL_INT"
  | cmpGtIntReal => "CMP_GT_INT_REAL"
  | cmpGtRealInt => "CMP_GT_REAL_INT"
  | cmpGteIntReal => "CMP_GTE_INT_REAL"
  | cmpGteRealInt => "CMP_GTE_REAL_INT"
  | andBool => "AND_BOOL"
  | orBool => "OR_BOOL"
  | incInt => "INC_INT"
  | decInt => "DEC_INT"
  | ret => "RET"
  | jmp => "JMP"
  | jmpIfTrue => "JMP_IF_TRUE"
  | jmpIfFalse => "JMP_IF_FALSE"
  | callDirect => "CALL_DIRECT"
  | callFallback => "CALL_FALLBACK"
  | callVirtual => "CALL_VIRTUAL"
  | getField => "GET_FIELD"
  | setField => "SET_FIELD"
  | getIndex => "GET_INDEX"
  | setIndex => "SET_INDEX"
  | evalFallback => "EVAL_FALLBACK"

/- The shape of an opcode. -/
def shape : Opcode → Shape
  | nop | retVoid => .bare
  | moveObj | moveInt | moveReal | moveBool | intToReal
  | realToInt | boolToInt | intToBool | negInt | negReal
  | notBool | invInt => .slots2
  | constNull => .slot
  | constInt | constReal | constBool | constObj => .constSlot
  | addInt | subInt | mulInt | divInt | modInt | addReal
  | subReal | mulReal | divReal | modReal | andInt | orInt
  | xorInt | shlInt | shrInt | ushrInt | cmpEqInt
  | cmpNeqInt | cmpLtInt | cmpLteInt | cmpGtInt | cmpGteInt
  | cmpEqReal | cmpNeqReal | cmpLtReal | cmpLteReal
  | cmpGtReal | cmpGteReal | cmpEqBool | cmpNeqBool
  | cmpEqIntReal | cmpEqRealInt | cmpNeqIntReal
  | cmpNeqRealInt | cmpLtIntReal | cmpLtRealInt
  | cmpLteIntReal | cmpLteRealInt | cmpGtIntReal
  | cmpGtRealInt | cmpGteIntReal | cmpGteRealInt | andBool
  | orBool => .slots3
  | incInt | decInt | ret => .slot
  | jmp => .target
  | jmpIfTrue | jmpIfFalse => .slotTarget
  | callDirect | callFallback => .directCall
  | callVirtual => .virtualCall
  | getField | setField => .field
  | getIndex | setIndex => .slots3
  | evalFallback => .eval

/- Every opcode, in byte order. -/
def all : List Opcode :=
  [nop, retVoid, moveObj, moveInt, moveReal, moveBool,
   intToReal, realToInt, boolToInt, intToBool, negInt,
   negReal, notBool, invInt, constNull, constInt, constReal,
   constBool, constObj, addInt, subInt, mulInt, divInt,
   modInt, addReal, subReal, mulReal, divReal, modReal,
   andInt, orInt, xorInt, shlInt, shrInt, ushrInt, cmpEqInt,
   cmpNeqInt, cmpLtInt, cmpLteInt, cmpGtInt, cmpGteInt,
   cmpEqReal, cmpNeqReal, cmpLtReal, cmpLteReal, cmpGtReal,
   cmpGteReal, cmpEqBool, cmpNeqBool, cmpEqIntReal,
   cmpEqRealInt, cmpNeqIntReal, cmpNeqRealInt, cmpLtIntReal,
   cmpLtRealInt, cmpLteIntReal, cmpLteRealInt, cmpGtIntReal,
   cmpGtRealInt, cmpGteIntReal, cmpGteRealInt, andBool,
   orBool, incInt, decInt, ret, jmp, jmpIfTrue, jmpIfFalse,
   callDirect, callFallback, callVirtual, getField, setField,
   getIndex, setIndex, evalFallback]

/- The table of opcodes by byte. -/
def table : Array Opcode :=
  all.toArray

/- The byte that encodes an opcode. -/
def byte
    (op : Opcode) : UInt8 :=
  UInt8.ofNat op.ctorIdx

/- The opcode that a byte encodes, if any. -/
def ofByte?
    (b : UInt8) : Option Opcode :=
  table[b.toNat]?

/- The opcode of a given mnemonic, if any. -/
def ofMnemonic?
    (name : String) : Option Opcode :=
  all.find? fun op => op.mnemonic == name

/- The operand kinds of an opcode, in encoding order. -/
def operands
    (op : Opcode) : List OperandKind :=
  op.shape.operands

/- Whether an opcode transfers control. -/
def isJump : Opcode → Bool
  | jmp | jmpIfTrue | jmpIfFalse => true
  | _ => false

/- Whether an opcode dispatches through a call site. -/
def isDynamicCall : Opcode → Bool
  | callVirtual => true
  | _ => false

/- Reading back the byte of an opcode gives the opcode. -/
theorem ofByte?_byte
    (op : Opcode) :
    ofByte? op.byte = some op := by
  cases op <;> rfl

end Opcode

end RegisterVM
