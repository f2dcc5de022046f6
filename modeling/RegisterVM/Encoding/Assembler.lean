import RegisterVM.Encoding.Decoder

/-
  The assembler. It appends instructions at fixed widths, checks
  every operand against its range, and patches jump targets once
  they are known.

  Key definitions include:
    * `AssembleError`
    * `JumpLabel`
    * `Assembler`
    * `Assembling`
    * `Assembler.emit`
    * `Assembler.emitJump`
    * `Assembler.patch`
-/

namespace RegisterVM

------------------------------------------------------------
-- Faults
------------------------------------------------------------

/- Why the assembler refuses a request. -/
inductive AssembleError where
  | arity (op : Opcode) (expected got : Nat)
  | range (op : Opcode) (operand : Operand) (width : UInt8)
  | notJump (op : Opcode)
  | target (target : Nat) (width : UInt8)
  | noLabel (number : Nat)
  deriving DecidableEq, Repr

/- The text of an assembler fault. -/
def AssembleError.message : AssembleError → String
  | arity op expected got =>
    s!"{op.mnemonic} expects {expected} operands, got {got}"
  | range op operand width =>
    s!"{op.mnemonic} operand {operand.text} exceeds {width}-byte width"
  | notJump op =>
    s!"{op.mnemonic} is not a jump"
  | target t width =>
    s!"jump target {t} exceeds {width}-byte ip width"
  | noLabel number =>
    s!"no label {number}"

------------------------------------------------------------
-- State
------------------------------------------------------------

/- A jump whose target is still to be patched. -/
structure JumpLabel where
  /- Offset of the jump instruction. -/
  instr : Nat
  /- Offset of its target operand. -/
  operandAt : Nat
  deriving DecidableEq, Repr

/- Code under construction at fixed widths. -/
structure Assembler where
  widths : Widths
  code : Code := #[]
  deriving DecidableEq, Repr

/-
  A request to an assembler. It yields a result or a fault, and
  leaves some code behind after either.
-/
abbrev Assembling (α : Type) :=
  Effect Assembler AssembleError α

namespace Assembler

/- An empty assembler for valid widths. -/
def new
    (w : Widths) : Except WidthError Assembler := do
  w.check
  return { widths := w }

/- The offset of the next instruction. -/
def here
    (asm : Assembler) : Nat :=
  asm.code.size

------------------------------------------------------------
-- Emitting
------------------------------------------------------------

/- The bytes of an operand. -/
def operandBytes
    (w : Widths)
    (operand : Operand) : List UInt8 :=
  bytesLE (w.widthOf operand.kind).toNat operand.value

/- Pair the operand kinds of an opcode with values. -/
def tagged
    (op : Opcode)
    (values : List Nat) : List Operand :=
  List.zipWith Operand.mk op.operands values

/- Refuse operands of which one is beyond the range of its kind. -/
def checkAll
    (op : Opcode) : List Operand → Assembling Unit
  | [] => return ()
  | operand :: rest => do
    let w := (← get).widths
    unless operand.value ≤ w.maxValue operand.kind do
      throw (.range op operand (w.widthOf operand.kind))
    checkAll op rest

/- Append bytes to the code. -/
def push
    (bytes : List UInt8) : Assembling Unit :=
  modify fun asm => { asm with code := asm.code ++ bytes }

/- Append operands to the code. -/
def pushAll : List Operand → Assembling Unit
  | [] => return ()
  | operand :: rest => do
    push (operandBytes (← get).widths operand)
    pushAll rest

/-
  Append an instruction, and yield its offset. All operands are
  checked before the first byte is appended.
-/
def emit
    (op : Opcode)
    (values : List Nat) : Assembling Nat := do
  unless values.length = op.operands.length do
    throw (.arity op op.operands.length values.length)
  checkAll op (tagged op values)
  let offset := (← get).here
  push [op.byte]
  pushAll (tagged op values)
  return offset

/-
  Append an instruction a number of times, and yield the offset of
  the last one.
-/
def emitTimes
    (op : Opcode)
    (values : List Nat) : (times : Nat) → Assembling Nat
  | 0 => return (← get).here
  | 1 => emit op values
  | times + 2 => do
    let _ ← emit op values
    emitTimes op values (times + 1)

/-
  Append a jump with target zero. The values are those before
  the target, which is the last operand of every jump.
-/
def emitJump
    (op : Opcode)
    (values : List Nat) : Assembling JumpLabel := do
  unless op.operands.getLast? = some .ip do
    throw (.notJump op)
  let instr ← emit op (values ++ [0])
  let asm ← get
  return ⟨instr, asm.here - asm.widths.ip.toNat⟩

/- Overwrite a run of bytes from a position on. -/
def overwrite : Code → (position : Nat) → List UInt8 → Code
  | code, _, [] => code
  | code, position, b :: rest =>
    overwrite (code.setIfInBounds position b) (position + 1) rest

/- Point a label at a target. -/
def patch
    (label : JumpLabel)
    (target : Nat) : Assembling Unit := do
  let asm ← get
  unless target ≤ asm.widths.maxValue .ip do
    throw (.target target asm.widths.ip)
  set
    { asm with
      code := overwrite asm.code label.operandAt
        (bytesLE asm.widths.ip.toNat target) }

end Assembler

end RegisterVM
