import RegisterVM.Effect
import RegisterVM.Encoding.Widths

/-
  Code buffers and the little-endian numbers stored in them.

  Key definitions include:
    * `Code`
    * `DecodeError`
    * `bytesLE`
    * `natLE`
    * `Cursor`
    * `Code.readLE`
-/

namespace RegisterVM

/- A buffer of encoded instructions. -/
abbrev Code :=
  Array UInt8

------------------------------------------------------------
-- Decoding faults
------------------------------------------------------------

/- Why bytes at some offset are not an instruction. -/
inductive DecodeError where
  | unknownOpcode (offset : Nat) (byte : UInt8)
  | truncated (offset needed : Nat)
  deriving DecidableEq, Repr

/- Two lower-case hexadecimal digits of a byte. -/
def hexByte
    (b : UInt8) : String :=
  String.ofList
    [Nat.digitChar (b.toNat / 16), Nat.digitChar (b.toNat % 16)]

/- The text of a decoding fault. -/
def DecodeError.message : DecodeError → String
  | unknownOpcode offset byte =>
    s!"unknown opcode 0x{hexByte byte} at offset {offset}"
  | truncated offset needed =>
    s!"truncated operand at offset {offset} ({needed} bytes needed)"

------------------------------------------------------------
-- Little-endian numbers
------------------------------------------------------------

/- The lowest `width` bytes of a number, least significant first. -/
def bytesLE : (width : Nat) → (value : Nat) → List UInt8
  | 0, _ => []
  | width + 1, value =>
    UInt8.ofNat value :: bytesLE width (value / 256)

/- The number spelled by bytes, least significant first. -/
def natLE : List UInt8 → Nat
  | [] => 0
  | b :: rest => b.toNat + 256 * natLE rest

------------------------------------------------------------
-- Reading
------------------------------------------------------------

/-
  A reading of code at a cursor. It yields a value or a fault, and
  leaves the cursor at some offset after either.
-/
abbrev Cursor (α : Type) :=
  Effect Nat DecodeError α

/-
  Read `width` bytes as one number and step past them. It is a
  fault if they do not all lie in the buffer.
-/
def Code.readLE
    (code : Code)
    (width : Nat) : Cursor Nat := do
  let start ← get
  let stop := start + width
  unless stop ≤ code.size do
    throw (.truncated start width)
  set stop
  return natLE (code.extract start stop).toList

end RegisterVM
