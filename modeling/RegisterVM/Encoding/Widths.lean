import RegisterVM.Opcode

/-
  Operand widths. Every function chooses how many bytes its slot
  indices, jump targets and constant ids take; counts share the
  slot width and name ids the constant width.

  Key definitions include:
    * `Widths`
    * `Widths.Valid`
    * `Widths.check`
    * `Widths.fit`
    * `Widths.widthOf`
    * `Widths.maxValue`
    * `Widths.instrLen`
-/

namespace RegisterVM

------------------------------------------------------------
-- Widths and their faults
------------------------------------------------------------

/- Bytes taken by slot indices, jump targets and constant ids. -/
structure Widths where
  slot : UInt8
  ip : UInt8
  konst : UInt8
  deriving DecidableEq, Repr, Inhabited

/- Why a choice of widths is refused. -/
inductive WidthError where
  | slot (width : UInt8)
  | ip (width : UInt8)
  | konst (width : UInt8)
  | noDecoder (slotWidth : UInt8)
  deriving DecidableEq, Repr

/- The text of a width fault. -/
def WidthError.message : WidthError → String
  | slot w => s!"invalid slot width {w} (expected 1, 2 or 4)"
  | ip w => s!"invalid ip width {w} (expected 2 or 4)"
  | konst w => s!"invalid constant width {w} (expected 2 or 4)"
  | noDecoder w => s!"no decoder for slot width {w}"

namespace Widths

/- The narrowest encoding. -/
def compact : Widths :=
  ⟨1, 2, 2⟩

/- The widest encoding. -/
def wide : Widths :=
  ⟨4, 4, 4⟩

------------------------------------------------------------
-- Validity
------------------------------------------------------------

/- Slots take 1, 2 or 4 bytes, targets and constants 2 or 4. -/
structure Valid
    (w : Widths) : Prop where
  slot : w.slot = 1 ∨ w.slot = 2 ∨ w.slot = 4
  ip : w.ip = 2 ∨ w.ip = 4
  konst : w.konst = 2 ∨ w.konst = 4

instance
    (w : Widths) :
    Decidable w.Valid :=
  decidable_of_iff
    ((w.slot = 1 ∨ w.slot = 2 ∨ w.slot = 4) ∧
      (w.ip = 2 ∨ w.ip = 4) ∧ (w.konst = 2 ∨ w.konst = 4))
    ⟨fun h => ⟨h.1, h.2.1, h.2.2⟩,
      fun h => ⟨h.slot, h.ip, h.konst⟩⟩

/- Accept valid widths, or report the first invalid one. -/
def check
    (w : Widths) : Except WidthError Unit :=
  if w.slot = 1 ∨ w.slot = 2 ∨ w.slot = 4 then
    if w.ip = 2 ∨ w.ip = 4 then
      if w.konst = 2 ∨ w.konst = 4 then .ok ()
      else .error (.konst w.konst)
    else .error (.ip w.ip)
  else .error (.slot w.slot)

/- The check accepts exactly the valid widths. -/
theorem check_eq_ok_iff
    (w : Widths) :
    w.check = .ok () ↔ w.Valid := by
  unfold check
  constructor
  · intro h
    split at h
    next hSlot =>
      split at h
      next hIp =>
        split at h
        next hKonst => exact ⟨hSlot, hIp, hKonst⟩
        · cases h
      · cases h
    · cases h
  · intro h
    rw [if_pos h.slot, if_pos h.ip, if_pos h.konst]

------------------------------------------------------------
-- Choosing widths
------------------------------------------------------------

/-
  The narrowest widths that address a number of slots, bytes of
  code and constants. A jump may target the end of the code, so
  the code length itself must be addressable.
-/
def fit
    (slots codeLen consts : Nat) : Widths where
  slot :=
    if slots ≤ 0x100 then 1
    else if slots ≤ 0x10000 then 2
    else 4
  ip := if codeLen ≤ 0xFFFF then 2 else 4
  konst := if consts ≤ 0x10000 then 2 else 4

------------------------------------------------------------
-- Measures
------------------------------------------------------------

/- The width, in bytes, of an operand of a kind. -/
def widthOf
    (w : Widths) : OperandKind → UInt8
  | .slot | .count => w.slot
  | .ip => w.ip
  | .konst | .id => w.konst

/-
  The largest value of an operand of a kind. Slots and counts
  of four bytes stop at 2^31 - 1.
-/
def maxValue
    (w : Widths)
    (kind : OperandKind) : Nat :=
  if w.widthOf kind = 1 then
    0xFF
  else if w.widthOf kind = 2 then
    0xFFFF
  else
    match kind with
    | .slot | .count => 0x7FFFFFFF
    | .ip | .konst | .id => 0xFFFFFFFF

/- The encoded size of an instruction, opcode byte included. -/
def instrLen
    (w : Widths)
    (op : Opcode) : Nat :=
  op.operands.foldr (fun kind size => (w.widthOf kind).toNat + size) 1

/- The text of a choice of widths. -/
def text
    (w : Widths) : String :=
  s!"s{w.slot}/ip{w.ip}/k{w.konst}"

end Widths

end RegisterVM
