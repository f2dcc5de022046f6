import RegisterVM.Decimal.Shortest

/-
  Floating-point numbers of 64 bits, held as their bit pattern.

  Key definitions include:
    * `Binary64`
    * `Binary64.isNaN`
    * `Binary64.eqv`
    * `Binary64.text`
    * `Binary64.ratio`
-/

namespace RegisterVM

/- A number in the binary interchange format of 64 bits. -/
structure Binary64 where
  bits : UInt64
  deriving DecidableEq, Repr, Inhabited

namespace Binary64

------------------------------------------------------------
-- Fields of the format
------------------------------------------------------------

/- Positive zero. -/
def zero : Binary64 :=
  ⟨0⟩

/- Whether the sign bit is set. -/
def isNegative
    (x : Binary64) : Bool :=
  0x8000000000000000 ≤ x.bits.toNat

/- The exponent field. -/
def exponentField
    (x : Binary64) : Nat :=
  x.bits.toNat / 0x10000000000000 % 0x800

/- The fraction field. -/
def fraction
    (x : Binary64) : Nat :=
  x.bits.toNat % 0x10000000000000

/- Whether the pattern is no number. -/
def isNaN
    (x : Binary64) : Bool :=
  x.exponentField == 2047 && x.fraction != 0

/- Whether the pattern is infinite. -/
def isInfinite
    (x : Binary64) : Bool :=
  x.exponentField == 2047 && x.fraction == 0

/- Whether the pattern is a zero of either sign. -/
def isZero
    (x : Binary64) : Bool :=
  x.exponentField == 0 && x.fraction == 0

/-
  Numeric equality: the two zeros are equal, and a pattern that
  is no number differs from everything.
-/
def eqv
    (x y : Binary64) : Bool :=
  !x.isNaN && !y.isNaN && (x.bits == y.bits || (x.isZero && y.isZero))

------------------------------------------------------------
-- Text
------------------------------------------------------------

/- The reals that round to a positive finite number. -/
def interval
    (x : Binary64) : Decimal.Interval :=
  if x.exponentField = 0 then
    .around x.fraction (-1074) false
  else
    .around (x.fraction + 0x10000000000000) (x.exponentField - 1075)
      (x.fraction == 0 && 1 < x.exponentField)

/-
  A decimal in positional form when its point falls within the
  first sixteen digits or at most four zeros before them, and
  with an exponent otherwise.
-/
def decimalText
    (d : Decimal) : String :=
  let digits := Nat.toDigits 10 d.digits
  let point : Int := digits.length + d.exponent
  let zeros (n : Int) := List.replicate n.toNat '0'
  let chars :=
    if 0 ≤ d.exponent ∧ point ≤ 16 then
      digits ++ zeros d.exponent ++ ['.', '0']
    else if 0 < point ∧ point ≤ 16 then
      digits.take point.toNat ++ ['.'] ++ digits.drop point.toNat
    else if -5 < point ∧ point ≤ 0 then
      ['0', '.'] ++ zeros (-point) ++ digits
    else
      let tail := digits.drop 1
      digits.take 1 ++ (if tail.isEmpty then [] else '.' :: tail)
        ++ ['e'] ++ (toString (point - 1)).toList
  String.ofList chars

/- The shortest text that reads back as the number. -/
def text
    (x : Binary64) : String :=
  if x.isNaN then
    "NaN"
  else
    let sign := if x.isNegative then "-" else ""
    if x.isInfinite then
      sign ++ "inf"
    else if x.isZero then
      sign ++ "0.0"
    else
      sign ++ decimalText (Decimal.shortest x.interval)

------------------------------------------------------------
-- Ratios of counts
------------------------------------------------------------

/- The quotient of two counts, each rounded before dividing. -/
def ratio
    (part whole : Nat) : Binary64 :=
  ⟨(part.toUInt64.toFloat / whole.toUInt64.toFloat).toBits⟩

end Binary64

end RegisterVM
