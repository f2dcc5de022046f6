import RegisterVM.Settings.Document
import RegisterVM.Text.Hex

/-
  TOML scalars without quotes: integers, floats, truth values,
  dates and times.

  Key definitions include:
    * `Toml.integer?`
    * `Toml.isFloat`
    * `Toml.isMoment`
    * `Toml.scalar?`
-/

namespace RegisterVM

namespace Toml

------------------------------------------------------------
-- Digits
------------------------------------------------------------

/- The value of a digit below a base. -/
def digit?
    (base : Nat)
    (c : Char) : Option Nat :=
  (Text.hexDigit? c).filter fun d => d < base

/-
  The digits of a text in which single underscores may stand
  between digits.
-/
def digits?
    (base : Nat) : List Char → Option (List Nat)
  | [] => none
  | [c] => (digit? base c).map ([·])
  | c :: '_' :: rest => do
    let d ← digit? base c
    return d :: (← digits? base rest)
  | c :: rest => do
    let d ← digit? base c
    return d :: (← digits? base rest)

/- The number of some digits. -/
def number
    (base : Nat)
    (digits : List Nat) : Nat :=
  digits.foldl (fun n d => n * base + d) 0

/- A text without the sign that may stand before it. -/
def unsigned : List Char → List Char
  | '+' :: rest => rest
  | '-' :: rest => rest
  | text => text

/- A decimal number without needless zeros before it. -/
def decimal?
    (text : List Char) : Option Nat := do
  let digits ← digits? 10 text
  match digits with
  | 0 :: _ :: _ => none
  | _ => return number 10 digits

------------------------------------------------------------
-- Numbers
------------------------------------------------------------

/- An integer, in decimal or with the mark of another base. -/
def integer? : List Char → Option Int
  | '0' :: 'x' :: rest => (digits? 16 rest).map fun ds => number 16 ds
  | '0' :: 'o' :: rest => (digits? 8 rest).map fun ds => number 8 ds
  | '0' :: 'b' :: rest => (digits? 2 rest).map fun ds => number 2 ds
  | '-' :: rest => (decimal? rest).map fun n => -(n : Int)
  | '+' :: rest => (decimal? rest).map fun n => (n : Int)
  | text => (decimal? text).map fun n => (n : Int)

/- Whether a character starts the exponent of a float. -/
def isExponentMark
    (c : Char) : Bool :=
  c == 'e' || c == 'E'

/- Whether `mantissa · 10 ^ exponent` rounds to an infinite number. -/
def overflows
    (mantissa : Nat)
    (exponent : Int) : Bool :=
  let size : Int := (Nat.toDigits 10 mantissa).length
  if mantissa = 0 ∨ size + exponent < 300 then
    false
  else if 400 < size + exponent then
    true
  else
    Nat.pow 2 1024 - Nat.pow 2 970 ≤
      mantissa * Nat.pow 10 exponent.toNat
        / Nat.pow 10 (-exponent).toNat

/- Whether a text is a float. -/
def isFloat
    (text : List Char) : Bool :=
  let text := unsigned text
  if text = "inf".toList ∨ text = "nan".toList then
    true
  else
    let whole := text.takeWhile fun c => c ≠ '.' && !isExponentMark c
    let rest := text.drop whole.length
    let fraction :=
      match rest with
      | '.' :: more => more.takeWhile fun c => !isExponentMark c
      | _ => []
    let exponent :=
      match rest with
      | '.' :: more => more.drop fraction.length
      | other => other
    let hasPoint := rest.head? == some '.'
    let wholeOk := (decimal? whole).isSome
    let fractionOk := !hasPoint || (digits? 10 fraction).isSome
    let power := digits? 10 (unsigned (exponent.drop 1))
    let exponentOk := exponent.isEmpty || power.isSome
    let shape := wholeOk && fractionOk && exponentOk && !rest.isEmpty
    let wholeDigits := (digits? 10 whole).getD []
    let fractionDigits := (digits? 10 fraction).getD []
    let size : Int := number 10 (power.getD [])
    let signed := if (exponent.drop 1).head? == some '-' then -size else size
    shape &&
      !overflows (number 10 (wholeDigits ++ fractionDigits))
        (signed - fractionDigits.length)

------------------------------------------------------------
-- Dates and times
------------------------------------------------------------

/- A number of exactly two digits. -/
def twoDigits?
    (a b : Char) : Option Nat := do
  return (← digit? 10 a) * 10 + (← digit? 10 b)

/- The days of a month. -/
def daysIn
    (year month : Nat) : Nat :=
  if month = 2 then
    if year % 4 = 0 ∧ (year % 100 ≠ 0 ∨ year % 400 = 0) then 29 else 28
  else if month = 4 ∨ month = 6 ∨ month = 9 ∨ month = 11 then
    30
  else
    31

/- The text after a date at the front, if there is one. -/
def afterDate? : List Char → Option (List Char)
  | y1 :: y2 :: y3 :: y4 :: '-' :: m1 :: m2 :: '-' :: d1 :: d2 :: rest => do
    let year := (← twoDigits? y1 y2) * 100 + (← twoDigits? y3 y4)
    let month ← twoDigits? m1 m2
    let day ← twoDigits? d1 d2
    guard (1 ≤ month && month ≤ 12)
    guard (1 ≤ day && day ≤ daysIn year month)
    return rest
  | _ => none

/- The text after the seconds of a time, which may be left out. -/
def afterSeconds? : List Char → Option (List Char)
  | ':' :: s1 :: s2 :: rest => do
    guard ((← twoDigits? s1 s2) ≤ 60)
    match rest with
    | '.' :: more =>
      let fraction := more.takeWhile fun c => (digit? 10 c).isSome
      guard (!fraction.isEmpty)
      return more.drop fraction.length
    | other => return other
  | other => some other

/- The text after a time at the front, if there is one. -/
def afterTime? : List Char → Option (List Char)
  | h1 :: h2 :: ':' :: m1 :: m2 :: rest => do
    guard ((← twoDigits? h1 h2) ≤ 23)
    guard ((← twoDigits? m1 m2) ≤ 59)
    afterSeconds? rest
  | _ => none

/- Whether a text is the offset of a time, or nothing. -/
def isOffset : List Char → Bool
  | [] => true
  | [c] => c == 'Z' || c == 'z'
  | sign :: h1 :: h2 :: ':' :: [m1, m2] =>
    (sign == '+' || sign == '-')
      && ((twoDigits? h1 h2).any fun h => h ≤ 23)
      && ((twoDigits? m1 m2).any fun m => m ≤ 59)
  | _ => false

/- Whether a text is a date, a time, or both. -/
def isMoment
    (text : List Char) : Bool :=
  match afterDate? text with
  | some [] => true
  | some (mark :: rest) =>
    (mark == 'T' || mark == 't') && ((afterTime? rest).any isOffset)
  | none => afterTime? text == some []

------------------------------------------------------------
-- Scalars
------------------------------------------------------------

/- The range of integers that can be held. -/
def isStorable
    (n : Int) : Bool :=
  -Int.pow 2 127 ≤ n && n < Int.pow 2 128

/- The value of a scalar without quotes. -/
def scalar?
    (text : List Char) : Option Node :=
  if text = "true".toList then
    some (.boolean true)
  else if text = "false".toList then
    some (.boolean false)
  else
    match integer? text with
    | some n => if isStorable n then some (.integer n) else none
    | none =>
      if isFloat text then some .float
      else if isMoment text then some .moment
      else none

end Toml

end RegisterVM
