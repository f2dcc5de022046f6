import RegisterVM.Text.Blank

/-
  Hexadecimal layouts of bytes. A layout is a sequence of lines;
  on each, everything from the first hash sign on is a comment,
  and the rest is a sequence of words separated by blanks. A word
  is a run of digits, with or without `0x` before it. The digits
  of all words, two to a byte, spell the bytes; a byte may begin
  in one word and end in another.

  Key definitions include:
    * `Text.HexError`
    * `Text.hexDigit?`
    * `Text.hexDigits`
    * `Text.parseHex`
-/

namespace RegisterVM

namespace Text

------------------------------------------------------------
-- Faults
------------------------------------------------------------

/- Why text is no layout. -/
inductive HexError where
  | digit (c : Char)
  | odd (count : Nat)
  deriving DecidableEq, Repr

/- The text of a layout fault. -/
def HexError.message : HexError → String
  | digit c => s!"invalid hex digit '{c}'"
  | odd count => s!"odd number of hex digits ({count})"

------------------------------------------------------------
-- Digits
------------------------------------------------------------

/- The value of a hexadecimal digit of either case. -/
def hexDigit?
    (c : Char) : Option Nat :=
  if '0' ≤ c ∧ c ≤ '9' then some (c.toNat - '0'.toNat)
  else if 'a' ≤ c ∧ c ≤ 'f' then some (c.toNat - 'a'.toNat + 10)
  else if 'A' ≤ c ∧ c ≤ 'F' then some (c.toNat - 'A'.toNat + 10)
  else none

/- The part of a line before its comment. -/
def beforeComment
    (line : List Char) : List Char :=
  line.takeWhile (· ≠ '#')

/- A word without the mark that may stand before it. -/
def dropMark : List Char → List Char
  | '0' :: 'x' :: rest => rest
  | word => word

/- The characters of all words of a text, in order. -/
def hexDigits
    (text : List Char) : List Char :=
  (cut (· = '\n') text).flatMap fun line =>
    (words (beforeComment line)).flatMap dropMark

/- The bytes spelled by pairs of digit values. -/
def pairBytes : List Nat → List UInt8
  | high :: low :: rest => UInt8.ofNat (16 * high + low) :: pairBytes rest
  | _ => []

------------------------------------------------------------
-- Layouts
------------------------------------------------------------

/-
  The bytes that a text lays out. A character that is no digit is
  reported before an odd number of digits is.
-/
def parseHex
    (text : List Char) : Except HexError (List UInt8) :=
  let digits := hexDigits text
  match digits.find? fun c => (hexDigit? c).isNone with
  | some c => .error (.digit c)
  | none =>
    if digits.length % 2 = 0 then
      .ok (pairBytes (digits.filterMap hexDigit?))
    else
      .error (.odd digits.length)

end Text

end RegisterVM
