import RegisterVM.Text.Visible

/-
  Quoted text: a string between double quotes, in which quotes,
  backslashes and characters without a visible form are escaped.

  Key definitions include:
    * `Text.lowerHex`
    * `Text.escape`
    * `Text.quote`
-/

namespace RegisterVM

namespace Text

/- A number in lower-case hexadecimal, without leading zeros. -/
def lowerHex
    (n : Nat) : List Char :=
  Nat.toDigits 16 n

/- A character inside quotes. -/
def escape
    (c : Char) : List Char :=
  if c = '"' then ['\\', '"']
  else if c = '\\' then ['\\', '\\']
  else if c = '\n' then ['\\', 'n']
  else if c = '\r' then ['\\', 'r']
  else if c = '\t' then ['\\', 't']
  else if c.toNat = 0 then ['\\', '0']
  else if isVisible c then [c]
  else ['\\', 'u', '\x7b'] ++ lowerHex c.toNat ++ ['\x7d']

/- A string between double quotes. -/
def quote
    (s : String) : String :=
  String.ofList (['"'] ++ s.toList.flatMap escape ++ ['"'])

end Text

end RegisterVM
