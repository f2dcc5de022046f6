/-
  Blank characters, and cutting text at characters.

  Key definitions include:
    * `Text.isBlank`
    * `Text.trim`
    * `Text.cut`
    * `Text.words`
-/

namespace RegisterVM

namespace Text

/- The code points of blank characters. -/
def blankRanges : List (Nat × Nat) :=
  [(0x9, 0xD), (0x20, 0x20), (0x85, 0x85), (0xA0, 0xA0),
   (0x1680, 0x1680), (0x2000, 0x200A), (0x2028, 0x2029),
   (0x202F, 0x202F), (0x205F, 0x205F), (0x3000, 0x3000)]

/- Whether a character is blank. -/
def isBlank
    (c : Char) : Bool :=
  blankRanges.any fun (first, last) =>
    first ≤ c.toNat && c.toNat ≤ last

/- Drop blanks from both ends. -/
def trim
    (s : List Char) : List Char :=
  ((s.dropWhile isBlank).reverse.dropWhile isBlank).reverse

/-
  Cut text at every separator. There is one part more than there
  are separators, and parts may be empty.
-/
def cut
    (isSeparator : Char → Bool) : List Char → List (List Char)
  | [] => [[]]
  | c :: rest =>
    if isSeparator c then
      [] :: cut isSeparator rest
    else
      match cut isSeparator rest with
      | [] => [[c]]
      | part :: parts => (c :: part) :: parts

/- The non-empty runs between blanks. -/
def words
    (s : List Char) : List (List Char) :=
  (cut isBlank s).filter fun word => !word.isEmpty

/- A letter of the basic alphabet in lower case, all else as it is. -/
def lower
    (c : Char) : Char :=
  if 'A' ≤ c ∧ c ≤ 'Z' then Char.ofNat (c.toNat + 32) else c

/- Equality up to the case of basic letters. -/
def sameLetters
    (s t : List Char) : Bool :=
  s.map lower == t.map lower

end Text

end RegisterVM
