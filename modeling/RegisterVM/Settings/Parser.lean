import RegisterVM.Settings.Scalar

/-
  Reading TOML documents. Only whether a text is a document, and
  its tree, matter here: every fault is the same.

  Key definitions include:
    * `Toml.key?`
    * `Toml.value?`
    * `Toml.line?`
    * `Toml.parse?`
-/

namespace RegisterVM

namespace Toml

/- A value read from the front of a text, and the rest. -/
abbrev Parser (α : Type) :=
  List Char → Option (α × List Char)

------------------------------------------------------------
-- Blanks and comments
------------------------------------------------------------

/- Whether a character may stand in comments and strings. -/
def isPlain
    (c : Char) : Bool :=
  c == '\t' || (0x20 ≤ c.toNat && c.toNat ≠ 0x7F)

/- Drop blanks on a line. -/
def dropBlanks
    (text : List Char) : List Char :=
  text.dropWhile fun c => c == ' ' || c == '\t'

/- Drop blanks and a comment. -/
def dropComment
    (text : List Char) : List Char :=
  match dropBlanks text with
  | '#' :: rest => rest.dropWhile isPlain
  | other => other

/- The text after the end of a line. -/
def afterNewline? : List Char → Option (List Char)
  | '\n' :: rest => some rest
  | '\r' :: '\n' :: rest => some rest
  | _ => none

/- Drop blanks, comments and line ends. -/
def dropLines : (fuel : Nat) → List Char → List Char
  | 0, text => text
  | fuel + 1, text =>
    let text := dropComment text
    match afterNewline? text with
    | some rest => dropLines fuel rest
    | none => text

------------------------------------------------------------
-- Strings
------------------------------------------------------------

/- A character by its number, given in some hexadecimal digits. -/
def hexChar?
    (count : Nat) : Parser Char := fun text => do
  let digits := text.take count
  guard (digits.length = count)
  let values ← digits.mapM Text.hexDigit?
  let n := number 16 values
  guard (n < 0xD800 || (0xDFFF < n && n < 0x110000))
  return (Char.ofNat n, text.drop count)

/- The character of an escape, after its backslash. -/
def escaped? : Parser Char
  | 'b' :: rest => some ('\x08', rest)
  | 't' :: rest => some ('\t', rest)
  | 'n' :: rest => some ('\n', rest)
  | 'f' :: rest => some ('\x0c', rest)
  | 'r' :: rest => some ('\r', rest)
  | 'e' :: rest => some ('\x1b', rest)
  | '"' :: rest => some ('"', rest)
  | '\\' :: rest => some ('\\', rest)
  | 'x' :: rest => hexChar? 2 rest
  | 'u' :: rest => hexChar? 4 rest
  | 'U' :: rest => hexChar? 8 rest
  | _ => none

/- A string on one line, after its opening quote. -/
def basicString? : (fuel : Nat) → Parser (List Char)
  | 0, _ => none
  | fuel + 1, text =>
    match text with
    | '"' :: rest => some ([], rest)
    | '\\' :: rest => do
      let (c, rest) ← escaped? rest
      let (cs, rest) ← basicString? fuel rest
      return (c :: cs, rest)
    | c :: rest => do
      guard (isPlain c)
      let (cs, rest) ← basicString? fuel rest
      return (c :: cs, rest)
    | [] => none

/- A string without escapes on one line, after its opening quote. -/
def literalString? : Parser (List Char)
  | '\'' :: rest => some ([], rest)
  | c :: rest => do
    guard (isPlain c)
    let (cs, rest) ← literalString? rest
    return (c :: cs, rest)
  | [] => none

/-
  The end of a string over several lines. Up to two quotes of the
  string itself may stand right before the closing three.
-/
def closing?
    (quote : Char)
    (text : List Char) : Option (List Char × List Char) :=
  let quotes := text.takeWhile (· = quote)
  if quotes.length < 3 then
    none
  else if quotes.length ≤ 5 then
    some (quotes.drop 3, text.drop quotes.length)
  else
    some (List.replicate 2 quote, text.drop 5)

/- Drop the line end right after an opening quote. -/
def dropFirstNewline
    (text : List Char) : List Char :=
  (afterNewline? text).getD text

/- Drop blanks and line ends, in any order. -/
def dropSpace : List Char → List Char
  | ' ' :: rest => dropSpace rest
  | '\t' :: rest => dropSpace rest
  | '\n' :: rest => dropSpace rest
  | '\r' :: '\n' :: rest => dropSpace rest
  | text => text

/- A string over several lines, after its opening quotes. -/
def multiString?
    (quote : Char) : (fuel : Nat) → Parser (List Char)
  | 0, _ => none
  | fuel + 1, text =>
    match closing? quote text with
    | some found => some found
    | none =>
      match afterNewline? text with
      | some rest => do
        let (cs, rest) ← multiString? quote fuel rest
        return ('\n' :: cs, rest)
      | none =>
        match text with
        | [] => none
        | c :: rest =>
          if c = '\\' ∧ quote = '"' then
            match afterNewline? (dropBlanks rest) with
            | some more => multiString? quote fuel (dropSpace more)
            | none => do
              let (c, rest) ← escaped? rest
              let (cs, rest) ← multiString? quote fuel rest
              return (c :: cs, rest)
          else do
            guard (isPlain c)
            let (cs, rest) ← multiString? quote fuel rest
            return (c :: cs, rest)

/- A quoted string, over one or several lines. -/
def string? : Parser String := fun text => do
  let (cs, rest) ←
    match text with
    | '"' :: '"' :: '"' :: rest =>
      multiString? '"' (rest.length + 1) (dropFirstNewline rest)
    | '\'' :: '\'' :: '\'' :: rest =>
      multiString? '\'' (rest.length + 1) (dropFirstNewline rest)
    | '"' :: rest => basicString? (rest.length + 1) rest
    | '\'' :: rest => literalString? rest
    | _ => none
  return (String.ofList cs, rest)

------------------------------------------------------------
-- Keys
------------------------------------------------------------

/- Whether a character may stand in a key without quotes. -/
def isBare
    (c : Char) : Bool :=
  c.isAlphanum || c == '_' || c == '-'

/- One part of a key. -/
def keyPart? : Parser String := fun text => do
  match text with
  | '"' :: rest =>
    let (cs, rest) ← basicString? (rest.length + 1) rest
    return (String.ofList cs, rest)
  | '\'' :: rest =>
    let (cs, rest) ← literalString? rest
    return (String.ofList cs, rest)
  | _ =>
    let bare := text.takeWhile isBare
    guard (!bare.isEmpty)
    return (String.ofList bare, text.drop bare.length)

/- The most parts of a key. -/
def maxParts : Nat :=
  80

/-
  A key of at most so many parts, which are separated by points
  and may have blanks around them.
-/
def keyWithin? : (parts : Nat) → Parser (List String)
  | 0, _ => none
  | parts + 1, text => do
    let (part, rest) ← keyPart? (dropBlanks text)
    match dropBlanks rest with
    | '.' :: rest =>
      let (more, rest) ← keyWithin? parts rest
      return (part :: more, rest)
    | rest => return ([part], rest)

/- A key. -/
def key? : Parser (List String) :=
  keyWithin? maxParts

/- Give a dotted key a value. -/
def assign?
    (key : List String)
    (node : Node)
    (entries : Entries) : Option Entries := do
  let last ← key.getLast?
  Entries.set? last node key.dropLast entries

------------------------------------------------------------
-- Values
------------------------------------------------------------

/- Whether a character may stand in a scalar without quotes. -/
def isScalar
    (c : Char) : Bool :=
  isBare c || c == '+' || c == '.' || c == ':'

/-
  A scalar without quotes. A date and a time may be separated by
  a blank.
-/
def bareValue? : Parser Node := fun text => do
  let word := text.takeWhile isScalar
  let rest := text.drop word.length
  match afterDate? word, rest with
  | some [], ' ' :: c :: more =>
    if c.isDigit then
      let time := (c :: more).takeWhile isScalar
      let node ← scalar? (word ++ ['T'] ++ time)
      return (node, (c :: more).drop time.length)
    else
      return (.moment, rest)
  | _, _ => return (← scalar? word, rest)

/- The items of an array, after its opening bracket. -/
def items?
    (value : Parser Node) : (fuel : Nat) → Parser (List Node)
  | 0, _ => none
  | fuel + 1, text =>
    match dropLines text.length text with
    | ']' :: rest => some ([], rest)
    | text => do
      let (item, rest) ← value text
      match dropLines rest.length rest with
      | ']' :: rest => return ([item], rest)
      | ',' :: rest =>
        let (items, rest) ← items? value fuel rest
        return (item :: items, rest)
      | _ => none

/-
  A key with its value, as it stands in braces. Lines may end on
  both sides of the equals sign.
-/
def pair?
    (value : Parser Node)
    (entries : Entries) : Parser Entries := fun text => do
  let (key, rest) ← key? text
  match dropLines rest.length rest with
  | '=' :: rest =>
    let (node, rest) ← value (dropLines rest.length rest)
    return (← assign? key node entries, rest)
  | _ => none

/- The entries of a table in braces, after the opening one. -/
def pairs?
    (value : Parser Node) :
    (fuel : Nat) → Entries → Parser Entries
  | 0, _, _ => none
  | fuel + 1, entries, text =>
    match dropLines text.length text with
    | '\x7d' :: rest => some (entries, rest)
    | text => do
      let (entries, rest) ← pair? value entries text
      match dropLines rest.length rest with
      | '\x7d' :: rest => return (entries, rest)
      | ',' :: rest => pairs? value fuel entries rest
      | _ => none

/- A value without parts: a string or another scalar. -/
def plainValue? : Parser Node := fun text => do
  match text with
  | '"' :: _ | '\'' :: _ =>
    let (s, rest) ← string? text
    return (.string s, rest)
  | _ => bareValue? text

/- A value in which arrays and tables nest at most to some depth. -/
def value? : (depth : Nat) → Parser Node
  | 0, text =>
    match text with
    | '[' :: _ | '\x7b' :: _ => none
    | _ => plainValue? text
  | depth + 1, text =>
    match text with
    | '[' :: rest => do
      let (items, rest) ← items? (value? depth) (rest.length + 1) rest
      return (.array items, rest)
    | '\x7b' :: rest => do
      let (entries, rest) ←
        pairs? (value? depth) (rest.length + 1) [] rest
      return (.table .inline entries, rest)
    | _ => plainValue? text

/- How deeply arrays and tables may nest. -/
def maxDepth : Nat :=
  80

------------------------------------------------------------
-- Documents
------------------------------------------------------------

/- A document being read: its root and the open table. -/
structure Draft where
  root : Entries := []
  path : List String := []

/- Read a header after its first bracket. -/
def header?
    (draft : Draft) : Parser Draft := fun text => do
  match text with
  | '[' :: rest =>
    let (path, rest) ← key? rest
    let key ← path.getLast?
    match rest with
    | ']' :: ']' :: rest =>
      let root ←
        Entries.within? (Entries.openArray? key) path.dropLast draft.root
      return (⟨root, path⟩, rest)
    | _ => none
  | _ =>
    let (path, rest) ← key? text
    let key ← path.getLast?
    match rest with
    | ']' :: rest =>
      let root ←
        Entries.within? (Entries.openTable? key) path.dropLast draft.root
      return (⟨root, path⟩, rest)
    | _ => none

/- Read what a line holds, up to its comment. -/
def line?
    (draft : Draft) : Parser Draft := fun text => do
  match dropBlanks text with
  | [] => return (draft, [])
  | '[' :: rest => header? draft rest
  | c :: rest =>
    if c = '#' ∨ c = '\n' ∨ c = '\r' then
      return (draft, c :: rest)
    else
      let (key, rest) ← key? (c :: rest)
      match rest with
      | '=' :: rest =>
        let (node, rest) ← value? maxDepth (dropBlanks rest)
        let root ←
          Entries.within? (assign? key node) draft.path draft.root
        return ({ draft with root }, rest)
      | _ => none

/- Read lines to the end of a text. -/
def lines? : (fuel : Nat) → Draft → List Char → Option Draft
  | 0, _, _ => none
  | fuel + 1, draft, text => do
    let (draft, rest) ← line? draft text
    match dropComment rest with
    | [] => return draft
    | rest => lines? fuel draft (← afterNewline? rest)

/- The root table of a document. -/
def parse?
    (text : List Char) : Option Entries :=
  let text :=
    match text with
    | '\uFEFF' :: rest => rest
    | other => other
  (lines? (text.length + 1) {} text).map Draft.root

end Toml

end RegisterVM
