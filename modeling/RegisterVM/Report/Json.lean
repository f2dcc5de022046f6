/-
  JSON documents and their text. Objects keep the order of their
  members; the text puts every item on a line of its own, two
  blanks deeper than what holds it.

  Key definitions include:
    * `Json`
    * `Json.quote`
    * `Json.render`
    * `Json.text`
-/

namespace RegisterVM

/- A JSON document. Its numbers are integers. -/
inductive Json where
  | bool (b : Bool)
  | number (n : Int)
  | string (s : String)
  | list (items : List Json)
  | object (members : List (String × Json))
  deriving Repr, Inhabited

namespace Json

/- A count as a document. -/
def count
    (n : Nat) : Json :=
  number n

------------------------------------------------------------
-- Strings
------------------------------------------------------------

/- A character inside a JSON string. -/
def escape
    (c : Char) : List Char :=
  if c = '"' then ['\\', '"']
  else if c = '\\' then ['\\', '\\']
  else if c = '\n' then ['\\', 'n']
  else if c = '\r' then ['\\', 'r']
  else if c = '\t' then ['\\', 't']
  else if c.toNat = 0x08 then ['\\', 'b']
  else if c.toNat = 0x0C then ['\\', 'f']
  else if c.toNat < 0x20 then
    ['\\', 'u', '0', '0', Nat.digitChar (c.toNat / 16),
     Nat.digitChar (c.toNat % 16)]
  else [c]

/- A JSON string. -/
def quote
    (s : String) : String :=
  String.ofList (['"'] ++ s.toList.flatMap escape ++ ['"'])

------------------------------------------------------------
-- Text
------------------------------------------------------------

/- The start of a line at a depth. -/
def newLine
    (depth : Nat) : String :=
  "\n" ++ String.ofList (List.replicate (2 * depth) ' ')

mutual

/- The text of a document that starts at a depth. -/
def render
    (depth : Nat) : Json → String
  | bool b => if b then "true" else "false"
  | number n => toString n
  | string s => quote s
  | list items =>
    if items.isEmpty then "[]"
    else "[" ++ renderItems (depth + 1) items ++ newLine depth ++ "]"
  | object members =>
    if members.isEmpty then "\x7b\x7d"
    else
      "\x7b" ++ renderMembers (depth + 1) members ++ newLine depth
        ++ "\x7d"

/- The items of a list, one a line. -/
def renderItems
    (depth : Nat) : List Json → String
  | [] => ""
  | item :: rest =>
    newLine depth ++ render depth item
      ++ (if rest.isEmpty then "" else ",") ++ renderItems depth rest

/- The members of an object, one a line. -/
def renderMembers
    (depth : Nat) : List (String × Json) → String
  | [] => ""
  | (name, value) :: rest =>
    newLine depth ++ quote name ++ ": " ++ render depth value
      ++ (if rest.isEmpty then "" else ",") ++ renderMembers depth rest

end

/- The text of a document. -/
def text
    (doc : Json) : String :=
  doc.render 0

end Json

end RegisterVM
