/-
  Reading a command line against a table of options.

  An option is named by two dashes and takes its value from the
  rest of the same argument, after an equals sign, or from the
  next one. An option is only taken in when the next known option
  or plain argument arrives, or at the end; so a fault in its
  value is found no earlier than that, and an argument that
  nobody knows is refused first.

  Key definitions include:
    * `CommandLine.Refusal`
    * `CommandLine.Token`
    * `CommandLine.Table`
    * `CommandLine.Scan`
    * `CommandLine.Scan.settle`
    * `CommandLine.Table.read`
-/

namespace RegisterVM

namespace CommandLine

------------------------------------------------------------
-- Refusals
------------------------------------------------------------

/-
  Why a command line names nothing to be done, or what it asks
  for instead.
-/
inductive Refusal where
  | help
  | version
  | noCommand
  | unknownCommand (word : String)
  | unknownArgument (text : String)
  /- An option without the value it needs. -/
  | missingValue (name : String)
  /- A flag with a value. -/
  | extraValue (name : String)
  /- An option that is given twice. -/
  | repeated (name : String)
  /- A value that is no number in range. -/
  | badNumber (text : String)
  /- A value that is none of the allowed words. -/
  | badWord (text : String)
  | missingArgument (name : String)
  deriving DecidableEq, Repr

/- What a refusal says. -/
def Refusal.message : Refusal → String
  | help => "help requested"
  | version => "version requested"
  | noCommand => "a command is required"
  | unknownCommand word => s!"unrecognized command '{word}'"
  | unknownArgument text => s!"unexpected argument '{text}'"
  | missingValue name => s!"'{name}' needs a value"
  | extraValue name => s!"'{name}' takes no value"
  | repeated name => s!"'{name}' is given more than once"
  | badNumber text => s!"'{text}' is no number in range"
  | badWord text => s!"'{text}' is not an allowed value"
  | missingArgument name => s!"'{name}' is required"

------------------------------------------------------------
-- Tokens
------------------------------------------------------------

/- What an argument looks like. -/
inductive Token where
  /- Two dashes: only plain arguments follow. -/
  | dashes
  /- A named option, with the value after an equals sign. -/
  | long (name : String) (value : Option String)
  /- A dash and a letter. -/
  | short (letter : Char)
  | word (text : String)
  deriving DecidableEq, Repr

/- The value that follows a name, after an equals sign. -/
def attachedValue : List Char → Option String
  | [] => none
  | _ :: value => some (String.ofList value)

/- Classify an argument. -/
def Token.ofText
    (text : String) : Token :=
  match text.toList with
  | ['-', '-'] => dashes
  | '-' :: '-' :: chars =>
    let name := chars.takeWhile (· ≠ '=')
    long (String.ofList name) (attachedValue (chars.drop name.length))
  | '-' :: letter :: _ => short letter
  | _ => word text

------------------------------------------------------------
-- Tables
------------------------------------------------------------

/- How the text of a value changes some settings. -/
abbrev Reader (α : Type) :=
  String → Except Refusal (α → α)

/- What an option does to some settings. -/
inductive Effect (α : Type) where
  | flag (set : α → α)
  | value (read : Reader α)

/- The options of a command, and its one plain argument. -/
structure Table (α : Type) where
  options : List (String × Effect α)
  plain : Option (String × Reader α) := none

------------------------------------------------------------
-- Scanning
------------------------------------------------------------

/- An option that is named and not yet taken in. -/
structure Pending (α : Type) where
  name : String
  read : Reader α
  value : Option String

/- How far a command line is read. -/
structure Scan (α : Type) where
  settings : α
  /- Names of the options taken in. -/
  taken : List String := []
  pending : Option (Pending α) := none
  /- Whether two dashes have come. -/
  plainOnly : Bool := false
  /- Whether the plain argument has come. -/
  plainGiven : Bool := false

namespace Scan

variable {α : Type}

/- Take an option in, unless it was before. -/
def take
    (s : Scan α)
    (name : String)
    (change : Except Refusal (α → α)) : Except Refusal (Scan α) := do
  if s.taken.contains name then
    throw (.repeated name)
  let change ← change
  return { s with
    settings := change s.settings
    taken := name :: s.taken }

/- Take the pending option in. -/
def settle
    (s : Scan α) : Except Refusal (Scan α) :=
  match s.pending with
  | none => .ok s
  | some p =>
    match p.value with
    | none => .error (.missingValue p.name)
    | some value =>
      { s with pending := none }.take p.name (p.read value)

/- Ask for help, once the pending option is fine. -/
def askHelp
    (s : Scan α) : Except Refusal (Scan α) := do
  discard s.settle
  throw .help

/- A named option. -/
def long
    (s : Scan α)
    (table : Table α)
    (name : String)
    (value : Option String) : Except Refusal (Scan α) := do
  match name, table.options.lookup name, value with
  | "help", _, none => s.askHelp
  | "help", _, some _ => throw (.extraValue name)
  | _, none, _ => throw (.unknownArgument name)
  | _, some (.flag _), some _ => throw (.extraValue name)
  | _, some (.flag set), none =>
    let s ← s.settle
    s.take name (.ok set)
  | _, some (.value read), none =>
    let s ← s.settle
    return { s with pending := some ⟨name, read, none⟩ }
  | _, some (.value read), some given =>
    let s ← s.settle
    s.take name (read given)

/- A plain argument. -/
def plain
    (s : Scan α)
    (table : Table α)
    (text : String) : Except Refusal (Scan α) :=
  match table.plain with
  | none => .error (.unknownArgument text)
  | some (name, read) =>
    if s.plainGiven then
      .error (.unknownArgument text)
    else do
      let s ← s.settle
      return { s with
        pending := some ⟨name, read, some text⟩
        plainGiven := true }

/- A word: the value that is waited for, or a plain argument. -/
def word
    (s : Scan α)
    (table : Table α)
    (text : String) : Except Refusal (Scan α) :=
  match s.pending with
  | some ⟨name, read, none⟩ =>
    .ok { s with pending := some ⟨name, read, some text⟩ }
  | _ => s.plain table text

/- Read one argument. -/
def step
    (table : Table α)
    (s : Scan α)
    (text : String) : Except Refusal (Scan α) :=
  if s.plainOnly then
    s.plain table text
  else
    match Token.ofText text with
    | .dashes => .ok { s with plainOnly := true }
    | .long name value => s.long table name value
    | .short letter =>
      if letter = 'h' then s.askHelp
      else .error (.unknownArgument text)
    | .word text => s.word table text

end Scan

/- The settings that some arguments describe. -/
def Table.read
    {α : Type}
    (table : Table α)
    (defaults : α)
    (args : List String) : Except Refusal α := do
  let s ← args.foldlM (Scan.step table) { settings := defaults }
  let s ← s.settle
  return s.settings

end CommandLine

end RegisterVM
