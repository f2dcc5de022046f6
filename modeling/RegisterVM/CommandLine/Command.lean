import RegisterVM.CommandLine.Scan
import RegisterVM.Simulation.Basic

/-
  The commands: to list the instructions in a file, and to
  simulate a call site.

  Key definitions include:
    * `Command`
    * `CommandLine.byte`
    * `CommandLine.number`
    * `CommandLine.disasmTable`
    * `CommandLine.simulateTable`
    * `CommandLine.parse`
-/

namespace RegisterVM

------------------------------------------------------------
-- Commands
------------------------------------------------------------

/- How a file holds bytes. -/
inductive Format where
  /- As a layout of hexadecimal digits. -/
  | hex
  /- As they are. -/
  | bin
  deriving DecidableEq, Repr, Inhabited

/- Something to be done. -/
inductive Command where
  /- List the instructions in a file. -/
  | disasm (file : String) (widths : Widths) (format : Format)
  /- Simulate a call site, tuned by a settings file if one is named. -/
  | simulate (settings : Option String) (simulation : Simulation)
  deriving DecidableEq, Repr

/- The file that a command reads. -/
def Command.file? : Command → Option String
  | disasm file _ _ => some file
  | simulate settings _ => settings

namespace CommandLine

------------------------------------------------------------
-- Values
------------------------------------------------------------

/- The number spelled by decimal digits, if there are any. -/
def digits?
    (chars : List Char) : Option Nat :=
  if chars.isEmpty || !chars.all Char.isDigit then
    none
  else
    some (chars.foldl (fun n c => 10 * n + (c.toNat - '0'.toNat)) 0)

/- A number without a sign or after a plus sign. -/
def unsigned? : List Char → Option Nat
  | '+' :: chars => digits? chars
  | chars => digits? chars

/- A number below 2^64. -/
def number
    (text : String) : Except Refusal Nat :=
  match unsigned? text.toList with
  | some n =>
    if n < UInt64.size then .ok n else .error (.badNumber text)
  | none => .error (.badNumber text)

/- A number below 2^8. Zero may have a minus sign. -/
def byte
    (text : String) : Except Refusal UInt8 :=
  let value :=
    match text.toList with
    | '-' :: chars => (digits? chars).filter (· = 0)
    | chars => unsigned? chars
  match value with
  | some n =>
    if n < UInt8.size then .ok (UInt8.ofNat n) else .error (.badNumber text)
  | none => .error (.badNumber text)

/- A word that stands for something. -/
def oneOf
    {α : Type}
    (choices : List (String × α))
    (text : String) : Except Refusal α :=
  match choices.lookup text with
  | some choice => .ok choice
  | none => .error (.badWord text)

/- The name of a file, which is not empty. -/
def path
    (text : String) : Except Refusal String :=
  if text.isEmpty then .error (.badWord text) else .ok text

/- An option that reads a value and puts it into some settings. -/
def setting
    {α β : Type}
    (read : String → Except Refusal β)
    (put : β → α → α) : Reader α :=
  fun text => (read text).map put

------------------------------------------------------------
-- Listing a file
------------------------------------------------------------

/- The settings of a listing. -/
structure DisasmSettings where
  file : Option String := none
  widths : Widths := .compact
  format : Format := .hex
  deriving DecidableEq, Repr

/- The options of a listing. -/
def disasmTable : Table DisasmSettings where
  options :=
    [("slot-width", .value (setting byte fun w s =>
        { s with widths := { s.widths with slot := w } })),
     ("ip-width", .value (setting byte fun w s =>
        { s with widths := { s.widths with ip := w } })),
     ("const-width", .value (setting byte fun w s =>
        { s with widths := { s.widths with konst := w } })),
     ("format", .value
        (setting (oneOf [("hex", Format.hex), ("bin", Format.bin)])
          fun format s => { s with format }))]
  plain :=
    some ("FILE", setting path fun file s => { s with file := some file })

/- Read the arguments of a listing. -/
def parseDisasm
    (args : List String) : Except Refusal Command := do
  let s ← disasmTable.read {} args
  match s.file with
  | some file => return .disasm file s.widths s.format
  | none => throw (.missingArgument "FILE")

------------------------------------------------------------
-- Simulating
------------------------------------------------------------

/- The settings of a simulation. -/
structure SimulateSettings where
  settings : Option String := none
  simulation : Simulation := {}
  deriving DecidableEq, Repr

/- Change the simulation of some settings. -/
def SimulateSettings.modify
    (change : Simulation → Simulation)
    (s : SimulateSettings) : SimulateSettings :=
  { s with simulation := change s.simulation }

/- The options of a simulation. -/
def simulateTable : Table SimulateSettings where
  options :=
    [("classes", .value (setting number fun n =>
        .modify fun sim => { sim with classes := n })),
     ("calls", .value (setting number fun n =>
        .modify fun sim => { sim with calls := n })),
     ("pattern", .value
        (setting (oneOf (Pattern.all.map fun p => (p.text, p)))
          fun pattern => .modify fun sim => { sim with pattern })),
     ("config", .value (setting path fun file s =>
        { s with settings := some file })),
     ("listing", .flag (.modify fun sim => { sim with listing := true }))]

/- Read the arguments of a simulation. -/
def parseSimulate
    (args : List String) : Except Refusal Command := do
  let s ← simulateTable.read {} args
  return .simulate s.settings s.simulation

------------------------------------------------------------
-- Choosing a command
------------------------------------------------------------

/- The words that may come first. -/
def commandWords : List String :=
  ["disasm", "pic-sim", "help"]

/- Help, on everything or on one command. -/
def parseHelp
    (topics : List String) : Refusal :=
  match topics with
  | [] => .help
  | [topic] =>
    if commandWords.contains topic then .help else .unknownCommand topic
  | topic :: second :: _ =>
    if commandWords.contains topic then .unknownCommand second
    else .unknownCommand topic

/- A first argument after two dashes. -/
def afterDashes : List String → Refusal
  | [] => .noCommand
  | word :: _ =>
    if commandWords.contains word then .unknownArgument word
    else .unknownCommand word

/- The refusal of a command line that starts with an option. -/
def leadingOption
    (name : String)
    (value : Option String) : Refusal :=
  match name, value with
  | "help", none => .help
  | "version", none => .version
  | "help", some _ | "version", some _ => .extraValue name
  | _, _ => .unknownArgument name

/- Read a command line. -/
def parse
    (args : List String) : Except Refusal Command :=
  match args with
  | [] => .error .noCommand
  | first :: rest =>
    match Token.ofText first with
    | .dashes => .error (afterDashes rest)
    | .long name value => .error (leadingOption name value)
    | .short 'h' => .error .help
    | .short 'V' => .error .version
    | .short _ => .error (.unknownArgument first)
    | .word "disasm" => parseDisasm rest
    | .word "pic-sim" => parseSimulate rest
    | .word "help" => .error (parseHelp rest)
    | .word other => .error (.unknownCommand other)

end CommandLine

end RegisterVM
