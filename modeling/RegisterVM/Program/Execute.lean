import RegisterVM.CommandLine.Command
import RegisterVM.Simulation.Report
import RegisterVM.Text.Hex
import RegisterVM.Text.Utf8

/-
  What the commands do. A command reads at most one file, whose
  content, or the reason why it cannot be read, is given.

  Key definitions include:
    * `FileError`
    * `CommandError`
    * `CommandError.chain`
    * `Outcome`
    * `Command.execute`
-/

namespace RegisterVM

------------------------------------------------------------
-- Faults
------------------------------------------------------------

/-
  Why a file cannot be read. What the operating system says has a
  code.
-/
structure FileError where
  reason : String
  code : Option Nat
  deriving DecidableEq, Repr

namespace FileError

/- There is no such file. -/
def notFound : FileError :=
  ⟨"No such file or directory", some 2⟩

/- A directory stands in a place that only files have. -/
def isDirectory : FileError :=
  ⟨"Is a directory", some 21⟩

/- A file stands in a place that only directories have. -/
def notDirectory : FileError :=
  ⟨"Not a directory", some 20⟩

/- A path, or a name in it, is too long. -/
def nameTooLong : FileError :=
  ⟨"File name too long", some 36⟩

/- A path has a character that ends it for the system. -/
def hasNul : FileError :=
  ⟨"file name contained an unexpected NUL byte", none⟩

/- The text of a file fault. -/
def message
    (e : FileError) : String :=
  match e.code with
  | some code => s!"{e.reason} (os error {code})"
  | none => e.reason

end FileError

/- The content of a file. -/
abbrev FileContent :=
  Except FileError (List UInt8)

/- Why a settings file gives no tuning. -/
inductive SettingsFileError where
  | unreadable (cause : FileError)
  | notText
  | form
  | tuning (cause : TuningError)
  deriving DecidableEq, Repr

/- Why a command fails. -/
inductive CommandError where
  | unreadable (file : String) (cause : FileError)
  | notText (cause : Text.Utf8Error)
  | hex (cause : Text.HexError)
  | listing (cause : ListingError)
  | settings (file : String) (cause : SettingsFileError)
  | simulation (cause : SimulationError)
  deriving DecidableEq, Repr

namespace CommandError

/- What is said about a file that cannot be read. -/
def failedToRead
    (file : String) : String :=
  s!"Failed to read {file}"

/- What a fault says, and then its causes. -/
def chain : CommandError → List String
  | unreadable file cause => [failedToRead file, cause.message]
  | notText cause => ["hex input is not UTF-8", cause.message]
  | hex cause => [cause.message]
  | listing cause => cause.chain
  | settings file (.unreadable cause) =>
    [failedToRead file, cause.message]
  | settings file .notText =>
    [failedToRead file, "stream did not contain valid UTF-8"]
  | settings file .form => [s!"Invalid PIC config {file}"]
  | settings _ (.tuning cause) => [cause.message]
  | simulation cause => cause.chain

/- The text of a fault. -/
def message
    (e : CommandError) : String :=
  ": ".intercalate e.chain

/- The lines about the causes of a fault. -/
def causeLines : List String → List String
  | [] => []
  | [cause] => ["", "Caused by:", "    " ++ cause]
  | causes =>
    ["", "Caused by:"]
      ++ causes.zipIdx.map fun (cause, i) => s!"    {i}: {cause}"

/- A fault as the lines that end a failed run. -/
def lines
    (e : CommandError) : List String :=
  match e.chain with
  | [] => []
  | first :: causes => s!"Error: {first}" :: causeLines causes

end CommandError

------------------------------------------------------------
-- Commands
------------------------------------------------------------

/- What a command leaves behind. -/
structure Outcome where
  /- What is printed. -/
  printed : String := ""
  /- What is written beside it, in order. -/
  notes : List Trace.Note := []
  failure : Option CommandError := none

/- An outcome of nothing but a fault. -/
def Outcome.failed
    (e : CommandError) : Outcome :=
  { failure := some e }

/- The bytes that a file holds in a format. -/
def Format.decode
    (format : Format)
    (content : List UInt8) : Except CommandError Code := do
  match format with
  | .bin => return content.toArray
  | .hex =>
    let text ← (Text.ofUtf8 content).mapError .notText
    let bytes ← (Text.parseHex text).mapError .hex
    return bytes.toArray

/- The tuning that a settings file describes. -/
def Tuning.ofFile
    (content : FileContent) : Except SettingsFileError Tuning := do
  let bytes ← content.mapError .unreadable
  match Text.ofUtf8 bytes with
  | .error _ => throw .notText
  | .ok text =>
    match Tuning.ofText text with
    | .ok tuning => return tuning
    | .error .form => throw .form
    | .error (.tuning cause) => throw (.tuning cause)

namespace Command

/- List the instructions in a file. -/
def listFile
    (file : String)
    (widths : Widths)
    (format : Format)
    (content : FileContent) : Except CommandError (Code × Listing) := do
  let bytes ← content.mapError (.unreadable file)
  let code ← format.decode bytes
  let listing ← (Listing.ofWidths code widths).mapError .listing
  return (code, listing)

/- Simulate a call site. -/
def runSimulation
    (settings : Option String)
    (simulation : Simulation)
    (content : FileContent) :
    Except CommandError (SimulationReport × List Trace.Note) := do
  let tuning ←
    match settings with
    | none => pure simulation.tuning
    | some file => (Tuning.ofFile content).mapError (.settings file)
  ({ simulation with tuning }.run).mapError .simulation

/- What a command leaves behind, given the file that it reads. -/
def execute
    (command : Command)
    (content : FileContent) : Outcome :=
  match command with
  | disasm file widths format =>
    match listFile file widths format content with
    | .error e => .failed e
    | .ok (code, listing) =>
      let text := listing.text
      { printed := if text.isEmpty then "" else text ++ "\n"
        notes :=
          [.event (.disassembled code.size listing.lines.length)] }
  | simulate settings simulation =>
    match runSimulation settings simulation content with
    | .error e => .failed e
    | .ok (report, notes) =>
      { printed := report.json.text ++ "\n", notes }

end Command

end RegisterVM
