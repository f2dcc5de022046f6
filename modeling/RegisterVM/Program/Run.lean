import RegisterVM.Program.Execute

/-
  A whole run of the program: from its arguments, two switches of
  its environment and the file it reads, to what it prints and
  the code with which it ends.

  Key definitions include:
    * `Switches`
    * `RunResult`
    * `Program.run`
-/

namespace RegisterVM

/- The switches that turn tracing on and choose what is shown. -/
structure Switches where
  toggle : Option String := none
  fallback : Option String := none
  deriving DecidableEq, Repr

/- How a run ends. -/
structure RunResult where
  code : Nat
  printed : String := ""
  /- What is written to the error stream. -/
  errors : String := ""
  deriving DecidableEq, Repr

namespace Program

/- The name and version of the program. -/
def versionText : String :=
  "slotvm 0.1.0"

/- A short description of the commands. -/
def helpText : String :=
  "Developer tools for the slotvm execution core\n\n"
    ++ "Usage: slotvm <COMMAND>\n\n"
    ++ "Commands:\n"
    ++ "  disasm   Disassemble a code buffer\n"
    ++ "  pic-sim  Drive one virtual call site with synthetic "
    ++ "receivers and print its stats as JSON\n"
    ++ "  help     Print this message"

/- Lines of text, each ended. -/
def endLines
    (lines : List String) : String :=
  String.join (lines.map fun line => line ++ "\n")

/- How a run without a command ends. -/
def refuse : CommandLine.Refusal → RunResult
  | .help => { code := 0, printed := helpText ++ "\n" }
  | .version => { code := 0, printed := versionText ++ "\n" }
  | .noCommand => { code := 2, errors := helpText ++ "\n" }
  | other => { code := 2, errors := s!"error: {other.message}\n" }

/- How the run of a command ends. -/
def finish
    (filter : Option Trace.Filter)
    (outcome : Outcome) : RunResult :=
  let notes := Trace.shownText filter outcome.notes
  match outcome.failure with
  | none => { code := 0, printed := outcome.printed, errors := notes }
  | some e =>
    { code := 1
      printed := outcome.printed
      errors := notes ++ endLines e.lines }

/- The file that a run reads. -/
def file?
    (args : List String) : Option String :=
  match CommandLine.parse args with
  | .ok command => command.file?
  | .error _ => none

/- Run the program on the content of the file that it reads. -/
def run
    (args : List String)
    (switches : Switches)
    (content : FileContent) : RunResult :=
  match CommandLine.parse args with
  | .error refusal => refuse refusal
  | .ok command =>
    finish (Trace.chosenFilter switches.toggle switches.fallback)
      (command.execute content)

end Program

end RegisterVM
