import RegisterVM.Program.Run

/-
  The command line. Everything but reading and printing is
  `Program.run`.
-/

namespace RegisterVM

/- The fault that an error of the operating system stands for. -/
def fileError : IO.Error → FileError
  | .noFileOrDirectory .. => .notFound
  | .inappropriateType _ code _ =>
    if code = 21 then .isDirectory else .notDirectory
  | .permissionDenied .. => ⟨"Permission denied", some 13⟩
  | .otherError 21 _ => .isDirectory
  | .otherError code details => ⟨details, some code.toNat⟩
  | .invalidArgument _ 36 _ => .nameTooLong
  | other => ⟨other.toString, none⟩

/- Read the file of a run, if it reads one. -/
def readFile
    (file : Option String) : IO FileContent := do
  match file with
  | none => return .error .notFound
  | some path =>
    try
      let bytes ← IO.FS.readBinFile path
      return .ok bytes.toList
    catch e =>
      return .error (fileError e)

end RegisterVM

/- Run the program once. -/
def main
    (args : List String) : IO UInt32 := do
  let toggle ← IO.getEnv "SLOTVM_TRACE"
  let fallback ← IO.getEnv "RUST_LOG"
  let content ←
    RegisterVM.readFile (RegisterVM.Program.file? args)
  let result :=
    RegisterVM.Program.run args { toggle, fallback } content
  (← IO.getStderr).putStr result.errors
  (← IO.getStdout).putStr result.printed
  return UInt32.ofNat result.code
