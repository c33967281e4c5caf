import ConfigTree.CommandLine.Run

/-!
# The program

Reads the environment and the file that the arguments ask for, and leaves all else to the library.
Nothing is logged.
-/

namespace ConfigTree.Program

/-- The problem behind an error of the operating system. -/
def readProblem : IO.Error → ReadProblem
  | .noFileOrDirectory .. => .missing
  | .inappropriateType _ code _ => if code = 21 then .isDirectory else .notDirectory
  | error => .other (toString error)

/-- The text of a file, or why there is none. -/
def readText (name : String) : IO (Except ReadProblem String) := do
  match ← (IO.FS.readBinFile name).toBaseIO with
  | .error error => return .error (readProblem error)
  | .ok content =>
    match String.fromUTF8? content with
    | some text => return .ok text
    | none => return .error .notText

/-- The entries of the environment of this process. -/
def environmentBlock : IO (List String) := do
  match ← (IO.FS.readBinFile "/proc/self/environ").toBaseIO with
  | .error _ => return []
  | .ok block =>
    return (block.toList.splitOn 0).filterMap fun entry => String.fromUTF8? ⟨entry.toArray⟩

/-- Runs the program and answers its exit code. -/
def run (arguments : List String) : IO UInt32 := do
  let environment := Environment.ofBlock (← environmentBlock)
  let home := (environment "HOME").filter (· ≠ "")
  let content ← match CommandLine.Query.ofArguments arguments with
    | .ok query =>
      match FileName.expandHome home query.file with
      | .ok name => readText name
      | .error _ => pure (.error .missing)
    | .error _ => pure (.error .missing)
  match CommandLine.run (fun _ => content) environment home .empty arguments with
  | .misuse =>
    IO.eprint CommandLine.help
    return 2
  | .done code output errors =>
    IO.print output
    IO.eprint errors
    return code.toUInt32

end ConfigTree.Program

/-- Runs the program. -/
def main (arguments : List String) : IO UInt32 :=
  ConfigTree.Program.run arguments
