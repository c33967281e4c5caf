import ConfigTree.CommandLine.Arguments
import ConfigTree.Dictionary.Lookup
import ConfigTree.Files.Load
import ConfigTree.KeyValue.OptionsDocument

/-!
# Running the command line

A query loads a file, applies overrides in order and then shows the keys or the value at a path. The
first step that fails decides, and then nothing is shown. The steps of a query may be logged; the
lines of the log stand in front of the fault.
-/

namespace ConfigTree.CommandLine

/-- What the program leaves behind. -/
inductive Outcome where
  /-- The arguments are not well-formed. -/
  | misuse
  /-- The program has ended with a code and what it has written. -/
  | done (code : Nat) (output errors : String)
  deriving DecidableEq

/-- What a query writes to its log. Which steps are logged is up to the variable `RUST_LOG`, and the
lines carry the time; the library that writes them is not described here. If the variable is not
set, the log shows warnings only, and no step gives one. -/
structure Log where
  lines : Environment → String
  silent : ∀ environment, environment "RUST_LOG" = none → lines environment = ""

/-- The log without lines. -/
def Log.empty : Log where
  lines _ := ""
  silent _ _ := rfl

/-- The options that are written in an argument. -/
def readDialect (text : String) : Except Fault KeyValue.Options :=
  (KeyValue.Options.ofDocument text).mapError fun message =>
    { kind := .invalidOptions s!"Invalid key/value options: {message}"
      hint := some "Pass a JSON object such as \x7b\"equals_separator\": true\x7d"
      code := some 206 }

/-- The key and the value of an override, cut at the first equals sign. -/
def readOverride (text : String) : Except Fault (String × String) :=
  let characters := text.toList
  match characters.dropWhile (· ≠ '=') with
  | [] => .error
    { kind := .invalidOptions s!"Expected KEY=VALUE but got '{text}'"
      hint := some "Write overrides as --set server.port=8080"
      code := some 207 }
  | _ :: value =>
    .ok (.ofList (Text.trim (characters.takeWhile (· ≠ '='))), .ofList value)

/-- Applies an override. -/
def override (dictionary : Dictionary) (text : String) : Except Fault Dictionary := do
  let (key, value) ← readOverride text
  dictionary.set key value

/-- The file of a query as a dictionary. -/
def loadFile (files : FileSystem) (home : Option String) (query : Query) :
    Except Fault Dictionary := do
  match query.dialect with
  | some dialect => Files.loadWith (← readDialect dialect) files home query.file
  | none => Files.load files home query.file

/-- A text as a line of output. -/
def line (text : String) : String := text ++ "\n"

/-- What a query shows. -/
def answer (files : FileSystem) (environment : Environment) (home : Option String)
    (query : Query) : Except Fault String := do
  let loaded ← loadFile files home query
  let dictionary ← query.overrides.foldlM override
    { loaded with
      substitutesEnvironment := query.environment
      substitutesConfiguration := query.configuration
      environment := environment }
  if query.keys then
    return String.join ((← dictionary.keys query.path).map line)
  else
    let text ← match query.default with
      | some default => dictionary.getOr query.path default
      | none => dictionary.get query.path
    return line (text.getD "null")

/-- The line that names the program and its version. -/
def version : String := line "confpath 0.1.0"

/-- A short description of the arguments. -/
def help : String :=
  line "Query JSON, INI and properties files with dotted paths" ++ line "" ++
    line "Usage: confpath [OPTIONS] <FILE> [PATH]"

/-- Runs the program on its arguments. -/
def run (files : FileSystem) (environment : Environment) (home : Option String) (log : Log)
    (arguments : List String) : Outcome :=
  match Query.ofArguments arguments with
  | .error .misuse => .misuse
  | .error .version => .done 0 version ""
  | .error .help => .done 0 help ""
  | .ok query =>
    let logged := log.lines environment
    match answer files environment home query with
    | .ok text => .done 0 text logged
    | .error fault => .done 1 "" (logged ++ line fault.display)

end ConfigTree.CommandLine
