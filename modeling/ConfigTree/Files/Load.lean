import ConfigTree.Files.Tree
import ConfigTree.Json.Document
import ConfigTree.KeyValue.Load

/-!
# Loading configuration files

The extension of a file name decides the format of its text, unless the options of key-value text
are given. The name in a fault is the one with the home directory filled in.
-/

namespace ConfigTree.Files

/-- The readers of texts by the extensions of files. -/
def loader? : Option String → Option (String → Except Fault Dictionary)
  | some "json" => some Json.load
  | some "properties" => some (KeyValue.load .properties)
  | some "ini" => some (KeyValue.load .ini)
  | _ => none

/-- The text of a file. -/
def read (files : FileSystem) (name : String) : Except Fault String :=
  (files name).mapError fun problem =>
    { kind := .file s!"Failed to read file: {problem.message}" name
      hint := some "Check that the file exists and is readable"
      code := some 701 }

/-- The fault of a file whose extension names no format. -/
def unsupported (name : String) (extension : Option String) : Fault :=
  let extension := extension.getD ""
  { kind := .file s!"Unsupported configuration file extension '{extension}'" name
    hint := some "Use a .json, .ini or .properties file"
    code := some 702 }

/-- Loads a file in the format of its extension. -/
def load (files : FileSystem) (home : Option String) (name : String) :
    Except Fault Dictionary := do
  let name ← FileName.expandHome home name
  let extension := FileName.extension? name
  match loader? extension with
  | none => throw (unsupported name extension)
  | some loader => loader (← read files name)

/-- Loads a file as key-value text. -/
def loadWith (options : KeyValue.Options) (files : FileSystem) (home : Option String)
    (name : String) : Except Fault Dictionary := do
  KeyValue.load options (← read files (← FileName.expandHome home name))

end ConfigTree.Files
