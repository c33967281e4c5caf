import ConfigTree.Dictionary.Basic
import ConfigTree.KeyValue.Reader

/-!
# Loading key-value text into a dictionary

Each entry is written as soon as it is read, so the entries in front of a faulty line stay written.
Keys are paths: a dotted key makes objects within objects.
-/

namespace ConfigTree.KeyValue

/-- Writes an entry. A refused write is a fault of the line on which the entry begins. -/
def Entry.writeTo (entry : Entry) (dictionary : Dictionary) : Except Fault Dictionary :=
  (dictionary.set entry.key entry.value).mapError fun fault =>
    (LineFault.rejected fault.display).fault entry.line entry.content

/-- Reads the remaining lines and writes their entries. The answer is the number of all entries
written, or the first fault, and the dictionary after the last write. -/
def loadLines (options : Options) (reader : Reader) (written : Nat) (dictionary : Dictionary) :
    List (List Char) → Except Fault Nat × Dictionary
  | [] =>
    match reader.finish options with
    | none => (.ok written, dictionary)
    | some entry =>
      match entry.writeTo dictionary with
      | .error fault => (.error fault, dictionary)
      | .ok after => (.ok (written + 1), after)
  | line :: rest =>
    match reader.feed options line with
    | .error fault => (.error fault, dictionary)
    | .ok (reader, none) => loadLines options reader written dictionary rest
    | .ok (reader, some entry) =>
      match entry.writeTo dictionary with
      | .error fault => (.error fault, dictionary)
      | .ok after => loadLines options reader (written + 1) after rest

/-- Reads a text on top of a dictionary. -/
def loadInto (options : Options) (text : String) (dictionary : Dictionary) :
    Except Fault Nat × Dictionary :=
  match options.validate with
  | .error fault => (.error fault, dictionary)
  | .ok () => loadLines options {} 0 dictionary (Text.lines text.toList)

/-- Reads a text on top of an object without fields. -/
def load (options : Options) (text : String) : Except Fault Dictionary :=
  match loadInto options text .emptyObject with
  | (.ok _, dictionary) => .ok dictionary
  | (.error fault, _) => .error fault

end ConfigTree.KeyValue
