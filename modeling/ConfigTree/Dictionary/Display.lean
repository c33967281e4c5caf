import ConfigTree.Dictionary.Basic
import ConfigTree.Text.Escaped

/-!
# Dictionaries shown to people

A dictionary is shown on one line: its tree with the shape of each node, then the switches of its
policy. Texts stand between double quotes.
-/

namespace ConfigTree

mutual

/-- The text of a node. -/
def Node.display : Node → String
  | .value none => "Value(None)"
  | .value (some text) => s!"Value(Some({Text.showQuoted text.toList}))"
  | .object fields => "Object(\x7b" ++ String.intercalate ", " (displayFields fields) ++ "\x7d)"
  | .array items => "Array([" ++ String.intercalate ", " (displayItems items) ++ "])"

/-- The texts of fields. -/
def Node.displayFields : List (String × Node) → List String
  | [] => []
  | (name, node) :: rest =>
    s!"{Text.showQuoted name.toList}: {node.display}" :: displayFields rest

/-- The texts of elements. -/
def Node.displayItems : List Node → List String
  | [] => []
  | item :: rest => item.display :: displayItems rest

end

/-- The text of a dictionary. -/
def Dictionary.display (dictionary : Dictionary) : String :=
  let root := match dictionary.root with
    | some node => s!"Some({node.display})"
    | none => "None"
  s!"Dictionary \x7b root: {root}, " ++
    s!"substitute_env: {dictionary.substitutesEnvironment}, " ++
    s!"substitute_config: {dictionary.substitutesConfiguration}, .. \x7d"

end ConfigTree
