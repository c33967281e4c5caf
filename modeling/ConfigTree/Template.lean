import ConfigTree.Fault
import ConfigTree.Text.Basic

/-!
# References inside a text

A text may refer to named texts. `$` followed by `{`, a name and `}` is a reference; a colon ends
the name and what follows up to the `}` is its default. `$` without a brace takes everything up to
the next `$`, the next `\$` or the end of the text as its name, and stands for itself if that is
nothing. `\$` is a dollar sign. What a reference is worth is put in once and not looked at again.
-/

namespace ConfigTree

/-- A reference as it is written: a name, and a default if a colon ends the name. -/
structure Reference where
  name : String
  default : Option String

namespace Template

/-- Where a reader of a text is. -/
inductive Mode where
  /-- Outside of references. -/
  | plain
  /-- In a reference without braces, behind the given part of its name. -/
  | bare (name : List Char)
  /-- In a reference with braces, behind the given part of its name. -/
  | braced (name : List Char)
  /-- Behind the colon in a reference with braces. -/
  | default (name default : List Char)

/-- The fault of a text that ends inside braces. -/
def unterminated (text : String) (name : List Char) : Fault where
  kind := .substitution (.ofList (Text.trim name)) s!"Unterminated variable reference in '{text}'"
  hint := some "Close the reference with '\x7d' or escape the dollar as \\$"
  code := some 502

variable (resolve : Reference → Except Fault String)

/-- The worth of a reference without braces; a lone dollar sign stands for itself. -/
def bareWorth (name : List Char) : Except Fault String :=
  if name = [] then .ok "$" else resolve ⟨.ofList name, none⟩

/-- Reads the rest of a text and puts in what its references are worth, in order. -/
def expandFrom (text : String) : Mode → List Char → Except Fault String
  | .plain, [] => .ok ""
  | .plain, '\\' :: '$' :: rest => do
    return "$" ++ (← expandFrom text .plain rest)
  | .plain, '$' :: '{' :: rest => expandFrom text (.braced []) rest
  | .plain, '$' :: rest => expandFrom text (.bare []) rest
  | .plain, c :: rest => do
    return String.singleton c ++ (← expandFrom text .plain rest)
  | .bare name, [] => bareWorth resolve name
  | .bare name, '\\' :: '$' :: rest => do
    let worth ← bareWorth resolve name
    return worth ++ "$" ++ (← expandFrom text .plain rest)
  | .bare name, '$' :: '{' :: rest => do
    let worth ← bareWorth resolve name
    return worth ++ (← expandFrom text (.braced []) rest)
  | .bare name, '$' :: rest => do
    let worth ← bareWorth resolve name
    return worth ++ (← expandFrom text (.bare []) rest)
  | .bare name, c :: rest => expandFrom text (.bare (name ++ [c])) rest
  | .braced name, [] => .error (unterminated text name)
  | .braced name, '}' :: rest => do
    let worth ← resolve ⟨.ofList name, none⟩
    return worth ++ (← expandFrom text .plain rest)
  | .braced name, ':' :: rest => expandFrom text (.default name []) rest
  | .braced name, c :: rest => expandFrom text (.braced (name ++ [c])) rest
  | .default name _, [] => .error (unterminated text name)
  | .default name default, '}' :: rest => do
    let worth ← resolve ⟨.ofList name, some (.ofList default)⟩
    return worth ++ (← expandFrom text .plain rest)
  | .default name default, c :: rest => expandFrom text (.default name (default ++ [c])) rest

/-- A text with its references replaced by what they are worth. A text without a dollar sign is
handed back as it stands. -/
def expand (text : String) : Except Fault String :=
  if text.toList.contains '$' then expandFrom resolve text .plain text.toList else .ok text

end Template

end ConfigTree
