/-!
# Arguments of the command line

Two arguments stand by themselves: the file, which is required, and a path. Options stand anywhere
between them, by a long name behind two dashes or by a letter behind one. Letters can be put
together, and a value follows its option as the next argument or directly, where an equals sign may
stand in between. A value that is an argument of its own does not begin with a dash, unless it is
only a dash. Behind two dashes no more options are looked for. Options other than overrides are
given once at most.
-/

namespace ConfigTree.CommandLine

/-- What is asked of the program. -/
structure Query where
  file : String
  path : String := "."
  default : Option String := none
  environment : Bool := false
  configuration : Bool := false
  overrides : List String := []
  keys : Bool := false
  dialect : Option String := none

/-- Why arguments are no query. -/
inductive NoQuery where
  /-- They are not well-formed. -/
  | misuse
  /-- They ask for the version. -/
  | version
  /-- They ask for help. -/
  | help

/-- An option that takes a value. -/
inductive ValueOption where
  | default
  | override
  | dialect

/-- An option without a value. -/
inductive Flag where
  | environment
  | configuration
  | keys
  | version
  | help

/-- The arguments read so far. -/
structure Progress where
  file : Option String := none
  path : Option String := none
  default : Option String := none
  environment : Bool := false
  configuration : Bool := false
  overrides : List String := []
  keys : Bool := false
  dialect : Option String := none

/-- The option of a long name. -/
def longOption? (name : String) : Option (ValueOption ⊕ Flag) :=
  match name with
  | "default" => some (.inl .default)
  | "set" => some (.inl .override)
  | "kv-options" => some (.inl .dialect)
  | "env" => some (.inr .environment)
  | "config" => some (.inr .configuration)
  | "keys" => some (.inr .keys)
  | "version" => some (.inr .version)
  | "help" => some (.inr .help)
  | _ => none

/-- The option of a letter. -/
def shortOption? (letter : Char) : Option (ValueOption ⊕ Flag) :=
  match letter with
  | 'd' => some (.inl .default)
  | 's' => some (.inl .override)
  | 'e' => some (.inr .environment)
  | 'c' => some (.inr .configuration)
  | 'k' => some (.inr .keys)
  | 'V' => some (.inr .version)
  | 'h' => some (.inr .help)
  | _ => none

namespace Progress

/-- Takes an argument that stands by itself. -/
def positional (progress : Progress) (argument : String) : Except NoQuery Progress :=
  match progress.file, progress.path with
  | none, _ =>
    if argument = "" then .error .misuse else .ok { progress with file := some argument }
  | some _, none => .ok { progress with path := some argument }
  | some _, some _ => .error .misuse

/-- Takes an option with its value. -/
def value (progress : Progress) (option : ValueOption) (value : String) :
    Except NoQuery Progress :=
  match option with
  | .default =>
    if progress.default.isSome then .error .misuse
    else .ok { progress with default := some value }
  | .override => .ok { progress with overrides := progress.overrides ++ [value] }
  | .dialect =>
    if progress.dialect.isSome then .error .misuse
    else .ok { progress with dialect := some value }

/-- Takes an option without a value. -/
def flag (progress : Progress) : Flag → Except NoQuery Progress
  | .environment =>
    if progress.environment then .error .misuse else .ok { progress with environment := true }
  | .configuration =>
    if progress.configuration then .error .misuse
    else .ok { progress with configuration := true }
  | .keys => if progress.keys then .error .misuse else .ok { progress with keys := true }
  | .version => .error .version
  | .help => .error .help

/-- Takes letters that are put together; the last one may wait for a value. -/
def letters (progress : Progress) : List Char → Except NoQuery (Progress × Option ValueOption)
  | [] => .ok (progress, none)
  | letter :: rest =>
    match shortOption? letter with
    | none => .error .misuse
    | some (.inr option) => do (← progress.flag option).letters rest
    | some (.inl option) =>
      match rest with
      | [] => .ok (progress, some option)
      | '=' :: value => do return (← progress.value option (.ofList value), none)
      | value => do return (← progress.value option (.ofList value), none)

/-- Takes an option by its long name; it may wait for a value. -/
def long (progress : Progress) (text : List Char) :
    Except NoQuery (Progress × Option ValueOption) :=
  let name := String.ofList (text.takeWhile (· ≠ '='))
  match longOption? name, text.dropWhile (· ≠ '=') with
  | none, _ => .error .misuse
  | some (.inr option), [] => do return (← progress.flag option, none)
  | some (.inr _), _ => .error .misuse
  | some (.inl option), [] => .ok (progress, some option)
  | some (.inl option), _ :: value => do
    return (← progress.value option (.ofList value), none)

/-- Reads the remaining arguments, where an option may wait for its value. -/
def read (progress : Progress) (waiting : Option ValueOption) :
    List String → Except NoQuery Progress
  | [] => if waiting.isSome then .error .misuse else .ok progress
  | argument :: rest =>
    match argument.toList, waiting with
    | ['-', '-'], none => rest.foldlM positional progress
    | '-' :: '-' :: text, none => do
      let (progress, waiting) ← progress.long text
      progress.read waiting rest
    | '-' :: letter :: more, none => do
      let (progress, waiting) ← progress.letters (letter :: more)
      progress.read waiting rest
    | '-' :: _ :: _, some _ => .error .misuse
    | _, some option => do (← progress.value option argument).read none rest
    | _, none => do (← progress.positional argument).read none rest

/-- The query of the arguments; the file has to be there. -/
def query (progress : Progress) : Except NoQuery Query :=
  match progress.file with
  | none => .error .misuse
  | some file => .ok
    { file := file
      path := progress.path.getD "."
      default := progress.default
      environment := progress.environment
      configuration := progress.configuration
      overrides := progress.overrides
      keys := progress.keys
      dialect := progress.dialect }

end Progress

/-- Reads all arguments. -/
def Query.ofArguments (arguments : List String) : Except NoQuery Query := do
  (← Progress.read {} none arguments).query

end ConfigTree.CommandLine
