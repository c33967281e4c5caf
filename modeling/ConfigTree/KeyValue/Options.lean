import ConfigTree.Fault

/-!
# Options of key-value text

Key-value text comes in many dialects. Each switch here turns one of their habits on, and any
combination is possible as long as some character separates keys from values.
-/

namespace ConfigTree.KeyValue

/-- The switches of a dialect. -/
structure Options where
  /-- `#` starts a comment. -/
  hashComments : Bool := false
  /-- `;` starts a comment. -/
  semicolonComments : Bool := false
  /-- `!` starts a comment. -/
  bangComments : Bool := false
  /-- A name in brackets on a line of its own goes in front of the keys that follow. -/
  sections : Bool := false
  /-- One pair of quotes around a value is taken off. -/
  stripQuotes : Bool := false
  /-- `=` separates a key from its value. -/
  equalsSeparator : Bool := false
  /-- `:` separates a key from its value. -/
  colonSeparator : Bool := false
  /-- A line without a separator is a key with an empty value. -/
  allowMissingValues : Bool := false
  /-- A value that ends with a backslash goes on in the next line. -/
  multiline : Bool := false
  deriving DecidableEq

namespace Options

/-- The dialect of files with sections and quoted values. -/
def ini : Options where
  hashComments := true
  semicolonComments := true
  sections := true
  stripQuotes := true
  equalsSeparator := true
  colonSeparator := true

/-- The dialect of files with dotted keys and continued lines. -/
def properties : Options where
  hashComments := true
  bangComments := true
  equalsSeparator := true
  colonSeparator := true
  allowMissingValues := true
  multiline := true

/-- Options without a separator are refused. -/
def validate (options : Options) : Except Fault Unit :=
  if options.equalsSeparator || options.colonSeparator then .ok ()
  else .error
    { kind := .invalidOptions "No key/value separator is enabled"
      hint := some "Enable equals_separator, colon_separator or both"
      code := some 201 }

/-- The characters that start a comment. -/
def commentMarks (options : Options) : List Char :=
  (if options.hashComments then ['#'] else []) ++
    (if options.semicolonComments then [';'] else []) ++
    (if options.bangComments then ['!'] else [])

end Options

end ConfigTree.KeyValue
