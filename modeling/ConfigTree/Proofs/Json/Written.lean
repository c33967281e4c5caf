import ConfigTree.Node.Basic

/-!
# Trees written as JSON

The texts that write a tree, as JSON has them. A character of a string may be written in
several ways, and white space is free between tokens. A text that is a truth value or the
decimal of an integer of 64 bits may do without quotes. An object may be written with
repeated keys.
-/

namespace ConfigTree

/-- At most a number of arrays and objects lie within each other. -/
inductive Node.NestsWithin : Nat → Node → Prop where
  | value (depth : Nat) (text : Option String) : NestsWithin depth (.value text)
  | object {depth : Nat} {fields : List (String × Node)}
      (below : ∀ field ∈ fields, NestsWithin depth field.2) :
      NestsWithin (depth + 1) (.object fields)
  | array {depth : Nat} {items : List Node} (below : ∀ item ∈ items, NestsWithin depth item) :
      NestsWithin (depth + 1) (.array items)

namespace Json

/-- White space between tokens. -/
def Spaces (text : List Char) : Prop :=
  ∀ c ∈ text, c ∈ [' ', '\n', '\t', '\r']

instance (text : List Char) : Decidable (Spaces text) :=
  List.decidableBAll (fun c => c ∈ [' ', '\n', '\t', '\r']) text

/-- The escapes of one letter, with what they stand for. -/
def letterEscapes : List (Char × Char) :=
  [('"', '"'), ('\\', '\\'), ('/', '/'), ('b', '\x08'), ('f', '\x0c'), ('n', '\n'), ('r', '\r'),
    ('t', '\t')]

/-- The hexadecimal digits of a value, in both cases. -/
def hexDigits (value : Nat) : List Char :=
  [value.digitChar, value.digitChar.toUpper]

/-- Four hexadecimal digits write a code unit. -/
inductive WritesCodeUnit : List Char → Nat → Prop where
  | digits {codeUnit : Nat} {a b c d : Char} (first : a ∈ hexDigits (codeUnit / 4096))
      (second : b ∈ hexDigits (codeUnit / 256 % 16)) (third : c ∈ hexDigits (codeUnit / 16 % 16))
      (fourth : d ∈ hexDigits (codeUnit % 16)) : WritesCodeUnit [a, b, c, d] codeUnit

/-- The first half of the surrogate pair of a character above U+FFFF. -/
def highSurrogate (c : Char) : Nat :=
  0xD800 + (c.toNat - 0x10000) / 0x400

/-- The second half of the surrogate pair of a character above U+FFFF. -/
def lowSurrogate (c : Char) : Nat :=
  0xDC00 + (c.toNat - 0x10000) % 0x400

/-- A text that stands for a character within quotes. -/
inductive WritesChar : List Char → Char → Prop where
  | raw {c : Char} (notControl : 0x20 ≤ c.toNat) (notQuote : c ≠ '"') (notBackslash : c ≠ '\\') :
      WritesChar [c] c
  | letter {letter c : Char} (escape : (letter, c) ∈ letterEscapes) : WritesChar ['\\', letter] c
  | codeUnit {c : Char} {digits : List Char} (small : c.toNat < 0x10000)
      (written : WritesCodeUnit digits c.toNat) : WritesChar ('\\' :: 'u' :: digits) c
  | surrogates {c : Char} {high low : List Char} (large : 0x10000 ≤ c.toNat)
      (writtenHigh : WritesCodeUnit high (highSurrogate c))
      (writtenLow : WritesCodeUnit low (lowSurrogate c)) :
      WritesChar ('\\' :: 'u' :: high ++ '\\' :: 'u' :: low) c

/-- A text that stands for characters within quotes. -/
inductive WritesChars : List Char → List Char → Prop where
  | nil : WritesChars [] []
  | cons {c : Char} {first rest content : List Char} (written : WritesChar first c)
      (more : WritesChars rest content) : WritesChars (first ++ rest) (c :: content)

/-- A string with its quotes. -/
inductive WritesString : List Char → String → Prop where
  | quoted {inner : List Char} {text : String} (written : WritesChars inner text.toList) :
      WritesString ('"' :: inner ++ ['"']) text

/-- Texts that may stand without quotes. -/
inductive Bare : String → Prop where
  | true : Bare "true"
  | false : Bare "false"
  | integer {number : Int} (least : Int64.minValue.toInt ≤ number) (most : number < UInt64.size) :
      Bare (toString number)

section Layout

variable {α : Type} (writes : List Char → α → Prop)

/-- Something that is written with white space around it. -/
inductive Spaced : List Char → α → Prop where
  | around {before text behind : List Char} {item : α} (spacesBefore : Spaces before)
      (written : writes text item) (spacesBehind : Spaces behind) :
      Spaced (before ++ text ++ behind) item

/-- Items that are written with commas between them, at least one. -/
inductive Row : List Char → List α → Prop where
  | last {text : List Char} {item : α} (written : writes text item) : Row text [item]
  | more {text row : List Char} {item : α} {items : List α} (written : writes text item)
      (others : Row row items) : Row (text ++ ',' :: row) (item :: items)

end Layout

/-- A field of an object that is written with a colon behind its name. -/
inductive WritesField (writes : List Char → Node → Prop) : List Char → String × Node → Prop where
  | colon {key text : List Char} {name : String} {node : Node}
      (writtenKey : Spaced WritesString key name) (written : Spaced writes text node) :
      WritesField writes (key ++ ':' :: text) (name, node)

/-- A text that writes a tree. -/
inductive Writes : List Char → Node → Prop where
  | null : Writes "null".toList (.value none)
  | string {quoted : List Char} {text : String} (written : WritesString quoted text) :
      Writes quoted (.value (some text))
  | bare {text : String} (isBare : Bare text) : Writes text.toList (.value (some text))
  | emptyArray {spaces : List Char} (blank : Spaces spaces) :
      Writes ('[' :: spaces ++ [']']) (.array [])
  | array {row : List Char} {items : List Node} (written : Row (Spaced Writes) row items) :
      Writes ('[' :: row ++ [']']) (.array items)
  | emptyObject {spaces : List Char} (blank : Spaces spaces) :
      Writes ('{' :: spaces ++ ['}']) (.object [])
  | object {row : List Char} {fields : List (String × Node)}
      (written : Row (WritesField Writes) row fields) :
      Writes ('{' :: row ++ ['}']) (.object fields)

theorem spaces_nil : Spaces [] := by
  simp [Spaces]

theorem exists_writesCodeUnit (codeUnit : Nat) : ∃ digits, WritesCodeUnit digits codeUnit :=
  ⟨_, .digits List.mem_cons_self List.mem_cons_self List.mem_cons_self List.mem_cons_self⟩

theorem exists_writesChar (c : Char) : ∃ text, WritesChar text c := by
  rcases Nat.lt_or_ge c.toNat 0x10000 with small | large
  · rcases exists_writesCodeUnit c.toNat with ⟨digits, written⟩
    exact ⟨_, .codeUnit small written⟩
  · rcases exists_writesCodeUnit (highSurrogate c) with ⟨high, writtenHigh⟩
    rcases exists_writesCodeUnit (lowSurrogate c) with ⟨low, writtenLow⟩
    exact ⟨_, .surrogates large writtenHigh writtenLow⟩

theorem exists_writesString (text : String) : ∃ quoted, WritesString quoted text := by
  have inner : ∀ content, ∃ inner, WritesChars inner content := by
    intro content
    induction content with
    | nil => exact ⟨_, .nil⟩
    | cons c content ih =>
        rcases exists_writesChar c with ⟨first, written⟩
        rcases ih with ⟨rest, more⟩
        exact ⟨_, .cons written more⟩
  rcases inner text.toList with ⟨inner, written⟩
  exact ⟨_, .quoted written⟩

section Layout

variable {α : Type} {writes : List Char → α → Prop}

theorem Spaced.plain {text : List Char} {item : α} (written : writes text item) :
    Spaced writes text item := by
  have around := Spaced.around spaces_nil written spaces_nil
  simp only [List.nil_append, List.append_nil] at around
  exact around

theorem exists_row (item : α) (items : List α)
    (each : ∀ other ∈ item :: items, ∃ text, writes text other) :
    ∃ row, Row writes row (item :: items) := by
  induction items generalizing item with
  | nil =>
      rcases each item List.mem_cons_self with ⟨text, written⟩
      exact ⟨_, .last written⟩
  | cons next items ih =>
      rw [List.forall_mem_cons] at each
      rcases each.1 with ⟨text, written⟩
      rcases ih next each.2 with ⟨row, others⟩
      exact ⟨_, .more written others⟩

end Layout

/-- Every tree can be written. -/
theorem exists_writes {depth : Nat} {node : Node} (nests : node.NestsWithin depth) :
    ∃ text, Writes text node := by
  induction nests with
  | value depth content =>
      cases content with
      | none => exact ⟨_, .null⟩
      | some text =>
          rcases exists_writesString text with ⟨quoted, written⟩
          exact ⟨_, .string written⟩
  | @array depth items below ih =>
      cases items with
      | nil => exact ⟨_, .emptyArray spaces_nil⟩
      | cons item items =>
          have each : ∀ other ∈ item :: items, ∃ text, Spaced Writes text other := by
            intro other mem
            rcases ih other mem with ⟨text, written⟩
            exact ⟨text, .plain written⟩
          rcases exists_row item items each with ⟨row, written⟩
          exact ⟨_, .array written⟩
  | @object depth fields below ih =>
      cases fields with
      | nil => exact ⟨_, .emptyObject spaces_nil⟩
      | cons field fields =>
          have each : ∀ other ∈ field :: fields, ∃ text, WritesField Writes text other := by
            rintro ⟨name, node⟩ mem
            rcases exists_writesString name with ⟨key, writtenKey⟩
            rcases ih _ mem with ⟨text, written⟩
            exact ⟨_, .colon (.plain writtenKey) (.plain written)⟩
          rcases exists_row field fields each with ⟨row, written⟩
          exact ⟨_, .object written⟩

end Json

end ConfigTree
