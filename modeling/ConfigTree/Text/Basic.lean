/-!
# Texts

Blanks, quotes and lines. A character is blank when Unicode gives it the property `White_Space`.
Trimming removes blank characters from the ends of a text and from nowhere else. Characters that
only look empty, such as the zero-width space or the byte order mark, are not blank.

A text that begins and ends with the same quote, single or double, is a quoted text, and what lies
between is its content. Only one pair is taken off, and a lone quote is no pair.

A line ends with a line feed. One carriage return directly in front of that line feed belongs to
the line end, any other one to the line. A last line without a line feed counts as long as it has
a character, so a text that ends with a line feed has no empty line behind it.
-/

namespace ConfigTree.Text

/-- The 25 characters with the Unicode property `White_Space`. -/
def isBlank (c : Char) : Bool :=
  let code := c.toNat
  (0x09 ≤ code && code ≤ 0x0D) || code == 0x20 || code == 0x85 || code == 0xA0 ||
    code == 0x1680 || (0x2000 ≤ code && code ≤ 0x200A) || code == 0x2028 || code == 0x2029 ||
    code == 0x202F || code == 0x205F || code == 0x3000

/-- Removes the blanks in front. -/
def trimStart (text : List Char) : List Char :=
  text.dropWhile isBlank

/-- Removes the blanks at the end. -/
def trimEnd (text : List Char) : List Char :=
  (text.reverse.dropWhile isBlank).reverse

/-- Removes the blanks at both ends. -/
def trim (text : List Char) : List Char :=
  trimEnd (trimStart text)

/-- A text without the blanks at its ends. -/
def trimmed (text : String) : String :=
  .ofList (trim text.toList)

@[simp]
theorem trim_nil : trim [] = [] := rfl

/-- Whether a character opens and closes a quoted text. -/
def isQuote (c : Char) : Bool :=
  c == '"' || c == '\''

/-- Takes off one pair of matching quotes. -/
def unquote : List Char → List Char
  | [] => []
  | first :: rest =>
    if isQuote first && rest.getLast? == some first then rest.dropLast else first :: rest

/-- The lines of a text, without their ends. -/
def lines : List Char → List (List Char)
  | [] => []
  | '\r' :: '\n' :: rest => [] :: lines rest
  | c :: rest =>
    if c = '\n' then [] :: lines rest
    else match lines rest with
      | [] => [[c]]
      | line :: more => (c :: line) :: more

end ConfigTree.Text
