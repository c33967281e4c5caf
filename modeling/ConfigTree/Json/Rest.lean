/-!
# What remains of a JSON text

A step of a reader leaves what remains of its text. That this is shorter belongs to the answer, so
loops of steps come to an end. Steps are put together here: `behind` is for a step that has taken a
character first, `andThen` for a step after another one, and `andMaybe` for a part that may be
missing.
-/

namespace ConfigTree.Json

/-- What remains of a text behind a step. -/
structure Rest (whole : List Char) where
  text : List Char
  shorter : text.length < whole.length

/-- What remains of a text behind a part that may be missing. -/
structure RestAfter (whole : List Char) where
  text : List Char
  notLonger : text.length ≤ whole.length

/-- The blanks between tokens. -/
def isSpace (c : Char) : Bool :=
  c == ' ' || c == '\n' || c == '\t' || c == '\r'

/-- Skips the blanks in front of a token. -/
def skipSpace (text : List Char) : List Char :=
  text.dropWhile isSpace

theorem length_dropWhile_le (skipped : Char → Bool) (text : List Char) :
    (text.dropWhile skipped).length ≤ text.length :=
  (List.dropWhile_sublist _).length_le

theorem length_lt_cons (c : Char) (text : List Char) : text.length < (c :: text).length :=
  Nat.lt_succ_self text.length

theorem length_lt_of_skipSpace {whole text : List Char} {c : Char}
    (skipped : skipSpace whole = c :: text) : text.length < whole.length := by
  have := length_dropWhile_le isSpace whole
  simp only [skipSpace] at skipped
  simp only [skipped, List.length_cons] at this
  omega

variable {whole : List Char}

namespace Rest

/-- Behind a single character. -/
def tail (c : Char) (text : List Char) : Rest (c :: text) where
  text := text
  shorter := length_lt_cons c text

/-- Behind blanks and a single character. -/
def ofSkipSpace {text : List Char} {c : Char} (skipped : skipSpace whole = c :: text) :
    Rest whole where
  text := text
  shorter := length_lt_of_skipSpace skipped

/-- Behind a character and a step. -/
def behind (c : Char) (rest : Rest whole) : Rest (c :: whole) where
  text := rest.text
  shorter := Nat.lt_trans rest.shorter (length_lt_cons c whole)

/-- Behind blanks and a step. -/
def behindSpace (rest : Rest (skipSpace whole)) : Rest whole where
  text := rest.text
  shorter := Nat.lt_of_lt_of_le rest.shorter (length_dropWhile_le isSpace whole)

/-- Behind a step and another one. -/
def andThen (rest : Rest whole) (after : Rest rest.text) : Rest whole where
  text := after.text
  shorter := Nat.lt_trans after.shorter rest.shorter

/-- Behind a step and a part that may be missing. -/
def andMaybe (rest : Rest whole) (after : RestAfter rest.text) : Rest whole where
  text := after.text
  shorter := Nat.lt_of_le_of_lt after.notLonger rest.shorter

/-- Behind a step, where something may be missing. -/
def maybe (rest : Rest whole) : RestAfter whole where
  text := rest.text
  notLonger := Nat.le_of_lt rest.shorter

/-- Behind a step that has at least taken the first character. -/
def withoutFirst {c : Char} (rest : Rest (c :: whole)) : RestAfter whole where
  text := rest.text
  notLonger := Nat.le_of_lt_succ rest.shorter

end Rest

namespace RestAfter

/-- Behind nothing. -/
def all (text : List Char) : RestAfter text where
  text := text
  notLonger := Nat.le_refl text.length

/-- Behind all characters of a kind. -/
def dropWhile (skipped : Char → Bool) (text : List Char) : RestAfter text where
  text := text.dropWhile skipped
  notLonger := length_dropWhile_le skipped text

/-- Behind a character and a part that may be missing. -/
def behind (c : Char) (rest : RestAfter whole) : Rest (c :: whole) where
  text := rest.text
  shorter := Nat.lt_succ_of_le rest.notLonger

/-- Behind a part that may be missing and a step. -/
def andThen (rest : RestAfter whole) (after : Rest rest.text) : Rest whole where
  text := after.text
  shorter := Nat.lt_of_lt_of_le after.shorter rest.notLonger

end RestAfter

end ConfigTree.Json
