import ConfigTree.Proofs.Json.Containers
import ConfigTree.Proofs.Json.Values
import ConfigTree.Proofs.Node.Merged

/-!
# Trees come back

Reading a text that writes a tree gives that tree, whatever was chosen in writing it. The
induction is on the depth to which a reader reads, in step with the nesting of the tree;
rows of elements and fields are read by inductions of their own.
-/

namespace ConfigTree

namespace Json

variable {node : Node} {items : List Node} {fields : List (String × Node)}
  {text row rest : List Char} {closing : Char} {read : NodeReader} {depth : Nat}

/-- A reader reads a node back, with white space in front of it and other tokens behind it. -/
def ReadsBack (read : NodeReader) (text : List Char) (node : Node) : Prop :=
  ∀ spaces, Spaces spaces → ∀ rest, EndsNumber rest →
    Leaves (read (spaces ++ text ++ rest)) node rest

/-- A text that writes a tree begins with a token that closes no array. -/
theorem Writes.exists_first (written : Writes text node) :
    ∃ c more, text = c :: more ∧ isSpace c = false ∧ c ≠ ']' := by
  cases written with
  | null => exact ⟨'n', ['u', 'l', 'l'], by decide⟩
  | string written =>
      cases written with
      | quoted _ => exact ⟨'"', _, rfl, by decide⟩
  | bare isBare => exact exists_first_of_bare isBare
  | emptyArray _ => exact ⟨'[', _, rfl, by decide⟩
  | array _ => exact ⟨'[', _, rfl, by decide⟩
  | emptyObject _ => exact ⟨'{', _, rfl, by decide⟩
  | object _ => exact ⟨'{', _, rfl, by decide⟩

theorem Writes.filled (written : Writes text node) : Filled ']' text := by
  rcases written.exists_first with ⟨c, more, rfl, noSpace, notClosing⟩
  exact filled_cons noSpace notClosing more

/-- White space around a node is skipped in front of it and left to the next token behind it. -/
theorem Spaced.leaves (written : Spaced Writes text node)
    (readsBack : ∀ text, Writes text node → ReadsBack read text node) (ends : EndsNumber rest) :
    ∃ left, Leaves (read (text ++ rest)) node left ∧ skipSpace left = skipSpace rest := by
  cases written with
  | @around before text behind _ spacesBefore written spacesBehind =>
      refine ⟨behind ++ rest, ?_, skipSpace_append spacesBehind rest⟩
      rw [List.append_assoc]
      exact readsBack text written before spacesBefore _ (ends.behind_spaces spacesBehind)

theorem readElements_row (written : Row (Spaced Writes) row items)
    (readsBack : ∀ item ∈ items, ∀ text, Writes text item → ReadsBack read text item)
    (rest : List Char) : Leaves (readElements read (row ++ ']' :: rest)) items rest := by
  induction written with
  | @last text item written =>
      rw [List.forall_mem_singleton] at readsBack
      have ends : EndsNumber (']' :: rest) := endsNumber_cons (by decide) _
      rcases written.leaves readsBack ends with ⟨left, first, behind⟩
      apply readElements_last first
      rw [behind, skipSpace_cons rfl]
  | @more text row item items written others ih =>
      rw [List.forall_mem_cons] at readsBack
      have ends : EndsNumber (',' :: (row ++ ']' :: rest)) := endsNumber_cons (by decide) _
      rcases written.leaves readsBack.1 ends with ⟨left, first, behind⟩
      have filled : Filled ']' row := others.filled fun _ _ _ written =>
        written.filled fun _ written => written.filled
      rw [List.append_assoc]
      apply readElements_more first
      · rw [behind, skipSpace_cons rfl]
      · exact filled.append _
      · exact ih readsBack.2

/-- A field is read as its name and, behind the colon, its node. -/
theorem WritesField.leaves {field : String × Node} (written : WritesField Writes text field)
    (readsBack : ∀ text, Writes text field.2 → ReadsBack read text field.2)
    (ends : EndsNumber rest) :
    ∃ behindName left, Leaves (readName (skipSpace (text ++ rest))) field.1 behindName ∧
      Leaves (read behindName) field.2 left ∧ skipSpace left = skipSpace rest := by
  cases written with
  | @colon key text name node writtenKey written =>
      cases writtenKey with
      | @around before quoted behind _ spacesBefore writtenName spacesBehind =>
          rcases written.leaves readsBack ends with ⟨left, value, isLeft⟩
          refine ⟨text ++ rest, left, ?_, value, isLeft⟩
          have quote : skipSpace (quoted ++ (behind ++ ':' :: (text ++ rest))) =
              quoted ++ (behind ++ ':' :: (text ++ rest)) := by
            cases writtenName with
            | quoted _ => exact skipSpace_cons rfl _
          have name := readName_written writtenName spacesBehind (text ++ rest)
          have whole : before ++ quoted ++ behind ++ ':' :: text ++ rest =
              before ++ (quoted ++ (behind ++ ':' :: (text ++ rest))) := by
            simp
          rw [whole, skipSpace_append spacesBefore, quote]
          exact name

theorem WritesField.filled {field : String × Node} (written : WritesField Writes text field) :
    Filled '}' text := by
  cases written with
  | colon writtenKey _ =>
      apply Filled.append
      apply writtenKey.filled
      intro quoted written
      cases written with
      | quoted _ => exact filled_cons rfl (by decide) _

theorem readFields_row (written : Row (WritesField Writes) row fields)
    (readsBack : ∀ field ∈ fields, ∀ text, Writes text field.2 → ReadsBack read text field.2)
    (rest : List Char) : Leaves (readFields read (row ++ '}' :: rest)) fields rest := by
  induction written with
  | @last text field written =>
      rw [List.forall_mem_singleton] at readsBack
      have ends : EndsNumber ('}' :: rest) := endsNumber_cons (by decide) _
      rcases written.leaves readsBack ends with ⟨behindName, left, name, value, behind⟩
      apply readFields_last name value
      rw [behind, skipSpace_cons rfl]
  | @more text row field fields written others ih =>
      rw [List.forall_mem_cons] at readsBack
      have ends : EndsNumber (',' :: (row ++ '}' :: rest)) := endsNumber_cons (by decide) _
      rcases written.leaves readsBack.1 ends with ⟨behindName, left, name, value, behind⟩
      have filled : Filled '}' row := others.filled fun _ _ _ written => written.filled
      rw [List.append_assoc]
      apply readFields_more name value
      · rw [behind, skipSpace_cons rfl]
      · exact filled.append _
      · exact ih readsBack.2

theorem readToken_list {left : List Char} {node : Node}
    (list : Leaves (readList read text) node left) :
    Leaves (readToken (some read) ('[' :: text)) node left := by
  rw [readToken]
  apply list.bind
  intro taken isLeft
  exact ⟨taken.behind '[', rfl, isLeft⟩

theorem readToken_object {left : List Char} {node : Node}
    (object : Leaves (readObject read text) node left) :
    Leaves (readToken (some read) ('{' :: text)) node left := by
  rw [readToken]
  apply object.bind
  intro taken isLeft
  exact ⟨taken.behind '{', rfl, isLeft⟩

/-- The reader of the trees that may lie within one that is read to a depth. -/
def nestedReader : Nat → Option NodeReader
  | 0 => none
  | depth + 1 => some (readValue depth)

theorem readValue_eq (depth : Nat) (text : List Char) :
    readValue depth text = do
      let (node, rest) ← readToken (nestedReader depth) (skipSpace text)
      return (node, rest.behindSpace) := by
  cases depth <;> rfl

theorem readsBack_of_readToken (written : Writes text node)
    (token : ∀ rest, EndsNumber rest →
      Leaves (readToken (nestedReader depth) (text ++ rest)) node rest) :
    ReadsBack (readValue depth) text node := by
  intro spaces blank rest ends
  have isText : skipSpace (spaces ++ text ++ rest) = text ++ rest := by
    rcases written.exists_first with ⟨c, more, rfl, noSpace, _⟩
    rw [List.append_assoc, skipSpace_append blank]
    exact skipSpace_cons noSpace _
  have atToken := token rest ends
  rw [← isText] at atToken
  rw [readValue_eq]
  apply atToken.bind
  intro taken isLeft
  exact ⟨taken.behindSpace, rfl, isLeft⟩

/-- A reader that reads as deep as a tree is nested reads it back. -/
theorem readsBack_of_writes (nests : node.NestsWithin depth) (written : Writes text node) :
    ReadsBack (readValue depth) text node := by
  induction nests generalizing text with
  | value depth content =>
      apply readsBack_of_readToken written
      intro rest ends
      exact readToken_value written ends
  | @array depth items below ih =>
      apply readsBack_of_readToken written
      intro rest ends
      cases written with
      | @emptyArray spaces blank =>
          rw [List.append_assoc]
          apply readToken_list
          exact readList_empty (skipSpace_append_cons blank rfl rest)
      | @array row _ written =>
          have filled : Filled ']' row := written.filled fun _ _ _ written =>
            written.filled fun _ written => written.filled
          rw [List.append_assoc]
          apply readToken_list
          apply readList_elements (filled.append _)
          exact readElements_row written (fun item mem text => ih item mem) rest
  | @object depth fields below ih =>
      apply readsBack_of_readToken written
      intro rest ends
      cases written with
      | @emptyObject spaces blank =>
          rw [List.append_assoc]
          apply readToken_object
          exact readObject_empty (skipSpace_append_cons blank rfl rest)
      | @object row _ written =>
          have filled : Filled '}' row := written.filled fun _ _ _ written => written.filled
          rw [List.append_assoc]
          apply readToken_object
          apply readObject_fields (filled.append _)
          exact readFields_row written (fun field mem text => ih field mem) rest

theorem parse_eq_merged {text : String} (nests : node.NestsWithin 127)
    (written : Spaced Writes text.toList node) : parse text = .ok node.merged := by
  have nothing : EndsNumber [] := by
    rintro c ⟨⟩
  rcases written.leaves (fun text => readsBack_of_writes nests) nothing with ⟨left, read, behind⟩
  rw [List.append_nil] at read
  rcases read with ⟨taken, isRead, rfl⟩
  have ended : readEnd taken.text = .ok () := by
    rw [readEnd, behind]
    rfl
  have document : readDocument text.toList = .ok node := by
    rw [readDocument, depthLimit, isRead]
    change (readEnd taken.text >>= _) = _
    rw [ended]
    rfl
  rw [parse, document]

/-- A text that writes a tree is read as what the tree stands for, and as the tree itself if no
key is repeated. -/
theorem parse_of_writes {text : String} (nests : node.NestsWithin 127)
    (written : Spaced Writes text.toList node) :
    ∃ tree, parse text = .ok tree ∧ node.MergesTo tree ∧ (node.KeysDistinct → tree = node) := by
  refine ⟨node.merged, parse_eq_merged nests written, node.mergesTo_merged, ?_⟩
  intro distinct
  exact distinct.mergesTo.eq_merged

/-- A key repeated in another spelling, a bare integer, a surrogate pair and white space. -/
theorem parse_of_writes_repeated :
    ∃ node : Node, node.NestsWithin 127 ∧
      Spaced Writes "\x7b\"a\": -7,\"b\":[ ],\"\\u0061\":\"\\uD83d\\ude00\"\x7d\n".toList node ∧
      parse "\x7b\"a\": -7,\"b\":[ ],\"\\u0061\":\"\\uD83d\\ude00\"\x7d\n" =
        .ok (.object [("a", .ofText "😀"), ("b", .array [])]) := by
  have a : WritesString "\"a\"".toList "a" :=
    @WritesString.quoted ['a'] "a" (.cons (.raw (by decide) (by decide) (by decide)) .nil)
  have b : WritesString "\"b\"".toList "b" :=
    @WritesString.quoted ['b'] "b" (.cons (.raw (by decide) (by decide) (by decide)) .nil)
  have escaped : WritesString "\"\\u0061\"".toList "a" :=
    @WritesString.quoted "\\u0061".toList "a" (.cons (.codeUnit (by decide)
      (@WritesCodeUnit.digits _ '0' '0' '6' '1' (by decide) (by decide) (by decide) (by decide)))
      .nil)
  have pair : WritesString "\"\\uD83d\\ude00\"".toList "😀" :=
    @WritesString.quoted "\\uD83d\\ude00".toList "😀" (.cons (.surrogates (by decide)
      (@WritesCodeUnit.digits _ 'D' '8' '3' 'd' (by decide) (by decide) (by decide) (by decide))
      (@WritesCodeUnit.digits _ 'd' 'e' '0' '0' (by decide) (by decide) (by decide) (by decide)))
      .nil)
  have integer : Writes "-7".toList (.ofText "-7") := by
    have bare := Writes.bare (@Bare.integer (-7) (by decide) (by decide))
    have shown : toString (-7 : Int) = "-7" := by decide
    rw [shown] at bare
    exact bare
  have first : Spaced Writes " -7".toList (.ofText "-7") :=
    @Spaced.around _ _ [' '] _ [] _ (by decide) integer spaces_nil
  have second : Writes "[ ]".toList (.array []) := @Writes.emptyArray [' '] (by decide)
  have row := Row.more (WritesField.colon (.plain a) first)
    (.more (WritesField.colon (.plain b) (.plain second))
      (.last (WritesField.colon (.plain escaped) (.plain (Writes.string pair)))))
  have written : Spaced Writes
      "\x7b\"a\": -7,\"b\":[ ],\"\\u0061\":\"\\uD83d\\ude00\"\x7d\n".toList _ :=
    @Spaced.around _ _ [] _ ['\n'] _ spaces_nil (Writes.object row) (by decide)
  have nests : Node.NestsWithin 127
      (.object [("a", .ofText "-7"), ("b", .array []), ("a", .ofText "😀")]) := by
    apply Node.NestsWithin.object
    simp only [List.forall_mem_cons]
    exact ⟨.value _ _, .array (by simp), .value _ _, by simp⟩
  rcases parse_of_writes nests written with ⟨tree, read, merges, _⟩
  refine ⟨_, nests, written, ?_⟩
  rw [read, ← merges.eq_merged]
  rfl

/-- Every tree without repeated keys that is not nested too deep is written somewhere. -/
theorem exists_parse_eq_ok (nests : node.NestsWithin 127) (distinct : node.KeysDistinct) :
    ∃ text, parse text = .ok node := by
  rcases exists_writes nests with ⟨text, written⟩
  refine ⟨.ofList text, ?_⟩
  rw [parse_eq_merged nests (by rw [String.toList_ofList]; exact .plain written),
    distinct.mergesTo.eq_merged]

end Json

end ConfigTree
