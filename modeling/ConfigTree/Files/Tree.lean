import ConfigTree.Files.Name

/-!
# Reading files

A file system answers a name with the text of a file, or says why there is none. A file tree is a
file system that is given as a value: directories within directories, seen from a working directory.
Names lead through it component by component; two dots lead up, and above the working directory
nothing is known but that there are directories.
-/

namespace ConfigTree

/-- Why a file cannot be read. -/
inductive ReadProblem where
  | missing
  | notDirectory
  | isDirectory
  | notText
  /-- Any other problem, in words. -/
  | other (message : String)

/-- The text of a problem. -/
def ReadProblem.message : ReadProblem → String
  | .missing => "No such file or directory (os error 2)"
  | .notDirectory => "Not a directory (os error 20)"
  | .isDirectory => "Is a directory (os error 21)"
  | .notText => "stream did not contain valid UTF-8"
  | .other message => message

/-- What a name gives: the text of a file, or the problem. -/
abbrev FileSystem := String → Except ReadProblem String

/-- Files in directories. -/
inductive FileTree where
  | file (content : ByteArray)
  | directory (entries : List (String × FileTree))

namespace FileTree

/-- A directory without entries. -/
def empty : FileTree := .directory []

/-- The entries of a directory; a file has none. -/
def entries : FileTree → List (String × FileTree)
  | .file _ => []
  | .directory entries => entries

/-- Puts a file, or a directory if no content is given, below a directory. Directories on the way
are made, and what is in them stays. -/
def put (content : Option ByteArray) : List String → FileTree → FileTree
  | [], tree =>
    match content with
    | some content => .file content
    | none => .directory tree.entries
  | name :: rest, tree =>
    let below := put content rest ((tree.entries.lookup name).getD empty)
    .directory ((name, below) :: tree.entries.filter fun entry => entry.1 ≠ name)

/-- The file tree of a table of names, with content for files and none for directories. -/
def ofTable (table : List (String × Option ByteArray)) : FileTree :=
  table.foldl
    (fun tree entry =>
      let components := (FileName.components entry.1.toList).filter fun component =>
        !FileName.isIdle component
      put entry.2 (components.map String.ofList) tree)
    empty

/-- Follows one component from the end of a way through directories, the last of which stands in
front. Without directories the way is above the working directory. -/
def follow (way : List FileTree) (component : List Char) :
    Except ReadProblem (List FileTree) :=
  match way with
  | .file _ :: _ => .error .notDirectory
  | _ =>
    if FileName.isIdle component then .ok way
    else if component = ['.', '.'] then .ok way.tail
    else match way with
      | .directory entries :: _ =>
        match entries.lookup (.ofList component) with
        | some below => .ok (below :: way)
        | none => .error .missing
      | _ => .error .missing

/-- Reads a file by its name, seen from the directory at the top of the tree, which a name that
begins with a slash leaves. -/
def read (tree : FileTree) : FileSystem := fun name =>
  if name = "" then .error .missing
  else do
    let start := if name.toList.head? = some '/' then [] else [tree]
    match ← (FileName.components name.toList).foldlM follow start with
    | .file content :: _ =>
      match String.fromUTF8? content with
      | some text => return text
      | none => throw .notText
    | _ => throw .isDirectory

end FileTree

end ConfigTree
