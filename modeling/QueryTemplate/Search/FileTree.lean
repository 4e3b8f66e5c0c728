import QueryTemplate.Text.Scan
import QueryTemplate.Text.Utf8

/-!
A file system as a tree. Paths are texts that are read component by component from the root, the
way an operating system reads them: empty components and `.` stay where they are, `..` goes up, and
nothing can be entered that is not a directory.
-/

namespace QueryTemplate

/-- A file with its bytes, or a directory with its entries. -/
inductive FileTree where
  | file (content : List UInt8)
  | directory (entries : List (String × FileTree))
  deriving Inhabited

namespace FileTree

def empty : FileTree := directory []

def isFile : FileTree → Bool
  | file _ => true
  | directory _ => false

def isDirectory : FileTree → Bool
  | file _ => false
  | directory _ => true

def child? (name : String) : FileTree → Option FileTree
  | file _ => none
  | directory entries => entries.lookup name

/-- Follows components from a node; `above` are the directories it is in. -/
def follow (above : List FileTree) (here : FileTree) : List String → Option FileTree
  | [] => some here
  | name :: rest =>
    if !here.isDirectory then none
    else if name = "" || name = "." then follow above here rest
    else if name = ".." then
      match above with
      | [] => follow [] here rest
      | parent :: above => follow above parent rest
    else
      match here.child? name with
      | some next => follow (here :: above) next rest
      | none => none

/-- The components of a path, empty ones included. -/
def components (path : String) : List String :=
  (Text.splitAll ['/'] path.toList.length path.toList).map String.ofList

/-- What a path leads to. The empty path leads nowhere. -/
def find? (tree : FileTree) (path : String) : Option FileTree :=
  if path = "" then none else follow [] tree (components path)

def isFileAt (tree : FileTree) (path : String) : Bool :=
  (tree.find? path).any isFile

def isDirectoryAt (tree : FileTree) (path : String) : Bool :=
  (tree.find? path).any isDirectory

/-- Reads a file as text, or says why that is not possible. -/
def readText (tree : FileTree) (path : String) : Except String String :=
  match tree.find? path with
  | none => .error "No such file or directory (os error 2)"
  | some (.directory _) => .error "Is a directory (os error 21)"
  | some (.file content) =>
    match Text.decode? content with
    | some text => .ok text
    | none => .error "stream did not contain valid UTF-8"

/-- Puts a node at a path, making the directories on the way. -/
def place (node : FileTree) : List String → FileTree → FileTree
  | [], _ => node
  | name :: rest, tree =>
    let entries := match tree with
      | directory entries => entries
      | file _ => []
    let inner := (entries.lookup name).getD empty
    let others := entries.filter fun (n, _) => n != name
    directory (others ++ [(name, place node rest inner)])

mutual

/-- The paths of the files below a node, each as the list of its components. -/
def filePaths : FileTree → List (List String)
  | file _ => [[]]
  | directory entries => entryPaths entries

def entryPaths : List (String × FileTree) → List (List String)
  | [] => []
  | (name, tree) :: rest => (filePaths tree).map (name :: ·) ++ entryPaths rest

end

end FileTree

/-- A path below a directory, written as text. -/
def joinPath (directory name : String) : String :=
  match name.toList with
  | '/' :: _ => name
  | _ =>
    match directory.toList.getLast? with
    | none => name
    | some '/' => directory ++ name
    | some _ => directory ++ "/" ++ name

end QueryTemplate
