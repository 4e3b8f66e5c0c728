import QueryTemplate.Error
import QueryTemplate.NameMap
import QueryTemplate.Search.FileTree

/-!
Template files are found by name in a list of directories. The first directory that holds a match
wins, and within one the file of the very name goes before the name with an extension. Names are
relative and never step upwards.
-/

namespace QueryTemplate

/-- The extensions of template files, the preferred one first. -/
def templateExtensions : List String :=
  [".sql", ".sql.j2", ".sql.jinja", ".j2", ".jinja"]

/-- A template file: its name with and without extension. -/
structure TemplateFile where
  name : String
  fileName : String
  deriving DecidableEq, Repr

/-- The name without `ending`, if it ends in it and more is left. -/
def dropEnding? (ending name : String) : Option String :=
  match Text.dropHead? ending.toList.reverse name.toList.reverse with
  | some (c :: rest) => some (String.ofList (c :: rest).reverse)
  | _ => none

/-- The shorter of two names. -/
def shorter (a : String) : Option String → String
  | none => a
  | some b => if b.length < a.length then b else a

/-- The name of a template file without the longest extension it has. -/
def dropExtension? (fileName : String) : Option String :=
  templateExtensions.foldl
    (fun best ending =>
      match dropEnding? ending fileName with
      | some name => some (shorter name best)
      | none => best)
    none

/-- The directories to look for templates in. -/
structure SearchPath where
  dirs : List String := []

namespace SearchPath

def empty : SearchPath := {}

/-- Adds a directory, which must exist. -/
def addDir (s : SearchPath) (tree : FileTree) (dir : String) : Except LoadError SearchPath :=
  if tree.isDirectoryAt dir then .ok ⟨s.dirs ++ [dir]⟩ else .error (.directoryNotFound dir)

/-- The first component of a name that is not allowed, if there is one. -/
def nameFault? (name : String) : Option String :=
  match name.toList with
  | [] => some "name is empty"
  | '/' :: _ => some "name must be relative"
  | _ => if (FileTree.components name).contains ".." then some "`..` is not allowed" else none

/-- The names a file may have to match a template name, the preferred one first. -/
def candidates (name : String) : List String :=
  name :: templateExtensions.map (name ++ ·)

/-- The file that matches a name in a directory. -/
def resolveIn (tree : FileTree) (name dir : String) : Option String :=
  ((candidates name).map (joinPath dir)).find? tree.isFileAt

/-- The path of the file that matches a name. -/
def resolve (s : SearchPath) (tree : FileTree) (name : String) :
    Except LoadError (Option String) :=
  match nameFault? name with
  | some reason => .error (.invalidName name reason)
  | none => .ok (s.dirs.findSome? (resolveIn tree name))

/-- The text of the file that matches a name. -/
def load (s : SearchPath) (tree : FileTree) (name : String) : Except LoadError (Option String) :=
  match s.resolve tree name with
  | .error e => .error e
  | .ok none => .ok none
  | .ok (some path) =>
    match tree.readText path with
    | .ok text => .ok (some text)
    | .error text => .error (.io path text)

/-- The template files below a directory. -/
def filesIn (tree : FileTree) (dir : String) : Except LoadError (List TemplateFile) :=
  match tree.find? dir with
  | some (.directory entries) =>
    .ok ((FileTree.entryPaths entries).filterMap fun path =>
      let fileName := String.intercalate "/" path
      (dropExtension? fileName).map fun name => ⟨name, fileName⟩)
  | some (.file _) => .error (.io dir "Not a directory (os error 20)")
  | none => .error (.io dir "No such file or directory (os error 2)")

def filesInAll (tree : FileTree) : List String → Except LoadError (List TemplateFile)
  | [] => .ok []
  | dir :: dirs =>
    match filesIn tree dir with
    | .error e => .error e
    | .ok files =>
      match filesInAll tree dirs with
      | .ok more => .ok (files ++ more)
      | .error e => .error e

/-- All template files, directory by directory. -/
def files (s : SearchPath) (tree : FileTree) : Except LoadError (List TemplateFile) :=
  filesInAll tree s.dirs

/-- The names of all template files in order, each once. -/
def names (s : SearchPath) (tree : FileTree) : Except LoadError (List String) :=
  match s.files tree with
  | .ok files => .ok (NameMap.sortNames (files.map (·.name)))
  | .error e => .error e

end SearchPath

end QueryTemplate
