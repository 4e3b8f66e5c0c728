import QueryTemplate.Config.Document
import QueryTemplate.Search.FileTree
import QueryTemplate.Style

/-!
The settings of an engine, given in code or read from a document. Every field may be left out; a
field that is not known is an error, so that a mistyped name does not go unnoticed.
-/

namespace QueryTemplate

/-- The settings of an engine. -/
structure EngineConfig where
  paramStyle : ParamStyle := .named
  identifierQuote : Option Char := some '"'
  strictUndefined : Bool := false
  allowFilterOverride : Bool := true
  trimBlocks : Bool := false
  lstripBlocks : Bool := false
  keepTrailingNewline : Bool := false
  searchPaths : List String := []

namespace Config

/-- The text of a scalar, whatever it stands for. -/
def asText (node : Node) : Except String String :=
  match node with
  | .scalar text _ => .ok text
  | _ => .error "invalid type, expected a string"

def asBool (node : Node) : Except String Bool :=
  match node with
  | .scalar text true =>
    if ["true", "True", "TRUE"].contains text then .ok true
    else if ["false", "False", "FALSE"].contains text then .ok false
    else .error "invalid type, expected a boolean"
  | _ => .error "invalid type, expected a boolean"

def isNull (node : Node) : Bool :=
  match node with
  | .scalar text true => ["", "~", "null", "Null", "NULL"].contains text
  | _ => false

/-- A single character, or none for null. -/
def asQuote (node : Node) : Except String (Option Char) :=
  if isNull node then .ok none
  else
    match asText node with
    | .error e => .error e
    | .ok text =>
      match text.toList with
      | [c] => .ok (some c)
      | _ => .error "invalid value, expected a character"

def asStyle (node : Node) : Except String ParamStyle :=
  match asText node with
  | .error e => .error e
  | .ok text =>
    match ParamStyle.parse text with
    | .ok style => .ok style
    | .error e => .error e.message

def texts : List Node → Except String (List String)
  | [] => .ok []
  | node :: rest =>
    match asText node with
    | .error e => .error e
    | .ok text =>
      match texts rest with
      | .ok more => .ok (text :: more)
      | .error e => .error e

/-- A list of texts. Where nothing is written the list is empty. -/
def asTexts (node : Node) : Except String (List String) :=
  match node with
  | .sequence items => texts items
  | .scalar "" true => .ok []
  | _ => .error "invalid type, expected a sequence"

/-- Sets the field of a name. -/
def setField (c : EngineConfig) (name : String) (node : Node) : Except String EngineConfig :=
  match name with
  | "param_style" => (asStyle node).map fun v => { c with paramStyle := v }
  | "identifier_quote" => (asQuote node).map fun v => { c with identifierQuote := v }
  | "strict_undefined" => (asBool node).map fun v => { c with strictUndefined := v }
  | "allow_filter_override" => (asBool node).map fun v => { c with allowFilterOverride := v }
  | "trim_blocks" => (asBool node).map fun v => { c with trimBlocks := v }
  | "lstrip_blocks" => (asBool node).map fun v => { c with lstripBlocks := v }
  | "keep_trailing_newline" => (asBool node).map fun v => { c with keepTrailingNewline := v }
  | "search_paths" => (asTexts node).map fun v => { c with searchPaths := v }
  | name => .error ("unknown field `" ++ name ++ "`")

/-- Sets the fields of a mapping, of which none may be given twice. -/
def setFields (seen : List String) (c : EngineConfig) :
    List (Node × Node) → Except String EngineConfig
  | [] => .ok c
  | (key, value) :: rest =>
    match asText key with
    | .error e => .error e
    | .ok name =>
      if seen.contains name then .error ("duplicate field `" ++ name ++ "`")
      else
        match setField c name value with
        | .error e => .error e
        | .ok c => setFields (name :: seen) c rest

def ofNode (node : Node) : Except String EngineConfig :=
  match node with
  | .mapping entries => setFields [] {} entries
  | .scalar "" true => .ok {}
  | _ => .error "invalid type, expected a mapping"

/-- The directory a file is in, without trailing separators. -/
def parentOf (path : String) : String :=
  let above := (path.toList.reverse.dropWhile (· != '/'))
  String.ofList (trimDots above.length above).reverse
where
  /-- Drops separators and `.` components from the front of a reversed path. -/
  trimDots : Nat → List Char → List Char
    | 0, path => path
    | fuel + 1, path =>
      match path with
      | ['/'] => ['/']
      | '/' :: rest => trimDots fuel rest
      | '.' :: '/' :: rest => trimDots fuel ('/' :: rest)
      | path => path

end Config

namespace EngineConfig

/-- Reads settings from the text of a document. -/
def ofText (text : String) : Except QueryError EngineConfig :=
  match Config.readNode text.toList with
  | none => .error (.config "malformed document")
  | some node =>
    match Config.ofNode node with
    | .ok config => .ok config
    | .error e => .error (.config e)

/-- Reads settings from a file. Relative search paths are taken from the file's directory. -/
def ofFile (tree : FileTree) (path : String) : Except QueryError EngineConfig :=
  match tree.readText path with
  | .error text => .error (.config ("failed to read " ++ path ++ ": " ++ text))
  | .ok text =>
    match ofText text with
    | .error e => .error e
    | .ok config =>
      let base := Config.parentOf path
      .ok { config with searchPaths := config.searchPaths.map (joinPath base) }

end EngineConfig

end QueryTemplate
