import QueryTemplate.Text.Quoted

/-!
What can go wrong: in a filter, while loading a template file, inside the template engine, and, as
callers see it, in a query operation.
-/

namespace QueryTemplate

/-- Why a filter failed. The built-in filters use the named cases; a caller's filter or deferred
value fails with a text of its own. -/
inductive FilterError where
  | unsupportedInput (expected found : String)
  | emptyIdentifier
  | bareIdentifier (segment : String)
  | reservedCharacter
  | missingArgument (name : String)
  | custom (text : String)
  deriving DecidableEq, Repr

namespace FilterError

def message : FilterError → String
  | unsupportedInput expected found => "expected " ++ expected ++ ", got " ++ found
  | emptyIdentifier => "identifier segment is empty"
  | bareIdentifier segment => "`" ++ segment ++ "` is not a valid unquoted identifier"
  | reservedCharacter => "value contains reserved marker characters"
  | missingArgument name => "missing required argument `" ++ name ++ "`"
  | custom text => text

end FilterError

/-- Why a template file or a template directory could not be used. -/
inductive LoadError where
  | directoryNotFound (path : String)
  | io (path text : String)
  | invalidName (name reason : String)
  deriving DecidableEq, Repr

namespace LoadError

def message : LoadError → String
  | directoryNotFound path => "template directory not found: " ++ path
  | io path text => "failed to read " ++ path ++ ": " ++ text
  | invalidName name reason => "invalid template name `" ++ name ++ "`: " ++ reason

end LoadError

/-- The sorts of errors the template engine raises. -/
inductive ErrorKind where
  | syntaxError
  | badEscape
  | templateNotFound
  | undefinedError
  | unknownFilter
  | unknownTest
  | unknownFunction
  | unknownMethod
  | unknownBlock
  | invalidOperation
  | missingArgument
  | tooManyArguments
  | cannotUnpack
  | badInclude
  | evalBlock
  deriving DecidableEq, Repr

namespace ErrorKind

def name : ErrorKind → String
  | syntaxError => "SyntaxError"
  | badEscape => "BadEscape"
  | templateNotFound => "TemplateNotFound"
  | undefinedError => "UndefinedError"
  | unknownFilter => "UnknownFilter"
  | unknownTest => "UnknownTest"
  | unknownFunction => "UnknownFunction"
  | unknownMethod => "UnknownMethod"
  | unknownBlock => "UnknownBlock"
  | invalidOperation => "InvalidOperation"
  | missingArgument => "MissingArgument"
  | tooManyArguments => "TooManyArguments"
  | cannotUnpack => "CannotUnpack"
  | badInclude => "BadInclude"
  | evalBlock => "EvalBlock"

def describe : ErrorKind → String
  | syntaxError => "syntax error"
  | badEscape => "bad string escape"
  | templateNotFound => "template not found"
  | undefinedError => "undefined value"
  | unknownFilter => "unknown filter"
  | unknownTest => "unknown test"
  | unknownFunction => "unknown function"
  | unknownMethod => "unknown method"
  | unknownBlock => "unknown block"
  | invalidOperation => "invalid operation"
  | missingArgument => "missing argument"
  | tooManyArguments => "too many arguments"
  | cannotUnpack => "cannot unpack"
  | badInclude => "could not render include"
  | evalBlock => "could not render block"

end ErrorKind

/-- A place in a template. -/
structure Location where
  template : String
  line : Nat
  deriving DecidableEq, Repr

/-- An error of the template engine. `load` is the file error behind it, if it has one, and
`markup` tells that the source was refused before the engine read it. -/
structure EngineError where
  kind : ErrorKind
  detail : Option String := none
  location : Option Location := none
  load : Option LoadError := none
  markup : Bool := false
  deriving DecidableEq, Repr

namespace EngineError

def of (kind : ErrorKind) (detail : String) : EngineError :=
  { kind, detail := some detail }

def invalid (detail : String) : EngineError :=
  of .invalidOperation detail

def undefined : EngineError :=
  { kind := .undefinedError }

/-- Fills in where the error happened, unless it is known already. -/
def locate (e : EngineError) (template : String) (line : Nat) : EngineError :=
  match e.location with
  | some _ => e
  | none => { e with location := some ⟨template, line⟩ }

def line (e : EngineError) : Option Nat :=
  e.location.map (·.line)

def message (e : EngineError) : String :=
  let what := match e.detail with
    | some detail => e.kind.describe ++ ": " ++ detail
    | none => e.kind.describe
  match e.location with
  | some l => what ++ " (in " ++ l.template ++ ":" ++ toString l.line ++ ")"
  | none => what

end EngineError

/-- What a query operation reports. -/
inductive QueryError where
  /-- The source is malformed. An error of the template grammar has the line it is on. -/
  | templateSyntax (text : String) (line : Option Nat)
  | templateNotFound (name : String)
  | undefinedValue (name : String)
  | unknownFilter (name : String)
  | filterExecution (filter : String) (source : FilterError)
  | duplicateFilter (name : String)
  | reservedName (name : String)
  | unsupportedStyle (name : String)
  | requiresSuspending (name : String)
  | deferredValue (name : String) (source : FilterError)
  | replayDiverged (ordinal : Nat) (expected found : String)
  | markerCollision (text : String)
  | load (e : LoadError)
  | config (text : String)
  | context (text : String)
  | engine (e : EngineError)
  /-- A raw section cannot be cut into tags. -/
  | overlappingTag
  deriving DecidableEq, Repr

namespace QueryError

def kind : QueryError → String
  | templateSyntax .. => "TemplateSyntax"
  | templateNotFound _ => "TemplateNotFound"
  | undefinedValue _ => "UndefinedValue"
  | unknownFilter _ => "UnknownFilter"
  | filterExecution .. => "FilterExecution"
  | duplicateFilter _ => "DuplicateFilter"
  | reservedName _ => "ReservedName"
  | unsupportedStyle _ => "UnsupportedStyle"
  | requiresSuspending _ => "RequiresSuspending"
  | deferredValue .. => "DeferredValue"
  | replayDiverged .. => "ReplayDiverged"
  | markerCollision _ => "MarkerCollision"
  | load _ => "Load"
  | config _ => "Config"
  | context _ => "Context"
  | engine _ => "Engine"
  | overlappingTag => "OverlappingTag"

def message : QueryError → String
  | templateSyntax text _ => "template syntax error: " ++ text
  | templateNotFound name => "template not found: " ++ name
  | undefinedValue name => "undefined value `" ++ name ++ "` used in query"
  | unknownFilter name => "unknown filter: " ++ name
  | filterExecution filter source => "filter `" ++ filter ++ "` failed: " ++ source.message
  | duplicateFilter name => "filter `" ++ name ++ "` is already registered"
  | reservedName name => "`" ++ name ++ "` is reserved for internal use"
  | unsupportedStyle name => "unsupported parameter style `" ++ name ++ "`"
  | requiresSuspending name =>
    "`" ++ name ++ "` suspends and can only be evaluated by an async render"
  | deferredValue name source => "deferred value `" ++ name ++ "` failed: " ++ source.message
  | replayDiverged ordinal expected found =>
    "render replay diverged at async call #" ++ toString ordinal ++ ": expected `" ++ expected ++
      "`, found `" ++ found ++ "`"
  | markerCollision text => "marker collision: " ++ text
  | load e => e.message
  | config text => "configuration error: " ++ text
  | context text => "context error: " ++ text
  | engine e => "template error: " ++ e.message
  | overlappingTag => "overlapping tag delimiters"

/-- How an engine error is reported. Only the error itself and the file error right behind it are
looked at, not the errors it wraps. -/
def ofEngine (e : EngineError) : QueryError :=
  match e.load with
  | some loadError => load loadError
  | none =>
    match e.kind with
    | .syntaxError => templateSyntax e.message (if e.markup then none else e.line)
    | .badEscape => templateSyntax e.message (if e.markup then none else e.line)
    | .templateNotFound => templateNotFound (e.detail.getD e.message)
    | .undefinedError => undefinedValue (e.detail.getD "<expression>")
    | .unknownFilter => unknownFilter (e.detail.getD e.message)
    | _ => engine e

end QueryError

end QueryTemplate
