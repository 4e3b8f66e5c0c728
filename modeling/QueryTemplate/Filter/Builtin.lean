import QueryTemplate.Filter.Registry
import QueryTemplate.Marker
import QueryTemplate.Text.Scan
import QueryTemplate.Value.Order

/-!
The filters every engine begins with. `identifier` is the one that turns a caller's text into query
text, and what it writes is always a single quoted or plain name.
-/

namespace QueryTemplate

/-- A name that needs no quotes. -/
def isBareIdentifier (segment : List Char) : Bool :=
  match segment with
  | [] => false
  | c :: rest => Text.isNameStart c && rest.all fun c => Text.isNamePart c || c == '$'

/-- Doubles every quote character. -/
def doubleQuotes (quote : Char) (segment : List Char) : List Char :=
  segment.flatMap fun c => if c = quote then [quote, c] else [c]

/-- Quotes one segment of an identifier. Without a quote character the segment must not need
quotes. -/
def quoteIdentifier (segment : String) (quote : Option Char) : Except FilterError String :=
  if segment.isEmpty then .error .emptyIdentifier
  else if hasReserved segment then .error .reservedCharacter
  else
    match quote with
    | none =>
      if isBareIdentifier segment.toList then .ok segment else .error (.bareIdentifier segment)
    | some quote => .ok (String.ofList (quote :: doubleQuotes quote segment.toList ++ [quote]))

namespace Builtin

def unsupported (expected : String) (found : Value) : FilterError :=
  .unsupportedInput expected found.kind.name

/-- The strings of a list, unless an element is not a string. -/
def strings : List Value → Except FilterError (List String)
  | [] => .ok []
  | v :: rest =>
    match v.asString? with
    | none => .error (unsupported "a sequence of strings" v)
    | some text =>
      match strings rest with
      | .ok texts => .ok (text :: texts)
      | .error e => .error e

def quoteAll (quote : Option Char) : List String → Except FilterError (List String)
  | [] => .ok []
  | segment :: rest =>
    match quoteIdentifier segment quote with
    | .error e => .error e
    | .ok quoted =>
      match quoteAll quote rest with
      | .ok texts => .ok (quoted :: texts)
      | .error e => .error e

/-- The segments of an identifier: a string is one, a sequence gives several. -/
def identifierSegments (value : Value) : Except FilterError (List String) :=
  match value.asString? with
  | some text => .ok [text]
  | none =>
    if value.kind = .sequence then strings (value.elements?.getD [])
    else .error (unsupported "a string or a sequence of strings" value)

/-- Quotes a name for use in the query text. -/
def identifier (scope : FilterScope) (input : Classified) (_args : List Value) :
    Except FilterError Classified :=
  match input with
  | .raw text => .ok (.raw text)
  | .parameter value _ =>
    match identifierSegments value with
    | .error e => .error e
    | .ok [] => .error .emptyIdentifier
    | .ok segments =>
      match quoteAll scope.identifierQuote segments with
      | .ok quoted => .ok (.raw (String.intercalate "." quoted))
      | .error e => .error e

/-- Binds every element as a parameter of its own. -/
def inclause (_scope : FilterScope) (input : Classified) (_args : List Value) :
    Except FilterError Classified :=
  match input with
  | .raw text => .error (unsupported "a sequence" (.str text))
  | .parameter value _ =>
    match value.elements? with
    | some items => .ok (.parameter (.params items) none)
    | none => .error (unsupported "a sequence" value)

/-- Gives the parameter the name of the first argument. -/
def bind (_scope : FilterScope) (input : Classified) (args : List Value) :
    Except FilterError Classified :=
  match args.head?.bind Value.asString? with
  | some name => .ok (input.withHint name)
  | none => .error (.missingArgument "name")

/-- Text for the query, unless a reserved character is in it. -/
def inlineText (text : String) : Except FilterError Classified :=
  if hasReserved text then .error .reservedCharacter else .ok (.raw text)

/-- Writes the text of a string, number or boolean, and `NULL` for none. -/
def sqlsafe (_scope : FilterScope) (input : Classified) (_args : List Value) :
    Except FilterError Classified :=
  match input with
  | .raw text => .ok (.raw text)
  | .parameter value _ =>
    match value.kind with
    | .string => inlineText value.text
    | .number => inlineText value.text
    | .bool => inlineText value.text
    | .none => inlineText "NULL"
    | _ => .error (unsupported "a string, number or boolean" value)

/-- Writes the text of any value. -/
def safe (_scope : FilterScope) (input : Classified) (_args : List Value) :
    Except FilterError Classified :=
  match input with
  | .raw text => .ok (.raw text)
  | .parameter value _ => inlineText value.text

/-- The filter of a name; the other names are not built in. -/
def run? (name : String) :
    Option (FilterScope → Classified → List Value → Except FilterError Classified) :=
  match name with
  | "identifier" => some identifier
  | "inclause" => some inclause
  | "bind" => some bind
  | "sqlsafe" => some sqlsafe
  | "safe" => some safe
  | _ => none

end Builtin

namespace FilterRegistry

variable {ω : Type}

/-- The registry of a new engine. -/
def withBuiltins : FilterRegistry ω where
  filters := [
    ("bind", .ofFunction Builtin.bind),
    ("identifier", .ofFunction Builtin.identifier),
    ("inclause", .ofFunction Builtin.inclause),
    ("safe", .ofFunction Builtin.safe),
    ("sqlsafe", .ofFunction Builtin.sqlsafe)]

end FilterRegistry

end QueryTemplate
