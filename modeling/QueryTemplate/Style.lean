import QueryTemplate.Error

/-!
Placeholder conventions of database drivers. A style says what a placeholder looks like and whether
the parameters travel in a mapping or in a sequence.
-/

namespace QueryTemplate

/-- How parameters are handed to the driver. -/
inductive ContainerKind where
  | mapping
  | sequence
  deriving DecidableEq, Repr

/-- A parameter style. A custom one gives its container and its placeholder, made from the
parameter's key and its position, which counts from one. -/
inductive ParamStyle where
  | named
  | qmark
  | numeric
  | format
  | pyformat
  | asyncpg
  | custom (container : ContainerKind) (placeholder : String → Nat → String)

namespace ParamStyle

def name : ParamStyle → String
  | named => "named"
  | qmark => "qmark"
  | numeric => "numeric"
  | format => "format"
  | pyformat => "pyformat"
  | asyncpg => "asyncpg"
  | custom .. => "custom"

/-- The style of a name; custom styles have none. -/
def parse (name : String) : Except QueryError ParamStyle :=
  match name with
  | "named" => .ok named
  | "qmark" => .ok qmark
  | "numeric" => .ok numeric
  | "format" => .ok format
  | "pyformat" => .ok pyformat
  | "asyncpg" => .ok asyncpg
  | _ => .error (.unsupportedStyle name)

def container : ParamStyle → ContainerKind
  | named => .mapping
  | pyformat => .mapping
  | custom kind _ => kind
  | _ => .sequence

/-- The placeholder of the parameter with this key at this position. -/
def placeholder (style : ParamStyle) (key : String) (position : Nat) : String :=
  match style with
  | named => ":" ++ key
  | qmark => "?"
  | numeric => ":" ++ toString position
  | format => "%s"
  | pyformat => "%(" ++ key ++ ")s"
  | asyncpg => "$" ++ toString position
  | custom _ placeholder => placeholder key position

end ParamStyle

end QueryTemplate
