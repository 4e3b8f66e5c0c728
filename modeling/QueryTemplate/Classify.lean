import QueryTemplate.Value.Basic

/-!
Every value that reaches a filter or the output is either raw query text or a parameter. The tag
travels through the template engine in the shape of the value: safe strings are raw, values with a
name hint are wrapped, everything else is a parameter without a hint.
-/

namespace QueryTemplate

/-- A tagged value. -/
inductive Classified where
  /-- Text to be written into the query as it is. -/
  | raw (text : String)
  /-- A value to be bound, and the name its parameter should have. -/
  | parameter (value : Value) (hint : Option String)
  deriving Inhabited

/-- The tag of an engine value. -/
def classify : Value → Classified
  | .bound value hint => .parameter value (some hint)
  | .safe text => .raw text
  | value => .parameter value none

namespace Classified

def isRaw : Classified → Bool
  | raw _ => true
  | parameter .. => false

/-- Sets the name hint of a parameter; raw text keeps its tag. -/
def withHint (hint : String) : Classified → Classified
  | raw text => raw text
  | parameter value _ => parameter value (some hint)

/-- The engine value that carries the same tag. -/
def toValue : Classified → Value
  | raw text => .safe text
  | parameter value none => value
  | parameter value (some hint) => .bound value hint

end Classified

end QueryTemplate
