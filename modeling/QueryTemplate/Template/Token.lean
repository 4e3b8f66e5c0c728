import QueryTemplate.Error

/-!
The tokens of a template source. Text outside tags is one token; inside tags there are names,
literals and symbols.
-/

namespace QueryTemplate.Template

/-- A token. A float literal keeps its decimal digits: it is `digits * 10 ^ exponent`. -/
inductive Token where
  | data (text : String)
  | expressionStart
  | expressionEnd
  | blockStart
  | blockEnd
  | name (text : String)
  | string (text : String)
  | int (n : Nat)
  | float (digits : Nat) (exponent : Int)
  | symbol (text : String)
  deriving DecidableEq, Repr

namespace Token

/-- How messages call a token. -/
def describe : Token → String
  | data _ => "template-data"
  | expressionStart => "start of variable block"
  | expressionEnd => "end of variable block"
  | blockStart => "start of block"
  | blockEnd => "end of block"
  | name _ => "identifier"
  | string _ => "string"
  | int _ => "integer"
  | float .. => "float"
  | symbol text => "`" ++ text ++ "`"

end Token

/-- A token and the line it begins on. -/
structure Lexeme where
  token : Token
  line : Nat
  deriving DecidableEq, Repr

/-- An error of the template grammar. An error without a line is reported at the token in front of
it. -/
structure SyntaxFault where
  text : String
  line : Option Nat := none
  isEscape : Bool := false
  deriving DecidableEq, Repr

/-- The tokens of a source up to its end or up to the first fault. -/
structure Lexed where
  lexemes : List Lexeme := []
  fault : Option SyntaxFault := none
  deriving DecidableEq, Repr

/-- How white space around tags is treated. -/
structure Whitespace where
  trimBlocks : Bool := false
  lstripBlocks : Bool := false
  keepTrailingNewline : Bool := false
  deriving DecidableEq, Repr

end QueryTemplate.Template
