import QueryTemplate.Template.Ast
import QueryTemplate.Value.Order

/-!
Places: where a template finds a value. Containers have no identity of their own, so two of them are
taken for one object if they are found at one place.
-/

namespace QueryTemplate.Template

/-- Where a variable is kept. -/
inductive Home where
  /-- Among the variables of the render. -/
  | render
  /-- In the frame that has the given number of frames around it. -/
  | frame (level : Nat)
  /-- Among the values that macros take along. -/
  | closure (id : Nat)
  deriving DecidableEq, Repr

/-- A variable and the keys that lead from it to a value. -/
structure Place where
  home : Home
  name : String
  keys : List Value := []

namespace Place

/-- The place of an element. -/
def part (p : Place) (key : Value) : Place :=
  { p with keys := p.keys ++ [key] }

def isSame (p q : Place) : Bool :=
  p.home == q.home && p.name == q.name && Value.equal (.list p.keys) (.list q.keys)

end Place

/-- The place that an expression names, given the places of the variables. Only keys that are
written down lead to a place. -/
def Expr.place? (home : String → Option Place) : Expr → Option Place
  | .var _ name => home name
  | .attr e name => (e.place? home).map (·.part (.str name))
  | .index e (.const _ key) => (e.place? home).map (·.part key)
  | _ => none

end QueryTemplate.Template
