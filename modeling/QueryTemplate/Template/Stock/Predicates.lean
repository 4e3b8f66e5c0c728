import QueryTemplate.Template.Stock.Arguments
import QueryTemplate.Text.Case

/-!
The tests of the template language, as in `v is defined`.
-/

namespace QueryTemplate.Template

/-- A test of the template language. -/
abbrev Predicate := Environment → Value → CallArgs → Eval Bool

namespace Predicate

/-- A test of the value alone. -/
def onValue (p : Value → Bool) : Predicate := fun _ v args => do
  let _ ← args.upTo 0
  return p v

/-- A test of the value against one argument. -/
def onPair (p : Value → Value → Bool) : Predicate := fun _ v args => do
  let other ← Argument.required args.toList[0]?
  let _ ← args.upTo 1
  return p v other

/-- A test of a string. -/
def onString (p : List Char → Bool) : Predicate := fun _ v args => do
  let text ← Argument.string v
  let _ ← args.upTo 0
  return p text.toList

def onTexts (p : List Char → List Char → Bool) : Predicate := fun env v args => do
  let text ← Argument.text env v
  let other ← Argument.textAt env args 0
  let _ ← args.upTo 1
  return p text.toList other.toList

def isInteger : Value → Bool
  | .int _ => true
  | _ => false

def isFloat : Value → Bool
  | .float _ => true
  | _ => false

def isBool : Value → Bool
  | .bool _ => true
  | _ => false

def isOdd (v : Value) : Bool :=
  (v.toIntWithin? Value.minI128 Value.maxI128).any (· % 2 != 0)

def isEven (v : Value) : Bool :=
  (v.toIntWithin? Value.minI128 Value.maxI128).any (· % 2 == 0)

def isDivisible (v by_ : Value) : Bool :=
  match Value.coerce false v by_ with
  | some (.ints a b) => b != 0 && a % b == 0
  | some (.floats a b) => Number.floatRemainder a b == 0
  | none => false

def isIterable : Predicate := fun env v args => do
  let _ ← args.upTo 0
  if !v.isComplete then return true
  return (← Eval.items? env v).isSome

/-- Whether a value is a container, which differs from every other one that is equal to it. -/
def isContainer (v : Value) : Bool :=
  v.elements?.isSome || v.entries?.isSome || v.kind = .plain

/-- Whether two values are the same as far as the values tell. -/
def isSame (a b : Value) : Bool :=
  match a, b with
  | .object r, .object s => r == s
  | a, b =>
    !isContainer a && a.kind == b.kind && isInteger a == isInteger b && Value.equal a b

def isInside : Predicate := fun env v args => do
  let container ← Argument.required args.toList[0]?
  let _ ← args.upTo 1
  Eval.demand env container
  Eval.contains env container v

/-- The test of a name. The tests for filter and test names are `Eval.predicate?`'s. -/
def find? (name : String) : Option Predicate :=
  match name with
  | "defined" => some (onValue (!·.isUndefined))
  | "undefined" => some (onValue Value.isUndefined)
  | "none" => some (onValue fun v => v.kind = .none)
  | "boolean" => some (onValue isBool)
  | "odd" => some (onValue isOdd)
  | "even" => some (onValue isEven)
  | "divisibleby" => some (onPair isDivisible)
  | "number" => some (onValue fun v => v.kind = .number)
  | "integer" => some (onValue isInteger)
  | "int" => some (onValue isInteger)
  | "float" => some (onValue isFloat)
  | "string" => some (onValue fun v => v.kind = .string)
  | "sequence" => some (onValue fun v => v.kind = .sequence)
  | "iterable" => some isIterable
  | "mapping" => some (onValue fun v => v.kind = .map)
  | "startingwith" => some (onTexts fun text head => head.isPrefixOf text)
  | "endingwith" => some (onTexts fun text tail => tail.isSuffixOf text)
  | "safe" => some (onValue Value.isSafe)
  | "escaped" => some (onValue Value.isSafe)
  | "lower" => some (onString (·.all Text.isLower))
  | "upper" => some (onString (·.all Text.isUpper))
  | "sameas" => some (onPair isSame)
  | "in" => some isInside
  | "true" => some (onValue fun v => isBool v && v.isTrue)
  | "false" => some (onValue fun v => isBool v && !v.isTrue)
  | "eq" => some (onPair Value.equal)
  | "equalto" => some (onPair Value.equal)
  | "==" => some (onPair Value.equal)
  | "ne" => some (onPair fun a b => !Value.equal a b)
  | "!=" => some (onPair fun a b => !Value.equal a b)
  | "lt" => some (onPair fun a b => Value.order a b == .lt)
  | "lessthan" => some (onPair fun a b => Value.order a b == .lt)
  | "<" => some (onPair fun a b => Value.order a b == .lt)
  | "le" => some (onPair fun a b => Value.order a b != .gt)
  | "<=" => some (onPair fun a b => Value.order a b != .gt)
  | "gt" => some (onPair fun a b => Value.order a b == .gt)
  | "greaterthan" => some (onPair fun a b => Value.order a b == .gt)
  | ">" => some (onPair fun a b => Value.order a b == .gt)
  | "ge" => some (onPair fun a b => Value.order a b != .lt)
  | ">=" => some (onPair fun a b => Value.order a b != .lt)
  | _ => none

end Predicate

end QueryTemplate.Template
