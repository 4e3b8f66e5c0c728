import QueryTemplate.Template.Access

/-!
Reading the arguments of the filters and tests that belong to the template language. An argument
that may be missing is also missing if it is undefined or none. Where undefined values are refused,
an undefined value is no text.
-/

namespace QueryTemplate.Template

/-- A filter of the template language. -/
abbrev StockFilter := Environment → Value → CallArgs → Eval Value

namespace CallArgs

/-- The arguments, of which there may be at most `n`. -/
def upTo (args : CallArgs) (n : Nat) : Eval (List Value) :=
  let given := args.toList
  if given.length > n then Eval.fail { kind := .tooManyArguments } else return given

/-- Refuses named arguments other than these. -/
def onlyNamed (args : CallArgs) (names : List String) : Eval Unit :=
  let isKnown (key : Value) : Bool := key.stringText?.any names.contains
  if (args.named.getD []).all fun (k, _) => isKnown k then pure ()
  else Eval.fail { kind := .tooManyArguments }

/-- The positional arguments, of which there may be at most `n`. -/
def positionalUpTo (args : CallArgs) (n : Nat) : Eval (List Value) :=
  if args.positional.length > n then Eval.fail { kind := .tooManyArguments }
  else return args.positional

/-- Arguments for parameters that can be passed by position or by name: those by position first, and
for the other parameters those with their names. -/
def byPositionOrName (args : CallArgs) (names : List String) : Eval (List (Option Value)) := do
  let given ← args.positionalUpTo names.length
  let open_ := names.drop given.length
  args.onlyNamed open_
  return given.map some ++ open_.map args.named?

end CallArgs

namespace Argument

def required (given : Option Value) : Eval Value :=
  match given with
  | some v => return v
  | none => Eval.fail { kind := .missingArgument }

/-- Reads an argument that may be missing. -/
def optional {α : Type} (read : Value → Eval α) (given : Option Value) : Eval (Option α) := do
  match given with
  | none => return none
  | some v => if v.isUndefined || v.kind = .none then return none else return some (← read v)

def text (env : Environment) (v : Value) : Eval String := do
  Eval.demand env v
  Eval.textOf env v

/-- A text that is argument number `i`. The named arguments together are no text. -/
def textAt (env : Environment) (args : CallArgs) (i : Nat) : Eval String := do
  match args.positional[i]?, args.toList[i]? with
  | some v, _ => text env v
  | none, some _ => Eval.fail (.invalid "cannot convert named arguments to a string")
  | none, none => Eval.fail { kind := .missingArgument }

/-- A text that is argument number `i`, if there is one. -/
def textAt? (env : Environment) (args : CallArgs) (i : Nat) : Eval (Option String) := do
  match args.toList[i]? with
  | none => return none
  | some v => if v.isUndefined || v.kind = .none then return none else textAt env args i

def mismatch {α : Type} (v : Value) (wanted : String) : Eval α :=
  Eval.fail (.invalid ("cannot convert " ++ v.kind.name ++ " to " ++ wanted))

/-- A value that has to be a string, or bytes that are the text of one. -/
def string (v : Value) : Eval String :=
  match v.asString? with
  | some text => return text
  | none => mismatch v "string"

def flag (v : Value) : Eval Bool :=
  match v with
  | .bool b => return b
  | v => mismatch v "bool"

def integer (v : Value) : Eval Int :=
  match v.toIndex? with
  | some n => return n
  | none => mismatch v "i64"

def count (v : Value) : Eval Nat :=
  match v.toCount? with
  | some n => return n
  | none => mismatch v "usize"

/-- A flag that is off unless it is given. -/
def isOn (given : Option Value) : Eval Bool := do
  return (← optional flag given).getD false

end Argument

end QueryTemplate.Template
