import QueryTemplate.Template.Call

/-!
Evaluation of expressions. Operands are evaluated from left to right, each once, and an operation
that fails is reported on the line its last operand ends on.
-/

namespace QueryTemplate.Template

/-- The macro that is made of a block for the call that gets it, and the line behind its body. -/
structure Caller where
  line : Nat
  declare : Eval Value

/-- What a block tag adds to the expression in it: the text of the block for the filters that are
applied to it, and the macro made of the block. -/
structure BlockInput where
  text : Value := .undefined
  caller : Option Caller := none

/-- A named argument as it is given: one with its name, or a map of several. -/
inductive NamedPart where
  | entry (name : String) (v : Value)
  | entries (v : Value)

namespace Eval

/-- An operator applied to two values. -/
def operate (env : Environment) (op : Operator) (a b : Value) : Eval Value := do
  let compared (p : Value → Value → Bool) : Eval Value := do
    demand env a
    demand env b
    return .bool (p (← snapshot env a) (← snapshot env b))
  match op with
  | .equal => compared Value.equal
  | .notEqual => compared fun a b => !Value.equal a b
  | .less => compared fun a b => Value.order a b == .lt
  | .lessEqual => compared fun a b => Value.order a b != .gt
  | .greater => compared fun a b => Value.order a b == .gt
  | .greaterEqual => compared fun a b => Value.order a b != .lt
  | .inside => do
    demand env a
    demand env b
    return .bool (← contains env b a)
  | .add => ofExcept (Value.add a b)
  | .sub => ofExcept (Value.sub a b)
  | .mul => ofExcept (Value.mul a b)
  | .div => ofExcept (Value.div a b)
  | .floorDiv => ofExcept (Value.floorDiv a b)
  | .rem => ofExcept (Value.rem a b)
  | .pow => ofExcept (Value.pow a b)
  | .concat => do
    demand env a
    demand env b
    return .str ((← textOf env a) ++ (← textOf env b))

/-- A step of a chain of comparisons. -/
def compareStep (env : Environment) (step : Comparison) (a b : Value) : Eval Bool := do
  let holds ← isTrue env (← operate env step.op a b)
  return holds != step.negated

def sliceOf (env : Environment) (v start stop step : Value) : Eval Value := do
  demand env v
  ofExcept (Value.slice v start stop step)

/-- The positional arguments, of which some are passed as the elements of a value. -/
def spreadAll (env : Environment) : List (Bool × Value) → Eval (List Value)
  | [] => return []
  | (false, v) :: rest => return v :: (← spreadAll env rest)
  | (true, v) :: rest => do
    match ← items? env v with
    | some items => return items ++ (← spreadAll env rest)
    | none => fail (.invalid (v.kind.name ++ " is not iterable"))

/-- The named arguments, sorted by name. One that is given again replaces the one before. -/
def mergeNamed (env : Environment) : List (Value × Value) → List NamedPart →
    Eval (List (Value × Value))
  | sorted, [] => return sorted
  | sorted, .entry name v :: rest => mergeNamed env (Value.insertKey (.str name) v sorted) rest
  | sorted, .entries v :: rest => do
    match ← pairs? env v with
    | some pairs =>
      mergeNamed env (pairs.foldl (fun sorted (k, v) => Value.insertKey k v sorted) sorted) rest
    | none => fail (.invalid "attempted to apply keyword arguments from non map")

/-- Puts the arguments of a call together: first those with names, then the positional ones. -/
def gather (env : Environment) (positional : List (Bool × Value))
    (named : Option (List NamedPart)) : Eval CallArgs := do
  let named ← match named with
    | some parts => pure (some (← mergeNamed env [] parts))
    | none => pure none
  return { positional := ← spreadAll env positional, named }

/-- Whether the subject of a test and its only argument are found at one place. -/
def isOnePlace (env : Environment) (subject : Expr) (args : List Arg) : Eval Bool := do
  match args with
  | [(.positional, e)] =>
    match ← placeOf? env subject, ← placeOf? env e with
    | some p, some q => return p.isSame q
    | _, _ => return false
  | _ => return false

def prepend (part : NamedPart) (parts : Option (List NamedPart)) : Option (List NamedPart) :=
  some (part :: parts.getD [])

variable (env : Environment) (deeper : Deeper)

mutual

/-- The value of an expression that is met on a line. -/
def eval (block : BlockInput) (line : Nat) : Expr → Eval Value
  | .var _ name => do return .ofOption (← load name)
  | .const _ v => return v
  | .list l items => do return .list (← evalList l items)
  | .map l entries => do return Value.mapOf (← evalEntries l entries)
  | .not l e => do
    let v ← eval {} l e
    let b ← at_ (e.lastLine l) (truth env v)
    return .bool (!b)
  | .neg l e => do
    let v ← eval {} l e
    at_ l (ofExcept v.neg)
  | .binary op a b => do
    let middle := a.lastLine line
    let x ← eval {} line a
    let y ← eval {} middle b
    at_ (b.lastLine middle) (operate env op x y)
  | .chain a steps => do
    let v ← eval {} line a
    return .bool (← evalChain (a.lastLine line) v steps)
  | .and a b => do
    let middle := a.lastLine line
    let x ← eval {} line a
    if ← at_ middle (truth env x) then eval {} middle b else return x
  | .or a b => do
    let middle := a.lastLine line
    let x ← eval {} line a
    if ← at_ middle (truth env x) then return x else eval {} middle b
  | .conditional l test yes no => do
    let middle := test.lastLine l
    let v ← eval {} l test
    if ← at_ middle (truth env v) then eval {} middle yes
    else
      match no with
      | some e => eval {} (yes.lastLine middle) e
      | none => return .absent
  | .attr e name => do
    let v ← eval {} line e
    at_ (e.lastLine line) (attributeOf v name)
  | .index e key => do
    let middle := e.lastLine line
    let v ← eval {} line e
    let k ← eval {} middle key
    at_ (key.lastLine middle) (elementOf v k)
  | .slice e start stop step => do
    let v ← eval {} line e
    let l := e.lastLine line
    let a ← match start with
      | some e => eval {} l e
      | none => pure .none
    let b ← match stop with
      | some e => eval {} l e
      | none => pure .none
    let c ← match step with
      | some e => eval {} l e
      | none => pure (.int 1)
    at_ ((Expr.slice e start stop step).lastLine line) (sliceOf env v a b c)
  | .filter l subject name args => do
    let v ← match subject with
      | some e => eval block l e
      | none => pure block.text
    let middle := match subject with
      | some e => e.lastLine l
      | none => l
    let positional ← evalPositional middle args
    let named ← evalNamed middle args
    at_ (lastLineOfArgs middle args) do
      let given ← gather env positional named
      applyFilter env name v given.named given.positional
  | .test subject name args => do
    let v ← eval {} line subject
    let middle := subject.lastLine line
    let positional ← evalPositional middle args
    let named ← evalNamed middle args
    at_ (lastLineOfArgs middle args) do
      let given ← gather env positional named
      let passed ← applyTest env name v given
      if passed || name != "sameas" then return .bool passed
      let isEqual := given.positional.all (Value.equal v)
      return .bool (isEqual && (← isOnePlace env subject args))
  | .call l callee args => do
    match callee with
    | .attr (.var _ "self") name => at_ l (callAny env deeper (.block name) {})
    | callee => do
      let middle := match callee with
        | .var _ _ => l
        | .attr e _ => e.lastLine l
        | e => e.lastLine l
      let target ← match callee with
        | .var _ name => pure (Callee.named name)
        | .attr e name => pure (Callee.method (← eval {} l e) name)
        | e => pure (Callee.value (← eval {} l e))
      let positional ← evalPositional middle args
      let named ← evalNamed middle args
      match block.caller with
      | none =>
        at_ (lastLineOfArgs middle args) do
          callAny env deeper target (← gather env positional named)
      | some caller => do
        let v ← caller.declare
        at_ caller.line do
          let named := named.getD [] ++ [.entry "caller" v]
          callAny env deeper target (← gather env positional (some named))

/-- The steps of a chain of comparisons with the value in front of them, as far as they hold. -/
def evalChain (line : Nat) (v : Value) : List (Comparison × Expr) → Eval Bool
  | [] => return true
  | (step, e) :: rest => do
    let w ← eval {} line e
    if ← at_ (e.lastLine line) (compareStep env step v w) then
      evalChain (e.lastLine line) w rest
    else return false

def evalList (line : Nat) : List Expr → Eval (List Value)
  | [] => return []
  | e :: rest => do
    let v ← eval {} line e
    return v :: (← evalList (e.lastLine line) rest)

def evalEntries (line : Nat) : List (Expr × Expr) → Eval (List (Value × Value))
  | [] => return []
  | (k, e) :: rest => do
    let middle := k.lastLine line
    let key ← eval {} line k
    let v ← eval {} middle e
    return (key, v) :: (← evalEntries (e.lastLine middle) rest)

/-- The positional arguments of a call, and whether each is passed as its elements. -/
def evalPositional (line : Nat) : List (ArgKind × Expr) → Eval (List (Bool × Value))
  | [] => return []
  | (kind, e) :: rest => do
    match kind with
    | .positional => do
      let v ← eval {} line e
      return (false, v) :: (← evalPositional (e.lastLine line) rest)
    | .spread => do
      let v ← eval {} line e
      return (true, v) :: (← evalPositional (e.lastLine line) rest)
    | _ => evalPositional line rest

/-- The named arguments of a call, if it has some. -/
def evalNamed (line : Nat) : List (ArgKind × Expr) → Eval (Option (List NamedPart))
  | [] => return none
  | (kind, e) :: rest => do
    match kind with
    | .named name => do
      let v ← eval {} line e
      return prepend (.entry name v) (← evalNamed (e.lastLine line) rest)
    | .spreadNamed => do
      let v ← eval {} line e
      return prepend (.entries v) (← evalNamed (e.lastLine line) rest)
    | _ => evalNamed (e.lastLine line) rest

end

end Eval

end QueryTemplate.Template
