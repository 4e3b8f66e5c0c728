import QueryTemplate.Template.Stock.ListFilters
import QueryTemplate.Template.Stock.NumberFilters
import QueryTemplate.Template.Stock.Predicates

/-!
Filters and tests by name. The emit filter comes first, then the names filters were ever registered
under, then the filters of the template language, so a registered filter replaces one of the
language for good.
-/

namespace QueryTemplate.Template

/-- A filter of the template language that needs no other filter or test. -/
def stockFilter? (name : String) : Option StockFilter :=
  ((TextFilter.find? name).or (NumberFilter.find? name)).or (ListFilter.find? name)

/-- The filters of the template language that apply other filters or tests. -/
def combinators : List String :=
  ["map", "select", "reject", "selectattr", "rejectattr"]

def Environment.hasFilter (env : Environment) (name : String) : Bool :=
  name == emitName || env.registered.contains name || combinators.contains name ||
    (stockFilter? name).isSome

def Environment.hasTest (name : String) : Bool :=
  name == "filter" || name == "test" || (Predicate.find? name).isSome

namespace Eval

def outsideRender : EngineError :=
  .invalid "query filters can only run inside a query render"

def failOutside {α : Type} (how : Outside) : Eval α := fun _ =>
  .done (.error (.outside how outsideRender))

/-- Writes a value into the query: the filter that every expression tag ends in. -/
def emitFilter (env : Environment) (v : Value) (args : CallArgs) : Eval Value := do
  let given ← args.upTo 2
  let scope ← Argument.required given[0]?
  let hint ← Argument.optional (Argument.text env) given[1]?
  match scope with
  | .object .root => emit (← snapshot env v) hint
  | _ => failOutside .notGiven

/-- Calls a registered filter, for which the render must be in sight. -/
def callRegistered (env : Environment) (name : String) (v : Value) (args : CallArgs) :
    Eval Value := do
  match ← load scopeName with
  | some (.object .root) => call name (← snapshot env v) (← args.toList.mapM (snapshot env))
  | _ => failOutside .unseen

/-- The test of a name, if it exists. -/
def predicate? (env : Environment) (name : String) : Option Predicate :=
  match name with
  | "filter" => some fun _ v args => do
    let filter ← Argument.string v
    let _ ← args.upTo 0
    return env.hasFilter filter
  | "test" => some fun _ v args => do
    let test ← Argument.string v
    let _ ← args.upTo 0
    return Environment.hasTest test
  | name => Predicate.find? name

/-- Applies a test by name. -/
def applyTest (env : Environment) (name : String) (v : Value) (args : CallArgs) : Eval Bool :=
  match predicate? env name with
  | some test => test env v args
  | none => fail (.of .unknownTest ("test " ++ name ++ " is unknown"))

/-- Keeps the elements that pass a test, or those that do not. -/
def select (env : Environment) (keep : Bool) (v : Value) (path : Option String)
    (test : Option Value) (args : List Value) : Eval Value := do
  let name ← Argument.optional (Argument.text env) test
  match name with
  | some name => if (predicate? env name).isNone then fail { kind := .unknownTest }
  | none => pure ()
  let kept ← (← iterate env v).filterM fun item => do
    let part ← match path with
      | some path => follow item (pathKeys path)
      | none => pure item
    let passed ← match name with
      | some name => applyTest env name part { positional := args }
      | none => isTrue env part
    return passed == keep
  return .list kept

def selectOn (env : Environment) (keep : Bool) (v : Value) (args : CallArgs) : Eval Value := do
  match args.toList with
  | [] => select env keep v none none []
  | test :: rest => select env keep v none (some test) rest

def selectAt (env : Environment) (keep : Bool) (v : Value) (args : CallArgs) : Eval Value := do
  let given := args.toList
  let path ← Argument.textAt env args 0
  select env keep v (some path) given[1]? (given.drop 2)

/-- Takes what is at a path of every element, with a fallback for those that have nothing there. -/
def mapPath (env : Environment) (v path : Value) (fallback : Value) : Eval Value := do
  let keys := match path.asString? with
    | some path => pathKeys path
    | none => [path]
  return .list (← (← iterate env v).mapM fun item => do
    match ← follow? item keys with
    | some part => return if part.isUndefined then fallback else part
    | none => if fallback.isUndefined then fail .undefined else return fallback)

/-- The name of the filter that `map` applies. -/
def mappedName (env : Environment) (name : Value) : Eval String :=
  match name.asString? with
  | none => fail (.invalid "filter name must be a string")
  | some name => if env.hasFilter name then return name else fail { kind := .unknownFilter }

/-- Applies a filter by name. What `map` applies gets the arguments behind the name. -/
def applyFilter (env : Environment) (name : String) (v : Value)
    (named : Option (List (Value × Value))) (positional : List Value) : Eval Value :=
  let args : CallArgs := { positional, named }
  if name = emitName then emitFilter env v args
  else if env.registered.contains name then callRegistered env name v args
  else
    match stockFilter? name with
    | some filter => filter env v args
    | none =>
      match name with
      | "select" => selectOn env true v args
      | "reject" => selectOn env false v args
      | "selectattr" => selectAt env true v args
      | "rejectattr" => selectAt env false v args
      | "map" =>
        let path? := (args.named? "attribute").filter fun v => !v.isUndefined && v.kind != .none
        match path?, positional with
        | some path, [] => do
          args.onlyNamed ["attribute", "default"]
          mapPath env v path ((args.named? "default").getD .undefined)
        | some _, _ :: _ => fail { kind := .tooManyArguments }
        | none, [] => fail (.invalid "filter name is required")
        | none, inner :: rest => do
          let inner ← mappedName env inner
          return .list (← (← iterate env v).mapM fun item =>
            mapStop Stop.inMap (applyFilter env inner item none rest))
      | _ => fail (.of .unknownFilter ("filter " ++ name ++ " is unknown"))

end Eval

end QueryTemplate.Template
