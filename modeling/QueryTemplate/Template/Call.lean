import QueryTemplate.Template.Apply

/-!
Calling macros, functions, methods and blocks. What a call needs to have evaluated (the body of a
macro, a block or a further template) is a task, and the caller of this module says how a task is
done. So the recursion of templates has one place.
-/

namespace QueryTemplate.Template

/-- A body to be evaluated that is not part of the body at hand. -/
inductive Task where
  /-- A template or the block of one, followed by the template it extends. -/
  | unit (template : String) (body : List Stmt)
  /-- A loop, run with other items. -/
  | again (loop : LoopBody) (items : Value)
  /-- A macro. -/
  | invoke (routine : Nat) (args : CallArgs)

/-- How tasks are done. -/
abbrev Deeper := Task → Eval Value

/-- The most elements a range may have. -/
def maxRange : Nat := 100000

/-- The numbers from `first` on, `step` apart. -/
def progression (first step : Int) (count : Nat) : List Value :=
  (List.range count).map fun (i : Nat) => .int (first + step * (i : Int))

/-- How many steps it takes from `first` until `limit` is reached. -/
def stepsTo (first limit step : Int) : Nat :=
  if step > 0 then ((limit - first + step - 1) / step).toNat
  else ((first - limit - step - 1) / -step).toNat

namespace Eval

def tooManyArguments {α : Type} (detail : String) : Eval α :=
  fail (.of .tooManyArguments detail)

/-- `range(limit)` and `range(first, limit, step)`. -/
def callRange (args : CallArgs) : Eval Value := do
  let given ← args.upTo 3
  let a ← Argument.integer (← Argument.required given[0]?)
  let b ← Argument.optional Argument.integer given[1]?
  let step := (← Argument.optional Argument.integer given[2]?).getD 1
  let (first, limit) := match b with
    | some b => (a, b)
    | none => (0, a)
  if step = 0 then fail (.invalid "cannot create range with step of 0")
  let count := stepsTo first limit step
  if count > maxRange then fail (.invalid "range has too many elements")
  return .iter (progression first step count)

/-- The entries of a map that `dict` or `namespace` is given. -/
def givenEntries (env : Environment) (given : Option Value) : Eval (List (Value × Value)) := do
  match ← Argument.optional pure given with
  | none => return []
  | some v =>
    match ← pairs? env v with
    | some pairs => return pairs
    | none => fail (.invalid ("expected object or keyword arguments, got " ++ v.kind.name))

def callDict (env : Environment) (args : CallArgs) : Eval Value := do
  let given ← args.positionalUpTo 1
  let base ← givenEntries env given[0]?
  return Value.mapOf (base ++ args.named.getD [])

/-- A new record with the entries of a map that have names. -/
def callNamespace (env : Environment) (args : CallArgs) : Eval Value := do
  let given ← args.upTo 1
  let base ← givenEntries env given[0]?
  let named := base.filterMap fun (k, v) => k.asString?.map fun name => (Value.str name, v)
  let entries := sortEntries named
  let s ← get
  set { s with records := s.records ++ [entries] }
  return .object (.record s.records.length)

/-- A text to look at while writing a template. -/
def callDebug (env : Environment) (args : CallArgs) : Eval Value := do
  match ← args.toList.mapM (snapshot env) with
  | [v] => return .str (v.prettyText 0)
  | vs => return .str ((Value.list vs).prettyText 0)

def callGlobal (env : Environment) (f : GlobalFunction) (args : CallArgs) : Eval Value := do
  match f with
  | .range => callRange args
  | .dict => callDict env args
  | .namespaceOf => callNamespace env args
  | .debug => callDebug env args

def callValue (env : Environment) (deeper : Deeper) (f : Value) (args : CallArgs) : Eval Value :=
  match f with
  | .object (.routine id _) => deeper (.invoke id args)
  | .object (.function f) => callGlobal env f args
  | .object (.loop _) => fail (.of .unknownFunction "loop cannot be called under another name")
  | f => fail (.invalid ("value of type " ++ f.kind.name ++ " is not callable"))

/-- Whether the loop has not been asked about these values the time before. -/
def callChanged (id : Nat) (l : LoopState) (args : List Value) : Eval Value := do
  let isSame := match l.changed with
    | some before => Value.equal (.list before) (.list args)
    | none => false
  modify fun s =>
    { s with loops := s.loops.modify id fun l => { l with changed := some args } }
  return .bool (!isSame)

def unknownMethod (v : Value) (name : String) : EngineError :=
  .of .unknownMethod (v.kind.name ++ " has no method named " ++ name)

/-- Calls what a value has under a name, as in `v.name()`. -/
def callMethod (env : Environment) (deeper : Deeper) (v : Value) (name : String)
    (args : CallArgs) : Eval Value := do
  let ordinary : Eval Value := do
    match ← attribute? v name with
    | some f => callValue env deeper f args
    | none => fail (unknownMethod v name)
  match v with
  | .object (.loop id) =>
    match name, ← loopState? id with
    | "changed", some l => callChanged id l args.toList
    | "cycle", some l => return .ofOption (args.toList[l.index % args.toList.length]?)
    | _, _ => ordinary
  | _ => ordinary

/-- Runs the body of a block in a frame of its own. -/
def runLayer (deeper : Deeper) (name : String) (layer : String × Block) : Eval Unit := do
  let (template, block) := layer
  if block.required then
    modify fun s => { s with template }
    at_ block.line (fail (.invalid ("required block '" ++ name ++ "' is not defined")))
  pushFrame {}
  let _ ← deeper (.unit template block.body)
  popFrame

/-- Runs the version of a block that is in use. -/
def runBlock (deeper : Deeper) (name : String) : Eval Unit := do
  let s ← get
  match s.blocks.lookup name with
  | none => fail (.of .unknownBlock ("block '" ++ name ++ "' not found"))
  | some stack =>
    match stack.layers[stack.depth]? with
    | none => return ()
    | some layer => do
      modify fun s => { s with currentBlock := some name }
      runLayer deeper name layer
      modify fun s' => { s' with currentBlock := s.currentBlock }

/-- Whether blocks are run here. A template that extends another only defines them, and so does one
whose output is dropped. -/
def runsBlocks : Eval Bool := do
  return (← get).parent.isNone && !(← isDiscarding)

def setDepth (name : String) (depth : Nat) (blocks : List (String × BlockStack)) :
    List (String × BlockStack) :=
  blocks.map fun (n, stack) => (n, if n = name then { stack with depth } else stack)

/-- `super()`: the version of the current block in the template that this one extends. -/
def callSuper (deeper : Deeper) : Eval Value := do
  let s ← get
  match s.currentBlock with
  | none => fail (.invalid "cannot super outside of block")
  | some name =>
    match s.blocks.lookup name with
    | none => fail (.invalid "no parent block exists")
    | some stack =>
      match stack.layers[stack.depth + 1]? with
      | none => fail (.invalid "no parent block exists")
      | some layer => do
        modify fun s => { s with blocks := setDepth name (stack.depth + 1) s.blocks }
        beginCapture
        mapStop (·.mapError fun _ => .of .evalBlock "error in super block")
          (runLayer deeper name layer)
        modify fun s => { s with blocks := setDepth name stack.depth s.blocks }
        endCapture

/-- `loop(items)`: the innermost loop, run with other items. -/
def callLoop (env : Environment) (deeper : Deeper) (l : LoopState) (args : CallArgs) :
    Eval Value := do
  match args.toList, l.again with
  | [_], none => fail (.invalid "cannot recurse outside of recursive loop")
  | [v], some body => do
    let _ ← mapStop (·.mapError fun _ => .invalid "cannot recurse into this value") (iterate env v)
    beginCapture
    let _ ← deeper (.again body v)
    endCapture
  | _, _ => fail (.invalid "loop() takes one argument")

/-- What is called. -/
inductive Callee where
  | named (name : String)
  /-- A block of the template. -/
  | block (name : String)
  | method (v : Value) (name : String)
  | value (v : Value)

/-- Calls a function by name. Inside a loop, `loop` is the loop. -/
def callNamed (env : Environment) (deeper : Deeper) (name : String) (args : CallArgs) :
    Eval Value := do
  let ordinary : Eval Value := do
    match ← load name with
    | some f => callValue env deeper f args
    | none => fail (.of .unknownFunction (name ++ " is unknown"))
  match name with
  | "super" =>
    if args.toList.isEmpty then callSuper deeper
    else fail (.invalid "super() takes no arguments")
  | "loop" =>
    match ← currentLoop? with
    | some l => callLoop env deeper l args
    | none => ordinary
  | _ => ordinary

/-- `self.name()`: the output of a block. -/
def callBlock (deeper : Deeper) (name : String) : Eval Value := do
  beginCapture
  if ← runsBlocks then runBlock deeper name
  endCapture

def callAny (env : Environment) (deeper : Deeper) (callee : Callee) (args : CallArgs) :
    Eval Value :=
  match callee with
  | .named name => callNamed env deeper name args
  | .block name => callBlock deeper name
  | .method v name => callMethod env deeper v name args
  | .value v => callValue env deeper v args

end Eval

end QueryTemplate.Template
