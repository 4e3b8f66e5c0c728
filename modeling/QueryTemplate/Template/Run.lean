import QueryTemplate.Template.Statement

/-!
Running templates. Bodies that are not part of the body at hand (macros, blocks, further templates,
recursive loops) are run one level deeper, and the number of levels is bounded. The bound is far
above what the limit on nested frames lets a template reach.
-/

namespace QueryTemplate.Template

namespace Eval

variable (env : Environment) (deeper : Deeper)

/-- Runs a template or the block of one, and then the template it extends. -/
def runUnit (template : String) (body : List Stmt) : Eval Unit := do
  let s ← get
  set { s with template, parent := none }
  execBody env deeper body
  match (← get).parent with
  | none => pure ()
  | some src => do
    let _ ← endCapture
    let _ ← deeper (.unit src.name src.body)
  modify fun s' => { s' with template := s.template, parent := s.parent }

/-- Runs a loop with other items. -/
def runAgain (loop : LoopBody) (v : Value) : Eval Unit := do
  let (id, all) ← at_ loop.line (enterLoop env true (some loop) v)
  let step (item : Value) : Eval Unit := do
    assign env deeper loop.line item loop.target
    execBody env deeper loop.body
  runItems id step 0 all
  popFrame

/-- How much deeper a macro counts. -/
def routineWeight : Nat := 4

/-- The values of the parameters, given the arguments that are left. An argument must not be given
twice. -/
def bindParams (named : List (Value × Value)) : List Param → List Value → Eval (List Value)
  | [], [] => return []
  | [], _ :: _ => fail { kind := .tooManyArguments }
  | p :: params, positional => do
    let v ← match positional.head?, Value.findKey (.str p.name) named with
      | some _, some _ => tooManyArguments ("duplicate argument " ++ p.name)
      | some v, none => pure v
      | none, some v => pure v
      | none, none => pure .undefined
    return v :: (← bindParams named params (positional.drop 1))

/-- Refuses named arguments that no parameter takes. -/
def checkNamed (r : Routine) (named : List (Value × Value)) : Eval Unit :=
  let known := (if r.usesCaller then ["caller"] else []) ++ r.params.map (·.name)
  if named.all fun (k, _) => k.stringText?.all known.contains then pure ()
  else tooManyArguments "unknown keyword argument"

/-- Assigns the parameters, the last one first. An undefined one gets the fallback, which sees the
parameters behind it. -/
def storeParams (line : Nat) : List (Param × Value) → Eval Unit
  | [] => return ()
  | (p, v) :: rest => do
    storeParams line rest
    let v ← match p.fallback with
      | some e => if v.isUndefined then eval env deeper {} line e else pure v
      | none => pure v
    store p.name v

/-- The state that a macro is called in. It sees what it took along and the variables of the render,
and none of the frames it is called from. -/
def enterRoutine (r : Routine) (args : CallArgs) (s : Store) : Store :=
  let caller := Value.ofOption (args.named? "caller")
  let frame : Frame :=
    { base := .closure r.closure
      locals := if r.usesCaller then [("caller", caller)] else [] }
  { s with
    frames := [frame, { base := .root }]
    outerDepth := s.outerDepth + s.frames.length + routineWeight
    blocks := []
    currentBlock := none
    chain := []
    sinks := [some []] }

/-- The state behind a call: what belongs to the caller is as it was before. -/
def leaveRoutine (before s : Store) : Store :=
  { s with
    frames := before.frames
    outerDepth := before.outerDepth
    template := before.template
    blocks := before.blocks
    currentBlock := before.currentBlock
    chain := before.chain
    parent := before.parent
    sinks := before.sinks }

/-- Calls a macro. Its output is its value. -/
def invoke (id : Nat) (args : CallArgs) : Eval Value := do
  let s ← get
  match s.routines[id]? with
  | none => return .undefined
  | some r => do
    let named := args.named.getD []
    let values ← bindParams named r.params args.positional
    checkNamed r named
    set (enterRoutine r args s)
    checkDepth
    modify fun s => { s with template := r.template, parent := none }
    storeParams env deeper r.line (r.params.zip values)
    runUnit env deeper r.template r.body
    let text ← endCapture
    modify (leaveRoutine s)
    return text

def perform (task : Task) : Eval Value := do
  match task with
  | .unit template body => do
    runUnit env deeper template body
    return .undefined
  | .again loop v => do
    runAgain env deeper loop v
    return .undefined
  | .invoke id args => invoke env deeper id args

end Eval

/-- Does tasks on the given number of levels. -/
def doTask (env : Environment) : (levels : Nat) → Deeper
  | 0, _ => Eval.fail (.invalid "recursion limit exceeded")
  | levels + 1, task => Eval.perform env (doTask env levels) task

/-- The levels that every run has. -/
def maxLevels : Nat := 5000

/-- The state at the beginning of a template. -/
def Store.initial (src : Source) : Store where
  frames := [{ base := .root }]
  template := src.name
  blocks := Eval.blockStacks src
  chain := [src.name]

/-- The pieces of output in the order in which they were written. -/
def Store.output (s : Store) : List Piece :=
  match s.sinks with
  | some pieces :: _ => pieces.reverse
  | _ => []

/-- A template as a program that ends with its output. -/
def Source.program (env : Environment) (src : Source) : Program (Except Stop (List Piece)) :=
  Program.bind (doTask env maxLevels (.unit src.name src.body) (Store.initial src)) fun
    | .ok (_, s) => .done (.ok s.output)
    | .error stop => .done (.error stop)

/-- The text of a template's output. -/
def outputText (pieces : List Piece) : String :=
  String.join (pieces.map Piece.text)

end QueryTemplate.Template
