import QueryTemplate.Template.Call

/-!
Bringing other templates into an evaluation: including them, taking over what they define, and
extending them.
-/

namespace QueryTemplate.Template.Eval

/-- How much deeper an included template counts. -/
def inclusionWeight : Nat := 10

def blockStacks (src : Source) : List (String × BlockStack) :=
  src.blocks.map fun (name, block) => (name, { layers := [(src.name, block)] })

/-- Adds a parent's version of a block below the others. -/
def addLayer (name template : String) (block : Block) :
    List (String × BlockStack) → List (String × BlockStack)
  | [] => [(name, { layers := [(template, block)] })]
  | (n, stack) :: rest =>
    if n = name then (n, { stack with layers := stack.layers ++ [(template, block)] }) :: rest
    else (n, stack) :: addLayer name template block rest

/-- The closure of the innermost frame, put in place of what it was. -/
def setClosure (closure : Option Nat) : List Frame → List Frame
  | [] => []
  | f :: rest => { f with closure } :: rest

def topClosure : List Frame → Option Nat
  | [] => none
  | f :: _ => f.closure

/-- Runs an included template. It has blocks of its own, and variables it assigns are assigned in
the frame it is included in. -/
def runIncluded (deeper : Deeper) (src : Source) : Eval Unit := do
  let s ← get
  set
    { s with
      escaping := .verbatim
      blocks := blockStacks src
      frames := setClosure none s.frames }
  deepen inclusionWeight
  mapStop (·.mapError fun _ => .of .badInclude ("error in \"" ++ src.name ++ "\"")) do
    let _ ← deeper (.unit src.name src.body)
  modify fun s' =>
    { s' with
      outerDepth := s.outerDepth
      escaping := s.escaping
      blocks := s.blocks
      chain := s.chain
      frames := setClosure (topClosure s.frames) s'.frames }

/-- What is reported when none of the templates exists. -/
def missingTemplates (tried : List Value) : EngineError :=
  match tried with
  | [v] => .of .templateNotFound ("tried to include non-existing template " ++ v.debugText)
  | tried => .of .templateNotFound
      ("tried to include one of multiple templates, none of which existed " ++
        (Value.list tried).debugText)

/-- Includes the first of the templates that exists. -/
def includeFirst (env : Environment) (deeper : Deeper) (ignoreMissing : Bool)
    (tried : List Value) : List Value → Eval Unit
  | [] =>
    if tried.isEmpty || ignoreMissing then pure () else fail (missingTemplates tried)
  | choice :: rest =>
    match choice.asString? with
    | none => fail (.invalid "template name was not a string")
    | some name =>
      match env.find name with
      | .error stop => fun _ => .done (.error stop)
      | .ok none => includeFirst env deeper ignoreMissing (tried ++ [choice]) rest
      | .ok (some src) => runIncluded deeper src

/-- The elements of a value that is not a single text; nothing for texts, numbers and the like. -/
def objectItems? (env : Environment) (v : Value) : Eval (Option (List Value)) := do
  match v.elements? with
  | some items => return some items
  | none => keys? env v

/-- Includes a template by name, or the first of several that exists. An object without elements
names none. -/
def includeTemplate (env : Environment) (deeper : Deeper) (choice : Value)
    (ignoreMissing : Bool) : Eval Unit := do
  match ← objectItems? env choice with
  | some choices => includeFirst env deeper ignoreMissing [] choices
  | none =>
    if choice.kind = .plain then return ()
    includeFirst env deeper ignoreMissing [] [choice]

/-- What the innermost frame has, as the exports of an imported template. -/
def exports : Eval (List (Value × Value)) := do
  match (← get).frames with
  | [] => return []
  | f :: _ =>
    return f.locals.foldl (fun entries (name, v) => Value.insertKey (.str name) v entries) []

/-- Goes on with a parent at the end of the template, which from here on only defines blocks. -/
def extend (env : Environment) (v : Value) : Eval Unit := do
  let s ← get
  if s.parent.isSome then fail (.invalid "tried to extend a second time in a template")
  match v.asString? with
  | none => fail (.invalid "template name was not a string")
  | some name =>
    if s.chain.contains name then
      fail (.invalid ("cycle in template inheritance. " ++ Text.quoted name ++
        " was referenced more than once"))
    match env.find name with
    | .error stop => fun _ => .done (.error stop)
    | .ok none =>
      fail (.of .templateNotFound ("template " ++ Text.quoted name ++ " does not exist"))
    | .ok (some src) => do
      modify fun s =>
        { s with
          parent := some src
          chain := src.name :: s.chain
          blocks := src.blocks.foldl
            (fun blocks (name, block) => addLayer name src.name block blocks) s.blocks }
      beginDiscard

end QueryTemplate.Template.Eval
