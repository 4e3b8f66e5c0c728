import QueryTemplate.Reserved
import QueryTemplate.Template.Store

/-!
Evaluation of a template as a computation on its state: asking the surroundings, writing output,
and finding and assigning variables.
-/

namespace QueryTemplate.Template

/-- Evaluation: a computation on the state that may end early. -/
abbrev Eval := StateT Store (ExceptT Stop Program)

namespace Eval

def lookup (name : String) : Eval (Option Value) := fun s =>
  .lookup name fun v => .done (.ok (v, s))

def call (filter : String) (input : Value) (args : List Value) : Eval Value := fun s =>
  .call filter input args fun v => .done (.ok (v, s))

def emit (value : Value) (hint : Option String) : Eval Value := fun s =>
  .emit value hint fun text => .done (.ok (.safe text, s))

def read (object : Nat) (attr : String) : Eval (Option Value) := fun s =>
  .read object attr fun v => .done (.ok (v, s))

def fail {α : Type} (e : EngineError) : Eval α := fun _ =>
  .done (.error (.error e))

def ofExcept {α : Type} : Except EngineError α → Eval α
  | .ok a => pure a
  | .error e => fail e

/-- Changes how an evaluation ends early. -/
def mapStop {α : Type} (f : Stop → Stop) (x : Eval α) : Eval α := fun s =>
  Program.bind (x s : Program (Except Stop (α × Store))) fun r =>
    match r with
    | .ok a => .done (.ok a)
    | .error e => .done (.error (f e))

/-- An instruction on a line of the current template: its errors are reported there. -/
def at_ {α : Type} (line : Nat) (x : Eval α) : Eval α := fun s =>
  mapStop (·.mapError (·.locate s.template line)) x s

/-! Output -/

def write (p : Piece) : Eval Unit :=
  modify fun s =>
    match s.sinks with
    | some pieces :: rest => { s with sinks := some (p :: pieces) :: rest }
    | _ => s

def outputOf (reversed : List Piece) : String :=
  String.join (reversed.reverse.map Piece.text)

/-- Sends output to a place of its own. -/
def beginCapture : Eval Unit :=
  modify fun s => { s with sinks := some [] :: s.sinks }

def beginDiscard : Eval Unit :=
  modify fun s => { s with sinks := none :: s.sinks }

/-- A captured text as a value. -/
def captured (escaping : Escaping) (text : String) : Value :=
  match escaping with
  | .off => .str text
  | _ => .safe text

/-- Ends the innermost capture and returns what was written. -/
def endCapture : Eval Value := do
  let s ← get
  match s.sinks with
  | some pieces :: rest =>
    set { s with sinks := rest }
    return captured s.escaping (outputOf pieces)
  | none :: rest =>
    set { s with sinks := rest }
    return .undefined
  | [] => return .undefined

def isDiscarding : Eval Bool := do
  match (← get).sinks with
  | none :: _ => return true
  | _ => return false

/-! Frames -/

/-- How deep frames and calls may be nested. -/
def maxDepth : Nat := 500

def depth : Eval Nat := do
  let s ← get
  return s.outerDepth + s.frames.length

def checkDepth : Eval Unit := do
  if (← depth) > maxDepth then fail (.invalid "recursion limit exceeded")

def pushFrame (f : Frame) : Eval Unit := do
  checkDepth
  modify fun s => { s with frames := f :: s.frames }

def popFrame : Eval Unit :=
  modify fun s => { s with frames := s.frames.drop 1 }

/-- Forgets the variables of the innermost frame. -/
def clearFrame : Eval Unit :=
  modify fun s =>
    match s.frames with
    | [] => s
    | f :: rest =>
      { s with frames := { f with locals := [], sources := [], closure := none } :: rest }

/-- Counts a nested call of the given weight. -/
def deepen (weight : Nat) : Eval Unit := do
  modify fun s => { s with outerDepth := s.outerDepth + weight }
  checkDepth

def setClosureValue (name : String) (v : Value) (c : Closure) : Closure :=
  { c with values := (name, v) :: c.values.filter fun (n, _) => n != name }

/-- Assigns a variable in the innermost frame. -/
def store (name : String) (v : Value) : Eval Unit :=
  modify fun s =>
    match s.frames with
    | [] => s
    | f :: rest =>
      let closures := match f.closure with
        | some id => s.closures.modify id (setClosureValue name v)
        | none => s.closures
      let f :=
        { f with
          locals := (name, v) :: f.locals.filter fun (n, _) => n != name
          sources := f.sources.filter fun (n, _) => n != name }
      { s with frames := f :: rest, closures }

/-- Notes which place the value of a variable in the innermost frame was taken from. -/
def noteSource (name : String) (place : Place) : Eval Unit :=
  modify fun s =>
    match s.frames with
    | [] => s
    | f :: rest => { s with frames := { f with sources := (name, place) :: f.sources } :: rest }

/-- A variable of the render. -/
def loadRoot (name : String) : Eval (Option Value) :=
  if name = scopeName then return some (.object .root) else lookup name

/-- What is behind a frame that does not have a name itself. -/
def loadBase (name : String) (base : FrameBase) : Eval (Option Value) :=
  match base with
  | .nothing => return none
  | .root => loadRoot name
  | .closure id => do
    return ((← get).closures[id]?).bind fun c => c.values.lookup name

/-- A variable as seen from the given frames. -/
def loadFrom (name : String) : List Frame → Eval (Option Value)
  | [] => return none
  | f :: rest => do
    match f.locals.lookup name with
    | some v => return some v
    | none =>
      let found ← match f.loop with
        | some (id, true) =>
          if name = "loop" then pure (some (.object (.loop id))) else loadBase name f.base
        | _ => loadBase name f.base
      match found with
      | some v => return some v
      | none => loadFrom name rest

/-- The place of the value that a variable has, as seen from the given frames. -/
def placeFrom? (env : Environment) (closures : List Closure) (name : String) :
    List Frame → Option Place
  | [] => none
  | f :: rest =>
    if (f.locals.lookup name).isSome then
      (f.sources.lookup name).or (some ⟨.frame rest.length, name, []⟩)
    else
      let home? : Option Home := match f.base with
        | .nothing => none
        | .root => if env.variableNames.contains name then some .render else none
        | .closure id =>
          (closures[id]?.bind (·.values.lookup name)).map fun _ => .closure id
      match home? with
      | some home => some ⟨home, name, []⟩
      | none => placeFrom? env closures name rest

/-- The place that an expression names. -/
def placeOf? (env : Environment) (e : Expr) : Eval (Option Place) := do
  let s ← get
  return e.place? fun name => placeFrom? env s.closures name s.frames

/-- The functions of every template. -/
def globals : List (String × Value) := [
  ("range", .object (.function .range)),
  ("dict", .object (.function .dict)),
  ("namespace", .object (.function .namespaceOf)),
  ("debug", .object (.function .debug))]

/-- A variable or a global function. -/
def load (name : String) : Eval (Option Value) := do
  match ← loadFrom name (← get).frames with
  | some v => return some v
  | none => return globals.lookup name

/-! Objects -/

/-- The closure of the innermost frame, made if there is none. -/
def frameClosure : Eval Nat := do
  let s ← get
  match s.frames with
  | [] => return 0
  | f :: rest =>
    match f.closure with
    | some id => return id
    | none =>
      let id := s.closures.length
      set
        { s with
          frames := { f with closure := some id } :: rest
          closures := s.closures ++ [({} : Closure)] }
      return id

/-- Takes a variable along in a closure, unless the closure has the name. -/
def enclose (id : Nat) (name : String) : Eval Unit := do
  let known := match (← get).closures[id]? with
    | some c => (c.values.lookup name).isSome
    | none => true
  if known then return ()
  let v := (← load name).getD .undefined
  modify fun s => { s with closures := s.closures.modify id (setClosureValue name v) }

def loopState? (id : Nat) : Eval (Option LoopState) := do
  return (← get).loops[id]?

/-- The state of the innermost loop. -/
def currentLoop? : Eval (Option LoopState) := do
  let s ← get
  match s.frames.findSome? (·.loop) with
  | some (id, _) => return s.loops[id]?
  | none => return none

end Eval

end QueryTemplate.Template
