import QueryTemplate.Context
import QueryTemplate.Format
import QueryTemplate.Suspend
import QueryTemplate.Template.Program

/-!
One pass over a template. The program of the template asks the pass for variables, filter calls and
emissions; the pass answers them and keeps what was captured, the first failure and what it waits
for. A pass that waits for something answers nothing any more.
-/

namespace QueryTemplate

/-- The settings of one render. -/
structure RenderOptions where
  paramStyle : ParamStyle := .named
  identifierQuote : Option Char := some '"'

/-- What stays the same during a pass. -/
structure PassScope (ω : Type) where
  registry : FilterRegistry ω
  context : Context ω
  options : RenderOptions
  mode : EvalMode
  resolutions : Resolutions := {}

/-- What a pass has come to. `outputs` are those of all sync filter calls of the render so far. -/
structure PassState (ω : Type) where
  captures : CaptureList := {}
  failure : Option QueryError := none
  suspension : Option (Suspension ω) := none
  asyncCalls : Nat := 0
  syncCalls : Nat := 0
  outputs : CallLog := []
  world : ω

/-- How a pass ends. -/
inductive Outcome (ω : Type) where
  | complete (marked : MarkedQuery)
  | suspended (s : Suspension ω)
  | failed (e : QueryError)

namespace PassState

variable {ω : Type}

def isSuspended (s : PassState ω) : Bool :=
  s.suspension.isSome

/-- Records a failure, unless there was one before. -/
def fail (e : QueryError) (s : PassState ω) : PassState ω :=
  { s with failure := s.failure.or (some e) }

/-- Records what the pass waits for, unless it waits for something already. -/
def suspend (pending : Suspension ω) (s : PassState ω) : PassState ω :=
  { s with suspension := s.suspension.or (some pending) }

/-- Captures a value and returns its marker. -/
def capture (hint : Option String) (v : Value) (s : PassState ω) : String × PassState ω :=
  let (index, captures) := s.captures.push hint v
  (encodeMarker index, { s with captures })

/-- Captures the elements of a list. The hint of each is numbered, beginning with `n`. -/
def captureAll (hint : Option String) (n : Nat) :
    List Value → PassState ω → List String × PassState ω
  | [], s => ([], s)
  | v :: rest, s =>
    let (marker, s) := s.capture (hint.map fun h => h ++ "_" ++ toString n) v
    let (markers, s) := captureAll hint (n + 1) rest s
    (marker :: markers, s)

/-- Writes a value: raw text as it is, a parameter as its marker, a list of parameters as their
markers in parentheses. Nothing is returned if the pass waits or the value is undefined. -/
def emit (v : Value) (hint : Option String) (s : PassState ω) : Option String × PassState ω :=
  if s.isSuspended then (none, s)
  else if v.isUndefined then (none, s.fail (.undefinedValue (hint.getD "<expression>")))
  else
    match v with
    | .params items =>
      let (markers, s) := s.captureAll hint 1 items
      (some ("(" ++ String.intercalate ", " markers ++ ")"), s)
    | v =>
      match classify v with
      | .raw text => (some text, s)
      | .parameter v own =>
        let (marker, s) := s.capture (own.or hint) v
        (some marker, s)

/-- Ends a pass, given the output or the error of the template. What the pass waits for goes before
a failure, and a recorded failure before an error of the template. -/
def finish (result : Except QueryError String) (s : PassState ω) : Outcome ω :=
  match s.suspension, s.failure, result with
  | some pending, _, _ => .suspended pending
  | none, some e, _ => .failed e
  | none, none, .ok text => .complete ⟨text, s.captures⟩
  | none, none, .error e => .failed e

end PassState

namespace PassScope

variable {ω : Type}

def filterScope (p : PassScope ω) : FilterScope :=
  ⟨p.options.identifierQuote, p.options.paramStyle, p.mode⟩

/-- A deferred variable: the value it was resolved to, or what the pass waits for from now on. -/
def lookupDeferred (p : PassScope ω) (name : String) (produce : ω → Future ω Value × ω)
    (s : PassState ω) : Option Value × PassState ω :=
  if s.isSuspended then (none, s)
  else
    match p.mode with
    | .sequential => (none, s.fail (.requiresSuspending name))
    | .suspending =>
      match p.resolutions.lookup? name with
      | some v => (some v, s)
      | none =>
        let (future, world) := produce s.world
        (none, { s with world }.suspend (.lookup name future))

/-- A variable of the render. -/
def lookup (p : PassScope ω) (name : String) (s : PassState ω) : Option Value × PassState ω :=
  match p.context.get? name with
  | none => (none, s)
  | some (.value v) => (some v, s)
  | some (.deferred produce) => p.lookupDeferred name produce s

/-- The result of a filter that answers at once. -/
def runSync (p : PassScope ω)
    (run : FilterScope → Classified → List Value → ω → Except FilterError Classified × ω)
    (input : Classified) (args : List Value) (s : PassState ω) :
    Except FilterError Classified × PassState ω :=
  let (result, world) := run p.filterScope input args s.world
  (result, { s with world })

/-- Calls a sync filter. A suspending render takes the output of an earlier pass if there is one,
and records it otherwise. -/
def callSync (p : PassScope ω) (name : String)
    (run : FilterScope → Classified → List Value → ω → Except FilterError Classified × ω)
    (input : Classified) (args : List Value) (s : PassState ω) : Option Value × PassState ω :=
  match p.mode with
  | .sequential =>
    match p.runSync run input args s with
    | (.ok output, s) => (some output.toValue, s)
    | (.error e, s) => (none, s.fail (.filterExecution name e))
  | .suspending =>
    let ordinal := s.syncCalls
    let s := { s with syncCalls := ordinal + 1 }
    match s.outputs.output ordinal name with
    | .ok (some output) => (some output.toValue, s)
    | .error e => (none, s.fail e)
    | .ok none =>
      match p.runSync run input args s with
      | (.ok output, s) =>
        (some output.toValue, { s with outputs := s.outputs.record ordinal name output })
      | (.error e, s) => (none, s.fail (.filterExecution name e))

/-- Calls an async filter: its result if there is one, or what the pass waits for from now on. -/
def callAsync (p : PassScope ω) (name : String)
    (start : FilterScope → Classified → List Value → ω → Future ω Classified × ω)
    (input : Classified) (args : List Value) (s : PassState ω) : Option Value × PassState ω :=
  match p.mode with
  | .sequential => (none, s.fail (.requiresSuspending name))
  | .suspending =>
    let ordinal := s.asyncCalls
    let s := { s with asyncCalls := ordinal + 1 }
    match p.resolutions.filter ordinal name with
    | .ok (some output) => (some output.toValue, s)
    | .error e => (none, s.fail e)
    | .ok none =>
      let (future, world) := start p.filterScope input args s.world
      (none, { s with world }.suspend (.filter name ordinal future))

/-- Calls a registered filter. Nothing is returned if the call does not come to a result. -/
def call (p : PassScope ω) (name : String) (input : Value) (args : List Value)
    (s : PassState ω) : Option Value × PassState ω :=
  if s.isSuspended then (none, s)
  else
    match p.registry.resolve name with
    | .error e => (none, s.fail e)
    | .ok (.sync run) => p.callSync name run (classify input) args s
    | .ok (.async start) => p.callAsync name start (classify input) args s

/-- An attribute of one of the caller's objects. -/
def read (p : PassScope ω) (object : Nat) (name : String) (s : PassState ω) :
    Option Value × PassState ω :=
  let (v, world) := p.context.readAttribute object name s.world
  (v, { s with world })

/-- Runs a program. A filter call or an emission without a result ends it. -/
def run {α : Type} (p : PassScope ω) :
    Template.Program α → PassState ω → Option α × PassState ω
  | .done a, s => (some a, s)
  | .lookup name next, s =>
    let (v, s) := p.lookup name s
    p.run (next v) s
  | .call name input args next, s =>
    match p.call name input args s with
    | (some v, s) => p.run (next v) s
    | (none, s) => (none, s)
  | .emit v hint next, s =>
    match s.emit v hint with
    | (some text, s) => p.run (next text) s
    | (none, s) => (none, s)
  | .read object name next, s =>
    let (v, s) := p.read object name s
    p.run (next v) s

/-- The error of a template that was ended from outside. The pass has a reason of its own then. -/
def aborted : QueryError :=
  .engine (.invalid "render pass aborted")

/-- Runs a program that ends with a text or an error, and ends the pass. -/
def outcome (p : PassScope ω) (program : Template.Program (Except QueryError String))
    (s : PassState ω) : Outcome ω × PassState ω :=
  match p.run program s with
  | (some (.error .overlappingTag), s) => (.failed .overlappingTag, s)
  | (some result, s) => (s.finish result, s)
  | (none, s) => (s.finish (.error aborted), s)

end PassScope

end QueryTemplate
