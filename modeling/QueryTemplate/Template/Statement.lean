import QueryTemplate.Template.Expression
import QueryTemplate.Template.FreeNames
import QueryTemplate.Template.Inclusion

/-!
Evaluation of statements: what they write, assign and define.
-/

namespace QueryTemplate.Template.Eval

/-- Whether a loop over a value knows from the beginning how many items there are. -/
def isSized (v : Value) : Bool :=
  match v with
  | .stream _ _ => false
  | v => v.kind != .string

/-- Begins a loop in a frame of its own. -/
def enterLoop (env : Environment) (isVisible : Bool) (again : Option LoopBody) (v : Value) :
    Eval (Nat × List Value) := do
  let items ← iterate env v
  let depth := match ← currentLoop? with
    | some l => if l.again.isSome then l.depth + 1 else 0
    | none => 0
  let s ← get
  let id := s.loops.length
  let state : LoopState := { items, isSized := isSized v, depth, again }
  set { s with loops := s.loops ++ [state] }
  pushFrame { loop := some (id, isVisible) }
  return (id, items)

def setIndex (id index : Nat) : Eval Unit :=
  modify fun s => { s with loops := s.loops.modify id fun l => { l with index } }

/-- Runs a step for every item of a loop, beginning with the item number `index`. -/
def runItems (id : Nat) (step : Value → Eval Unit) (index : Nat) : List Value → Eval Unit
  | [] => setIndex id index
  | v :: rest => do
    setIndex id index
    clearFrame
    step v
    runItems id step (index + 1) rest

/-- The items of a loop for which a test holds. -/
def keepItems (id : Nat) (test : Value → Eval Bool) (index : Nat) :
    List Value → Eval (List Value)
  | [] => return []
  | v :: rest => do
    setIndex id index
    clearFrame
    let keep ← test v
    let kept ← keepItems id test (index + 1) rest
    return if keep then v :: kept else kept

/-- The elements for an assignment to `n` targets. -/
def unpack (env : Environment) (v : Value) (n : Nat) : Eval (List Value) := do
  match ← objectItems? env v with
  | none => fail (.of .cannotUnpack "value is not iterable")
  | some items =>
    if items.length = n then return items
    else fail (.of .cannotUnpack ("sequence of wrong length (expected " ++ toString n ++ ", got " ++
      toString items.length ++ ")"))

def setRecordEntry (record : Value) (name : String) (v : Value) : Eval Unit :=
  match record with
  | .object (.record id) =>
    modify fun s => { s with records := s.records.modify id (Value.insertKey (.str name) v) }
  | other => fail (.invalid ("can only assign to namespaces, not " ++ other.kind.name))

/-- How an `autoescape` block asks for values to be made part of safe text. -/
def escapingOf (v : Value) : Eval Escaping :=
  match v.asString? with
  | some "html" => return .html
  | some "none" => return .off
  | some _ => fail (.invalid "invalid value to autoescape tag")
  | none => return if Value.equal v (.bool true) then .verbatim else .off

/-- Declares a macro. It takes along the variables it mentions. -/
def declareRoutine (line : Nat) (name : String) (params : List Param) (body : List Stmt) :
    Eval Value := do
  let closure ← frameClosure
  let names := freeNames params body
  (names.filter (· != "caller")).forM (enclose closure)
  let s ← get
  let routine : Routine :=
    ⟨name, s.template, line, params, body, closure, names.contains "caller"⟩
  set { s with routines := s.routines ++ [routine] }
  return .object (.routine s.routines.length name)

/-- Assigns values to names in the innermost frame, the last one first. -/
def storeAll : List (String × Value) → Eval Unit
  | [] => return ()
  | (name, v) :: rest => do
    storeAll rest
    store name v

variable (env : Environment) (deeper : Deeper)

mutual

/-- Assigns a value to a target. -/
def assign (line : Nat) (v : Value) : Target → Eval Unit
  | .name name => store name v
  | .attr record name => do
    let r ← eval env deeper {} line record
    at_ (record.lastLine line) (setRecordEntry r name v)
  | .tuple l targets => do
    let items ← at_ l (unpack env v targets.length)
    assignAll l items targets

def assignAll (line : Nat) (items : List Value) : List Target → Eval Unit
  | [] => return ()
  | t :: rest => do
    assign line (.ofOption items.head?) t
    assignAll line (items.drop 1) rest

end

/-- Writes a value that a block yields. -/
def writeValue (v : Value) : Eval Unit := do
  demand env v
  write (.value (← snapshot env v))

/-- Assigns the value of an expression, and notes where it was taken from. -/
def assignFrom (line : Nat) (target : Target) (e : Expr) : Eval Unit := do
  let v ← eval env deeper {} line e
  let place? ← placeOf? env e
  assign env deeper line v target
  match target, place? with
  | .name name, some place => noteSource name place
  | _, _ => pure ()

/-- Assignments one after the other, each of which sees those before it. -/
def assignInTurn (line : Nat) : List (Target × Expr) → Eval Unit
  | [] => return ()
  | (target, e) :: rest => do
    assignFrom env deeper line target e
    assignInTurn line rest

mutual

/-- Evaluates a statement. -/
def exec : Stmt → Eval Unit
  | .text _ text => write (.literal text)
  | .emit l e => do
    let v ← eval env deeper {} l e
    write (.value v)
  | .loop l target items condition isRecursive body otherwise => do
    let v ← eval env deeper {} l items
    let behind := items.lastLine l
    let v ← match condition with
      | none => pure v
      | some test => do
        let (id, all) ← at_ behind (enterLoop env false none v)
        let keep (item : Value) : Eval Bool := do
          assign env deeper l item target
          let b ← eval env deeper {} l test
          at_ (test.lastLine l) (truth env b)
        let kept ← keepItems id keep 0 all
        popFrame
        pure (.list kept)
    let again := if isRecursive then some ⟨behind, target, body⟩ else none
    let (id, all) ← at_ behind (enterLoop env true again v)
    let step (item : Value) : Eval Unit := do
      assign env deeper l item target
      execBody body
    runItems id step 0 all
    popFrame
    if all.isEmpty then execBody otherwise
  | .branch l test yes no => do
    let v ← eval env deeper {} l test
    if ← at_ (test.lastLine l) (truth env v) then execBody yes else execBody no
  | .within l assignments body => do
    at_ l (pushFrame {})
    assignInTurn env deeper l assignments
    execBody body
    popFrame
  | .assign l target e => assignFrom env deeper l target e
  | .assignBlock l target filter body => do
    beginCapture
    execBody body
    let text ← endCapture
    let v ← match filter with
      | some e => eval env deeper { text } l e
      | none => pure text
    assign env deeper l v target
  | .escaping l enabled body => do
    let v ← eval env deeper {} l enabled
    let escaping ← at_ (enabled.lastLine l) (escapingOf v)
    let before := (← get).escaping
    modify fun s => { s with escaping }
    execBody body
    modify fun s => { s with escaping := before }
  | .filtered l filter body => do
    beginCapture
    execBody body
    let text ← endCapture
    let v ← eval env deeper { text } l filter
    at_ (filter.lastLine l) (writeValue env v)
  | .block l name _ _ => at_ l do
    if ← runsBlocks then runBlock deeper name
  | .inherit l parent => do
    let v ← eval env deeper {} l parent
    at_ (parent.lastLine l) (extend env v)
  | .inclusion l template ignoreMissing => do
    let v ← eval env deeper {} l template
    at_ l (includeTemplate env deeper v ignoreMissing)
  | .importAs l template target => do
    beginCapture
    at_ l (pushFrame {})
    let v ← eval env deeper {} l template
    at_ l (includeTemplate env deeper v false)
    let entries ← exports
    popFrame
    let text ← endCapture
    assign env deeper l (.package text.text entries) target
  | .importNames l template names => do
    beginDiscard
    at_ l (pushFrame {})
    let v ← eval env deeper {} l template
    at_ l (includeTemplate env deeper v false)
    let values ← names.mapM fun (name, alias_) => return (alias_, .ofOption (← load name))
    popFrame
    storeAll values
    let _ ← endCapture
  | .declare l name params body => do
    let v ← at_ l (declareRoutine l name params body)
    store name v
  | .callBlock l call params body => do
    let caller : Caller :=
      { line := lastLineOfBody (lastLineOfParams l params) body
        declare := declareRoutine l "caller" params body }
    let v ← eval env deeper { caller } l call
    at_ l (writeValue env v)
  | .perform l call => do
    let _ ← eval env deeper {} l call

/-- Evaluates statements one after the other. -/
def execBody : List Stmt → Eval Unit
  | [] => return ()
  | s :: rest => do
    exec s
    execBody rest

end

end QueryTemplate.Template.Eval
