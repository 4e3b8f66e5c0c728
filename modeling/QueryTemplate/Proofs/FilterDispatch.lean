import QueryTemplate.Engine
import QueryTemplate.Proofs.Yields

/-!
Which filter is applied where a template names one. A name that filters were ever registered under
is looked up in the registry of the render, once the value and the arguments are there. Any other
name is that of a filter the engine has of its own, or of none.
-/

namespace QueryTemplate

open Template Template.Eval

namespace Template

namespace Eval

/-- The filter `map` of the template language. -/
def mapFilter : StockFilter := fun env v args => do
  let path? := (args.named? "attribute").filter fun v => !v.isUndefined && v.kind != .none
  match path?, args.positional with
  | some path, [] => do
    args.onlyNamed ["attribute", "default"]
    mapPath env v path ((args.named? "default").getD .undefined)
  | some _, _ :: _ => fail { kind := .tooManyArguments }
  | none, [] => fail (.invalid "filter name is required")
  | none, inner :: rest => do
    let inner ← mappedName env inner
    return .list (← (← iterate env v).mapM fun item =>
      mapStop Stop.inMap (applyFilter env inner item none rest))

/-- The filters of the template language that apply other filters or tests. -/
def combinator? (name : String) : Option StockFilter :=
  match name with
  | "select" => some fun env => selectOn env true
  | "reject" => some fun env => selectOn env false
  | "selectattr" => some fun env => selectAt env true
  | "rejectattr" => some fun env => selectAt env false
  | "map" => some mapFilter
  | _ => none

/-- The filters an engine has of its own: the emit filter and those of the template language. -/
def ownFilter? (name : String) : Option StockFilter :=
  if name = emitName then some emitFilter else (stockFilter? name).or (combinator? name)

/-- Applies the filter that the engine has of its own under a name. -/
def applyOwn (env : Environment) (name : String) (v : Value) (args : CallArgs) : Eval Value :=
  match ownFilter? name with
  | some filter => filter env v args
  | none => fail (.of .unknownFilter ("filter " ++ name ++ " is unknown"))

theorem applyOwn_emit (env : Environment) : applyOwn env emitName = emitFilter env := by
  funext v args
  rw [applyOwn, ownFilter?, if_pos rfl]

/-- What a registered filter is called with: the value and the arguments, as the surroundings see
them. The render must be in sight. -/
def handOver (env : Environment) (v : Value) (args : CallArgs) : Eval (Value × List Value) := do
  match ← load scopeName with
  | some (.object .root) => return (← snapshot env v, ← args.toList.mapM (snapshot env))
  | _ => failOutside .unseen

variable {env : Environment} {name : String}

theorem applyFilter_own (h : name ∉ env.registered) (v : Value) (args : CallArgs) :
    applyFilter env name v args.named args.positional = applyOwn env name v args := by
  rw [applyFilter.eq_def, applyOwn, ownFilter?]
  by_cases hemit : name = emitName
  · rw [if_pos hemit, if_pos hemit]
  · rw [if_neg hemit, if_neg hemit, if_neg (by simpa using h)]
    cases stockFilter? name with
    | some filter => rfl
    | none =>
        simp only [Option.none_or]
        split <;> first | rfl | simp only [combinator?]

theorem applyFilter_registered (hemit : name ≠ emitName) (h : name ∈ env.registered) (v : Value)
    (args : CallArgs) :
    applyFilter env name v args.named args.positional =
      handOver env v args >>= fun handed => call name handed.1 handed.2 := by
  rw [applyFilter.eq_def, if_neg hemit, if_pos (by simpa using h), callRegistered, handOver]
  rw [bind_assoc]
  congr 1
  funext scope?
  rcases scope? with _ | v
  · rfl
  · cases v with
    | object ref =>
        cases ref with
        | root => simp only [bind_assoc, pure_bind]
        | _ => rfl
    | _ => rfl

/-- An error is reported on the line of an instruction before a call, since a call has none. -/
theorem at_call {α : Type} (line : Nat) (x : Eval α) (input : α → Value) (args : α → List Value) :
    at_ line (x >>= fun a => call name (input a) (args a)) =
      at_ line x >>= fun a => call name (input a) (args a) := by
  funext s
  change Program.bind (Program.bind (x s) _) _ = Program.bind (Program.bind (x s) _) _
  rw [Program.bind_bind, Program.bind_bind]
  congr 1
  funext r
  cases r <;> rfl

end Eval

/-- A place where a filter is applied. -/
inductive FilterUse where
  /-- In an expression, behind an operand or on the text of a filter block. -/
  | inExpression (deeper : Deeper) (block : BlockInput) (line operandLine : Nat)
      (operand : Option Expr) (args : List Arg)
  /-- To a value at hand, as by `map`. -/
  | direct (v : Value) (args : CallArgs)

namespace FilterUse

open Eval

variable {env : Environment} {name : String}

/-- Applies the filter of a name there. -/
def evaluate (env : Environment) (name : String) : FilterUse → Eval Value
  | inExpression deeper block line l operand args =>
    eval env deeper block line (.filter l operand name args)
  | direct v args => applyFilter env name v args.named args.positional

/-- The value that a filter in an expression is applied to. -/
def operandValue (env : Environment) (deeper : Deeper) (block : BlockInput) (line : Nat) :
    Option Expr → Eval Value
  | some e => eval env deeper block line e
  | none => return block.text

def operandEnd (line : Nat) : Option Expr → Nat
  | some e => e.lastLine line
  | none => line

/-- Evaluates the value and the arguments there and goes on with them. -/
def handing {α : Type} (env : Environment) (apply : Value → CallArgs → Eval α) :
    FilterUse → Eval α
  | inExpression deeper block _ l operand args => do
    let middle := operandEnd l operand
    let v ← operandValue env deeper block l operand
    let positional ← evalPositional env deeper middle args
    let named ← evalNamed env deeper middle args
    at_ (lastLineOfArgs middle args) do
      let given ← gather env positional named
      apply v given
  | direct v args => apply v args

theorem evaluate_eq (use : FilterUse) :
    use.evaluate env name =
      use.handing env fun v args => applyFilter env name v args.named args.positional := by
  cases use with
  | inExpression deeper block line l operand args =>
      cases operand with
      | some e =>
          rw [evaluate, eval]
          rfl
      | none =>
          rw [evaluate, eval]
          rfl
  | direct v args => rfl

theorem handing_call {α : Type} (apply : Value → CallArgs → Eval α) (input : α → Value)
    (given : α → List Value) (use : FilterUse) :
    (use.handing env fun v args => apply v args >>= fun a => call name (input a) (given a)) =
      use.handing env apply >>= fun a => call name (input a) (given a) := by
  cases use with
  | inExpression deeper block line l operand args =>
      simp only [handing, bind_assoc]
      congr 1
      funext v
      congr 1
      funext positional
      congr 1
      funext named
      rw [← at_call, bind_assoc]
  | direct v args => rfl

end FilterUse

end Template

/-! ### Calls in a pass -/

namespace PassScope

variable {ω : Type} {p : PassScope ω}

/-- Calls a filter that is known under a name. -/
def callFilter (p : PassScope ω) (name : String) (filter : Filter ω) (input : Value)
    (args : List Value) (t : PassState ω) : Option Value × PassState ω :=
  match filter with
  | .sync run => p.callSync name run (classify input) args t
  | .async start => p.callAsync name start (classify input) args t

/-- The call of a registered name: of its filter, if it has one. A pass that waits for something
calls nothing any more. -/
def callResolved (p : PassScope ω) (name : String) (filter? : Option (Filter ω)) (input : Value)
    (args : List Value) (t : PassState ω) : Option Value × PassState ω :=
  if t.isSuspended then (none, t)
  else
    match filter? with
    | some filter => p.callFilter name filter input args t
    | none => (none, t.fail (.unknownFilter name))

theorem callResolved_none {t : PassState ω} (h : t.isSuspended = false) (name : String)
    (input : Value) (args : List Value) :
    p.callResolved name none input args t = (none, t.fail (.unknownFilter name)) :=
  if_neg (by simp [h])

theorem call_eq_callResolved (name : String) (input : Value) (args : List Value)
    (t : PassState ω) :
    p.call name input args t =
      p.callResolved name (p.registry.filters.find? name) input args t := by
  cases hfind : p.registry.filters.find? name with
  | none => simp only [PassScope.call, callResolved, FilterRegistry.resolve, hfind]
  | some filter =>
      cases filter <;>
        simp only [PassScope.call, callResolved, callFilter, FilterRegistry.resolve, hfind]

/-- Runs an evaluation, begun in the given states of the template and of the pass. -/
def runEval {α : Type} (p : PassScope ω) (x : Eval α) (s : Store) (t : PassState ω) :
    Option (Except Stop (α × Store)) × PassState ω :=
  p.run (x s : Program (Except Stop (α × Store))) t

/-- Goes on with a call, if an evaluation has come to the input and the arguments of the call. -/
def thenCall (call : Value → List Value → PassState ω → Option Value × PassState ω) :
    Option (Except Stop ((Value × List Value) × Store)) × PassState ω →
      Option (Except Stop (Value × Store)) × PassState ω
  | (some (.ok ((input, args), s)), t) =>
    match call input args t with
    | (some v, t) => (some (.ok (v, s)), t)
    | (none, t) => (none, t)
  | (some (.error stop), t) => (some (.error stop), t)
  | (none, t) => (none, t)

theorem runEval_bind_call (x : Eval (Value × List Value)) (name : String) (s : Store)
    (t : PassState ω) :
    p.runEval (x >>= fun handed => Eval.call name handed.1 handed.2) s t =
      thenCall (p.call name) (p.runEval x s t) := by
  refine (run_bind (x s : Program (Except Stop ((Value × List Value) × Store))) _ t).trans ?_
  rw [← runEval]
  rcases p.runEval x s t with ⟨_ | stop | ⟨⟨input, args⟩, s'⟩, t'⟩
  · rfl
  · rfl
  · exact run_call name input args _ t'

/-- A call without a result ends the pass, whatever the template would go on to do, and the first
failure is the one it ends with. -/
theorem outcome_of_fail {α : Type} {program : Program α} {t t' : PassState ω} {e : QueryError}
    (h : p.run program t = (none, t'.fail e)) (hrunning : t'.isSuspended = false)
    (hfirst : t'.failure = none) (rest : α → Program (Except QueryError String)) :
    (p.outcome (program.bind rest) t).1 = .failed e := by
  have hsuspension : t'.suspension = none := by
    simpa [PassState.isSuspended] using hrunning
  have hrun : p.run (program.bind rest) t = (none, t'.fail e) := by
    rw [run_bind, h]
  rw [outcome, hrun]
  simp only [PassState.finish, PassState.fail, hsuspension, hfirst, Option.none_or]

end PassScope

/-! ### Filters in the templates of an engine -/

namespace QueryEngine

variable {ω : Type} {e : QueryEngine ω} {name : String}

/-- A name that no filter was ever registered under is that of a filter the engine has of its own. -/
theorem evaluate_own (h : name ∉ e.dispatched) (context : Context ω) (use : FilterUse) :
    use.evaluate (e.environment context) name =
      use.handing (e.environment context) (applyOwn (e.environment context) name) := by
  rw [use.evaluate_eq]
  congr 1
  funext v args
  exact applyFilter_own h v args

/-- Any other name is looked up in the registry, once the operands are evaluated. -/
theorem runEval_dispatched (hemit : name ≠ emitName) (h : name ∈ e.dispatched)
    (context : Context ω) (use : FilterUse) {p : PassScope ω} (hp : p.registry = e.registry)
    (s : Store) (t : PassState ω) :
    p.runEval (use.evaluate (e.environment context) name) s t =
      PassScope.thenCall (p.callResolved name (e.registry.filters.find? name))
        (p.runEval (use.handing (e.environment context) (handOver (e.environment context))) s
          t) := by
  have hcall : p.call name = p.callResolved name (e.registry.filters.find? name) := by
    funext input args t
    rw [PassScope.call_eq_callResolved, hp]
  have hregistered : name ∈ (e.environment context).registered := h
  have happly (v : Value) (args : CallArgs) := applyFilter_registered hemit hregistered v args
  rw [use.evaluate_eq]
  simp only [happly]
  rw [use.handing_call, PassScope.runEval_bind_call, hcall]

end QueryEngine

end QueryTemplate
