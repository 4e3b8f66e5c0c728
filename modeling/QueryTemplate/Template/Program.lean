import QueryTemplate.Error
import QueryTemplate.Value.Basic

/-!
A template in evaluation, as its surroundings see it: a computation that asks for variables, for
calls of registered filters, for values to be emitted and for attributes of the caller's objects,
and goes on with the answers. A filter call or an emission that fails ends it, so the computation
only says how it goes on with an answer.
-/

namespace QueryTemplate.Template

/-- A computation with a result of type `α`. -/
inductive Program (α : Type) where
  | done (a : α)
  | lookup (name : String) (next : Option Value → Program α)
  | call (filter : String) (input : Value) (args : List Value) (next : Value → Program α)
  | emit (value : Value) (hint : Option String) (next : String → Program α)
  | read (object : Nat) (attr : String) (next : Option Value → Program α)

namespace Program

variable {α β γ : Type}

/-- Goes on with the result of a computation. -/
def bind : Program α → (α → Program β) → Program β
  | done a, f => f a
  | lookup name next, f => lookup name fun v => (next v).bind f
  | call filter input args next, f => call filter input args fun v => (next v).bind f
  | emit value hint next, f => emit value hint fun text => (next text).bind f
  | read object attr next, f => read object attr fun v => (next v).bind f

instance : Monad Program where
  pure := done
  bind := bind

theorem bind_done (x : Program α) : x.bind done = x := by
  induction x with
  | done a => rfl
  | lookup name next ih => exact congrArg (lookup name) (funext ih)
  | call name input args next ih => exact congrArg (call name input args) (funext ih)
  | emit v hint next ih => exact congrArg (emit v hint) (funext ih)
  | read object attr next ih => exact congrArg (read object attr) (funext ih)

theorem bind_bind (x : Program α) (f : α → Program β) (g : β → Program γ) :
    (x.bind f).bind g = x.bind fun a => (f a).bind g := by
  induction x with
  | done a => rfl
  | lookup name next ih => exact congrArg (lookup name) (funext ih)
  | call name input args next ih => exact congrArg (call name input args) (funext ih)
  | emit v hint next ih => exact congrArg (emit v hint) (funext ih)
  | read object attr next ih => exact congrArg (read object attr) (funext ih)

instance : LawfulMonad Program :=
  LawfulMonad.mk' Program (fun x => bind_done x) (fun _ _ => rfl) bind_bind

end Program

/-- How a query filter comes to run outside a render. -/
inductive Outside where
  /-- The render is not among the variables in sight. -/
  | unseen
  /-- The emit filter is given something else for the render. -/
  | notGiven
  /-- The same where `map` applies the emit filter. -/
  | mapped
  deriving DecidableEq, Repr

/-- Why an evaluation ends early. -/
inductive Stop where
  | error (e : EngineError)
  /-- A query filter runs outside a render. -/
  | outside (how : Outside) (e : EngineError)
  /-- A template file has a raw section that cannot be cut into tags. -/
  | overlappingTag

namespace Stop

/-- Changes the error, if it is one. -/
def mapError (f : EngineError → EngineError) : Stop → Stop
  | error e => error (f e)
  | outside how e => outside how (f e)
  | overlappingTag => overlappingTag

/-- Notes that `map` applies the filter. -/
def inMap : Stop → Stop
  | outside .notGiven e => outside .mapped e
  | stop => stop

end Stop

end QueryTemplate.Template
