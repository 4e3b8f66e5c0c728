import QueryTemplate.Classify
import QueryTemplate.Error
import QueryTemplate.NameMap
import QueryTemplate.Reserved
import QueryTemplate.Style

/-!
Filters and the table they are registered in. Filters and deferred values are given by the caller
and may keep state of their own; `ω` is that state. With `ω = Unit` they keep none.
-/

namespace QueryTemplate

/-- How a render treats computations that wait. -/
inductive EvalMode where
  /-- They are refused. -/
  | sequential
  /-- The render stops at them and is run again once they have a result. -/
  | suspending
  deriving DecidableEq, Repr

namespace EvalMode

def name : EvalMode → String
  | sequential => "sequential"
  | suspending => "suspending"

end EvalMode

/-- What a filter call can learn about the render. -/
structure FilterScope where
  identifierQuote : Option Char
  paramStyle : ParamStyle
  mode : EvalMode

/-- A computation whose result is waited for. -/
abbrev Future (ω α : Type) := ω → Except FilterError α × ω

/-- A registered filter. -/
inductive Filter (ω : Type) where
  /-- Answers at once. -/
  | sync (run : FilterScope → Classified → List Value → ω → Except FilterError Classified × ω)
  /-- Starts a computation to wait for. -/
  | async (start : FilterScope → Classified → List Value → ω → Future ω Classified × ω)

namespace Filter

variable {ω : Type}

def isAsync : Filter ω → Bool
  | sync _ => false
  | async _ => true

/-- A filter without effects. -/
def ofFunction (run : FilterScope → Classified → List Value → Except FilterError Classified) :
    Filter ω :=
  sync fun scope input args w => (run scope input args, w)

def debugText : Filter ω → String
  | sync _ => "Filter::Sync(..)"
  | async _ => "Filter::Async(..)"

end Filter

/-- Filters by name. -/
structure FilterRegistry (ω : Type) where
  filters : NameMap (Filter ω) := []
  allowOverride : Bool := true

namespace FilterRegistry

variable {ω : Type}

def empty : FilterRegistry ω := {}

def contains (r : FilterRegistry ω) (name : String) : Bool :=
  r.filters.contains name

def names (r : FilterRegistry ω) : List String :=
  r.filters.names

/-- Registers a filter. Reserved names are refused, and so are taken ones unless overrides are
allowed. -/
def register (r : FilterRegistry ω) (name : String) (filter : Filter ω) :
    Except QueryError (FilterRegistry ω) :=
  if isReservedName name then .error (.reservedName name)
  else if !r.allowOverride && r.contains name then .error (.duplicateFilter name)
  else .ok { r with filters := r.filters.insert name filter }

/-- Removes a filter and returns it. -/
def unregister (r : FilterRegistry ω) (name : String) : Option (Filter ω) × FilterRegistry ω :=
  (r.filters.find? name, { r with filters := r.filters.erase name })

def resolve (r : FilterRegistry ω) (name : String) : Except QueryError (Filter ω) :=
  match r.filters.find? name with
  | some filter => .ok filter
  | none => .error (.unknownFilter name)

end FilterRegistry

end QueryTemplate
