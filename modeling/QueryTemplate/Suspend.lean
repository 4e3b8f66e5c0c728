import QueryTemplate.Filter.Registry

/-!
Waiting without interrupting the template engine. A render that meets a computation without a
result is abandoned, the computation is awaited, its result recorded, and the render run again.
The records of earlier runs answer for everything that has been computed already.
-/

namespace QueryTemplate

/-- What an abandoned render waits for. -/
inductive Suspension (ω : Type) where
  | lookup (name : String) (future : Future ω Value)
  | filter (name : String) (ordinal : Nat) (future : Future ω Classified)

namespace Suspension

variable {ω : Type}

def name : Suspension ω → String
  | lookup name _ => name
  | filter name _ _ => name

def debugText : Suspension ω → String
  | lookup name _ => "Lookup \x7b name: " ++ Text.quoted name ++ ", .. \x7d"
  | filter name ordinal _ =>
    "Filter \x7b name: " ++ Text.quoted name ++ ", ordinal: " ++ toString ordinal ++ ", .. \x7d"

end Suspension

/-- Outputs of filter calls by their ordinal, with the names of the filters. -/
abbrev CallLog := List (String × Classified)

namespace CallLog

/-- The recorded output of a call. A call of another filter than the recorded one means that the
render took another course than before. -/
def output (log : CallLog) (ordinal : Nat) (name : String) :
    Except QueryError (Option Classified) :=
  match log[ordinal]? with
  | none => .ok none
  | some (expected, value) =>
    if expected = name then .ok (some value) else .error (.replayDiverged ordinal expected name)

/-- Records the output of the next call; other ordinals are ignored. -/
def record (log : CallLog) (ordinal : Nat) (name : String) (value : Classified) : CallLog :=
  if ordinal = log.length then log ++ [(name, value)] else log

end CallLog

/-- The results of what was waited for: deferred variables by name, async filter calls by their
ordinal. -/
structure Resolutions where
  lookups : List (String × Value) := []
  filters : CallLog := []

namespace Resolutions

variable {ω : Type}

def empty : Resolutions := {}

def lookup? (r : Resolutions) (name : String) : Option Value :=
  r.lookups.lookup name

def filter (r : Resolutions) (ordinal : Nat) (name : String) :
    Except QueryError (Option Classified) :=
  r.filters.output ordinal name

def length (r : Resolutions) : Nat :=
  r.lookups.length + r.filters.length

def insertLookup (name : String) (v : Value) : List (String × Value) → List (String × Value)
  | [] => [(name, v)]
  | (n, w) :: rest => if n = name then (n, v) :: rest else (n, w) :: insertLookup name v rest

/-- Awaits a suspension and records its result. A filter call must be the next one, or its
computation is not awaited at all. -/
def resolve (r : Resolutions) (s : Suspension ω) (w : ω) : Except QueryError Resolutions × ω :=
  match s with
  | .lookup name future =>
    match future w with
    | (.ok v, w) => (.ok { r with lookups := insertLookup name v r.lookups }, w)
    | (.error e, w) => (.error (.deferredValue name e), w)
  | .filter name ordinal future =>
    if ordinal = r.filters.length then
      match future w with
      | (.ok v, w) => (.ok { r with filters := r.filters ++ [(name, v)] }, w)
      | (.error e, w) => (.error (.filterExecution name e), w)
    else
      (.error (.replayDiverged ordinal ("async call #" ++ toString r.filters.length) name), w)

end Resolutions

end QueryTemplate
