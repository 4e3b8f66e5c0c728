import QueryTemplate.Captures
import QueryTemplate.Error
import QueryTemplate.Marker
import QueryTemplate.Style

/-!
The second pass of a render: every marker of the marked text is replaced by the placeholder of its
captured value, and the values are collected in the order of the placeholders.

The keys of mapping styles come from the name hints. The first use of a key keeps it bare, later
ones get `_1`, `_2`, … appended, and names that are taken already are passed over.
-/

namespace QueryTemplate

/-- The parameters of a query, in the order of their placeholders. -/
inductive Params where
  | named (entries : List (String × Value))
  | positional (values : List Value)

namespace Params

def length : Params → Nat
  | named entries => entries.length
  | positional values => values.length

def isEmpty (p : Params) : Bool :=
  p.length == 0

def get? (p : Params) (key : String) : Option Value :=
  match p with
  | named entries => entries.lookup key
  | positional _ => none

def values : Params → List Value
  | named entries => entries.map (·.2)
  | positional values => values

/-- The values as parameters without keys, in the order of their placeholders. -/
def toPositional : Params → List Value
  | named entries => entries.map (·.2)
  | positional values => values

def getIndex? (p : Params) (index : Nat) : Option Value :=
  p.values[index]?

end Params

/-- A query with placeholders and its parameters. -/
structure RenderedQuery where
  query : String
  params : Params

/-- A query with markers and the values they stand for. -/
structure MarkedQuery where
  text : String
  captures : CaptureList

/-- Hands out keys, each at most once. `counters` remembers for each base the last number tried, so
that a search does not begin from one again. -/
structure KeyAllocator where
  taken : List String := []
  counters : List (String × Nat) := []

namespace KeyAllocator

def numbered (base : String) (n : Nat) : String :=
  base ++ "_" ++ toString n

/-- The first number after `n` whose key is free, looking at no more than `fuel` of them. -/
def nextFree (taken : List String) (base : String) : (fuel n : Nat) → Nat
  | 0, n => n + 1
  | fuel + 1, n =>
    if taken.contains (numbered base (n + 1)) then nextFree taken base fuel (n + 1) else n + 1

/-- A key for `base` that was not handed out before. Of `taken.length + 1` numbers one is free. -/
def allocate (keys : KeyAllocator) (base : String) : String × KeyAllocator :=
  if keys.taken.contains base then
    let n := nextFree keys.taken base keys.taken.length ((keys.counters.lookup base).getD 0)
    let key := numbered base n
    (key, ⟨key :: keys.taken, (base, n) :: keys.counters⟩)
  else (base, { keys with taken := base :: keys.taken })

end KeyAllocator

/-- Binds a key in a mapping. A key that is bound already keeps its place and gets the new value. -/
def bindKey (key : String) (v : Value) : List (String × Value) → List (String × Value)
  | [] => [(key, v)]
  | (k, w) :: rest => if k = key then (k, v) :: rest else (k, w) :: bindKey key v rest

/-- A name hint as a key: dots become double underscores. -/
def keyOfHint (hint : String) : String :=
  String.ofList (hint.toList.flatMap fun c => if c == '.' then ['_', '_'] else [c])

/-- What has been formatted so far. -/
structure Formatted where
  query : String := ""
  keys : KeyAllocator := {}
  bound : List (String × Value) := []

namespace Formatted

/-- Writes the placeholder of a captured value. Its position is counted from what is bound. -/
def bind (style : ParamStyle) (capture : Capture) (f : Formatted) : Formatted :=
  let position := f.bound.length + 1
  match style.container with
  | .mapping =>
    let base := match capture.hint with
      | some hint => keyOfHint hint
      | none => "param_" ++ toString position
    let (key, keys) := f.keys.allocate base
    ⟨f.query ++ style.placeholder key position, keys, bindKey key capture.value f.bound⟩
  | .sequence =>
    let key := match capture.hint with
      | some hint => keyOfHint hint
      | none => toString position
    ⟨f.query ++ style.placeholder key position, f.keys, f.bound ++ [(key, capture.value)]⟩

def finish (style : ParamStyle) (f : Formatted) : RenderedQuery :=
  match style.container with
  | .mapping => ⟨f.query, .named f.bound⟩
  | .sequence => ⟨f.query, .positional (f.bound.map (·.2))⟩

end Formatted

def missingCapture (index count : Nat) : QueryError :=
  .markerCollision ("marker #" ++ toString index ++ " has no captured value (" ++
    toString count ++ " captured)")

def formatSegments (captures : CaptureList) (style : ParamStyle) :
    List Segment → Formatted → Except QueryError Formatted
  | [], f => .ok f
  | .text run :: rest, f =>
    formatSegments captures style rest { f with query := f.query ++ String.ofList run }
  | .marker index :: rest, f =>
    match captures.get? index with
    | some capture => formatSegments captures style rest (f.bind style capture)
    | none => .error (missingCapture index captures.length)

/-- Replaces the markers of a marked text by placeholders. -/
def formatQuery (text : String) (captures : CaptureList) (style : ParamStyle) :
    Except QueryError RenderedQuery :=
  match segments text.toList with
  | .error e => .error (.markerCollision e.message)
  | .ok segments =>
    match formatSegments captures style segments {} with
    | .ok f => .ok (f.finish style)
    | .error e => .error e

namespace MarkedQuery

def format (marked : MarkedQuery) (style : ParamStyle) : Except QueryError RenderedQuery :=
  formatQuery marked.text marked.captures style

end MarkedQuery

end QueryTemplate
