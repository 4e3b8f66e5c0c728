import QueryTemplate.Value.Show

/-!
Equality and order of values as templates see them. Numbers and booleans are compared by value
across their types, sequences and iterables by their elements, and values of different kinds are
ordered by kind.
-/

namespace QueryTemplate

/-- Two numbers brought to a common type. -/
inductive NumberPair where
  | ints (a b : Int)
  | floats (a b : Float)

namespace Value

def maxI128 : Int := Int.pow 2 127 - 1

def minI128 : Int := -Int.pow 2 127

/-- The integer value of a boolean or integer. -/
def asInt? : Value → Option Int
  | bool b => some (if b then 1 else 0)
  | int n => some n
  | _ => Option.none

/-- The float value of a boolean or number. With `lossy` unset an integer must be representable. -/
def asFloat? (lossy : Bool) : Value → Option Float
  | bool b => some (if b then 1 else 0)
  | int n =>
    let x := Number.ofInt n
    if lossy || Number.toInt? x == some n then some x else Option.none
  | float x => some x
  | _ => Option.none

/-- Brings two numbers to a common type: a float if one of them is a float. Two integers beyond the
signed ones of 128 bits are taken as signed ones with the same bits; one alone is no number to count
with. -/
def coerce (lossy : Bool) (a b : Value) : Option NumberPair :=
  match a, b with
  | float x, b => (asFloat? lossy b).map (.floats x)
  | a, float y => (asFloat? lossy a).map fun x => .floats x y
  | a, b => do
    let x ← asInt? a
    let y ← asInt? b
    if x ≤ maxI128 && y ≤ maxI128 then some (.ints x y)
    else if x > maxI128 && y > maxI128 then some (.ints (x - Int.pow 2 128) (y - Int.pow 2 128))
    else Option.none

/-- The elements of a sequence or iterable. -/
def elements? : Value → Option (List Value)
  | list items => some items
  | iter items => some items
  | stream items _ => some items
  | group key members => some [key, iter members]
  | params items => some items
  | _ => Option.none

/-- The entries of a map whose content is at hand. -/
def entries? : Value → Option (List (Value × Value))
  | map entries => some entries
  | package _ entries => some entries
  | _ => Option.none

/-- The order of floats: by value, and where there is none, by sign and magnitude of the bits. -/
def compareFloat (x y : Float) : Ordering :=
  let key (x : Float) : Int :=
    let bits := x.toBits.toNat
    if bits < Nat.pow 2 63 then bits else -(bits - Nat.pow 2 63 : Nat) - 1
  if x == y then .eq else compare (key x) (key y)

/-- The order of an integer and a float by their exact values. -/
def compareExact (n : Int) (x : Float) : Ordering :=
  if x.isNaN then (if Number.isNegative x then .gt else .lt)
  else if x.isInf then (if Number.isNegative x then .gt else .lt)
  else
    let whole := Number.truncate x
    match compare n whole with
    | .eq =>
      let fraction := x - Number.ofInt whole
      if fraction > 0 then .lt else if fraction < 0 then .gt else .eq
    | other => other

/-- The order of two values without elements. -/
def compareLeaf (a b : Value) : Ordering :=
  match compare a.kind.rank b.kind.rank with
  | .eq =>
    match a, b with
    | bool x, bool y => compare x.toNat y.toNat
    | int x, int y => compare x y
    | float x, float y => compareFloat x y
    | int x, float y => compareExact x y
    | float x, int y => (compareExact y x).swap
    | bytes x, bytes y => compare (x.map UInt8.toNat) (y.map UInt8.toNat)
    | none, _ => .eq
    | _, _ => if a.isUndefined then .eq else compare a.text.toList b.text.toList
  | other => other

mutual

/-- The order of values used by sorting and by the comparison operators. -/
def order : Value → Value → Ordering
  | list items, b =>
    match b.kind, b.elements? with
    | .sequence, some other => orderItems items other
    | _, _ => compareLeaf (list []) b
  | params items, b =>
    match b.kind, b.elements? with
    | .sequence, some other => orderItems items other
    | _, _ => compareLeaf (params []) b
  | group key members, b =>
    match b.kind, b.elements? with
    | .sequence, some (first :: second :: more) =>
      ((order key first).then (orderIter members second)).then (if more.isEmpty then .eq else .lt)
    | .sequence, some [first] => (order key first).then .gt
    | .sequence, some [] => .gt
    | _, _ => compareLeaf (group none []) b
  | iter items, b => orderIter items b
  | stream items _, b => orderIter items b
  | map entries, b =>
    match b.entries? with
    | some other => orderEntries entries other
    | Option.none => compareLeaf (map []) b
  | package text entries, b =>
    match b.entries? with
    | some other => orderEntries entries other
    | Option.none => compareLeaf (package text []) b
  | a, b => compareLeaf a b

def orderIter (items : List Value) (b : Value) : Ordering :=
  match b.kind, b.elements? with
  | .iterator, some other => orderItems items other
  | _, _ => compareLeaf (iter []) b

def orderItems : List Value → List Value → Ordering
  | [], [] => .eq
  | [], _ :: _ => .lt
  | _ :: _, [] => .gt
  | a :: as, b :: bs => (order a b).then (orderItems as bs)

def orderEntries : List (Value × Value) → List (Value × Value) → Ordering
  | [], [] => .eq
  | [], _ :: _ => .lt
  | _ :: _, [] => .gt
  | (k, v) :: as, (l, w) :: bs => ((order k l).then (order v w)).then (orderEntries as bs)

end

/-- Equality of two values without elements. -/
def equalLeaf (a b : Value) : Bool :=
  match coerce false a b with
  | some (.ints x y) => x == y
  | some (.floats x y) => x == y
  | Option.none =>
    match a, b with
    | none, none => true
    | bytes x, bytes y => x == y
    | object r, object s => r == s || (r.kind == .plain && s.kind == .plain && r.text == s.text)
    | _, _ =>
      a.kind == b.kind &&
        (a.isUndefined || ((a.kind == .string || a.kind == .plain) && a.text == b.text))

mutual

/-- Equality of values: `==` of a template. -/
def equal : Value → Value → Bool
  | list items, b => equalElements items b.elements?
  | params items, b => equalElements items b.elements?
  | iter items, b => equalElements items b.elements?
  | stream items _, b => equalElements items b.elements?
  | group key members, b =>
    match b.elements? with
    | some [otherKey, others] => equal key otherKey && equalElements members others.elements?
    | _ => false
  | map entries, b => equalEntries entries b.entries?
  | package _ entries, b => equalEntries entries b.entries?
  | a, b => equalLeaf a b

def equalElements : List Value → Option (List Value) → Bool
  | [], some [] => true
  | a :: as, some (b :: bs) => equal a b && equalElements as (some bs)
  | _, _ => false

def equalEntries : List (Value × Value) → Option (List (Value × Value)) → Bool
  | [], some [] => true
  | (k, v) :: as, some ((l, w) :: bs) =>
    order k l == .eq && equal v w && equalEntries as (some bs)
  | _, _ => false

end

/-- The value at a key of sorted entries. -/
def findKey (key : Value) : List (Value × Value) → Option Value
  | [] => Option.none
  | (k, v) :: rest => if order k key == .eq then some v else findKey key rest

/-- Puts an entry at its place among sorted entries; an entry with an equal key is replaced. -/
def insertKey (key value : Value) : List (Value × Value) → List (Value × Value)
  | [] => [(key, value)]
  | (k, v) :: rest =>
    match order key k with
    | .lt => (key, value) :: (k, v) :: rest
    | .eq => (k, value) :: rest
    | .gt => (k, v) :: insertKey key value rest

/-- A map of the entries, of which the later of two with equal keys counts. -/
def mapOf (entries : List (Value × Value)) : Value :=
  map (entries.foldl (fun sorted (k, v) => insertKey k v sorted) [])

end Value

end QueryTemplate
