import QueryTemplate.Error
import QueryTemplate.Value.Order

/-!
The operators of expressions on values. Integers are computed exactly and must fit 128 bits; a
float operand makes the operation one on floats.
-/

namespace QueryTemplate.Value

def minI64 : Int := -Int.pow 2 63

def maxI64 : Int := Int.pow 2 63 - 1

/-- A result that fits a signed integer of 128 bits. -/
def checkedInt (n : Int) (failure : EngineError) : Except EngineError Value :=
  if minI128 ≤ n && n ≤ maxI128 then .ok (int n) else .error failure

def failedOperation (op : String) (a b : Value) : EngineError :=
  .invalid ("unable to calculate " ++ a.text ++ " " ++ op ++ " " ++ b.text)

def unsupportedOperation (op : String) (a b : Value) : EngineError :=
  .invalid ("tried to use " ++ op ++ " operator on unsupported types " ++ a.kind.name ++ " and " ++
    b.kind.name)

/-- Conversion to an integer within the given bounds: booleans and integral floats count. -/
def toIntWithin? (low high : Int) (v : Value) : Option Int :=
  let n? := match v with
    | bool b => some (if b then 1 else 0)
    | int n => some n
    | float x => (Number.toInt? x).filter fun n => minI64 ≤ n && n ≤ maxI64
    | _ => Option.none
  n?.filter fun n => low ≤ n && n ≤ high

def toIndex? (v : Value) : Option Int :=
  toIntWithin? minI64 maxI64 v

def toCount? (v : Value) : Option Nat :=
  (toIntWithin? 0 (Int.pow 2 64 - 1) v).map Int.toNat

/-- An operator on numbers, given on integers and on floats. -/
def arithmetic (op : String) (onInts : Int → Int → Option Int) (onFloats : Float → Float → Float)
    (a b : Value) : Except EngineError Value :=
  match coerce true a b with
  | some (.ints x y) =>
    match onInts x y with
    | some n => checkedInt n (failedOperation op a b)
    | Option.none => .error (failedOperation op a b)
  | some (.floats x y) => .ok (float (onFloats x y))
  | Option.none => .error (unsupportedOperation op a b)

/-- Whether an iterable comes to an end without a failure. -/
def isComplete : Value → Bool
  | stream _ complete => complete
  | _ => true

/-- An iterable made of others: its length is known if theirs is. -/
def iterOf (sources : List Value) (items : List Value) : Value :=
  let isStream : Value → Bool
    | stream _ _ => true
    | _ => false
  if sources.any isStream then stream items (sources.all isComplete) else iter items

def add (a b : Value) : Except EngineError Value :=
  match a.elements?, b.elements? with
  | some xs, some ys => .ok (iterOf [a, b] (if a.isComplete then xs ++ ys else xs))
  | _, _ =>
    match a.stringText?, b.stringText? with
    | some x, some y => .ok (str (x ++ y))
    | _, _ => arithmetic "+" (fun x y => some (x + y)) (· + ·) a b

def sub : Value → Value → Except EngineError Value :=
  arithmetic "-" (fun x y => some (x - y)) (· - ·)

/-- The largest sequence a repetition may make. -/
def maxRepetition : Nat := Nat.pow 2 24

def repeatText (text : String) (count : Value) : Except EngineError Value :=
  match count.toCount? with
  | some n =>
    if n * text.utf8ByteSize > maxRepetition then .error (.invalid "repetition is too large")
    else .ok (str (String.join (List.replicate n text)))
  | Option.none => .error (.invalid "strings can only be multiplied with integers")

def repeatItems (items : List Value) (count : Value) : Except EngineError Value :=
  match count.toCount? with
  | some n =>
    if n * items.length > maxRepetition then .error (.invalid "repetition is too large")
    else .ok (iter (List.replicate n items).flatten)
  | Option.none =>
    .error (.invalid "sequences and iterables can only be multiplied with integers")

def mul (a b : Value) : Except EngineError Value :=
  match a.asString?, b.asString? with
  | some text, _ => repeatText text b
  | Option.none, some text => repeatText text a
  | Option.none, Option.none =>
    match a, b with
    | stream _ _, _ => .error (.invalid "cannot repeat unsized iterables")
    | _, stream _ _ => .error (.invalid "cannot repeat unsized iterables")
    | _, _ =>
      match a.elements?, b.elements? with
      | some items, _ => repeatItems items b
      | Option.none, some items => repeatItems items a
      | Option.none, Option.none => arithmetic "*" (fun x y => some (x * y)) (· * ·) a b

def div (a b : Value) : Except EngineError Value :=
  match asFloat? true a, asFloat? true b with
  | some x, some y => .ok (float (x / y))
  | _, _ => .error (unsupportedOperation "/" a b)

def floorDiv : Value → Value → Except EngineError Value :=
  arithmetic "//" (fun x y => if y == 0 then Option.none else some (x / y))
    Number.euclideanQuotient

def rem : Value → Value → Except EngineError Value :=
  arithmetic "%" (fun x y => if y == 0 then Option.none else some (x % y))
    Number.floatRemainder

/-- A power of integers. The exponent is cut at 128 for a base that would leave the range anyway,
so that no larger number is ever computed. -/
def powInt (x y : Int) : Option Int :=
  if y < 0 || y ≥ Int.pow 2 32 then Option.none
  else if x == 0 || x == 1 then some (if y == 0 then 1 else x)
  else if x == -1 then some (if y % 2 == 0 then 1 else -1)
  else if y > 128 then Option.none
  else some (Int.pow x y.toNat)

def pow : Value → Value → Except EngineError Value :=
  arithmetic "**" powInt Float.pow

/-- The negative of a number. The integer that has only a negative in 128 bits stays as it is. -/
def neg (v : Value) : Except EngineError Value :=
  match v with
  | int n => if n = Int.pow 2 127 then .ok (int n) else checkedInt (-n) (.invalid "overflow")
  | float x => .ok (float (-x))
  | _ => .error { kind := .invalidOperation }

/-- Whether a value counts as true in a condition. -/
def isTrue : Value → Bool
  | undefined => false
  | absent => false
  | none => false
  | bool b => b
  | int n => n != 0
  | float x => x != 0
  | str text => !text.isEmpty
  | safe text => !text.isEmpty
  | bytes content => !content.isEmpty
  | list items => !items.isEmpty
  | params items => !items.isEmpty
  | iter items => !items.isEmpty
  | stream _ _ => true
  | group _ _ => true
  | map entries => !entries.isEmpty
  | package _ entries => !entries.isEmpty
  | bound .. => true
  | object _ => true

/-- An index counted from the front, or from the back if it is negative. -/
def position? (key : Value) (length : Nat) : Option Nat :=
  match key.toIndex? with
  | some n =>
    if n ≥ 0 then some n.toNat
    else if n.natAbs ≤ length then some (length - n.natAbs) else Option.none
  | Option.none => Option.none

def nth? (items : List Value) (key : Value) : Option Value :=
  (position? key items.length).bind fun i => items[i]?

/-- A bound of a slice of `length` elements: counted from the front, or from the back if it is
negative. One in front of the first element stands for the first. -/
def sliceBound (length : Nat) (n : Int) : Nat :=
  if n < 0 then (n + length).toNat else n.toNat

/-- The offset and the length of the part of `length` elements that a slice takes. -/
def sliceBounds (start : Int) (stop : Option Int) (length : Nat) : Nat × Nat :=
  let first := sliceBound length start
  let last := (stop.map (sliceBound length)).getD length
  (first, last - first)

/-- Every `step`-th element, beginning with the first. `skip` elements are passed over before the
next one is taken. -/
def everyNth {α : Type} (step skip : Nat) : List α → List α
  | [] => []
  | x :: rest =>
    match skip with
    | 0 => x :: everyNth step (step - 1) rest
    | skip + 1 => everyNth step skip rest

/-- The part of a list that a slice with a positive step takes, if the list counts as one of
`length` elements. -/
def slicePart {α : Type} (items : List α) (length : Nat) (start : Int) (stop : Option Int)
    (step : Nat) : List α :=
  let (first, count) := sliceBounds start stop length
  everyNth step 0 ((items.drop first).take count)

/-- The part of a list that a slice with the negative step `-step` takes: from `start` backwards. It
ends in front of the item `stop`; one that ends at the first item includes it. -/
def sliceBackwards {α : Type} (items : List α) (start stop : Option Int) (step : Nat) : List α :=
  let length := items.length
  let first := min ((start.map (sliceBound length)).getD length) (length - 1)
  let last := (stop.map (sliceBound length)).getD 0
  let lowest := if last = 0 then 0 else last + 1
  everyNth step 0 ((items.take (first + 1)).drop lowest).reverse

/-- The part of a list that a slice takes. The step is not zero. -/
def sliceList {α : Type} (items : List α) (start stop : Option Int) (step : Int) : List α :=
  if step > 0 then slicePart items items.length (start.getD 0) stop step.toNat
  else sliceBackwards items start stop step.natAbs

/-- The part of a stream that a slice takes. Only one that goes backwards asks for its length; for
the others its end is in front of its first element. -/
def sliceStream (items : List Value) (complete : Bool) (start stop : Option Int) (step : Int) :
    Value :=
  if step < 0 then iter (sliceBackwards items start stop step.natAbs)
  else if (sliceBounds (start.getD 0) stop 0).2 = 0 then iter []
  else stream (slicePart items 0 (start.getD 0) stop step.toNat) complete

def slice (v start stop step : Value) : Except EngineError Value :=
  let bound? (b : Value) : Except EngineError (Option Int) :=
    match b with
    | none => .ok Option.none
    | b =>
      match b.toIndex? with
      | some n => .ok (some n)
      | Option.none => .error (.invalid ("cannot convert " ++ b.kind.name ++ " to i64"))
  match bound? start, bound? stop, bound? step with
  | .error e, _, _ => .error e
  | _, .error e, _ => .error e
  | _, _, .error e => .error e
  | .ok start, .ok stop, .ok step =>
    let step := step.getD 1
    if step == 0 then .error (.invalid "cannot slice by step size of 0")
    else
      match v with
      | undefined => .ok (list [])
      | absent => .ok (list [])
      | none => .ok (list [])
      | bytes content => .ok (bytes (sliceList content start stop step))
      | stream items complete => .ok (sliceStream items complete start stop step)
      | v =>
        match v.stringText?, v.elements? with
        | some text, _ => .ok (str (String.ofList (sliceList text.toList start stop step)))
        | Option.none, some items => .ok (iter (sliceList items start stop step))
        | Option.none, Option.none =>
          .error (.invalid ("value of type " ++ v.kind.name ++ " cannot be sliced"))

end QueryTemplate.Value
