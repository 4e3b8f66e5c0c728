import QueryTemplate.Template.Literal
import QueryTemplate.Template.Stock.Arguments

/-!
Filters of the template language on numbers, and conversions to numbers and truth values.
-/

namespace QueryTemplate.Template.NumberFilter

/-- An optional sign and what follows it. -/
def splitSign : List Char → Bool × List Char
  | '-' :: rest => (true, rest)
  | '+' :: rest => (false, rest)
  | text => (false, text)

def integer? (text : List Char) : Option Int :=
  let (negative, digits) := splitSign text
  ((Text.decimal? digits).map fun n => if negative then -(n : Int) else n).filter fun n =>
    Value.minI128 ≤ n && n ≤ Value.maxI128

/-- The exponent part of a number, zero if there is none. -/
def exponent? : List Char → Option Int
  | [] => some 0
  | c :: rest =>
    if c = 'e' || c = 'E' then
      let (negative, digits) := splitSign rest
      (Text.decimal? digits).map fun n => if negative then -(n : Int) else n
    else none

/-- The digits in front of the point, those behind it, and the rest. -/
def splitPoint (text : List Char) : List Char × List Char × List Char :=
  let whole := text.takeWhile Text.isAsciiDigit
  match text.dropWhile Text.isAsciiDigit with
  | '.' :: rest => (whole, rest.takeWhile Text.isAsciiDigit, rest.dropWhile Text.isAsciiDigit)
  | rest => (whole, [], rest)

def unsignedFloat? (text : List Char) : Option Float :=
  let word := String.ofList (text.map Char.toLower)
  if word = "inf" || word = "infinity" then some (1.0 / 0.0)
  else if word = "nan" then some (0.0 / 0.0)
  else
    let (whole, fraction, rest) := splitPoint text
    (Text.decimal? (whole ++ fraction)).bind fun digits =>
      (exponent? rest).map fun e => Number.ofDecimal digits (e - fraction.length)

def float? (text : List Char) : Option Float :=
  let (negative, text) := splitSign text
  (unsignedFloat? text).map fun x => if negative then -x else x

/-- The integer part of a float, cut to 128 bits. -/
def integerPart (x : Float) : Int :=
  if x.isNaN then 0
  else if x.isInf then (if x > 0 then Value.maxI128 else Value.minI128)
  else max Value.minI128 (min Value.maxI128 (Number.truncate x))

def abs : StockFilter := fun _ v args => do
  let _ ← args.upTo 0
  match v with
  | .int n =>
    if n = Value.minI128 then Eval.fail (.invalid "overflow on abs") else return .int n.natAbs
  | .float x => return .float x.abs
  | _ => Eval.fail (.invalid "cannot get absolute value")

/-- Rounds a float, a half away from zero. -/
def roundTo (x : Float) (places : Int) : Float :=
  let scale := Float.pow 10 (Number.ofInt places)
  (x * scale).round / scale

/-- A number of places, which has to fit 32 bits. -/
def placesOf (v : Value) : Eval Int := do
  let n ← Argument.integer v
  if -Int.pow 2 31 ≤ n && n < Int.pow 2 31 then return n else Argument.mismatch v "i32"

def round : StockFilter := fun _ v args => do
  let places ← Argument.optional placesOf args.toList[0]?
  let _ ← args.upTo 1
  match v with
  | .int _ => return v
  | .float x => return .float (roundTo x (places.getD 0))
  | _ => Eval.fail (.invalid "cannot round value")

def int : StockFilter := fun env v args => do
  let _ ← args.upTo 0
  Eval.demand env v
  match v with
  | .undefined => return .int 0
  | .absent => return .int 0
  | .none => return .int 0
  | .bool b => return .int (if b then 1 else 0)
  | .int _ => return v
  | .float x => return .int (integerPart x)
  | v =>
    match v.stringText? with
    | none => Eval.fail (.invalid ("cannot convert " ++ v.kind.name ++ " to integer"))
    | some text =>
      match integer? text.toList, float? text.toList with
      | some n, _ => return .int n
      | none, some x => return .int (integerPart x)
      | none, none => Eval.fail (.invalid "invalid float literal")

def float : StockFilter := fun env v args => do
  let _ ← args.upTo 0
  Eval.demand env v
  match v with
  | .undefined => return .float 0
  | .absent => return .float 0
  | .none => return .float 0
  | v =>
    match Value.asFloat? true v, v.stringText? with
    | some x, _ => return .float x
    | none, some text =>
      match float? text.toList with
      | some x => return .float x
      | none => Eval.fail (.invalid "invalid float literal")
    | none, none => Eval.fail (.invalid ("cannot convert " ++ v.kind.name ++ " to float"))

def bool : StockFilter := fun env v args => do
  let _ ← args.upTo 0
  return .bool (← Eval.truth env v)

/-- The number filter of a name. -/
def find? (name : String) : Option StockFilter :=
  match name with
  | "abs" => some abs
  | "round" => some round
  | "int" => some int
  | "float" => some float
  | "bool" => some bool
  | _ => none

end QueryTemplate.Template.NumberFilter
