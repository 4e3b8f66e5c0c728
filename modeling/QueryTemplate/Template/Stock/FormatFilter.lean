import QueryTemplate.Template.Stock.Arguments
import QueryTemplate.Value.Places

/-!
The `format` filter: a text in which directives such as `%5.2f` stand for the arguments.
-/

namespace QueryTemplate.Template.FormatFilter

/-- A width or precision. -/
inductive Size where
  | unset
  | fixed (n : Nat)
  /-- The size is an argument of its own, in front of the value. -/
  | given

/-- How an argument is written. -/
structure Directive where
  /-- The name of the argument, if it is passed by name. -/
  name : Option String := none
  leftAligned : Bool := false
  zeroPadded : Bool := false
  plusSign : Bool := false
  blankSign : Bool := false
  alternate : Bool := false
  width : Size := .unset
  precision : Size := .unset
  conversion : Char := 's'

/-- A part of a format text. -/
inductive Part where
  | text (run : List Char)
  | directive (d : Directive)

/-- Reads the flags of a directive. -/
def readFlags (d : Directive) : List Char → Directive × List Char
  | '-' :: rest => readFlags { d with leftAligned := true } rest
  | '0' :: rest => readFlags { d with zeroPadded := true } rest
  | '+' :: rest => readFlags { d with plusSign := true } rest
  | ' ' :: rest => readFlags { d with blankSign := true } rest
  | '#' :: rest => readFlags { d with alternate := true } rest
  | rest => (d, rest)

/-- Reads a width or precision; `missing` is what there is without one. -/
def readSize (missing : Size) : List Char → Size × List Char
  | '*' :: rest => (.given, rest)
  | text =>
    match Text.decimal? (text.takeWhile Text.isAsciiDigit) with
    | some n => (.fixed n, text.dropWhile Text.isAsciiDigit)
    | none => (missing, text)

/-- Reads a directive behind its percent sign. -/
def readDirective (text : List Char) : Option (Directive × List Char) := do
  let (name, text) ← match text with
    | '(' :: rest => (Text.splitAtFirst [')'] rest).map fun (name, rest) =>
      (some (String.ofList name), rest)
    | text => some (none, text)
  let (d, text) := readFlags { name } text
  let (width, text) := readSize .unset text
  let (precision, text) := match text with
    | '.' :: rest => readSize (.fixed 0) rest
    | text => (.unset, text)
  let text := text.dropWhile fun c => c == 'h' || c == 'l' || c == 'L'
  match text with
  | [] => none
  | conversion :: rest => some ({ d with width, precision, conversion }, rest)

/-- The parts of a format text; nothing if a directive is not complete. The first argument bounds
their number. -/
def parts? : Nat → List Char → Option (List Part)
  | 0, _ => some []
  | fuel + 1, text => do
    match text.takeWhile (· != '%'), text.dropWhile (· != '%') with
    | run, [] => return [.text run]
    | run, _ :: rest => do
      let (d, rest) ← readDirective rest
      return .text run :: .directive d :: (← parts? fuel rest)

def failed {α : Type} (detail : String) : Eval α :=
  Eval.fail (.invalid detail)

/-- Brings a text to a width. Zeros go between the sign and the digits. -/
def pad (d : Directive) (width : Nat) (sign digits : String) (isNumber : Bool) : String :=
  let missing := width - (sign.length + digits.length)
  let fill (c : Char) : String := String.ofList (List.replicate missing c)
  if d.leftAligned then sign ++ digits ++ fill ' '
  else if d.zeroPadded && isNumber then sign ++ fill '0' ++ digits
  else fill ' ' ++ sign ++ digits

def signOf (d : Directive) (isNegative : Bool) : String :=
  if isNegative then "-" else if d.plusSign then "+" else if d.blankSign then " " else ""

/-- The integer of a value that is written as one; a float is cut. -/
def integerOf (v : Value) : Eval Int :=
  match v with
  | .bool b => return if b then 1 else 0
  | .int n => return n
  | .float x => if x.isFinite then return Number.truncate x else failed "number is not finite"
  | v => failed ("an integer is required, not " ++ v.kind.name)

/-- The integer of a value that is written in another base, for which there are no floats. -/
def wholeOf (v : Value) : Eval Int :=
  match v with
  | .float _ => failed "an integer is required, not a float"
  | v => integerOf v

def floatOf (v : Value) : Eval Float :=
  match Value.asFloat? true v with
  | some x => return x
  | none => failed ("a number is required, not " ++ v.kind.name)

def baseDigits (base n : Nat) : String :=
  String.ofList (Nat.toDigits base n)

/-- An integer in a base, with at least as many digits as the precision says. -/
def integerText (d : Directive) (width : Nat) (precision : Option Nat) (head : String)
    (base : Nat) (upper : Bool) (n : Int) : String :=
  let digits := baseDigits base n.natAbs
  let digits := if upper then digits.toUpper else digits
  let zeros := String.ofList (List.replicate (precision.getD 0 - digits.length) '0')
  pad d width (signOf d (n < 0) ++ (if d.alternate then head else "")) (zeros ++ digits) true

/-- A float in the notation that a conversion asks for. -/
def floatText (d : Directive) (width : Nat) (precision : Option Nat) (x : Float) : String :=
  let places := precision.getD 6
  let digits :=
    if x.isNaN then "nan"
    else if x.isInf then "inf"
    else
      match d.conversion.toLower with
      | 'e' => Number.exponential x places d.alternate
      | 'g' => Number.general x places d.alternate
      | _ => Number.fixed x places d.alternate
  let digits := if d.conversion.isUpper then digits.toUpper else digits
  pad d width (signOf d (Number.isNegative x && !x.isNaN)) digits x.isFinite

/-- A character, given as such or by its number. -/
def charText (v : Value) : Eval String :=
  match v, v.asString?.map String.toList with
  | _, some [c] => return c.toString
  | .int n, _ =>
    if 0 ≤ n && n.toNat.isValidChar then return (Char.ofNat n.toNat).toString
    else failed "character out of range"
  | _, _ => failed "a character is required"

/-- A value written as a directive says. -/
def written (env : Environment) (d : Directive) (width : Nat) (precision : Option Nat)
    (v : Value) : Eval String := do
  let cut (text : String) : String :=
    match precision with
    | some n => String.ofList (text.toList.take n)
    | none => text
  match d.conversion with
  | 's' => return pad d width "" (cut (← Eval.textOf env v)) false
  | 'r' => return pad d width "" (cut (← Eval.snapshot env v).debugText) false
  | 'c' => return pad d width "" (← charText v) false
  | 'd' => return integerText d width precision "" 10 false (← integerOf v)
  | 'i' => return integerText d width precision "" 10 false (← integerOf v)
  | 'u' => return integerText d width precision "" 10 false (← integerOf v)
  | 'o' => return integerText d width precision "0o" 8 false (← wholeOf v)
  | 'x' => return integerText d width precision "0x" 16 false (← wholeOf v)
  | 'X' => return integerText d width precision "0X" 16 true (← wholeOf v)
  | c =>
    if ['e', 'E', 'f', 'F', 'g', 'G'].contains c then
      return floatText d width precision (← floatOf v)
    else failed ("unsupported format character " ++ Text.quoted c.toString)

/-- The next of the arguments and those behind it. -/
def next (given : List Value) : Eval (Value × List Value) :=
  match given with
  | v :: rest => return (v, rest)
  | [] => failed "not enough arguments for format string"

/-- The value of a width or precision, and the arguments that are left. -/
def sizeOf (size : Size) (given : List Value) : Eval (Option Int × List Value) := do
  match size with
  | .unset => return (none, given)
  | .fixed n => return (some n, given)
  | .given => do
    let (v, rest) ← next given
    return (some (← Argument.integer v), rest)

/-- Writes the parts one after the other. A negative width is one for text aligned to the left. -/
def fill (env : Environment) (args : CallArgs) : List Part → List Value → Eval String
  | [], given =>
    if given.isEmpty then return "" else failed "not all arguments used by format string"
  | .text run :: rest, given => return String.ofList run ++ (← fill env args rest given)
  | .directive d :: rest, given => do
    let (width, given) ← sizeOf d.width given
    let (precision, given) ← sizeOf d.precision given
    let n := width.getD 0
    let d := { d with leftAligned := d.leftAligned || n < 0 }
    let precision := precision.map Int.toNat
    if d.conversion = '%' then return "%" ++ (← fill env args rest given)
    match d.name with
    | none => do
      let (v, given) ← next given
      return (← written env d n.natAbs precision v) ++ (← fill env args rest given)
    | some name =>
      match args.named? name with
      | some v =>
        return (← written env d n.natAbs precision v) ++ (← fill env args rest given)
      | none => failed ("missing argument " ++ Text.quoted name)

/-- Puts the arguments into a format text. They are passed either by position or by name. -/
def format : StockFilter := fun env v args => do
  let text ← Argument.text env v
  if !args.positional.isEmpty && args.named.isSome then
    failed "positional and named arguments cannot be mixed"
  match parts? (text.length + 1) text.toList with
  | some parts => return .str (← fill env args parts args.positional)
  | none => failed "incomplete format"

end QueryTemplate.Template.FormatFilter
