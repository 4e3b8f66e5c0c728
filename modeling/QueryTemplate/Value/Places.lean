import QueryTemplate.Value.Number

/-!
The absolute value of a finite float, written with a given number of decimal places. Rounding is
exact, and a half goes to the even neighbour.
-/

namespace QueryTemplate.Number

/-- `|x| * 10 ^ places` as a whole number. -/
def scaled (x : Float) (places : Int) : Nat :=
  let p := parts x
  let num := scaleUp p.mantissa p.exponent * Nat.pow 10 places.toNat
  let den := scaleUp 1 (-p.exponent) * Nat.pow 10 (-places).toNat
  roundAt num den 0

/-- Digits with the last `places` of them behind a point. Without places there is a point only on
demand. -/
def withPoint (digits places : Nat) (keepPoint : Bool) : String :=
  let text := (toString digits).toList
  let padded := List.replicate (places + 1 - text.length) '0' ++ text
  let cut := padded.length - places
  let point := if places = 0 && !keepPoint then "" else "."
  String.ofList (padded.take cut) ++ point ++ String.ofList (padded.drop cut)

/-- Positional notation. -/
def fixed (x : Float) (places : Nat) (keepPoint : Bool) : String :=
  withPoint (scaled x places) places keepPoint

/-- The first `places + 1` digits of a float and the exponent that the first one has. -/
def leading (x : Float) (places : Nat) : Nat × Int :=
  if x == 0 then (0, 0)
  else
    let (digits, exponent) := shortest x
    let guess : Int := exponent + ((toString digits).length - 1 : Nat)
    let guess := if scaled x (places - guess) < Nat.pow 10 places then guess - 1 else guess
    let n := scaled x (places - guess)
    if n = Nat.pow 10 (places + 1) then (Nat.pow 10 places, guess + 1) else (n, guess)

/-- The exponent behind an `e`, with its sign and at least two digits. -/
def exponentText (e : Int) : String :=
  let digits := toString e.natAbs
  (if e < 0 then "-" else "+") ++ (if digits.length < 2 then "0" else "") ++ digits

/-- Scientific notation. -/
def exponential (x : Float) (places : Nat) (keepPoint : Bool) : String :=
  let (digits, e) := leading x places
  withPoint digits places keepPoint ++ "e" ++ exponentText e

/-- Digits without the zeros at the end of their fraction. -/
def dropZeros (text : String) : String :=
  let kept := text.toList.reverse.dropWhile (· == '0')
  let kept := match kept with
    | '.' :: whole => whole
    | digits => digits
  String.ofList kept.reverse

/-- The shorter of the two notations for a number of significant digits. -/
def general (x : Float) (significant : Nat) (keepPoint : Bool) : String :=
  let significant := max 1 significant
  let (digits, e) := leading x (significant - 1)
  let trim (text : String) : String :=
    if keepPoint || !text.contains '.' then text else dropZeros text
  if -4 ≤ e && e < significant then trim (fixed x (significant - 1 - e).toNat keepPoint)
  else trim (withPoint digits (significant - 1) keepPoint) ++ "e" ++ exponentText e

end QueryTemplate.Number
