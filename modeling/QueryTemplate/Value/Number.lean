/-!
Exact arithmetic on binary floating point numbers: taking them apart, rounding a ratio to the
nearest one, and their shortest decimal digits.
-/

namespace QueryTemplate.Number

/-- A finite float: `± mantissa * 2 ^ exponent`. -/
structure Parts where
  negative : Bool
  mantissa : Nat
  exponent : Int
  deriving DecidableEq, Repr

def parts (x : Float) : Parts :=
  let bits := x.toBits.toNat
  let biased : Nat := bits / Nat.pow 2 52 % Nat.pow 2 11
  let fraction : Nat := bits % Nat.pow 2 52
  let negative := bits / Nat.pow 2 63 == 1
  if biased == 0 then ⟨negative, fraction, -1074⟩
  else ⟨negative, fraction + Nat.pow 2 52, (biased : Int) - 1075⟩

def isNegative (x : Float) : Bool :=
  x.toBits.toNat / Nat.pow 2 63 == 1

def scaleUp (n : Nat) (e : Int) : Nat :=
  n * Nat.pow 2 e.toNat

/-- Rounds `num / den` to a multiple of `2 ^ e`, ties to even, and returns the multiple. -/
def roundAt (num den : Nat) (e : Int) : Nat :=
  let num := scaleUp num (-e)
  let den := scaleUp den e
  let q := num / den
  let r := num % den
  if 2 * r > den || (2 * r == den && q % 2 == 1) then q + 1 else q

/-- The float nearest to `± num / den`, ties to even; overflow gives an infinity. -/
def ofRatio (negative : Bool) (num den : Nat) : Float :=
  let sign := if negative then Nat.pow 2 63 else 0
  if num == 0 || den == 0 then Float.ofBits (UInt64.ofNat sign)
  else
    let guess : Int := (num.log2 : Int) - (den.log2 : Int) - 52
    let tooLarge := scaleUp num (-guess) < Nat.pow 2 52 * scaleUp den guess
    let e := max (if tooLarge then guess - 1 else guess) (-1074)
    let q := roundAt num den e
    let (q, e) := if q == Nat.pow 2 53 then (Nat.pow 2 52, e + 1) else (q, e)
    if e > 971 then Float.ofBits (UInt64.ofNat (sign + 2047 * Nat.pow 2 52))
    else if q < Nat.pow 2 52 then Float.ofBits (UInt64.ofNat (sign + q))
    else Float.ofBits (UInt64.ofNat (sign + (e + 1075).toNat * Nat.pow 2 52 + (q - Nat.pow 2 52)))

def ofInt (n : Int) : Float :=
  ofRatio (n < 0) n.natAbs 1

/-- `digits * 10 ^ exponent` as a float. An exponent so far out that the result is an infinity or
zero anyway is cut, so that no huge power is ever computed. -/
def ofDecimal (digits : Nat) (exponent : Int) : Float :=
  let lowest : Int := -(digits.log2 + 400 : Nat)
  let exponent := max lowest (min 400 exponent)
  ofRatio false (digits * Nat.pow 10 exponent.toNat) (Nat.pow 10 (-exponent).toNat)

/-- The integer part of a finite float. -/
def truncate (x : Float) : Int :=
  let p := parts x
  let n : Nat := if p.exponent ≥ 0 then scaleUp p.mantissa p.exponent
    else p.mantissa / Nat.pow 2 (-p.exponent).toNat
  if p.negative then -n else n

/-- The integer a finite float is, if it is one. -/
def toInt? (x : Float) : Option Int :=
  if !x.isFinite then none
  else
    let p := parts x
    if p.exponent < 0 && p.mantissa % Nat.pow 2 (-p.exponent).toNat != 0 then none
    else some (truncate x)

/-- The remainder of two finite floats with the sign of the first, computed exactly. -/
def remainder (x y : Float) : Float :=
  let p := parts x
  let q := parts y
  let e := min p.exponent q.exponent
  let r := scaleUp p.mantissa (p.exponent - e) % scaleUp q.mantissa (q.exponent - e)
  ofRatio p.negative (scaleUp r e) (scaleUp 1 (-e))

def floatRemainder (x y : Float) : Float :=
  if !x.isFinite || y.isNaN || y == 0 then 0.0 / 0.0
  else if !y.isFinite then x
  else remainder x y

/-- The quotient that goes with the remainder that is never negative. -/
def euclideanQuotient (x y : Float) : Float :=
  let t := x / y
  let q := if t < 0 then t.ceil else t.floor
  if floatRemainder x y < 0 then (if y > 0 then q - 1 else q + 1) else q

/-- Looks for the largest power of ten, from `power` downwards, that has a multiple in the rounding
interval `low..high` around `value` (all three scaled by `unit`), and returns the multiple that is
nearest to `value` with the power. -/
def shortestFrom : Nat → Int → (value low high unit : Nat) → (closed : Bool) → Nat × Int
  | 0, power, value, _, _, unit, _ => (value / unit, power)
  | fuel + 1, power, value, low, high, unit, closed =>
    let up := Nat.pow 10 (-power).toNat
    let step := unit * Nat.pow 10 power.toNat
    let v := value * up
    let lo := low * up
    let hi := high * up
    let q := v / step
    let inside (n : Nat) : Bool :=
      if closed then lo ≤ n * step && n * step ≤ hi else lo < n * step && n * step < hi
    let down := inside q && q != 0
    let above := inside (q + 1)
    if down && above then
      (if 2 * (v % step) > step then q + 1 else q, power)
    else if down then (q, power)
    else if above then (q + 1, power)
    else shortestFrom fuel (power - 1) value low high unit closed

/-- The shortest digits that read back as the absolute value of a finite float other than zero:
the float is nearest to `digits * 10 ^ exponent`. -/
def shortest (x : Float) : Nat × Int :=
  let p := parts x
  let unit := scaleUp 1 (2 - p.exponent)
  let grow (n : Nat) : Nat := scaleUp n (p.exponent - 2)
  let low := if p.mantissa == Nat.pow 2 52 then 4 * p.mantissa - 1 else 4 * p.mantissa - 2
  let value := grow (4 * p.mantissa)
  let start : Nat := (toString (value / unit)).length
  shortestFrom 800 start value (grow low) (grow (4 * p.mantissa + 2)) unit
    (p.mantissa % 2 == 0)

/-- Digits with the decimal point put at its place and at least one digit behind it. -/
def positional (digits : Nat) (exponent : Int) : String :=
  let text := (toString digits).toList
  if exponent ≥ 0 then
    String.ofList (text ++ List.replicate exponent.toNat '0') ++ ".0"
  else
    let behind := (-exponent).toNat
    let padded := List.replicate (behind + 1 - text.length) '0' ++ text
    let cut := padded.length - behind
    String.ofList (padded.take cut) ++ "." ++ String.ofList (padded.drop cut)

def special? (x : Float) : Option String :=
  if x.isNaN then some "NaN"
  else if x.isInf then some (if isNegative x then "-inf" else "inf")
  else none

/-- A float written without exponent. -/
def text (x : Float) : String :=
  match special? x with
  | some name => name
  | none =>
    let sign := if isNegative x then "-" else ""
    if x == 0 then sign ++ "0.0"
    else
      let (digits, exponent) := shortest x
      sign ++ positional digits exponent

/-- Digits with one in front of the point and an exponent. -/
def scientific (digits : Nat) (exponent : Int) : String :=
  let text := (toString digits).toList
  let e := exponent + (text.length - 1 : Nat)
  let fraction := text.drop 1
  let point := if fraction.isEmpty then "" else "."
  String.ofList (text.take 1) ++ point ++ String.ofList fraction ++ "e" ++ toString e

/-- A float as it is shown inside a container: very large and very small ones get an exponent. -/
def debugText (x : Float) : String :=
  match special? x with
  | some name => name
  | none =>
    let size := x.abs
    if size != 0 && (size < 0.0001 || size ≥ 1e16) then
      let (digits, exponent) := shortest x
      (if isNegative x then "-" else "") ++ scientific digits exponent
    else text x

end QueryTemplate.Number
