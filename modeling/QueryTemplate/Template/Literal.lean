import QueryTemplate.Template.Token
import QueryTemplate.Text.Scan

/-!
String and number literals of the expression language.
-/

namespace QueryTemplate.Template.Literal

def hexDigit? (c : Char) : Option Nat :=
  if '0' ≤ c && c ≤ '9' then some (c.toNat - 48)
  else if 'a' ≤ c && c ≤ 'f' then some (c.toNat - 87)
  else if 'A' ≤ c && c ≤ 'F' then some (c.toNat - 55)
  else none

/-- The value of digits of a base; nothing if there are none or one does not belong to the base. -/
def digitsIn? (base : Nat) (digits : List Char) : Option Nat :=
  if digits.isEmpty then none
  else digits.foldl
    (fun n? c => do
      let n ← n?
      let d ← hexDigit? c
      if d < base then some (n * base + d) else none)
    (some 0)

/-- The character of a one-letter escape. -/
def escape? (c : Char) : Option Char :=
  match c with
  | '"' => some '"'
  | '\\' => some '\\'
  | '/' => some '/'
  | '\'' => some '\''
  | 'b' => some (Char.ofNat 8)
  | 'f' => some (Char.ofNat 12)
  | 'n' => some '\n'
  | 'r' => some '\r'
  | 't' => some '\t'
  | _ => none

/-- The value of the hexadecimal digits of an escape, which may have a plus sign in front. -/
def escapedNumber? (digits : List Char) : Option Nat :=
  match digits with
  | '+' :: digits => digitsIn? 16 digits
  | digits => digitsIn? 16 digits

/-- The digits of an octal escape behind its first one, at most two, and what follows them. -/
def takeOctal (text : List Char) : List Char × List Char :=
  let digits := (text.take 2).takeWhile fun c => '0' ≤ c && c ≤ '7'
  (digits, text.drop digits.length)

theorem length_takeOctal_le (text : List Char) : (takeOctal text).2.length ≤ text.length := by
  simp [takeOctal]

def isSurrogate (n : Nat) : Bool :=
  0xD800 ≤ n && n ≤ 0xDFFF

/-- The character of a surrogate pair. -/
def pair? (high low : Nat) : Option Char :=
  if high < 0xDC00 && 0xDC00 ≤ low then
    some (Char.ofNat (0x10000 + (high - 0xD800) * 0x400 + (low - 0xDC00)))
  else none

/-- Replaces the escapes of a string literal. `pending` is the first half of a surrogate pair whose
second half must come next. -/
def unescape : (pending : Option Nat) → List Char → Option (List Char)
  | none, [] => some []
  | some _, [] => none
  | pending, '\\' :: 'u' :: a :: b :: c :: d :: rest =>
    match escapedNumber? [a, b, c, d], pending with
    | none, _ => none
    | some n, none =>
      if isSurrogate n then unescape (some n) rest
      else (unescape none rest).map (Char.ofNat n :: ·)
    | some n, some high =>
      if isSurrogate n then
        match pair? high n with
        | some c => (unescape none rest).map (c :: ·)
        | none => none
      else none
  | none, '\\' :: 'x' :: a :: b :: rest =>
    match escapedNumber? [a, b] with
    | some n => (unescape none rest).map (Char.ofNat n :: ·)
    | none => none
  | none, '\\' :: c :: rest =>
    match escape? c with
    | some c => (unescape none rest).map (c :: ·)
    | none =>
      match digitsIn? 8 (c :: (takeOctal rest).1) with
      | some n =>
        if n < 256 then (unescape none (takeOctal rest).2).map (Char.ofNat n :: ·) else none
      | none => none
  | none, c :: rest => if c == '\\' then none else (unescape none rest).map (c :: ·)
  | some _, _ :: _ => none
termination_by _ text => text.length
decreasing_by
  all_goals simp_wf
  all_goals try omega
  have := length_takeOctal_le rest
  omega

/-- The body of a string literal behind its opening quote, and what follows the closing one. -/
def takeString (quote : Char) : List Char → Option (List Char × List Char)
  | [] => none
  | '\\' :: c :: rest =>
    (takeString quote rest).map fun (body, rest) => ('\\' :: c :: body, rest)
  | c :: rest =>
    if c == quote then some ([], rest)
    else (takeString quote rest).map fun (body, rest) => (c :: body, rest)

/-- What part of a number is being read. -/
inductive NumberState where
  | integer
  | based
  | fraction
  | exponent
  | exponentDigits
  deriving DecidableEq

/-- Whether a text begins with the exponent of a number. -/
def beginsExponent (text : List Char) : Bool :=
  match text with
  | [] => false
  | c :: rest =>
    let digits := if rest.head? = some '+' || rest.head? = some '-' then rest.drop 1 else rest
    (c == 'e' || c == 'E') && digits.head?.any Text.isAsciiDigit

/-- Whether a point belongs to the number in front of it, given what follows the point. It does not
if it leads to the name of an attribute. -/
def isDecimalPoint (rest : List Char) : Bool :=
  !rest.head?.any Text.isNameStart || beginsExponent rest

/-- What a character makes of a number; nothing if it is not part of it. -/
def nextState (base : Nat) (c : Char) (rest : List Char) (state : NumberState) :
    Option NumberState :=
  if c == '_' then some state
  else if Text.isAsciiDigit c then
    some (if state = .exponent then .exponentDigits else state)
  else
    match state with
    | .integer =>
      if c == '.' then (if isDecimalPoint rest then some .fraction else none)
      else if c == 'e' || c == 'E' then some .exponent else none
    | .fraction => if c == 'e' || c == 'E' then some .exponent else none
    | .exponent => if c == '+' || c == '-' then some .exponentDigits else none
    | .exponentDigits => none
    | .based => if base == 16 && (hexDigit? c).isSome then some .based else none

/-- The characters of a number, the state it ends in, and what follows it. -/
def takeNumber (base : Nat) (state : NumberState) : List Char →
    List Char × NumberState × List Char
  | [] => ([], state, [])
  | c :: rest =>
    match nextState base c rest state with
    | none => ([], state, c :: rest)
    | some state =>
      let (body, last, rest) := takeNumber base state rest
      (c :: body, last, rest)

/-- The value of a float literal. -/
def float? (body : List Char) : Option Token :=
  let whole := body.takeWhile Text.isAsciiDigit
  let rest := body.dropWhile Text.isAsciiDigit
  let (fraction, rest) := match rest with
    | '.' :: rest => (rest.takeWhile Text.isAsciiDigit, rest.dropWhile Text.isAsciiDigit)
    | rest => ([], rest)
  let exponent? : Option Int := match rest with
    | [] => some 0
    | _ :: '-' :: digits => (digitsIn? 10 digits).map fun n => -(n : Int)
    | _ :: '+' :: digits => (digitsIn? 10 digits).map fun n => (n : Int)
    | _ :: digits => (digitsIn? 10 digits).map fun n => (n : Int)
  exponent?.map fun exponent =>
    .float ((digitsIn? 10 (whole ++ fraction)).getD 0) (exponent - fraction.length)

/-- Reads a number literal. -/
def number (text : List Char) : Except String (Token × List Char) :=
  let (base, digits) := match text with
    | '0' :: 'b' :: rest => (2, rest)
    | '0' :: 'B' :: rest => (2, rest)
    | '0' :: 'o' :: rest => (8, rest)
    | '0' :: 'O' :: rest => (8, rest)
    | '0' :: 'x' :: rest => (16, rest)
    | '0' :: 'X' :: rest => (16, rest)
    | text => (10, text)
  let (body, state, rest) := takeNumber base (if base = 10 then .integer else .based) digits
  if body.getLast? = some '_' then .error "underscore may not occur at end of number"
  else
    let body := body.filter (· != '_')
    if state = .integer || state = .based then
      match digitsIn? base body with
      | some n => if n < Nat.pow 2 128 then .ok (.int n, rest) else .error "invalid integer (too large)"
      | none => .error "invalid integer"
    else
      match float? body with
      | some token => .ok (token, rest)
      | none => .error "invalid float"

end QueryTemplate.Template.Literal
