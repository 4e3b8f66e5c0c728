/-!
Scanning helpers over lists of characters. Every scanner of the library works on `List Char`, so
what a scanner has consumed and what it has left are plain lists and no byte positions are kept.
-/

namespace QueryTemplate.Text

/-- White space in the sense of the Unicode `White_Space` property. -/
def isSpace (c : Char) : Bool :=
  let n := c.toNat
  (9 ≤ n && n ≤ 13) || n == 32 || n == 0x85 || n == 0xA0 || n == 0x1680 ||
    (0x2000 ≤ n && n ≤ 0x200A) || n == 0x2028 || n == 0x2029 || n == 0x202F || n == 0x205F ||
    n == 0x3000

/-- White space of the ASCII range. -/
def isAsciiSpace (c : Char) : Bool :=
  c == ' ' || c == '\t' || c == '\n' || c == '\r' || c == '\x0c'

def isAsciiDigit (c : Char) : Bool :=
  '0' ≤ c && c ≤ '9'

def isAsciiLetter (c : Char) : Bool :=
  ('a' ≤ c && c ≤ 'z') || ('A' ≤ c && c ≤ 'Z')

/-- A character that may begin a name. -/
def isNameStart (c : Char) : Bool :=
  isAsciiLetter c || c == '_'

/-- A character that may continue a name. -/
def isNamePart (c : Char) : Bool :=
  isNameStart c || isAsciiDigit c

def trimStart (text : List Char) : List Char :=
  text.dropWhile isSpace

def trimEnd (text : List Char) : List Char :=
  (text.reverse.dropWhile isSpace).reverse

def trim (text : List Char) : List Char :=
  trimEnd (trimStart text)

/-- The text without `head` in front, if it begins with `head`. -/
def dropHead? : (head text : List Char) → Option (List Char)
  | [], text => some text
  | _ :: _, [] => none
  | h :: head, c :: text => if h = c then dropHead? head text else none

def startsWith (head text : List Char) : Bool :=
  (dropHead? head text).isSome

/-- Splits a text at the first occurrence of `mark`: what is before it and what is after it. -/
def splitAtFirst (mark : List Char) : List Char → Option (List Char × List Char)
  | [] => if mark.isEmpty then some ([], []) else none
  | c :: text =>
    match dropHead? mark (c :: text) with
    | some rest => some ([], rest)
    | none => (splitAtFirst mark text).map fun (before, rest) => (c :: before, rest)

/-- The longest name at the front of a text and what follows it; the name is empty if the text
does not begin with a name. -/
def takeName : List Char → List Char × List Char
  | [] => ([], [])
  | c :: text =>
    if isNameStart c then (c :: text.takeWhile isNamePart, text.dropWhile isNamePart)
    else ([], c :: text)

/-- The value of a non-empty run of ASCII digits. -/
def decimal? (digits : List Char) : Option Nat :=
  if digits.isEmpty || !digits.all isAsciiDigit then none
  else some (digits.foldl (fun n c => 10 * n + (c.toNat - '0'.toNat)) 0)

/-- How many bytes the text takes in UTF-8. -/
def byteLength (text : List Char) : Nat :=
  text.foldr (fun c size => c.utf8Size + size) 0

/-- How many line breaks the text has. -/
def newlines (text : List Char) : Nat :=
  text.count '\n'

/-- Splits a text at every occurrence of `mark`, which is not empty. The first argument bounds the
number of pieces; the length of the text is always enough. -/
def splitAll (mark : List Char) : Nat → List Char → List (List Char)
  | 0, text => [text]
  | fuel + 1, text =>
    match splitAtFirst mark text with
    | some (before, rest) => before :: splitAll mark fuel rest
    | none => [text]

end QueryTemplate.Text
