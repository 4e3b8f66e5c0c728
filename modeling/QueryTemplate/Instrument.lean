import QueryTemplate.Marker
import QueryTemplate.NameHint

/-!
Before the template engine sees a source, every expression tag is made to end in the emit filter,
so that each value passes through it before it is written. Comments, block tags and raw sections
are copied, and no line break is added or lost, so that an error still has the line it has in the
source.
-/

namespace QueryTemplate

/-- Why a source cannot be instrumented. -/
inductive MarkupError where
  | reservedCharacter (line : Nat)
  | emptyExpression (line : Nat)
  | unterminated (what : String) (line : Nat)
  /-- The two ends of a tag in a raw section overlap, as in `{%}`. -/
  | overlappingTag
  deriving DecidableEq, Repr

namespace MarkupError

def message : MarkupError → String
  | reservedCharacter line =>
    "reserved marker character in template source (line " ++ toString line ++ ")"
  | emptyExpression line => "empty expression (line " ++ toString line ++ ")"
  | unterminated what line => "unterminated " ++ what ++ " (line " ++ toString line ++ ")"
  | overlappingTag => "overlapping tag delimiters"

end MarkupError

namespace Instrument

/-- Looks for the end of a tag outside string literals and brackets. `depth` is the number of open
brackets, closing ones without an open one are not counted; `quote` is the quote character of the
literal the scan is in. The result is the text up to the closing delimiter `c '}'` and the text
behind it. -/
def closeOf (c : Char) : (depth : Nat) → (quote : Option Char) → List Char →
    Option (List Char × List Char)
  | _, _, [] => none
  | depth, some q, x :: rest =>
    if x = '\\' then
      match rest with
      | [] => none
      | y :: rest => (closeOf c depth (some q) rest).map fun (body, rest) => (x :: y :: body, rest)
    else if x = q then
      (closeOf c depth none rest).map fun (body, rest) => (x :: body, rest)
    else (closeOf c depth (some q) rest).map fun (body, rest) => (x :: body, rest)
  | depth, none, x :: rest =>
    let go (depth : Nat) (quote : Option Char) :=
      (closeOf c depth quote rest).map fun (body, rest) => (x :: body, rest)
    if x = '\'' || x = '"' then go depth (some x)
    else if x = '(' || x = '[' || x = '{' then go (depth + 1) none
    else if (x = ')' || x = ']' || x = '}') && depth > 0 then go (depth - 1) none
    else if depth = 0 && x = c then
      match rest with
      | '}' :: rest => some ([], rest)
      | _ => go depth none
    else go depth none

def isControl (c : Char) : Bool :=
  c == '-' || c == '+'

/-- The name of a block tag, given what is between its delimiters. -/
def tagName (body : List Char) : List Char :=
  (Text.takeName (Text.trimStart (body.dropWhile isControl))).1

/-- The body of a tag without white space control and white space around it. -/
def tagWord (body : List Char) : List Char :=
  let body := body.dropWhile isControl
  Text.trim (body.reverse.dropWhile isControl).reverse

/-- What a position of a raw section means for its end. -/
inductive RawStep where
  /-- The section goes on. -/
  | pass
  /-- The tag that ends the section is here. -/
  | ends (tag rest : List Char)
  /-- There is no further tag. -/
  | missing
  | overlapping

/-- Looks at one position of a raw section. A tag that begins with `{%` goes to the first `%}` after
or on its second character. -/
def rawStep : List Char → RawStep
  | '{' :: '%' :: '}' :: _ => .overlapping
  | '{' :: '%' :: body =>
    match Text.splitAtFirst ['%', '}'] body with
    | none => .missing
    | some (inner, rest) =>
      if tagWord inner = "endraw".toList then .ends ('{' :: '%' :: inner ++ ['%', '}']) rest
      else .pass
  | _ => .pass

/-- A raw section, up to and with the tag that ends it, and what follows. -/
inductive RawEnd where
  | found (body rest : List Char)
  | missing
  | overlapping

/-- Looks for the end of a raw section. -/
def endOfRaw : List Char → RawEnd
  | [] => .missing
  | c :: text =>
    match rawStep (c :: text) with
    | .ends tag rest => .found tag rest
    | .missing => .missing
    | .overlapping => .overlapping
    | .pass =>
      match endOfRaw text with
      | .found body rest => .found (c :: body) rest
      | .missing => .missing
      | .overlapping => .overlapping

/-- Takes a white space control character off the front of a list. -/
def takeControl : List Char → List Char × List Char
  | c :: rest => if isControl c then ([c], rest) else ([], c :: rest)
  | [] => ([], [])

/-- The name hint as an argument of the emit filter. -/
def hintArgument (expr : List Char) : List Char :=
  match extractNameHint expr with
  | some hint => '"' :: hint ++ ['"']
  | none => "none".toList

/-- An expression tag that ends in the emit filter, given what is between the delimiters of the
tag; nothing if there is no expression. -/
def expressionTag (body : List Char) : Option (List Char) :=
  let (opening, body) := takeControl body
  let (closing, reversed) := takeControl body.reverse
  let expr := Text.trim reversed.reverse
  if expr.isEmpty then none
  else
    some (['{', '{'] ++ opening ++ " (".toList ++ expr ++ ") | ".toList ++ emitName.toList ++
      '(' :: scopeName.toList ++ ", ".toList ++ hintArgument expr ++ ") ".toList ++ closing ++
      ['}', '}'])

/-- Instruments a text that begins on the given line. Every step consumes a character, so the
length of the text is enough for the first argument. -/
def instrumentFrom : Nat → (line : Nat) → List Char → Except MarkupError (List Char)
  | 0, _, text => .ok text
  | _, _, [] => .ok []
  | fuel + 1, line, c :: rest =>
    let goOn (written taken rest : List Char) : Except MarkupError (List Char) :=
      match instrumentFrom fuel (line + Text.newlines taken) rest with
      | .ok out => .ok (written ++ out)
      | .error e => .error e
    match c, rest with
    | '{', '#' :: body =>
      match Text.splitAtFirst ['#', '}'] ('#' :: body) with
      | none => .error (.unterminated "comment" line)
      | some (inner, after) =>
        let tag := '{' :: inner ++ ['#', '}']
        goOn tag tag after
    | '{', '%' :: body =>
      match closeOf '%' 0 none body with
      | none => .error (.unterminated "block tag" line)
      | some (inner, after) =>
        let tag := '{' :: '%' :: inner ++ ['%', '}']
        if tagName inner = "raw".toList then
          match endOfRaw after with
          | .missing => .error (.unterminated "raw section" line)
          | .overlapping => .error .overlappingTag
          | .found body after => goOn (tag ++ body) (tag ++ body) after
        else goOn tag tag after
    | '{', '{' :: body =>
      match closeOf '}' 0 none body with
      | none => .error (.unterminated "expression" line)
      | some (inner, after) =>
        match expressionTag inner with
        | none => .error (.emptyExpression line)
        | some tag => goOn tag inner after
    | c, rest => goOn [c] [c] rest

/-- Instruments a template source. -/
def instrument (source : List Char) : Except MarkupError (List Char) :=
  if source.any isReserved then
    .error (.reservedCharacter (1 + Text.newlines (source.takeWhile (!isReserved ·))))
  else instrumentFrom source.length 1 source

end Instrument

end QueryTemplate
