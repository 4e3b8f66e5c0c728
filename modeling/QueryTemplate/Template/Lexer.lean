import QueryTemplate.Template.Literal

/-!
Splits a template source into tokens. Outside tags everything is text; a tag ends at its closing
delimiter when no bracket is open. Raw sections are text whatever they contain, and comments leave
nothing behind.
-/

namespace QueryTemplate.Template.Lexer

/-- A position in a source. `before` is the text in front of it, in reverse. -/
structure Cursor where
  before : List Char
  rest : List Char
  line : Nat

namespace Cursor

def start (source : List Char) : Cursor := ⟨[], source, 1⟩

def advance (c : Cursor) (n : Nat) : Cursor :=
  let passed := c.rest.take n
  ⟨passed.reverse ++ c.before, c.rest.drop n, c.line + Text.newlines passed⟩

/-- Moves to the end of the source. -/
def finish (c : Cursor) : Cursor :=
  c.advance c.rest.length

/-- Moves to where `rest`, an end part of the text ahead, begins. -/
def moveTo (c : Cursor) (rest : List Char) : Cursor :=
  c.advance (c.rest.length - rest.length)

end Cursor

/-- What a tag delimiter says about the white space next to it. -/
inductive Control where
  | default
  | preserve
  | remove
  deriving DecidableEq

def control (c : Option Char) : Control :=
  match c with
  | some '-' => .remove
  | some '+' => .preserve
  | _ => .default

/-- The kinds of tags. -/
inductive Marker where
  | expression
  | block
  | comment
  deriving DecidableEq

def marker? (text : List Char) : Option Marker :=
  match text with
  | '{' :: '{' :: _ => some .expression
  | '{' :: '%' :: _ => some .block
  | '{' :: '#' :: _ => some .comment
  | _ => none

/-- The text in front of the first tag, and the tag's kind. -/
def findMarker : List Char → List Char × Option Marker
  | [] => ([], none)
  | c :: text =>
    match marker? (c :: text) with
    | some m => ([], some m)
    | none =>
      let (lead, m) := findMarker text
      (c :: lead, m)

def isBreak (c : Char) : Bool :=
  c == '\n' || c == '\r'

/-- Drops white space at the end of a text back to the start of its last line, if there is nothing
else on that line. Lines end with a line feed. -/
def lstrip (text : List Char) : List Char :=
  let trimmed := (text.reverse.dropWhile fun c => Text.isSpace c && !isBreak c).reverse
  match trimmed.getLast? with
  | none => trimmed
  | some c => if c == '\n' then trimmed else text

/-- Whether there is only white space on a line that ends with this text, given in reverse. -/
def lineIsBlank : List Char → Bool
  | [] => true
  | c :: before => isBreak c || (Text.isSpace c && lineIsBlank before)

/-- What is left of a tag that consists of a single word, behind the opening delimiter: the rest of
the source and the white space control at its end. -/
def basicTag? (word : List Char) (skipControl : Bool) (text : List Char) :
    Option (List Char × Control) :=
  let text := match text with
    | c :: rest => if skipControl && (c == '-' || c == '+') then rest else c :: rest
    | [] => []
  match Text.dropHead? word (text.dropWhile Text.isAsciiSpace) with
  | none => none
  | some rest =>
    let rest := rest.dropWhile Text.isAsciiSpace
    let ws := control rest.head?
    let rest := if ws = .default then rest else rest.drop 1
    match rest with
    | '%' :: '}' :: rest => some (rest, ws)
    | _ => none

/-- Looks for the tag that ends a raw section: the text in front of it, the control characters at
its start and at its end, and the rest. -/
def rawEnd? : List Char → Option (List Char × Control × Control × List Char)
  | [] => none
  | c :: text =>
    let found := match c, text with
      | '{', '%' :: tag => (basicTag? "endraw".toList true tag).map fun (rest, ws) =>
        (control tag.head?, ws, rest)
      | _, _ => none
    match found with
    | some (ws, next, rest) => some ([], ws, next, rest)
    | none => (rawEnd? text).map fun (body, found) => (c :: body, found)

def dropBreak (text : List Char) : List Char :=
  let text := match text with
    | '\r' :: rest => rest
    | text => text
  match text with
  | '\n' :: rest => rest
  | text => text

/-- Passes over a line break behind a block tag, if blocks are trimmed. -/
def skipBreak (ws : Whitespace) (c : Cursor) : Cursor :=
  if ws.trimBlocks then c.moveTo (dropBreak c.rest) else c

/-- The white space behind a tag: the cursor to go on from and whether all of it is dropped. -/
def tail (ws : Whitespace) (end_ : Control) (c : Cursor) : Cursor × Bool :=
  match end_ with
  | .default => (skipBreak ws c, false)
  | .preserve => (c, false)
  | .remove => (c, true)

/-- The text of a raw section with the white space at its ends treated as its tags say. -/
def rawText (ws : Whitespace) (start end_ : Control) (body : List Char) : List Char :=
  let body := match start with
    | .default => if ws.trimBlocks then dropBreak body else body
    | .preserve => body
    | .remove => Text.trimStart body
  match end_ with
  | .default => if ws.lstripBlocks then lstrip body else body
  | .preserve => body
  | .remove => Text.trimEnd body

def symbols : List String :=
  ["//", "**", "==", "!=", ">=", "<=", "+", "-", "*", "/", "%", "!", ".", ",", ":", "~", "=", "|",
    ">", "<", "(", ")", "[", "]", "\x7b", "\x7d"]

/-- The symbol a text begins with; longer ones go first. -/
def symbol? (text : List Char) : Option (String × List Char) :=
  symbols.findSome? fun s => (Text.dropHead? s.toList text).map fun rest => (s, rest)

/-- How a symbol changes the number of open brackets. -/
def balance (symbol : String) : Int :=
  if ["(", "[", "\x7b"].contains symbol then 1
  else if [")", "]", "\x7d"].contains symbol then -1
  else 0

def put (token : Token) (line : Nat) (rest : Lexed) : Lexed :=
  { rest with lexemes := ⟨token, line⟩ :: rest.lexemes }

def stop (text : String) (line : Nat) : Lexed :=
  { fault := some { text, line := some line } }

/-- One token inside a tag that is not its end: the token and the rest. -/
def tagToken (c : Cursor) : Except SyntaxFault (Token × List Char) :=
  match symbol? c.rest with
  | some (symbol, rest) => .ok (.symbol symbol, rest)
  | none =>
    match c.rest with
    | [] => .error { text := "unexpected end of input", line := some c.line }
    | x :: rest =>
      if x == '"' || x == '\'' then
        match Literal.takeString x rest with
        | none => .error { text := "unexpected end of string", line := some c.line }
        | some (body, rest) =>
          match Literal.unescape none body with
          | some text => .ok (.string (String.ofList text), rest)
          | none => .error { text := "bad string escape", isEscape := true }
      else if Text.isAsciiDigit x then
        match Literal.number c.rest with
        | .ok found => .ok found
        | .error text => .error { text, line := some c.line }
      else
        match Text.takeName c.rest with
        | ([], _) => .error { text := "unexpected character", line := some c.line }
        | (name, rest) => .ok (.name (String.ofList name), rest)

/-- Whether a tag ends here: the control character, if any, and the rest. -/
def tagEnd? (isBlock : Bool) (text : List Char) : Option (Control × List Char) :=
  let close := if isBlock then ['%', '}'] else ['}', '}']
  match text with
  | [] => none
  | c :: rest =>
    if c == '-' || c == '+' then
      match Text.dropHead? close rest with
      | some rest => some (control (some c), rest)
      | none => none
    else (Text.dropHead? close text).map fun rest => (.default, rest)

mutual

/-- Tokens of the text outside tags. With `trim` the white space ahead is dropped. Every step
consumes something or begins a tag, so twice the length of the source is enough for the first
argument. -/
def lexText (ws : Whitespace) : Nat → (trim : Bool) → Cursor → Lexed
  | 0, _, _ => {}
  | fuel + 1, trim, c =>
    let c := if trim then c.moveTo (Text.trimStart c.rest) else c
    let (lead, found) := findMarker c.rest
    let tag := c.advance lead.length
    let start := match found with
      | some _ => control (tag.rest.drop 2).head?
      | none => .preserve
    let strips := ws.lstripBlocks && found != some .expression && lineIsBlank tag.before
    let text := match start with
      | .remove => Text.trimEnd lead
      | .preserve => lead
      | .default => if strips then lstrip lead else lead
    let after := match found with
      | some m => lexMarker ws fuel m start tag
      | none => {}
    if text.isEmpty then after else put (.data (String.ofList text)) c.line after

/-- Tokens from the beginning of a tag on. -/
def lexMarker (ws : Whitespace) : Nat → Marker → Control → Cursor → Lexed
  | 0, _, _, _ => {}
  | fuel + 1, m, start, c =>
    let body := c.advance (if start = .default then 2 else 3)
    match m with
    | .comment =>
      match Text.splitAtFirst ['#', '}'] body.rest with
      | none => stop "unexpected end of comment" c.finish.line
      | some (inner, rest) =>
        let last := if inner.isEmpty then body.rest.head? else inner.getLast?
        let (next, trim) := tail ws (control last) (body.moveTo rest)
        lexText ws fuel trim next
    | .expression => put .expressionStart c.line (lexTag ws fuel false 0 body)
    | .block =>
      match basicTag? "raw".toList false body.rest with
      | none => put .blockStart c.line (lexTag ws fuel true 0 body)
      | some (rest, start) =>
        let section_ := body.moveTo rest
        match rawEnd? section_.rest with
        | none => stop "unexpected end of raw block" section_.finish.line
        | some (text, end_, next, rest) =>
          let (after, trim) := tail ws next (section_.moveTo rest)
          put (.data (String.ofList (rawText ws start end_ text))) section_.line
            (lexText ws fuel trim after)

/-- Tokens inside a tag, with the number of brackets that are open. -/
def lexTag (ws : Whitespace) : Nat → (isBlock : Bool) → (depth : Int) → Cursor → Lexed
  | 0, _, _, _ => {}
  | fuel + 1, isBlock, depth, c =>
    let close := if depth = 0 then tagEnd? isBlock c.rest else none
    match close with
    | some (end_, rest) =>
      let after := c.moveTo rest
      let token := if isBlock then Token.blockEnd else Token.expressionEnd
      let after := if isBlock && end_ = .default then skipBreak ws after else after
      put token c.line (lexText ws fuel (end_ = .remove) after)
    | none =>
      match c.rest with
      | [] => {}
      | x :: _ =>
        if Text.isAsciiSpace x then
          lexTag ws fuel isBlock depth (c.moveTo (c.rest.dropWhile Text.isAsciiSpace))
        else
          match tagToken c with
          | .error fault => { fault := some fault }
          | .ok (token, rest) =>
            let depth := match token with
              | .symbol s => depth + balance s
              | _ => depth
            put token c.line (lexTag ws fuel isBlock depth (c.moveTo rest))

end

/-- Drops one line break at the end of a source. -/
def dropFinalBreak (source : List Char) : List Char :=
  let drop (c : Char) (reversed : List Char) : List Char :=
    match reversed with
    | d :: rest => if d == c then rest else reversed
    | [] => []
  (drop '\r' (drop '\n' source.reverse)).reverse

end Lexer

/-- The tokens of a source. -/
def lex (ws : Whitespace) (source : List Char) : Lexed :=
  let source := if ws.keepTrailingNewline then source else Lexer.dropFinalBreak source
  Lexer.lexText ws (2 * source.length + 4) false (.start source)

end QueryTemplate.Template
