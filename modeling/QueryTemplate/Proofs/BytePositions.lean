import QueryTemplate.Proofs.ByteSlices
import QueryTemplate.Instrument

/-!
Instrumenting a source by byte positions: the scanners go over the bytes of the source and tell the
positions where something begins or ends, and the texts between them are taken as slices.
-/

namespace QueryTemplate.BytePositions

open Ending Text Instrument

/-- The line of a byte position. -/
def lineAt (source : List Char) (pos : Nat) : Ending Nat := do
  return newlines (← slice source 0 pos) + 1

/-- Whether the byte is one of these characters. -/
def among (b : UInt8) (chars : List Char) : Bool :=
  chars.any (b = ·.toUInt8)

/-- One round of the search for a tag. -/
def tagRound (bytes : List UInt8) (pos : Nat) : Ending (Nat ⊕ Option Nat) :=
  if pos + 1 < bytes.length then do
    if (← byteAt bytes pos) = '{'.toUInt8 then
      let next ← byteAt bytes (pos + 1)
      if among next ['{', '%', '#'] then return .inr (some pos)
      else return .inl (pos + 1)
    else return .inl (pos + 1)
  else return .inr none

/-- Where the next tag begins. -/
def tagStart (rounds : Nat) (source : List Char) (pos : Nat) : Ending (Option Nat) :=
  loop (tagRound (bytes source)) rounds pos

/-- Where the search for the end of a tag is. -/
structure CloseState where
  pos : Nat
  depth : Nat
  quote : Option UInt8

/-- One round of the search for the end of a tag. -/
def closeRound (bytes close : List UInt8) (s : CloseState) :
    Ending (CloseState ⊕ Option Nat) :=
  if s.pos < bytes.length then do
    let b ← byteAt bytes s.pos
    let next := s.pos + 1
    match s.quote with
    | some q =>
      if b = '\\'.toUInt8 then return .inl { s with pos := s.pos + 2 }
      else if b = q then return .inl { s with pos := next, quote := none }
      else return .inl { s with pos := next }
    | none =>
      if among b ['\'', '"'] then return .inl { s with pos := next, quote := some b }
      else if among b ['(', '[', '{'] then
        return .inl { s with pos := next, depth := s.depth + 1 }
      else if among b [')', ']', '}'] && s.depth > 0 then
        return .inl { s with pos := next, depth := s.depth - 1 }
      else if s.depth = 0 then
        if close.isPrefixOf (← bytesFrom bytes s.pos) then
          return .inr (some (s.pos + close.length))
        else return .inl { s with pos := next }
      else return .inl { s with pos := next }
  else return .inr none

/-- Where a tag ends that the text begins with. -/
def closeOf (rounds : Nat) (tag close : List Char) : Ending (Option Nat) :=
  loop (closeRound (bytes tag) (bytes close)) rounds ⟨2, 0, none⟩

/-- The end of the name that begins at position zero, given the position of the rest and the end of
what has been read of it. -/
def nameEnd : (pos end_ : Nat) → List Char → Nat
  | _, end_, [] => end_
  | pos, end_, c :: rest =>
    if (if pos = 0 then isNameStart c else isNamePart c) then
      nameEnd (pos + c.utf8Size) (pos + c.utf8Size) rest
    else end_

/-- The length of the name that a text begins with. -/
def nameLength (text : List Char) : Nat :=
  nameEnd 0 0 text

/-- What is between the delimiters of a tag. -/
def innerOf (tag : List Char) : Ending (List Char) := do
  slice tag 2 (← minus (byteLength tag) 2)

/-- The name of a block tag. -/
def tagName (tag : List Char) : Ending (List Char) := do
  let inner := trimStart ((← innerOf tag).dropWhile isControl)
  slice inner 0 (nameLength inner)

/-- Handles the tag at a position of a raw section. -/
def rawTag (source : List Char) (start : Nat) : Ending (Nat ⊕ Option Nat) := do
  match find ['%', '}'] (← sliceFrom source start) with
  | none => return .inr none
  | some end_ =>
    let end_ := start + end_ + 2
    let inner ← slice source (start + 2) (← minus end_ 2)
    if tagWord inner = "endraw".toList then return .inr (some end_)
    else return .inl (start + 2)

/-- One round of the search for the end of a raw section. -/
def rawRound (source : List Char) (pos : Nat) : Ending (Nat ⊕ Option Nat) := do
  match find ['{', '%'] (← sliceFrom source pos) with
  | none => return .inr none
  | some start => rawTag source (pos + start)

/-- Where the raw section ends that begins at a position. -/
def rawEnd (rounds : Nat) (source : List Char) (pos : Nat) : Ending (Option Nat) :=
  loop (rawRound source) rounds pos

/-- One round of reading a chain of names, given the names that have been read and the rest. -/
def chainRound (state : List (List Char) × List Char) :
    Ending (List (List Char) × List Char ⊕ Option (List (List Char) × List Char)) :=
  let (chain, text) := state
  let length := nameLength text
  if length = 0 then return .inr none
  else do
    let chain := chain ++ [← slice text 0 length]
    match ← sliceFrom text length with
    | '.' :: after => return .inl (chain, after)
    | rest => return .inr (some (chain, rest))

/-- The name hint of an expression. -/
def nameHint (rounds : Nat) (expr : List Char) : Ending (Option (List Char)) := do
  match ← loop chainRound rounds ([], trim expr) with
  | none => return none
  | some (chain, rest) =>
    match chain with
    | [] => panics
    | head :: _ =>
      let head := String.ofList head
      if expressionWords.contains head || isReservedName head then return none
      else
        match trimStart rest with
        | [] => return some (joinChain chain)
        | '|' :: _ => return some (joinChain chain)
        | _ => return none

/-- A text without the control character at its front, if there is one. -/
def dropFirst (control : Option Char) (inner : List Char) : Ending (List Char) :=
  if control.isSome then sliceFrom inner 1 else return inner

/-- A text without the control character at its end, if there is one. -/
def dropLast (control : Option Char) (inner : List Char) : Ending (List Char) := do
  if control.isSome then slice inner 0 (← minus (byteLength inner) 1) else return inner

/-- An expression tag that ends in the emit filter, behind what has been written; nothing if there
is no expression. -/
def rewriteExpression (rounds : Nat) (tag out : List Char) : Ending (Option (List Char)) := do
  let inner ← innerOf tag
  let opening := inner.head?.filter isControl
  let inner ← dropFirst opening inner
  let closing := inner.getLast?.filter isControl
  let inner ← dropLast closing inner
  let expr := trim inner
  if expr.isEmpty then return none
  else
    let hint := match ← nameHint rounds expr with
      | some hint => '"' :: hint ++ ['"']
      | none => "none".toList
    return some (out ++ ['{', '{'] ++ opening.toList ++ " (".toList ++ expr ++ ") | ".toList ++
      emitName.toList ++ '(' :: scopeName.toList ++ ", ".toList ++ hint ++ ") ".toList ++
      closing.toList ++ ['}', '}'])

/-- How far the source has been read, and what has been written. -/
structure State where
  pos : Nat
  out : List Char

/-- Goes on behind a part of the source that is copied. -/
def copyTo (source : List Char) (start end_ : Nat) (out : List Char) :
    Ending (State ⊕ Except MarkupError (List Char)) := do
  return .inl ⟨end_, out ++ (← slice source start end_)⟩

/-- Handles a comment, given the source from there on. -/
def commentAt (source : List Char) (found : Nat) (rest out : List Char) :
    Ending (State ⊕ Except MarkupError (List Char)) := do
  let end_ := find ['#', '}'] rest
  let line ← lineAt source found
  match end_ with
  | none => return .inr (.error (.unterminated "comment" line))
  | some end_ => copyTo source found (found + end_ + 2) out

/-- Handles a block tag, with the raw section that it begins, if it does. -/
def blockAt (rounds : Nat) (source : List Char) (found : Nat) (rest out : List Char) :
    Ending (State ⊕ Except MarkupError (List Char)) := do
  let end_ ← closeOf rounds rest ['%', '}']
  let line ← lineAt source found
  match end_ with
  | none => return .inr (.error (.unterminated "block tag" line))
  | some end_ =>
    let end_ := found + end_
    if (← tagName (← slice source found end_)) = "raw".toList then
      match ← rawEnd rounds source end_ with
      | none => return .inr (.error (.unterminated "raw section" line))
      | some end_ => copyTo source found end_ out
    else copyTo source found end_ out

/-- Handles an expression tag. -/
def expressionAt (rounds : Nat) (source : List Char) (found : Nat) (rest out : List Char) :
    Ending (State ⊕ Except MarkupError (List Char)) := do
  let end_ ← closeOf rounds rest ['}', '}']
  let line ← lineAt source found
  match end_ with
  | none => return .inr (.error (.unterminated "expression" line))
  | some end_ =>
    let end_ := found + end_
    match ← rewriteExpression rounds (← slice source found end_) out with
    | none => return .inr (.error (.emptyExpression line))
    | some out => return .inl ⟨end_, out⟩

/-- Handles the tag at a position. -/
def tagAt (rounds : Nat) (source : List Char) (found : Nat) (out : List Char) :
    Ending (State ⊕ Except MarkupError (List Char)) := do
  let rest ← sliceFrom source found
  if startsWith ['{', '#'] rest then commentAt source found rest out
  else if startsWith ['{', '%'] rest then blockAt rounds source found rest out
  else expressionAt rounds source found rest out

/-- One round of instrumenting a source: the text in front of the next tag, and the tag. -/
def sourceRound (rounds : Nat) (source : List Char) (s : State) :
    Ending (State ⊕ Except MarkupError (List Char)) := do
  match ← tagStart rounds source s.pos with
  | none => return .inr (.ok (s.out ++ (← sliceFrom source s.pos)))
  | some found => tagAt rounds source found (s.out ++ (← slice source s.pos found))

/-- Instruments a template source. -/
def instrument (rounds : Nat) (source : List Char) :
    Ending (Except MarkupError (List Char)) := do
  match findReserved source with
  | some pos => return .error (.reservedCharacter (← lineAt source pos))
  | none => loop (sourceRound rounds source) rounds ⟨0, []⟩

end QueryTemplate.BytePositions
