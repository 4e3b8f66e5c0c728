import QueryTemplate.Text.Quoted
import QueryTemplate.Value.Basic
import QueryTemplate.Value.Number

/-!
The text of a value. A value on its own is written plainly; inside a container strings are quoted
and an undefined value shows itself.
-/

namespace QueryTemplate

namespace Text

/-- How a byte is shown inside a container. -/
def quotedByte (b : UInt8) : String :=
  let n := b.toNat
  if n == 9 then "\\t"
  else if n == 10 then "\\n"
  else if n == 13 then "\\r"
  else if n == 34 || n == 39 || n == 92 then "\\" ++ (Char.ofNat n).toString
  else if 32 ≤ n && n < 127 then (Char.ofNat n).toString
  else "\\x" ++ (if n < 16 then "0" else "") ++ hex n

end Text

namespace ObjectRef

def text : ObjectRef → String
  | root => "{}"
  | routine _ name => "<macro " ++ name ++ ">"
  | loop _ => "<loop>"
  | record _ => "{}"
  | function .range => "<function range>"
  | function .dict => "<function dict>"
  | function .namespaceOf => "<function namespace>"
  | function .debug => "<function debug>"
  | foreign _ label => label

end ObjectRef

namespace Value

mutual

/-- A value as it is shown inside a container. -/
def debugText : Value → String
  | undefined => "undefined"
  | absent => "undefined"
  | none => "None"
  | bool b => if b then "True" else "False"
  | int n => toString n
  | float x => Number.debugText x
  | str text => Text.quoted text
  | safe text => Text.quoted text
  | bytes content => "b'" ++ String.join (content.map Text.quotedByte) ++ "'"
  | list items => "[" ++ debugItems items ++ "]"
  | map entries => "\x7b" ++ debugEntries entries ++ "\x7d"
  | iter items => "[" ++ debugItems items ++ "]"
  | stream _ _ => "Iterable"
  | group key members => "[" ++ debugText key ++ ", [" ++ debugItems members ++ "]]"
  | bound value hint =>
    "BoundValue \x7b value: " ++ debugText value ++ ", name_hint: " ++ Text.quoted hint ++ " \x7d"
  | params items => "[" ++ debugItems items ++ "]"
  | package text _ => text
  | object ref => ref.text

def debugItems : List Value → String
  | [] => ""
  | [v] => debugText v
  | v :: rest => debugText v ++ ", " ++ debugItems rest

def debugEntries : List (Value × Value) → String
  | [] => ""
  | [(k, v)] => debugText k ++ ": " ++ debugText v
  | (k, v) :: rest => debugText k ++ ": " ++ debugText v ++ ", " ++ debugEntries rest

end

/-- A value as it is written. -/
def text : Value → String
  | undefined => ""
  | absent => ""
  | float x => Number.text x
  | str text => text
  | safe text => text
  | bytes content => Text.decodeLossy content
  | v => debugText v

/-- Parts in brackets, each on a line of its own and `depth` steps further in than what is around
them. -/
def layOut (opening closing : String) (depth : Nat) (parts : List String) : String :=
  if parts.isEmpty then opening ++ closing
  else
    let margin (n : Nat) : String := String.ofList (List.replicate (4 * n) ' ')
    opening ++ "\n" ++ String.join (parts.map fun part => margin (depth + 1) ++ part ++ ",\n") ++
      margin depth ++ closing

mutual

/-- A value with every part on a line of its own. -/
def prettyText (depth : Nat) : Value → String
  | list items => layOut "[" "]" depth (prettyItems (depth + 1) items)
  | iter items => layOut "[" "]" depth (prettyItems (depth + 1) items)
  | params items => layOut "[" "]" depth (prettyItems (depth + 1) items)
  | group key members =>
    layOut "[" "]" depth [
      prettyText (depth + 1) key,
      layOut "[" "]" (depth + 1) (prettyItems (depth + 2) members)]
  | map entries => layOut "\x7b" "\x7d" depth (prettyEntries (depth + 1) entries)
  | bound value hint =>
    layOut "BoundValue \x7b" "\x7d" depth [
      "value: " ++ prettyText (depth + 1) value,
      "name_hint: " ++ Text.quoted hint]
  | v => debugText v

def prettyItems (depth : Nat) : List Value → List String
  | [] => []
  | v :: rest => prettyText depth v :: prettyItems depth rest

def prettyEntries (depth : Nat) : List (Value × Value) → List String
  | [] => []
  | (k, v) :: rest =>
    (prettyText depth k ++ ": " ++ prettyText depth v) :: prettyEntries depth rest

end

end Value

end QueryTemplate
