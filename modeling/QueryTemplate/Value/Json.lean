import QueryTemplate.Format
import QueryTemplate.Value.Show

/-!
Values and queries as compact JSON text, the form in which rendered queries are handed on.
-/

namespace QueryTemplate

namespace Text

def jsonChar (c : Char) : String :=
  if c == '"' then "\\\""
  else if c == '\\' then "\\\\"
  else if c == '\n' then "\\n"
  else if c == '\t' then "\\t"
  else if c == '\r' then "\\r"
  else if c.toNat == 8 then "\\b"
  else if c.toNat == 12 then "\\f"
  else if c.toNat < 32 then
    "\\u00" ++ (if c.toNat < 16 then "0" else "") ++ hex c.toNat
  else c.toString

def jsonString (text : String) : String :=
  "\"" ++ String.join (text.toList.map jsonChar) ++ "\""

end Text

namespace Value

mutual

def json : Value → String
  | undefined => "null"
  | absent => "null"
  | none => "null"
  | bool b => if b then "true" else "false"
  | int n => toString n
  | float x => if x.isFinite then Number.text x else "null"
  | str text => Text.jsonString text
  | safe text => Text.jsonString text
  | bytes content => "[" ++ String.intercalate "," (content.map fun b => toString b.toNat) ++ "]"
  | list items => "[" ++ jsonItems items ++ "]"
  | iter items => "[" ++ jsonItems items ++ "]"
  | stream items _ => "[" ++ jsonItems items ++ "]"
  | group key members => "[" ++ json key ++ ",[" ++ jsonItems members ++ "]]"
  | params items => "[" ++ jsonItems items ++ "]"
  | map entries => "\x7b" ++ jsonEntries entries ++ "\x7d"
  | package _ entries => "\x7b" ++ jsonEntries entries ++ "\x7d"
  | bound value hint => Text.jsonString (bound value hint).text
  | object ref => Text.jsonString ref.text

def jsonItems : List Value → String
  | [] => ""
  | [v] => json v
  | v :: rest => json v ++ "," ++ jsonItems rest

def jsonEntries : List (Value × Value) → String
  | [] => ""
  | [(k, v)] => Text.jsonString k.text ++ ":" ++ json v
  | (k, v) :: rest => Text.jsonString k.text ++ ":" ++ json v ++ "," ++ jsonEntries rest

end

end Value

namespace Params

def json : Params → String
  | named entries =>
    let fields := entries.map fun (key, v) => Text.jsonString key ++ ":" ++ v.json
    "\x7b" ++ String.intercalate "," fields ++ "\x7d"
  | positional values => "[" ++ String.intercalate "," (values.map Value.json) ++ "]"

end Params

namespace RenderedQuery

def json (q : RenderedQuery) : String :=
  "\x7b\"query\":" ++ Text.jsonString q.query ++ ",\"params\":" ++ q.params.json ++ "\x7d"

end RenderedQuery

end QueryTemplate
