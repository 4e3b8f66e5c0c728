import QueryTemplate.Reserved
import QueryTemplate.Text.Scan

/-!
The name hint of an expression: the dotted name it begins with, provided that nothing but filters
follows.
-/

namespace QueryTemplate

/-- Words of the expression language, which name no variable. -/
def expressionWords : List String :=
  ["and", "or", "not", "in", "is", "if", "else", "true", "false", "none", "True", "False", "None"]

/-- Reads names joined by single dots from the front of a text. The result is the chain and what
follows it; there is none if a name is missing. The first argument bounds the number of names. -/
def takeChain : Nat → List Char → Option (List (List Char) × List Char)
  | 0, _ => none
  | fuel + 1, text =>
    match Text.takeName text with
    | ([], _) => none
    | (name, '.' :: rest) =>
      (takeChain fuel rest).map fun (chain, rest) => (name :: chain, rest)
    | (name, rest) => some ([name], rest)

/-- A chain of names joined by dots. -/
def joinChain : List (List Char) → List Char
  | [] => []
  | [name] => name
  | name :: rest => name ++ '.' :: joinChain rest

/-- The name hint of an expression. -/
def extractNameHint (expr : List Char) : Option (List Char) :=
  let expr := Text.trim expr
  match takeChain (expr.length + 1) expr with
  | none => none
  | some (chain, rest) =>
    let head := String.ofList (chain.headD [])
    if expressionWords.contains head || isReservedName head then none
    else
      match Text.trimStart rest with
      | [] => some (joinChain chain)
      | '|' :: _ => some (joinChain chain)
      | _ => none

end QueryTemplate
