import QueryTemplate.Template.Stock.FormatFilter
import QueryTemplate.Text.Case
import QueryTemplate.Text.Html

/-!
Filters of the template language on text. Those that only change the letters keep the mark of a
safe string.
-/

namespace QueryTemplate.Template.TextFilter

/-- A text as a value, marked safe if `like` is. -/
def keepMark (like : Value) (text : String) : Value :=
  if like.isSafe then .safe text else .str text

/-- A filter that changes the letters of a text. -/
def changing (f : List Char → List Char) : StockFilter := fun env v args => do
  let text ← Argument.text env v
  let _ ← args.upTo 0
  return keepMark v (String.ofList (f text.toList))

/-- The text of a value that is made safe. -/
def escapedText (env : Environment) (v : Value) : Eval String := do
  let text ← Eval.textOf env v
  match (← get).escaping with
  | .html => return if v.isSafe then text else Text.escapeHtml text
  | _ => return text

/-- A value as safe text. -/
def escape : StockFilter := fun env v args => do
  let _ ← args.upTo 0
  return .safe (← escapedText env v)

def isAsciiPunctuation (c : Char) : Bool :=
  '!' ≤ c && c ≤ '~' && !Text.isAsciiLetter c && !Text.isAsciiDigit c

/-- Upper case for the first letter of every word; `atStart` tells whether a word may begin. -/
def titleFrom (atStart : Bool) : List Char → List Char
  | [] => []
  | c :: text =>
    if isAsciiPunctuation c || Text.isSpace c then c :: titleFrom true text
    else (if atStart then Text.upperChar c else Text.lowerChar c) ++ titleFrom false text

/-- Writes every word with an upper case letter at its start. The text is put together anew from its
words, so it has no mark. -/
def title : StockFilter := fun env v args => do
  let text ← Argument.text env v
  let _ ← args.upTo 0
  return .str (String.ofList (titleFrom true text.toList))

/-- Upper case for the first letter of a text, lower case for all others. -/
def capitalize : List Char → List Char
  | [] => []
  | c :: text => Text.upperChar c ++ Text.lower text

/-- Puts `new` in place of every `old`; an empty text is found around every character. -/
def replaceAll (old new text : List Char) : List Char :=
  if old.isEmpty then new ++ text.flatMap fun c => c :: new
  else ((Text.splitAll old text.length text).intersperse new).flatten

/-- Replaces a part of a text. A safe part is looked for in the text as it is when made safe, and a
safe replacement makes it safe, too. -/
def replace : StockFilter := fun env v args => do
  let text ← Argument.text env v
  let old ← Argument.textAt env args 0
  let new ← Argument.textAt env args 1
  let given ← args.upTo 2
  let isSafe (i : Nat) : Bool := given[i]?.any Value.isSafe
  let replaced (text : String) : String :=
    String.ofList (replaceAll old.toList new.toList text.toList)
  if (← get).escaping = .off then return .str (replaced text)
  if isSafe 0 || (isSafe 1 && !v.isSafe) then
    return .safe (replaced (← escapedText env v))
  return keepMark v (replaced text)

/-- Removes white space, or the given characters, at both ends. -/
def trim : StockFilter := fun env v args => do
  let text ← Argument.text env v
  let chars? ← Argument.textAt? env args 0
  let _ ← args.upTo 1
  let drop : Char → Bool := match chars? with
    | some chars => fun c => chars.toList.contains c
    | none => Text.isSpace
  let kept := ((text.toList.dropWhile drop).reverse.dropWhile drop).reverse
  return keepMark v (String.ofList kept)

def string : StockFilter := fun env v args => do
  let _ ← args.upTo 0
  if v.kind = .string then return v
  return .str (← Argument.text env v)

/-- Texts one behind the other, with a text in between wherever something is in front. -/
def joinTexts (between : String) (texts : List String) : String :=
  texts.foldl (fun all text => (if all.isEmpty then all else all ++ between) ++ text) ""

/-- Writes the elements one after the other with a text in between. If one of them is safe, the text
in between is made safe, and so is the result. -/
def join : StockFilter := fun env v args => do
  let given ← args.upTo 1
  let joiner ← Argument.optional pure given[0]?
  match ← Eval.items? env v with
  | none => Eval.fail (.invalid ("cannot join value of type " ++ v.kind.name))
  | some items =>
    let texts ← items.mapM (Eval.textOf env)
    let joiner := joiner.getD (.str "")
    if (← get).escaping != .off && (joiner.isSafe || items.any Value.isSafe) then
      return .safe (joinTexts (← escapedText env joiner) texts)
    return .str (joinTexts (← Eval.textOf env joiner) texts)

/-- The words of a text, or its parts between a separator. A limit leaves the rest as one part. -/
def splitText (text : List Char) (separator : Option (List Char)) (limit : Nat) :
    List (List Char) :=
  match separator with
  | none =>
    let rec words : Nat → Nat → List Char → List (List Char)
      | 0, _, _ => []
      | fuel + 1, limit, text =>
        let text := text.dropWhile Text.isSpace
        if text.isEmpty then []
        else if limit = 0 then [text]
        else
          text.takeWhile (!Text.isSpace ·) ::
            words fuel (limit - 1) (text.dropWhile (!Text.isSpace ·))
    words (text.length + 1) limit text
  | some [] =>
    if limit = 0 then [text]
    else if limit > text.length then [[]] ++ text.map (fun c => [c]) ++ [[]]
    else [[]] ++ (text.take (limit - 1)).map (fun c => [c]) ++ [text.drop (limit - 1)]
  | some mark => Text.splitAll mark limit text

def split : StockFilter := fun _ v args => do
  let text ← Argument.string v
  let separator ← Argument.optional Argument.string args.toList[0]?
  let limit ← Argument.optional Argument.integer args.toList[1]?
  let _ ← args.upTo 2
  let limit := match limit with
    | some n => if n < 0 then text.length + 1 else n.toNat
    | none => text.length + 1
  let parts := splitText text.toList (separator.map String.toList) limit
  return .list (parts.map fun part => keepMark v (String.ofList part))

/-- A line without the carriage return at its end. -/
def dropReturn (line : List Char) : List Char :=
  match line.reverse with
  | '\r' :: rest => rest.reverse
  | _ => line

/-- The lines of a text; a line break at the end begins no further line. -/
def linesOf (text : List Char) : List (List Char) :=
  let parts := Text.splitAll ['\n'] text.length text
  let parts := if parts.getLast? = some [] then parts.dropLast else parts
  parts.map dropReturn

def lines : StockFilter := fun _ v args => do
  let text ← Argument.string v
  let _ ← args.upTo 0
  return .list ((linesOf text.toList).map fun line => keepMark v (String.ofList line))

def dropLineBreak (text : List Char) : List Char :=
  let text := match text.reverse with
    | '\n' :: rest => rest.reverse
    | _ => text
  dropReturn text

def indentLine (indentation : List Char) (blank : Bool) (line : List Char) : List Char :=
  if line.isEmpty && !blank then line else indentation ++ line

/-- Indents the lines of a text, the first one and blank ones only on demand. -/
def indentText (width : Nat) (first blank : Bool) (text : List Char) : List Char :=
  let text := dropLineBreak text
  let indentation := List.replicate width ' '
  let lines := match Text.splitAll ['\n'] text.length text with
    | [] => []
    | line :: rest =>
      (if first then indentLine indentation blank line else line) ::
        rest.map (indentLine indentation blank)
  dropLineBreak ((lines.map (· ++ ['\n'])).flatten)

def indent : StockFilter := fun env v args => do
  let text ← Argument.text env v
  match ← args.byPositionOrName ["width", "first", "blank"] with
  | [width, first, blank] => do
    let width := (← Argument.optional Argument.count width).getD 4
    let first ← Argument.isOn first
    let blank ← Argument.isOn blank
    return .str (String.ofList (indentText width first blank text.toList))
  | _ => Eval.fail { kind := .tooManyArguments }

def prettyPrint : StockFilter := fun env v args => do
  let _ ← args.upTo 0
  return .str ((← Eval.snapshot env v).prettyText 0)

/-- The text filter of a name. -/
def find? (name : String) : Option StockFilter :=
  match name with
  | "escape" => some escape
  | "e" => some escape
  | "upper" => some (changing Text.upper)
  | "lower" => some (changing Text.lower)
  | "title" => some title
  | "capitalize" => some (changing capitalize)
  | "replace" => some replace
  | "trim" => some trim
  | "string" => some string
  | "join" => some join
  | "split" => some split
  | "lines" => some lines
  | "indent" => some indent
  | "pprint" => some prettyPrint
  | "format" => some FormatFilter.format
  | _ => none

end QueryTemplate.Template.TextFilter
