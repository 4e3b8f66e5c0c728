import QueryTemplate.Text.Scan

/-!
The part of YAML that configurations are written in: block and flow collections, plain and quoted
scalars, comments, and document markers. A scalar keeps whether it was plain, since only plain ones
can stand for null or a boolean.
-/

namespace QueryTemplate.Config

/-- A node of a document. -/
inductive Node where
  | scalar (text : String) (plain : Bool)
  | sequence (items : List Node)
  | mapping (entries : List (Node × Node))
  deriving Inhabited

namespace Node

/-- What stands where nothing is written. -/
def blank : Node := scalar "" true

end Node

namespace Document

def isLineSpace (c : Char) : Bool :=
  c == ' ' || c == '\t'

/-- Whether a text begins with white space or is at its end. -/
def isSeparated (text : List Char) : Bool :=
  match text with
  | [] => true
  | c :: _ => isLineSpace c || c == '\n'

def skipSpaces (text : List Char) : List Char :=
  text.dropWhile isLineSpace

def skipLine (text : List Char) : List Char :=
  (text.dropWhile (· != '\n')).drop 1

/-- Passes over the rest of a line on which only white space and a comment may be left. The first
argument tells whether a comment may begin right here. -/
def endOfLine (separated : Bool) (text : List Char) : Option (List Char) :=
  let rest := skipSpaces text
  match rest with
  | [] => some []
  | '\n' :: rest => some rest
  | '#' :: rest =>
    if separated || (text.head?.any isLineSpace) then some (skipLine rest) else none
  | _ => none

/-- The first line that is not blank: its indentation and the text from its first character on.
Tabs do not indent. -/
def nextContent : Nat → List Char → Option (Option (Nat × List Char))
  | 0, _ => some none
  | fuel + 1, text =>
    let indent := (text.takeWhile (· == ' ')).length
    let rest := text.drop indent
    match rest with
    | [] => some none
    | '\n' :: rest => nextContent fuel rest
    | '#' :: rest => nextContent fuel (skipLine rest)
    | '\t' :: _ =>
      match endOfLine true rest with
      | some rest => nextContent fuel rest
      | none => none
    | rest => some (some (indent, rest))

def content (text : List Char) : Option (Option (Nat × List Char)) :=
  nextContent (text.length + 1) text

def isItem (text : List Char) : Bool :=
  match text with
  | '-' :: rest => isSeparated rest
  | _ => false

def hexValue? (c : Char) : Option Nat :=
  if '0' ≤ c && c ≤ '9' then some (c.toNat - 48)
  else if 'a' ≤ c && c ≤ 'f' then some (c.toNat - 87)
  else if 'A' ≤ c && c ≤ 'F' then some (c.toNat - 55)
  else none

/-- Reads exactly `count` hexadecimal digits. -/
def takeHex : (count value : Nat) → List Char → Option (Nat × List Char)
  | 0, value, text => some (value, text)
  | _ + 1, _, [] => none
  | count + 1, value, c :: text =>
    (hexValue? c).bind fun d => takeHex count (16 * value + d) text

/-- The character of a one-letter escape. -/
def escape? (c : Char) : Option Char :=
  match c with
  | '0' => some (Char.ofNat 0)
  | 'a' => some (Char.ofNat 7)
  | 'b' => some (Char.ofNat 8)
  | 't' => some '\t'
  | 'n' => some '\n'
  | 'v' => some (Char.ofNat 11)
  | 'f' => some (Char.ofNat 12)
  | 'r' => some '\r'
  | 'e' => some (Char.ofNat 27)
  | ' ' => some ' '
  | '"' => some '"'
  | '\'' => some '\''
  | '/' => some '/'
  | '\\' => some '\\'
  | 'N' => some (Char.ofNat 0x85)
  | '_' => some (Char.ofNat 0xA0)
  | 'L' => some (Char.ofNat 0x2028)
  | 'P' => some (Char.ofNat 0x2029)
  | _ => none

/-- A line break inside a quoted scalar: a single one is a space, and further ones are kept. -/
def foldBreaks (text : List Char) : List Char × List Char :=
  let space (c : Char) : Bool := isLineSpace c || c == '\n'
  let breaks := Text.newlines (text.takeWhile space)
  (if breaks ≤ 1 then [' '] else List.replicate (breaks - 1) '\n', text.dropWhile space)

/-- The rest of a double-quoted scalar and what follows it. -/
def doubleQuoted : Nat → List Char → Option (List Char × List Char)
  | 0, _ => none
  | _, [] => none
  | fuel + 1, c :: text =>
    let put (head : List Char) (rest : List Char) :=
      (doubleQuoted fuel rest).map fun (body, rest) => (head ++ body, rest)
    match c, text with
    | '"', rest => some ([], rest)
    | '\\', '\n' :: rest => doubleQuoted fuel (skipSpaces rest)
    | '\\', e :: rest =>
      let width := match e with
        | 'x' => 2
        | 'u' => 4
        | 'U' => 8
        | _ => 0
      if width == 0 then (escape? e).bind fun c => put [c] rest
      else (takeHex width 0 rest).bind fun (n, rest) =>
        if n.isValidChar then put [Char.ofNat n] rest else none
    | '\n', rest =>
      let (folded, rest) := foldBreaks ('\n' :: rest)
      put folded rest
    | c, rest => put [c] rest

/-- The rest of a single-quoted scalar and what follows it. -/
def singleQuoted : Nat → List Char → Option (List Char × List Char)
  | 0, _ => none
  | _, [] => none
  | fuel + 1, c :: text =>
    let put (head : List Char) (rest : List Char) :=
      (singleQuoted fuel rest).map fun (body, rest) => (head ++ body, rest)
    match c, text with
    | '\'', '\'' :: rest => put ['\''] rest
    | '\'', rest => some ([], rest)
    | '\n', rest =>
      let (folded, rest) := foldBreaks ('\n' :: rest)
      put folded rest
    | c, rest => put [c] rest

/-- A quoted scalar, if one begins here. -/
def quoted? (text : List Char) : Option (Option (List Char × List Char)) :=
  match text with
  | '"' :: rest => some (doubleQuoted (rest.length + 1) rest)
  | '\'' :: rest => some (singleQuoted (rest.length + 1) rest)
  | _ => none

def isFlowMark (c : Char) : Bool :=
  c == ',' || c == '[' || c == ']' || c == '{' || c == '}'

/-- Whether a plain scalar may begin here. -/
def beginsPlain (inFlow : Bool) (text : List Char) : Bool :=
  match text with
  | [] => false
  | c :: rest =>
    if c == '-' || c == '?' || c == ':' then
      !(isSeparated rest || (inFlow && rest.head?.any isFlowMark))
    else
      !(isFlowMark c || c == '#' || c == '&' || c == '*' || c == '!' || c == '|' || c == '>' ||
        c == '\'' || c == '"' || c == '%' || c == '@' || c == '\x60' || c == '\n')

/-- The part of a plain scalar that is on one line. It ends before a colon that is followed by
white space, before a comment, and in a flow collection before its marks. -/
def plainLine (inFlow spaced : Bool) : List Char → List Char × List Char
  | [] => ([], [])
  | c :: text =>
    let stop :=
      c == '\n' || (c == '#' && spaced) || (inFlow && isFlowMark c) ||
        (c == ':' && (isSeparated text || (inFlow && text.head?.any isFlowMark)))
    if stop then ([], c :: text)
    else
      let (body, rest) := plainLine inFlow (isLineSpace c) text
      (c :: body, rest)

def trimLine (text : List Char) : List Char :=
  (text.reverse.dropWhile isLineSpace).reverse

/-- White space, line breaks and comments between the parts of a flow collection. -/
def skipFlow : Nat → Bool → List Char → List Char
  | 0, _, text => text
  | _, _, [] => []
  | fuel + 1, spaced, c :: text =>
    if isLineSpace c || c == '\n' then skipFlow fuel true text
    else if c == '#' && spaced then skipFlow fuel true (text.dropWhile (· != '\n'))
    else c :: text

def flowGap (text : List Char) : List Char :=
  skipFlow (text.length + 1) true text

/-- A plain scalar in a flow collection; its lines are joined with spaces. -/
def flowPlain : Nat → List Char → List Char × List Char
  | 0, text => ([], text)
  | fuel + 1, text =>
    let (line, rest) := plainLine true false text
    match rest with
    | '\n' :: _ =>
      let next := flowGap rest
      if beginsPlain true next then
        let (more, rest) := flowPlain fuel next
        (trimLine line ++ ' ' :: more, rest)
      else (trimLine line, next)
    | rest => (trimLine line, rest)

mutual

/-- A node of a flow collection. -/
def flowNode : Nat → List Char → Option (Node × List Char)
  | 0, _ => none
  | fuel + 1, text =>
    match text with
    | '[' :: rest =>
      (flowItems fuel (flowGap rest)).map fun (items, rest) => (.sequence items, rest)
    | '{' :: rest =>
      (flowEntries fuel (flowGap rest)).map fun (entries, rest) => (.mapping entries, rest)
    | text =>
      match quoted? text with
      | some result => result.map fun (body, rest) => (.scalar (String.ofList body) false, rest)
      | none =>
        if beginsPlain true text then
          let (body, rest) := flowPlain (text.length + 1) text
          some (.scalar (String.ofList body) true, rest)
        else none

/-- The items of a flow sequence, up to its end. An item may be a single entry of a mapping. -/
def flowItems : Nat → List Char → Option (List Node × List Char)
  | 0, _ => none
  | _, ']' :: rest => some ([], rest)
  | fuel + 1, text =>
    (flowNode fuel text).bind fun (item, rest) =>
      let rest := flowGap rest
      let (item, rest) := match rest with
        | ':' :: after =>
          match flowNode fuel (flowGap after) with
          | some (value, rest) => (Node.mapping [(item, value)], flowGap rest)
          | none => (Node.mapping [(item, .blank)], flowGap after)
        | rest => (item, rest)
      match rest with
      | ',' :: rest =>
        (flowItems fuel (flowGap rest)).map fun (items, rest) => (item :: items, rest)
      | ']' :: rest => some ([item], rest)
      | _ => none

/-- The entries of a flow mapping, up to its end. -/
def flowEntries : Nat → List Char → Option (List (Node × Node) × List Char)
  | 0, _ => none
  | _, '}' :: rest => some ([], rest)
  | fuel + 1, text =>
    (flowNode fuel text).bind fun (key, rest) =>
      let value : Option (Node × List Char) := match flowGap rest with
        | ':' :: rest =>
          let rest := flowGap rest
          match rest with
          | ',' :: _ => some (.blank, rest)
          | '}' :: _ => some (.blank, rest)
          | rest => flowNode fuel rest
        | rest => some (.blank, rest)
      value.bind fun (value, rest) =>
        match flowGap rest with
        | ',' :: rest =>
          (flowEntries fuel (flowGap rest)).map fun (entries, rest) =>
            ((key, value) :: entries, rest)
        | '}' :: rest => some ([(key, value)], rest)
        | _ => none

end

/-- The lines that continue a plain scalar: those indented more than `indent`. -/
def plainLines : Nat → (indent : Nat) → List Char → Option (List Char × List Char)
  | 0, _, text => some ([], text)
  | fuel + 1, indent, text =>
    (content text).bind fun next =>
      match next with
      | some (column, line) =>
        if column > indent then
          let (body, rest) := plainLine false true line
          if body.isEmpty then none
          else
            (endOfLine true rest).bind fun after =>
              (plainLines fuel indent after).map fun (more, rest) =>
                (' ' :: trimLine body ++ more, rest)
        else some ([], text)
      | none => some ([], text)

/-- A scalar or flow collection that begins on a line whose parent is indented by `indent`; the
line must have nothing else on it. -/
def inlineNode (indent : Int) (text : List Char) : Option (Node × List Char) :=
  let whole (result : Option (Node × List Char)) :=
    result.bind fun (node, rest) => (endOfLine false rest).map fun rest => (node, rest)
  match text with
  | '[' :: _ => whole (flowNode (text.length + 1) text)
  | '{' :: _ => whole (flowNode (text.length + 1) text)
  | text =>
    match quoted? text with
    | some result =>
      whole (result.map fun (body, rest) => (.scalar (String.ofList body) false, rest))
    | none =>
      if beginsPlain false text then
        let (body, rest) := plainLine false false text
        (endOfLine true rest).bind fun after =>
          let more := if indent < 0 then plainLines after.length 0 after
            else plainLines after.length indent.toNat after
          more.map fun (more, rest) =>
            (.scalar (String.ofList (trimLine body ++ more)) true, rest)
      else none

/-- The key of a mapping entry and the text behind its colon, if an entry begins here. -/
def key? (text : List Char) : Option (Node × List Char) :=
  let colon (node : Node) (rest : List Char) : Option (Node × List Char) :=
    match skipSpaces rest with
    | ':' :: after => if isSeparated after then some (node, after) else none
    | _ => none
  match quoted? text with
  | some (some (body, rest)) => colon (.scalar (String.ofList body) false) rest
  | some none => none
  | none =>
    if beginsPlain false text then
      let (body, rest) := plainLine false false text
      colon (.scalar (String.ofList (trimLine body)) true) rest
    else none

mutual

/-- The node of the lines that follow, which must be indented by at least `least`. The text begins
with a line. -/
def blockNode : Nat → (least : Nat) → List Char → Option (Node × List Char)
  | 0, _, _ => none
  | fuel + 1, least, text =>
    (content text).bind fun next =>
      match next with
      | none => some (.blank, [])
      | some (column, line) =>
        if column < least then some (.blank, text)
        else if isItem line then
          (blockItems fuel column text).map fun (items, rest) => (.sequence items, rest)
        else
          match key? line with
          | some _ =>
            (blockEntries fuel column text).map fun (entries, rest) => (.mapping entries, rest)
          | none => inlineNode ((least : Int) - 1) line

/-- The items of a block sequence at a column. -/
def blockItems : Nat → (column : Nat) → List Char → Option (List Node × List Char)
  | 0, _, _ => none
  | fuel + 1, column, text =>
    (content text).bind fun next =>
      match next with
      | none => some ([], [])
      | some (here, line) =>
        if here < column then some ([], text)
        else if here > column then none
        else if isItem line then
          let after := line.drop 1
          let padding := (after.takeWhile (· == ' ')).length
          let body := after.drop padding
          let item := match endOfLine true after with
            | some rest => blockNode fuel (column + 1) rest
            | none =>
              if isItem body || (key? body).isSome then
                blockNode fuel (column + 1)
                  (List.replicate (column + 1 + padding) ' ' ++ body)
              else inlineNode column body
          item.bind fun (item, rest) =>
            (blockItems fuel column rest).map fun (items, rest) => (item :: items, rest)
        else some ([], text)

/-- The entries of a block mapping at a column. -/
def blockEntries : Nat → (column : Nat) → List Char → Option (List (Node × Node) × List Char)
  | 0, _, _ => none
  | fuel + 1, column, text =>
    (content text).bind fun next =>
      match next with
      | none => some ([], [])
      | some (here, line) =>
        if here < column then some ([], text)
        else if here > column then none
        else
          (key? line).bind fun (key, after) =>
            let value := match endOfLine true after with
              | none => inlineNode column (skipSpaces after)
              | some rest =>
                match content rest with
                | none => none
                | some none => some (.blank, [])
                | some (some (next, line)) =>
                  if next == column && isItem line then
                    (blockItems fuel column rest).map fun (items, rest) => (.sequence items, rest)
                  else blockNode fuel (column + 1) rest
            value.bind fun (value, rest) =>
              (blockEntries fuel column rest).map fun (entries, rest) =>
                ((key, value) :: entries, rest)

end

/-- Whether a line is a document marker made of three of the characters `c`. -/
def isMark (c : Char) (line : List Char) : Bool :=
  match Text.dropHead? [c, c, c] line with
  | some rest => isSeparated rest
  | none => false

/-- Splits a stream into the lines of its documents. `current` is the document in progress in
reverse order, if there is one. -/
def splitDocuments : (current : Option (List (List Char))) → List (List Char) →
    List (List (List Char))
  | current, [] => current.toList.map List.reverse
  | current, line :: lines =>
    if isMark '-' line then
      current.toList.map List.reverse ++ splitDocuments (some [line.drop 3]) lines
    else if isMark '.' line then
      current.toList.map List.reverse ++ splitDocuments none lines
    else
      match current with
      | some done => splitDocuments (some (line :: done)) lines
      | none =>
        let blank := match skipSpaces line with
          | [] => true
          | c :: _ => c == '#' || c == '%'
        if blank then splitDocuments none lines else splitDocuments (some [line]) lines

/-- Line breaks of any sort as single line feeds. -/
def normalizeBreaks : List Char → List Char
  | [] => []
  | '\r' :: '\n' :: rest => '\n' :: normalizeBreaks rest
  | '\r' :: rest => '\n' :: normalizeBreaks rest
  | c :: rest => c :: normalizeBreaks rest

/-- The node of one document, which must be all there is in it. -/
def readDocument (lines : List (List Char)) : Option Node :=
  let text := ['\n'].intercalate lines
  (blockNode (2 * text.length + 2) 0 text).bind fun (node, rest) =>
    match content rest with
    | some none => some node
    | _ => none

end Document

/-- The node of a text with at most one document; a text without any has a blank node. -/
def readNode (text : List Char) : Option Node :=
  let text := match text with
    | '\ufeff' :: rest => rest
    | text => text
  let text := Document.normalizeBreaks text
  match Document.splitDocuments none (Text.splitAll ['\n'] text.length text) with
  | [] => some .blank
  | [lines] => Document.readDocument lines
  | _ => none

end QueryTemplate.Config
