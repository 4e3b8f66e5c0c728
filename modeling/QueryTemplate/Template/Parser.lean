import QueryTemplate.Template.Ast
import QueryTemplate.Template.Lexer
import QueryTemplate.Value.Number
import QueryTemplate.Value.Order

/-!
Reads templates. The parser goes through the tokens from left to right and never goes back; a fault
of the lexer counts when the parser gets to it. Every function takes a bound on how deep it may
nest, which is larger than any template with these tokens can need.
-/

namespace QueryTemplate.Template

/-- Where the parser is. `last` is the line of the last token it has passed. -/
structure ParserState where
  rest : List Lexeme
  fault : Option SyntaxFault
  last : Nat := 1
  blocks : List String := []
  inMacro : Bool := false
  depth : Nat := 0

/-- A parser: it reads tokens or finds a fault. -/
abbrev Parser := StateT ParserState (Except SyntaxFault)

namespace Parser

def fail {α : Type} (text : String) : Parser α := fun s =>
  .error { text, line := some s.last }

/-- The next token, if there is one. -/
def peek : Parser (Option Token) := fun s =>
  match s.rest, s.fault with
  | lexeme :: _, _ => .ok (some lexeme.token, s)
  | [], some fault => .error { fault with line := some (fault.line.getD s.last) }
  | [], none => .ok (none, s)

/-- Passes over the next token. -/
def next : Parser (Option Lexeme) := do
  let _ ← peek
  let s ← get
  match s.rest with
  | lexeme :: rest =>
    set { s with rest, last := lexeme.line }
    return some lexeme
  | [] => return none

def unexpected {α : Type} (found : Option Lexeme) (wanted : String) : Parser α :=
  match found with
  | some lexeme => fail ("unexpected " ++ lexeme.token.describe ++ ", expected " ++ wanted)
  | none => fail ("unexpected end of input, expected " ++ wanted)

/-- The line of the next token, or of the last one at the end of the source. -/
def nextLine : Parser Nat := do
  let s ← get
  match s.rest with
  | lexeme :: _ => return lexeme.line
  | [] => return s.last

def lastLine : Parser Nat := do
  return (← get).last

def isNext (token : Token) : Parser Bool := do
  return (← peek) == some token

/-- Passes over the next token if it is the given one. -/
def skip (token : Token) : Parser Bool := do
  if ← isNext token then
    let _ ← next
    return true
  else return false

def skipSymbol (text : String) : Parser Bool := skip (.symbol text)

def skipWord (word : String) : Parser Bool := skip (.name word)

def expect (token : Token) (wanted : String) : Parser Unit := do
  let found ← next
  match found with
  | some lexeme => if lexeme.token = token then return () else unexpected found wanted
  | none => unexpected found wanted

def expectSymbol (text : String) : Parser Unit := expect (.symbol text) ("`" ++ text ++ "`")

def expectBlockEnd : Parser Unit := expect .blockEnd "end of block"

def identifier : Parser String := do
  let found ← next
  match found with
  | some ⟨.name text, _⟩ => return text
  | _ => unexpected found "identifier"

/-- How deep expressions and statements may be nested. -/
def maxDepth : Nat := 150

/-- Runs a parser one level deeper. -/
def nested {α : Type} (p : Parser α) : Parser α := do
  let s ← get
  if s.depth ≥ maxDepth then fail "template exceeds maximum recursion limits"
  else
    set { s with depth := s.depth + 1 }
    let a ← p
    modify fun t => { t with depth := s.depth }
    return a

/-- The value of a literal. -/
def literal? : Token → Option Value
  | .string text => some (.str text)
  | .int n => some (.int n)
  | .float digits exponent => some (.float (Number.ofDecimal digits exponent))
  | .name "true" => some (.bool true)
  | .name "True" => some (.bool true)
  | .name "false" => some (.bool false)
  | .name "False" => some (.bool false)
  | .name "none" => some .none
  | .name "None" => some .none
  | _ => none

/-- The values of expressions that are all constant. -/
def constants? : List Expr → Option (List Value)
  | [] => some []
  | .const _ v :: rest => (constants? rest).map (v :: ·)
  | _ :: _ => none

def constantEntries? : List (Expr × Expr) → Option (List (Value × Value))
  | [] => some []
  | (.const _ k, .const _ v) :: rest => (constantEntries? rest).map ((k, v) :: ·)
  | _ :: _ => none

/-- The operator of a precedence level that a token stands for. -/
def operator? (level : Nat) (token : Token) : Option (Expr → Expr → Expr) :=
  match level, token with
  | 0, .name "or" => some .or
  | 1, .name "and" => some .and
  | 4, .symbol "+" => some (.binary .add)
  | 4, .symbol "-" => some (.binary .sub)
  | 5, .symbol "~" => some (.binary .concat)
  | 6, .symbol "*" => some (.binary .mul)
  | 6, .symbol "/" => some (.binary .div)
  | 6, .symbol "//" => some (.binary .floorDiv)
  | 6, .symbol "%" => some (.binary .rem)
  | 7, .symbol "**" => some (.binary .pow)
  | _, _ => none

/-- The comparison that a token stands for. -/
def comparison? (token : Token) : Option Operator :=
  match token with
  | .symbol "==" => some .equal
  | .symbol "!=" => some .notEqual
  | .symbol "<" => some .less
  | .symbol "<=" => some .lessEqual
  | .symbol ">" => some .greater
  | .symbol ">=" => some .greaterEqual
  | .name "in" => some .inside
  | _ => none

/-- The expression of comparisons that follow an operand. -/
def compared (line : Nat) (a : Expr) (steps : List (Comparison × Expr)) : Expr :=
  match steps with
  | [] => a
  | [(step, b)] =>
    let e := Expr.binary step.op a b
    if step.negated then .not line e else e
  | steps => .chain a steps

/-- A list in an expression. -/
def listOf (line : Nat) (items : List Expr) : Expr :=
  match constants? items with
  | some values => .const line (.list values)
  | none => .list line items

def mapOf (line : Nat) (entries : List (Expr × Expr)) : Expr :=
  match constantEntries? entries with
  | some values => .const line (Value.mapOf values)
  | none => .map line entries

/-- String literals that stand one behind the other are one. -/
def adjacentStrings : Nat → String → Parser String
  | 0, _ => fail "template is nested too deeply"
  | fuel + 1, text => do
    match ← peek with
    | some (.string more) =>
      let _ ← next
      adjacentStrings fuel (text ++ more)
    | _ => return text

/-- The name of a filter or test, which may have dots. -/
def dottedName : Nat → Parser String
  | 0 => fail "template is nested too deeply"
  | fuel + 1 => do
    let name ← identifier
    if ← skipSymbol "." then return name ++ "." ++ (← dottedName fuel)
    else return name

/-- Whether a token can begin the argument of a test that is written without parentheses. -/
def beginsTestArgument : Token → Bool
  | .name word => !(["and", "or", "else", "is"].contains word)
  | .string _ => true
  | .int _ => true
  | .float .. => true
  | .symbol text => ["+", "-", "[", "\x7b"].contains text
  | _ => false

mutual

/-- An expression, one level deeper. -/
def expr : Nat → Parser Expr
  | 0 => fail "template is nested too deeply"
  | fuel + 1 => nested (choice fuel)

/-- An expression, with an optional condition behind it. -/
def choice : Nat → Parser Expr
  | 0 => fail "template is nested too deeply"
  | fuel + 1 => do
    let line ← lastLine
    let e ← level fuel 0
    conditions fuel line e

/-- The conditions behind an expression. -/
def conditions : Nat → (line : Nat) → Expr → Parser Expr
  | 0, _, _ => fail "template is nested too deeply"
  | fuel + 1, line, e => do
    if ← skipWord "if" then
      let test ← level fuel 0
      let no ← if ← skipWord "else" then some <$> choice fuel else pure none
      conditions fuel (← lastLine) (.conditional line test e no)
    else return e

/-- An expression of a precedence level: or, and, not, comparison, sum, concatenation, product,
power, and finally a signed operand with its filters. -/
def level : Nat → Nat → Parser Expr
  | 0, _ => fail "template is nested too deeply"
  | fuel + 1, n =>
    if n = 2 then do
      let line ← nextLine
      if ← skipWord "not" then return .not line (← level fuel 2)
      else level fuel 3
    else if n = 3 then do
      let line ← lastLine
      let a ← level fuel 4
      return compared line a (← comparisons fuel)
    else if n < 8 then do
      let e ← level fuel (n + 1)
      operations fuel n e
    else do
      let line ← nextLine
      let e ← unary fuel
      let e ← postfix_ fuel line e
      filters fuel e

/-- The comparisons behind an operand. -/
def comparisons : Nat → Parser (List (Comparison × Expr))
  | 0 => fail "template is nested too deeply"
  | fuel + 1 => do
    match ← peek with
    | none => return []
    | some token =>
      let step ← if token = .name "not" then do
          let _ ← next
          expect (.name "in") "in"
          pure (some { op := .inside, negated := true })
        else
          match comparison? token with
          | some op => do
            let _ ← next
            pure (some { op })
          | none => pure none
      match step with
      | none => return []
      | some (step : Comparison) =>
        let b ← level fuel 4
        return (step, b) :: (← comparisons fuel)

/-- The operations of a level that follow their first operand; they group to the left. -/
def operations : Nat → Nat → Expr → Parser Expr
  | 0, _, _ => fail "template is nested too deeply"
  | fuel + 1, n, a => do
    match ← peek with
    | none => return a
    | some token =>
      match operator? n token with
      | some op =>
        let _ ← next
        let b ← level fuel (n + 1)
        operations fuel n (op a b)
      | none => return a

/-- An operand with its signs. -/
def unary : Nat → Parser Expr
  | 0 => fail "template is nested too deeply"
  | fuel + 1 => do
    let line ← nextLine
    if ← skipSymbol "-" then return .neg line (← nested (unary fuel))
    else nested (primary fuel)

/-- A name, a literal, or an expression in brackets. -/
def primary : Nat → Parser Expr
  | 0 => fail "template is nested too deeply"
  | fuel + 1 => do
    let found ← next
    match found with
    | none => unexpected found "expression"
    | some ⟨token, line⟩ =>
      match literal? token with
      | some (.str text) => return .const line (.str (← adjacentStrings fuel text))
      | some v => return .const line v
      | none =>
        match token with
        | .name text => return .var line text
        | .symbol "(" =>
          if ← skipSymbol ")" then return .const line (.list [])
          else
            let e ← expr fuel
            if ← isNext (.symbol ",") then
              let rest ← items fuel ")" false
              return listOf line (e :: rest)
            else
              expectSymbol ")"
              return e
        | .symbol "[" => return listOf line (← items fuel "]" true)
        | .symbol "\x7b" => return mapOf line (← entries fuel true)
        | _ => fail ("unexpected " ++ token.describe)

/-- The items of a list up to its closing symbol; the first one has no comma in front. -/
def items : Nat → (close : String) → (first : Bool) → Parser (List Expr)
  | 0, _, _ => fail "template is nested too deeply"
  | fuel + 1, close, first => do
    if ← skipSymbol close then return []
    if !first then
      expectSymbol ","
      if ← skipSymbol close then return []
    let e ← expr fuel
    return e :: (← items fuel close false)

/-- The entries of a map up to its closing brace. -/
def entries : Nat → (first : Bool) → Parser (List (Expr × Expr))
  | 0, _ => fail "template is nested too deeply"
  | fuel + 1, first => do
    if ← skipSymbol "\x7d" then return []
    if !first then
      expectSymbol ","
      if ← skipSymbol "\x7d" then return []
    let key ← expr fuel
    expectSymbol ":"
    let value ← expr fuel
    return (key, value) :: (← entries fuel false)

/-- Attributes, subscripts and calls behind an operand that begins on a line. -/
def postfix_ : Nat → (line : Nat) → Expr → Parser Expr
  | 0, _, _ => fail "template is nested too deeply"
  | fuel + 1, line, e => do
    if ← skipSymbol "." then
      let found ← next
      match found with
      | some ⟨.name name, _⟩ => postfix_ fuel line (.attr e name)
      | some ⟨.int n, l⟩ => postfix_ fuel line (.index e (.const l (.int n)))
      | _ => unexpected found "identifier"
    else if ← skipSymbol "[" then
      let start ← if ← isNext (.symbol ":") then pure none else some <$> expr fuel
      if ← skipSymbol ":" then
        let stop ← if (← isNext (.symbol "]")) || (← isNext (.symbol ":")) then pure none
          else some <$> expr fuel
        let step ← if ← skipSymbol ":" then
            if ← isNext (.symbol "]") then pure none else some <$> expr fuel
          else pure none
        expectSymbol "]"
        postfix_ fuel line (.slice e start stop step)
      else
        expectSymbol "]"
        match start with
        | some key => postfix_ fuel line (.index e key)
        | none => fail "empty subscript"
    else if ← isNext (.symbol "(") then
      let args ← arguments fuel
      postfix_ fuel line (.call line e args)
    else return e

/-- Filters and tests behind an operand. -/
def filters : Nat → Expr → Parser Expr
  | 0, _ => fail "template is nested too deeply"
  | fuel + 1, e => do
    if ← skipSymbol "|" then
      let line ← nextLine
      let name ← dottedName fuel
      let args ← if ← isNext (.symbol "(") then arguments fuel else pure []
      filters fuel (.filter line (some e) name args)
    else if ← skipWord "is" then
      let line ← lastLine
      let negated ← skipWord "not"
      let name ← dottedName fuel
      let args ← testArguments fuel
      let e := Expr.test e name args
      filters fuel (if negated then .not line e else e)
    else return e

/-- The arguments of a test. A single one needs no parentheses. -/
def testArguments : Nat → Parser (List (ArgKind × Expr))
  | 0 => fail "template is nested too deeply"
  | fuel + 1 => do
    if ← isNext (.symbol "(") then arguments fuel
    else
      match ← peek with
      | some token =>
        if beginsTestArgument token then
          let line ← nextLine
          let e ← unary fuel
          return [(.positional, ← postfix_ fuel line e)]
        else return []
      | none => return []

/-- Arguments in parentheses. -/
def arguments : Nat → Parser (List (ArgKind × Expr))
  | 0 => fail "template is nested too deeply"
  | fuel + 1 => do
    expectSymbol "("
    moreArguments fuel true false

/-- Arguments up to the closing parenthesis. Behind a named one only named ones may follow. -/
def moreArguments : Nat → (first named : Bool) → Parser (List (ArgKind × Expr))
  | 0, _, _ => fail "template is nested too deeply"
  | fuel + 1, first, named => do
    if ← skipSymbol ")" then return []
    if !first then
      expectSymbol ","
      if ← skipSymbol ")" then return []
    if ← skipSymbol "**" then
      let e ← expr fuel
      return (.spreadNamed, e) :: (← moreArguments fuel false true)
    else if ← skipSymbol "*" then
      let e ← expr fuel
      return (.spread, e) :: (← moreArguments fuel false named)
    else
      let e ← expr fuel
      match e with
      | .var _ name =>
        if ← skipSymbol "=" then
          let value ← level fuel 0
          return (.named name, value) :: (← moreArguments fuel false true)
        else if named then fail "non-keyword arg after keyword arg"
        else return (.positional, e) :: (← moreArguments fuel false named)
      | e =>
        if named then fail "non-keyword arg after keyword arg"
        else return (.positional, e) :: (← moreArguments fuel false named)

end

/-- Names that cannot be assigned to. -/
def fixedNames : List String :=
  ["true", "True", "false", "False", "none", "None", "loop", "self"]

/-- A name that a value is assigned to. -/
def assignName : Parser String := do
  let name ← identifier
  if fixedNames.contains name then fail ("cannot assign to reserved variable name " ++ name)
  else return name

/-- The attributes of a target behind its first name. -/
def dotted : Nat → Expr → Parser Target
  | 0, _ => fail "template is nested too deeply"
  | fuel + 1, record => do
    let name ← identifier
    if ← skipSymbol "." then dotted fuel (.attr record name)
    else return .attr record name

/-- A name, or an attribute of one where those can be assigned to. -/
def assignPath (fuel : Nat) (withAttrs : Bool) : Parser Target := do
  let name ← assignName
  let line ← lastLine
  if withAttrs && (← skipSymbol ".") then dotted fuel (.var line name)
  else return .name name

/-- Whether the targets of an assignment end here. -/
def targetsEnd : Parser Bool := do
  match ← peek with
  | some (.symbol ")") => return true
  | some .expressionEnd => return true
  | some .blockEnd => return true
  | some (.name "in") => return true
  | _ => return false

mutual

/-- Targets of an assignment; several make a tuple. -/
def targets : Nat → (withAttrs : Bool) → Parser Target
  | 0, _ => fail "template is nested too deeply"
  | fuel + 1, withAttrs => do
    let line ← nextLine
    let (found, isTuple) ← moreTargets fuel withAttrs true
    match found, isTuple with
    | [target], false => return target
    | found, _ => return .tuple line found

/-- A single target, or several in parentheses. -/
def target : Nat → (withAttrs : Bool) → Parser Target
  | 0, _ => fail "template is nested too deeply"
  | fuel + 1, withAttrs => do
    if ← skipSymbol "(" then
      let inner ← nested (targets fuel withAttrs)
      expectSymbol ")"
      return inner
    else assignPath fuel withAttrs

/-- Targets separated by commas, and whether there was a comma. -/
def moreTargets : Nat → (withAttrs first : Bool) → Parser (List Target × Bool)
  | 0, _, _ => fail "template is nested too deeply"
  | fuel + 1, withAttrs, first => do
    if !first then expectSymbol ","
    if ← targetsEnd then return ([], !first)
    let found ← target fuel withAttrs
    if ← isNext (.symbol ",") then
      let (rest, _) ← moreTargets fuel withAttrs false
      return (found :: rest, true)
    else return ([found], !first)

end

/-- The parameters of a template macro up to the closing parenthesis. Behind one with a fallback
the others need one too. -/
def params : Nat → (first optional : Bool) → Parser (List Param)
  | 0, _, _ => fail "template is nested too deeply"
  | fuel + 1, first, optional => do
    if ← skipSymbol ")" then return []
    if !first then
      expectSymbol ","
      if ← skipSymbol ")" then return []
    let name ← assignName
    if ← skipSymbol "=" then
      let fallback ← expr fuel
      return ⟨name, some fallback⟩ :: (← params fuel false true)
    else if optional then
      let found ← next
      unexpected found "`=`"
    else return ⟨name, none⟩ :: (← params fuel false false)

/-- The filters of a filter block, up to the end of its tag. -/
def filterChain : Nat → Option Expr → Parser Expr
  | 0, _ => fail "template is nested too deeply"
  | fuel + 1, subject => do
    if ← isNext .blockEnd then
      match subject with
      | some e => return e
      | none => fail "expected a filter"
    else
      if subject.isSome then expectSymbol "|"
      let line ← nextLine
      let name ← dottedName fuel
      let args ← if ← isNext (.symbol "(") then arguments fuel else pure []
      filterChain fuel (some (.filter line subject name args))

/-- The assignments of a `with` tag. -/
def assignments : Nat → (first : Bool) → Parser (List (Target × Expr))
  | 0, _ => fail "template is nested too deeply"
  | fuel + 1, first => do
    if ← isNext .blockEnd then return []
    if !first then expectSymbol ","
    let found ← target fuel false
    expect (.symbol "=") "assignment operator"
    let e ← expr fuel
    return (found, e) :: (← assignments fuel false)

/-- The items behind the first one of a list without brackets, up to the end of the tag. -/
def looseItems : Nat → Parser (List Expr)
  | 0 => fail "template is nested too deeply"
  | fuel + 1 => do
    if ← skipSymbol "," then
      if ← isNext .blockEnd then return []
      let e ← expr fuel
      return e :: (← looseItems fuel)
    else return []

/-- The value of an assignment. Several values separated by commas are a list. -/
def assigned (fuel : Nat) : Parser Expr := do
  let line ← nextLine
  let e ← expr fuel
  if ← isNext (.symbol ",") then return listOf line (e :: (← looseItems fuel))
  else return e

/-- The words that say whether an included template sees the context; it always does. -/
def contextWords : Parser Bool := do
  if (← skipWord "without") || (← skipWord "with") then
    expect (.name "context") "missing keyword"
    return true
  else return false

def ignoreWords : Parser Bool := do
  if ← skipWord "ignore" then
    expect (.name "missing") "missing keyword"
    return true
  else return false

/-- The names of a `from` tag and the names they get. -/
def importedNames : Nat → (first : Bool) → Parser (List (String × String))
  | 0, _ => fail "template is nested too deeply"
  | fuel + 1, first => do
    if ← isNext .blockEnd then return []
    if !first then expectSymbol ","
    if ← isNext .blockEnd then return []
    if (← isNext (.name "without")) || (← isNext (.name "with")) then
      let _ ← contextWords
      return []
    let name ← assignName
    let alias_ ← if ← skipWord "as" then assignName else pure name
    return (name, alias_) :: (← importedNames fuel false)

/-- The call of a `call` or `do` tag. -/
def callOf (what : String) (e : Expr) : Parser Expr :=
  match e with
  | .call _ _ _ => return e
  | _ => fail ("expected call expression in " ++ what)

/-- Whether there is nothing but white space in a body. -/
def isBlank (body : List Stmt) : Bool :=
  body.all fun
    | .text _ text => text.toList.all Text.isSpace
    | _ => false

def startBlock (name : String) : Parser Unit := do
  let s ← get
  if s.inMacro then fail "block tags in macros are not allowed"
  else if s.blocks.contains name then fail ("block '" ++ name ++ "' defined twice")
  else set { s with blocks := name :: s.blocks }

/-- The word that lets a block see what is around it. Every block does, so it changes nothing. -/
def skipScoped : Parser Unit := do
  let _ ← skipWord "scoped"

/-- The name that may follow the end of a block; it must be the block's. -/
def endBlock (name : String) : Parser Unit := do
  match ← peek with
  | some (.name trailing) =>
    if trailing = name then
      let _ ← next
      return ()
    else fail ("mismatching name on block. Got `" ++ trailing ++ "`, expected `" ++ name ++ "`")
  | _ => return ()

mutual

/-- Statements up to the end of the source or to a tag with one of the given names, of which the
opening delimiter has been read. -/
def body : Nat → (stops : List String) → Parser (List Stmt)
  | 0, _ => fail "template is nested too deeply"
  | fuel + 1, stops => do
    match ← next with
    | none => return []
    | some ⟨.data text, line⟩ => return .text line text :: (← body fuel stops)
    | some ⟨.expressionStart, line⟩ =>
      let e ← expr fuel
      expect .expressionEnd "end of variable block"
      return .emit line e :: (← body fuel stops)
    | some ⟨.blockStart, _⟩ =>
      match ← peek with
      | none => unexpected none "keyword"
      | some token =>
        if stops.any fun word => token == .name word then return []
        else
          let s ← nested (statement fuel)
          expectBlockEnd
          return s :: (← body fuel stops)
    | some lexeme => fail ("unexpected " ++ lexeme.token.describe)

/-- Statements up to the tag with the given name, which is read as well. -/
def section_ : Nat → (stop : String) → Parser (List Stmt)
  | 0, _ => fail "template is nested too deeply"
  | fuel + 1, stop => do
    let stmts ← body fuel [stop]
    let _ ← next
    return stmts

/-- The condition of an `if` tag, its body and what follows it. -/
def branches : Nat → (line : Nat) → Parser Stmt
  | 0, _ => fail "template is nested too deeply"
  | fuel + 1, line => do
    let test ← expr fuel
    expectBlockEnd
    let yes ← body fuel ["endif", "else", "elif"]
    match ← next with
    | some ⟨.name "else", _⟩ =>
      expectBlockEnd
      return .branch line test yes (← section_ fuel "endif")
    | some ⟨.name "elif", line'⟩ => return .branch line test yes [← branches fuel line']
    | _ => return .branch line test yes []

/-- The body of a template macro. -/
def macroBody : Nat → (stop : String) → Parser (List Stmt)
  | 0, _ => fail "template is nested too deeply"
  | fuel + 1, stop => do
    expectBlockEnd
    let outer := (← get).inMacro
    modify fun s => { s with inMacro := true }
    let stmts ← body fuel [stop]
    modify fun s => { s with inMacro := outer }
    let _ ← next
    return stmts

/-- A statement behind the opening delimiter of its tag. -/
def statement : Nat → Parser Stmt
  | 0 => fail "template is nested too deeply"
  | fuel + 1 => do
    let found ← next
    match found with
    | some ⟨.name word, line⟩ =>
      match word with
      | "for" =>
        let found ← targets fuel false
        expect (.name "in") "in"
        let items ← level fuel 0
        let condition ← if ← skipWord "if" then some <$> expr fuel else pure none
        let recursive ← skipWord "recursive"
        expectBlockEnd
        let stmts ← body fuel ["endfor", "else"]
        let otherwise ← if ← skipWord "else" then do
            expectBlockEnd
            body fuel ["endfor"]
          else pure []
        let _ ← next
        return .loop line found items condition recursive stmts otherwise
      | "if" => branches fuel line
      | "with" =>
        let assigned ← assignments fuel true
        expectBlockEnd
        return .within line assigned (← section_ fuel "endwith")
      | "set" =>
        if ← isNext .blockEnd then fail "expected a target"
        let found ← targets fuel true
        if (← isNext .blockEnd) || (← isNext (.symbol "|")) then
          let filter ← if ← skipSymbol "|" then some <$> filterChain fuel none else pure none
          expectBlockEnd
          return .assignBlock line found filter (← section_ fuel "endset")
        else
          expect (.symbol "=") "assignment operator"
          return .assign line found (← assigned fuel)
      | "autoescape" =>
        let enabled ← expr fuel
        expectBlockEnd
        return .escaping line enabled (← section_ fuel "endautoescape")
      | "filter" =>
        let filter ← filterChain fuel none
        expectBlockEnd
        return .filtered line filter (← section_ fuel "endfilter")
      | "block" =>
        if (← get).inMacro then fail "block tags in macros are not allowed"
        let name ← identifier
        startBlock name
        skipScoped
        let required ← skipWord "required"
        expectBlockEnd
        let stmts ← section_ fuel "endblock"
        if required && !isBlank stmts then
          fail "required blocks can only contain comments or whitespace"
        endBlock name
        return .block line name required stmts
      | "extends" => return .inherit line (← expr fuel)
      | "include" =>
        let template ← expr fuel
        if ← contextWords then return .inclusion line template (← ignoreWords)
        else
          let ignoreMissing ← ignoreWords
          if ignoreMissing then
            let _ ← contextWords
          return .inclusion line template ignoreMissing
      | "import" =>
        let template ← expr fuel
        expect (.name "as") "as"
        let found ← target fuel true
        let _ ← contextWords
        return .importAs line template found
      | "from" =>
        let template ← expr fuel
        expect (.name "import") "import"
        return .importNames line template (← importedNames fuel true)
      | "macro" =>
        let name ← identifier
        expectSymbol "("
        let ps ← params fuel true false
        return .declare line name ps (← macroBody fuel "endmacro")
      | "call" =>
        let ps ← if ← skipSymbol "(" then params fuel true false else pure []
        let call ← callOf "call block" (← expr fuel)
        return .callBlock line call ps (← macroBody fuel "endcall")
      | "do" =>
        return .perform line (← callOf "do block" (← expr fuel))
      | word => fail ("unknown statement " ++ word)
    | some lexeme => fail ("unknown " ++ lexeme.token.describe ++ ", expected statement")
    | none => unexpected none "block keyword"

end

end Parser

/-- Reads a template. -/
def parse (ws : Whitespace) (name : String) (source : List Char) : Except SyntaxFault Source :=
  let lexed := lex ws source
  let fuel := 16 * lexed.lexemes.length + 64
  match (Parser.body fuel []).run { rest := lexed.lexemes, fault := lexed.fault } with
  | .ok (stmts, _) => .ok ⟨name, stmts, blocksOf stmts⟩
  | .error fault => .error fault

end QueryTemplate.Template
