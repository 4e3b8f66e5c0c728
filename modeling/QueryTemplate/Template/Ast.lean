import QueryTemplate.Value.Basic

/-!
The grammar of templates. A node keeps the line it begins on if an error report can refer to it.
-/

namespace QueryTemplate.Template

/-- Operators on two values that are both computed. -/
inductive Operator where
  | equal
  | notEqual
  | less
  | lessEqual
  | greater
  | greaterEqual
  | inside
  | add
  | sub
  | mul
  | div
  | floorDiv
  | rem
  | pow
  | concat
  deriving DecidableEq, Repr

/-- A step of a chain of comparisons: the operator and whether its result is turned around. -/
structure Comparison where
  op : Operator
  negated : Bool := false
  deriving DecidableEq, Repr

/-- How an argument is passed. -/
inductive ArgKind where
  | positional
  | spread
  | named (name : String)
  | spreadNamed
  deriving DecidableEq, Repr

/-- An expression. The steps of a `chain` of comparisons each compare with the operand before. The
subject of a `filter` is missing where a block takes its place. -/
inductive Expr where
  | var (line : Nat) (name : String)
  | const (line : Nat) (value : Value)
  | list (line : Nat) (items : List Expr)
  | map (line : Nat) (entries : List (Expr × Expr))
  | not (line : Nat) (e : Expr)
  | neg (line : Nat) (e : Expr)
  | binary (op : Operator) (a b : Expr)
  | chain (a : Expr) (steps : List (Comparison × Expr))
  | and (a b : Expr)
  | or (a b : Expr)
  | conditional (line : Nat) (test yes : Expr) (no : Option Expr)
  | attr (e : Expr) (name : String)
  | index (e key : Expr)
  | slice (e : Expr) (start stop step : Option Expr)
  | filter (line : Nat) (subject : Option Expr) (name : String) (args : List (ArgKind × Expr))
  | test (subject : Expr) (name : String) (args : List (ArgKind × Expr))
  | call (line : Nat) (callee : Expr) (args : List (ArgKind × Expr))
  deriving Inhabited

abbrev Arg := ArgKind × Expr

/-- Whether an argument stands in no way of computing the named ones once and for all. -/
def isFixed : Arg → Bool
  | (.named _, .const _ _) => true
  | (.named _, _) => false
  | (.spreadNamed, _) => false
  | _ => true

/-- What a value can be assigned to. -/
inductive Target where
  | name (name : String)
  | attr (record : Expr) (name : String)
  | tuple (line : Nat) (targets : List Target)
  deriving Inhabited

/-- A parameter of a template macro. -/
structure Param where
  name : String
  fallback : Option Expr

/-- A statement. -/
inductive Stmt where
  | text (line : Nat) (text : String)
  | emit (line : Nat) (e : Expr)
  | loop (line : Nat) (target : Target) (items : Expr) (condition : Option Expr)
      (recursive : Bool) (body otherwise : List Stmt)
  | branch (line : Nat) (test : Expr) (yes no : List Stmt)
  | within (line : Nat) (assignments : List (Target × Expr)) (body : List Stmt)
  | assign (line : Nat) (target : Target) (e : Expr)
  | assignBlock (line : Nat) (target : Target) (filter : Option Expr) (body : List Stmt)
  | escaping (line : Nat) (enabled : Expr) (body : List Stmt)
  | filtered (line : Nat) (filter : Expr) (body : List Stmt)
  | block (line : Nat) (name : String) (required : Bool) (body : List Stmt)
  | inherit (line : Nat) (parent : Expr)
  | inclusion (line : Nat) (template : Expr) (ignoreMissing : Bool)
  | importAs (line : Nat) (template : Expr) (target : Target)
  | importNames (line : Nat) (template : Expr) (names : List (String × String))
  | declare (line : Nat) (name : String) (params : List Param) (body : List Stmt)
  | callBlock (line : Nat) (call : Expr) (params : List Param) (body : List Stmt)
  | perform (line : Nat) (call : Expr)
  deriving Inhabited

/-- The body of a block and the line it begins on. A required block has to be replaced by the
templates that extend its own. -/
structure Block where
  line : Nat
  required : Bool
  body : List Stmt
  deriving Inhabited

/-- A template as it was read. -/
structure Source where
  name : String
  body : List Stmt
  blocks : List (String × Block)

mutual

/-- The blocks a statement defines, also those inside other blocks. -/
def Stmt.blocks : Stmt → List (String × Block)
  | .block line name required body => (name, ⟨line, required, body⟩) :: blocksOf body
  | .loop _ _ _ _ _ body otherwise => blocksOf body ++ blocksOf otherwise
  | .branch _ _ yes no => blocksOf yes ++ blocksOf no
  | .within _ _ body => blocksOf body
  | .assignBlock _ _ _ body => blocksOf body
  | .escaping _ _ body => blocksOf body
  | .filtered _ _ body => blocksOf body
  | _ => []

def blocksOf : List Stmt → List (String × Block)
  | [] => []
  | s :: rest => s.blocks ++ blocksOf rest

end

mutual

/-- The line an error would be reported on right after an expression was computed that began when
the current line was `line`: the line of the last part that sets it. -/
def Expr.lastLine (line : Nat) : Expr → Nat
  | .var l _ => l
  | .const l _ => l
  | .list l items => lastLineOf l items
  | .map l entries => lastLineOfEntries l entries
  | .not l e => e.lastLine l
  | .neg l e => e.lastLine l
  | .binary _ a b => b.lastLine (a.lastLine line)
  | .chain a steps => lastLineOfSteps (a.lastLine line) steps
  | .and a b => b.lastLine (a.lastLine line)
  | .or a b => b.lastLine (a.lastLine line)
  | .conditional l test yes no =>
    let l := yes.lastLine (test.lastLine l)
    match no with
    | some no => no.lastLine l
    | none => l
  | .attr e _ => e.lastLine line
  | .index e key => key.lastLine (e.lastLine line)
  | .slice e start stop step =>
    let l := e.lastLine line
    let l := match start with
      | some e => e.lastLine l
      | none => l
    let l := match stop with
      | some e => e.lastLine l
      | none => l
    match step with
    | some e => e.lastLine l
    | none => l
  | .filter l subject _ args =>
    match subject with
    | some e => lastLineOfGiven (args.all isFixed) (e.lastLine l) args
    | none => lastLineOfGiven (args.all isFixed) l args
  | .test subject _ args => lastLineOfGiven (args.all isFixed) (subject.lastLine line) args
  | .call l callee args =>
    match callee with
    | .var _ _ => lastLineOfGiven (args.all isFixed) l args
    | .attr e _ => lastLineOfGiven (args.all isFixed) (e.lastLine l) args
    | e => lastLineOfGiven (args.all isFixed) (e.lastLine l) args

def lastLineOf (line : Nat) : List Expr → Nat
  | [] => line
  | e :: rest => lastLineOf (e.lastLine line) rest

def lastLineOfEntries (line : Nat) : List (Expr × Expr) → Nat
  | [] => line
  | (k, v) :: rest => lastLineOfEntries (v.lastLine (k.lastLine line)) rest

def lastLineOfSteps (line : Nat) : List (Comparison × Expr) → Nat
  | [] => line
  | (_, e) :: rest => lastLineOfSteps (e.lastLine line) rest

def lastLineOfGiven (skipNamed : Bool) (line : Nat) : List (ArgKind × Expr) → Nat
  | [] => line
  | (kind, e) :: rest =>
    match kind with
    | .named _ => lastLineOfGiven skipNamed (if skipNamed then line else e.lastLine line) rest
    | _ => lastLineOfGiven skipNamed (e.lastLine line) rest

end

/-- The line behind the arguments of a call. Named ones that are all constant set no line. -/
def lastLineOfArgs (line : Nat) (args : List Arg) : Nat :=
  lastLineOfGiven (args.all isFixed) line args

mutual

/-- The line behind an assignment to a target. -/
def Target.lastLine (line : Nat) : Target → Nat
  | .name _ => line
  | .attr record _ => record.lastLine line
  | .tuple l targets => lastLineOfTargets l targets

def lastLineOfTargets (line : Nat) : List Target → Nat
  | [] => line
  | t :: rest => lastLineOfTargets (t.lastLine line) rest

end

/-- The line behind the fallbacks of parameters, of which the last one comes first. -/
def lastLineOfParams (line : Nat) (params : List Param) : Nat :=
  match params.findSome? (·.fallback) with
  | some e => e.lastLine line
  | none => line

mutual

/-- The line an error would be reported on right behind a statement. -/
def Stmt.lastLine : Stmt → Nat
  | .text l _ => l
  | .emit l e => e.lastLine l
  | .loop l target items condition _ body otherwise =>
    let l := items.lastLine l
    let l := match condition with
      | some e => e.lastLine (target.lastLine l)
      | none => l
    lastLineOfBody (lastLineOfBody (target.lastLine l) body) otherwise
  | .branch l test yes no => lastLineOfBody (lastLineOfBody (test.lastLine l) yes) no
  | .within l assignments body =>
    let l := assignments.foldl (fun l (target, e) => target.lastLine (e.lastLine l)) l
    lastLineOfBody l body
  | .assign l target e => target.lastLine (e.lastLine l)
  | .assignBlock l target filter body =>
    let l := lastLineOfBody l body
    let l := match filter with
      | some e => e.lastLine l
      | none => l
    target.lastLine l
  | .escaping l enabled body => lastLineOfBody (enabled.lastLine l) body
  | .filtered l filter body => filter.lastLine (lastLineOfBody l body)
  | .block l _ _ _ => l
  | .inherit l parent => parent.lastLine l
  | .inclusion l _ _ => l
  | .importAs l _ target => target.lastLine l
  | .importNames l _ _ => l
  | .declare l _ params body => lastLineOfBody (lastLineOfParams l params) body
  | .callBlock l _ params body => lastLineOfBody (lastLineOfParams l params) body
  | .perform l call => call.lastLine l

/-- The line an error would be reported on behind statements that begin on `line`. -/
def lastLineOfBody (line : Nat) : List Stmt → Nat
  | [] => line
  | s :: rest => lastLineOfBody s.lastLine rest

end

end QueryTemplate.Template
