import QueryTemplate.NameMap
import QueryTemplate.Template.Ast

/-!
Which variables of its surroundings a template macro mentions. It takes their values along when it
is declared. Names it has assigned before do not count, and a nested macro counts as part of the
body with names of its own. What a template that is brought in mentions does not count.
-/

namespace QueryTemplate.Template

mutual

/-- The variables an expression mentions. -/
def Expr.names : Expr → List String
  | .var _ name => [name]
  | .const _ _ => []
  | .list _ items => namesOf items
  | .map _ entries => namesOfEntries entries
  | .not _ e => e.names
  | .neg _ e => e.names
  | .binary _ a b => a.names ++ b.names
  | .chain a steps => a.names ++ namesOfSteps steps
  | .and a b => a.names ++ b.names
  | .or a b => a.names ++ b.names
  | .conditional _ test yes no =>
    test.names ++ yes.names ++
      (match no with
      | some e => e.names
      | none => [])
  | .attr e _ => e.names
  | .index e key => e.names ++ key.names
  | .slice e start stop step =>
    e.names ++
      (match start with
      | some e => e.names
      | none => []) ++
      (match stop with
      | some e => e.names
      | none => []) ++
      (match step with
      | some e => e.names
      | none => [])
  | .filter _ subject _ args =>
    (match subject with
    | some e => e.names
    | none => []) ++ namesOfArgs args
  | .test subject _ args => subject.names ++ namesOfArgs args
  | .call _ callee args => callee.names ++ namesOfArgs args

def namesOf : List Expr → List String
  | [] => []
  | e :: rest => e.names ++ namesOf rest

def namesOfEntries : List (Expr × Expr) → List String
  | [] => []
  | (k, v) :: rest => k.names ++ v.names ++ namesOfEntries rest

def namesOfSteps : List (Comparison × Expr) → List String
  | [] => []
  | (_, e) :: rest => e.names ++ namesOfSteps rest

def namesOfArgs : List (ArgKind × Expr) → List String
  | [] => []
  | (_, e) :: rest => e.names ++ namesOfArgs rest

end

mutual

/-- The names a target assigns to; attributes of records are none. -/
def Target.names : Target → List String
  | .name n => [n]
  | .attr _ _ => []
  | .tuple _ targets => namesOfTargets targets

def namesOfTargets : List Target → List String
  | [] => []
  | t :: rest => t.names ++ namesOfTargets rest

end

/-- The names found free so far, and the names that are assigned. -/
structure Free where
  found : List String := []
  bound : List String := []

namespace Free

def bind (names : List String) (f : Free) : Free :=
  { f with bound := names ++ f.bound }

def mention (names : List String) (f : Free) : Free :=
  { f with found := f.found ++ names.filter fun n => !f.bound.contains n }

/-- Forgets what was assigned since `outer`. -/
def leave (outer f : Free) : Free :=
  { f with bound := outer.bound }

def withAssignments (assignments : List (Target × Expr)) (f : Free) : Free :=
  assignments.foldl (fun f (target, e) => (f.bind target.names).mention e.names) f

def withParams (params : List Param) (f : Free) : Free :=
  params.foldl
    (fun f p =>
      match p.fallback with
      | some e => f.mention e.names
      | none => f)
    (f.bind (params.map (·.name)))

end Free

mutual

/-- Goes through a statement. -/
def Stmt.free (f : Free) : Stmt → Free
  | .text _ _ => f
  | .emit _ e => f.mention e.names
  | .loop _ target items condition _ body otherwise =>
    let inner := ((f.bind ["loop"]).mention items.names).bind target.names
    let inner := match condition with
      | some e => inner.mention e.names
      | none => inner
    let f := f.leave (freeOf inner body)
    f.leave (freeOf f otherwise)
  | .branch _ test yes no =>
    let f := f.mention test.names
    let f := f.leave (freeOf f yes)
    f.leave (freeOf f no)
  | .within _ assignments body => f.leave (freeOf (f.withAssignments assignments) body)
  | .assign _ target e => (f.bind target.names).mention e.names
  | .assignBlock _ target _ body =>
    let f := f.bind target.names
    f.leave (freeOf f body)
  | .escaping _ _ body => f.leave (freeOf f body)
  | .filtered _ _ body => f.leave (freeOf f body)
  | .block _ _ _ body => f.leave (freeOf (f.bind ["super"]) body)
  | .inherit _ _ => f
  | .inclusion _ _ _ => f
  | .importAs _ _ target => f.bind target.names
  | .importNames _ _ names => f.bind (names.map (·.2))
  | .declare _ name params body =>
    let f := f.bind [name]
    f.leave (freeOf ((f.bind ["caller"]).withParams params) body)
  | .callBlock _ call params body =>
    let f := f.mention call.names
    f.leave (freeOf ((f.bind ["caller"]).withParams params) body)
  | .perform _ call => f.mention call.names

def freeOf (f : Free) : List Stmt → Free
  | [] => f
  | s :: rest => freeOf (s.free f) rest

end

/-- The variables that a macro with these parameters and this body mentions, in order. -/
def freeNames (params : List Param) (body : List Stmt) : List String :=
  NameMap.sortNames (freeOf (({} : Free).withParams params) body).found

end QueryTemplate.Template
