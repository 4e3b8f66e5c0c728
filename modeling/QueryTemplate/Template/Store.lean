import QueryTemplate.Template.Place
import QueryTemplate.Template.Program

/-!
The state of a template in evaluation: variables in nested frames, the output, the blocks of the
template and its parents, and the objects made on the way. The objects are kept in tables and
referred to by their place in them.
-/

namespace QueryTemplate.Template

/-- What an evaluation needs to know from the engine. -/
structure Environment where
  /-- Whether undefined values are refused where they would count as empty or false. -/
  strict : Bool
  /-- Names that filters were ever registered under. -/
  registered : List String
  /-- The template of a name, if there is one. -/
  find : String → Except Stop (Option Source)
  /-- The names of the variables of the render. -/
  variableNames : List String

/-- Arguments of a call. Named ones are sorted by name. -/
structure CallArgs where
  positional : List Value := []
  named : Option (List (Value × Value)) := none

namespace CallArgs

/-- The arguments as a list, with the named ones as a map at its end. -/
def toList (args : CallArgs) : List Value :=
  match args.named with
  | some entries => args.positional ++ [.map entries]
  | none => args.positional

def named? (args : CallArgs) (name : String) : Option Value :=
  args.named.bind (Value.findKey (.str name))

end CallArgs

/-- A body that a loop can be run with again. -/
structure LoopBody where
  line : Nat
  target : Target
  body : List Stmt

/-- The state of a loop. -/
structure LoopState where
  items : List Value
  /-- Whether the number of items is known before the loop has gone through them. -/
  isSized : Bool := true
  /-- The number of the current item, from zero. -/
  index : Nat := 0
  depth : Nat
  /-- What the last call of `changed` was given. -/
  changed : Option (List Value) := none
  /-- What a call of `loop` runs again; only recursive loops have it. -/
  again : Option LoopBody := none

/-- A declared template macro. -/
structure Routine where
  name : String
  template : String
  line : Nat
  params : List Param
  body : List Stmt
  closure : Nat
  usesCaller : Bool

/-- Values that macros take along from where they are declared. They are shared with the frame:
what is assigned there later is seen by the macros too. -/
structure Closure where
  values : List (String × Value) := []

/-- What is looked up when a frame does not have a name itself. -/
inductive FrameBase where
  | nothing
  | root
  | closure (id : Nat)

/-- A level of variables. -/
structure Frame where
  locals : List (String × Value) := []
  /-- The places that values of the frame were taken from. -/
  sources : List (String × Place) := []
  /-- The loop the frame belongs to, and whether it is visible as `loop`. -/
  loop : Option (Nat × Bool) := none
  base : FrameBase := .nothing
  /-- The closure of the macros declared in the frame. -/
  closure : Option Nat := none

/-- How values are made part of safe text. -/
inductive Escaping where
  /-- Nothing is marked safe. -/
  | off
  /-- Text is safe as it is. -/
  | verbatim
  /-- Text is safe once its markup characters are replaced. -/
  | html
  deriving DecidableEq, Repr

/-- A piece of output. -/
inductive Piece where
  /-- Text of the template. -/
  | literal (text : String)
  /-- A value written by a tag. -/
  | value (v : Value)

namespace Piece

def text : Piece → String
  | literal text => text
  | value v => v.text

end Piece

/-- The versions of a block, the one of the outermost template last, and which one is in use. -/
structure BlockStack where
  layers : List (String × Block)
  depth : Nat := 0

/-- The state of an evaluation. -/
structure Store where
  frames : List Frame
  /-- How deep the calls are nested that led to the frames. -/
  outerDepth : Nat := 0
  template : String
  blocks : List (String × BlockStack)
  currentBlock : Option String := none
  escaping : Escaping := .verbatim
  /-- The templates of the inheritance chain. -/
  chain : List String
  /-- The parent to go on with at the end of the template. -/
  parent : Option Source := none
  /-- Where output goes, innermost first, each in reverse; nothing for output that is dropped. -/
  sinks : List (Option (List Piece)) := [some []]
  closures : List Closure := []
  routines : List Routine := []
  loops : List LoopState := []
  records : List (List (Value × Value)) := []

end QueryTemplate.Template
