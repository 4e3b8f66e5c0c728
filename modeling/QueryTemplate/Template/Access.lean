import QueryTemplate.Template.Eval
import QueryTemplate.Text.Scan
import QueryTemplate.Value.Arith

/-!
Looking into values during an evaluation: truth, iteration, attributes, elements and membership.
For plain values this depends on the value alone; the variables of the render, records, loops and
macros answer from the state, and the caller's objects are asked.
-/

namespace QueryTemplate.Template

namespace LoopState

def itemAt (l : LoopState) (position : Option Nat) : Value :=
  .ofOption (position.bind fun i => l.items[i]?)

/-- What the `loop` variable knows about the loop. -/
def attribute? (l : LoopState) (name : String) : Option Value :=
  let length := l.items.length
  let sized (n : Nat) : Value := if l.isSized then .int n else .undefined
  match name with
  | "index0" => some (.int l.index)
  | "index" => some (.int (l.index + 1 : Nat))
  | "length" => some (sized length)
  | "revindex" => some (sized (length - l.index))
  | "revindex0" => some (sized (length - l.index - 1))
  | "first" => some (.bool (l.index == 0))
  | "last" => some (.bool (l.index + 1 == length))
  | "depth" => some (.int (l.depth + 1 : Nat))
  | "depth0" => some (.int l.depth)
  | "previtem" => some (l.itemAt (if l.index == 0 then none else some (l.index - 1)))
  | "nextitem" => some (l.itemAt (some (l.index + 1)))
  | _ => none

/-- The names that `attribute?` knows. -/
def attributes : List String := [
  "index0", "index", "length", "revindex", "revindex0", "first", "last", "depth", "depth0",
  "previtem", "nextitem"]

def text (l : LoopState) : String :=
  let length := if l.isSized then toString l.items.length else "?"
  "<loop " ++ toString l.index ++ "/" ++ length ++ ">"

end LoopState

namespace Routine

def attribute? (r : Routine) (name : String) : Option Value :=
  match name with
  | "name" => some (.str r.name)
  | "arguments" => some (.list (r.params.map fun p => .str p.name))
  | "caller" => some (.bool r.usesCaller)
  | _ => none

/-- The names that `attribute?` knows. -/
def attributes : List String := ["name", "arguments", "caller"]

end Routine

namespace Eval

/-- Refuses an undefined value where undefined values do not count as empty. -/
def demand (env : Environment) (v : Value) : Eval Unit :=
  match v with
  | .undefined => if env.strict then fail .undefined else pure ()
  | _ => pure ()

def recordEntries (id : Nat) : Eval (List (Value × Value)) := do
  return ((← get).records[id]?).getD []

/-- The keys of a value that has some. -/
def keys? (env : Environment) (v : Value) : Eval (Option (List Value)) := do
  match v with
  | .object .root => return some (env.variableNames.map .str)
  | .object (.record id) => return some ((← recordEntries id).map (·.1))
  | .object (.loop _) => return some (LoopState.attributes.map .str)
  | .object (.routine _ _) => return some (Routine.attributes.map .str)
  | v => return v.entries?.map fun entries => entries.map (·.1)

def isTrue (env : Environment) (v : Value) : Eval Bool := do
  match ← keys? env v with
  | some keys => return !keys.isEmpty
  | none => return v.isTrue

/-- Whether a value counts as true in a condition. -/
def truth (env : Environment) (v : Value) : Eval Bool := do
  demand env v
  isTrue env v

def charsOf (text : String) : List Value :=
  text.toList.map fun c => .str c.toString

/-- What a loop over a value goes through, if it can be looped over. -/
def items? (env : Environment) (v : Value) : Eval (Option (List Value)) := do
  match v with
  | .undefined => return some []
  | .absent => return some []
  | .none => return some []
  | .stream _ false => fail (.invalid "part of the iterable is not iterable")
  | v =>
    match v.stringText?, v.elements? with
    | some text, _ => return some (charsOf text)
    | none, some items => return some items
    | none, none => keys? env v

/-- What a loop over a value goes through. -/
def iterate (env : Environment) (v : Value) : Eval (List Value) := do
  demand env v
  match ← items? env v with
  | some items => return items
  | none => fail (.invalid (v.kind.name ++ " is not iterable"))

/-- The value at a key of a map, or of an object that answers for names. -/
def member? (v key : Value) : Eval (Option Value) := do
  match v with
  | .object (.record id) => return Value.findKey key (← recordEntries id)
  | .object ref =>
    match key.asString? with
    | none => return none
    | some name =>
      match ref with
      | .root => loadRoot name
      | .loop id => return (← loopState? id).bind (·.attribute? name)
      | .routine id _ => return ((← get).routines[id]?).bind (·.attribute? name)
      | .foreign id _ => read id name
      | _ => return none
  | v => return v.entries?.bind (Value.findKey key)

/-- Keys with their values. -/
def pairs? (env : Environment) (v : Value) : Eval (Option (List (Value × Value))) := do
  match ← keys? env v with
  | none => return none
  | some keys => return some (← keys.mapM fun k => return (k, .ofOption (← member? v k)))

/-- The part of a group that has a name. -/
def groupPart? (key : Value) (members : List Value) (name : String) : Option Value :=
  match name with
  | "grouper" => some key
  | "list" => some (.iter members)
  | _ => none

/-- What a value has under a name. -/
def attribute? (v : Value) (name : String) : Eval (Option Value) := do
  match v with
  | .group key members => return groupPart? key members name
  | v => member? v (.str name)

/-- An attribute, as in `v.name`. One that is missing is undefined, but an undefined value has no
attributes at all. -/
def attributeOf (v : Value) (name : String) : Eval Value := do
  if v.isUndefined then fail .undefined
  return .ofOption (← attribute? v name)

/-- An element by key or by position. -/
def element? (v key : Value) : Eval (Option Value) := do
  match v with
  | .bytes content =>
    return ((Value.position? key content.length).bind fun i => content[i]?).map fun b =>
      .int b.toNat
  | .group first members =>
    return (key.asString?.bind (groupPart? first members)).or
      (Value.nth? [first, .iter members] key)
  | .stream items _ => return (key.toIndex?.filter (· ≥ 0)).bind fun n => items[n.toNat]?
  | v =>
    match v.stringText?, v.elements? with
    | some text, _ => return Value.nth? (charsOf text) key
    | none, some items => return Value.nth? items key
    | none, none => member? v key

/-- An element, as in `v[key]`. -/
def elementOf (v key : Value) : Eval Value := do
  if v.isUndefined then fail .undefined
  return .ofOption (← element? v key)

/-- What is at a path of keys and positions; nothing if the path leads through an undefined
value. -/
def follow? (v : Value) : List Value → Eval (Option Value)
  | [] => return some v
  | key :: rest => do
    if v.isUndefined then return none
    follow? (.ofOption (← element? v key)) rest

/-- Follows a path, which must not lead through an undefined value. -/
def follow (v : Value) (path : List Value) : Eval Value := do
  match ← follow? v path with
  | some found => return found
  | none => fail .undefined

/-- The key that a part of a path stands for: a position if it is a number. -/
def pathKey (part : List Char) : Value :=
  let digits := match part with
    | '+' :: digits => digits
    | digits => digits
  match Text.decimal? digits with
  | some n => if n < Nat.pow 2 64 then .int n else .str (String.ofList part)
  | none => .str (String.ofList part)

/-- The keys of a path with dots. -/
def pathKeys (path : String) : List Value :=
  (Text.splitAll ['.'] path.toList.length path.toList).map pathKey

/-- Entries in the order of their keys. -/
def sortEntries (entries : List (Value × Value)) : List (Value × Value) :=
  entries.foldl (fun sorted (k, v) => Value.insertKey k v sorted) []

/-- A value in which the objects of the evaluation are replaced by maps, down to the given level. -/
def expand (env : Environment) : (levels : Nat) → Value → Eval Value
  | 0, v => return v
  | levels + 1, v => do
    let all (vs : List Value) : Eval (List Value) := vs.mapM (expand env levels)
    let entries (es : List (Value × Value)) : Eval (List (Value × Value)) :=
      es.mapM fun (k, v) => return (k, ← expand env levels v)
    match v with
    | .list items => return .list (← all items)
    | .iter items => return .iter (← all items)
    | .stream items complete => return .stream (← all items) complete
    | .params items => return .params (← all items)
    | .group key members => return .group (← expand env levels key) (← all members)
    | .bound v hint => return .bound (← expand env levels v) hint
    | .map es => return .map (← entries es)
    | .package text es => return .package text (← entries es)
    | .object ref =>
      match ← pairs? env (.object ref) with
      | none => return .object ref
      | some pairs =>
        let es := sortEntries (← entries pairs)
        match ref with
        | .loop id => return .package (((← loopState? id).map (·.text)).getD "") es
        | .routine _ _ => return .package ref.text es
        | _ => return .map es
    | v => return v

/-- The levels down to which objects are replaced. -/
def maxLevels : Nat := 500

/-- A value for the surroundings of the evaluation, which cannot look into its objects: the
variables of the render, records, loops and macros become maps. -/
def snapshot (env : Environment) (v : Value) : Eval Value :=
  expand env maxLevels v

/-- The text of a value. -/
def textOf (env : Environment) (v : Value) : Eval String := do
  return (← snapshot env v).text

def isInfix (part : List Char) : List Char → Bool
  | [] => part.isEmpty
  | c :: text => part.isPrefixOf (c :: text) || isInfix part text

/-- Whether a container has an element, as in `v in container`. -/
def contains (env : Environment) (container v : Value) : Eval Bool := do
  match container with
  | .undefined => return false
  | .absent => return false
  | container =>
    match container.asString?, container.elements? with
    | some text, _ =>
      let part ← match v.asString? with
        | some part => pure part
        | none => textOf env v
      return isInfix part.toList text.toList
    | none, some items => return items.any (Value.equal · v)
    | none, none =>
      if container.kind = .map then return (← member? container v).isSome
      else if container.kind = .plain then return false
      else fail (.invalid "cannot perform a containment check on this value")

end Eval

end QueryTemplate.Template
