import QueryTemplate.Template.Stock.TextFilters

/-!
Filters of the template language on sequences and maps.
-/

namespace QueryTemplate.Template.ListFilter

/-- Puts a fallback in place of an undefined value, or of every value that counts as false if the
second argument says so. -/
def orElse : StockFilter := fun env v args => do
  match ← args.byPositionOrName ["default_value", "boolean"] with
  | [fallback, boolean] => do
    let fallback := fallback.getD (.str "")
    if v.isUndefined then return fallback
    let replacesFalse ← match boolean with
      | some b => Eval.isTrue env b
      | none => pure false
    if replacesFalse && !(← Eval.isTrue env v) then return fallback
    return v
  | _ => Eval.fail { kind := .tooManyArguments }

def noLength (v : Value) : Eval Value :=
  Eval.fail (.invalid ("cannot calculate length of value of type " ++ v.kind.name))

/-- Whether the number of elements is not known from the beginning. -/
def isUnsized (v : Value) : Bool :=
  match v with
  | .stream _ _ => true
  | v => v.isUndefined || v.kind = .none

def length : StockFilter := fun env v args => do
  let _ ← args.upTo 0
  if isUnsized v then noLength v
  else
    match v, ← Eval.items? env v with
    | .bytes content, _ => return .int content.length
    | _, some items => return .int items.length
    | _, none => noLength v

def pairList (pairs : List (Value × Value)) : Value :=
  .list (pairs.map fun (k, v) => .list [k, v])

def pairsOf (env : Environment) (v : Value) : Eval (List (Value × Value)) := do
  match ← Eval.pairs? env v with
  | some pairs => return pairs
  | none => Eval.fail (.invalid "cannot convert value into pair list")

def items : StockFilter := fun env v args => do
  let _ ← args.upTo 0
  return .iter ((← pairsOf env v).map fun (k, v) => .list [k, v])

def asciiLower (text : String) : List Char :=
  text.toList.map Char.toLower

/-- The order that sorting filters use: two texts without the case of ASCII letters unless case
matters. -/
def sortOrder (caseSensitive : Bool) (a b : Value) : Ordering :=
  if caseSensitive then Value.order a b
  else
    match a.asString?, b.asString? with
    | some x, some y => compare (asciiLower x) (asciiLower y)
    | _, _ => Value.order a b

/-- Sorts by an order; elements that are equal in it keep theirs, also when it is turned around. -/
def sortIn {α : Type} (reverse : Bool) (order : α → α → Ordering) (items : List α) : List α :=
  items.mergeSort fun a b => (if reverse then order b a else order a b) != .gt

def dictSort : StockFilter := fun env v args => do
  let _ ← args.positionalUpTo 0
  let pairs ← pairsOf env v
  let by_ ← Argument.optional Argument.string (args.named? "by")
  let caseSensitive ← Argument.isOn (args.named? "case_sensitive")
  let reverse ← Argument.isOn (args.named? "reverse")
  args.onlyNamed ["by", "case_sensitive", "reverse"]
  let key : Value × Value → Value := if by_ = some "value" then (·.2) else (·.1)
  return pairList (sortIn reverse (fun a b => sortOrder caseSensitive (key a) (key b)) pairs)

/-- The elements in the opposite order. Maps have no order to turn around, so their keys stay. -/
def reverse : StockFilter := fun env v args => do
  let _ ← args.upTo 0
  match v with
  | .undefined => return v
  | .absent => return v
  | .none => return v
  | .bytes content => return .bytes content.reverse
  | v =>
    match v.stringText?, v.entries? with
    | some text, _ => return TextFilter.keepMark v (String.ofList text.toList.reverse)
    | none, some entries => return .iter (entries.map (·.1))
    | none, none =>
      match ← Eval.items? env v with
      | some items => return .iter items.reverse
      | none => Eval.fail (.invalid ("cannot reverse values of type " ++ v.kind.name))

def noEnd (what : String) : Eval Value :=
  Eval.fail (.invalid ("cannot get " ++ what ++ " item from value"))

/-- The first element of what can be looped over, other than an empty value. -/
def first : StockFilter := fun env v args => do
  let _ ← args.upTo 0
  match v, v.asString? with
  | .undefined, _ => noEnd "first"
  | .absent, _ => noEnd "first"
  | .none, _ => noEnd "first"
  | .stream (item :: _) _, _ => return item
  | _, some text => return .ofOption (Eval.charsOf text).head?
  | v, none =>
    match ← Eval.items? env v with
    | some items => return .ofOption items.head?
    | none => noEnd "first"

/-- The last element of a string or sequence; maps have no last one. -/
def last : StockFilter := fun env v args => do
  let _ ← args.upTo 0
  match v.asString?, v.elements? with
  | some text, _ => return .ofOption (Eval.charsOf text).getLast?
  | none, some _ => return .ofOption ((← Eval.iterate env v).getLast?)
  | none, none => noEnd "last"

/-- The elements of a value that has to be a list to work with. -/
def listed (env : Environment) (v : Value) : Eval (List Value) :=
  Eval.mapStop (·.mapError fun _ => .invalid "cannot convert value to list") (Eval.iterate env v)

def smallest : Value → List Value → Value
  | v, [] => v
  | v, w :: rest => smallest (if Value.order w v == .lt then w else v) rest

def largest : Value → List Value → Value
  | v, [] => v
  | v, w :: rest => largest (if Value.order w v == .lt then v else w) rest

def extreme (pick : Value → List Value → Value) : StockFilter := fun env v args => do
  let _ ← args.upTo 0
  match ← listed env v with
  | [] => return .undefined
  | w :: rest => return pick w rest

/-- The paths that a text names, with commas between them. -/
def pathsOf (text : String) : List (List Value) :=
  (Text.splitAll [','] text.length text.toList).map fun part =>
    Eval.pathKeys (String.ofList (Text.trim part))

/-- The order of two elements by what is at paths of them, the first path first. Elements that a
path cannot be followed in are equal. -/
def orderByKeys (caseSensitive : Bool) : List (Option Value) → List (Option Value) → Ordering
  | some a :: as, some b :: bs =>
    (sortOrder caseSensitive a b).then (orderByKeys caseSensitive as bs)
  | _ :: as, _ :: bs => orderByKeys caseSensitive as bs
  | _, _ => .eq

def sort : StockFilter := fun env v args => do
  let _ ← args.positionalUpTo 0
  let items ← listed env v
  let caseSensitive ← Argument.isOn (args.named? "case_sensitive")
  let reverse ← Argument.isOn (args.named? "reverse")
  let path? ← Argument.optional Argument.string (args.named? "attribute")
  args.onlyNamed ["attribute", "case_sensitive", "reverse"]
  let keyed ← items.mapM fun item => do
    match path? with
    | some text => return (item, ← (pathsOf text).mapM (Eval.follow? item))
    | none => return (item, [some item])
  let order (a b : Value × List (Option Value)) : Ordering :=
    orderByKeys caseSensitive a.2 b.2
  return .list ((sortIn reverse order keyed).map (·.1))

def list : StockFilter := fun env v args => do
  let _ ← args.upTo 0
  return .list (← listed env v)

/-- Keeps the first of the elements whose keys are equal. -/
def distinct (seen : List Value) : List (Value × Value) → List Value
  | [] => []
  | (v, key) :: rest =>
    if seen.any fun k => Value.order k key == .eq then distinct seen rest
    else v :: distinct (key :: seen) rest

/-- What is at a path of a value, or a fallback if nothing is there. -/
def partAt (path : List Value) (fallback v : Value) : Eval Value := do
  match ← Eval.follow? v path with
  | some part => return if part.isUndefined then fallback else part
  | none => return fallback

/-- A text without case, if case does not matter. -/
def foldCase (caseSensitive : Bool) (v : Value) : Value :=
  match v.asString? with
  | some text => if caseSensitive then v else .str (String.ofList (Text.lower text.toList))
  | none => v

def unique : StockFilter := fun env v args => do
  let _ ← args.positionalUpTo 0
  let path? ← Argument.optional Argument.string (args.named? "attribute")
  let caseSensitive ← Argument.isOn (args.named? "case_sensitive")
  args.onlyNamed ["attribute", "case_sensitive"]
  let keyed ← (← Eval.iterate env v).mapM fun item => do
    let key ← match path? with
      | some text => partAt (Eval.pathKeys text) .undefined item
      | none => pure item
    return (item, foldCase caseSensitive key)
  return .list (distinct [] keyed)

/-- Runs of elements with equal keys. A run has the key of its last element. -/
def runsOf (caseSensitive : Bool) : List (Value × Value) → List (Value × List Value)
  | [] => []
  | (v, key) :: rest =>
    match rest, runsOf caseSensitive rest with
    | (_, next) :: _, (other, vs) :: runs =>
      if sortOrder caseSensitive key next == .eq then (other, v :: vs) :: runs
      else (key, [v]) :: (other, vs) :: runs
    | _, _ => [(key, [v])]

/-- Groups elements by what is at a path of each. -/
def groupBy : StockFilter := fun env v args => do
  let given ← args.positionalUpTo 1
  let path? ← Argument.optional Argument.string given[0]?
  let fallback := ((← Argument.optional pure (args.named? "default"))).getD .undefined
  let caseSensitive ← Argument.isOn (args.named? "case_sensitive")
  let path ← match path? with
    | some path => pure path
    | none => Argument.string (← Argument.required (args.named? "attribute"))
  match ← Eval.items? env v with
  | none => Eval.fail (.invalid (v.kind.name ++ " is not iterable"))
  | some items => do
    args.onlyNamed
      (["default", "case_sensitive"] ++ if path?.isSome then [] else ["attribute"])
    let keyed ← items.mapM fun item => do
      return (item, ← partAt (Eval.pathKeys path) fallback item)
    let sorted := sortIn false (fun a b => sortOrder caseSensitive a.2 b.2) keyed
    return .list ((runsOf caseSensitive sorted).map fun (key, vs) => .group key vs)

/-- Cuts a list into pieces of `n` elements. The first argument bounds the number of pieces. -/
def pieces {α : Type} (n : Nat) : Nat → List α → List (List α)
  | 0, _ => []
  | fuel + 1, items =>
    if items.isEmpty then [] else items.take n :: pieces n fuel (items.drop n)

def fillUp (n : Nat) (filler : Option Value) (items : List Value) : List Value :=
  match filler with
  | some v => items ++ List.replicate (n - items.length) v
  | none => items

def batch : StockFilter := fun env v args => do
  let n ← Argument.count (← Argument.required args.toList[0]?)
  let filler ← Argument.optional pure args.toList[1]?
  let _ ← args.upTo 2
  if n = 0 then Eval.fail (.invalid "count cannot be 0")
  let items ← Eval.iterate env v
  return .list ((pieces n items.length items).map fun piece => .list (fillUp n filler piece))

/-- Deals a list out into `n` slices, the first ones longer by one if it does not come out even. -/
def slices (n : Nat) (filler : Option Value) (items : List Value) : List (List Value) :=
  let size := items.length / n
  let longer := items.length % n
  (List.range n).map fun i =>
    let start := i * size + min i longer
    let length := if i < longer then size + 1 else size
    let slice := (items.drop start).take length
    if i < longer then slice else fillUp (size + 1) filler slice

def slice : StockFilter := fun env v args => do
  let n ← Argument.count (← Argument.required args.toList[0]?)
  let filler ← Argument.optional pure args.toList[1]?
  let _ ← args.upTo 2
  if n = 0 then Eval.fail (.invalid "count cannot be 0")
  return .list ((slices n filler (← Eval.iterate env v)).map .list)

def addUp (total : Value) : List Value → Except EngineError Value
  | [] => .ok total
  | v :: rest =>
    if v.isUndefined then addUp total rest
    else if v.kind = .number then
      match Value.add total v with
      | .ok total => addUp total rest
      | .error e => .error e
    else .error (.invalid ("can only sum numbers, got " ++ v.kind.name))

def sum : StockFilter := fun env v args => do
  let _ ← args.upTo 0
  Eval.ofExcept (addUp (.int 0) (← Eval.iterate env v))

def attr : StockFilter := fun _ v args => do
  let key ← Argument.required args.toList[0]?
  let _ ← args.upTo 1
  Eval.elementOf v key

/-- The elements of several values one behind the other, and whether all of the values have some. -/
def inTurn (env : Environment) : List Value → Eval (List Value × Bool)
  | [] => return ([], true)
  | v :: rest => do
    if !v.isComplete then return (v.elements?.getD [], false)
    match ← Eval.items? env v with
    | none => return ([], false)
    | some items => do
      let (more, complete) ← inTurn env rest
      return (items ++ more, complete)

/-- Puts sequences one behind the other, or merges maps. -/
def chain : StockFilter := fun env v args => do
  let parts := v :: args.toList
  if parts.all fun part => part.kind = .map then
    return Value.mapOf (← parts.mapM (pairsOf env)).flatten
  let (items, complete) ← inTurn env parts
  return if parts.all fun part => part.kind = .sequence then .list items
    else .stream items complete

/-- The elements of several lists side by side, as long as all of them have one. -/
def zipAll : Nat → List (List Value) → List Value
  | 0, _ => []
  | fuel + 1, lists =>
    if lists.any List.isEmpty then []
    else .list (lists.filterMap List.head?) :: zipAll fuel (lists.map (·.drop 1))

def zip : StockFilter := fun env v args => do
  let parts := v :: args.toList
  let lists ← parts.mapM fun part => do
    match ← Eval.items? env part with
    | some items => return items
    | none => Eval.fail (.invalid ("cannot zip values of type " ++ part.kind.name))
  let rows := zipAll ((lists.head?).getD []).length lists
  return if parts.all isUnsized then .stream rows true else .iter rows

/-- The list filter of a name. -/
def find? (name : String) : Option StockFilter :=
  match name with
  | "default" => some orElse
  | "d" => some orElse
  | "length" => some length
  | "count" => some length
  | "items" => some items
  | "dictsort" => some dictSort
  | "reverse" => some reverse
  | "first" => some first
  | "last" => some last
  | "min" => some (extreme smallest)
  | "max" => some (extreme largest)
  | "sort" => some sort
  | "list" => some list
  | "unique" => some unique
  | "groupby" => some groupBy
  | "batch" => some batch
  | "slice" => some slice
  | "sum" => some sum
  | "attr" => some attr
  | "chain" => some chain
  | "zip" => some zip
  | _ => none

end QueryTemplate.Template.ListFilter
