import QueryTemplate.Text.Utf8

/-!
The values a template computes with. Lists, maps and iterables are immutable trees; the objects
that live in a running render (macros, loops, namespaces) are referred to by number.
-/

namespace QueryTemplate

/-- Functions every template can call by name. -/
inductive GlobalFunction where
  | range
  | dict
  | namespaceOf
  | debug
  deriving DecidableEq, Repr

/-- An object that a running render keeps. Equal references are the same object. -/
inductive ObjectRef where
  /-- The root of the variables. -/
  | root
  /-- A declared template macro. -/
  | routine (id : Nat) (name : String)
  /-- The state of a `for` loop. -/
  | loop (id : Nat)
  /-- A mutable record. -/
  | record (id : Nat)
  | function (f : GlobalFunction)
  /-- An object of the caller, whose attributes only the caller can read. -/
  | foreign (id : Nat) (label : String)
  deriving DecidableEq, Repr

/-- A value. `absent` is an undefined value that counts as empty even where undefined values are
refused: what a condition without an alternative yields. `safe` is a string that is written as it
is. An `iter` is an iterable of known length; the length of a `stream` is not known, and one that is
not `complete` fails behind its items. A `group` is a sequence of a key and of the values that have
it. `bound` is a value with a name hint for its parameter, and `params` a list to be bound one
parameter each. The entries of a `map` are sorted by key, and a `package` is a map with a text of
its own, as an import yields it. -/
inductive Value where
  | undefined
  | absent
  | none
  | bool (b : Bool)
  | int (n : Int)
  | float (x : Float)
  | str (text : String)
  | safe (text : String)
  | bytes (content : List UInt8)
  | list (items : List Value)
  | map (entries : List (Value × Value))
  | iter (items : List Value)
  | stream (items : List Value) (complete : Bool)
  | group (key : Value) (members : List Value)
  | bound (value : Value) (hint : String)
  | params (items : List Value)
  | package (text : String) (entries : List (Value × Value))
  | object (ref : ObjectRef)
  deriving Inhabited

/-- What messages call the sort of a value. -/
inductive Kind where
  | undefined
  | none
  | bool
  | number
  | string
  | bytes
  | sequence
  | map
  | iterator
  | plain
  deriving DecidableEq, Repr

namespace Kind

def name : Kind → String
  | undefined => "undefined"
  | none => "none"
  | bool => "bool"
  | number => "number"
  | string => "string"
  | bytes => "bytes"
  | sequence => "sequence"
  | map => "map"
  | iterator => "iterator"
  | plain => "plain object"

/-- The place of a kind when values of different kinds are sorted. -/
def rank : Kind → Nat
  | undefined => 0
  | none => 1
  | bool => 2
  | number => 3
  | string => 4
  | bytes => 5
  | sequence => 6
  | map => 7
  | iterator => 8
  | plain => 9

end Kind

namespace ObjectRef

def kind : ObjectRef → Kind
  | function _ => .plain
  | foreign _ _ => .plain
  | _ => .map

end ObjectRef

namespace Value

def kind : Value → Kind
  | undefined => .undefined
  | absent => .undefined
  | none => .none
  | bool _ => .bool
  | int _ => .number
  | float _ => .number
  | str _ => .string
  | safe _ => .string
  | bytes _ => .bytes
  | list _ => .sequence
  | map _ => .map
  | iter _ => .iterator
  | stream _ _ => .iterator
  | group _ _ => .sequence
  | bound .. => .plain
  | params _ => .sequence
  | package .. => .map
  | object ref => ref.kind

def isUndefined : Value → Bool
  | undefined => true
  | absent => true
  | _ => false

/-- The text of a string, marked safe or not. -/
def stringText? : Value → Option String
  | str text => some text
  | safe text => some text
  | _ => Option.none

/-- The text of a string, or of bytes that are well-formed UTF-8. -/
def asString? : Value → Option String
  | str text => some text
  | safe text => some text
  | bytes content => Text.decode? content
  | _ => Option.none

def isSafe : Value → Bool
  | safe _ => true
  | _ => false

def ofOption : Option Value → Value
  | some v => v
  | Option.none => undefined

/-- A map with string keys, already sorted. -/
def record (entries : List (String × Value)) : Value :=
  map (entries.map fun (k, v) => (str k, v))

end Value

end QueryTemplate
