import QueryTemplate.Filter.Registry
import QueryTemplate.Value.Show

/-!
The variables of a render. A variable has its value up front or is deferred: a computation of the
caller produces it when a template first looks it up.
-/

namespace QueryTemplate

/-- A variable. Producing a deferred value starts a computation to wait for. -/
inductive ContextEntry (ω : Type) where
  | value (v : Value)
  | deferred (produce : ω → Future ω Value × ω)

namespace ContextEntry

variable {ω : Type}

def debugText : ContextEntry ω → String
  | value v => "Value(" ++ v.debugText ++ ")"
  | deferred _ => "Deferred(..)"

end ContextEntry

/-- The variables of a render, and how the caller's own objects among them answer for their
attributes. -/
structure Context (ω : Type) where
  entries : NameMap (ContextEntry ω) := []
  readAttribute : Nat → String → ω → Option Value × ω := fun _ _ w => (none, w)

namespace Context

variable {ω : Type}

def empty : Context ω := {}

def insert (c : Context ω) (name : String) (v : Value) : Context ω :=
  { c with entries := c.entries.insert name (.value v) }

def insertDeferred (c : Context ω) (name : String) (produce : ω → Future ω Value × ω) :
    Context ω :=
  { c with entries := c.entries.insert name (.deferred produce) }

/-- Removes a variable and returns it. -/
def remove (c : Context ω) (name : String) : Option (ContextEntry ω) × Context ω :=
  (c.entries.find? name, { c with entries := c.entries.erase name })

def get? (c : Context ω) (name : String) : Option (ContextEntry ω) :=
  c.entries.find? name

def contains (c : Context ω) (name : String) : Bool :=
  c.entries.contains name

def names (c : Context ω) : List String :=
  c.entries.names

def length (c : Context ω) : Nat :=
  c.entries.length

/-- A context with the entries of a map as variables. A key that is not a string is named by its
text, and of two entries with one name the later counts. -/
def ofValue (v : Value) : Except QueryError (Context ω) :=
  match v with
  | .map entries =>
    .ok (entries.foldl (fun c (k, v) => c.insert (k.asString?.getD k.text) v) {})
  | v => .error (.context ("expected a map of variables, got " ++ v.kind.name))

/-- Refuses a variable with the name that refers to the render. -/
def validate (c : Context ω) : Except QueryError Unit :=
  if c.contains scopeName then .error (.reservedName scopeName) else .ok ()

/-- Only the names of the variables matter. -/
theorem validate_eq_of_map {ω' : Type} {c : Context ω} {c' : Context ω'}
    (f : String → ContextEntry ω → ContextEntry ω')
    (h : c'.entries = c.entries.map fun (name, entry) => (name, f name entry)) :
    c'.validate = c.validate := by
  have hnames : c'.contains scopeName = c.contains scopeName := by
    rw [contains, contains, NameMap.contains, NameMap.contains, h, NameMap.find?_map,
      Option.isSome_map]
  rw [validate, validate, hnames]

end Context

end QueryTemplate
