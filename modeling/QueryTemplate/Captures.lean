import QueryTemplate.Value.Basic

/-!
The values bound during one render, in the order in which they were bound.
-/

namespace QueryTemplate

/-- A bound value. `position` is its index among the captures. -/
structure Capture where
  position : Nat
  hint : Option String
  value : Value

/-- The captures of one render. -/
structure CaptureList where
  entries : List Capture := []

namespace CaptureList

def empty : CaptureList := {}

def length (c : CaptureList) : Nat :=
  c.entries.length

def isEmpty (c : CaptureList) : Bool :=
  c.entries.isEmpty

/-- Adds a value and returns the position it has. -/
def push (c : CaptureList) (hint : Option String) (value : Value) : Nat × CaptureList :=
  (c.length, ⟨c.entries ++ [⟨c.length, hint, value⟩]⟩)

def get? (c : CaptureList) (position : Nat) : Option Capture :=
  c.entries[position]?

def values (c : CaptureList) : List Value :=
  c.entries.map (·.value)

end CaptureList

end QueryTemplate
