import Mathlib.Data.List.Basic
import QueryTemplate.Render.Pass

/-!
What emitting a value does, as a function of the value and of how many values were captured before:
the text that is written is made of markers with consecutive numbers, and the captures are extended
at the end. A pass that is not suspended does nothing else when it emits.
-/

namespace QueryTemplate

namespace CaptureList

/-- Captures values with their hints, one after the other. -/
def extend (c : CaptureList) (bound : List (Option String × Value)) : CaptureList :=
  bound.foldl (fun c b => (c.push b.1 b.2).2) c

@[simp] theorem extend_nil (c : CaptureList) : c.extend [] = c := rfl

@[simp] theorem extend_cons (c : CaptureList) (hint : Option String) (v : Value)
    (bound : List (Option String × Value)) :
    c.extend ((hint, v) :: bound) = (c.push hint v).2.extend bound := rfl

theorem extend_append (c : CaptureList) (bound more : List (Option String × Value)) :
    c.extend (bound ++ more) = (c.extend bound).extend more :=
  List.foldl_append

@[simp] theorem length_push (c : CaptureList) (hint : Option String) (v : Value) :
    (c.push hint v).2.length = c.length + 1 := by
  simp [push, length]

@[simp] theorem length_extend (c : CaptureList) (bound : List (Option String × Value)) :
    (c.extend bound).length = c.length + bound.length := by
  induction bound generalizing c with
  | nil => rfl
  | cons b bound ih =>
      obtain ⟨hint, v⟩ := b
      rw [extend_cons, ih, length_push, List.length_cons]
      omega

@[simp] theorem values_push (c : CaptureList) (hint : Option String) (v : Value) :
    (c.push hint v).2.values = c.values ++ [v] := by
  simp [push, values]

theorem values_extend (c : CaptureList) (bound : List (Option String × Value)) :
    (c.extend bound).values = c.values ++ bound.map (·.2) := by
  induction bound generalizing c with
  | nil => simp
  | cons b bound ih =>
      obtain ⟨hint, v⟩ := b
      rw [extend_cons, ih, values_push]
      simp

@[simp] theorem length_values (c : CaptureList) : c.values.length = c.length := by
  simp [values, length]

end CaptureList

namespace Emission

/-- The elements of a list with the numbered hints they are captured with. -/
def numbered (hint : Option String) (n : Nat) : List Value → List (Option String × Value)
  | [] => []
  | v :: rest => (hint.map fun h => h ++ "_" ++ toString n, v) :: numbered hint (n + 1) rest

/-- What is captured when a value is emitted. -/
def bound (v : Value) (hint : Option String) : List (Option String × Value) :=
  match v with
  | .params items => numbered hint 1 items
  | .safe _ => []
  | .bound v own => [(some own, v)]
  | v => [(hint, v)]

/-- The markers of `count` captures, the first of which has the number `start`. -/
def markers (start count : Nat) : List String :=
  (List.range' start count).map encodeMarker

/-- What is written when a value is emitted and `start` values have been captured already. -/
def written (start : Nat) (v : Value) : String :=
  match v with
  | .params items => "(" ++ String.intercalate ", " (markers start items.length) ++ ")"
  | .safe text => text
  | _ => encodeMarker start

@[simp] theorem length_numbered (hint : Option String) (n : Nat) (items : List Value) :
    (numbered hint n items).length = items.length := by
  induction items generalizing n with
  | nil => rfl
  | cons v items ih => simp [numbered, ih]

theorem markers_succ (start count : Nat) :
    markers start (count + 1) = encodeMarker start :: markers (start + 1) count := by
  simp [markers, List.range'_succ]

/-- Emission into a list of captures: an undefined value is refused, and everything else is written
and captured. -/
def write (v : Value) (hint : Option String) (c : CaptureList) :
    Except QueryError (String × CaptureList) :=
  if v.isUndefined then .error (.undefinedValue (hint.getD "<expression>"))
  else .ok (written c.length v, c.extend (bound v hint))

end Emission

/-- A text that may be written, and the values that were captured for it. -/
structure Piece where
  text : String
  captured : List Value

namespace PassState

variable {ω : Type}

theorem captureAll_eq (hint : Option String) (n : Nat) (items : List Value) (s : PassState ω) :
    s.captureAll hint n items =
      (Emission.markers s.captures.length items.length,
        { s with captures := s.captures.extend (Emission.numbered hint n items) }) := by
  induction items generalizing n s with
  | nil => rfl
  | cons v items ih =>
      rw [captureAll]
      simp only [capture]
      rw [ih]
      simp [Emission.markers_succ, Emission.numbered, CaptureList.push, CaptureList.length]

theorem emit_of_suspended {s : PassState ω} (h : s.isSuspended = true) (v : Value)
    (hint : Option String) : s.emit v hint = (none, s) := by
  unfold emit
  rw [if_pos h]

/-- What emission does in a pass that is not suspended. -/
theorem emit_eq {s : PassState ω} (h : s.isSuspended = false) (v : Value) (hint : Option String) :
    s.emit v hint =
      match Emission.write v hint s.captures with
      | .ok (text, captures) => (some text, { s with captures })
      | .error e => (none, s.fail e) := by
  unfold emit
  rw [if_neg (by simp [h]), Emission.write]
  cases hv : v.isUndefined with
  | true => simp
  | false =>
      rw [if_neg (by simp), if_neg (by simp)]
      cases v with
      | params items => simp only [captureAll_eq]; rfl
      | _ => rfl

/-- The pass with more values captured. -/
def extend (bound : List (Option String × Value)) (s : PassState ω) : PassState ω :=
  { s with captures := s.captures.extend bound }

theorem extend_append (bound more : List (Option String × Value)) (s : PassState ω) :
    s.extend (bound ++ more) = (s.extend bound).extend more := by
  rw [extend, CaptureList.extend_append]
  rfl

@[simp] theorem captures_extend (bound : List (Option String × Value)) (s : PassState ω) :
    (s.extend bound).captures = s.captures.extend bound := rfl

@[simp] theorem isSuspended_extend (bound : List (Option String × Value)) (s : PassState ω) :
    (s.extend bound).isSuspended = s.isSuspended := rfl

theorem emit_of_defined {s : PassState ω} (h : s.isSuspended = false) {v : Value}
    (hv : v.isUndefined = false) (hint : Option String) :
    s.emit v hint =
      (some (Emission.written s.captures.length v), s.extend (Emission.bound v hint)) := by
  rw [emit_eq h, Emission.write, hv]
  rfl

/-! ### Many emissions -/

/-- Emits values one after the other, whether or not one of them fails. -/
def emitAll : List (Value × Option String) → PassState ω → List (Option Piece) × PassState ω
  | [], s => ([], s)
  | (v, hint) :: calls, s =>
    let (text, t) := s.emit v hint
    let (pieces, u) := emitAll calls t
    (text.map (⟨·, t.captures.values.drop s.captures.length⟩) :: pieces, u)

end PassState

end QueryTemplate
