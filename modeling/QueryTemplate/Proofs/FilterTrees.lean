import QueryTemplate.Proofs.BuiltinChains
import QueryTemplate.Proofs.Undefined

/-!
What the built-in filters wrap, in whatever order and nesting an expression applies them. `bind` puts
a value with its name into a wrapper, `inclause` does this with a list, and either may be given what
the other has returned. `Wrapping` keeps what matters of that when a value is emitted, and it can be
read off the expression. Evaluations are judged by it: `Program.Traces` is what holds of the emitted
values and of the result if variables are not wrapped and calls are answered by built-in filters.
`Eval.Finds` says of an evaluation that it only has a result, with a property, and `Eval.Emits` what
it emits.
-/

namespace QueryTemplate

/-! ### Wrappings -/

/-- What has been made of a value: query text, a value with a name, a list to be bound element by
element. Under a name, `isListed` says that there is a wrapper, too. `holdsWrapper` is about the
elements of the value. -/
structure Wrapping where
  isRaw : Bool := false
  isNamed : Bool := false
  isListed : Bool := false
  holdsWrapper : Bool := false
  deriving DecidableEq, Repr

namespace Wrapping

def isWrapper (w : Wrapping) : Bool :=
  w.isNamed || w.isListed

/-- One wrapper is taken off when a value is emitted, and what is in it is captured. This is a
wrapper again where a list has a name, or an element that is wrapped. -/
def hides (w : Wrapping) : Bool :=
  w.isListed && (w.isNamed || w.holdsWrapper)

/-- What a built-in filter makes of a value. -/
def filtered (w : Wrapping) (name : String) : Wrapping :=
  match name with
  | "bind" => if w.isRaw then w else { w with isNamed := true }
  | "inclause" => { isListed := true, holdsWrapper := w.holdsWrapper }
  | _ => { isRaw := true }

end Wrapping

namespace Value

/-- A value with a name for its parameter, or a list to be bound element by element. -/
def isWrapper : Value → Bool
  | bound .. => true
  | params _ => true
  | _ => false

def wrapping : Value → Wrapping
  | safe _ => { isRaw := true }
  | bound v _ =>
    { isNamed := true, isListed := v.wrapping.isWrapper, holdsWrapper := v.wrapping.holdsWrapper }
  | v => { isListed := v.isWrapper, holdsWrapper := (v.elements?.getD []).any isWrapper }

/-- What is captured when the value is emitted. -/
def unwrapped : Value → List Value
  | bound v _ => [v]
  | params items => items
  | safe _ => []
  | v => [v]

@[simp] theorem isWrapper_wrapping (v : Value) : v.wrapping.isWrapper = v.isWrapper := by
  cases v <;> simp [wrapping, Wrapping.isWrapper, isWrapper]

theorem isWrapper_of_wrapping {v w : Value} (h : w.wrapping = v.wrapping) :
    w.isWrapper = v.isWrapper := by
  rw [← isWrapper_wrapping, h, isWrapper_wrapping]

theorem holdsWrapper_wrapping {v : Value} {items : List Value} (h : v.elements? = some items) :
    v.wrapping.holdsWrapper = items.any isWrapper := by
  cases v <;> cases h <;> rfl

theorem hides_wrapping (v : Value) : v.wrapping.hides = v.unwrapped.any isWrapper := by
  cases v <;> simp [wrapping, Wrapping.hides, unwrapped, isWrapper, elements?]

end Value

namespace Builtin

/-- What a built-in filter returns is wrapped as its name and its input say. -/
theorem wrapping_of_run {name : String}
    {f : FilterScope → Classified → List Value → Except FilterError Classified}
    (hf : run? name = some f) {scope : FilterScope} {v : Value} {output : Classified}
    {args : List Value} (h : f scope (classify v) args = .ok output) :
    output.toValue.wrapping = v.wrapping.filtered name := by
  have hraw (houtput : output.isRaw = true) : output.toValue.wrapping = { isRaw := true } := by
    cases output with
    | raw text => rfl
    | parameter value hint => cases houtput
  unfold run? at hf
  split at hf <;> cases hf
  case h_1 => exact hraw (isRaw_identifier h)
  case h_4 => exact hraw (isRaw_sqlsafe h)
  case h_5 => exact hraw (isRaw_safe h)
  case h_2 =>
    unfold inclause at h
    split at h
    · cases h
    · rename_i value hint hclassify
      have hholds : v.wrapping.holdsWrapper = value.wrapping.holdsWrapper := by
        cases v <;> cases hclassify <;> rfl
      split at h
      · rename_i items hitems
        cases h
        rw [Wrapping.filtered, hholds, Value.holdsWrapper_wrapping hitems]
        rfl
      · cases h
  case h_3 =>
    obtain ⟨name, rfl⟩ := bind_eq_ok h
    cases v <;> simp [classify, Classified.withHint, Classified.toValue, Value.wrapping,
      Wrapping.filtered, Wrapping.isWrapper, Value.isWrapper]

end Builtin

namespace Template

variable {α β : Type}

/-! ### Emissions of a computation -/

namespace Program

/-- Whatever variables without wrappers the surroundings have, and whatever the built-in filters
return for its calls, the emitted values and the result have a property. -/
def Traces (Q : List Value → α → Prop) : Program α → List Value → Prop
  | done a, emitted => Q emitted a
  | lookup _ next, emitted =>
    ∀ v : Option Value, (∀ w ∈ v, w.wrapping = {}) → (next v).Traces Q emitted
  | call name input _ next, emitted =>
    (Builtin.run? name).isSome ∧
      ∀ v, v.wrapping = input.wrapping.filtered name → (next v).Traces Q emitted
  | emit v _ next, emitted => ∀ text, (next text).Traces Q (emitted ++ [v])
  | read _ _ next, emitted => ∀ v, (next v).Traces Q emitted

theorem Traces.bind {P : List Value → α → Prop} {Q : List Value → β → Prop} {x : Program α}
    {f : α → Program β} {emitted : List Value} (hx : x.Traces P emitted)
    (hf : ∀ later a, P later a → (f a).Traces Q later) : (x.bind f).Traces Q emitted := by
  induction x generalizing emitted with
  | done a => exact hf emitted a hx
  | lookup name next ih => exact fun v hv => ih v (hx v hv)
  | call name input args next ih => exact ⟨hx.1, fun v hv => ih v (hx.2 v hv)⟩
  | emit v hint next ih => exact fun text => ih text (hx text)
  | read object attr next ih => exact fun v => ih v (hx v)

end Program

/-- There are the variables of the render and no others, and no template is extended. -/
structure Store.IsTop (s : Store) : Prop where
  frames : s.frames = [{ base := .root }]
  parent : s.parent = none

namespace Eval

variable {P : α → Prop} {Q : β → Prop}

/-- The property holds of the values that are emitted, of the result and of the state that is left,
if there is a result. -/
def Traces (R : List Value → α → Store → Prop) (x : Eval α) (s : Store) (emitted : List Value) :
    Prop :=
  Program.Traces (fun later r => ∀ a s', r = .ok (a, s') → R later a s')
    (x s : Program (Except Stop (α × Store))) emitted

section Traces

variable {R : List Value → α → Store → Prop} {x : Eval α} {s : Store} {emitted : List Value}

theorem Traces.stop (e : Stop) : Traces R (fun _ => .done (.error e)) s emitted :=
  fun _ _ h => nomatch h

theorem Traces.bind {R' : List Value → β → Store → Prop} {f : α → Eval β}
    (hx : Traces R x s emitted) (hf : ∀ later a s', R later a s' → Traces R' (f a) s' later) :
    Traces R' (x >>= f) s emitted := by
  refine Program.Traces.bind hx fun later r hr => ?_
  rcases r with stop | ⟨a, s'⟩
  · exact fun _ _ h => nomatch h
  · exact hf later a s' (hr a s' rfl)

theorem Traces.mapStop (hx : Traces R x s emitted) (g : Stop → Stop) :
    Traces R (Eval.mapStop g x) s emitted := by
  refine Program.Traces.bind hx fun later r hr => ?_
  rcases r with stop | ⟨a, s'⟩
  · exact fun _ _ h => nomatch h
  · exact hr

theorem Traces.at_ (hx : Traces R x s emitted) (line : Nat) :
    Traces R (Eval.at_ line x) s emitted :=
  hx.mapStop _

end Traces

/-- At the top of a template, the evaluation emits nothing, leaves the state as it was, and has a
result with a property. -/
def Finds (Q : α → Prop) (x : Eval α) : Prop :=
  ∀ s emitted, s.IsTop → Traces (fun later a s' => later = emitted ∧ s' = s ∧ Q a) x s emitted

/-- Nothing is said about the result. -/
class Looks (x : Eval α) : Prop where
  finds : Finds (fun _ => True) x

namespace Finds

theorem pure {a : α} (h : P a) : Finds P (Pure.pure a) := by
  rintro s emitted - _ _ ⟨⟩
  exact ⟨rfl, rfl, h⟩

theorem stop (e : Stop) : Finds P fun _ => .done (.error e) :=
  fun _ _ _ => .stop e

theorem bind {x : Eval α} {f : α → Eval β} (hx : Finds P x) (hf : ∀ a, P a → Finds Q (f a)) :
    Finds Q (x >>= f) := by
  intro s emitted hs
  refine (hx s emitted hs).bind ?_
  rintro _ a _ ⟨rfl, rfl, ha⟩
  exact hf a ha _ _ hs

/-- What comes next, behind an evaluation that has an instance. -/
theorem next {x : Eval α} {f : α → Eval β} [hx : Looks x] (hf : ∀ a, Finds Q (f a)) :
    Finds Q (x >>= f) :=
  bind hx.finds fun a _ => hf a

theorem get : Finds Store.IsTop MonadState.get := by
  rintro s emitted hs _ _ ⟨⟩
  exact ⟨rfl, rfl, hs⟩

theorem mono {R : α → Prop} {x : Eval α} (hx : Finds P x) (h : ∀ a, P a → R a) : Finds R x := by
  have hbind : Finds R (x >>= Pure.pure) := hx.bind fun a ha => pure (h a ha)
  rwa [bind_pure] at hbind

theorem looks {x : Eval α} (hx : Finds P x) : Looks x :=
  ⟨hx.mono fun _ _ => trivial⟩

theorem at_ {x : Eval α} (hx : Finds P x) (line : Nat) : Finds P (Eval.at_ line x) :=
  fun s emitted hs => (hx s emitted hs).at_ line

theorem lookup (name : String) :
    Finds (fun v => ∀ w ∈ v, w.wrapping = {}) (Eval.lookup name) := by
  rintro s emitted - v hv _ _ ⟨⟩
  exact ⟨rfl, rfl, hv⟩

theorem call {name : String} (hname : (Builtin.run? name).isSome) (v : Value) (args : List Value) :
    Finds (fun w => w.wrapping = v.wrapping.filtered name) (Eval.call name v args) := by
  refine fun s emitted _ => ⟨hname, ?_⟩
  rintro w hw _ _ ⟨⟩
  exact ⟨rfl, rfl, hw⟩

/-- One evaluation for each element, with a result that fits the element. -/
theorem mapM {R : α → β → Prop} {f : α → Eval β} {items : List α}
    (hf : ∀ a ∈ items, Finds (R a) (f a)) : Finds (List.Forall₂ R items) (items.mapM f) := by
  induction items with
  | nil => exact pure .nil
  | cons a rest ih =>
      obtain ⟨ha, hrest⟩ := List.forall_mem_cons.mp hf
      rw [List.mapM_cons]
      exact ha.bind fun b hb => (ih hrest).bind fun bs hbs => pure (.cons hb hbs)

end Finds

namespace Looks

instance pure (a : α) : Looks (Pure.pure a) := ⟨.pure trivial⟩

instance fail (e : EngineError) : Looks (α := α) (Eval.fail e) := ⟨.stop _⟩

instance get : Looks MonadState.get := Finds.get.looks

instance lookup (name : String) : Looks (Eval.lookup name) := (Finds.lookup name).looks

instance read (object : Nat) (attr : String) : Looks (Eval.read object attr) := by
  refine ⟨fun s emitted _ v => ?_⟩
  rintro _ _ ⟨⟩
  exact ⟨rfl, rfl, trivial⟩

theorem next {x : Eval α} {f : α → Eval β} [hx : Looks x] (hf : ∀ a, Looks (f a)) :
    Looks (x >>= f) :=
  ⟨.next fun a => (hf a).finds⟩

instance bind {x : Eval α} {f : α → Eval β} [Looks x] [hf : ∀ a, Looks (f a)] :
    Looks (x >>= f) :=
  next hf

instance ite {c : Prop} [Decidable c] {x y : Eval α} [hx : Looks x] [hy : Looks y] :
    Looks (if c then x else y) := by
  split
  · exact hx
  · exact hy

instance mapM {f : α → Eval β} [hf : ∀ a, Looks (f a)] (items : List α) :
    Looks (items.mapM f) :=
  (Finds.mapM fun a _ => (hf a).finds).looks

end Looks

/-! ### Variables -/

/-- The variables of the render, and the functions of the template language, are not wrapped. -/
theorem finds_load (name : String) : Finds (fun v => ∀ w ∈ v, w.wrapping = {}) (load name) := by
  have hroot : Finds (fun v => ∀ w ∈ v, w.wrapping = {}) (loadRoot name) := by
    unfold loadRoot
    split
    · refine .pure ?_
      rintro w ⟨⟩
      rfl
    · exact .lookup name
  have hframes : Finds (fun v => ∀ w ∈ v, w.wrapping = {})
      (loadFrom name [{ base := .root }]) := by
    simp only [loadFrom, List.lookup_nil, loadBase]
    refine hroot.bind fun found hfound => ?_
    cases found with
    | none => exact .pure fun w hw => by cases hw
    | some v => exact .pure hfound
  refine Finds.get.bind fun s hs => ?_
  rw [hs.frames]
  refine hframes.bind fun found hfound => ?_
  cases found with
  | some v => exact .pure hfound
  | none =>
      refine .pure fun w hw => ?_
      obtain ⟨before, after, heq, -⟩ := List.lookup_eq_some_iff.mp hw
      have hmem : (name, w) ∈ globals := by simp [heq]
      rw [globals] at hmem
      simp only [List.mem_cons, Prod.mk.injEq, List.not_mem_nil, or_false] at hmem
      rcases hmem with ⟨-, rfl⟩ | ⟨-, rfl⟩ | ⟨-, rfl⟩ | ⟨-, rfl⟩ <;> rfl

instance looks_load (name : String) : Looks (load name) :=
  (finds_load name).looks

instance looks_loadRoot (name : String) : Looks (loadRoot name) := by
  unfold loadRoot
  infer_instance

/-! ### Looking into values -/

instance looks_demand (env : Environment) (v : Value) : Looks (demand env v) := by
  unfold demand
  split <;> infer_instance

instance looks_recordEntries (id : Nat) : Looks (recordEntries id) := by
  unfold recordEntries
  infer_instance

instance looks_loopState? (id : Nat) : Looks (loopState? id) := by
  unfold loopState?
  infer_instance

instance looks_keys? (env : Environment) (v : Value) : Looks (keys? env v) := by
  unfold keys?
  split <;> infer_instance

instance looks_items? (env : Environment) (v : Value) : Looks (items? env v) := by
  unfold items?
  repeat' split
  all_goals infer_instance

instance looks_member? (v key : Value) : Looks (member? v key) := by
  unfold member?
  repeat' split
  all_goals infer_instance

instance looks_pairs? (env : Environment) (v : Value) : Looks (pairs? env v) := by
  unfold pairs?
  refine .next fun keys? => ?_
  split <;> infer_instance

theorem any_isWrapper_of_wrapping {items found : List Value}
    (h : List.Forall₂ (fun v w : Value => w.wrapping = v.wrapping) items found) :
    found.any Value.isWrapper = items.any Value.isWrapper := by
  induction h with
  | nil => rfl
  | cons hv _ ih => rw [List.any_cons, List.any_cons, ih, Value.isWrapper_of_wrapping hv]

/-- Objects are not wrapped, and the maps that they are replaced by are not either. -/
theorem finds_expand (env : Environment) (levels : Nat) (v : Value) :
    Finds (fun w => w.wrapping = v.wrapping) (expand env levels v) := by
  induction levels generalizing v with
  | zero => exact .pure rfl
  | succ levels ih =>
      have hlooks (v : Value) : Looks (expand env levels v) := (ih v).looks
      have hitems (items : List Value) :
          Finds (List.Forall₂ (fun v w : Value => w.wrapping = v.wrapping) items)
            (items.mapM (expand env levels)) :=
        .mapM fun v _ => ih v
      unfold expand
      cases v with
      | list items | iter items | stream items complete | params items =>
          refine (hitems items).bind fun found hfound => .pure ?_
          simp [Value.wrapping, Value.elements?, Value.isWrapper,
            any_isWrapper_of_wrapping hfound]
      | group key members =>
          refine (ih key).bind fun found hfound => .next fun more => .pure ?_
          have hkey := Value.isWrapper_of_wrapping hfound
          simp only [Value.wrapping, Value.elements?, Option.getD_some, List.any_cons, hkey]
          rfl
      | bound v hint =>
          refine (ih v).bind fun found hfound => .pure ?_
          rw [Value.wrapping, Value.wrapping, hfound]
      | map entries => exact .next fun found => .pure rfl
      | package text entries => exact .next fun found => .pure rfl
      | object ref =>
          refine .next fun pairs? => ?_
          cases pairs? with
          | none => exact .pure rfl
          | some pairs =>
              refine .next fun entries => ?_
              cases ref with
              | loop id => exact .next fun state => .pure rfl
              | _ => exact .pure rfl
      | _ => exact .pure rfl

theorem finds_snapshot (env : Environment) (v : Value) :
    Finds (fun w => w.wrapping = v.wrapping) (snapshot env v) :=
  finds_expand env _ v

instance looks_snapshot (env : Environment) (v : Value) : Looks (snapshot env v) :=
  (finds_snapshot env v).looks

instance looks_textOf (env : Environment) (v : Value) : Looks (textOf env v) := by
  unfold textOf
  infer_instance

/-! ### Arguments -/

instance looks_spreadAll (env : Environment) (positional : List (Bool × Value)) :
    Looks (spreadAll env positional) := by
  induction positional with
  | nil => exact .pure _
  | cons given rest ih =>
      rcases given with ⟨_ | _, v⟩
      · unfold spreadAll
        infer_instance
      · unfold spreadAll
        refine .next fun items? => ?_
        split <;> infer_instance

instance looks_mergeNamed (env : Environment) (sorted : List (Value × Value))
    (parts : List NamedPart) : Looks (mergeNamed env sorted parts) := by
  induction parts generalizing sorted with
  | nil => exact .pure _
  | cons part rest ih =>
      cases part with
      | entry name v => exact ih _
      | entries v =>
          unfold mergeNamed
          refine .next fun pairs? => ?_
          split <;> infer_instance

instance looks_gather (env : Environment) (positional : List (Bool × Value))
    (named : Option (List NamedPart)) : Looks (gather env positional named) := by
  unfold gather
  cases named <;> infer_instance

instance looks_upTo (args : CallArgs) (n : Nat) : Looks (args.upTo n) := by
  unfold CallArgs.upTo
  infer_instance

instance looks_required (given : Option Value) : Looks (Argument.required given) := by
  unfold Argument.required
  split <;> infer_instance

instance looks_hint (env : Environment) (given : Option Value) :
    Looks (Argument.optional (Argument.text env) given) := by
  unfold Argument.optional Argument.text
  split <;> infer_instance

end Eval

/-! ### Expressions -/

mutual

/-- Variables, constants without wrappers, lists, and the built-in filters applied to them, with
arguments of the same sort. -/
def Expr.isFilterTree : Expr → Bool
  | .var _ _ => true
  | .const _ v => v.wrapping == {}
  | .list _ items => areFilterTrees items
  | .filter _ (some e) name args =>
    (Builtin.run? name).isSome && e.isFilterTree && areArgumentTrees args
  | _ => false

def areFilterTrees : List Expr → Bool
  | [] => true
  | e :: rest => e.isFilterTree && areFilterTrees rest

def areArgumentTrees : List (ArgKind × Expr) → Bool
  | [] => true
  | (_, e) :: rest => e.isFilterTree && areArgumentTrees rest

end

mutual

/-- What the filters of an expression make of its value. -/
def Expr.wrapping : Expr → Wrapping
  | .list _ items => { holdsWrapper := holdWrapper items }
  | .filter _ (some e) name _ => e.wrapping.filtered name
  | _ => {}

def holdWrapper : List Expr → Bool
  | [] => false
  | e :: rest => e.wrapping.isWrapper || holdWrapper rest

end

namespace Eval

variable {env : Environment}
  (hdispatched : ∀ name, (Builtin.run? name).isSome → env.registered.contains name = true)

include hdispatched

theorem finds_applyFilter {name : String} (hname : (Builtin.run? name).isSome) (v : Value)
    (named : Option (List (Value × Value))) (positional : List Value) :
    Finds (fun w => w.wrapping = v.wrapping.filtered name)
      (applyFilter env name v named positional) := by
  have hne : name ≠ emitName := by
    rintro rfl
    exact absurd hname (by decide)
  rw [applyFilter.eq_def, if_neg hne, if_pos (hdispatched name hname)]
  unfold callRegistered
  refine .next fun scope => ?_
  split
  · refine (finds_snapshot env v).bind fun given hgiven => .next fun args => ?_
    rw [← hgiven]
    exact .call hname given args
  · exact .stop _

variable (deeper : Deeper)

section

set_option linter.unusedSectionVars false

mutual

/-- The value of a filter tree is wrapped as the tree says. -/
theorem finds_eval (block : BlockInput) (line : Nat) : ∀ e : Expr, e.isFilterTree = true →
    Finds (fun v => v.wrapping = e.wrapping) (eval env deeper block line e)
  | .var l name, _ => by
      rw [eval]
      refine (finds_load name).bind fun found hfound => .pure ?_
      cases found with
      | none => rfl
      | some v => exact hfound v rfl
  | .const l v, h => by
      rw [Expr.isFilterTree, beq_iff_eq] at h
      rw [eval]
      exact .pure h
  | .list l items, h => by
      rw [eval]
      refine (finds_evalList l items h).bind fun found hfound => .pure ?_
      rw [Value.wrapping, Expr.wrapping, ← hfound]
      · rfl
      · nofun
      · nofun
  | .filter l (some e) name args, h => by
      rw [Expr.isFilterTree, Bool.and_eq_true, Bool.and_eq_true] at h
      obtain ⟨⟨hname, he⟩, hargs⟩ := h
      have hpositional (line : Nat) := looks_evalPositional line args hargs
      have hnamed (line : Nat) := looks_evalNamed line args hargs
      rw [eval]
      refine (finds_eval block l e he).bind fun v hv => ?_
      refine .next fun positional => .next fun named => .at_ (.next fun given => ?_) _
      rw [Expr.wrapping, ← hv]
      exact finds_applyFilter hdispatched hname v _ _
  | .filter _ none _ _, h | .map _ _, h | .not _ _, h | .neg _ _, h | .binary _ _ _, h
  | .chain _ _, h | .and _ _, h | .or _ _, h | .conditional _ _ _ _, h | .attr _ _, h
  | .index _ _, h | .slice _ _ _ _, h | .test _ _ _, h | .call _ _ _, h => nomatch h

theorem finds_evalList (line : Nat) : ∀ items : List Expr, areFilterTrees items = true →
    Finds (fun found => found.any Value.isWrapper = holdWrapper items)
      (evalList env deeper line items)
  | [], _ => by
      rw [evalList]
      exact .pure rfl
  | e :: rest, h => by
      rw [areFilterTrees, Bool.and_eq_true] at h
      rw [evalList]
      refine (finds_eval {} line e h.1).bind fun v hv => ?_
      refine (finds_evalList _ rest h.2).bind fun found hfound => .pure ?_
      rw [List.any_cons, holdWrapper, ← Value.isWrapper_wrapping, hv, hfound]

theorem looks_evalPositional (line : Nat) : ∀ args : List (ArgKind × Expr),
    areArgumentTrees args = true → Looks (evalPositional env deeper line args)
  | [], _ => by
      rw [evalPositional]
      infer_instance
  | (kind, e) :: rest, h => by
      rw [areArgumentTrees, Bool.and_eq_true] at h
      have he := (finds_eval {} line e h.1).looks
      have hrest (line : Nat) := looks_evalPositional line rest h.2
      unfold evalPositional
      cases kind <;> infer_instance

theorem looks_evalNamed (line : Nat) : ∀ args : List (ArgKind × Expr),
    areArgumentTrees args = true → Looks (evalNamed env deeper line args)
  | [], _ => by
      rw [evalNamed]
      infer_instance
  | (kind, e) :: rest, h => by
      rw [areArgumentTrees, Bool.and_eq_true] at h
      have he := (finds_eval {} line e h.1).looks
      have hrest (line : Nat) := looks_evalNamed line rest h.2
      unfold evalNamed
      cases kind <;> infer_instance

end

end

end Eval

/-! ### Templates of text and tags -/

/-- Text, or a tag that emits a filter tree. -/
def Stmt.isFlat : Stmt → Bool
  | .text _ _ => true
  | .emit _ (.filter _ (some e) name args) =>
    name == emitName && e.isFilterTree && areArgumentTrees args
  | _ => false

/-- The expression that a tag emits. -/
def Stmt.emitted : Stmt → List Expr
  | .emit _ (.filter _ (some e) _ _) => [e]
  | _ => []

def Source.isFlat (src : Source) : Bool :=
  src.body.all Stmt.isFlat

def Source.emitted (src : Source) : List Expr :=
  src.body.flatMap Stmt.emitted

namespace Eval

/-- At the top of a template, the evaluation emits values with these wrappings. -/
def Emits (wrappings : List Wrapping) (x : Eval α) : Prop :=
  ∀ s emitted, s.IsTop →
    Traces (fun later _ s' =>
      s'.IsTop ∧ later.map Value.wrapping = emitted.map Value.wrapping ++ wrappings) x s emitted

namespace Emits

variable {wrappings more : List Wrapping}

theorem pure (a : α) : Emits [] (Pure.pure a) := by
  rintro s emitted hs _ _ ⟨⟩
  exact ⟨hs, by rw [List.append_nil]⟩

theorem stop (e : Stop) : Emits (α := α) wrappings fun _ => .done (.error e) :=
  fun _ _ _ => .stop e

theorem bind {x : Eval α} {f : α → Eval β} (hx : Emits wrappings x) (hf : ∀ a, Emits more (f a)) :
    Emits (wrappings ++ more) (x >>= f) := by
  intro s emitted hs
  refine (hx s emitted hs).bind ?_
  rintro later a s' ⟨hs', hlater⟩
  have hrest := hf a s' later hs'
  rwa [hlater, List.append_assoc] at hrest

/-- What comes behind emits nothing. -/
theorem then_nothing {x : Eval α} {f : α → Eval β} (hx : Emits wrappings x)
    (hf : ∀ a, Emits [] (f a)) : Emits wrappings (x >>= f) := by
  have hbind := hx.bind hf
  rwa [List.append_nil] at hbind

/-- An evaluation behind one that only reads. -/
theorem behind {x : Eval α} {f : α → Eval β} (hx : Finds P x)
    (hf : ∀ a, P a → Emits wrappings (f a)) : Emits wrappings (x >>= f) := by
  intro s emitted hs
  refine (hx s emitted hs).bind ?_
  rintro _ a _ ⟨rfl, rfl, ha⟩
  exact hf a ha _ _ hs

theorem next {x : Eval α} {f : α → Eval β} [hx : Looks x] (hf : ∀ a, Emits wrappings (f a)) :
    Emits wrappings (x >>= f) :=
  behind hx.finds fun a _ => hf a

theorem at_ {x : Eval α} (hx : Emits wrappings x) (line : Nat) :
    Emits wrappings (Eval.at_ line x) :=
  fun s emitted hs => (hx s emitted hs).at_ line

theorem update {g : Store → Store} (hg : ∀ s, s.IsTop → (g s).IsTop) : Emits [] (modify g) := by
  rintro s emitted hs _ _ ⟨⟩
  exact ⟨hg s hs, by rw [List.append_nil]⟩

theorem emit (v : Value) (hint : Option String) : Emits [v.wrapping] (Eval.emit v hint) := by
  rintro s emitted hs text _ _ ⟨⟩
  exact ⟨hs, by rw [List.map_append]; rfl⟩

theorem write (piece : Piece) : Emits [] (Eval.write piece) := by
  refine update fun s hs => ?_
  split
  · exact ⟨hs.frames, hs.parent⟩
  · exact hs

end Emits

theorem emits_emitFilter (env : Environment) (v : Value) (args : CallArgs) :
    Emits [v.wrapping] (emitFilter env v args) := by
  unfold emitFilter
  refine .next fun given => .next fun scope => .next fun hint => ?_
  split
  · refine .behind (finds_snapshot env v) fun w hw => ?_
    rw [← hw]
    exact .emit w hint
  · exact .stop _

variable {env : Environment}
  (hdispatched : ∀ name, (Builtin.run? name).isSome → env.registered.contains name = true)
  (deeper : Deeper)

include hdispatched

/-- A tag emits one value, with the wrapping of its expression. -/
theorem emits_exec {stmt : Stmt} (h : stmt.isFlat = true) :
    Emits (stmt.emitted.map Expr.wrapping) (exec env deeper stmt) := by
  unfold Stmt.isFlat at h
  split at h
  · exact .write _
  · rename_i line l e name args
    rw [Bool.and_eq_true, Bool.and_eq_true, beq_iff_eq] at h
    obtain ⟨⟨rfl, he⟩, hargs⟩ := h
    have hpositional (line : Nat) := looks_evalPositional hdispatched deeper line args hargs
    have hnamed (line : Nat) := looks_evalNamed hdispatched deeper line args hargs
    have heval : Emits [e.wrapping]
        (eval env deeper {} line (.filter l (some e) emitName args)) := by
      rw [eval]
      refine .behind (finds_eval hdispatched deeper {} l e he) fun v hv => ?_
      refine .next fun positional => .next fun named => .at_ (.next fun given => ?_) _
      rw [applyFilter.eq_def, if_pos rfl, ← hv]
      exact emits_emitFilter env v _
    rw [exec]
    exact heval.then_nothing fun v => .write _
  · cases h

theorem emits_execBody {body : List Stmt} (h : body.all Stmt.isFlat = true) :
    Emits ((body.flatMap Stmt.emitted).map Expr.wrapping) (execBody env deeper body) := by
  induction body with
  | nil =>
      rw [execBody]
      exact .pure _
  | cons stmt rest ih =>
      rw [List.all_cons, Bool.and_eq_true] at h
      rw [execBody, List.flatMap_cons, List.map_append]
      exact (emits_exec hdispatched deeper h.1).bind fun _ => ih h.2

theorem emits_runUnit (template : String) {body : List Stmt} (h : body.all Stmt.isFlat = true) :
    Emits ((body.flatMap Stmt.emitted).map Expr.wrapping) (runUnit env deeper template body) := by
  rw [runUnit]
  refine .behind .get fun s hs => ?_
  have hset : Emits [] (MonadStateOf.set { s with template, parent := none }) := by
    rintro _ emitted - _ _ ⟨⟩
    exact ⟨⟨hs.frames, rfl⟩, by rw [List.append_nil]⟩
  refine hset.bind fun _ => (emits_execBody hdispatched deeper h).then_nothing fun _ => ?_
  refine .behind .get fun s' hs' => ?_
  rw [hs'.parent]
  dsimp only
  exact .update fun s' hs' => ⟨hs'.frames, hs.parent⟩

end Eval

/-- A template of text and tags emits one value for each tag, wrapped as the expression of the tag
says. -/
theorem Source.traces_program {env : Environment}
    (hdispatched : ∀ name, (Builtin.run? name).isSome → env.registered.contains name = true)
    {src : Source} (h : src.isFlat = true) :
    (src.program env).Traces (fun later r => ∀ pieces, r = .ok pieces →
      later.map Value.wrapping = src.emitted.map Expr.wrapping) [] := by
  have htask : Eval.Emits (src.emitted.map Expr.wrapping)
      (doTask env maxLevels (.unit src.name src.body)) := by
    have hlevels : maxLevels = 4999 + 1 := rfl
    rw [hlevels, doTask, Eval.perform]
    exact (Eval.emits_runUnit hdispatched (doTask env 4999) src.name h).then_nothing fun _ =>
      .pure _
  refine Program.Traces.bind (htask (Store.initial src) [] ⟨rfl, rfl⟩) fun later r hr => ?_
  rcases r with stop | ⟨v, s⟩
  · exact fun _ h => nomatch h
  · exact fun _ _ => (hr v s rfl).2

end Template

end QueryTemplate
