import QueryTemplate.Proofs.Reading

/-!
What evaluating an expression keeps. An expression does more than to read the state only where it
calls something or applies a filter, so what its calls and its filters keep is kept by the whole of
it. Which filters there are, and with which arguments, is up to a property of all the filters in the
expression. Before that stands what the state holds for later: the versions of blocks, and the loops
that can be run again.
-/

namespace QueryTemplate.Template

/-! ### Blocks and loops -/

section Held

variable {P : List Stmt → Prop} {blocks : List (String × BlockStack)}

/-- The bodies of all versions of all blocks have a property. -/
def EachLayer (P : List Stmt → Prop) (blocks : List (String × BlockStack)) : Prop :=
  ∀ b ∈ blocks, ∀ layer ∈ b.2.layers, P layer.2.body

theorem EachLayer.blockStacks {src : Source} (h : ∀ entry ∈ src.blocks, P entry.2.body) :
    EachLayer P (Eval.blockStacks src) := by
  intro b hb layer hlayer
  obtain ⟨entry, hentry, rfl⟩ := List.mem_map.mp hb
  obtain rfl := List.mem_singleton.mp hlayer
  exact (h entry hentry : P entry.2.body)

theorem EachLayer.addLayer {name template : String} {block : Block} (hblock : P block.body)
    (h : EachLayer P blocks) : EachLayer P (Eval.addLayer name template block blocks) := by
  induction blocks with
  | nil =>
      intro b hb layer hlayer
      obtain rfl := List.mem_singleton.mp hb
      obtain rfl := List.mem_singleton.mp hlayer
      exact hblock
  | cons entry rest ih =>
      obtain ⟨n, stack⟩ := entry
      obtain ⟨hstack, hrest⟩ := List.forall_mem_cons.mp h
      unfold Eval.addLayer
      split
      · refine List.forall_mem_cons.mpr ⟨fun layer hlayer => ?_, hrest⟩
        rcases List.mem_append.mp hlayer with hbefore | hlast
        · exact hstack layer hbefore
        · obtain rfl := List.mem_singleton.mp hlast
          exact hblock
      · exact List.forall_mem_cons.mpr ⟨hstack, ih hrest⟩

/-- The blocks of a parent go below the others. -/
theorem EachLayer.addLayers {template : String} {added : List (String × Block)}
    (hadded : ∀ entry ∈ added, P entry.2.body) (h : EachLayer P blocks) :
    EachLayer P
      (added.foldl (fun blocks entry => Eval.addLayer entry.1 template entry.2 blocks) blocks) := by
  induction added generalizing blocks with
  | nil => exact h
  | cons entry rest ih =>
      obtain ⟨hentry, hrest⟩ := List.forall_mem_cons.mp hadded
      exact ih hrest (h.addLayer hentry)

theorem EachLayer.setDepth (h : EachLayer P blocks) (name : String) (depth : Nat) :
    EachLayer P (Eval.setDepth name depth blocks) := by
  intro b hb layer hlayer
  obtain ⟨⟨n, stack⟩, hbefore, rfl⟩ := List.mem_map.mp hb
  refine h (n, stack) hbefore layer ?_
  dsimp only at hlayer
  split at hlayer <;> exact hlayer

/-- The version of a block that is found. -/
theorem EachLayer.of_lookup (h : EachLayer P blocks) {name : String} {stack : BlockStack}
    (hstack : blocks.lookup name = some stack) {depth : Nat} {layer : String × Block}
    (hlayer : stack.layers[depth]? = some layer) : P layer.2.body := by
  obtain ⟨before, after, heq, -⟩ := List.lookup_eq_some_iff.mp hstack
  have hmem : (name, stack) ∈ blocks := by simp [heq]
  exact h _ hmem layer (List.mem_of_getElem? hlayer)

/-- A change of a loop that leaves what it runs again as it is. -/
theorem again_of_mem_modify {loops : List LoopState} {P : LoopBody → Prop}
    (h : ∀ l ∈ loops, ∀ body, l.again = some body → P body) (id : Nat) {g : LoopState → LoopState}
    (hg : ∀ l, (g l).again = l.again) :
    ∀ l ∈ loops.modify id g, ∀ body, l.again = some body → P body := by
  intro l hl body hbody
  obtain ⟨i, hi⟩ := List.mem_iff_getElem?.mp hl
  rw [List.getElem?_modify] at hi
  obtain ⟨before, hbefore, rfl⟩ := Option.map_eq_some_iff.mp hi
  refine h before (List.mem_of_getElem? hbefore) body ?_
  rw [← hbody]
  split
  · exact (hg before).symm
  · rfl

end Held

/-! ### The filters of an expression -/

mutual

/-- Whether all filters in an expression, given by name and arguments, have a property. -/
def Expr.eachFilter (p : String → List Arg → Bool) : Expr → Bool
  | .var _ _ => true
  | .const _ _ => true
  | .list _ items => eachFilterOf p items
  | .map _ entries => eachFilterOfEntries p entries
  | .not _ e => e.eachFilter p
  | .neg _ e => e.eachFilter p
  | .binary _ a b => a.eachFilter p && b.eachFilter p
  | .chain a steps => a.eachFilter p && eachFilterOfSteps p steps
  | .and a b => a.eachFilter p && b.eachFilter p
  | .or a b => a.eachFilter p && b.eachFilter p
  | .conditional _ test yes no =>
    test.eachFilter p && yes.eachFilter p && eachFilterOfOption p no
  | .attr e _ => e.eachFilter p
  | .index e key => e.eachFilter p && key.eachFilter p
  | .slice e start stop step =>
    e.eachFilter p && eachFilterOfOption p start && eachFilterOfOption p stop &&
      eachFilterOfOption p step
  | .filter _ subject name args =>
    p name args && eachFilterOfOption p subject && eachFilterOfArgs p args
  | .test subject _ args => subject.eachFilter p && eachFilterOfArgs p args
  | .call _ callee args => callee.eachFilter p && eachFilterOfArgs p args

def eachFilterOfOption (p : String → List Arg → Bool) : Option Expr → Bool
  | none => true
  | some e => e.eachFilter p

def eachFilterOf (p : String → List Arg → Bool) : List Expr → Bool
  | [] => true
  | e :: rest => e.eachFilter p && eachFilterOf p rest

def eachFilterOfEntries (p : String → List Arg → Bool) : List (Expr × Expr) → Bool
  | [] => true
  | (k, v) :: rest => k.eachFilter p && v.eachFilter p && eachFilterOfEntries p rest

def eachFilterOfSteps (p : String → List Arg → Bool) : List (Comparison × Expr) → Bool
  | [] => true
  | (_, e) :: rest => e.eachFilter p && eachFilterOfSteps p rest

def eachFilterOfArgs (p : String → List Arg → Bool) : List (ArgKind × Expr) → Bool
  | [] => true
  | (_, e) :: rest => e.eachFilter p && eachFilterOfArgs p rest

end

mutual

theorem Expr.eachFilter_true : ∀ e : Expr, e.eachFilter (fun _ _ => true) = true
  | .var _ _ | .const _ _ => rfl
  | .list _ items => eachFilterOf_true items
  | .map _ entries => eachFilterOfEntries_true entries
  | .not _ e | .neg _ e | .attr e _ => e.eachFilter_true
  | .binary _ a b | .and a b | .or a b | .index a b => by
      rw [Expr.eachFilter, a.eachFilter_true, b.eachFilter_true, Bool.and_self]
  | .chain a steps => by
      rw [Expr.eachFilter, a.eachFilter_true, eachFilterOfSteps_true steps, Bool.and_self]
  | .conditional _ test yes no => by
      rw [Expr.eachFilter, test.eachFilter_true, yes.eachFilter_true, eachFilterOfOption_true no]
      rfl
  | .slice e start stop step => by
      rw [Expr.eachFilter, e.eachFilter_true, eachFilterOfOption_true start,
        eachFilterOfOption_true stop, eachFilterOfOption_true step]
      rfl
  | .filter _ subject name args => by
      rw [Expr.eachFilter, eachFilterOfOption_true subject, eachFilterOfArgs_true args]
      rfl
  | .test e _ args | .call _ e args => by
      rw [Expr.eachFilter, e.eachFilter_true, eachFilterOfArgs_true args, Bool.and_self]

theorem eachFilterOfOption_true : ∀ e? : Option Expr, eachFilterOfOption (fun _ _ => true) e? = true
  | none => rfl
  | some e => e.eachFilter_true

theorem eachFilterOf_true : ∀ items : List Expr, eachFilterOf (fun _ _ => true) items = true
  | [] => rfl
  | e :: rest => by rw [eachFilterOf, e.eachFilter_true, eachFilterOf_true rest, Bool.and_self]

theorem eachFilterOfEntries_true : ∀ entries : List (Expr × Expr),
    eachFilterOfEntries (fun _ _ => true) entries = true
  | [] => rfl
  | (k, v) :: rest => by
      rw [eachFilterOfEntries, k.eachFilter_true, v.eachFilter_true, eachFilterOfEntries_true rest]
      rfl

theorem eachFilterOfSteps_true : ∀ steps : List (Comparison × Expr),
    eachFilterOfSteps (fun _ _ => true) steps = true
  | [] => rfl
  | (_, e) :: rest => by
      rw [eachFilterOfSteps, e.eachFilter_true, eachFilterOfSteps_true rest, Bool.and_self]

theorem eachFilterOfArgs_true : ∀ args : List (ArgKind × Expr),
    eachFilterOfArgs (fun _ _ => true) args = true
  | [] => rfl
  | (_, e) :: rest => by
      rw [eachFilterOfArgs, e.eachFilter_true, eachFilterOfArgs_true rest, Bool.and_self]

end

/-! ### The filters and the calls of an expression -/

mutual

/-- Whether all filters in an expression have a property, and all calls, given by what is called and
the arguments, have another. -/
def Expr.eachUse (p : String → List Arg → Bool) (q : Expr → List Arg → Bool) : Expr → Bool
  | .var _ _ => true
  | .const _ _ => true
  | .list _ items => eachUseOf p q items
  | .map _ entries => eachUseOfEntries p q entries
  | .not _ e => e.eachUse p q
  | .neg _ e => e.eachUse p q
  | .binary _ a b => a.eachUse p q && b.eachUse p q
  | .chain a steps => a.eachUse p q && eachUseOfSteps p q steps
  | .and a b => a.eachUse p q && b.eachUse p q
  | .or a b => a.eachUse p q && b.eachUse p q
  | .conditional _ test yes no =>
    test.eachUse p q && yes.eachUse p q && eachUseOfOption p q no
  | .attr e _ => e.eachUse p q
  | .index e key => e.eachUse p q && key.eachUse p q
  | .slice e start stop step =>
    e.eachUse p q && eachUseOfOption p q start && eachUseOfOption p q stop &&
      eachUseOfOption p q step
  | .filter _ subject name args =>
    p name args && eachUseOfOption p q subject && eachUseOfArgs p q args
  | .test subject _ args => subject.eachUse p q && eachUseOfArgs p q args
  | .call _ callee args => q callee args && callee.eachUse p q && eachUseOfArgs p q args

def eachUseOfOption (p : String → List Arg → Bool) (q : Expr → List Arg → Bool) :
    Option Expr → Bool
  | none => true
  | some e => e.eachUse p q

def eachUseOf (p : String → List Arg → Bool) (q : Expr → List Arg → Bool) : List Expr → Bool
  | [] => true
  | e :: rest => e.eachUse p q && eachUseOf p q rest

def eachUseOfEntries (p : String → List Arg → Bool) (q : Expr → List Arg → Bool) :
    List (Expr × Expr) → Bool
  | [] => true
  | (k, v) :: rest => k.eachUse p q && v.eachUse p q && eachUseOfEntries p q rest

def eachUseOfSteps (p : String → List Arg → Bool) (q : Expr → List Arg → Bool) :
    List (Comparison × Expr) → Bool
  | [] => true
  | (_, e) :: rest => e.eachUse p q && eachUseOfSteps p q rest

def eachUseOfArgs (p : String → List Arg → Bool) (q : Expr → List Arg → Bool) :
    List (ArgKind × Expr) → Bool
  | [] => true
  | (_, e) :: rest => e.eachUse p q && eachUseOfArgs p q rest

end

section

variable {p : String → List Arg → Bool}

mutual

/-- Where nothing is said of the calls, the property is one of the filters. -/
theorem Expr.eachUse_of_eachFilter : ∀ e : Expr, e.eachFilter p = true →
    e.eachUse p (fun _ _ => true) = true
  | .var _ _, _ | .const _ _, _ => rfl
  | .list _ items, h => eachUseOf_of_eachFilter items h
  | .map _ entries, h => eachUseOfEntries_of_eachFilter entries h
  | .not _ e, h | .neg _ e, h | .attr e _, h => e.eachUse_of_eachFilter h
  | .binary _ a b, h | .and a b, h | .or a b, h | .index a b, h => by
      rw [Expr.eachFilter, Bool.and_eq_true] at h
      rw [Expr.eachUse, a.eachUse_of_eachFilter h.1, b.eachUse_of_eachFilter h.2, Bool.and_self]
  | .chain a steps, h => by
      rw [Expr.eachFilter, Bool.and_eq_true] at h
      rw [Expr.eachUse, a.eachUse_of_eachFilter h.1, eachUseOfSteps_of_eachFilter steps h.2,
        Bool.and_self]
  | .conditional _ test yes no, h => by
      simp only [Expr.eachFilter, Bool.and_eq_true] at h
      rw [Expr.eachUse, test.eachUse_of_eachFilter h.1.1, yes.eachUse_of_eachFilter h.1.2,
        eachUseOfOption_of_eachFilter no h.2]
      rfl
  | .slice e start stop step, h => by
      simp only [Expr.eachFilter, Bool.and_eq_true] at h
      rw [Expr.eachUse, e.eachUse_of_eachFilter h.1.1.1, eachUseOfOption_of_eachFilter start h.1.1.2,
        eachUseOfOption_of_eachFilter stop h.1.2, eachUseOfOption_of_eachFilter step h.2]
      rfl
  | .filter _ subject name args, h => by
      simp only [Expr.eachFilter, Bool.and_eq_true] at h
      rw [Expr.eachUse, h.1.1, eachUseOfOption_of_eachFilter subject h.1.2,
        eachUseOfArgs_of_eachFilter args h.2]
      rfl
  | .test e _ args, h | .call _ e args, h => by
      rw [Expr.eachFilter, Bool.and_eq_true] at h
      rw [Expr.eachUse, e.eachUse_of_eachFilter h.1, eachUseOfArgs_of_eachFilter args h.2]
      rfl

theorem eachUseOfOption_of_eachFilter : ∀ e? : Option Expr, eachFilterOfOption p e? = true →
    eachUseOfOption p (fun _ _ => true) e? = true
  | none, _ => rfl
  | some e, h => e.eachUse_of_eachFilter h

theorem eachUseOf_of_eachFilter : ∀ items : List Expr, eachFilterOf p items = true →
    eachUseOf p (fun _ _ => true) items = true
  | [], _ => rfl
  | e :: rest, h => by
      rw [eachFilterOf, Bool.and_eq_true] at h
      rw [eachUseOf, e.eachUse_of_eachFilter h.1, eachUseOf_of_eachFilter rest h.2, Bool.and_self]

theorem eachUseOfEntries_of_eachFilter : ∀ entries : List (Expr × Expr),
    eachFilterOfEntries p entries = true → eachUseOfEntries p (fun _ _ => true) entries = true
  | [], _ => rfl
  | (k, v) :: rest, h => by
      simp only [eachFilterOfEntries, Bool.and_eq_true] at h
      rw [eachUseOfEntries, k.eachUse_of_eachFilter h.1.1, v.eachUse_of_eachFilter h.1.2,
        eachUseOfEntries_of_eachFilter rest h.2]
      rfl

theorem eachUseOfSteps_of_eachFilter : ∀ steps : List (Comparison × Expr),
    eachFilterOfSteps p steps = true → eachUseOfSteps p (fun _ _ => true) steps = true
  | [], _ => rfl
  | (_, e) :: rest, h => by
      rw [eachFilterOfSteps, Bool.and_eq_true] at h
      rw [eachUseOfSteps, e.eachUse_of_eachFilter h.1, eachUseOfSteps_of_eachFilter rest h.2,
        Bool.and_self]

theorem eachUseOfArgs_of_eachFilter : ∀ args : List (ArgKind × Expr),
    eachFilterOfArgs p args = true → eachUseOfArgs p (fun _ _ => true) args = true
  | [], _ => rfl
  | (_, e) :: rest, h => by
      rw [eachFilterOfArgs, Bool.and_eq_true] at h
      rw [eachUseOfArgs, e.eachUse_of_eachFilter h.1, eachUseOfArgs_of_eachFilter rest h.2,
        Bool.and_self]

end

end

/-- Whether an expression calls nothing. -/
def Expr.callsNothing (e : Expr) : Bool :=
  e.eachUse (fun _ _ => true) fun _ _ => false

namespace Eval

/-! ### Judgments that are put together -/

/-- What can be said of an evaluation part by part: it holds of what only reads the state, of two
evaluations one behind the other, and with errors reported on a line. -/
structure Judgment where
  bounds : Bounds
  Holds : {α : Type} → Eval α → Prop
  reads : ∀ {α : Type} {x : Eval α}, Reads bounds x → Holds x
  bind : ∀ {α β : Type} {x : Eval α} {f : α → Eval β}, Holds x → (∀ a, Holds (f a)) → Holds (x >>= f)
  at_ : ∀ {α : Type} {x : Eval α}, Holds x → ∀ line, Holds (Eval.at_ line x)

/-- A judgment holds of an evaluation. It is found as `Keeps` is. -/
class Has (J : Judgment) {α : Type} (x : Eval α) : Prop where
  holds : J.Holds x

namespace Has

variable {J : Judgment} {α β : Type}

instance reads {x : Eval α} [hx : Reads J.bounds x] : Has J x := ⟨J.reads hx⟩

theorem bind {x : Eval α} {f : α → Eval β} (hx : Has J x) (hf : ∀ a, Has J (f a)) :
    Has J (x >>= f) := ⟨J.bind hx.holds fun a => (hf a).holds⟩

theorem next {x : Eval α} {f : α → Eval β} [hx : Has J x] (hf : ∀ a, Has J (f a)) :
    Has J (x >>= f) := bind hx hf

instance instBind {x : Eval α} {f : α → Eval β} [hx : Has J x] [hf : ∀ a, Has J (f a)] :
    Has J (x >>= f) := bind hx hf

instance at_ {x : Eval α} [hx : Has J x] (line : Nat) : Has J (Eval.at_ line x) :=
  ⟨J.at_ hx.holds line⟩

instance ite {c : Prop} [Decidable c] {x y : Eval α} [hx : Has J x] [hy : Has J y] :
    Has J (if c then x else y) := by
  split
  · exact hx
  · exact hy

end Has

/-- What keeps a property of the state. -/
def Judgment.keeping (E : Bounds) (I : Store → Prop) : Judgment where
  bounds := E
  Holds := Keeps E I
  reads := fun hx => hx.keeps
  bind := Keeps.bind
  at_ := fun hx line => ⟨hx.returns.at_ line⟩

/-- What only reads the state. -/
def Judgment.reading (E : Bounds) : Judgment where
  bounds := E
  Holds := Reads E
  reads := id
  bind := Reads.bind
  at_ := fun hx line => hx.onLine line

end Eval

namespace Eval

variable {J : Judgment} {env : Environment} {deeper : Deeper}

/-! ### Lists of expressions -/

section Lists

/-- Evaluating the expression keeps the state, wherever it stands. -/
abbrev HasAt (J : Judgment) (env : Environment) (deeper : Deeper) (e : Expr) :
    Prop :=
  ∀ line, Has J (eval env deeper {} line e)

theorem has_evalChain_of {steps : List (Comparison × Expr)}
    (h : ∀ step ∈ steps, HasAt J env deeper step.2) (line : Nat) (v : Value) :
    Has J (evalChain env deeper line v steps) := by
  induction steps generalizing line v with
  | nil =>
      unfold evalChain
      infer_instance
  | cons step rest ih =>
      obtain ⟨hstep, hrest⟩ := List.forall_mem_cons.mp h
      have he := hstep line
      have hlater := fun l v => ih hrest l v
      unfold evalChain
      infer_instance

theorem has_evalList_of {items : List Expr} (h : ∀ e ∈ items, HasAt J env deeper e)
    (line : Nat) : Has J (evalList env deeper line items) := by
  induction items generalizing line with
  | nil =>
      unfold evalList
      infer_instance
  | cons e rest ih =>
      obtain ⟨he, hrest⟩ := List.forall_mem_cons.mp h
      have he := he line
      have hlater := fun l => ih hrest l
      unfold evalList
      infer_instance

theorem has_evalEntries_of {entries : List (Expr × Expr)}
    (h : ∀ entry ∈ entries, HasAt J env deeper entry.1 ∧ HasAt J env deeper entry.2)
    (line : Nat) : Has J (evalEntries env deeper line entries) := by
  induction entries generalizing line with
  | nil =>
      unfold evalEntries
      infer_instance
  | cons entry rest ih =>
      obtain ⟨⟨hk, hv⟩, hrest⟩ := List.forall_mem_cons.mp h
      have hk := hk line
      have hlater := fun l => ih hrest l
      unfold evalEntries
      infer_instance

theorem has_evalPositional_of {args : List Arg}
    (h : ∀ arg ∈ args, HasAt J env deeper arg.2) (line : Nat) :
    Has J (evalPositional env deeper line args) := by
  induction args generalizing line with
  | nil =>
      unfold evalPositional
      infer_instance
  | cons arg rest ih =>
      obtain ⟨kind, e⟩ := arg
      obtain ⟨he, hrest⟩ := List.forall_mem_cons.mp h
      have he := he line
      have hlater := fun l => ih hrest l
      unfold evalPositional
      cases kind <;> infer_instance

theorem has_evalNamed_of {args : List Arg}
    (h : ∀ arg ∈ args, HasAt J env deeper arg.2) (line : Nat) :
    Has J (evalNamed env deeper line args) := by
  induction args generalizing line with
  | nil =>
      unfold evalNamed
      infer_instance
  | cons arg rest ih =>
      obtain ⟨kind, e⟩ := arg
      obtain ⟨he, hrest⟩ := List.forall_mem_cons.mp h
      have he := he line
      have hlater := fun l => ih hrest l
      unfold evalNamed
      cases kind <;> infer_instance

end Lists

/-- Applies a filter to a value, with arguments that are expressions on a line. -/
def applyTo (env : Environment) (deeper : Deeper) (name : String) (args : List Arg) (line : Nat)
    (v : Value) : Eval Value := do
  let positional ← evalPositional env deeper line args
  let named ← evalNamed env deeper line args
  at_ (lastLineOfArgs line args) do
    let given ← gather env positional named
    applyFilter env name v given.named given.positional

theorem has_applyTo {name : String}
    (hfilter : ∀ v named positional, Has J (applyFilter env name v named positional))
    {args : List Arg} (h : ∀ arg ∈ args, HasAt J env deeper arg.2) (line : Nat) (v : Value) :
    Has J (applyTo env deeper name args line v) := by
  have hpositional := fun l => has_evalPositional_of h l
  have hnamed := fun l => has_evalNamed_of h l
  unfold applyTo
  infer_instance

/-- Calls what was found for the callee of a call, with arguments that are expressions on a line. A call
block passes the macro made of it along. -/
def callTo (env : Environment) (deeper : Deeper) (caller? : Option Caller) (args : List Arg)
    (line : Nat) (target : Callee) : Eval Value := do
  let positional ← evalPositional env deeper line args
  let named ← evalNamed env deeper line args
  match caller? with
  | none =>
    at_ (lastLineOfArgs line args) do
      callAny env deeper target (← gather env positional named)
  | some caller => do
    let v ← caller.declare
    at_ caller.line do
      let named := named.getD [] ++ [.entry "caller" v]
      callAny env deeper target (← gather env positional (some named))

theorem has_callTo {caller? : Option Caller}
    (hblock : ∀ caller, caller? = some caller → Has J caller.declare)
    (hany : ∀ target given, Has J (callAny env deeper target given))
    {args : List Arg} (h : ∀ arg ∈ args, HasAt J env deeper arg.2) (line : Nat) (target : Callee) :
    Has J (callTo env deeper caller? args line target) := by
  have hpositional := fun l => has_evalPositional_of h l
  have hnamed := fun l => has_evalNamed_of h l
  unfold callTo
  cases caller? with
  | none => infer_instance
  | some caller =>
      have hdeclare := hblock caller rfl
      infer_instance

section

set_option linter.unusedSectionVars false

/-- Where there is no block, no macro is made of one. -/
theorem has_declare_empty :
    ∀ caller, ({} : BlockInput).caller = some caller → Has J caller.declare :=
  fun _ hcaller => by cases hcaller

variable {p : String → List Arg → Bool} {q : Expr → List Arg → Bool}
  (hcall : ∀ {callee : Expr} {args : List Arg}, q callee args = true →
    ∀ target given, Has J (callAny env deeper target given))
  (hfilter : ∀ {name : String} {args : List Arg}, p name args = true →
    (∀ arg ∈ args, HasAt J env deeper arg.2) →
      ∀ line v, Has J (applyTo env deeper name args line v))

include hcall hfilter

mutual

/-- What the calls and the filters of an expression keep, and the macro made of a block, is kept by
the whole of it. -/
theorem has_eval_of {block : BlockInput}
    (hblock : ∀ caller, block.caller = some caller → Has J caller.declare) (line : Nat) :
    ∀ e : Expr, e.eachUse p q = true → Has J (eval env deeper block line e)
  | .var _ name, _ => by
      unfold eval
      infer_instance
  | .const _ v, _ => by
      unfold eval
      infer_instance
  | .list l items, h => by
      have hitems := has_evalList_of (hasAt_items items h) l
      unfold eval
      infer_instance
  | .map l entries, h => by
      have hentries := has_evalEntries_of (hasAt_entries entries h) l
      unfold eval
      infer_instance
  | .not l e, h => by
      have he := has_eval_of has_declare_empty l e h
      unfold eval
      infer_instance
  | .neg l e, h => by
      have he := has_eval_of has_declare_empty l e h
      unfold eval
      infer_instance
  | .binary op a b, h => by
      rw [Expr.eachUse, Bool.and_eq_true] at h
      have ha := has_eval_of has_declare_empty line a h.1
      have hb := fun l => has_eval_of has_declare_empty l b h.2
      unfold eval
      infer_instance
  | .chain a steps, h => by
      rw [Expr.eachUse, Bool.and_eq_true] at h
      have ha := has_eval_of has_declare_empty line a h.1
      have hsteps := has_evalChain_of (hasAt_steps steps h.2)
      unfold eval
      infer_instance
  | .and a b, h => by
      rw [Expr.eachUse, Bool.and_eq_true] at h
      have ha := has_eval_of has_declare_empty line a h.1
      have hb := fun l => has_eval_of has_declare_empty l b h.2
      unfold eval
      infer_instance
  | .or a b, h => by
      rw [Expr.eachUse, Bool.and_eq_true] at h
      have ha := has_eval_of has_declare_empty line a h.1
      have hb := fun l => has_eval_of has_declare_empty l b h.2
      unfold eval
      infer_instance
  | .conditional l test yes no, h => by
      simp only [Expr.eachUse, Bool.and_eq_true] at h
      have htest := has_eval_of has_declare_empty l test h.1.1
      have hyes := fun l => has_eval_of has_declare_empty l yes h.1.2
      have hno := hasAt_option no h.2
      unfold eval
      cases no with
      | none => infer_instance
      | some no =>
          have hno := hno no rfl
          infer_instance
  | .attr e name, h => by
      have he := has_eval_of has_declare_empty line e h
      unfold eval
      infer_instance
  | .index e key, h => by
      rw [Expr.eachUse, Bool.and_eq_true] at h
      have he := has_eval_of has_declare_empty line e h.1
      have hkey := fun l => has_eval_of has_declare_empty l key h.2
      unfold eval
      infer_instance
  | .slice e start stop step, h => by
      simp only [Expr.eachUse, Bool.and_eq_true] at h
      have he := has_eval_of has_declare_empty line e h.1.1.1
      have hstart := hasAt_option start h.1.1.2
      have hstop := hasAt_option stop h.1.2
      have hstep := hasAt_option step h.2
      unfold eval
      cases start <;> cases stop <;> cases step
      all_goals
        simp only [Option.some.injEq, forall_eq', reduceCtorEq, false_implies, implies_true]
          at hstart hstop hstep
        infer_instance
  | .filter l subject name args, h => by
      simp only [Expr.eachUse, Bool.and_eq_true] at h
      have happly (middle : Nat) (v : Value) : Has J (applyTo env deeper name args middle v) :=
        hfilter h.1.1 (hasAt_args args h.2) middle v
      unfold eval
      cases subject with
      | none => exact .bind inferInstance fun v => happly _ v
      | some e =>
          have he := has_eval_of hblock l e h.1.2
          exact .bind he fun v => happly _ v
  | .test subject name args, h => by
      rw [Expr.eachUse, Bool.and_eq_true] at h
      have hsubject := has_eval_of has_declare_empty line subject h.1
      have hpositional := has_evalPositional_of (hasAt_args args h.2)
      have hnamed := has_evalNamed_of (hasAt_args args h.2)
      unfold eval
      infer_instance
  | .call l callee args, h => by
      simp only [Expr.eachUse, Bool.and_eq_true] at h
      have hany := hcall h.1.1
      have hcallee := has_eval_of has_declare_empty l callee h.1.2
      have hcalled (middle : Nat) (target : Callee) :
          Has J (callTo env deeper block.caller args middle target) :=
        has_callTo hblock hany (hasAt_args args h.2) middle target
      unfold eval
      -- What the callee is decides what is called: a method, a name or a value.
      cases callee with
      | attr e name =>
          have he := has_eval_of has_declare_empty l e h.1.2
          split
          · infer_instance
          · exact .next fun v => .next fun target => hcalled _ _
      | var l' name => exact .next fun target => hcalled _ _
      | _ => exact .next fun v => .next fun target => hcalled _ _

theorem hasAt_option : ∀ e? : Option Expr, eachUseOfOption p q e? = true →
    ∀ e, e? = some e → HasAt J env deeper e
  | none, _ => fun _ he => by cases he
  | some e, h => by
      rintro _ ⟨⟩ l
      exact has_eval_of has_declare_empty l e h

theorem hasAt_items : ∀ items : List Expr, eachUseOf p q items = true →
    ∀ e ∈ items, HasAt J env deeper e
  | [], _ => List.forall_mem_nil _
  | e :: rest, h => by
      rw [eachUseOf, Bool.and_eq_true] at h
      exact List.forall_mem_cons.mpr
        ⟨fun l => has_eval_of has_declare_empty l e h.1, hasAt_items rest h.2⟩

theorem hasAt_entries : ∀ entries : List (Expr × Expr), eachUseOfEntries p q entries = true →
    ∀ entry ∈ entries, HasAt J env deeper entry.1 ∧ HasAt J env deeper entry.2
  | [], _ => List.forall_mem_nil _
  | (k, v) :: rest, h => by
      simp only [eachUseOfEntries, Bool.and_eq_true] at h
      exact List.forall_mem_cons.mpr
        ⟨⟨fun l => has_eval_of has_declare_empty l k h.1.1,
          fun l => has_eval_of has_declare_empty l v h.1.2⟩, hasAt_entries rest h.2⟩

theorem hasAt_steps : ∀ steps : List (Comparison × Expr), eachUseOfSteps p q steps = true →
    ∀ step ∈ steps, HasAt J env deeper step.2
  | [], _ => List.forall_mem_nil _
  | (_, e) :: rest, h => by
      rw [eachUseOfSteps, Bool.and_eq_true] at h
      exact List.forall_mem_cons.mpr
        ⟨fun l => has_eval_of has_declare_empty l e h.1, hasAt_steps rest h.2⟩

theorem hasAt_args : ∀ args : List (ArgKind × Expr), eachUseOfArgs p q args = true →
    ∀ arg ∈ args, HasAt J env deeper arg.2
  | [], _ => List.forall_mem_nil _
  | (_, e) :: rest, h => by
      rw [eachUseOfArgs, Bool.and_eq_true] at h
      exact List.forall_mem_cons.mpr
        ⟨fun l => has_eval_of has_declare_empty l e h.1, hasAt_args rest h.2⟩

end

end

/-! ### What is kept, and what only reads -/

section Keeping

variable {E : Bounds} {I : Store → Prop}

/-- Evaluating the expression keeps the state, wherever it stands. -/
abbrev KeepsAt (E : Bounds) (I : Store → Prop) (env : Environment) (deeper : Deeper) (e : Expr) :
    Prop :=
  ∀ line, Keeps E I (eval env deeper {} line e)

theorem KeepsAt.hasAt {args : List Arg} (h : ∀ arg ∈ args, KeepsAt E I env deeper arg.2) :
    ∀ arg ∈ args, HasAt (.keeping E I) env deeper arg.2 :=
  fun arg harg line => ⟨h arg harg line⟩

theorem keeps_evalPositional_of {args : List Arg}
    (h : ∀ arg ∈ args, KeepsAt E I env deeper arg.2) (line : Nat) :
    Keeps E I (evalPositional env deeper line args) :=
  (has_evalPositional_of (KeepsAt.hasAt h) line).holds

theorem keeps_evalNamed_of {args : List Arg}
    (h : ∀ arg ∈ args, KeepsAt E I env deeper arg.2) (line : Nat) :
    Keeps E I (evalNamed env deeper line args) :=
  (has_evalNamed_of (KeepsAt.hasAt h) line).holds

theorem keeps_applyTo {name : String}
    (hfilter : ∀ v named positional, Keeps E I (applyFilter env name v named positional))
    {args : List Arg} (h : ∀ arg ∈ args, KeepsAt E I env deeper arg.2) (line : Nat) (v : Value) :
    Keeps E I (applyTo env deeper name args line v) :=
  (has_applyTo (J := .keeping E I) (fun v named positional => ⟨hfilter v named positional⟩)
    (KeepsAt.hasAt h) line v).holds

/-- What the calls and the filters of an expression keep, and the macro made of a block, is kept by
the whole of it. -/
theorem keeps_eval_of {p : String → List Arg → Bool}
    [hcall : ∀ callee args, Keeps E I (callAny env deeper callee args)]
    (hfilter : ∀ {name : String} {args : List Arg}, p name args = true →
      (∀ arg ∈ args, KeepsAt E I env deeper arg.2) →
        ∀ line v, Keeps E I (applyTo env deeper name args line v))
    {block : BlockInput}
    (hblock : ∀ caller, block.caller = some caller → Keeps E I caller.declare) (line : Nat)
    (e : Expr) (h : e.eachFilter p = true) : Keeps E I (eval env deeper block line e) :=
  (has_eval_of (J := .keeping E I) (q := fun _ _ => true) (fun _ target given => ⟨hcall target given⟩)
    (fun hp hargs line v => ⟨hfilter hp (fun arg harg l => (hargs arg harg l).holds) line v⟩)
    (fun caller hcaller => ⟨hblock caller hcaller⟩) line e (e.eachUse_of_eachFilter h)).holds

end Keeping

/-- An expression that calls nothing only reads the state. -/
theorem reads_eval {E : Bounds} [E.Allows .unseen] [E.Allows .notGiven] {e : Expr}
    (h : e.callsNothing = true) (text : Value) (line : Nat) :
    Reads E (eval env deeper ⟨text, none⟩ line e) :=
  (has_eval_of (J := .reading E) (p := fun _ _ => true) (q := fun _ _ => false)
    (fun hnone => Bool.noConfusion hnone)
    (fun _ hargs line v => has_applyTo (fun _ _ _ => ⟨inferInstanceAs (Reads E _)⟩) hargs line v)
    (fun _ hcaller => by cases hcaller) line e h).holds

end Eval

end QueryTemplate.Template
