import QueryTemplate.Proofs.Detached
import QueryTemplate.Proofs.Keeping

/-!
Evaluations that only read the state. Such an evaluation leaves the state as it is, and does the same
in every state with the same view: the same variables, objects and escaping. So it keeps every
property of the state. `Reads` is a class, found in the same way as `Keeps`.
-/

namespace QueryTemplate.Template

variable {E : Bounds} {I : Store → Prop} {α β : Type}

/-- Both states show an evaluation the same variables, objects and escaping. -/
structure Store.SameView (s t : Store) : Prop extends s.SameObjects t where
  frames : t.frames = s.frames
  closures : t.closures = s.closures
  escaping : t.escaping = s.escaping
  template : t.template = s.template

theorem Store.SameView.refl (s : Store) : s.SameView s :=
  { Store.SameObjects.refl s with frames := rfl, closures := rfl, escaping := rfl, template := rfl }

namespace Eval

/-- The evaluation leaves the state as it is. What it asks and returns depends on the view of the
state alone, and it ends early only as it may. -/
class Reads (E : Bounds) (x : Eval α) : Prop where
  eq_of_sameView : ∀ {s t : Store}, s.SameView t →
    x t = Program.bind (x s : Program (Except Stop (α × Store))) fun r => .done (leaving t r)
  stops : ∀ s, Program.Ends E.answers (fun r => ∀ stop, r = .error stop → E.stops stop)
    (x s : Program (Except Stop (α × Store)))

namespace Reads

/-- What only reads keeps every property of the state. -/
instance keeps {x : Eval α} [hx : Reads E x] : Keeps E I x := by
  refine ⟨fun s hs => ?_⟩
  have hsame := hx.eq_of_sameView (.refl s)
  rw [hsame]
  refine (hx.stops s).bind fun r hr => ?_
  rcases r with stop | ⟨a, s'⟩
  · exact hr stop rfl
  · exact ⟨trivial, hs⟩

instance pure (a : α) : Reads E (Pure.pure a) :=
  ⟨fun _ => rfl, fun _ _ h => nomatch h⟩

theorem stop {e : Stop} (h : E.stops e) : Reads (α := α) E fun _ => .done (.error e) :=
  ⟨fun _ => rfl, fun _ _ he => Except.error.inj he ▸ h⟩

instance fail (e : EngineError) : Reads (α := α) E (Eval.fail e) := stop (E.error e)

instance lookup (name : String) : Reads E (Eval.lookup name) :=
  ⟨fun _ => rfl, fun _ _ _ h => nomatch h⟩

instance call (filter : String) (input : Value) (args : List Value) :
    Reads E (Eval.call filter input args) :=
  ⟨fun _ => rfl, fun _ _ _ h => nomatch h⟩

instance emit (v : Value) (hint : Option String) : Reads E (Eval.emit v hint) :=
  ⟨fun _ => rfl, fun _ _ _ _ h => nomatch h⟩

instance read (object : Nat) (attr : String) : Reads E (Eval.read object attr) :=
  ⟨fun _ => rfl, fun _ _ _ h => nomatch h⟩

theorem bind {x : Eval α} {f : α → Eval β} (hx : Reads E x) (hf : ∀ a, Reads E (f a)) :
    Reads E (x >>= f) := by
  -- The evaluation behind begins in the state that the first one began in.
  have hbind (s : Store) {t : Store} (hst : s.SameView t) :
      (x >>= f) t = Program.bind (x s : Program (Except Stop (α × Store))) fun r =>
        r.casesOn (fun stop => .done (.error stop)) fun a => f a.1 t := by
    change Program.bind (x t : Program (Except Stop (α × Store))) _ = _
    rw [hx.eq_of_sameView hst, Program.bind_bind]
    congr 1
    funext r
    cases r <;> rfl
  refine ⟨fun {s t} hst => ?_, fun s => ?_⟩
  · rw [hbind s hst, hbind s (.refl s), Program.bind_bind]
    congr 1
    funext r
    cases r with
    | error stop => rfl
    | ok a => exact (hf a.1).eq_of_sameView hst
  · rw [hbind s (.refl s)]
    refine (hx.stops s).bind fun r hr => ?_
    cases r with
    | error stop => exact fun _ h => Except.error.inj h ▸ hr stop rfl
    | ok a => exact (hf a.1).stops s

/-- What comes next, behind an evaluation that has an instance. -/
theorem next {x : Eval α} {f : α → Eval β} [hx : Reads E x] (hf : ∀ a, Reads E (f a)) :
    Reads E (x >>= f) := bind hx hf

instance instBind {x : Eval α} {f : α → Eval β} [hx : Reads E x] [hf : ∀ a, Reads E (f a)] :
    Reads E (x >>= f) := bind hx hf

/-- What comes after the state was read uses no more of it than the view. -/
theorem get_bind {f : Store → Eval β} (hf : ∀ s, Reads E (f s))
    (hview : ∀ {s t : Store}, s.SameView t → f t = f s) : Reads E (MonadState.get >>= f) := by
  refine ⟨fun {s t} hst => ?_, fun s => (hf s).stops s⟩
  change f t t = Program.bind (f s s : Program (Except Stop (β × Store))) _
  rw [hview hst]
  exact (hf s).eq_of_sameView hst

/-- What is computed from the view. -/
theorem view (f : Store → α) (h : ∀ {s t : Store}, s.SameView t → f t = f s) :
    Reads E (do return f (← get) : Eval α) :=
  get_bind (fun _ => pure _) fun hst => congrArg Pure.pure (h hst)

instance ite {c : Prop} [Decidable c] {x y : Eval α} [hx : Reads E x] [hy : Reads E y] :
    Reads E (if c then x else y) := by
  split
  · exact hx
  · exact hy

theorem mapStop {x : Eval α} (hx : Reads E x) {g : Stop → Stop}
    (hg : ∀ stop, E.stops stop → E.stops (g stop)) : Reads E (Eval.mapStop g x) := by
  refine ⟨fun {s t} hst => ?_, fun s => ?_⟩
  · change Program.bind (x t : Program (Except Stop (α × Store))) _ =
      Program.bind (Program.bind (x s : Program (Except Stop (α × Store))) _) _
    rw [hx.eq_of_sameView hst, Program.bind_bind, Program.bind_bind]
    congr 1
    funext r
    cases r <;> rfl
  · refine (hx.stops s).bind fun r hr => ?_
    cases r with
    | error stop => exact fun _ h => Except.error.inj h ▸ hg stop (hr stop rfl)
    | ok a => exact fun _ h => nomatch h

instance mapError {x : Eval α} [hx : Reads E x] (f : EngineError → EngineError) :
    Reads E (Eval.mapStop (·.mapError f) x) := hx.mapStop (E.mapError f)

instance inMap {x : Eval α} [hx : Reads E x] : Reads E (Eval.mapStop Stop.inMap x) :=
  hx.mapStop E.inMap

theorem onLine {x : Eval α} (hx : Reads E x) (line : Nat) : Reads E (Eval.at_ line x) := by
  refine ⟨fun {s t} hst => ?_, fun s => (hx.mapStop (E.mapError _)).stops s⟩
  rw [Eval.at_, hst.template]
  exact (hx.mapStop (E.mapError (·.locate s.template line))).eq_of_sameView hst

instance at_ {x : Eval α} [hx : Reads E x] (line : Nat) : Reads E (Eval.at_ line x) :=
  hx.onLine line

instance ofExcept (r : Except EngineError α) : Reads E (Eval.ofExcept r) := by
  cases r with
  | ok a => exact pure a
  | error e => exact fail e

theorem mapM {f : α → Eval β} (hf : ∀ a, Reads E (f a)) (items : List α) :
    Reads E (items.mapM f) := by
  induction items with
  | nil => exact pure _
  | cons a rest ih =>
      rw [List.mapM_cons]
      exact bind (hf a) fun _ => bind ih fun _ => pure _

instance instMapM {f : α → Eval β} [hf : ∀ a, Reads E (f a)] (items : List α) :
    Reads E (items.mapM f) := mapM hf items

instance instForM {f : α → Eval PUnit} [hf : ∀ a, Reads E (f a)] (items : List α) :
    Reads E (items.forM f) := by
  induction items with
  | nil => exact pure _
  | cons a rest ih => exact bind (hf a) fun _ => ih

instance instFilterM {p : α → Eval Bool} [hp : ∀ a, Reads E (p a)] (items : List α) :
    Reads E (items.filterM p) := by
  have hloop (done : List α) : Reads E (List.filterAuxM p items done) := by
    induction items generalizing done with
    | nil => exact pure _
    | cons a rest ih => exact bind (hp a) fun b => ih _
  exact bind (hloop []) fun _ => pure _

end Reads

end Eval

end QueryTemplate.Template
