import QueryTemplate.Proofs.Awaiting
import QueryTemplate.Template.Statement

/-!
How an evaluation is run in a pass, as a judgment with one rule for each of its parts:
`p.Yields x s t a s' t'` says that the evaluation `x`, begun in the states `s` and `t` of the
template and of the pass, comes to the result `a` and leaves the states `s'` and `t'`.
-/

namespace QueryTemplate

open Template Template.Eval

namespace PassScope

variable {ω α β : Type} {p : PassScope ω}

theorem run_bind (program : Program α) (f : α → Program β) (t : PassState ω) :
    p.run (program.bind f) t =
      match p.run program t with
      | (some a, t) => p.run (f a) t
      | (none, t) => (none, t) := by
  induction program generalizing t with
  | done a => rfl
  | lookup name next ih => exact ih _ _
  | call name input args next ih =>
      rw [Program.bind, run_call, run_call]
      rcases p.call name input args t with ⟨_ | v, u⟩
      · rfl
      · exact ih v u
  | emit v hint next ih =>
      rw [Program.bind, run_emit, run_emit]
      rcases t.emit v hint with ⟨_ | text, u⟩
      · rfl
      · exact ih text u
  | read object attr next ih => exact ih _ _

theorem run_bind_of_some {program : Program α} {t u : PassState ω} {a : α}
    (h : p.run program t = (some a, u)) (f : α → Program β) :
    p.run (program.bind f) t = p.run (f a) u := by
  rw [run_bind, h]

/-- The evaluation comes to a result in the pass. -/
def Yields (p : PassScope ω) (x : Eval α) (s : Store) (t : PassState ω) (a : α) (s' : Store)
    (t' : PassState ω) : Prop :=
  p.run (x s : Program (Except Stop (α × Store))) t = (some (.ok (a, s')), t')

namespace Yields

variable {x : Eval α} {f : α → Eval β} {s s' s'' : Store} {t t' t'' : PassState ω} {a : α} {b : β}

theorem pure (a : α) (s : Store) (t : PassState ω) : p.Yields (Pure.pure a) s t a s t := rfl

theorem bind (hx : p.Yields x s t a s' t') (hf : p.Yields (f a) s' t' b s'' t'') :
    p.Yields (x >>= f) s t b s'' t'' :=
  (run_bind_of_some hx _).trans hf

theorem get (s : Store) (t : PassState ω) : p.Yields MonadState.get s t s s t := rfl

theorem set (new s : Store) (t : PassState ω) : p.Yields (MonadStateOf.set new) s t ⟨⟩ new t := rfl

theorem update (g : Store → Store) (s : Store) (t : PassState ω) :
    p.Yields (modify g) s t ⟨⟩ (g s) t := rfl

theorem mapStop (h : p.Yields x s t a s' t') (g : Stop → Stop) :
    p.Yields (Eval.mapStop g x) s t a s' t' :=
  run_bind_of_some h _

/-- The line that errors are reported on does not matter for an evaluation without errors. -/
theorem at_ (h : p.Yields x s t a s' t') (line : Nat) : p.Yields (Eval.at_ line x) s t a s' t' :=
  h.mapStop _

theorem of_eq {x' : Eval α} (h : p.Yields x s t a s' t') (heq : x' = x) :
    p.Yields x' s t a s' t' :=
  heq ▸ h

theorem lookup {name : String} {v : Option Value} (h : p.lookup name t = (v, t')) (s : Store) :
    p.Yields (Eval.lookup name) s t v s t' := by
  rw [Yields, Eval.lookup, run_lookup, h]
  rfl

theorem call {filter : String} {input v : Value} {args : List Value}
    (h : p.call filter input args t = (some v, t')) (s : Store) :
    p.Yields (Eval.call filter input args) s t v s t' := by
  rw [Yields, Eval.call, run_call, h]
  rfl

theorem emit {v : Value} {hint : Option String} {text : String}
    (h : t.emit v hint = (some text, t')) (s : Store) :
    p.Yields (Eval.emit v hint) s t (.safe text) s t' := by
  rw [Yields, Eval.emit, run_emit, h]
  rfl

/-- An evaluation of each item that only returns the item. -/
theorem mapM_self {f : α → Eval α} {items : List α} (s : Store) (t : PassState ω)
    (h : ∀ a ∈ items, p.Yields (f a) s t a s t) : p.Yields (items.mapM f) s t items s t := by
  have hloop (done : List α) :
      p.Yields (List.mapM.loop f items done) s t (done.reverse ++ items) s t := by
    induction items generalizing done with
    | nil =>
        rw [List.append_nil]
        exact pure _ _ _
    | cons a rest ih =>
        have hrest := ih (fun b hb => h b (List.mem_cons_of_mem a hb)) (a :: done)
        rw [List.reverse_cons, List.append_assoc] at hrest
        exact bind (h a List.mem_cons_self) hrest
  exact hloop []

end Yields

end PassScope

end QueryTemplate
