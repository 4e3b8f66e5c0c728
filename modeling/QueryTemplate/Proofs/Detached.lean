import QueryTemplate.Template.Apply

/-!
Evaluations that do not depend on where in a template they stand. Such an evaluation may look at the
objects that were made on the way (records, loops and macros) and ask the surroundings, but it does
not look at the variables, the output or the blocks, and it leaves the state as it is. What is handed
to a registered filter is put together in this way.
-/

namespace QueryTemplate.Template

/-- Both states have the same objects. -/
structure Store.SameObjects (s t : Store) : Prop where
  routines : t.routines = s.routines
  loops : t.loops = s.loops
  records : t.records = s.records

theorem Store.SameObjects.refl (s : Store) : s.SameObjects s := ⟨rfl, rfl, rfl⟩

namespace Eval

variable {α β : Type}

/-- The result of an evaluation, with another state left behind. -/
def leaving (t : Store) (r : Except Stop (α × Store)) : Except Stop (α × Store) :=
  r.map fun a => (a.1, t)

/-- In a state with the same objects the evaluation asks and returns the same. -/
class Detached (x : Eval α) : Prop where
  eq_of_same : ∀ {s t : Store}, s.SameObjects t →
    x t = Program.bind (x s : Program (Except Stop (α × Store))) fun r => .done (leaving t r)

namespace Detached

instance pure (a : α) : Detached (Pure.pure a : Eval α) := ⟨fun _ => rfl⟩

instance fail (e : EngineError) : Detached (Eval.fail e : Eval α) := ⟨fun _ => rfl⟩

instance lookup (name : String) : Detached (Eval.lookup name) := ⟨fun _ => rfl⟩

instance call (name : String) (input : Value) (args : List Value) :
    Detached (Eval.call name input args) := ⟨fun _ => rfl⟩

instance read (object : Nat) (attr : String) : Detached (Eval.read object attr) := ⟨fun _ => rfl⟩

/-- What is computed from the objects of the state. -/
theorem objects (f : Store → α) (h : ∀ {s t : Store}, s.SameObjects t → f t = f s) :
    Detached (do return f (← get) : Eval α) := by
  refine ⟨fun {s t} hst => ?_⟩
  change Program.done (Except.ok (f t, t)) = Program.done (Except.ok (f s, t))
  rw [h hst]

instance bind {x : Eval α} {f : α → Eval β} [hx : Detached x] [hf : ∀ a, Detached (f a)] :
    Detached (x >>= f) := by
  -- The evaluation behind begins in the state that the first one began in.
  have hbind (s : Store) {t : Store} (hst : s.SameObjects t) :
      (x >>= f) t = Program.bind (x s : Program (Except Stop (α × Store))) fun r =>
        r.casesOn (fun stop => .done (.error stop)) fun a => f a.1 t := by
    change Program.bind (x t : Program (Except Stop (α × Store))) _ = _
    rw [hx.eq_of_same hst, Program.bind_bind]
    congr 1
    funext r
    cases r <;> rfl
  refine ⟨fun {s t} hst => ?_⟩
  rw [hbind s hst, hbind s (.refl s), Program.bind_bind]
  congr 1
  funext r
  cases r with
  | error stop => rfl
  | ok a => exact (hf a.1).eq_of_same hst

instance mapM {f : α → Eval β} [hf : ∀ a, Detached (f a)] (items : List α) :
    Detached (items.mapM f) := by
  induction items with
  | nil => exact pure _
  | cons a rest ih =>
      rw [List.mapM_cons]
      infer_instance

end Detached

instance detached_recordEntries (id : Nat) : Detached (recordEntries id) :=
  .objects (fun s => (s.records[id]?).getD []) fun hst => by rw [hst.records]

instance detached_loopState? (id : Nat) : Detached (loopState? id) :=
  .objects (fun s => s.loops[id]?) fun hst => by rw [hst.loops]

instance detached_loadRoot (name : String) : Detached (loadRoot name) := by
  unfold loadRoot
  split <;> infer_instance

instance detached_keys? (env : Environment) (v : Value) : Detached (keys? env v) := by
  unfold keys?
  split <;> infer_instance

instance detached_member? (v key : Value) : Detached (member? v key) := by
  have hroutine (id : Nat) (name : String) :
      Detached (do return ((← get).routines[id]?).bind (·.attribute? name) : Eval (Option Value)) :=
    .objects (fun s => (s.routines[id]?).bind (·.attribute? name)) fun hst => by rw [hst.routines]
  unfold member?
  repeat' split
  all_goals infer_instance

instance detached_pairs? (env : Environment) (v : Value) : Detached (pairs? env v) := by
  unfold pairs?
  refine @Detached.bind _ _ _ _ inferInstance fun keys? => ?_
  split <;> infer_instance

instance detached_expand (env : Environment) (levels : Nat) (v : Value) :
    Detached (expand env levels v) := by
  induction levels generalizing v with
  | zero => exact .pure _
  | succ levels ih =>
      unfold expand
      split
      case h_9 ref =>
        refine @Detached.bind _ _ _ _ inferInstance fun pairs? => ?_
        split
        · infer_instance
        · refine @Detached.bind _ _ _ _ inferInstance fun entries => ?_
          split <;> infer_instance
      all_goals infer_instance

/-- What is handed to a registered filter does not depend on where it is applied. -/
instance detached_snapshot (env : Environment) (v : Value) : Detached (snapshot env v) := by
  unfold snapshot
  infer_instance

end Eval

end QueryTemplate.Template
