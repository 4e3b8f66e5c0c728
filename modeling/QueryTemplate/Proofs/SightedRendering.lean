import QueryTemplate.Proofs.Detached
import QueryTemplate.Proofs.MediatedRendering
import QueryTemplate.Proofs.SightedEvaluation

/-!
Query filters reach their render. In a render of tidy templates every expression tag is given the
render, and a registered filter finds it wherever it is applied: in loops and blocks, in macros and
the bodies of calls, in templates that are included, imported or extended. What a registered filter
is asked for does not depend on the place either. The emit filter has a name that templates do not
use, but `map` may be given that name as a value that was computed, and then applies it to what it is
given.
-/

namespace QueryTemplate

open Template

namespace Template.Eval

/-- A registered filter is asked for the same, and gives the same, in all places where the render is
in sight and the objects are the same. -/
theorem applyFilter_of_sameObjects {n m : Nat} {s t : Store} (hs : s.InSight n) (ht : t.InSight m)
    (hsame : s.SameObjects t) {env : Environment} {name : String}
    (hregistered : env.registered.contains name = true) (hname : name ≠ emitName) (v : Value)
    (named : Option (List (Value × Value))) (positional : List Value) :
    applyFilter env name v named positional t =
      Program.bind (applyFilter env name v named positional s) fun r => .done (leaving t r) := by
  have hrequest : Detached (do
      call name (← snapshot env v)
        (← (CallArgs.mk positional named).toList.mapM (snapshot env)) : Eval Value) :=
    inferInstance
  unfold applyFilter
  dsimp only
  rw [if_neg hname, if_pos hregistered, callRegistered_inSight hs, callRegistered_inSight ht]
  exact hrequest.eq_of_same hsame

end Template.Eval

namespace QueryEngine

open Template.Eval

variable {ω : Type}

/-- Every template that the engine finds is tidy. -/
def IsTidy (e : QueryEngine ω) : Prop :=
  ∀ name src, e.findTemplate name = .ok (some src) → src.isTidy = true

/-- No template is missing because of a query filter. -/
theorem ne_outside_of_findTemplate {e : QueryEngine ω} {name : String} {stop : Stop}
    (h : e.findTemplate name = .error stop) (how : Outside) (fault : EngineError) :
    stop ≠ .outside how fault := by
  rintro rfl
  unfold findTemplate at h
  split at h
  · cases h
  · split at h
    · cases h
    · cases h
    · split at h
      · rename_i markup _
        cases markup <;> cases h
      · split at h <;> cases h

theorem IsTidy.findsTidy {e : QueryEngine ω} (h : e.IsTidy) (context : Context ω) :
    (e.environment context).FindsTidy where
  tidy hfind := h _ _ hfind
  stop hfind how fault heq := absurd heq (ne_outside_of_findTemplate hfind how fault)

theorem isTidy_of_inline {e : QueryEngine ω} (hdirs : e.searchPath.dirs = [])
    (h : ∀ entry ∈ e.inline, entry.2.isTidy = true) : e.IsTidy :=
  fun _ _ hfind => h _ (mem_inline_of_findTemplate hdirs hfind)

/-- The renders of a template reach the render from everywhere. -/
structure ReachesRender (e : QueryEngine ω) (context : Context ω) (src : Source) : Prop where
  /-- No pass ends because a query filter runs outside a render, except where `map` applies the emit
  filter: all expression tags are given the render, and all registered filters find it. -/
  outside : ∀ (p : PassScope ω) (s : PassState ω) (how : Outside) (fault : EngineError),
    (p.run (src.program (e.environment context)) s).1 = some (.error (.outside how fault)) →
      how = .mapped
  /-- The render is in sight at the beginning. -/
  initial : (Store.initial src).InSight 0
  /-- Bodies, templates, loops and macros that are run leave it in sight. -/
  task : ∀ (levels n : Nat) (task : Task), task.isTidy = true →
    Keeps .sighted (Store.InSight n) (doTask (e.environment context) levels task)
  /-- It is in sight in a macro if it is in sight where the macro is called. -/
  routine : ∀ (n : Nat) (s : Store) (r : Routine) (args : CallArgs), s.InSight n →
    (enterRoutine r args s).InSight 1 ∧ s.SameObjects (enterRoutine r args s)
  /-- Wherever it is in sight, a registered filter is asked for the same and gives the same. -/
  registered : ∀ (n m : Nat) (s t : Store), s.InSight n → t.InSight m → s.SameObjects t →
    ∀ (name : String) (v : Value) (named : Option (List (Value × Value))) (positional : List Value),
      e.dispatched.contains name = true → name ≠ emitName →
        applyFilter (e.environment context) name v named positional t =
          Program.bind (applyFilter (e.environment context) name v named positional s)
            fun r => .done (leaving t r)

end QueryEngine

end QueryTemplate
