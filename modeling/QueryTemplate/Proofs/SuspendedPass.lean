import QueryTemplate.Proofs.FirstFailure

/-!
What a pass does that waits for something. The template engine may go on evaluating behind a variable
that has no value yet, so the pass is asked for more: again as a list of steps, in any order. A
suspended pass gives no results and starts nothing, and it stays as it is; `perform_of_suspended`
says so of one step and `performAll_of_suspended` of all of them. Only the caller's objects can be
read, which the pass has no part in.
-/

namespace QueryTemplate

namespace PassState

variable {ω : Type} {s : PassState ω} {pending : Suspension ω}

theorem isSuspended_of_eq_some (h : s.suspension = some pending) : s.isSuspended = true := by
  rw [isSuspended, h]
  rfl

/-- What the pass waits for is its outcome, whatever else there is to report. -/
theorem finish_of_suspended (h : s.suspension = some pending)
    (result : Except QueryError String) : s.finish result = .suspended pending := by
  simp only [finish, h]

end PassState

/-- The step only reads one of the caller's objects. -/
def PassStep.isRead : PassStep → Bool
  | read .. => true
  | _ => false

namespace PassScope

variable {ω : Type} {p : PassScope ω} {s : PassState ω}

/-- The caller's code after a step that only reads. -/
def worldRead (p : PassScope ω) (w : ω) : PassStep → ω
  | .read object attr => (p.context.readAttribute object attr w).2
  | _ => w

theorem lookup_of_suspended (h : s.isSuspended = true) {name : String}
    {produce : ω → Future ω Value × ω} (hget : p.context.get? name = some (.deferred produce)) :
    (p.lookup name s).1 = none := by
  rw [lookup, hget]
  simp [lookupDeferred, h]

theorem call_of_suspended (h : s.isSuspended = true) (filter : String) (input : Value)
    (args : List Value) : p.call filter input args s = (none, s) := by
  rw [call, if_pos h]

/-- A step on a suspended pass changes nothing but what the caller's objects change themselves. -/
theorem perform_of_suspended (h : s.isSuspended = true) (step : PassStep) :
    p.perform s step = { s with world := p.worldRead s.world step } := by
  cases step with
  | lookup name => exact lookup_of_isSuspended h name
  | call filter input args => rw [perform, call_of_suspended h]; rfl
  | emit v hint => rw [perform, PassState.emit_of_suspended h]; rfl
  | read object attr => rfl

theorem performAll_of_suspended (h : s.isSuspended = true) (steps : List PassStep) :
    p.performAll steps s = { s with world := steps.foldl p.worldRead s.world } := by
  induction steps generalizing s with
  | nil => rfl
  | cons step steps ih =>
      rw [performAll_cons, perform_of_suspended h, ih (by simpa [PassState.isSuspended] using h)]
      rfl

theorem foldl_worldRead_of_not_read {steps : List PassStep}
    (h : ∀ step ∈ steps, step.isRead = false) (w : ω) : steps.foldl p.worldRead w = w := by
  induction steps with
  | nil => rfl
  | cons step steps ih =>
      obtain ⟨hstep, hsteps⟩ := List.forall_mem_cons.mp h
      have hworld : p.worldRead w step = w := by
        cases step with
        | read object attr => cases hstep
        | _ => rfl
      rw [List.foldl_cons, hworld, ih hsteps]

/-- Reading is not recorded, and a suspended pass does nothing else. -/
theorem foldl_worldRead_traced (steps : List PassStep) (w : ω) (log : List Effect) :
    (steps.foldl p.traced.worldRead (w, log)).2 = log := by
  induction steps generalizing w with
  | nil => rfl
  | cons step steps ih =>
      rw [List.foldl_cons]
      cases step with
      | read object attr => exact ih _
      | lookup name => exact ih w
      | call filter input args => exact ih w
      | emit v hint => exact ih w

/-- A pass that waits for something is frozen. Whatever it is asked for, its captures, its failure,
what it waits for, its counters and the recorded outputs stay as they are, and so does the caller's
code unless its objects are read; no filter, producer or computation is started; filter calls,
emissions and deferred variables, resolved or not, come to no result; and what it waits for is how it
ends. A template that is run goes on by such steps. -/
theorem suspended_frozen {pending : Suspension ω} (h : s.suspension = some pending) :
    (∀ steps, (∀ step ∈ steps, step.isRead = false) → p.performAll steps s = s) ∧
    (∀ steps, ∃ world, p.performAll steps s = { s with world }) ∧
    (∀ steps log, (p.traced.performAll steps (s.traced log)).world.2 = log) ∧
    (∀ steps filter input args, (p.call filter input args (p.performAll steps s)).1 = none) ∧
    (∀ steps v hint, ((p.performAll steps s).emit v hint).1 = none) ∧
    (∀ steps name produce, p.context.get? name = some (.deferred produce) →
      (p.lookup name (p.performAll steps s)).1 = none) ∧
    (∀ steps result, (p.performAll steps s).finish result = .suspended pending) ∧
    ∀ program : RenderProgram, (p.run program s).2 = p.performAll (p.steps program s) s := by
  have hs := PassState.isSuspended_of_eq_some h
  have hkept : ∀ steps, (p.performAll steps s).suspension = some pending := by
    intro steps
    rw [performAll_of_suspended hs, h]
  have hafter : ∀ steps, (p.performAll steps s).isSuspended = true :=
    fun steps => PassState.isSuspended_of_eq_some (hkept steps)
  refine ⟨?_, ?_, ?_, ?_, ?_, ?_, ?_, fun program => run_eq_performAll program s⟩
  · intro steps hreads
    rw [performAll_of_suspended hs, foldl_worldRead_of_not_read hreads]
  · exact fun steps => ⟨_, performAll_of_suspended hs steps⟩
  · intro steps log
    rw [performAll_of_suspended (by rwa [PassState.isSuspended_traced])]
    exact foldl_worldRead_traced steps s.world log
  · intro steps filter input args
    rw [call_of_suspended (hafter steps)]
  · intro steps v hint
    rw [PassState.emit_of_suspended (hafter steps)]
  · exact fun steps name produce hget => lookup_of_suspended (hafter steps) hget
  · exact fun steps result => PassState.finish_of_suspended (hkept steps) result

/-- A pass that knows its deferred variable and waits for an async filter. -/
def maskPass : PassScope Nat where
  registry := RenderProgram.tenantFilters
  context := RenderProgram.tenantContext
  options := {}
  mode := .suspending
  resolutions := { lookups := [("tenant", .str "acme")] }

/-- The pass after it was asked for a captured value, a sync filter, and the one that it waits
for. -/
def maskPassWaiting : PassState Nat :=
  maskPass.performAll
    [.emit (.int 1) (some "n"), .call "trim" (.int 2) [], .call "mask" (.int 3) []] { world := 0 }

theorem suspended_frozen_mask :
    ∃ pending, maskPassWaiting.suspension = some pending ∧
      maskPass.performAll
        [.lookup "tenant", .call "trim" .undefined [], .emit .undefined none,
          .call "absent" (.int 1) [], .call "mask" (.int 1) []] maskPassWaiting =
        maskPassWaiting ∧
      (maskPass.lookup "tenant" (maskPass.performAll [] maskPassWaiting)).1 = none ∧
      (maskPass.performAll [.emit .undefined none] maskPassWaiting).finish (.ok "") =
        .suspended pending := by
  obtain ⟨pending, hpending⟩ : ∃ pending, maskPassWaiting.suspension = some pending := ⟨_, rfl⟩
  have hfrozen := suspended_frozen (p := maskPass) hpending
  exact ⟨pending, hpending, hfrozen.1 _ (by decide), hfrozen.2.2.2.2.2.1 [] "tenant" _ rfl,
    hfrozen.2.2.2.2.2.2.1 _ _⟩

end PassScope

end QueryTemplate
