import QueryTemplate.Proofs.Passes
import QueryTemplate.Proofs.Tracing

/-!
The first failure of a sequential pass. Whoever runs a template asks the pass for variables, filter
calls and emissions, and may go on asking after a refusal: a deferred variable looks undefined, and
nothing stops the template there. So the pass is taken here as the list of the steps that were made
on it, with no assumption about what comes after a step that failed.

`fault` says of one step, without a pass, why it fails. The step lemma `perform_eq` gives the whole
pass after a step: the first fault stays, captures are added, and the caller's code is entered by
sync filters only. Everything else follows by induction on the steps.
-/

namespace QueryTemplate

/-- One thing that a pass is asked for. -/
inductive PassStep where
  | lookup (name : String)
  | call (filter : String) (input : Value) (args : List Value)
  | emit (v : Value) (hint : Option String)
  | read (object : Nat) (attr : String)

/-- What is captured for a step. -/
def PassStep.captured : PassStep → List (Option String × Value)
  | emit v hint => Emission.captured (v, hint)
  | _ => []

namespace PassScope

variable {ω α : Type}

/-- The pass after a step, whatever the answer to the step was. -/
def perform (p : PassScope ω) (s : PassState ω) : PassStep → PassState ω
  | .lookup name => (p.lookup name s).2
  | .call filter input args => (p.call filter input args s).2
  | .emit v hint => (s.emit v hint).2
  | .read object attr => (p.read object attr s).2

/-- The pass after all of the steps. -/
def performAll (p : PassScope ω) (steps : List PassStep) (s : PassState ω) : PassState ω :=
  steps.foldl p.perform s

/-- The name for which a step could only be made by a render that suspends. -/
def suspendsAt? (p : PassScope ω) : PassStep → Option String
  | .lookup name =>
    match p.context.get? name with
    | some (.deferred _) => some name
    | _ => none
  | .call filter _ _ =>
    match p.registry.resolve filter with
    | .ok (.async _) => some filter
    | _ => none
  | _ => none

/-- Why a step fails in a sequential render, if it does, when the caller's code is in the state. -/
def fault (p : PassScope ω) (w : ω) : PassStep → Option QueryError
  | .lookup name =>
    match p.context.get? name with
    | some (.deferred _) => some (.requiresSuspending name)
    | _ => none
  | .call filter input args =>
    match p.registry.resolve filter with
    | .error _ => some (.unknownFilter filter)
    | .ok (.async _) => some (.requiresSuspending filter)
    | .ok (.sync run) =>
      match (run p.filterScope (classify input) args w).1 with
      | .error e => some (.filterExecution filter e)
      | .ok _ => none
  | .emit v hint =>
    if v.isUndefined then some (.undefinedValue (hint.getD "<expression>")) else none
  | .read .. => none

/-- The caller's code after a step. Sync filters and the caller's objects are all that is used. -/
def worldAfter (p : PassScope ω) (w : ω) : PassStep → ω
  | .call filter input args =>
    match p.registry.resolve filter with
    | .ok (.sync run) => (run p.filterScope (classify input) args w).2
    | _ => w
  | .read object attr => (p.context.readAttribute object attr w).2
  | _ => w

/-- The faults of the steps, in their order. A step that fails does not keep later ones from being
made, nor from failing. -/
def faults (p : PassScope ω) : ω → List PassStep → List QueryError
  | _, [] => []
  | w, step :: steps => (p.fault w step).toList ++ p.faults (p.worldAfter w step) steps

/-- The steps that a program makes when it is run. -/
def steps (p : PassScope ω) : Template.Program α → PassState ω → List PassStep
  | .done _, _ => []
  | .lookup name next, s =>
    .lookup name :: p.steps (next (p.lookup name s).1) (p.lookup name s).2
  | .call filter input args next, s =>
    .call filter input args ::
      match p.call filter input args s with
      | (some v, s) => p.steps (next v) s
      | (none, _) => []
  | .emit v hint next, s =>
    .emit v hint ::
      match s.emit v hint with
      | (some text, s) => p.steps (next text) s
      | (none, _) => []
  | .read object attr next, s =>
    .read object attr :: p.steps (next (p.read object attr s).1) (p.read object attr s).2

variable {p : PassScope ω}

@[simp] theorem performAll_nil (s : PassState ω) : p.performAll [] s = s := rfl

@[simp] theorem performAll_cons (step : PassStep) (steps : List PassStep) (s : PassState ω) :
    p.performAll (step :: steps) s = p.performAll steps (p.perform s step) := rfl

/-- Running a program does to a pass what its steps do. -/
theorem run_eq_performAll (program : Template.Program α) (s : PassState ω) :
    (p.run program s).2 = p.performAll (p.steps program s) s := by
  induction program generalizing s with
  | done a => rfl
  | lookup name next ih =>
      rw [run_lookup, ih, steps, performAll_cons]
      rfl
  | call filter input args next ih =>
      rw [run_call, steps, performAll_cons, perform]
      rcases p.call filter input args s with ⟨_ | v, t⟩
      · rfl
      · exact ih v t
  | emit v hint next ih =>
      rw [run_emit, steps, performAll_cons, perform]
      rcases s.emit v hint with ⟨_ | text, t⟩
      · rfl
      · exact ih text t
  | read object attr next ih =>
      rw [run_read, ih, steps, performAll_cons]
      rfl

/-! ### One step -/

theorem fault_of_suspendsAt {step : PassStep} {name : String} (h : p.suspendsAt? step = some name)
    (w : ω) : p.fault w step = some (.requiresSuspending name) := by
  cases step with
  | lookup n =>
      simp only [suspendsAt?] at h
      simp only [fault]
      split at h <;> simp_all
  | call filter input args =>
      simp only [suspendsAt?] at h
      simp only [fault]
      split at h <;> simp_all
  | emit v hint => simp [suspendsAt?] at h
  | read object attr => simp [suspendsAt?] at h

theorem perform_lookup (hmode : p.mode = .sequential) {s : PassState ω}
    (hs : s.isSuspended = false) (name : String) :
    p.perform s (.lookup name) =
      { s with failure := s.failure.or (p.fault s.world (.lookup name)) } := by
  simp only [perform, fault, lookup]
  rcases p.context.get? name with _ | v | produce
  · simp
  · simp
  · simp [lookupDeferred, hs, hmode, PassState.fail]

theorem perform_call (hmode : p.mode = .sequential) {s : PassState ω}
    (hs : s.isSuspended = false) (filter : String) (input : Value) (args : List Value) :
    p.perform s (.call filter input args) =
      { s with
        failure := s.failure.or (p.fault s.world (.call filter input args))
        world := p.worldAfter s.world (.call filter input args) } := by
  simp only [perform, fault, worldAfter, call, hs]
  cases hresolve : p.registry.resolve filter with
  | error e =>
      obtain rfl : e = .unknownFilter filter := by
        simp only [FilterRegistry.resolve] at hresolve
        split at hresolve <;> simp_all
      simp [PassState.fail]
  | ok f =>
      cases f with
      | async start => simp [callAsync, hmode, PassState.fail]
      | sync run =>
          rcases hrun : run p.filterScope (classify input) args s.world with ⟨e | output, w⟩ <;>
            simp [callSync, runSync, hmode, hrun, PassState.fail]

theorem perform_emit {s : PassState ω} (hs : s.isSuspended = false) (v : Value)
    (hint : Option String) :
    p.perform s (.emit v hint) =
      { s with
        failure := s.failure.or (p.fault s.world (.emit v hint))
        captures := s.captures.extend (PassStep.captured (.emit v hint)) } := by
  simp only [perform, fault, PassStep.captured, Emission.captured, PassState.emit_eq hs,
    Emission.write]
  cases v.isUndefined with
  | true => simp [PassState.fail]
  | false => simp

/-- What a step does to a sequential pass: the failure stays the first one, and nothing is ever
waited for. -/
theorem perform_eq (hmode : p.mode = .sequential) {s : PassState ω} (hs : s.isSuspended = false)
    (step : PassStep) :
    p.perform s step =
      { s with
        failure := s.failure.or (p.fault s.world step)
        captures := s.captures.extend step.captured
        world := p.worldAfter s.world step } := by
  cases step with
  | lookup name => exact perform_lookup hmode hs name
  | call filter input args => exact perform_call hmode hs filter input args
  | emit v hint => exact perform_emit hs v hint
  | read object attr => simp [perform, fault, PassStep.captured, worldAfter, read]

/-! ### All steps -/

theorem faults_append (w : ω) (steps more : List PassStep) :
    p.faults w (steps ++ more) =
      p.faults w steps ++ p.faults (steps.foldl p.worldAfter w) more := by
  induction steps generalizing w with
  | nil => rfl
  | cons step steps ih => simp [faults, ih]

/-- A sequential pass after any steps. -/
theorem performAll_eq (hmode : p.mode = .sequential) {s : PassState ω} (hs : s.isSuspended = false)
    (steps : List PassStep) :
    p.performAll steps s =
      { s with
        failure := s.failure.or (p.faults s.world steps).head?
        captures := s.captures.extend (steps.flatMap PassStep.captured)
        world := steps.foldl p.worldAfter s.world } := by
  induction steps generalizing s with
  | nil => simp [faults]
  | cons step steps ih =>
      rw [performAll_cons, perform_eq hmode hs, ih (by simpa [PassState.isSuspended] using hs)]
      -- the fault of this step goes before those of the later ones
      cases hfault : p.fault s.world step <;> simp [faults, hfault, CaptureList.extend_append]

/-- The first fault decides how a sequential pass ends, before the template has a say. -/
theorem finish_eq (hmode : p.mode = .sequential) (w : ω) (steps : List PassStep)
    (result : Except QueryError String) :
    (p.performAll steps { world := w }).finish result =
      match (p.faults w steps).head?, result with
      | some e, _ => .failed e
      | none, .error e => .failed e
      | none, .ok text =>
        .complete ⟨text, CaptureList.extend {} (steps.flatMap PassStep.captured)⟩ := by
  rw [performAll_eq hmode rfl]
  simp only [PassState.finish, Option.none_or]
  cases (p.faults w steps).head? with
  | some e => rfl
  | none => cases result <;> rfl

/-! ### What is started -/

/-- The call of a caller's filter that a step makes. -/
def called (p : PassScope ω) : PassStep → List Effect
  | .call filter input args =>
    match p.registry.resolve filter with
    | .ok (.sync _) => [.called (.sync filter (classify input) args)]
    | _ => []
  | _ => []

theorem worldAfter_traced (w : ω) (log : List Effect) (step : PassStep) :
    p.traced.worldAfter (w, log) step = (p.worldAfter w step, log ++ p.called step) := by
  cases step with
  | call filter input args =>
      simp only [worldAfter, called, show p.traced.registry.resolve filter = _ from
        p.registry.resolve_traced filter]
      rcases p.registry.resolve filter with e | run | start
      · simp [Except.map]
      · rfl
      · simp [Except.map, Filter.traced]
  | lookup name => simp [worldAfter, called]
  | emit v hint => simp [worldAfter, called]
  | read object attr => simp [worldAfter, called, traced, Context.traced]

/-- The caller's code is entered by the calls of sync filters, and by nothing else. -/
theorem log_performAll (hmode : p.mode = .sequential) (w : ω) (steps : List PassStep) :
    (p.traced.performAll steps { world := (w, []) }).world.2 = steps.flatMap p.called := by
  have hfold : ∀ (w : ω) (log : List Effect), (steps.foldl p.traced.worldAfter (w, log)).2 =
      log ++ steps.flatMap p.called := by
    induction steps with
    | nil => simp
    | cons step steps ih =>
        intro w log
        rw [List.foldl_cons, worldAfter_traced, ih]
        simp
  rw [performAll_eq (p := p.traced) hmode rfl]
  simpa using hfold w []

/-! ### The pass as a whole -/

/-- A fresh sequential pass is all or nothing. However its caller goes on, the first failure is what
it reports; text and captures come out only if every step and the template succeeded, and then the
captures are those of all emissions. A step that would have to wait counts as a failure, and the
computation to wait for is not started. A template makes its pass by such steps. -/
theorem fresh_finish_first_failure (hmode : p.mode = .sequential) (w : ω) :
    (∀ steps result,
      (p.performAll steps { world := w }).finish result =
        match (p.faults w steps).head?, result with
        | some e, _ => .failed e
        | none, .error e => .failed e
        | none, .ok text =>
          .complete ⟨text, CaptureList.extend {} (steps.flatMap PassStep.captured)⟩) ∧
    (∀ before step after name result,
      p.faults w before = [] → p.suspendsAt? step = some name →
        (p.performAll (before ++ step :: after) { world := w }).finish result =
          .failed (.requiresSuspending name)) ∧
    (∀ steps, ∀ effect ∈ (p.traced.performAll steps { world := (w, []) }).world.2,
      ∃ filter input args, effect = .called (.sync filter input args)) ∧
    (∀ program : RenderProgram,
      (p.run program { world := w }).2 =
        p.performAll (p.steps program { world := w }) { world := w }) := by
  refine ⟨finish_eq hmode w, ?_, ?_, fun program => run_eq_performAll program _⟩
  · intro before step after name result hbefore hstep
    rw [finish_eq hmode, faults_append, hbefore, faults, fault_of_suspendsAt hstep]
    rfl
  · intro steps effect heffect
    rw [log_performAll hmode] at heffect
    obtain ⟨step, -, hcalled⟩ := List.mem_flatMap.mp heffect
    cases step with
    | call filter input args =>
        simp only [called] at hcalled
        split at hcalled
        · exact ⟨filter, classify input, args, List.mem_singleton.mp hcalled⟩
        · contradiction
    | lookup name => contradiction
    | emit v hint => contradiction
    | read object attr => contradiction

/-- A sequential pass with a variable and a filter that it cannot wait for. -/
def tenantPass : PassScope Nat where
  registry := RenderProgram.tenantFilters
  context := RenderProgram.tenantContext
  options := {}
  mode := .sequential

/-- The caller looks the deferred variable up, and goes on to ask for a filter that waits, for one
that there is not and for an undefined value. -/
theorem tenantPass_first_failure :
    (tenantPass.performAll
      [.emit (.int 1) (some "n"), .lookup "tenant", .call "mask" .undefined [],
        .call "absent" (.int 1) [], .emit .undefined none] { world := 0 }).finish (.ok "") =
      .failed (.requiresSuspending "tenant") :=
  (fresh_finish_first_failure rfl 0).2.1 [.emit (.int 1) (some "n")] (.lookup "tenant") _ "tenant" _
    rfl rfl

end PassScope

end QueryTemplate
