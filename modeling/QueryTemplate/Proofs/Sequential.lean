import QueryTemplate.Engine
import QueryTemplate.Proofs.Replaying

/-!
Rendering pass by pass and rendering in one pass. Filters without state and deferred variables can
be settled: an async filter becomes a sync one with the same output, and a deferred variable a plain
one with the value it was resolved to. With everything settled one pass gets through, and it ends
with what the suspending render ends with.
-/

namespace QueryTemplate

variable {ω : Type}

/-- The entry with a value in place of what would produce one. -/
def ContextEntry.settled (v : Value) : ContextEntry ω → ContextEntry ω
  | value plain => value plain
  | deferred _ => value v

namespace Context

/-- The context with every deferred variable replaced by a plain one. -/
def settled (value : String → Value) (c : Context ω) : Context ω :=
  { c with entries := c.entries.map fun (name, entry) => (name, entry.settled (value name)) }

/-- Every deferred variable comes to a value. -/
def Resolves (c : Context ω) : Prop :=
  ∀ name produce, c.get? name = some (.deferred produce) → ∀ w, ∃ v, (awaitOn produce w).1 = .ok v

variable {value : String → Value} {c : Context ω} {name : String}

theorem get?_settled : (c.settled value).get? name =
    (c.get? name).map (ContextEntry.settled (value name)) :=
  NameMap.find?_map (fun name => ContextEntry.settled (value name)) name c.entries

theorem validate_settled : (c.settled value).validate = c.validate :=
  validate_eq_of_map (fun name => ContextEntry.settled (value name)) rfl

theorem validate_ne_replayDiverged (ordinal : Nat) (expected found : String) :
    c.validate ≠ .error (.replayDiverged ordinal expected found) := by
  rw [validate]
  split <;> simp

end Context

/-- The filter, or a sync filter with the given output in place of an async one. -/
def Filter.settled (output : FilterScope → Classified → List Value → Classified) :
    Filter ω → Filter ω
  | sync run => sync run
  | async _ => ofFunction fun scope input args => .ok (output scope input args)

namespace FilterRegistry

/-- The registry with every async filter replaced by a sync one. -/
def settled (output : String → FilterScope → Classified → List Value → Classified)
    (r : FilterRegistry ω) : FilterRegistry ω :=
  { r with filters := r.filters.map fun (name, filter) => (name, filter.settled (output name)) }

/-- No filter keeps state or asks how the render treats computations that wait, and every async
filter comes to its output. -/
structure Stateless (output : String → FilterScope → Classified → List Value → Classified)
    (r : FilterRegistry ω) : Prop where
  sync : ∀ name run, r.resolve name = .ok (.sync run) → ∀ scope mode input args w w',
    (run { scope with mode } input args w).1 = (run scope input args w').1
  async : ∀ name start, r.resolve name = .ok (.async start) → ∀ scope mode input args w,
    (awaitOn (start { scope with mode } input args) w).1 = .ok (output name scope input args)

variable {output : String → FilterScope → Classified → List Value → Classified}
  {r : FilterRegistry ω} {name : String}

theorem resolve_settled :
    (r.settled output).resolve name = (r.resolve name).map (Filter.settled (output name)) := by
  rw [resolve, settled, NameMap.find?_map (fun name => Filter.settled (output name)), resolve]
  cases NameMap.find? name r.filters with
  | none => rfl
  | some filter => rfl

end FilterRegistry

namespace PassScope

variable {α : Type} {p : PassScope ω} {program : Template.Program α} {d d' : DirectState ω}
  {result : Except QueryError α}

/-- What holds of the known variables at the beginning of a direct run, and is kept when another one
is produced, holds at its end. -/
theorem DirectRun.known_induction {Q : List (String × Value) → Prop}
    (run : DirectRun p program d result d') (h : Q d.known)
    (step : ∀ known name produce w v, p.context.get? name = some (.deferred produce) →
      known.lookup name = none → (awaitOn produce w).1 = .ok v → Q known →
        Q (known ++ [(name, v)])) : Q d'.known := by
  induction run with
  | done => exact h
  | absent _ _ ih => exact ih h
  | plain _ _ ih => exact ih h
  | known _ _ _ ih => exact ih h
  | produced hget hknown hawait _ ih =>
      exact ih (step _ _ _ _ _ hget hknown (congrArg Prod.fst hawait) h)
  | notProduced => exact h
  | unregistered => exact h
  | sync _ _ _ ih => exact ih h
  | syncFailed => exact h
  | async _ _ _ ih => exact ih h
  | asyncFailed => exact h
  | emit _ _ ih => exact ih h
  | refused => exact h
  | read _ _ ih => exact ih h

/-- What a direct run has produced stays known. -/
theorem DirectRun.known_mono (run : DirectRun p program d result d') {name : String} {v : Value}
    (h : d.known.lookup name = some v) : d'.known.lookup name = some v := by
  refine run.known_induction (Q := fun known => known.lookup name = some v) h ?_
  intro known other produce w u _ _ _ hknown
  rw [List.lookup_append, hknown]
  rfl

/-- If the deferred variables come to the same values always, a direct run knows these values. -/
theorem DirectRun.known_eq {value : String → Value} (run : DirectRun p program d result d')
    (hcontext : ∀ name produce, p.context.get? name = some (.deferred produce) →
      ∀ w, (awaitOn produce w).1 = .ok (value name))
    (h : ∀ name v, d.known.lookup name = some v → value name = v) :
    ∀ name v, d'.known.lookup name = some v → value name = v := by
  refine run.known_induction
    (Q := fun known => ∀ name v, known.lookup name = some v → value name = v) h ?_
  intro known name produce w v hget _ hawait hknown other u hu
  rw [hcontext name produce hget w] at hawait
  cases hawait
  -- either the variable was known before, or it is the one that was produced
  rw [List.lookup_append] at hu
  cases hother : known.lookup other with
  | some x =>
      rw [hother] at hu
      exact hknown other u (hother.trans hu)
  | none =>
      rw [hother, Option.none_or] at hu
      by_cases hname : other = name
      · subst hname
        simpa using hu
      · rw [List.lookup_cons, beq_eq_false_iff_ne.mpr hname] at hu
        contradiction

/-- The pass with everything settled, so that it needs no other pass. -/
def settled (value : String → Value)
    (output : String → FilterScope → Classified → List Value → Classified) (p : PassScope ω) :
    PassScope ω :=
  { p with
    registry := p.registry.settled output
    context := p.context.settled value
    mode := .sequential }

variable {value : String → Value}
  {output : String → FilterScope → Classified → List Value → Classified}

theorem lookup_settled (name : String) (s : PassState ω) :
    (p.settled value output).lookup name s =
      match p.context.get? name with
      | none => (none, s)
      | some (.value v) => (some v, s)
      | some (.deferred _) => (some (value name), s) := by
  rw [lookup, settled]
  simp only [Context.get?_settled]
  rcases p.context.get? name with _ | v | produce
  · rfl
  · rfl
  · rfl

section Call

variable {s : PassState ω} {name : String}

theorem call_settled_unregistered (h : s.isSuspended = false) {e : QueryError}
    (hget : p.registry.resolve name = .error e) (input : Value) (args : List Value) :
    (p.settled value output).call name input args s = (none, s.fail e) := by
  rw [call, if_neg (by simp [h]), settled]
  simp only [FilterRegistry.resolve_settled, hget]
  rfl

theorem call_settled_sync (h : s.isSuspended = false) (hfilters : p.registry.Stateless output)
    {run : FilterScope → Classified → List Value → ω → Except FilterError Classified × ω}
    (hget : p.registry.resolve name = .ok (.sync run)) (value : String → Value) (input : Value)
    (args : List Value) (w : ω) :
    ∃ world, (p.settled value output).call name input args s =
      match (run p.filterScope (classify input) args w).1 with
      | .ok v => (some v.toValue, { s with world })
      | .error e => (none, { s with world }.fail (.filterExecution name e)) := by
  have hsame := hfilters.sync name run hget p.filterScope .sequential (classify input) args
    s.world w
  rw [call, if_neg (by simp [h]), settled]
  simp only [FilterRegistry.resolve_settled, hget, Except.map, Filter.settled, callSync, runSync]
  simp only [filterScope] at hsame ⊢
  rw [← hsame]
  rcases run ⟨p.options.identifierQuote, p.options.paramStyle, .sequential⟩ (classify input) args
    s.world with ⟨_ | v, world⟩
  · exact ⟨world, rfl⟩
  · exact ⟨world, rfl⟩

theorem call_settled_async (h : s.isSuspended = false) (hfilters : p.registry.Stateless output)
    {start : FilterScope → Classified → List Value → ω → Future ω Classified × ω}
    (hget : p.registry.resolve name = .ok (.async start)) (value : String → Value) (input : Value)
    (args : List Value) (w : ω) :
    ∃ v, (awaitOn (start p.filterScope (classify input) args) w).1 = .ok v ∧
      (p.settled value output).call name input args s = (some v.toValue, s) := by
  refine ⟨output name { p.filterScope with mode := .sequential } (classify input) args, ?_, ?_⟩
  · exact hfilters.async name start hget { p.filterScope with mode := .sequential } p.mode _ _ _
  · rw [call, if_neg (by simp [h]), settled]
    simp only [FilterRegistry.resolve_settled, hget]
    rfl

end Call

/-- What a direct run comes to, one pass comes to with everything settled. -/
theorem run_settled_of_directRun (hfilters : p.registry.Stateless output)
    (hcontext : p.context.Resolves) (run : DirectRun p program d result d')
    (hdet : program.Deterministic p.context.readAttribute)
    (hvalue : ∀ name v, d'.known.lookup name = some v → value name = v) {s : PassState ω}
    (h : d.Aligned s) :
    ∃ s', (p.settled value output).run program s = (result.toOption, s') ∧ d'.EndsAs s' result := by
  induction run generalizing s with
  | done => exact ⟨s, rfl, h⟩
  | absent hget _ ih =>
      rw [run_lookup, lookup_settled, hget]
      exact ih (hdet _) hvalue h
  | plain hget _ ih =>
      rw [run_lookup, lookup_settled, hget]
      exact ih (hdet _) hvalue h
  | @known name _ _ _ v _ _ hget hknown rest ih =>
      rw [run_lookup, lookup_settled, hget, hvalue name v (rest.known_mono hknown)]
      exact ih (hdet _) hvalue { h with }
  | @produced name _ d _ v _ _ _ hget hknown hawait rest ih =>
      have hv : List.lookup name (d.known ++ [(name, v)]) = some v := by
        simp [List.lookup_append, hknown]
      rw [run_lookup, lookup_settled, hget, hvalue name v (rest.known_mono hv)]
      exact ih (hdet _) hvalue { h with }
  | @notProduced name _ d produce e world hget hknown hawait =>
      -- every deferred variable comes to a value
      obtain ⟨v, hv⟩ := hcontext name produce hget d.world
      rw [hawait] at hv
      contradiction
  | @unregistered name input args _ d e hget =>
      rw [run_call, call_settled_unregistered h.isSuspended hget]
      exact ⟨_, rfl, h.endsAs_fail⟩
  | @sync name input args _ d run v world _ _ hget hrun _ ih =>
      obtain ⟨world', hcall⟩ := call_settled_sync h.isSuspended hfilters hget
        value input args d.world
      rw [run_call, hcall, hrun]
      exact ih (hdet _) hvalue { h with }
  | @syncFailed name input args _ d run e world hget hrun =>
      obtain ⟨world', hcall⟩ := call_settled_sync h.isSuspended hfilters hget
        value input args d.world
      rw [run_call, hcall, hrun]
      exact ⟨_, rfl, h.running, by simp [PassState.fail, h.clean]⟩
  | @async name input args _ d start v world _ _ hget hawait _ ih =>
      obtain ⟨v', hv', hcall⟩ := call_settled_async h.isSuspended hfilters hget
        value input args d.world
      rw [hawait] at hv'
      cases hv'
      rw [run_call, hcall]
      exact ih (hdet _) hvalue { h with }
  | @asyncFailed name input args _ d start e world hget hawait =>
      -- every async filter comes to its output
      obtain ⟨v', hv', -⟩ := call_settled_async h.isSuspended hfilters hget
        value input args d.world
      rw [hawait] at hv'
      contradiction
  | @emit v hint _ d text captures _ _ hwrite _ ih =>
      rw [run_emit, PassState.emit_eq h.isSuspended, h.captures, hwrite]
      exact ih (hdet _) hvalue ⟨h.running, h.clean, rfl⟩
  | @refused v hint _ d e hwrite =>
      rw [run_emit, PassState.emit_eq h.isSuspended, h.captures, hwrite]
      exact ⟨_, rfl, h.endsAs_fail⟩
  | @read object attr _ d v world _ _ hread _ ih =>
      obtain ⟨⟨v', hv'⟩, hnext⟩ := hdet
      rw [hv'] at hread
      cases hread
      rw [run_read, read,
        show (p.settled _ _).context.readAttribute = p.context.readAttribute from rfl, hv']
      exact ih (hnext _) hvalue h

end PassScope

namespace RenderProgram

variable {program : RenderProgram} {registry : FilterRegistry ω} {context : Context ω}
  {options : RenderOptions} {world : ω} {value : String → Value}
  {output : String → FilterScope → Classified → List Value → Classified}

/-- `value` has what the deferred variables were resolved to in a render, for those that were looked
up. -/
def ResolvedTo (program : RenderProgram) (registry : FilterRegistry ω) (context : Context ω)
    (options : RenderOptions) (world : ω) (value : String → Value) : Prop :=
  ∀ n result r, Replay.run program registry context options n { world } = (some result, r) →
    ∀ name v, r.resolutions.lookup? name = some v → value name = v

theorem resolvedTo_of_constant (hdet : program.Deterministic context.readAttribute)
    (hhalts : Replay.Halts program registry context options { world })
    (hcontext : ∀ name produce, context.get? name = some (.deferred produce) →
      ∀ w, (awaitOn produce w).1 = .ok (value name)) :
    program.ResolvedTo registry context options world value := by
  intro n result r hr name v hv
  rcases hdirect : PassScope.direct { registry, context, options, mode := .suspending } program
    { world } with ⟨result, d⟩
  have hrun := PassScope.directRun { registry, context, options, mode := .suspending } program
    { world }
  rw [hdirect] at hrun
  obtain ⟨final, hcourse, -, hlookups, -⟩ := course_of_direct hdet hhalts hdirect
  obtain ⟨-, rfl⟩ := Replay.run_unique hr (hcourse.ends _ (Nat.lt_succ_self _))
  rw [Resolutions.lookup?, hlookups] at hv
  exact hrun.known_eq hcontext (by simp) name v hv

theorem tenantContext_get? {name : String} {produce : Nat → Future Nat Value × Nat}
    (h : tenantContext.get? name = some (.deferred produce)) (n : Nat) :
    (awaitOn produce n).1 = .ok (.str "acme") := by
  simp only [tenantContext, Context.get?, NameMap.find?] at h
  split at h
  · cases h
    rfl
  · contradiction

theorem tenantFilters_resolve {name : String} {filter : Filter Nat}
    (h : tenantFilters.resolve name = .ok filter) :
    filter = .async (fun _ input _ n => (fun n => (.ok input, n + 1), n + 1)) ∨
      filter = .sync fun _ input _ n => (.ok input, n + 1) := by
  simp only [tenantFilters, FilterRegistry.resolve, NameMap.find?] at h
  split at h
  · cases h
    grind
  · contradiction

theorem tenantFilters_stateless : tenantFilters.Stateless fun _ _ input _ => input := by
  constructor
  · intro name run h scope mode input args w w'
    rcases tenantFilters_resolve h with h | h
    · cases h
    · cases h
      rfl
  · intro name start h scope mode input args w
    rcases tenantFilters_resolve h with h | h
    · cases h
      rfl
    · cases h

/-- One pass over a program with everything settled ends with what the direct run ends with. -/
theorem renderSequential_settled (hdet : program.Deterministic context.readAttribute)
    (hcontext : context.Resolves) (hfilters : registry.Stateless output)
    (hvalid : context.validate = .ok ()) {d : DirectState ω}
    {result : Except QueryError (Except QueryError String)}
    (hdirect : PassScope.direct { registry, context, options, mode := .suspending } program
      { world } = (result, d))
    (hvalue : ∀ name v, d.known.lookup name = some v → value name = v) (world' : ω) :
    (program.renderSequential (registry.settled output) (context.settled value) options world').1 =
      d.report result := by
  have hrun := PassScope.directRun { registry, context, options, mode := .suspending } program
    { world }
  rw [hdirect] at hrun
  obtain ⟨s, hsettled, hends⟩ := PassScope.run_settled_of_directRun hfilters hcontext hrun hdet
    hvalue (s := { world := world' }) ⟨rfl, rfl, rfl⟩
  have houtcome := PassScope.outcome_of_concluded hsettled hends.concluded
  rw [hends.conclude] at houtcome
  rw [renderSequential, Context.validate_settled, hvalid]
  simp only [PassScope.settled] at houtcome
  simp only [houtcome]
  cases d.report result with
  | ok marked => rfl
  | error e => rfl

/-- A direct run that ends in a divergence ends so because the program does. -/
theorem report_replayDiverged {d : DirectState ω}
    {result : Except QueryError (Except QueryError String)}
    (hdirect : PassScope.direct { registry, context, options, mode := .suspending } program
      { world } = (result, d)) {ordinal : Nat} {expected found : String}
    (h : d.report result = .error (.replayDiverged ordinal expected found)) :
    program.CanEnd (.error (.replayDiverged ordinal expected found)) := by
  have hrun := PassScope.directRun { registry, context, options, mode := .suspending } program
    { world }
  rw [hdirect] at hrun
  cases result with
  | error e =>
      cases h
      exact absurd rfl (hrun.ne_replayDiverged ordinal expected found)
  | ok ended =>
      cases ended with
      | ok text => contradiction
      | error e =>
          cases h
          exact hrun.canEnd _ rfl

/-- A suspending render reports a divergence only if the program itself can end with that error,
whatever its filters do. -/
theorem canEnd_of_renderSuspending (hdet : program.Deterministic context.readAttribute)
    (hhalts : Replay.Halts program registry context options { world }) {n ordinal : Nat}
    {expected found : String}
    (h : (program.renderSuspending n registry context options world).1 =
      .error (.replayDiverged ordinal expected found)) :
    program.CanEnd (.error (.replayDiverged ordinal expected found)) := by
  rw [renderSuspending] at h
  cases hvalid : context.validate with
  | error e =>
      rw [hvalid] at h
      cases h
      exact absurd hvalid (Context.validate_ne_replayDiverged ordinal expected found)
  | ok u =>
      rw [hvalid] at h
      rcases hdirect : PassScope.direct { registry, context, options, mode := .suspending } program
        { world } with ⟨direct, d⟩
      obtain ⟨final, hcourse, -⟩ := course_of_direct hdet hhalts hdirect
      rcases hrun : Replay.run program registry context options n { world } with ⟨_ | result, r⟩
      · rw [hrun] at h
        cases h
      · obtain ⟨hresult, -⟩ := Replay.run_unique hrun (hcourse.ends _ (Nat.lt_succ_self _))
        rw [hrun, hresult] at h
        exact report_replayDiverged hdirect h

/-- A suspending render returns what rendering in one pass returns once everything is settled: the
same text with the same captures, or the same error. It reports a divergence only if the program
itself can end with that error. -/
theorem renderSuspending_eq_renderSequential (hdet : program.Deterministic context.readAttribute)
    (hcontext : context.Resolves) (hfilters : registry.Stateless output)
    (hhalts : Replay.Halts program registry context options { world })
    (hvalue : program.ResolvedTo registry context options world value) :
    ∃ passes, ∀ n, passes ≤ n →
      (∀ world', (program.renderSuspending n registry context options world).1 =
        (program.renderSequential (registry.settled output) (context.settled value) options
          world').1) ∧
      ∀ ordinal expected found,
        (program.renderSuspending n registry context options world).1 =
          .error (.replayDiverged ordinal expected found) →
        program.CanEnd (.error (.replayDiverged ordinal expected found)) := by
  rcases hdirect : PassScope.direct { registry, context, options, mode := .suspending } program
    { world } with ⟨result, d⟩
  obtain ⟨final, hcourse, -, hlookups, -⟩ := course_of_direct hdet hhalts hdirect
  refine ⟨final.resolutions.length + 1, fun n hn =>
    ⟨fun world' => ?_, fun _ _ _ h => canEnd_of_renderSuspending hdet hhalts h⟩⟩
  cases hvalid : context.validate with
  | error e =>
      rw [renderSequential, renderSuspending, Context.validate_settled, hvalid]
  | ok u =>
      have hends := hcourse.ends n hn
      have hsuspending : (program.renderSuspending n registry context options world).1 =
          d.report result := by
        simp only [renderSuspending, hvalid, hends]
      rw [hsuspending]
      refine (renderSequential_settled hdet hcontext hfilters hvalid hdirect ?_ world').symm
      intro name v hv
      exact hvalue n _ final hends name v (by rw [Resolutions.lookup?, hlookups, hv])

theorem tenantQuery_renderSuspending :
    ∃ passes, ∀ n, passes ≤ n →
      (∀ world', (tenantQuery.renderSuspending n tenantFilters tenantContext {} 0).1 =
        (tenantQuery.renderSequential (tenantFilters.settled fun _ _ input _ => input)
          (tenantContext.settled fun _ => .str "acme") {} world').1) ∧
      ∀ ordinal expected found,
        (tenantQuery.renderSuspending n tenantFilters tenantContext {} 0).1 =
          .error (.replayDiverged ordinal expected found) →
        tenantQuery.CanEnd (.error (.replayDiverged ordinal expected found)) := by
  have hhalts : Replay.Halts tenantQuery tenantFilters tenantContext {} { world := 0 } :=
    Replay.halts_of_run (m := 3) rfl
  exact renderSuspending_eq_renderSequential (tenantQuery_deterministic _)
    (fun _ _ h n => ⟨_, tenantContext_get? h n⟩) tenantFilters_stateless hhalts
    (resolvedTo_of_constant (tenantQuery_deterministic _) hhalts fun _ _ => tenantContext_get?)

end RenderProgram

/-! ### The templates of an engine -/

theorem QueryError.ofEngine_ne_replayDiverged (e : EngineError) (ordinal : Nat)
    (expected found : String) : ofEngine e ≠ .replayDiverged ordinal expected found := by
  rw [ofEngine]
  cases e.load with
  | some fault => simp
  | none => cases e.kind <;> simp

namespace QueryEngine

theorem not_canEnd_replayDiverged (e : QueryEngine ω) (context : Context ω) (src : Template.Source)
    (ordinal : Nat) (expected found : String) :
    ¬(e.program context src).CanEnd (.error (.replayDiverged ordinal expected found)) := by
  intro h
  obtain ⟨result, -, hend⟩ := Template.Program.exists_of_canEnd_bind h
  rcases result with (fault | ⟨_, fault⟩ | _) | pieces
  · exact QueryError.ofEngine_ne_replayDiverged fault ordinal expected found
      (Except.error.inj hend)
  · exact QueryError.ofEngine_ne_replayDiverged fault ordinal expected found
      (Except.error.inj hend)
  · cases hend
  · cases hend

/-- Rendering a template pass by pass never reports that the passes diverge. -/
theorem renderProgram_ne_replayDiverged {e : QueryEngine ω} {context : Context ω}
    {src : Template.Source} {options : RenderOptions} {world : ω}
    (hdet : (e.program context src).Deterministic context.readAttribute)
    (hhalts : Replay.Halts (e.program context src) e.registry context options { world })
    (ordinal : Nat) (expected found : String) :
    (e.renderProgram .suspending (e.program context src) context options world).1 ≠
      .error (.replayDiverged ordinal expected found) := fun h =>
  e.not_canEnd_replayDiverged context src ordinal expected found
    (RenderProgram.canEnd_of_renderSuspending hdet hhalts h)

end QueryEngine

end QueryTemplate
