import QueryTemplate.Proofs.Replaying

/-!
Recording what a render does in the caller's code. The filters and deferred variables of a render
are made to keep a record next to their own state. This changes nothing else about the render: it
takes the same passes, to the same results.
-/

namespace QueryTemplate

/-- What happens in the caller's code. -/
inductive Effect where
  /-- A filter or the producer of a deferred variable is called. -/
  | called (r : Request)
  /-- The computation that was started for a filter call or a deferred variable is awaited. -/
  | awaited (name : String)

/-- A state of the caller's code with the record of what has happened in it. -/
abbrev Recorded (ω : Type) := ω × List Effect

variable {ω α : Type}

/-- Records that the computation is awaited. -/
def Future.traced (name : String) (future : Future ω α) : Future (Recorded ω) α :=
  fun (w, log) =>
    let (result, w) := future w
    (result, (w, log ++ [.awaited name]))

def Suspension.traced : Suspension ω → Suspension (Recorded ω)
  | lookup name future => lookup name (Future.traced name future)
  | filter name ordinal future => filter name ordinal (Future.traced name future)

namespace Filter

def tracedSync (name : String)
    (run : FilterScope → Classified → List Value → ω → Except FilterError Classified × ω) :
    FilterScope → Classified → List Value → Recorded ω →
      Except FilterError Classified × Recorded ω :=
  fun scope input args (w, log) =>
    let (result, w) := run scope input args w
    (result, (w, log ++ [.called (.sync name input args)]))

def tracedAsync (name : String)
    (start : FilterScope → Classified → List Value → ω → Future ω Classified × ω) :
    FilterScope → Classified → List Value → Recorded ω →
      Future (Recorded ω) Classified × Recorded ω :=
  fun scope input args (w, log) =>
    let (future, w) := start scope input args w
    (Future.traced name future, (w, log ++ [.called (.async name input args)]))

/-- The filter with a record of its calls. -/
def traced (name : String) : Filter ω → Filter (Recorded ω)
  | sync run => sync (tracedSync name run)
  | async start => async (tracedAsync name start)

end Filter

namespace ContextEntry

def tracedProduce (name : String) (produce : ω → Future ω Value × ω) :
    Recorded ω → Future (Recorded ω) Value × Recorded ω :=
  fun (w, log) =>
    let (future, w) := produce w
    (Future.traced name future, (w, log ++ [.called (.deferred name)]))

/-- The entry with a record of when it is produced. -/
def traced (name : String) : ContextEntry ω → ContextEntry (Recorded ω)
  | value v => value v
  | deferred produce => deferred (tracedProduce name produce)

end ContextEntry

namespace FilterRegistry

/-- The registry with filters that record their calls. -/
def traced (r : FilterRegistry ω) : FilterRegistry (Recorded ω) where
  filters := r.filters.map fun (name, filter) => (name, filter.traced name)
  allowOverride := r.allowOverride

theorem resolve_traced (r : FilterRegistry ω) (name : String) :
    r.traced.resolve name = (r.resolve name).map (Filter.traced name) := by
  rw [resolve, traced, NameMap.find?_map Filter.traced, resolve]
  cases NameMap.find? name r.filters with
  | none => rfl
  | some filter => rfl

end FilterRegistry

namespace Context

/-- The context with deferred variables that record when they are produced. -/
def traced (c : Context ω) : Context (Recorded ω) where
  entries := c.entries.map fun (name, entry) => (name, entry.traced name)
  readAttribute := fun object attr (w, log) =>
    let (v, w) := c.readAttribute object attr w
    (v, (w, log))

theorem get?_traced (c : Context ω) (name : String) :
    c.traced.get? name = (c.get? name).map (ContextEntry.traced name) :=
  NameMap.find?_map ContextEntry.traced name c.entries

end Context

theorem Template.Program.Deterministic.traced {context : Context ω} {program : Program α}
    (hdet : program.Deterministic context.readAttribute) :
    program.Deterministic context.traced.readAttribute := by
  induction program with
  | done a => trivial
  | lookup name next ih => exact fun v => ih v (hdet v)
  | call name input args next ih => exact fun v => ih v (hdet v)
  | emit v hint next ih => exact fun text => ih text (hdet text)
  | read object attr next ih =>
      obtain ⟨⟨v, hv⟩, hnext⟩ := hdet
      refine ⟨⟨v, fun w => ?_⟩, fun v => ih v (hnext v)⟩
      simp only [Context.traced, hv]

namespace PassState

/-- A pass with a record. -/
def traced (log : List Effect) (s : PassState ω) : PassState (Recorded ω) :=
  { s with
    suspension := s.suspension.map Suspension.traced
    world := (s.world, log) }

@[simp] theorem isSuspended_traced (s : PassState ω) (log : List Effect) :
    (s.traced log).isSuspended = s.isSuspended := by
  simp [isSuspended, traced]

theorem suspend_traced (s : PassState ω) (pending : Suspension ω) (log : List Effect) :
    (s.traced log).suspend pending.traced = (s.suspend pending).traced log := by
  cases hs : s.suspension <;> simp [suspend, traced, hs]

end PassState

def Outcome.traced : Outcome ω → Outcome (Recorded ω)
  | complete marked => complete marked
  | suspended pending => suspended pending.traced
  | failed e => failed e

theorem PassState.finish_traced (s : PassState ω) (log : List Effect)
    (result : Except QueryError String) :
    (s.traced log).finish result = (s.finish result).traced := by
  simp only [finish, traced]
  cases s.suspension with
  | some pending => rfl
  | none =>
      cases s.failure with
      | some e => rfl
      | none => cases result <;> rfl

namespace PassScope

def traced (p : PassScope ω) : PassScope (Recorded ω) :=
  { p with
    registry := p.registry.traced
    context := p.context.traced }

variable {p : PassScope ω}

/-! ### A pass does the same when it is recorded -/

theorem lookup_traced (name : String) (log : List Effect) (s : PassState ω) :
    ∃ log', p.traced.lookup name (s.traced log) =
      ((p.lookup name s).1, (p.lookup name s).2.traced log') := by
  rw [lookup, lookup, show p.traced.context.get? name = _ from p.context.get?_traced name]
  rcases p.context.get? name with _ | v | produce
  · exact ⟨log, rfl⟩
  · exact ⟨log, rfl⟩
  · simp only [Option.map, ContextEntry.traced, lookupDeferred, PassState.isSuspended_traced]
    split
    · exact ⟨log, rfl⟩
    · rw [show p.traced.mode = p.mode from rfl, show p.traced.resolutions = p.resolutions from rfl]
      cases p.mode with
      | sequential => exact ⟨log, rfl⟩
      | suspending =>
          cases p.resolutions.lookup? name with
          | some v => exact ⟨log, rfl⟩
          | none =>
              refine ⟨log ++ [.called (.deferred name)], ?_⟩
              rw [← PassState.suspend_traced]
              rfl

theorem callSync_traced (name : String)
    (run : FilterScope → Classified → List Value → ω → Except FilterError Classified × ω)
    (input : Classified) (args : List Value) (log : List Effect) (s : PassState ω) :
    ∃ log', p.traced.callSync name (Filter.tracedSync name run) input args (s.traced log) =
      ((p.callSync name run input args s).1, (p.callSync name run input args s).2.traced log') := by
  simp only [callSync, runSync, Filter.tracedSync]
  rw [show p.traced.mode = p.mode from rfl, show p.traced.filterScope = p.filterScope from rfl]
  rcases hrun : run p.filterScope input args s.world with ⟨result, world⟩
  cases p.mode with
  | sequential =>
      refine ⟨log ++ [.called (.sync name input args)], ?_⟩
      simp only [PassState.traced, hrun]
      cases result with
      | ok output => rfl
      | error e => rfl
  | suspending =>
      simp only [PassState.traced]
      rcases s.outputs.output s.syncCalls name with e | _ | output
      · exact ⟨log, rfl⟩
      · refine ⟨log ++ [.called (.sync name input args)], ?_⟩
        simp only [hrun]
        cases result with
        | ok output => rfl
        | error e => rfl
      · exact ⟨log, rfl⟩

theorem callAsync_traced (name : String)
    (start : FilterScope → Classified → List Value → ω → Future ω Classified × ω)
    (input : Classified) (args : List Value) (log : List Effect) (s : PassState ω) :
    ∃ log', p.traced.callAsync name (Filter.tracedAsync name start) input args (s.traced log) =
      ((p.callAsync name start input args s).1,
        (p.callAsync name start input args s).2.traced log') := by
  simp only [callAsync, Filter.tracedAsync]
  rw [show p.traced.mode = p.mode from rfl, show p.traced.filterScope = p.filterScope from rfl,
    show p.traced.resolutions = p.resolutions from rfl]
  cases p.mode with
  | sequential => exact ⟨log, rfl⟩
  | suspending =>
      simp only [show (s.traced log).asyncCalls = s.asyncCalls from rfl]
      rcases p.resolutions.filter s.asyncCalls name with e | _ | output
      · exact ⟨log, rfl⟩
      · refine ⟨log ++ [.called (.async name input args)], ?_⟩
        rw [← PassState.suspend_traced]
        rfl
      · exact ⟨log, rfl⟩

theorem call_traced (name : String) (input : Value) (args : List Value) (log : List Effect)
    (s : PassState ω) :
    ∃ log', p.traced.call name input args (s.traced log) =
      ((p.call name input args s).1, (p.call name input args s).2.traced log') := by
  rw [call, call, PassState.isSuspended_traced]
  split
  · exact ⟨log, rfl⟩
  · rw [show p.traced.registry.resolve name = _ from p.registry.resolve_traced name]
    rcases p.registry.resolve name with e | run | start
    · exact ⟨log, rfl⟩
    · exact callSync_traced name run (classify input) args log s
    · exact callAsync_traced name start (classify input) args log s

theorem emit_traced (v : Value) (hint : Option String) (log : List Effect) (s : PassState ω) :
    (s.traced log).emit v hint = ((s.emit v hint).1, (s.emit v hint).2.traced log) := by
  cases h : s.isSuspended with
  | true =>
      rw [PassState.emit_of_suspended h, PassState.emit_of_suspended]
      rwa [PassState.isSuspended_traced]
  | false =>
      rw [PassState.emit_eq h, PassState.emit_eq (by rwa [PassState.isSuspended_traced]),
        show (s.traced log).captures = s.captures from rfl]
      rcases Emission.write v hint s.captures with e | ⟨text, captures⟩
      · rfl
      · rfl

theorem read_traced (object : Nat) (attr : String) (log : List Effect) (s : PassState ω) :
    p.traced.read object attr (s.traced log) =
      ((p.read object attr s).1, (p.read object attr s).2.traced log) := rfl

theorem run_traced (program : Template.Program α) (log : List Effect) (s : PassState ω) :
    ∃ log', p.traced.run program (s.traced log) =
      ((p.run program s).1, (p.run program s).2.traced log') := by
  induction program generalizing log s with
  | done a => exact ⟨log, rfl⟩
  | lookup name next ih =>
      obtain ⟨log', h⟩ := lookup_traced (p := p) name log s
      rw [run_lookup, run_lookup, h]
      exact ih _ log' _
  | call name input args next ih =>
      obtain ⟨log', h⟩ := call_traced (p := p) name input args log s
      rw [run_call, run_call, h]
      rcases p.call name input args s with ⟨_ | v, t⟩
      · exact ⟨log', rfl⟩
      · exact ih v log' t
  | emit v hint next ih =>
      rw [run_emit, run_emit, emit_traced]
      rcases s.emit v hint with ⟨_ | text, t⟩
      · exact ⟨log, rfl⟩
      · exact ih text log t
  | read object attr next ih =>
      rw [run_read, run_read, read_traced]
      exact ih _ log _

theorem outcome_traced (program : RenderProgram) (log : List Effect) (s : PassState ω) :
    ∃ log', p.traced.outcome program (s.traced log) =
      ((p.outcome program s).1.traced, (p.outcome program s).2.traced log') := by
  obtain ⟨log', h⟩ := run_traced (p := p) program log s
  refine ⟨log', ?_⟩
  rw [outcome, outcome, h]
  rcases p.run program s with ⟨_ | e | text, t⟩
  · simp only [PassState.finish_traced]
  · cases e with
    | overlappingTag => rfl
    | _ => simp only [PassState.finish_traced]
  · simp only [PassState.finish_traced]

end PassScope

theorem Resolutions.resolve_traced (r : Resolutions) (pending : Suspension ω) (w : ω)
    (log : List Effect) :
    ∃ log', r.resolve pending.traced (w, log) =
      ((r.resolve pending w).1, ((r.resolve pending w).2, log')) := by
  cases pending with
  | lookup name future =>
      refine ⟨log ++ [.awaited name], ?_⟩
      simp only [Suspension.traced, resolve, Future.traced]
      rcases future w with ⟨_ | v, w'⟩
      · rfl
      · rfl
  | filter name ordinal future =>
      simp only [Suspension.traced, resolve, Future.traced]
      split
      · refine ⟨log ++ [.awaited name], ?_⟩
        rcases future w with ⟨_ | v, w'⟩
        · rfl
        · rfl
      · exact ⟨log, rfl⟩

namespace Replay

/-- A render with a record. -/
def traced (log : List Effect) (r : Replay ω) : Replay (Recorded ω) :=
  { r with world := (r.world, log) }

variable (program : RenderProgram) (registry : FilterRegistry ω) (context : Context ω)
  (options : RenderOptions)

theorem advance_traced (log : List Effect) (r : Replay ω) :
    ∃ log', (r.traced log).advance program registry.traced context.traced options =
      ((r.advance program registry context options).1,
        (r.advance program registry context options).2.traced log') := by
  obtain ⟨log', h⟩ := PassScope.outcome_traced (p := r.nextPass registry context options) program
    log r.start
  rw [advance_eq, advance_eq, show (nextPass registry.traced context.traced options
    (r.traced log)).outcome program (start (r.traced log)) = _ from h]
  rcases (r.nextPass registry context options).outcome program r.start with
    ⟨marked | pending | e, s⟩
  · exact ⟨log', rfl⟩
  · obtain ⟨log'', hresolve⟩ := r.resolutions.resolve_traced pending s.world log'
    refine ⟨log'', ?_⟩
    simp only [Outcome.traced]
    rw [show (r.traced log).resolutions.resolve pending.traced (s.traced log').world = _
      from hresolve]
    rcases r.resolutions.resolve pending s.world with ⟨e | resolutions, world⟩
    · rfl
    · rfl
  · exact ⟨log', rfl⟩

/-- A recorded render takes the same passes as the render itself. -/
theorem run_traced (n : Nat) (log : List Effect) (r : Replay ω) :
    ∃ log', run program registry.traced context.traced options n (r.traced log) =
      ((run program registry context options n r).1,
        (run program registry context options n r).2.traced log') := by
  induction n generalizing log r with
  | zero => exact ⟨log, rfl⟩
  | succ n ih =>
      obtain ⟨log', h⟩ := advance_traced program registry context options log r
      rw [run_succ, run_succ, h]
      rcases r.advance program registry context options with ⟨_ | result, s⟩
      · exact ih log' s
      · exact ⟨log', rfl⟩

end Replay

end QueryTemplate
