import QueryTemplate.Proofs.Awaiting
import QueryTemplate.Proofs.Emission

/-!
The tag of a value on its way through the template engine. A tag is carried by the shape of the
value, so it is lost where a parameter without a hint has a value that is raw or has a hint of its
own; `classify` never gives such a tag. A value that goes through filters which return what they are
given therefore comes out as it went in, whether they run or an earlier pass has recorded what they
returned.
-/

namespace QueryTemplate

/-! ### Tags and values -/

namespace Value

def isBound : Value → Bool
  | bound .. => true
  | _ => false

end Value

namespace Classified

/-- A parameter without a hint whose value is a safe string or has a hint of its own: as a value of
the template engine it has another tag. -/
def isRetagged : Classified → Bool
  | parameter value none => value.isSafe || value.isBound
  | _ => false

theorem classify_toValue_iff (c : Classified) : classify c.toValue = c ↔ c.isRetagged = false := by
  cases c with
  | raw text => exact ⟨fun _ => rfl, fun _ => rfl⟩
  | parameter value hint =>
      cases hint with
      | some hint => exact ⟨fun _ => rfl, fun _ => rfl⟩
      | none => cases value <;> simp [toValue, classify, isRetagged, Value.isSafe, Value.isBound]

end Classified

theorem isRetagged_classify (v : Value) : (classify v).isRetagged = false := by
  cases v <;> rfl

theorem toValue_classify (v : Value) : (classify v).toValue = v := by
  cases v <;> rfl

/-! ### What emission depends on -/

namespace PassState

variable {ω : Type} {s t : PassState ω}

/-- The states differ in nothing that emission reads or writes. -/
structure EmitsLike (s t : PassState ω) : Prop where
  captures : t.captures = s.captures
  failure : t.failure = s.failure
  suspension : t.suspension = s.suspension

theorem EmitsLike.refl (s : PassState ω) : s.EmitsLike s :=
  ⟨rfl, rfl, rfl⟩

theorem EmitsLike.trans {u : PassState ω} (h : s.EmitsLike t) (h' : t.EmitsLike u) :
    s.EmitsLike u :=
  ⟨h'.captures.trans h.captures, h'.failure.trans h.failure, h'.suspension.trans h.suspension⟩

theorem EmitsLike.isSuspended (h : s.EmitsLike t) : t.isSuspended = s.isSuspended := by
  rw [PassState.isSuspended, h.suspension, PassState.isSuspended]

theorem EmitsLike.emit (h : s.EmitsLike t) (v : Value) (hint : Option String) :
    (t.emit v hint).1 = (s.emit v hint).1 ∧ (s.emit v hint).2.EmitsLike (t.emit v hint).2 := by
  cases hs : s.isSuspended with
  | true =>
      rw [emit_of_suspended hs, emit_of_suspended (h.isSuspended.trans hs)]
      exact ⟨rfl, h⟩
  | false =>
      rw [emit_eq hs, emit_eq (h.isSuspended.trans hs), h.captures]
      cases Emission.write v hint s.captures with
      | ok written => exact ⟨rfl, rfl, h.failure, h.suspension⟩
      | error e => exact ⟨rfl, h.captures, congrArg (·.or (some e)) h.failure, h.suspension⟩

end PassState

/-! ### Chains of filters -/

/-- A filter that is applied in a chain, with its arguments. -/
structure FilterStep where
  name : String
  args : List Value

/-- Applies filters to a value, one after the other, and goes on with what comes out. -/
def Template.Program.applyAll {α : Type} (next : Value → Program α) :
    List FilterStep → Value → Program α
  | [], v => next v
  | step :: rest, v => .call step.name v step.args fun w => applyAll next rest w

namespace Filter

variable {ω : Type}

/-- What a filter may return for an input, at once or once it has been awaited. -/
inductive Returns (scope : FilterScope) (input : Classified) (args : List Value)
    (output : Classified) : Filter ω → Prop where
  | sync {run : FilterScope → Classified → List Value → ω → Except FilterError Classified × ω}
    {w : ω} (h : (run scope input args w).1 = .ok output) :
    Returns scope input args output (.sync run)
  | async {start : FilterScope → Classified → List Value → ω → Future ω Classified × ω}
    {w w' : ω} (h : ((start scope input args w).1 w').1 = .ok output) :
    Returns scope input args output (.async start)

/-- The filter returns every input as it came. -/
def IsUnchanging : Filter ω → Prop
  | sync run => ∀ scope input args w, (run scope input args w).1 = .ok input
  | async start => ∀ scope input args w w', ((start scope input args w).1 w').1 = .ok input

theorem IsUnchanging.eq_of_returns {filter : Filter ω} (h : filter.IsUnchanging)
    {scope : FilterScope} {input output : Classified} {args : List Value}
    (hreturns : filter.Returns scope input args output) : output = input := by
  cases hreturns with
  | sync hrun => exact (Except.ok.inj ((h scope input args _).symm.trans hrun)).symm
  | async hstart => exact (Except.ok.inj ((h scope input args _ _).symm.trans hstart)).symm

end Filter

namespace PassScope

variable {ω α : Type} {p : PassScope ω} {step : FilterStep} {v : Value} {s t : PassState ω}

/-- A call of the filter has an answer: the filter runs, or an earlier pass has recorded what it
returned for the same input. -/
inductive Answered (p : PassScope ω) (step : FilterStep) (v : Value) (s : PassState ω) : Prop where
  | sequential
    {run : FilterScope → Classified → List Value → ω → Except FilterError Classified × ω}
    (hmode : p.mode = .sequential) (hfilter : p.registry.resolve step.name = .ok (.sync run))
  | first {run : FilterScope → Classified → List Value → ω → Except FilterError Classified × ω}
    (hmode : p.mode = .suspending) (hfilter : p.registry.resolve step.name = .ok (.sync run))
    (hnew : s.outputs[s.syncCalls]? = none)
  | again {run : FilterScope → Classified → List Value → ω → Except FilterError Classified × ω}
    {output : Classified} (hmode : p.mode = .suspending)
    (hfilter : p.registry.resolve step.name = .ok (.sync run))
    (hrecorded : s.outputs[s.syncCalls]? = some (step.name, output))
    (hreturns : (Filter.sync run).Returns p.filterScope (classify v) step.args output)
  | awaited {start : FilterScope → Classified → List Value → ω → Future ω Classified × ω}
    {output : Classified} (hmode : p.mode = .suspending)
    (hfilter : p.registry.resolve step.name = .ok (.async start))
    (hrecorded : p.resolutions.filters[s.asyncCalls]? = some (step.name, output))
    (hreturns : (Filter.async start).Returns p.filterScope (classify v) step.args output)

/-- Every call of a chain has an answer when it is made. -/
def AllAnswered (p : PassScope ω) : List FilterStep → Value → PassState ω → Prop
  | [], _, _ => True
  | step :: rest, v, s =>
    p.Answered step v s ∧
      ∀ w t, p.call step.name v step.args s = (some w, t) → p.AllAnswered rest w t

/-- A call that has an answer returns what the filter may return, and changes nothing for what is
emitted later; it comes to no result only if the filter runs and fails. -/
theorem call_of_answered (hs : s.isSuspended = false) (h : p.Answered step v s) :
    ∃ filter, p.registry.resolve step.name = .ok filter ∧
      ((∃ output t, filter.Returns p.filterScope (classify v) step.args output ∧
          p.call step.name v step.args s = (some output.toValue, t) ∧ s.EmitsLike t) ∨
        ∃ run e t w, filter = .sync run ∧
          (run p.filterScope (classify v) step.args w).1 = .error e ∧
          p.call step.name v step.args s = (none, t)) := by
  cases h with
  | @sequential run hmode hfilter =>
      refine ⟨_, hfilter, ?_⟩
      simp only [call, hs, hfilter, callSync, hmode, runSync]
      rcases hrun : run p.filterScope (classify v) step.args s.world with ⟨e | output, w⟩
      · exact .inr ⟨run, e, _, s.world, rfl, by rw [hrun], rfl⟩
      · exact .inl ⟨output, _, .sync (w := s.world) (by rw [hrun]), rfl, rfl, rfl, rfl⟩
  | @first run hmode hfilter hnew =>
      refine ⟨_, hfilter, ?_⟩
      simp only [call, hs, hfilter, callSync, hmode, runSync, CallLog.output, hnew]
      rcases hrun : run p.filterScope (classify v) step.args s.world with ⟨e | output, w⟩
      · exact .inr ⟨run, e, _, s.world, rfl, by rw [hrun], rfl⟩
      · exact .inl ⟨output, _, .sync (w := s.world) (by rw [hrun]), rfl, rfl, rfl, rfl⟩
  | @again run output hmode hfilter hrecorded hreturns =>
      refine ⟨_, hfilter, .inl ⟨output, { s with syncCalls := s.syncCalls + 1 }, hreturns, ?_,
        rfl, rfl, rfl⟩⟩
      simp [call, hs, hfilter, callSync, hmode, CallLog.output, hrecorded]
  | @awaited start output hmode hfilter hrecorded hreturns =>
      refine ⟨_, hfilter, .inl ⟨output, { s with asyncCalls := s.asyncCalls + 1 }, hreturns, ?_,
        rfl, rfl, rfl⟩⟩
      simp [call, hs, hfilter, callAsync, hmode, Resolutions.filter, CallLog.output, hrecorded]

/-- A filter that returns its input unchanged answers with the value it is applied to. -/
theorem call_of_isUnchanging (hs : s.isSuspended = false) (h : p.Answered step v s)
    (hunchanging : ∀ filter, p.registry.resolve step.name = .ok filter → filter.IsUnchanging) :
    ∃ t, p.call step.name v step.args s = (some v, t) ∧ s.EmitsLike t := by
  obtain ⟨filter, hfilter, ⟨output, t, hreturns, hcall, hlike⟩ | ⟨run, e, _, w, rfl, hfails, -⟩⟩ :=
    call_of_answered hs h
  · rw [(hunchanging filter hfilter).eq_of_returns hreturns, toValue_classify] at hcall
    exact ⟨t, hcall, hlike⟩
  · rw [hunchanging _ hfilter] at hfails
    cases hfails

/-- A chain of filters that return their inputs unchanged goes on with the value it began with. -/
theorem run_applyAll_of_isUnchanging {steps : List FilterStep} (hs : s.isSuspended = false)
    (hunchanging : ∀ step ∈ steps, ∀ filter, p.registry.resolve step.name = .ok filter →
      filter.IsUnchanging)
    (h : p.AllAnswered steps v s) (next : Value → Template.Program α) :
    ∃ t, p.run (.applyAll next steps v) s = p.run (next v) t ∧ s.EmitsLike t := by
  induction steps generalizing s with
  | nil => exact ⟨s, rfl, .refl s⟩
  | cons step rest ih =>
      obtain ⟨hfirst, hrest⟩ := List.forall_mem_cons.mp hunchanging
      obtain ⟨t, hcall, hlike⟩ := call_of_isUnchanging hs h.1 hfirst
      obtain ⟨u, hrun, hlike'⟩ := ih (hlike.isSuspended.trans hs) hrest (h.2 v t hcall)
      refine ⟨u, ?_, hlike.trans hlike'⟩
      rw [Template.Program.applyAll, run_call_of_answered hcall, hrun]

/-- A sequential pass answers every chain of sync filters. -/
theorem allAnswered_sequential (hmode : p.mode = .sequential) {steps : List FilterStep}
    (hsync : ∀ step ∈ steps, ∃ run, p.registry.resolve step.name = .ok (.sync run)) (v : Value)
    (s : PassState ω) : p.AllAnswered steps v s := by
  induction steps generalizing v s with
  | nil => trivial
  | cons step rest ih =>
      obtain ⟨⟨run, hfilter⟩, hrest⟩ := List.forall_mem_cons.mp hsync
      exact ⟨.sequential hmode hfilter, fun w t _ => ih hrest w t⟩

/-- A call that is made for the first time runs the filter and records what it returns. -/
theorem call_first (hmode : p.mode = .suspending)
    {run : FilterScope → Classified → List Value → ω → Except FilterError Classified × ω}
    (hfilter : p.registry.resolve step.name = .ok (.sync run)) (hs : s.isSuspended = false)
    (hnew : s.outputs.length = s.syncCalls) {w : Value}
    (hcall : p.call step.name v step.args s = (some w, t)) :
    ∃ output, (Filter.sync run).Returns p.filterScope (classify v) step.args output ∧
      w = output.toValue ∧ t.isSuspended = false ∧ t.syncCalls = s.syncCalls + 1 ∧
      t.outputs = s.outputs ++ [(step.name, output)] := by
  simp only [call, hs, hfilter, callSync, hmode, runSync, ← hnew, CallLog.output_length] at hcall
  rcases houtput : run p.filterScope (classify v) step.args s.world with ⟨e | output, world⟩
  · simp [houtput] at hcall
  · simp only [houtput, Bool.false_eq_true, if_false, CallLog.record_length] at hcall
    cases hcall
    exact ⟨output, .sync (w := s.world) (by rw [houtput]), rfl, hs, by rw [hnew], rfl⟩

/-- A chain that a pass has made for the first time has its answers in every later pass, whatever
else has been recorded by then. -/
theorem allAnswered_again (hmode : p.mode = .suspending) {steps : List FilterStep}
    (hsync : ∀ step ∈ steps, ∃ run, p.registry.resolve step.name = .ok (.sync run))
    (hs : s.isSuspended = false) (hnew : s.outputs.length = s.syncCalls) {w : Value}
    (hrun : p.run (.applyAll .done steps v) s = (some w, t)) {u : PassState ω}
    (hu : u.isSuspended = false) (hcalls : u.syncCalls = s.syncCalls)
    (houtputs : t.outputs <+: u.outputs) (resolutions : Resolutions) :
    { p with resolutions }.AllAnswered steps v u := by
  induction steps generalizing v s u with
  | nil => trivial
  | cons step rest ih =>
      obtain ⟨⟨run, hfilter⟩, hrest⟩ := List.forall_mem_cons.mp hsync
      rw [Template.Program.applyAll, run_call] at hrun
      rcases hcall : p.call step.name v step.args s with ⟨_ | x, s'⟩ <;> rw [hcall] at hrun
      · cases hrun
      · obtain ⟨output, hreturns, rfl, hs', hcalls', hlog⟩ := call_first hmode hfilter hs hnew hcall
        have hlater : s.outputs ++ [(step.name, output)] <+: u.outputs := by
          rw [← hlog]
          exact (show s'.outputs <+: t.outputs from
            (congrArg (·.2.outputs) hrun) ▸ (p.grows_run _ s').outputs).trans houtputs
        have hrecorded : u.outputs[u.syncCalls]? = some (step.name, output) := by
          obtain ⟨more, hmore⟩ := hlater
          rw [← hmore, hcalls, ← hnew]
          simp
        refine ⟨.again hmode hfilter hrecorded hreturns, fun x u' hagain => ?_⟩
        simp only [call, hu, hfilter, callSync, hmode, CallLog.output, hrecorded] at hagain
        cases hagain
        exact ih hrest hs' (by rw [hlog, hcalls', ← hnew, List.length_append]; rfl) hrun hu
          (by rw [hcalls', hcalls]) houtputs

/-- Emitting what comes out of a chain of filters that return their inputs unchanged is emitting what
went in. -/
theorem emit_applyAll_of_isUnchanging {steps : List FilterStep}
    (hunchanging : ∀ step ∈ steps, ∀ filter, p.registry.resolve step.name = .ok filter →
      filter.IsUnchanging)
    (h : p.AllAnswered steps v s) (hint : Option String) :
    (p.run (.applyAll (fun w => .emit w hint .done) steps v) s).1 = (s.emit v hint).1 ∧
      (s.emit v hint).2.EmitsLike
        (p.run (.applyAll (fun w => .emit w hint .done) steps v) s).2 := by
  have hrun (u : PassState ω) : p.run (.emit v hint .done) u = u.emit v hint := by
    rw [run_emit]
    rcases u.emit v hint with ⟨_ | text, _⟩ <;> rfl
  cases hs : s.isSuspended with
  | false =>
      obtain ⟨t, ht, hlike⟩ := run_applyAll_of_isUnchanging hs hunchanging h
        fun w => .emit w hint .done
      rw [ht, hrun]
      exact hlike.emit v hint
  | true =>
      -- nothing is answered any more, neither the first call nor the emission
      cases steps with
      | nil =>
          rw [Template.Program.applyAll, hrun]
          exact ⟨rfl, .refl _⟩
      | cons step rest =>
          have hcall : p.call step.name v step.args s = (none, s) := by simp [call, hs]
          rw [Template.Program.applyAll, run_call_of_suspended hcall,
            PassState.emit_of_suspended hs]
          exact ⟨rfl, .refl s⟩

end PassScope

/-- The tag of a value survives the template engine, exactly when it can: all tags do but that of a
parameter without a hint whose value is a safe string or has a hint of its own, and `classify` gives
no such tag. What filters return that return their inputs unchanged is therefore emitted like the
value they were applied to, whether the filters run in this pass or an earlier one has recorded what
they returned. Sync filters run in a sequential pass, and what a pass has recorded of them answers
every later pass. -/
theorem tag_survives {ω : Type} :
    (∀ c : Classified, classify c.toValue = c ↔ c.isRetagged = false) ∧
    (∀ v : Value, (classify v).isRetagged = false) ∧
    ∀ (p : PassScope ω) (steps : List FilterStep) (v : Value) (hint : Option String),
      (∀ step ∈ steps, ∀ filter, p.registry.resolve step.name = .ok filter →
        filter.IsUnchanging) →
      (∀ s : PassState ω, p.AllAnswered steps v s →
        (p.run (.applyAll (fun w => .emit w hint .done) steps v) s).1 = (s.emit v hint).1 ∧
          (s.emit v hint).2.EmitsLike
            (p.run (.applyAll (fun w => .emit w hint .done) steps v) s).2) ∧
      ((∀ step ∈ steps, ∃ run, p.registry.resolve step.name = .ok (.sync run)) →
        (p.mode = .sequential → ∀ s : PassState ω, p.AllAnswered steps v s) ∧
        (p.mode = .suspending →
          ∀ (s t : PassState ω) (w : Value), s.isSuspended = false →
            s.outputs.length = s.syncCalls → p.run (.applyAll .done steps v) s = (some w, t) →
            ∀ (resolutions : Resolutions) (u : PassState ω), u.isSuspended = false →
              u.syncCalls = s.syncCalls → t.outputs <+: u.outputs →
              { p with resolutions }.AllAnswered steps v u)) := by
  refine ⟨Classified.classify_toValue_iff, isRetagged_classify, fun p steps v hint hunchanging =>
    ⟨fun s h => PassScope.emit_applyAll_of_isUnchanging hunchanging h hint, fun hsync => ⟨?_, ?_⟩⟩⟩
  · exact fun hmode s => PassScope.allAnswered_sequential hmode hsync v s
  · intro hmode s t w hs hnew hrun resolutions u hu hcalls houtputs
    exact PassScope.allAnswered_again hmode hsync hs hnew hrun hu hcalls houtputs resolutions

/-- Raw text that goes twice through a filter, the second time from the record of an earlier pass,
is written as it is. -/
theorem tag_survives_recorded :
    let keep : Filter Unit := .ofFunction fun _ input _ => .ok input
    let p : PassScope Unit :=
      { registry := { filters := [("keep", keep)] }, context := {}, options := {}
        mode := .suspending }
    let steps : List FilterStep := [⟨"keep", []⟩, ⟨"keep", []⟩]
    let s : PassState Unit :=
      { outputs := [("keep", .raw "now()"), ("keep", .raw "now()")], world := () }
    keep.IsUnchanging ∧ p.AllAnswered steps (.safe "now()") s ∧
      (p.run (.applyAll (fun w => .emit w none .done) steps (.safe "now()")) s).1 =
        some "now()" := by
  intro keep p steps s
  have hkeep : keep.IsUnchanging := fun _ _ _ _ => rfl
  have hresolve : ∀ step ∈ steps, p.registry.resolve step.name = .ok keep := by
    simp only [steps, List.forall_mem_cons]
    exact ⟨rfl, rfl, by simp⟩
  have hsurvives := tag_survives.2.2 p steps (.safe "now()") none
    fun step hstep filter hfilter => by
      rw [hresolve step hstep] at hfilter
      cases hfilter
      exact hkeep
  have hlater : p.AllAnswered steps (.safe "now()") s :=
    (hsurvives.2 fun step hstep => ⟨_, hresolve step hstep⟩).2 rfl { world := () }
      { s with syncCalls := 2 } (.safe "now()") rfl rfl rfl {} s rfl rfl List.prefix_rfl
  exact ⟨hkeep, hlater, (hsurvives.1 s hlater).1⟩

end QueryTemplate
