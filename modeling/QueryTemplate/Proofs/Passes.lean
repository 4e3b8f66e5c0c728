import QueryTemplate.Engine
import QueryTemplate.Proofs.Replaying

/-!
What the passes of a render capture. A pass captures what it emits and nothing else, and refusing a
value ends it. `QueryEngine.HasPass` gives the passes that a render makes: one in sequential mode, in
suspending mode one from each state the replay goes through. A render ends with the text and the
captures of its last pass.
-/

namespace QueryTemplate

namespace Emission

/-- What is captured when an emission is asked for: a value that is refused is not captured. -/
def captured (emission : Value × Option String) : List (Option String × Value) :=
  if emission.1.isUndefined then [] else bound emission.1 emission.2

end Emission

namespace PassState

variable {ω : Type}

theorem of_finish_complete {result : Except QueryError String} {s : PassState ω}
    {marked : MarkedQuery} (h : s.finish result = .complete marked) :
    ∃ text, result = .ok text ∧ marked = ⟨text, s.captures⟩ := by
  unfold finish at h
  split at h
  · cases h
  · cases h
  · cases h
    exact ⟨_, rfl, rfl⟩
  · cases h

end PassState

namespace PassScope

variable {ω α : Type} {p : PassScope ω}

/-- The values that a program asks to emit when it is run, with their hints, up to the point where
the pass is suspended. -/
def emissions (p : PassScope ω) : Template.Program α → PassState ω → List (Value × Option String)
  | .done _, _ => []
  | .lookup name next, s => p.emissions (next (p.lookup name s).1) (p.lookup name s).2
  | .call name input args next, s =>
    match p.call name input args s with
    | (some v, s) => p.emissions (next v) s
    | (none, _) => []
  | .emit v hint next, s =>
    if s.isSuspended then []
    else
      (v, hint) ::
        match s.emit v hint with
        | (some text, s) => p.emissions (next text) s
        | (none, _) => []
  | .read object attr next, s => p.emissions (next (p.read object attr s).1) (p.read object attr s).2

theorem captures_lookup (name : String) (s : PassState ω) :
    (p.lookup name s).2.captures = s.captures := by
  rw [lookup]
  cases p.context.get? name with
  | none => rfl
  | some entry =>
      cases entry with
      | value v => rfl
      | deferred produce =>
          simp only [lookupDeferred]
          split
          · rfl
          · split
            · rfl
            · split <;> rfl

theorem captures_callSync (name : String)
    (run : FilterScope → Classified → List Value → ω → Except FilterError Classified × ω)
    (input : Classified) (args : List Value) (s : PassState ω) :
    (p.callSync name run input args s).2.captures = s.captures := by
  simp only [callSync, runSync]
  split
  · rcases run p.filterScope input args s.world with ⟨_ | output, world⟩ <;> rfl
  · split
    · rfl
    · rfl
    · rcases run p.filterScope input args s.world with ⟨_ | output, world⟩ <;> rfl

theorem captures_call (name : String) (input : Value) (args : List Value) (s : PassState ω) :
    (p.call name input args s).2.captures = s.captures := by
  rw [call]
  split
  · rfl
  · split
    · rfl
    · exact captures_callSync _ _ _ _ _
    · simp only [callAsync]
      split
      · rfl
      · split <;> rfl

/-- The captures of a run are those it began with, and what was captured for each emission. -/
theorem captures_run (program : Template.Program α) (s : PassState ω) :
    (p.run program s).2.captures =
      s.captures.extend ((p.emissions program s).flatMap Emission.captured) := by
  induction program generalizing s with
  | done a => rfl
  | lookup name next ih => rw [run_lookup, ih, captures_lookup, emissions]
  | call name input args next ih =>
      have hcaptures := captures_call (p := p) name input args s
      rw [run_call, emissions]
      rcases hcall : p.call name input args s with ⟨_ | v, t⟩ <;> rw [hcall] at hcaptures
      · exact hcaptures
      · rw [← show t.captures = s.captures from hcaptures]
        exact ih v t
  | emit v hint next ih =>
      rw [run_emit, emissions]
      cases hs : s.isSuspended with
      | true => simp [PassState.emit_of_suspended hs]
      | false =>
          have hemit := PassState.emit_eq hs v hint
          rw [if_neg (by simp), List.flatMap_cons, CaptureList.extend_append]
          cases hv : v.isUndefined with
          | true => simp [hemit, Emission.write, Emission.captured, hv, PassState.fail]
          | false =>
              rw [Emission.write, hv] at hemit
              simp [hemit, ih, Emission.captured, hv]
  | read object attr next ih =>
      rw [run_read, ih, emissions]
      rfl

/-- A value that is refused ends the run, with a failure that says so. -/
theorem run_of_undefined {program : Template.Program α} {s : PassState ω} {v : Value}
    {hint : Option String} (h : (v, hint) ∈ p.emissions program s) (hv : v.isUndefined = true) :
    ∃ t : PassState ω, t.isSuspended = false ∧
      p.run program s = (none, t.fail (.undefinedValue (hint.getD "<expression>"))) := by
  induction program generalizing s with
  | done a => contradiction
  | lookup name next ih => exact ih _ h
  | call name input args next ih =>
      rw [emissions] at h
      rw [run_call]
      rcases hcall : p.call name input args s with ⟨_ | w, t⟩ <;> rw [hcall] at h
      · contradiction
      · exact ih w h
  | emit w own next ih =>
      rw [emissions] at h
      cases hs : s.isSuspended with
      | true => simp [hs] at h
      | false =>
          rw [if_neg (by simp [hs])] at h
          rw [run_emit]
          have hemit := PassState.emit_eq hs w own
          rcases List.mem_cons.mp h with hhere | hlater
          · cases hhere
            rw [Emission.write, hv] at hemit
            exact ⟨s, hs, by simp [hemit]⟩
          · rcases hres : s.emit w own with ⟨_ | text, t⟩ <;> rw [hres] at hlater
            · contradiction
            · exact ih text hlater
  | read object attr next ih => exact ih _ h

theorem outcome_of_undefined {program : RenderProgram} {s : PassState ω} {v : Value}
    {hint : Option String} (h : (v, hint) ∈ p.emissions program s) (hv : v.isUndefined = true) :
    ∃ t : PassState ω, (p.run program s).2 = t.fail (.undefinedValue (hint.getD "<expression>")) ∧
      (p.outcome program s).1 =
        .failed (t.failure.getD (.undefinedValue (hint.getD "<expression>"))) := by
  obtain ⟨t, ht, hrun⟩ := run_of_undefined h hv
  refine ⟨t, by rw [hrun], ?_⟩
  have hsuspension : t.suspension = none := by
    simpa [PassState.isSuspended] using ht
  rw [outcome, hrun]
  cases hfailure : t.failure <;> simp [PassState.finish, PassState.fail, hsuspension, hfailure]

/-- A pass that gets through has run its program to the end, without a failure. -/
theorem run_of_complete {program : RenderProgram} {s : PassState ω} {marked : MarkedQuery}
    (h : (p.outcome program s).1 = .complete marked) :
    (p.run program s).1 = some (.ok marked.text) ∧
      marked.captures = (p.run program s).2.captures := by
  rw [outcome] at h
  split at h
  · contradiction
  · rename_i result t _ hrun
    obtain ⟨text, rfl, rfl⟩ := PassState.of_finish_complete h
    exact ⟨by rw [hrun], by rw [hrun]⟩
  · rename_i t hrun
    obtain ⟨text, hresult, -⟩ := PassState.of_finish_complete h
    contradiction

end PassScope

namespace QueryEngine

variable {ω : Type}

/-- A pass that a render of the program makes, and the state it begins in. -/
inductive HasPass (e : QueryEngine ω) (program : RenderProgram) (context : Context ω)
    (options : RenderOptions) (world : ω) : EvalMode → PassScope ω → PassState ω → Prop
  | sequential (hvalid : context.validate = .ok ()) :
    HasPass e program context options world .sequential
      { registry := e.registry, context, options, mode := .sequential } { world }
  | suspending (hvalid : context.validate = .ok ()) {k : Nat} (hk : k < maxPasses) {r : Replay ω}
    (hrun : Replay.run program e.registry context options k { world } = (none, r)) :
    HasPass e program context options world .suspending
      (r.nextPass e.registry context options) r.start

variable {e : QueryEngine ω} {mode : EvalMode} {program : RenderProgram} {context : Context ω}
  {options : RenderOptions} {world : ω} {p : PassScope ω} {s : PassState ω}

theorem HasPass.captures (h : e.HasPass program context options world mode p s) :
    s.captures = {} := by
  cases h <;> rfl

/-- The first pass that fails fails the render. -/
theorem HasPass.of_failed (h : e.HasPass program context options world mode p s)
    {fault : QueryError} (hpass : (p.outcome program s).1 = .failed fault) :
    (e.renderProgram mode program context options world).1 = .error fault := by
  rcases houtcome : p.outcome program s with ⟨outcome, t⟩
  obtain rfl : outcome = .failed fault := by rw [← hpass, houtcome]
  cases h with
  | sequential hvalid =>
      simp only [renderProgram, RenderProgram.renderSequential, hvalid, houtcome]
  | suspending hvalid hk hrun =>
      have hend := Replay.run_of_le (m := _ + 1)
        (by rw [Replay.run_add_one hrun, Replay.advance_eq, houtcome]) hk
      simp only [renderProgram, RenderProgram.renderSuspending, hvalid, hend]

end QueryEngine

namespace Replay

variable {ω : Type} {program : RenderProgram} {registry : FilterRegistry ω} {context : Context ω}
  {options : RenderOptions}

/-- A render that ends with a text has a pass that ends it. -/
theorem exists_complete_of_run {n : Nat} {r r' : Replay ω} {marked : MarkedQuery}
    (h : run program registry context options n r = (some (.ok marked), r')) :
    ∃ k s, k < n ∧ run program registry context options k r = (none, s) ∧
      ((s.nextPass registry context options).outcome program s.start).1 = .complete marked := by
  induction n generalizing r with
  | zero => cases h
  | succ n ih =>
      rw [run_succ] at h
      rcases ha : advance program registry context options r with ⟨_ | result, u⟩ <;> rw [ha] at h
      · obtain ⟨k, s, hk, hrun, hpass⟩ := ih h
        exact ⟨k + 1, s, Nat.succ_lt_succ hk, by rw [run_succ, ha]; exact hrun, hpass⟩
      · cases h
        refine ⟨0, r, Nat.succ_pos n, rfl, ?_⟩
        rw [advance_eq] at ha
        split at ha
        · rename_i houtcome
          cases ha
          rw [houtcome]
        · cases ha
        · split at ha <;> cases ha

end Replay

namespace QueryEngine

variable {ω : Type} {e : QueryEngine ω} {mode : EvalMode} {program : RenderProgram}
  {context : Context ω} {options : RenderOptions} {world : ω}

/-- A render that ends with a text ends with a pass that gets through. -/
theorem exists_hasPass_of_ok {marked : MarkedQuery}
    (h : (e.renderProgram mode program context options world).1 = .ok marked) :
    ∃ p s, e.HasPass program context options world mode p s ∧
      (p.outcome program s).1 = .complete marked := by
  cases mode with
  | sequential =>
      simp only [renderProgram, RenderProgram.renderSequential] at h
      split at h
      · contradiction
      · rename_i hvalid
        refine ⟨_, _, .sequential hvalid, ?_⟩
        split at h
        · rename_i houtcome
          cases h
          rw [houtcome]
        · cases h
        · cases h
  | suspending =>
      rcases hrender : e.renderProgram .suspending program context options world with ⟨result, final⟩
      rw [hrender] at h
      subst h
      simp only [renderProgram, RenderProgram.renderSuspending] at hrender
      split at hrender
      · cases hrender
      · rename_i hvalid
        split at hrender
        · rename_i hrun
          cases hrender
          obtain ⟨k, s, hk, hk', hpass⟩ := Replay.exists_complete_of_run hrun
          exact ⟨_, _, .suspending hvalid hk hk', hpass⟩
        · cases hrender

end QueryEngine

end QueryTemplate
