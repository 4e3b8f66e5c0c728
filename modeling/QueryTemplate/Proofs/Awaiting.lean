import QueryTemplate.Proofs.Direct

/-!
A pass and what is awaited after it. `PassScope.runAwaiting` goes through a program like a pass of a
suspending render, with all the records of earlier passes, but where a pass would be abandoned it
awaits the computation, records the result and goes on. Its result does not change when a pass is
run first, the computation the pass waits for is awaited, and the records of the pass are kept:
this is what `runAwaiting_eq_resume` says, and it is the reason why replaying a program gets one
step further with each pass.
-/

namespace QueryTemplate

namespace CallLog

theorem output_of_isPrefix {log log' : CallLog} (h : log <+: log') {ordinal : Nat} {name : String}
    {v : Classified} (hv : log.output ordinal name = .ok (some v)) :
    log'.output ordinal name = .ok (some v) := by
  obtain ⟨more, rfl⟩ := h
  unfold output at hv ⊢
  cases hlog : log[ordinal]? with
  | none => simp [hlog] at hv
  | some entry =>
      obtain ⟨hlt, -⟩ := List.getElem?_eq_some_iff.mp hlog
      rw [List.getElem?_append_left hlt]
      exact hv

theorem length_le_of_output {log : CallLog} {ordinal : Nat} {name : String}
    (h : log.output ordinal name = .ok none) : log.length ≤ ordinal := by
  unfold output at h
  cases hlog : log[ordinal]? with
  | none => exact List.getElem?_eq_none_iff.mp hlog
  | some entry =>
      rw [hlog] at h
      simp only at h
      split at h <;> cases h

theorem lt_length_of_output {log : CallLog} {ordinal : Nat} {name : String} {v : Classified}
    (h : log.output ordinal name = .ok (some v)) : ordinal < log.length := by
  unfold output at h
  cases hlog : log[ordinal]? with
  | none => simp [hlog] at h
  | some entry => exact (List.getElem?_eq_some_iff.mp hlog).1

theorem output_length (log : CallLog) (name : String) : log.output log.length name = .ok none := by
  simp [output]

theorem output_append (log : CallLog) (name : String) (v : Classified) :
    CallLog.output (log ++ [(name, v)]) log.length name = .ok (some v) := by
  simp [output]

theorem record_length (log : CallLog) (name : String) (v : Classified) :
    log.record log.length name v = log ++ [(name, v)] := by
  simp [record]

theorem isPrefix_record (log : CallLog) (ordinal : Nat) (name : String) (v : Classified) :
    log <+: log.record ordinal name v := by
  unfold record
  split
  · exact List.prefix_append _ _
  · exact List.prefix_rfl

end CallLog

namespace Suspension

variable {ω : Type}

/-- What is waited for has no result yet. -/
def Fresh (r : Resolutions) : Suspension ω → Prop
  | lookup name _ => r.lookup? name = none
  | filter .. => True

end Suspension

namespace Resolutions

/-- Everything that `r` has a result for has the same one in `r'`. -/
structure Extends (r r' : Resolutions) : Prop where
  lookup : ∀ {name v}, r.lookup? name = some v → r'.lookup? name = some v
  filters : r.filters <+: r'.filters

theorem insertLookup_of_lookup_eq_none {name : String} {v : Value} {lookups : List (String × Value)}
    (h : lookups.lookup name = none) : insertLookup name v lookups = lookups ++ [(name, v)] := by
  induction lookups with
  | nil => rfl
  | cons entry rest ih =>
      obtain ⟨n, w⟩ := entry
      by_cases hn : name = n
      · simp [hn] at h
      · rw [List.lookup_cons, beq_eq_false_iff_ne.mpr hn] at h
        rw [insertLookup, if_neg (Ne.symm hn), ih h, List.cons_append]

variable {ω : Type} {r r' : Resolutions} {pending : Suspension ω} {w w' : ω}

/-- Awaiting something that has no result yet adds one result. -/
theorem resolve_extends (hfresh : pending.Fresh r) (h : r.resolve pending w = (.ok r', w')) :
    r.Extends r' ∧ r'.length = r.length + 1 := by
  cases pending with
  | lookup name future =>
      rw [resolve] at h
      rcases hf : future w with ⟨_ | v, w₁⟩
      · simp [hf] at h
      · rw [hf] at h
        simp only [insertLookup_of_lookup_eq_none hfresh] at h
        cases h
        refine ⟨⟨fun {n v'} hv => ?_, List.prefix_rfl⟩, ?_⟩
        · rw [lookup?, List.lookup_append, show r.lookups.lookup n = some v' from hv]
          rfl
        · simp only [length, List.length_append, List.length_singleton]
          omega
  | filter name ordinal future =>
      rw [resolve] at h
      split at h
      · rcases hf : future w with ⟨_ | v, w₁⟩
        · simp [hf] at h
        · rw [hf] at h
          cases h
          refine ⟨⟨fun {_ _} hv => hv, List.prefix_append _ _⟩, ?_⟩
          simp only [length, List.length_append, List.length_singleton]
          omega
      · simp at h

end Resolutions

namespace PassState

variable {ω : Type}

/-- The pass goes on, nothing has failed, and no call it made is beyond the next one to be
recorded. -/
structure InStep (r : Resolutions) (s : PassState ω) : Prop where
  running : s.suspension = none
  clean : s.failure = none
  sync : s.syncCalls ≤ s.outputs.length
  async : s.asyncCalls ≤ r.filters.length

theorem InStep.isSuspended {r : Resolutions} {s : PassState ω} (h : s.InStep r) :
    s.isSuspended = false := by
  simp [PassState.isSuspended, h.running]

end PassState

namespace PassScope

variable {ω α : Type} {p : PassScope ω}

theorem run_lookup (name : String) (next : Option Value → Template.Program α) (s : PassState ω) :
    p.run (.lookup name next) s = p.run (next (p.lookup name s).1) (p.lookup name s).2 := rfl

theorem run_call (name : String) (input : Value) (args : List Value)
    (next : Value → Template.Program α) (s : PassState ω) :
    p.run (.call name input args next) s =
      match p.call name input args s with
      | (some v, s) => p.run (next v) s
      | (none, s) => (none, s) := by
  rcases hcall : p.call name input args s with ⟨_ | v, t⟩
  · simp only [run, hcall]
  · simp only [run, hcall]

theorem run_emit (v : Value) (hint : Option String) (next : String → Template.Program α)
    (s : PassState ω) :
    p.run (.emit v hint next) s =
      match s.emit v hint with
      | (some text, s) => p.run (next text) s
      | (none, s) => (none, s) := by
  rcases hemit : s.emit v hint with ⟨_ | text, t⟩
  · simp only [run, hemit]
  · simp only [run, hemit]

theorem run_read (object : Nat) (attr : String) (next : Option Value → Template.Program α)
    (s : PassState ω) :
    p.run (.read object attr next) s =
      p.run (next (p.read object attr s).1) (p.read object attr s).2 := rfl

/-! ### What a pass leaves as it is -/

/-- What every request of a pass keeps between two of its states, every run of the pass keeps. -/
theorem run_induction {Q : PassState ω → PassState ω → Prop} (refl : ∀ s, Q s s)
    (trans : ∀ {s t u}, Q s t → Q t u → Q s u) (lookup : ∀ name s, Q s (p.lookup name s).2)
    (call : ∀ name input args s, Q s (p.call name input args s).2)
    (emit : ∀ v hint s, Q s (s.emit v hint).2)
    (read : ∀ object attr s, Q s (p.read object attr s).2)
    (program : Template.Program α) (s : PassState ω) : Q s (p.run program s).2 := by
  induction program generalizing s with
  | done a => exact refl s
  | lookup name next ih => exact trans (lookup name s) (ih _ _)
  | call name input args next ih =>
      have hcall := call name input args s
      rw [run]
      rcases hp : p.call name input args s with ⟨_ | v, t⟩ <;> rw [hp] at hcall
      · exact hcall
      · exact trans hcall (ih v t)
  | emit v hint next ih =>
      have hemit := emit v hint s
      rw [run]
      rcases hs : s.emit v hint with ⟨_ | text, t⟩ <;> rw [hs] at hemit
      · exact hemit
      · exact trans hemit (ih text t)
  | read object attr next ih => exact trans (read object attr s) (ih _ _)

theorem lookup_of_isSuspended {s : PassState ω} (h : s.isSuspended = true) (name : String) :
    (p.lookup name s).2 = s := by
  rw [lookup]
  cases p.context.get? name with
  | none => rfl
  | some entry =>
      cases entry with
      | value v => rfl
      | deferred produce => simp [lookupDeferred, h]

/-- A suspended pass stays as it is, whatever the program goes on to do. -/
theorem run_of_isSuspended {program : Template.Program α}
    (hdet : program.Deterministic p.context.readAttribute) {s : PassState ω}
    (h : s.isSuspended = true) : (p.run program s).2 = s := by
  induction program with
  | done a => rfl
  | lookup name next ih =>
      rw [run_lookup, lookup_of_isSuspended h]
      exact ih _ (hdet _)
  | call name input args next ih => simp [run_call, call, h]
  | emit v hint next ih => simp [run_emit, PassState.emit_of_suspended h]
  | read object attr next ih =>
      obtain ⟨⟨v, hv⟩, hnext⟩ := hdet
      rw [run_read, PassScope.read, hv]
      exact ih _ (hnext _)

/-- How a pass changes: outputs are only added, and it waits for what has no result yet. -/
structure Grows (p : PassScope ω) (s t : PassState ω) : Prop where
  outputs : s.outputs <+: t.outputs
  fresh : ∀ pending, t.suspension = some pending →
    s.suspension = some pending ∨ pending.Fresh p.resolutions

theorem Grows.of_eq {s t : PassState ω} (houtputs : t.outputs = s.outputs)
    (hsuspension : t.suspension = s.suspension) : p.Grows s t :=
  ⟨houtputs ▸ List.prefix_rfl, fun _ h => .inl (hsuspension ▸ h)⟩

theorem Grows.trans {s t u : PassState ω} (h : p.Grows s t) (h' : p.Grows t u) : p.Grows s u := by
  refine ⟨h.outputs.trans h'.outputs, fun pending hu => ?_⟩
  rcases h'.fresh pending hu with ht | hfresh
  · exact h.fresh pending ht
  · exact .inr hfresh

theorem Grows.suspend {s t : PassState ω} {pending : Suspension ω}
    (houtputs : t.outputs = s.outputs)
    (hsuspension : t.suspension = s.suspension) (hfresh : pending.Fresh p.resolutions) :
    p.Grows s (t.suspend pending) := by
  refine ⟨houtputs ▸ List.prefix_rfl, fun q hq => ?_⟩
  simp only [PassState.suspend, hsuspension] at hq
  cases hs : s.suspension with
  | none =>
      rw [hs] at hq
      cases hq
      exact .inr hfresh
  | some q' =>
      rw [hs] at hq
      exact .inl hq

theorem grows_lookup (name : String) (s : PassState ω) : p.Grows s (p.lookup name s).2 := by
  rw [lookup]
  cases p.context.get? name with
  | none => exact .of_eq rfl rfl
  | some entry =>
      cases entry with
      | value v => exact .of_eq rfl rfl
      | deferred produce =>
          simp only [lookupDeferred]
          split
          · exact .of_eq rfl rfl
          · split
            · exact .of_eq rfl rfl
            · split
              · exact .of_eq rfl rfl
              · exact .suspend rfl rfl ‹_›

theorem grows_callSync (name : String)
    (run : FilterScope → Classified → List Value → ω → Except FilterError Classified × ω)
    (input : Classified) (args : List Value) (s : PassState ω) :
    p.Grows s (p.callSync name run input args s).2 := by
  simp only [callSync, runSync]
  cases p.mode with
  | sequential =>
      rcases run p.filterScope input args s.world with ⟨_ | output, world⟩
      · exact .of_eq rfl rfl
      · exact .of_eq rfl rfl
  | suspending =>
      rcases s.outputs.output s.syncCalls name with e | _ | output
      · exact .of_eq rfl rfl
      · rcases run p.filterScope input args s.world with ⟨_ | output, world⟩
        · exact .of_eq rfl rfl
        · exact ⟨CallLog.isPrefix_record _ _ _ _, fun _ h => .inl h⟩
      · exact .of_eq rfl rfl

theorem grows_callAsync (name : String)
    (start : FilterScope → Classified → List Value → ω → Future ω Classified × ω)
    (input : Classified) (args : List Value) (s : PassState ω) :
    p.Grows s (p.callAsync name start input args s).2 := by
  simp only [callAsync]
  split
  · exact .of_eq rfl rfl
  · split
    · exact .of_eq rfl rfl
    · exact .of_eq rfl rfl
    · exact .suspend rfl rfl trivial

theorem grows_call (name : String) (input : Value) (args : List Value) (s : PassState ω) :
    p.Grows s (p.call name input args s).2 := by
  rw [call]
  split
  · exact .of_eq rfl rfl
  · split
    · exact .of_eq rfl rfl
    · exact grows_callSync _ _ _ _ _
    · exact grows_callAsync _ _ _ _ _

theorem grows_emit (v : Value) (hint : Option String) (s : PassState ω) :
    p.Grows s (s.emit v hint).2 := by
  cases h : s.isSuspended with
  | true =>
      rw [PassState.emit_of_suspended h]
      exact .of_eq rfl rfl
  | false =>
      rw [PassState.emit_eq h]
      split <;> exact .of_eq rfl rfl

theorem grows_run (program : Template.Program α) (s : PassState ω) :
    p.Grows s (p.run program s).2 :=
  run_induction (fun _ => .of_eq rfl rfl) .trans grows_lookup grows_call grows_emit
    (fun _ _ _ => .of_eq rfl rfl) program s

/-! ### Awaiting on the spot -/

/-- Runs a program like a pass, but awaits on the spot what a pass would be abandoned for. -/
def runAwaiting (p : PassScope ω) :
    Template.Program α → Resolutions → PassState ω → Option α × Resolutions × PassState ω
  | .done a, r, s => (some a, r, s)
  | .lookup name next, r, s =>
    match p.context.get? name with
    | none => p.runAwaiting (next none) r s
    | some (.value v) => p.runAwaiting (next (some v)) r s
    | some (.deferred produce) =>
      match r.lookup? name with
      | some v => p.runAwaiting (next (some v)) r s
      | none =>
        match awaitOn produce s.world with
        | (.ok v, world) =>
          p.runAwaiting (next (some v))
            { r with lookups := Resolutions.insertLookup name v r.lookups } { s with world }
        | (.error e, world) => (none, r, { s with world }.fail (.deferredValue name e))
  | .call name input args next, r, s =>
    match p.registry.resolve name with
    | .error e => (none, r, s.fail e)
    | .ok (.sync run) =>
      match p.callSync name run (classify input) args s with
      | (some v, s) => p.runAwaiting (next v) r s
      | (none, s) => (none, r, s)
    | .ok (.async start) =>
      let called := { s with asyncCalls := s.asyncCalls + 1 }
      match r.filter s.asyncCalls name with
      | .ok (some output) => p.runAwaiting (next output.toValue) r called
      | .error e => (none, r, called.fail e)
      | .ok none =>
        match awaitOn (start p.filterScope (classify input) args) s.world with
        | (.ok output, world) =>
          p.runAwaiting (next output.toValue) { r with filters := r.filters ++ [(name, output)] }
            { called with world }
        | (.error e, world) => (none, r, { called with world }.fail (.filterExecution name e))
  | .emit v hint next, r, s =>
    match s.emit v hint with
    | (some text, s) => p.runAwaiting (next text) r s
    | (none, s) => (none, r, s)
  | .read object attr next, r, s =>
    p.runAwaiting (next (p.read object attr s).1) r (p.read object attr s).2

-- What it does with a program is read off the program's first operation.
attribute [local simp] runAwaiting

/-- Goes on after a pass that began in `s`: awaits what the pass waits for, if there is anything,
and runs the program again from `s` with the records there are now. -/
def resume (p : PassScope ω) (program : Template.Program α) (r : Resolutions) (s : PassState ω) :
    Option α × PassState ω → Option α × Resolutions × PassState ω
  | (a, t) =>
    match t.suspension with
    | none => (a, r, t)
    | some pending =>
      match r.resolve pending t.world with
      | (.ok r', world) => p.runAwaiting program r' { s with outputs := t.outputs, world }
      | (.error e, world) =>
        (none, r, { t with suspension := none, failure := some e, world })

section Resume

variable {program : Template.Program α} {s t : PassState ω}

/-- A pass that ends without waiting for anything is all there is to do. -/
theorem resume_of_suspension_eq_none (a : Option α) (r : Resolutions) (h : t.suspension = none) :
    p.resume program r s (a, t) = (a, r, t) := by
  simp only [resume, h]

theorem resume_of_suspension_eq_some (a : Option α) (r : Resolutions) (pending : Suspension ω)
    (h : t.suspension = some pending) :
    p.resume program r s (a, t) =
      match r.resolve pending t.world with
      | (.ok r', world) => p.runAwaiting program r' { s with outputs := t.outputs, world }
      | (.error e, world) =>
        (none, r, { t with suspension := none, failure := some e, world }) := by
  simp only [resume, h]

/-- A request that is answered without waiting, and in the same way whenever it is made again, may
be left out of the comparison of `runAwaiting` and `resume`. -/
theorem resume_of_step (next : Template.Program α) (s' : PassState ω)
    (hrun : p.run program s = p.run next s')
    (hnow : p.runAwaiting program p.resolutions s = p.runAwaiting next p.resolutions s')
    (hlater : ∀ r outputs world, p.resolutions.Extends r → s'.outputs <+: outputs →
      p.runAwaiting program r { s with outputs, world } =
        p.runAwaiting next r { s' with outputs, world })
    (hs : s'.suspension = none)
    (ih : p.runAwaiting next p.resolutions s' = p.resume next p.resolutions s' (p.run next s')) :
    p.runAwaiting program p.resolutions s =
      p.resume program p.resolutions s (p.run program s) := by
  -- both programs wait for the same thing, and only then does the request come up again
  rw [hnow, ih, hrun]
  have hgrows := p.grows_run next s'
  rcases hp : p.run next s' with ⟨a, t⟩
  rw [hp] at hgrows
  cases ht : t.suspension with
  | none => rw [resume_of_suspension_eq_none _ _ ht, resume_of_suspension_eq_none _ _ ht]
  | some pending =>
      have hfresh : pending.Fresh p.resolutions :=
        (hgrows.fresh pending ht).resolve_left (by simp [hs])
      rw [resume_of_suspension_eq_some _ _ _ ht, resume_of_suspension_eq_some _ _ _ ht]
      rcases hr : p.resolutions.resolve pending t.world with ⟨e | r, world⟩
      · rfl
      · exact (hlater r _ world (Resolutions.resolve_extends hfresh hr).1 hgrows.outputs).symm

end Resume

/-- Making a sync call again, after its output was recorded, has the same result. -/
theorem callSync_again (hmode : p.mode = .suspending) {name : String}
    {run : FilterScope → Classified → List Value → ω → Except FilterError Classified × ω}
    {input : Classified} {args : List Value} {s s' : PassState ω} {v : Value}
    (hs : s.syncCalls ≤ s.outputs.length)
    (hcall : p.callSync name run input args s = (some v, s')) {outputs : CallLog}
    (houtputs : s'.outputs <+: outputs) (world : ω) :
    p.callSync name run input args { s with outputs, world } =
      (some v, { s' with outputs, world }) := by
  simp only [callSync, hmode, runSync] at hcall ⊢
  cases hout : s.outputs.output s.syncCalls name with
  | error e => simp [hout] at hcall
  | ok known =>
      cases known with
      | some output =>
          simp only [hout] at hcall
          cases hcall
          rw [CallLog.output_of_isPrefix houtputs hout]
      | none =>
          -- the call was the first without a record, so its output is the next one
          have hlast : s.syncCalls = s.outputs.length :=
            Nat.le_antisymm hs (CallLog.length_le_of_output hout)
          simp only [hout] at hcall
          rcases hrun : run p.filterScope input args s.world with ⟨_ | output, w⟩
          · simp [hrun] at hcall
          · rw [hrun] at hcall
            cases hcall
            simp only [hlast, CallLog.record_length] at houtputs
            rw [hlast, CallLog.output_of_isPrefix houtputs (CallLog.output_append _ _ _)]

theorem callSync_inStep (hmode : p.mode = .suspending) {r : Resolutions} {s : PassState ω}
    (h : s.InStep r) (name : String)
    (run : FilterScope → Classified → List Value → ω → Except FilterError Classified × ω)
    (input : Classified) (args : List Value) :
    (p.callSync name run input args s).2.suspension = none ∧
      ∀ v, (p.callSync name run input args s).1 = some v →
        (p.callSync name run input args s).2.InStep r := by
  simp only [callSync, hmode, runSync]
  cases hout : s.outputs.output s.syncCalls name with
  | error e => exact ⟨h.running, by simp⟩
  | ok known =>
      cases known with
      | some output =>
          exact ⟨h.running, fun v hv =>
            ⟨h.running, h.clean, CallLog.lt_length_of_output hout, h.async⟩⟩
      | none =>
          have hlast : s.syncCalls = s.outputs.length :=
            Nat.le_antisymm h.sync (CallLog.length_le_of_output hout)
          rcases run p.filterScope input args s.world with ⟨_ | output, w⟩
          · exact ⟨h.running, by simp⟩
          · refine ⟨h.running, fun v hv => ⟨h.running, h.clean, ?_, h.async⟩⟩
            simp [hlast, CallLog.record_length]

theorem run_call_of_suspended {name : String} {input : Value} {args : List Value}
    {next : Value → Template.Program α} {s t : PassState ω}
    (hcall : p.call name input args s = (none, t)) :
    p.run (.call name input args next) s = (none, t) := by
  rw [run_call, hcall]

theorem run_call_of_answered {name : String} {input : Value} {args : List Value}
    {next : Value → Template.Program α} {s t : PassState ω} {v : Value}
    (hcall : p.call name input args s = (some v, t)) :
    p.run (.call name input args next) s = p.run (next v) t := by
  rw [run_call, hcall]

/-- What `runAwaiting_eq_resume` says of a program in all states in which a pass can be. -/
def Resumes (p : PassScope ω) (program : Template.Program α) : Prop :=
  ∀ s : PassState ω, s.InStep p.resolutions →
    p.runAwaiting program p.resolutions s =
      p.resume program p.resolutions s (p.run program s)

/-- At a deferred variable without a value the pass is abandoned, and its program runs on without any
effect. Awaited on the spot, the variable has the value that is recorded between the passes. -/
theorem resume_of_unknown (hmode : p.mode = .suspending) {name : String}
    {next : Option Value → Template.Program α}
    (hdet : ∀ v, (next v).Deterministic p.context.readAttribute) {produce : ω → Future ω Value × ω}
    (hget : p.context.get? name = some (.deferred produce))
    (hknown : p.resolutions.lookup? name = none) {s : PassState ω} (h : s.InStep p.resolutions) :
    p.runAwaiting (.lookup name next) p.resolutions s =
      p.resume (.lookup name next) p.resolutions s (p.run (.lookup name next) s) := by
  rcases hproduce : produce s.world with ⟨future, w⟩
  have hlookup : p.lookup name s =
      (none, { s with world := w }.suspend (.lookup name future)) := by
    simp [lookup, hget, lookupDeferred, h.isSuspended, hmode, hknown, hproduce]
  have hrun : (p.run (.lookup name next) s).2 =
      { s with world := w }.suspend (.lookup name future) := by
    rw [run_lookup, hlookup]
    exact run_of_isSuspended (hdet none) (by simp [PassState.suspend,
      PassState.isSuspended, h.running])
  rcases hp : p.run (.lookup name next) s with ⟨a, t⟩
  rw [hp] at hrun
  subst hrun
  rw [resume_of_suspension_eq_some _ _ (.lookup name future)
    (by simp [PassState.suspend, h.running])]
  simp only [runAwaiting, hget, hknown, awaitOn, hproduce, Resolutions.resolve,
    PassState.suspend]
  rcases future w with ⟨e | v, w'⟩
  · simp [PassState.fail, h.running, h.clean]
  · have hnow : ({ p.resolutions with
        lookups := Resolutions.insertLookup name v p.resolutions.lookups } :
          Resolutions).lookup? name = some v := by
      rw [Resolutions.lookup?, Resolutions.insertLookup_of_lookup_eq_none hknown,
        List.lookup_append, show p.resolutions.lookups.lookup name = none from hknown]
      simp
    simp only [hnow]

theorem resumes_lookup (hmode : p.mode = .suspending) {name : String}
    {next : Option Value → Template.Program α}
    (hdet : ∀ v, (next v).Deterministic p.context.readAttribute) (ih : ∀ v, p.Resumes (next v)) :
    p.Resumes (.lookup name next) := by
  intro s h
  cases hget : p.context.get? name with
  | none =>
      refine resume_of_step (next none) s ?_ ?_ ?_ h.running (ih none s h)
      · rw [run_lookup, lookup, hget]
      · rw [runAwaiting, hget]
      · intro r outputs world _ _
        rw [runAwaiting, hget]
  | some entry =>
      cases entry with
      | value v =>
          refine resume_of_step (next (some v)) s ?_ ?_ ?_ h.running (ih (some v) s h)
          · rw [run_lookup, lookup, hget]
          · rw [runAwaiting, hget]
          · intro r outputs world _ _
            rw [runAwaiting, hget]
      | deferred produce =>
          cases hknown : p.resolutions.lookup? name with
          | some v =>
              refine resume_of_step (next (some v)) s ?_ ?_ ?_ h.running (ih (some v) s h)
              · simp [run_lookup, lookup, hget, lookupDeferred, h.isSuspended, hmode, hknown]
              · simp [hget, hknown]
              · intro r outputs world hr _
                simp [hget, hr.lookup hknown]
          | none => exact resume_of_unknown hmode hdet hget hknown h

theorem resumes_call_sync (hmode : p.mode = .suspending) {name : String}
    {run : FilterScope → Classified → List Value → ω → Except FilterError Classified × ω}
    (hget : p.registry.resolve name = .ok (.sync run)) (input : Value) (args : List Value)
    {next : Value → Template.Program α} (ih : ∀ v, p.Resumes (next v)) :
    p.Resumes (.call name input args next) := by
  intro s h
  have hcall : p.call name input args s = p.callSync name run (classify input) args s := by
    simp [call, h.isSuspended, hget]
  obtain ⟨hrunning, hstep⟩ := callSync_inStep hmode h name run (classify input) args
  rcases hsync : p.callSync name run (classify input) args s with ⟨_ | v, t⟩
  · rw [hsync] at hcall hrunning
    rw [run_call_of_suspended hcall, resume_of_suspension_eq_none _ _ hrunning]
    simp [hget, hsync]
  · rw [hsync] at hcall hrunning hstep
    refine resume_of_step (next v) t (run_call_of_answered hcall) ?_ ?_ hrunning
      (ih v t (hstep v rfl))
    · simp [hget, hsync]
    · intro r outputs world _ houtputs
      simp only [runAwaiting, hget, callSync_again hmode h.sync hsync houtputs world]

theorem resumes_call_async (hmode : p.mode = .suspending) {name : String}
    {start : FilterScope → Classified → List Value → ω → Future ω Classified × ω}
    (hget : p.registry.resolve name = .ok (.async start)) (input : Value) (args : List Value)
    {next : Value → Template.Program α} (ih : ∀ v, p.Resumes (next v)) :
    p.Resumes (.call name input args next) := by
  intro s h
  have hcall : p.call name input args s =
      p.callAsync name start (classify input) args s := by
    simp [call, h.isSuspended, hget]
  rcases hknown : p.resolutions.filter s.asyncCalls name with e | _ | output
  · have hfailed : p.call name input args s =
        (none, { s with asyncCalls := s.asyncCalls + 1 }.fail e) := by
      simp [hcall, callAsync, hmode, hknown]
    rw [run_call_of_suspended hfailed, resume_of_suspension_eq_none _ _ (by exact h.running)]
    simp [hget, hknown]
  · -- the pass is abandoned here, and the call is the first without a record
    have hlast : s.asyncCalls = p.resolutions.filters.length :=
      Nat.le_antisymm h.async (CallLog.length_le_of_output hknown)
    rcases hstart : start p.filterScope (classify input) args s.world with ⟨future, w⟩
    have hsuspended : p.call name input args s =
        (none, { s with asyncCalls := s.asyncCalls + 1, world := w }.suspend
          (.filter name s.asyncCalls future)) := by
      simp [hcall, callAsync, hmode, hknown, hstart]
    rw [run_call_of_suspended hsuspended,
      resume_of_suspension_eq_some _ _ (.filter name s.asyncCalls future)
        (by simp [PassState.suspend, h.running])]
    rw [hlast] at hknown
    simp only [runAwaiting, hget, awaitOn, hstart, Resolutions.resolve, PassState.suspend,
      hlast, hknown, if_true]
    rcases future w with ⟨e | output, w'⟩
    · simp [PassState.fail, h.running, h.clean]
    · simp only [Resolutions.filter, CallLog.output_append]
  · refine resume_of_step (next output.toValue) { s with asyncCalls := s.asyncCalls + 1 }
      ?_ ?_ ?_ h.running (ih _ _ ?_)
    · exact run_call_of_answered (by simp [hcall, callAsync, hmode, hknown])
    · simp [hget, hknown]
    · intro r outputs world hr _
      simp only [runAwaiting, hget, Resolutions.filter,
        CallLog.output_of_isPrefix hr.filters hknown]
    · exact ⟨h.running, h.clean, h.sync, CallLog.lt_length_of_output hknown⟩

theorem resumes_call (hmode : p.mode = .suspending) {name : String} {input : Value}
    {args : List Value} {next : Value → Template.Program α} (ih : ∀ v, p.Resumes (next v)) :
    p.Resumes (.call name input args next) := by
  rcases hget : p.registry.resolve name with e | run | start
  · intro s h
    have hcall : p.call name input args s = (none, s.fail e) := by
      simp [call, h.isSuspended, hget]
    rw [run_call_of_suspended hcall, resume_of_suspension_eq_none _ _ (by exact h.running)]
    simp [hget]
  · exact resumes_call_sync hmode hget input args ih
  · exact resumes_call_async hmode hget input args ih

theorem resumes_emit {v : Value} {hint : Option String} {next : String → Template.Program α}
    (ih : ∀ text, p.Resumes (next text)) : p.Resumes (.emit v hint next) := by
  intro s h
  have hemit := PassState.emit_eq h.isSuspended v hint
  rcases hwrite : Emission.write v hint s.captures with e | ⟨text, captures⟩
  · rw [hwrite] at hemit
    rw [run_emit, hemit, resume_of_suspension_eq_none _ _ (by exact h.running)]
    simp [hemit]
  · rw [hwrite] at hemit
    refine resume_of_step (next text) { s with captures } ?_ ?_ ?_ h.running
      (ih text _ ⟨h.running, h.clean, h.sync, h.async⟩)
    · rw [run_emit, hemit]
    · simp [hemit]
    · intro r outputs world _ _
      rw [runAwaiting, PassState.emit_eq (by simp [PassState.isSuspended, h.running])]
      simp only [hwrite]

/-- Awaiting everything on the spot comes to the same as running a pass first, awaiting what the
pass waits for, and going on with the records there are then. -/
theorem runAwaiting_eq_resume (hmode : p.mode = .suspending) {program : Template.Program α}
    (hdet : program.Deterministic p.context.readAttribute) : p.Resumes program := by
  induction program with
  | done a =>
      intro s h
      rw [run, resume_of_suspension_eq_none _ _ h.running, runAwaiting]
  | lookup name next ih => exact resumes_lookup hmode hdet fun v => ih v (hdet v)
  | call name input args next ih => exact resumes_call hmode fun v => ih v (hdet v)
  | emit v hint next ih => exact resumes_emit fun text => ih text (hdet text)
  | read object attr next ih =>
      intro s h
      obtain ⟨⟨v, hv⟩, hnext⟩ := hdet
      have hread (s : PassState ω) : p.read object attr s = (v, s) := by
        rw [PassScope.read, hv]
      refine resume_of_step (next v) s ?_ ?_ ?_ h.running (ih v (hnext v) s h)
      · rw [run_read, hread]
      · rw [runAwaiting, hread]
      · intro r outputs world _ _
        rw [runAwaiting, hread]

/-- The records that a pass begins with do not matter where records are given anyway. -/
theorem runAwaiting_withResolutions (p : PassScope ω) (known : Resolutions)
    (program : Template.Program α) (r : Resolutions) (s : PassState ω) :
    { p with resolutions := known }.runAwaiting program r s = p.runAwaiting program r s := by
  induction program generalizing r s with
  | done a => rfl
  | lookup name next ih => simp [ih]
  | call name input args next ih =>
      simp only [runAwaiting, ih]
      rfl
  | emit v hint next ih => simp [ih]
  | read object attr next ih =>
      simp only [runAwaiting, ih]
      rfl

/-- Results are never forgotten. -/
theorem length_le_runAwaiting (p : PassScope ω) (program : Template.Program α) (r : Resolutions)
    (s : PassState ω) : r.length ≤ (p.runAwaiting program r s).2.1.length := by
  induction program generalizing r s with
  | done a => exact Nat.le_refl _
  | lookup name next ih =>
      rw [runAwaiting]
      split
      · exact ih _ _ _
      · exact ih _ _ _
      · split
        · exact ih _ _ _
        · split
          · refine Nat.le_trans ?_ (ih _ _ _)
            -- A value is only added under a name that has none.
            have habsent : r.lookups.lookup name = none := ‹_›
            simp [Resolutions.length, Resolutions.insertLookup_of_lookup_eq_none habsent]
          · exact Nat.le_refl _
  | call name input args next ih =>
      rw [runAwaiting]
      split
      · exact Nat.le_refl _
      · split
        · exact ih _ _ _
        · exact Nat.le_refl _
      · simp only
        split
        · exact ih _ _ _
        · exact Nat.le_refl _
        · split
          · refine Nat.le_trans ?_ (ih _ _ _)
            simp [Resolutions.length, ← Nat.add_assoc]
          · exact Nat.le_refl _
  | emit v hint next ih =>
      rw [runAwaiting]
      split
      · exact ih _ _ _
      · exact Nat.le_refl _
  | read object attr next ih => exact ih _ _ _

end PassScope

end QueryTemplate
