import QueryTemplate.Proofs.Awaiting

/-!
A suspending render and the direct run of its program. Each pass but the last adds one result to
the records, the last one gets through, and what the render ends with is what the direct run ends
with: the same text, captures or error, and the same state of the caller's code. Filters and
deferred variables may keep any state here.
-/

namespace QueryTemplate

namespace PassState

variable {ω α : Type}

/-- A pass that is over without waiting: it has a result or a failure, not both. -/
structure Concluded (a : Option α) (s : PassState ω) : Prop where
  running : s.suspension = none
  failure : s.failure.isSome = a.isNone

/-- What a render reports after a pass that is over without waiting. -/
def conclude (s : PassState ω) : Option (Except QueryError String) → Except QueryError MarkedQuery
  | some (.ok text) => .ok ⟨text, s.captures⟩
  | some (.error e) => .error e
  | none => .error (s.failure.getD PassScope.aborted)

end PassState

namespace DirectState

variable {ω α : Type}

/-- The direct run and a pass that has met no obstacle have captured the same. -/
structure Aligned (d : DirectState ω) (s : PassState ω) : Prop where
  running : s.suspension = none
  clean : s.failure = none
  captures : s.captures = d.captures

theorem Aligned.isSuspended {d : DirectState ω} {s : PassState ω} (h : d.Aligned s) :
    s.isSuspended = false := by
  simp [PassState.isSuspended, h.running]

/-- The direct run and a run with records from the start on are at the same place. -/
structure Matches (d : DirectState ω) (r : Resolutions) (s : PassState ω) : Prop
    extends d.Aligned s where
  world : s.world = d.world
  sync : s.syncCalls = s.outputs.length
  async : s.asyncCalls = r.filters.length
  lookups : r.lookups = d.known
  requests : r.filters.length = d.requests.countP Request.isAsync

/-- The direct run ends like the pass: with the same captures, or with the error that the pass has
recorded. -/
def EndsAs (d : DirectState ω) (s : PassState ω) : Except QueryError α → Prop
  | .ok _ => d.Aligned s
  | .error e => s.suspension = none ∧ s.failure = some e

theorem Aligned.endsAs_fail {d d' : DirectState ω} {s : PassState ω} {e : QueryError}
    (h : d.Aligned s) : EndsAs (α := α) d' (s.fail e) (.error e) :=
  ⟨h.running, by simp [PassState.fail, h.clean]⟩

/-- The direct run and a run with records end in the same way. -/
structure EndsLike (d : DirectState ω) (r : Resolutions) (s : PassState ω)
    (result : Except QueryError α) : Prop where
  endsAs : d.EndsAs s result
  world : s.world = d.world
  lookups : r.lookups = d.known
  requests : ∀ a, result = .ok a → r.filters.length = d.requests.countP Request.isAsync

theorem Matches.endsLike {d : DirectState ω} {r : Resolutions} {s : PassState ω}
    (h : d.Matches r s) (a : α) : d.EndsLike r s (.ok a) :=
  ⟨h.toAligned, h.world, h.lookups, fun _ _ => h.requests⟩

theorem Matches.endsLike_fail {d d' : DirectState ω} {r : Resolutions} {s t : PassState ω}
    {e : QueryError} (h : d.Matches r s) (ht : d.Aligned t) (hworld : t.world = d'.world)
    (hknown : d'.known = d.known) : EndsLike (α := α) d' r (t.fail e) (.error e) :=
  ⟨ht.endsAs_fail, hworld, h.lookups.trans hknown.symm, nofun⟩

end DirectState

namespace PassScope

variable {ω α : Type} {p : PassScope ω}

theorem callSync_of_matches (hmode : p.mode = .suspending) {d : DirectState ω} {r : Resolutions}
    {s : PassState ω} (h : d.Matches r s) (name : String)
    (run : FilterScope → Classified → List Value → ω → Except FilterError Classified × ω)
    (input : Classified) (args : List Value) :
    p.callSync name run input args s =
      match run p.filterScope input args d.world with
      | (.ok output, world) =>
        (some output.toValue, { s with
          syncCalls := s.syncCalls + 1
          outputs := s.outputs ++ [(name, output)]
          world })
      | (.error e, world) =>
        (none, { s with syncCalls := s.syncCalls + 1, world }.fail (.filterExecution name e)) := by
  simp only [callSync, hmode, h.sync, CallLog.output_length, runSync, h.world]
  rcases run p.filterScope input args d.world with ⟨_ | output, world⟩
  · rfl
  · simp only [CallLog.record_length]

/-- From the start on, a run that awaits on the spot is the direct run. -/
theorem runAwaiting_of_directRun (hmode : p.mode = .suspending) {program : Template.Program α}
    {d d' : DirectState ω} {result : Except QueryError α} (run : DirectRun p program d result d')
    {r : Resolutions} {s : PassState ω} (h : d.Matches r s) :
    ∃ r' s', p.runAwaiting program r s = (result.toOption, r', s') ∧ d'.EndsLike r' s' result := by
  induction run generalizing r s with
  | done => exact ⟨r, s, rfl, h.endsLike _⟩
  | absent hget _ ih =>
      rw [runAwaiting, hget]
      exact ih h
  | plain hget _ ih =>
      rw [runAwaiting, hget]
      exact ih h
  | @known name _ d _ v _ _ hget hknown _ ih =>
      -- The value is among the records, so nothing is awaited.
      have hlookup : r.lookup? name = some v := by rw [Resolutions.lookup?, h.lookups, hknown]
      simp only [runAwaiting, hget, hlookup]
      exact ih { h with requests := by simpa [DirectState.ask, Request.isAsync] using h.requests }
  | @produced name _ d _ v world _ _ hget hknown hawait _ ih =>
      -- The value is awaited and recorded behind the others, as the direct run keeps it.
      have hlookup : r.lookup? name = none := by rw [Resolutions.lookup?, h.lookups, hknown]
      simp only [runAwaiting, hget, hlookup, h.world, hawait]
      refine ih { h with world := rfl, lookups := ?_, requests := ?_ }
      · rw [← h.lookups]
        exact Resolutions.insertLookup_of_lookup_eq_none hlookup
      · simpa [DirectState.ask, Request.isAsync] using h.requests
  | @notProduced name _ d _ e world hget hknown hawait =>
      have hlookup : r.lookup? name = none := by rw [Resolutions.lookup?, h.lookups, hknown]
      simp only [runAwaiting, hget, hlookup, h.world, hawait]
      exact ⟨_, _, rfl, h.endsLike_fail ⟨h.running, h.clean, h.captures⟩ rfl rfl⟩
  | unregistered hget =>
      simp only [runAwaiting, hget]
      exact ⟨_, _, rfl, h.endsLike_fail h.toAligned h.world rfl⟩
  | @sync name input args _ d run output world _ _ hget hrun _ ih =>
      simp only [runAwaiting, hget, callSync_of_matches hmode h, hrun]
      refine ih { h with world := rfl, sync := ?_, requests := ?_ }
      · simp [h.sync]
      · simpa [DirectState.ask, Request.isAsync] using h.requests
  | @syncFailed name input args _ d run e world hget hrun =>
      simp only [runAwaiting, hget, callSync_of_matches hmode h, hrun]
      exact ⟨_, _, rfl, h.endsLike_fail ⟨h.running, h.clean, h.captures⟩ rfl rfl⟩
  | @async name input args _ d start output world _ _ hget hawait _ ih =>
      -- The ordinal of the call is the length of the log, which thus has no output for it.
      simp only [runAwaiting, hget, Resolutions.filter, h.async, CallLog.output_length, h.world,
        hawait]
      refine ih { h with world := rfl, async := ?_, requests := ?_ }
      · simp
      · simp [DirectState.ask, Request.isAsync, h.requests]
  | @asyncFailed name input args _ d start e world hget hawait =>
      simp only [runAwaiting, hget, Resolutions.filter, h.async, CallLog.output_length, h.world,
        hawait]
      exact ⟨_, _, rfl, h.endsLike_fail ⟨h.running, h.clean, h.captures⟩ rfl rfl⟩
  | @emit v hint _ d text captures _ _ hwrite _ ih =>
      have hemit := PassState.emit_eq (by simp [PassState.isSuspended, h.running]) v hint (s := s)
      rw [h.captures, hwrite] at hemit
      simp only [runAwaiting, hemit]
      exact ih { h with captures := rfl }
  | @refused v hint _ d e hwrite =>
      have hemit := PassState.emit_eq (by simp [PassState.isSuspended, h.running]) v hint (s := s)
      rw [h.captures, hwrite] at hemit
      simp only [runAwaiting, hemit]
      exact ⟨_, _, rfl, h.endsLike_fail h.toAligned h.world rfl⟩
  | @read object attr _ d v world _ _ hread _ ih =>
      rw [runAwaiting, PassScope.read, h.world, hread]
      exact ih { h with world := rfl }

/-! ### How a pass ends -/

theorem outcome_of_concluded {program : RenderProgram} {s t : PassState ω}
    {a : Option (Except QueryError String)} (hrun : p.run program s = (a, t))
    (h : t.Concluded a) :
    p.outcome program s =
      match t.conclude a with
      | .ok marked => (.complete marked, t)
      | .error e => (.failed e, t) := by
  have hfinish (result : Except QueryError String) (hfailure : t.failure = none) :
      t.finish result =
        match result with
        | .ok text => .complete ⟨text, t.captures⟩
        | .error e => .failed e := by
    cases result <;> simp [PassState.finish, h.running, hfailure]
  unfold outcome
  rw [hrun]
  cases a with
  | none =>
      obtain ⟨e, he⟩ := Option.isSome_iff_exists.mp h.failure
      simp [PassState.conclude, PassState.finish, h.running, he]
  | some result =>
      have hclean : t.failure = none := by simpa using h.failure
      cases result with
      | ok text => simp [PassState.conclude, hfinish _ hclean]
      | error e => cases e <;> simp [PassState.conclude, hfinish _ hclean]

theorem outcome_of_suspension {program : RenderProgram} {s t : PassState ω}
    {a : Option (Except QueryError String)} {pending : Suspension ω}
    (hrun : p.run program s = (a, t)) (h : t.suspension = some pending)
    (ha : a ≠ some (.error .overlappingTag)) : p.outcome program s = (.suspended pending, t) := by
  have hfinish (result : Except QueryError String) : t.finish result = .suspended pending := by
    simp [PassState.finish, h]
  unfold outcome
  rw [hrun]
  split
  · cases ‹(a, t) = _›
    contradiction
  · cases ‹(a, t) = _›
    rw [hfinish]
  · cases ‹(a, t) = _›
    rw [hfinish]

theorem outcome_of_overlappingTag {program : RenderProgram} {s t : PassState ω}
    (hrun : p.run program s = (some (.error .overlappingTag), t)) :
    p.outcome program s = (.failed .overlappingTag, t) := by
  unfold outcome
  rw [hrun]

end PassScope

namespace Replay

variable {ω : Type} (program : RenderProgram) (registry : FilterRegistry ω) (context : Context ω)
  (options : RenderOptions)

/-- The next pass of a render. -/
def nextPass (r : Replay ω) : PassScope ω :=
  { registry, context, options, mode := .suspending, resolutions := r.resolutions }

/-- The state in which the next pass of a render begins. -/
def start (r : Replay ω) : PassState ω :=
  { outputs := r.outputs, world := r.world }

/-- What is left to do for a render between two passes, with everything awaited on the spot. -/
def awaiting (r : Replay ω) : Option (Except QueryError String) × Resolutions × PassState ω :=
  (r.nextPass registry context options).runAwaiting program r.resolutions r.start

/-- No pass of a render is stopped by a template file that cannot be cut into tags, which is the
only way in which a pass does not come to an end. -/
def Halts (r : Replay ω) : Prop :=
  ∀ n, (run program registry context options n r).1 ≠ some (.error .overlappingTag)

variable {program registry context options}

theorem awaiting_mk (r : Replay ω) (resolutions : Resolutions) (outputs : CallLog) (passes : Nat)
    (world : ω) :
    awaiting program registry context options ⟨resolutions, outputs, passes, world⟩ =
      (r.nextPass registry context options).runAwaiting program resolutions
        { r.start with outputs, world } :=
  (r.nextPass registry context options).runAwaiting_withResolutions resolutions program _ _

theorem length_le_of_awaiting {r : Replay ω} {a : Option (Except QueryError String)}
    {known : Resolutions} {t : PassState ω}
    (h : awaiting program registry context options r = (a, known, t)) :
    r.resolutions.length ≤ known.length := by
  have hle := (r.nextPass registry context options).length_le_runAwaiting program r.resolutions
    r.start
  rwa [show PassScope.runAwaiting _ _ _ _ = _ from h] at hle

theorem advance_eq (r : Replay ω) :
    advance program registry context options r =
      match (r.nextPass registry context options).outcome program r.start with
      | (.complete marked, s) =>
        (some (.ok marked), ⟨r.resolutions, s.outputs, r.passes + 1, s.world⟩)
      | (.failed e, s) => (some (.error e), ⟨r.resolutions, s.outputs, r.passes + 1, s.world⟩)
      | (.suspended pending, s) =>
        match r.resolutions.resolve pending s.world with
        | (.ok resolutions, world) => (none, ⟨resolutions, s.outputs, r.passes + 1, world⟩)
        | (.error e, world) =>
          (some (.error e), ⟨r.resolutions, s.outputs, r.passes + 1, world⟩) := rfl

/-- The ways a pass of a render can go, unless a template file that cannot be cut into tags ends it:
it is the last one, or one result is added and what is left to do stays the same. -/
theorem advance_cases (hdet : program.Deterministic context.readAttribute) {r : Replay ω}
    {a : Option (Except QueryError String)} {known : Resolutions} {t : PassState ω}
    (hawaiting : awaiting program registry context options r = (a, known, t))
    (hend : t.Concluded a)
    (htag : (advance program registry context options r).1 ≠ some (.error .overlappingTag)) :
    (known = r.resolutions ∧ advance program registry context options r =
      (some (t.conclude a), ⟨known, t.outputs, r.passes + 1, t.world⟩)) ∨
    ∃ r', advance program registry context options r = (none, r') ∧
      awaiting program registry context options r' = (a, known, t) ∧
      r'.resolutions.length = r.resolutions.length + 1 ∧ r'.passes = r.passes + 1 := by
  have hresume := (r.nextPass registry context options).runAwaiting_eq_resume rfl hdet r.start
    ⟨rfl, rfl, Nat.zero_le _, Nat.zero_le _⟩
  have hgrows := (r.nextPass registry context options).grows_run program r.start
  rcases hrun : (r.nextPass registry context options).run program r.start with ⟨b, u⟩
  rw [show PassScope.runAwaiting _ _ (nextPass _ _ _ r).resolutions _ = _ from hawaiting,
    hrun] at hresume
  rw [hrun] at hgrows
  rw [advance_eq] at htag ⊢
  cases hu : u.suspension with
  | none =>
      rw [PassScope.resume_of_suspension_eq_none _ _ hu] at hresume
      cases hresume
      refine .inl ⟨rfl, ?_⟩
      rw [PassScope.outcome_of_concluded hrun hend]
      rcases t.conclude a with e | marked
      · rfl
      · rfl
  | some pending =>
      -- what the program itself ends with matters here only if it cannot be cut into tags
      by_cases hb : b = some (.error .overlappingTag)
      · rw [hb] at hrun
        rw [PassScope.outcome_of_overlappingTag hrun] at htag
        contradiction
      · rw [PassScope.outcome_of_suspension hrun hu hb]
        rw [PassScope.resume_of_suspension_eq_some _ _ _ hu] at hresume
        have hfresh : pending.Fresh r.resolutions :=
          (hgrows.fresh pending hu).resolve_left (by simp [start])
        simp only [nextPass] at hresume
        rcases hresolve : r.resolutions.resolve pending u.world with ⟨e | resolutions, world⟩
        · -- the computation failed, and its error ends the render
          rw [hresolve] at hresume
          cases hresume
          refine .inl ⟨rfl, ?_⟩
          simp only [hresolve]
          rfl
        · rw [hresolve] at hresume
          refine .inr ⟨⟨resolutions, u.outputs, r.passes + 1, world⟩, ?_, ?_,
            (Resolutions.resolve_extends hfresh hresolve).2, rfl⟩
          · simp only [hresolve]
          · rw [awaiting_mk r]
            exact hresume.symm

theorem run_succ (n : Nat) (r : Replay ω) :
    run program registry context options (n + 1) r =
      match advance program registry context options r with
      | (some result, r) => (some result, r)
      | (none, r) => run program registry context options n r := rfl

/-- A render goes on from where some of its passes have taken it. -/
theorem run_add {m : Nat} {r r' : Replay ω}
    (h : run program registry context options m r = (none, r')) (n : Nat) :
    run program registry context options (m + n) r =
      run program registry context options n r' := by
  induction m generalizing r with
  | zero =>
      cases h
      rw [Nat.zero_add]
  | succ m ih =>
      rw [run_succ] at h
      rw [Nat.add_right_comm, run_succ]
      rcases ha : advance program registry context options r with ⟨_ | result, s⟩
      · rw [ha] at h
        exact ih h
      · rw [ha] at h
        cases h

theorem run_add_one {m : Nat} {r r' : Replay ω}
    (h : run program registry context options m r = (none, r')) :
    run program registry context options (m + 1) r =
      advance program registry context options r' := by
  rw [run_add h 1, run_succ]
  rcases advance program registry context options r' with ⟨_ | result, s⟩
  · rfl
  · rfl

/-- A render that has ended stays so. -/
theorem run_of_le {m n : Nat} {r r' : Replay ω} {result : Except QueryError MarkedQuery}
    (h : run program registry context options m r = (some result, r')) (hle : m ≤ n) :
    run program registry context options n r = (some result, r') := by
  induction m generalizing n r with
  | zero => cases h
  | succ m ih =>
      obtain ⟨n, rfl⟩ := Nat.exists_eq_add_of_le'
        (Nat.le_trans (Nat.succ_le_succ (Nat.zero_le m)) hle)
      rw [run_succ] at h ⊢
      rcases ha : advance program registry context options r with ⟨_ | result', s⟩
      · rw [ha] at h
        exact ih h (Nat.le_of_succ_le_succ hle)
      · rw [ha] at h
        exact h

/-- A render ends in one way only, however many passes it may take. -/
theorem run_unique {m n : Nat} {r s t : Replay ω} {result result' : Except QueryError MarkedQuery}
    (h : run program registry context options m r = (some result, s))
    (h' : run program registry context options n r = (some result', t)) :
    result = result' ∧ s = t := by
  have hs := run_of_le h (Nat.le_max_left m n)
  rw [run_of_le h' (Nat.le_max_right m n)] at hs
  cases hs
  exact ⟨rfl, rfl⟩

/-- A render that ends with a text has not been stopped. -/
theorem halts_of_run {m : Nat} {r r' : Replay ω} {marked : MarkedQuery}
    (h : run program registry context options m r = (some (.ok marked), r')) :
    Halts program registry context options r := by
  intro n hn
  rcases hrun : run program registry context options n r with ⟨result, s⟩
  rw [hrun] at hn
  cases hn
  have hsame := (run_unique h hrun).1
  contradiction

/-- While results are missing, every pass adds one. -/
theorem run_of_le_missing (hdet : program.Deterministic context.readAttribute) {r : Replay ω}
    {a : Option (Except QueryError String)} {known : Resolutions} {t : PassState ω}
    (hawaiting : awaiting program registry context options r = (a, known, t))
    (hend : t.Concluded a)
    (hhalts : Halts program registry context options r)
    (k : Nat) (hk : r.resolutions.length + k ≤ known.length) :
    ∃ r', run program registry context options k r = (none, r') ∧
      awaiting program registry context options r' = (a, known, t) ∧
      r'.resolutions.length = r.resolutions.length + k ∧ r'.passes = r.passes + k := by
  -- what is left to do is the same after each pass, only the number of records changes
  induction k with
  | zero => exact ⟨r, rfl, hawaiting, rfl, rfl⟩
  | succ k ih =>
      obtain ⟨s, hrun, hs, hlength, hpasses⟩ := ih (by omega)
      have htag := hhalts (k + 1)
      rw [run_add_one hrun] at htag ⊢
      rcases advance_cases hdet hs hend htag with ⟨hlast, -⟩ | ⟨r', hstep, hr', hlength', hpasses'⟩
      · rw [hlast, hlength] at hk
        omega
      · exact ⟨r', hstep, hr', by omega, by omega⟩

/-- The whole course of a render: one pass for each missing result, and the pass that ends it. -/
theorem run_of_awaiting (hdet : program.Deterministic context.readAttribute) {r : Replay ω}
    {a : Option (Except QueryError String)} {known : Resolutions} {t : PassState ω}
    (hawaiting : awaiting program registry context options r = (a, known, t))
    (hend : t.Concluded a)
    (hhalts : Halts program registry context options r)
    {n : Nat} (hn : known.length < r.resolutions.length + n) :
    run program registry context options n r =
      (some (t.conclude a),
        ⟨known, t.outputs, r.passes + (known.length - r.resolutions.length) + 1, t.world⟩) := by
  have hle := length_le_of_awaiting hawaiting
  obtain ⟨s, hrun, hs, hlength, hpasses⟩ := run_of_le_missing hdet hawaiting hend hhalts
    (known.length - r.resolutions.length) (by omega)
  have htag := hhalts (known.length - r.resolutions.length + 1)
  refine run_of_le (m := known.length - r.resolutions.length + 1) ?_ (by omega)
  rw [run_add_one hrun] at htag ⊢
  rcases advance_cases hdet hs hend htag with ⟨-, hstep⟩ | ⟨r', -, hr', hlength', -⟩
  · rw [hstep, hpasses]
  · -- a pass that goes on would add a result too many
    have := length_le_of_awaiting hr'
    omega

end Replay

namespace DirectState

variable {ω α : Type}

theorem EndsAs.concluded {d : DirectState ω} {s : PassState ω} {result : Except QueryError α}
    (h : d.EndsAs s result) : s.Concluded result.toOption := by
  cases result with
  | ok a => exact ⟨Aligned.running h, by simp [Aligned.clean h, Except.toOption]⟩
  | error e => exact ⟨h.1, by simp [h.2, Except.toOption]⟩

/-- The text or the error of a direct run, as a render reports it. -/
def report (d : DirectState ω) : Except QueryError (Except QueryError String) →
    Except QueryError MarkedQuery
  | .ok (.ok text) => .ok ⟨text, d.captures⟩
  | .ok (.error e) => .error e
  | .error e => .error e

theorem EndsAs.conclude {d : DirectState ω} {s : PassState ω}
    {result : Except QueryError (Except QueryError String)} (h : d.EndsAs s result) :
    s.conclude result.toOption = d.report result := by
  cases result with
  | error e => simp [PassState.conclude, report, Except.toOption, h.2]
  | ok ended =>
      cases ended with
      | error e => rfl
      | ok text =>
          simp only [PassState.conclude, report, Except.toOption]
          rw [Aligned.captures h]

end DirectState

namespace RenderProgram

variable {ω : Type} {program : RenderProgram} {registry : FilterRegistry ω} {context : Context ω}
  {options : RenderOptions} {world : ω}

/-- How a suspending render comes to the result of the direct run: it adds one result with each
pass, and in the pass after them it ends. -/
structure Course (program : RenderProgram) (registry : FilterRegistry ω) (context : Context ω)
    (options : RenderOptions) (world : ω) (result : Except QueryError MarkedQuery)
    (final : Replay ω) : Prop where
  passes : final.passes = final.resolutions.length + 1
  ends : ∀ n, final.resolutions.length < n →
    Replay.run program registry context options n { world } = (some result, final)
  goesOn : ∀ k, k ≤ final.resolutions.length →
    ∃ r, Replay.run program registry context options k { world } = (none, r) ∧
      r.passes = k ∧ r.resolutions.length = k

/-- A suspending render takes its course to what the direct run ends with. -/
theorem course_of_direct (hdet : program.Deterministic context.readAttribute)
    (hhalts : Replay.Halts program registry context options { world })
    {result : Except QueryError (Except QueryError String)} {d : DirectState ω}
    (hdirect : PassScope.direct { registry, context, options, mode := .suspending } program
      { world } = (result, d)) :
    ∃ final : Replay ω, Course program registry context options world (d.report result) final ∧
      final.world = d.world ∧ final.resolutions.lookups = d.known ∧
      ∀ a, result = .ok a →
        final.resolutions.filters.length = d.requests.countP Request.isAsync := by
  have hrun := PassScope.directRun { registry, context, options, mode := .suspending } program
    { world }
  rw [hdirect] at hrun
  obtain ⟨known, t, hawaiting, hends⟩ := PassScope.runAwaiting_of_directRun rfl hrun
    (r := {}) (s := { world }) ⟨⟨rfl, rfl, rfl⟩, rfl, rfl, rfl, rfl, rfl⟩
  have hr : Replay.awaiting program registry context options { world } =
      (result.toOption, known, t) := hawaiting
  refine ⟨⟨known, t.outputs, known.length + 1, t.world⟩, ⟨rfl, ?_, ?_⟩, hends.world,
    hends.lookups, ?_⟩
  · intro n hn
    rw [Replay.run_of_awaiting hdet hr hends.endsAs.concluded hhalts
      (by simpa [Resolutions.length] using hn), hends.endsAs.conclude]
    simp [Resolutions.length]
  · intro k hk
    obtain ⟨r, hk, -, hlength, hpasses⟩ := Replay.run_of_le_missing hdet hr
      hends.endsAs.concluded hhalts k (by simpa [Resolutions.length] using hk)
    exact ⟨r, hk, by simpa using hpasses, by simpa [Resolutions.length] using hlength⟩
  · exact hends.requests

/-! ### A small render -/

/-- Asks for everything that a render can wait for, and for one variable twice. -/
def tenantQuery : RenderProgram :=
  .lookup "tenant" fun tenant =>
  .call "trim" (tenant.getD .undefined) [] fun trimmed =>
  .call "mask" trimmed [] fun masked =>
  .lookup "tenant" fun tenant =>
  .emit masked none fun first =>
  .emit (tenant.getD .undefined) (some "tenant") fun second =>
  .done (.ok (first ++ second))

/-- An async and a sync filter, which count what they do. -/
def tenantFilters : FilterRegistry Nat where
  filters := [
    ("mask", .async fun _ input _ n => (fun n => (.ok input, n + 1), n + 1)),
    ("trim", .sync fun _ input _ n => (.ok input, n + 1))]

/-- A deferred variable, which counts when it is produced. -/
def tenantContext : Context Nat where
  entries := [("tenant", .deferred fun n => (fun n => (.ok (.str "acme"), n + 1), n + 1))]

theorem tenantQuery_deterministic (read : Nat → String → ω → Option Value × ω) :
    tenantQuery.Deterministic read :=
  fun _ _ _ _ _ _ => trivial

end RenderProgram

end QueryTemplate
