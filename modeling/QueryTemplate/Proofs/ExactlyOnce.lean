import Mathlib.Data.List.Dedup
import Mathlib.Data.List.Induction
import QueryTemplate.Proofs.Tracing

/-!
What all passes of a suspending render together do in the caller's code. It is what the direct run
does: each filter call of the direct run is made once, each computation is awaited once, each
deferred variable that is looked up is produced once, and all of this in the order of the direct
run.
-/

namespace QueryTemplate

namespace Request

/-- The request is for a deferred variable that was asked for before. -/
def repeats (done : List Request) : Request → Bool
  | deferred name => done.any fun r => r.deferredName? == some name
  | _ => false

/-- The requests without those that repeat an earlier one. -/
def invocations (requests : List Request) : List Request :=
  requests.foldl (fun done r => if r.repeats done then done else done ++ [r]) []

/-- What happens in the caller's code upon a request. -/
def effects : Request → List Effect
  | sync filter input args => [.called (.sync filter input args)]
  | async filter input args => [.called (.async filter input args), .awaited filter]
  | deferred name => [.called (.deferred name), .awaited name]

theorem deferredName?_eq_some {r : Request} {name : String} :
    r.deferredName? = some name ↔ r = deferred name := by
  cases r <;> simp [deferredName?]

theorem repeats_deferred {done : List Request} {name : String} :
    (deferred name).repeats done = true ↔ deferred name ∈ done := by
  simp [repeats, deferredName?_eq_some]

theorem invocations_append (requests : List Request) (r : Request) :
    invocations (requests ++ [r]) =
      if r.repeats (invocations requests) then invocations requests
      else invocations requests ++ [r] := by
  rw [invocations, List.foldl_append]
  rfl

/-- `done` has the requests that the caller's code must answer: every filter call and, for every
deferred variable that is asked for, one request, all in their order. -/
structure OnceInOrder (requests done : List Request) : Prop where
  order : done.Sublist requests
  calls : done.filter (·.deferredName?.isNone) = requests.filter (·.deferredName?.isNone)
  names : ∀ name, deferred name ∈ done ↔ deferred name ∈ requests
  once : (done.filterMap deferredName?).Nodup

theorem OnceInOrder.append_call {requests done : List Request} (h : OnceInOrder requests done)
    {r : Request} (hr : r.deferredName? = none) :
    OnceInOrder (requests ++ [r]) (done ++ [r]) := by
  refine ⟨h.order.append (List.Sublist.refl [r]), ?_, fun name => ?_, ?_⟩
  · rw [List.filter_append, List.filter_append, h.calls]
  · rw [List.mem_append, List.mem_append, h.names]
  · rw [List.filterMap_append, List.filterMap_cons_none hr, List.filterMap_nil, List.append_nil]
    exact h.once

theorem OnceInOrder.append_first {requests done : List Request} (h : OnceInOrder requests done)
    {name : String} (hname : deferred name ∉ done) :
    OnceInOrder (requests ++ [deferred name]) (done ++ [deferred name]) := by
  refine ⟨h.order.append (List.Sublist.refl _), ?_, fun other => ?_, ?_⟩
  · rw [List.filter_append, List.filter_append, h.calls]
  · rw [List.mem_append, List.mem_append, h.names]
  · rw [List.filterMap_append, List.nodup_append]
    refine ⟨h.once, List.nodup_singleton name, fun other hother again hagain => ?_⟩
    obtain ⟨r, hr, hrname⟩ := List.mem_filterMap.mp hother
    rw [deferredName?_eq_some.mp hrname] at hr
    rw [List.mem_singleton.mp hagain]
    rintro rfl
    exact hname hr

theorem OnceInOrder.append_again {requests done : List Request} (h : OnceInOrder requests done)
    {name : String} (hname : deferred name ∈ done) :
    OnceInOrder (requests ++ [deferred name]) done := by
  refine ⟨h.order.trans (List.sublist_append_left _ _), ?_, fun other => ?_, h.once⟩
  · rw [List.filter_append, h.calls]
    exact (List.append_nil _).symm
  · rw [h.names, List.mem_append, List.mem_singleton]
    refine ⟨Or.inl, fun hother => hother.elim id fun heq => ?_⟩
    rw [heq]
    exact (h.names name).mp hname

theorem invocations_onceInOrder (requests : List Request) :
    OnceInOrder requests (invocations requests) := by
  -- from the back: the last request is the one that may repeat another
  induction requests using List.reverseRecOn with
  | nil => exact ⟨List.Sublist.refl [], rfl, fun _ => Iff.rfl, List.nodup_nil⟩
  | append_singleton requests r ih =>
      rw [invocations_append]
      cases r with
      | deferred name =>
          split
          · exact ih.append_again (repeats_deferred.mp ‹_›)
          · exact ih.append_first fun hname => ‹¬_› (repeats_deferred.mpr hname)
      | sync filter input args => exact ih.append_call rfl
      | async filter input args => exact ih.append_call rfl

/-- The record of what happens upon the requests of a direct run. -/
def record (requests : List Request) : List Effect :=
  (invocations requests).flatMap effects

theorem record_append_again {requests : List Request} {name : String}
    (h : deferred name ∈ requests) :
    record (requests ++ [deferred name]) = record requests := by
  have hdone := ((invocations_onceInOrder requests).names name).mpr h
  rw [record, invocations_append, if_pos (repeats_deferred.mpr hdone), record]

theorem record_append_first {requests : List Request} {name : String}
    (h : deferred name ∉ requests) :
    record (requests ++ [deferred name]) =
      record requests ++ [.called (.deferred name), .awaited name] := by
  have hdone : ¬(deferred name).repeats (invocations requests) = true := fun hrepeats =>
    h (((invocations_onceInOrder requests).names name).mp (repeats_deferred.mp hrepeats))
  rw [record, invocations_append, if_neg hdone, List.flatMap_append]
  rfl

theorem record_append_call (requests : List Request) {r : Request} (h : r.deferredName? = none) :
    record (requests ++ [r]) = record requests ++ r.effects := by
  have hdone : ¬r.repeats (invocations requests) = true := by
    cases r with
    | deferred name => contradiction
    | _ => exact Bool.false_ne_true
  rw [record, invocations_append, if_neg hdone, List.flatMap_append]
  exact congrArg _ (List.append_nil _)

end Request

/-! ### The direct run -/

namespace DirectState

variable {ω : Type}

/-- The known variables are those that were asked for, each of them once. -/
structure Accounted (d : DirectState ω) : Prop where
  names : ∀ name, name ∈ d.known.map (·.1) ↔ Request.deferred name ∈ d.requests
  nodup : (d.known.map (·.1)).Nodup

theorem mem_names_iff {known : List (String × Value)} {name : String} :
    name ∈ known.map (·.1) ↔ known.lookup name ≠ none := by
  rw [← Option.isSome_iff_ne_none, List.lookup_isSome_iff, List.mem_map]
  refine exists_congr fun entry => and_congr_right fun _ => ?_
  rw [beq_iff_eq, eq_comm]

variable {d : DirectState ω}

theorem Accounted.ask_call (h : d.Accounted) {r : Request} (hr : r.deferredName? = none) :
    (d.ask r).Accounted := by
  refine ⟨fun name => ?_, h.nodup⟩
  rw [ask, List.mem_append, List.mem_singleton, h.names]
  refine ⟨Or.inl, fun hname => hname.elim id fun heq => ?_⟩
  rw [← heq] at hr
  contradiction

theorem Accounted.mem (h : d.Accounted) {name : String} {v : Value}
    (hknown : d.known.lookup name = some v) : Request.deferred name ∈ d.requests :=
  (h.names name).mp (mem_names_iff.mpr (by simp [hknown]))

theorem Accounted.not_mem (h : d.Accounted) {name : String} (hknown : d.known.lookup name = none) :
    Request.deferred name ∉ d.requests := fun hname =>
  mem_names_iff.mp ((h.names name).mpr hname) hknown

theorem Accounted.ask_known (h : d.Accounted) {name : String} {v : Value}
    (hknown : d.known.lookup name = some v) : (d.ask (.deferred name)).Accounted := by
  refine ⟨fun other => ?_, h.nodup⟩
  rw [ask, List.mem_append, List.mem_singleton, h.names]
  refine ⟨Or.inl, fun hother => hother.elim id fun heq => ?_⟩
  rw [heq]
  exact h.mem hknown

theorem Accounted.produced (h : d.Accounted) {name : String} (hknown : d.known.lookup name = none)
    (v : Value) (world : ω) :
    { d.ask (.deferred name) with known := d.known ++ [(name, v)], world }.Accounted := by
  refine ⟨fun other => ?_, ?_⟩
  · simp [ask, ← h.names]
  · rw [List.map_append, List.nodup_append]
    refine ⟨h.nodup, List.nodup_singleton name, fun other hother again hagain => ?_⟩
    rw [List.mem_singleton.mp hagain]
    rintro rfl
    exact mem_names_iff.mp hother hknown

/-- As many variables are known as different ones were asked for. -/
theorem Accounted.length_known (h : d.Accounted) :
    d.known.length = (d.requests.filterMap Request.deferredName?).dedup.length := by
  -- two lists of the same names, both without repetition
  rw [← List.length_map (·.1)]
  refine List.Perm.length_eq ((List.perm_ext_iff_of_nodup h.nodup (List.nodup_dedup _)).mpr ?_)
  intro name
  rw [h.names, List.mem_dedup, List.mem_filterMap]
  refine ⟨fun hname => ⟨_, hname, rfl⟩, fun ⟨r, hr, hname⟩ => ?_⟩
  rwa [← Request.deferredName?_eq_some.mp hname]

/-- A direct run with a record. -/
def traced (d : DirectState ω) : DirectState (Recorded ω) :=
  { d with world := (d.world, Request.record d.requests) }

theorem traced_ask_again {name : String} (h : Request.deferred name ∈ d.requests) :
    d.traced.ask (.deferred name) = (d.ask (.deferred name)).traced := by
  rw [traced, traced, ask, ask, Request.record_append_again h]

theorem traced_ask_first {name : String} (h : Request.deferred name ∉ d.requests)
    (known : List (String × Value)) (world : ω) :
    { d.traced.ask (.deferred name) with
        known, world := (world, d.traced.world.2 ++ [.called (.deferred name), .awaited name]) } =
      { d.ask (.deferred name) with known, world }.traced := by
  rw [traced, traced, ask, ask, Request.record_append_first h]

theorem traced_ask_call {r : Request} (h : r.deferredName? = none) (world : ω) :
    { d.traced.ask r with world := (world, d.traced.world.2 ++ r.effects) } =
      { d.ask r with world }.traced := by
  rw [traced, traced, ask, ask, Request.record_append_call _ h]

end DirectState

section Await

variable {ω α : Type} (name : String) (w : ω) (log : List Effect)

theorem tracedSync_eq
    (run : FilterScope → Classified → List Value → ω → Except FilterError Classified × ω)
    (scope : FilterScope) (input : Classified) (args : List Value) :
    Filter.tracedSync name run scope input args (w, log) =
      ((run scope input args w).1,
        ((run scope input args w).2, log ++ [.called (.sync name input args)])) := rfl

theorem awaitOn_tracedProduce (produce : ω → Future ω Value × ω) :
    awaitOn (ContextEntry.tracedProduce name produce) (w, log) =
      ((awaitOn produce w).1,
        ((awaitOn produce w).2, log ++ [.called (.deferred name), .awaited name])) := by
  rw [List.append_cons]
  rfl

theorem awaitOn_tracedAsync
    (start : FilterScope → Classified → List Value → ω → Future ω Classified × ω)
    (scope : FilterScope) (input : Classified) (args : List Value) :
    awaitOn (Filter.tracedAsync name start scope input args) (w, log) =
      ((awaitOn (start scope input args) w).1,
        ((awaitOn (start scope input args) w).2,
          log ++ [.called (.async name input args), .awaited name])) := by
  rw [List.append_cons]
  rfl

end Await

namespace PassScope

variable {ω α : Type} {p : PassScope ω} {program : Template.Program α} {d d' : DirectState ω}
  {result : Except QueryError α}

theorem DirectRun.accounted (run : DirectRun p program d result d') (h : d.Accounted) {a : α}
    (ha : result = .ok a) : d'.Accounted := by
  induction run with
  | done => exact h
  | absent _ _ ih => exact ih h ha
  | plain _ _ ih => exact ih h ha
  | known _ hknown _ ih => exact ih (h.ask_known hknown) ha
  | produced _ hknown _ _ ih => exact ih (h.produced hknown _ _) ha
  | sync _ _ _ ih => exact ih ⟨(h.ask_call rfl).names, h.nodup⟩ ha
  | async _ _ _ ih => exact ih ⟨(h.ask_call rfl).names, h.nodup⟩ ha
  | emit _ _ ih => exact ih ⟨h.names, h.nodup⟩ ha
  | read _ _ ih => exact ih ⟨h.names, h.nodup⟩ ha
  | notProduced => contradiction
  | unregistered => contradiction
  | syncFailed => contradiction
  | asyncFailed => contradiction
  | refused => contradiction

theorem get?_traced_of {name : String} {entry : Option (ContextEntry ω)}
    (h : p.context.get? name = entry) :
    p.traced.context.get? name = entry.map (ContextEntry.traced name) := by
  rw [← h]
  exact p.context.get?_traced name

theorem resolve_traced_of {name : String} {filter : Except QueryError (Filter ω)}
    (h : p.registry.resolve name = filter) :
    p.traced.registry.resolve name = filter.map (Filter.traced name) := by
  rw [← h]
  exact p.registry.resolve_traced name

theorem direct_known_traced (h : d.Accounted) {name : String}
    {next : Option Value → Template.Program α} {produce : ω → Future ω Value × ω} {v : Value}
    (hget : p.context.get? name = some (.deferred produce))
    (hknown : d.known.lookup name = some v) :
    p.traced.direct (.lookup name next) d.traced =
      p.traced.direct (next (some v)) (d.ask (.deferred name)).traced := by
  rw [direct, get?_traced_of hget]
  simp only [Option.map_some, ContextEntry.traced, DirectState.traced_ask_again (h.mem hknown)]
  rw [show (d.ask (.deferred name)).traced.known.lookup name = _ from hknown]

theorem direct_produced_traced (h : d.Accounted) {name : String}
    {next : Option Value → Template.Program α} {produce : ω → Future ω Value × ω}
    (hget : p.context.get? name = some (.deferred produce))
    (hknown : d.known.lookup name = none) :
    p.traced.direct (.lookup name next) d.traced =
      match awaitOn produce d.world with
      | (.ok v, world) => p.traced.direct (next (some v))
        { d.ask (.deferred name) with known := d.known ++ [(name, v)], world }.traced
      | (.error e, world) =>
        (.error (.deferredValue name e), { d.ask (.deferred name) with world }.traced) := by
  have hfirst := DirectState.traced_ask_first (h.not_mem hknown)
  have hawait := awaitOn_tracedProduce name d.world (Request.record d.requests) produce
  rw [direct, get?_traced_of hget]
  simp only [Option.map_some, ContextEntry.traced]
  rw [show (d.traced.ask (.deferred name)).known.lookup name = _ from hknown,
    show awaitOn _ (d.traced.ask (.deferred name)).world = _ from hawait]
  rcases awaitOn produce d.world with ⟨e | v, world⟩
  · exact congrArg _ (hfirst _ _)
  · exact congrArg _ (hfirst _ _)

theorem direct_sync_traced {name : String} {input : Value} {args : List Value}
    {next : Value → Template.Program α}
    {run : FilterScope → Classified → List Value → ω → Except FilterError Classified × ω}
    (hget : p.registry.resolve name = .ok (.sync run)) (d : DirectState ω) :
    p.traced.direct (.call name input args next) d.traced =
      match run p.filterScope (classify input) args d.world with
      | (.ok v, world) => p.traced.direct (next v.toValue)
        { d.ask (.sync name (classify input) args) with world }.traced
      | (.error e, world) => (.error (.filterExecution name e),
        { d.ask (.sync name (classify input) args) with world }.traced) := by
  have hcall := DirectState.traced_ask_call (d := d) (r := .sync name (classify input) args) rfl
  have hrun := tracedSync_eq name d.world (Request.record d.requests) run p.filterScope
    (classify input) args
  rw [direct, resolve_traced_of hget]
  simp only [Except.map, Filter.traced]
  rw [show Filter.tracedSync name run p.traced.filterScope (classify input) args
    (d.traced.ask _).world = _ from hrun]
  rcases run p.filterScope (classify input) args d.world with ⟨e | v, world⟩
  · exact congrArg _ (hcall _)
  · exact congrArg _ (hcall _)

theorem direct_async_traced {name : String} {input : Value} {args : List Value}
    {next : Value → Template.Program α}
    {start : FilterScope → Classified → List Value → ω → Future ω Classified × ω}
    (hget : p.registry.resolve name = .ok (.async start)) (d : DirectState ω) :
    p.traced.direct (.call name input args next) d.traced =
      match awaitOn (start p.filterScope (classify input) args) d.world with
      | (.ok v, world) => p.traced.direct (next v.toValue)
        { d.ask (.async name (classify input) args) with world }.traced
      | (.error e, world) => (.error (.filterExecution name e),
        { d.ask (.async name (classify input) args) with world }.traced) := by
  have hcall := DirectState.traced_ask_call (d := d) (r := .async name (classify input) args) rfl
  have hawait := awaitOn_tracedAsync name d.world (Request.record d.requests) start p.filterScope
    (classify input) args
  rw [direct, resolve_traced_of hget]
  simp only [Except.map, Filter.traced]
  rw [show awaitOn (Filter.tracedAsync name start p.traced.filterScope (classify input) args)
    (d.traced.ask _).world = _ from hawait]
  rcases awaitOn (start p.filterScope (classify input) args) d.world with ⟨e | v, world⟩
  · exact congrArg _ (hcall _)
  · exact congrArg _ (hcall _)

/-- A direct run does in the caller's code what is to be done upon its requests. -/
theorem DirectRun.direct_traced (run : DirectRun p program d result d') (h : d.Accounted) :
    p.traced.direct program d.traced = (result, d'.traced) := by
  induction run with
  | done => rfl
  | absent hget _ ih =>
      rw [direct, get?_traced_of hget]
      exact ih h
  | plain hget _ ih =>
      rw [direct, get?_traced_of hget]
      exact ih h
  | known hget hknown _ ih =>
      rw [direct_known_traced h hget hknown]
      exact ih (h.ask_known hknown)
  | produced hget hknown hawait _ ih =>
      rw [direct_produced_traced h hget hknown, hawait]
      exact ih (h.produced hknown _ _)
  | notProduced hget hknown hawait => rw [direct_produced_traced h hget hknown, hawait]
  | unregistered hget =>
      rw [direct, resolve_traced_of hget]
      rfl
  | sync hget hrun _ ih =>
      rw [direct_sync_traced hget, hrun]
      exact ih ⟨(h.ask_call rfl).names, h.nodup⟩
  | syncFailed hget hrun => rw [direct_sync_traced hget, hrun]
  | async hget hawait _ ih =>
      rw [direct_async_traced hget, hawait]
      exact ih ⟨(h.ask_call rfl).names, h.nodup⟩
  | asyncFailed hget hawait => rw [direct_async_traced hget, hawait]
  | @emit v hint _ d text captures _ _ hwrite _ ih =>
      rw [direct, show Emission.write v hint d.traced.captures = _ from hwrite]
      exact ih ⟨h.names, h.nodup⟩
  | @refused v hint _ d e hwrite =>
      rw [direct, show Emission.write v hint d.traced.captures = _ from hwrite]
  | @read object attr _ d v world _ _ hread _ ih =>
      have hread' : p.traced.context.readAttribute object attr d.traced.world =
          (v, (world, Request.record d.requests)) := by
        simp only [traced, Context.traced, DirectState.traced, hread]
      rw [direct, hread']
      exact ih ⟨h.names, h.nodup⟩

end PassScope

namespace RenderProgram

variable {ω : Type} {program : RenderProgram} {registry : FilterRegistry ω} {context : Context ω}
  {options : RenderOptions} {world : ω}

/-- What a successful suspending render says about its run of passes. -/
theorem run_of_renderSuspending {n : Nat} {marked : MarkedQuery} {final : ω}
    (h : program.renderSuspending n registry context options world = (.ok marked, final)) :
    context.validate = .ok () ∧ ∃ r,
      Replay.run program registry context options n { world } = (some (.ok marked), r) ∧
      r.world = final := by
  rw [renderSuspending] at h
  cases hvalid : context.validate with
  | error e =>
      rw [hvalid] at h
      cases h
  | ok u =>
      rw [hvalid] at h
      refine ⟨rfl, ?_⟩
      rcases hrun : Replay.run program registry context options n { world } with ⟨_ | result, r⟩
      · rw [hrun] at h
        cases h
      · rw [hrun] at h
        cases h
        exact ⟨r, rfl, rfl⟩

theorem eq_ok_of_report {d : DirectState ω}
    {result : Except QueryError (Except QueryError String)} {marked : MarkedQuery}
    (h : d.report result = .ok marked) :
    ∃ text, result = .ok (.ok text) ∧ marked = ⟨text, d.captures⟩ := by
  rcases result with e | e | text
  · contradiction
  · contradiction
  · cases h
    exact ⟨text, rfl, rfl⟩

/-- The record of a render that ends is the record of the direct run. -/
theorem run_traced_eq (hdet : program.Deterministic context.readAttribute)
    {result : Except QueryError (Except QueryError String)} {d : DirectState ω}
    (hdirect : PassScope.direct { registry, context, options, mode := .suspending } program
      { world } = (result, d)) {n : Nat} {marked : MarkedQuery} {r : Replay ω}
    (hrun : Replay.run program registry context options n { world } = (some (.ok marked), r)) :
    Replay.run program registry.traced context.traced options n { world := (world, []) } =
      (some (.ok marked), r.traced (Request.record d.requests)) := by
  -- the recorded render ends like the render itself, with a record that is not known yet
  obtain ⟨log, hlog⟩ := Replay.run_traced program registry context options n [] { world }
  rw [hrun] at hlog
  -- it has a direct run too, and this one ends with the record of its requests
  have hdrun := PassScope.directRun { registry, context, options, mode := .suspending } program
    { world }
  rw [hdirect] at hdrun
  have htraced := hdrun.direct_traced (d := { world }) ⟨by simp, List.nodup_nil⟩
  obtain ⟨r', hcourse, hworld, -, -⟩ :=
    course_of_direct hdet.traced (Replay.halts_of_run hlog) htraced
  obtain ⟨-, hr⟩ := Replay.run_unique hlog (hcourse.ends _ (Nat.lt_succ_self _))
  have hrecord : log = Request.record d.requests := by
    rw [← hr] at hworld
    exact congrArg Prod.snd hworld
  rw [← hrecord]
  exact hlog

/-- A successful suspending render and the direct run with the requests of `d` do the same in the
caller's code: the record of the render has every filter call, every computation and every deferred
variable of the direct run exactly once and in its order. It takes a pass for each async filter call
and each deferred variable, and one more, and every pass but the last adds one result. -/
theorem renderSuspending_exactlyOnce (hdet : program.Deterministic context.readAttribute) {n : Nat}
    {marked : MarkedQuery} {final : ω}
    (h : program.renderSuspending n registry context options world = (.ok marked, final)) :
    ∃ (d : DirectState ω) (r : Replay ω),
      program.renderDirect registry context options world = (.ok marked, d) ∧ d.world = final ∧
      Replay.run program registry context options n { world } = (some (.ok marked), r) ∧
      Replay.run program registry.traced context.traced options n { world := (world, []) } =
        (some (.ok marked), r.traced ((Request.invocations d.requests).flatMap Request.effects)) ∧
      Request.OnceInOrder d.requests (Request.invocations d.requests) ∧
      r.passes = 1 + d.requests.countP Request.isAsync +
        (d.requests.filterMap Request.deferredName?).dedup.length ∧
      r.resolutions.length + 1 = r.passes ∧
      ∀ k, k < r.passes →
        ∃ s, Replay.run program registry context options k { world } = (none, s) ∧
          s.passes = k ∧ s.resolutions.length = k := by
  obtain ⟨hvalid, r, hrun, hworld⟩ := run_of_renderSuspending h
  have hhalts := Replay.halts_of_run hrun
  rcases hdirect : PassScope.direct { registry, context, options, mode := .suspending } program
    { world } with ⟨result, d⟩
  -- The passes come to what the direct run comes to, and its requests tell how many there are.
  obtain ⟨r', hcourse, hd, hlookups, hfilters⟩ := course_of_direct hdet hhalts hdirect
  obtain ⟨hresult, rfl⟩ := Replay.run_unique hrun (hcourse.ends _ (Nat.lt_succ_self _))
  obtain ⟨text, rfl, rfl⟩ := eq_ok_of_report hresult.symm
  have hdrun := PassScope.directRun { registry, context, options, mode := .suspending } program
    { world }
  rw [hdirect] at hdrun
  have haccounted : d.Accounted := hdrun.accounted ⟨by simp, List.nodup_nil⟩ rfl
  have hpasses : r.passes = 1 + d.requests.countP Request.isAsync +
      (d.requests.filterMap Request.deferredName?).dedup.length := by
    rw [hcourse.passes, Resolutions.length, hlookups, haccounted.length_known, hfilters _ rfl]
    omega
  refine ⟨d, r, ?_, hd.symm.trans hworld, hrun, run_traced_eq hdet hdirect hrun,
    Request.invocations_onceInOrder _, hpasses, hcourse.passes.symm, fun k hk => ?_⟩
  · rw [renderDirect, hvalid]
    simp only [hdirect]
  · exact hcourse.goesOn k (by rw [hcourse.passes] at hk; exact Nat.le_of_lt_succ hk)

theorem tenantQuery_exactlyOnce : ∃ marked,
    tenantQuery.renderSuspending 3 tenantFilters tenantContext {} 0 = (.ok marked, 5) ∧
    ∃ (d : DirectState Nat) (r : Replay Nat),
      tenantQuery.renderDirect tenantFilters tenantContext {} 0 = (.ok marked, d) ∧ d.world = 5 ∧
      Replay.run tenantQuery tenantFilters tenantContext {} 3 { world := 0 } =
        (some (.ok marked), r) ∧
      Replay.run tenantQuery tenantFilters.traced tenantContext.traced {} 3 { world := (0, []) } =
        (some (.ok marked), r.traced ((Request.invocations d.requests).flatMap Request.effects)) ∧
      Request.OnceInOrder d.requests (Request.invocations d.requests) ∧
      r.passes = 1 + d.requests.countP Request.isAsync +
        (d.requests.filterMap Request.deferredName?).dedup.length ∧
      r.resolutions.length + 1 = r.passes ∧
      ∀ k, k < r.passes →
        ∃ s, Replay.run tenantQuery tenantFilters tenantContext {} k { world := 0 } = (none, s) ∧
          s.passes = k ∧ s.resolutions.length = k :=
  ⟨_, rfl, renderSuspending_exactlyOnce (tenantQuery_deterministic _) rfl⟩

end RenderProgram

end QueryTemplate
