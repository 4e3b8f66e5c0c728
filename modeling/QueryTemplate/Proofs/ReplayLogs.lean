import QueryTemplate.Proofs.Replaying

/-!
The logs that replays are answered from. A render keeps the results of its async filter calls and
the outputs of its sync ones, each under the ordinal of the call. Here the logs stand for
themselves: suspensions are awaited and outputs recorded in any order, with any names and ordinals,
and the computations succeed or fail.

`LogUpdate.resolve` and `LogUpdate.record` write the logs in place and may stop half-way; what they
have written by then stays written. `run_resolve` and `run_record` say that they come to what
`Resolutions.resolve` and `CallLog.record` give. `zipIdx_log_after` says what one call adds to a
log: the entry that it has for the next ordinal, or nothing. So the entries that a history of calls
has recorded, each with the ordinal that its call named, are those of the log with their positions.
`exists_afterAll_run` gives the history that a suspending render makes.
-/

namespace QueryTemplate

variable {ω α : Type}

/-- The logs of a render, and the state of the caller's code. -/
structure ReplayLogs (ω : Type) where
  resolutions : Resolutions := {}
  outputs : CallLog := []
  world : ω

/-- The filter calls that a log is about. -/
inductive CallKind where
  | sync
  | async

namespace ReplayLogs

/-- The log of the calls of a kind. -/
def log (logs : ReplayLogs ω) : CallKind → CallLog
  | .sync => logs.outputs
  | .async => logs.resolutions.filters

/-- What is answered for a call. -/
def read (logs : ReplayLogs ω) (ordinal : Nat) (name : String) :
    CallKind → Except QueryError (Option Classified)
  | .sync => logs.outputs.output ordinal name
  | .async => logs.resolutions.filter ordinal name

theorem read_eq (logs : ReplayLogs ω) (ordinal : Nat) (name : String) (kind : CallKind) :
    logs.read ordinal name kind = (logs.log kind).output ordinal name := by
  cases kind <;> rfl

end ReplayLogs

namespace Suspension

/-- The computation that is waited for fails. -/
def Fails (world : ω) : Suspension ω → Prop
  | lookup _ future => ∃ e, (future world).1 = .error e
  | filter _ _ future => ∃ e, (future world).1 = .error e

/-- The filter call that is waited for is not the next one. -/
def OutOfTurn (next : Nat) : Suspension ω → Prop
  | lookup .. => False
  | filter _ ordinal _ => ordinal ≠ next

end Suspension

/-! ### Writing in place

`Resolutions.resolve` returns no logs when it fails, so a failure cannot leave anything behind
there. Here a call is code that checks, awaits and writes, one after the other, on logs that outlast
its failure. That nothing was written by then is what has to be shown. -/

/-- Code that writes the logs. A failure does not take back what was written. -/
abbrev LogUpdate (ω α : Type) := EStateM QueryError (ReplayLogs ω) α

namespace LogUpdate

/-- Runs a computation to its end. -/
def await (future : Future ω α) (report : FilterError → QueryError) : LogUpdate ω α := do
  let (result, world) := future (← get).world
  modify fun logs => { logs with world }
  match result with
  | .ok v => return v
  | .error e => throw (report e)

/-- Awaits a suspension and writes the result down. -/
def resolve : Suspension ω → LogUpdate ω Unit
  | .lookup name future => do
    let v ← await future (.deferredValue name)
    modify fun logs =>
      { logs with
        resolutions.lookups := Resolutions.insertLookup name v logs.resolutions.lookups }
  | .filter name ordinal future => do
    let next := (← get).resolutions.filters.length
    if ordinal ≠ next then
      throw (.replayDiverged ordinal ("async call #" ++ toString next) name)
    let v ← await future (.filterExecution name)
    modify fun logs =>
      { logs with resolutions.filters := logs.resolutions.filters ++ [(name, v)] }

/-- Writes the output of a sync filter call down, if it is the next one. -/
def record (ordinal : Nat) (name : String) (output : Classified) : LogUpdate ω Unit := do
  if ordinal = (← get).outputs.length then
    modify fun logs => { logs with outputs := logs.outputs ++ [(name, output)] }

theorem run_await (future : Future ω α) (report : FilterError → QueryError)
    (logs : ReplayLogs ω) :
    (await future report).run logs =
      match future logs.world with
      | (.ok v, world) => .ok v { logs with world }
      | (.error e, world) => .error (report e) { logs with world } := by
  simp only [await, EStateM.run_bind, EStateM.run_get]
  rcases future logs.world with ⟨e | v, world⟩ <;> rfl

theorem run_resolve (pending : Suspension ω) (logs : ReplayLogs ω) :
    (resolve pending).run logs =
      match logs.resolutions.resolve pending logs.world with
      | (.ok resolutions, world) => .ok () { logs with resolutions, world }
      | (.error e, world) => .error e { logs with world } := by
  cases pending with
  | lookup name future =>
      rw [resolve, EStateM.run_bind, run_await, Resolutions.resolve]
      rcases future logs.world with ⟨e | v, world⟩ <;> rfl
  | filter name ordinal future =>
      rw [resolve, EStateM.run_bind, EStateM.run_get, Resolutions.resolve]
      by_cases hnext : ordinal = logs.resolutions.filters.length
      · simp only [if_pos hnext, if_neg (not_not_intro hnext), ne_eq]
        rw [EStateM.run_bind, run_await]
        rcases future logs.world with ⟨e | v, world⟩ <;> rfl
      · simp only [if_neg hnext, if_pos hnext, ne_eq]
        rfl

theorem run_record (ordinal : Nat) (name : String) (output : Classified) (logs : ReplayLogs ω) :
    (record ordinal name output).run logs =
      .ok () { logs with outputs := logs.outputs.record ordinal name output } := by
  rw [record, EStateM.run_bind, EStateM.run_get, CallLog.record]
  simp only
  split <;> rfl

variable {logs logs' : ReplayLogs ω} {pending : Suspension ω}

/-- A suspension that is not awaited, or comes to no result, leaves the logs as they are. -/
theorem logs_of_run_resolve_error {e : QueryError}
    (h : (resolve pending).run logs = .error e logs') :
    ∃ world, logs' = { logs with world } := by
  rw [run_resolve] at h
  split at h
  · contradiction
  · rename_i fault world _
    cases h
    exact ⟨world, rfl⟩

/-- A filter call that is not the next one is not awaited. -/
theorem run_resolve_of_ne {ordinal : Nat} (h : ordinal ≠ logs.resolutions.filters.length)
    (name : String) (future : Future ω Classified) :
    (resolve (.filter name ordinal future)).run logs =
      .error (.replayDiverged ordinal
        ("async call #" ++ toString logs.resolutions.filters.length) name) logs := by
  rw [run_resolve, Resolutions.resolve, if_neg h]

theorem run_resolve_error_iff :
    (∃ e logs', (resolve pending).run logs = .error e logs') ↔
      pending.OutOfTurn logs.resolutions.filters.length ∨ pending.Fails logs.world := by
  cases pending with
  | lookup name future =>
      rw [run_resolve, Resolutions.resolve, Suspension.OutOfTurn, Suspension.Fails]
      rcases future logs.world with ⟨e | v, world⟩ <;> simp
  | filter name ordinal future =>
      rw [Suspension.OutOfTurn, Suspension.Fails]
      by_cases hnext : ordinal = logs.resolutions.filters.length
      · rw [run_resolve, Resolutions.resolve, if_pos hnext]
        rcases future logs.world with ⟨e | v, world⟩ <;> simp [hnext]
      · rw [run_resolve_of_ne hnext]
        simp [hnext]

theorem run_record_of_ne {ordinal : Nat} (h : ordinal ≠ logs.outputs.length) (name : String)
    (output : Classified) : (record ordinal name output).run logs = .ok () logs := by
  rw [run_record, CallLog.record, if_neg h]

end LogUpdate

/-! ### Histories

Calls are made one after the other, and a failure of one does not keep the next from being made.
Filters and the caller's objects run in between, which is why the state of the caller's code may be
another one at every call. -/

/-- Something that happens to the logs, or beside them. -/
inductive LogCall (ω : Type) where
  /-- A suspension is awaited. -/
  | resolve (pending : Suspension ω)
  /-- The output of a sync filter call is recorded. -/
  | record (ordinal : Nat) (name : String) (output : Classified)
  /-- The caller's code does something else, and is in the state `world` then. -/
  | meanwhile (world : ω)

namespace LogCall

def update : LogCall ω → LogUpdate ω Unit
  | resolve pending => LogUpdate.resolve pending
  | record ordinal name output => LogUpdate.record ordinal name output
  | meanwhile world => modify fun logs => { logs with world }

/-- What a call has for a log, with the ordinal that it names: a computation must have come to a
result. -/
def offer (world : ω) : CallKind → LogCall ω → Option ((String × Classified) × Nat)
  | .async, resolve (.filter name ordinal future) =>
    match (future world).1 with
    | .ok v => some ((name, v), ordinal)
    | .error _ => none
  | .sync, record ordinal name output => some ((name, output), ordinal)
  | _, _ => none

/-- What a call records in a log: what it has for the ordinal that comes next. -/
def recorded (logs : ReplayLogs ω) (kind : CallKind) (call : LogCall ω) :
    Option ((String × Classified) × Nat) :=
  (call.offer logs.world kind).filter fun entry => entry.2 = (logs.log kind).length

end LogCall

namespace ReplayLogs

/-- The logs after a call, whether it fails or not. -/
def after (logs : ReplayLogs ω) (call : LogCall ω) : ReplayLogs ω :=
  match call.update.run logs with
  | .ok _ logs => logs
  | .error _ logs => logs

/-- The logs after all of the calls. -/
def afterAll (logs : ReplayLogs ω) (calls : List (LogCall ω)) : ReplayLogs ω :=
  calls.foldl after logs

/-- What the calls record in a log, one after the other. -/
def recordedBy (kind : CallKind) :
    ReplayLogs ω → List (LogCall ω) → List ((String × Classified) × Nat)
  | _, [] => []
  | logs, call :: calls =>
    (call.recorded logs kind).toList ++ recordedBy kind (logs.after call) calls

@[simp] theorem afterAll_nil (logs : ReplayLogs ω) : logs.afterAll [] = logs := rfl

@[simp] theorem afterAll_cons (logs : ReplayLogs ω) (call : LogCall ω) (calls : List (LogCall ω)) :
    logs.afterAll (call :: calls) = (logs.after call).afterAll calls := rfl

theorem afterAll_append (logs : ReplayLogs ω) (calls more : List (LogCall ω)) :
    logs.afterAll (calls ++ more) = (logs.afterAll calls).afterAll more :=
  List.foldl_append

theorem after_resolve (logs : ReplayLogs ω) (pending : Suspension ω) :
    logs.after (.resolve pending) =
      match logs.resolutions.resolve pending logs.world with
      | (.ok resolutions, world) => { logs with resolutions, world }
      | (.error _, world) => { logs with world } := by
  rw [after, LogCall.update, LogUpdate.run_resolve]
  rcases logs.resolutions.resolve pending logs.world with ⟨e | resolutions, world⟩ <;> rfl

theorem after_record (logs : ReplayLogs ω) (ordinal : Nat) (name : String) (output : Classified) :
    logs.after (.record ordinal name output) =
      { logs with outputs := logs.outputs.record ordinal name output } := by
  rw [after, LogCall.update, LogUpdate.run_record]

theorem after_meanwhile (logs : ReplayLogs ω) (world : ω) :
    logs.after (.meanwhile world) = { logs with world } := rfl

/-- A call does to a log what recording does that has the same entry to offer. -/
theorem log_after (logs : ReplayLogs ω) (kind : CallKind) (call : LogCall ω) :
    (logs.after call).log kind =
      match call.offer logs.world kind with
      | some ((name, v), ordinal) => (logs.log kind).record ordinal name v
      | none => logs.log kind := by
  cases call with
  -- A computation is offered to the log of the async calls, and leaves the other one alone.
  | resolve pending =>
      rw [after_resolve]
      cases pending with
      | lookup name future =>
          rw [Resolutions.resolve]
          rcases future logs.world with ⟨e | v, world⟩ <;> cases kind <;> rfl
      | filter name ordinal future =>
          rw [Resolutions.resolve]
          by_cases hnext : ordinal = logs.resolutions.filters.length
          · rcases hfuture : future logs.world with ⟨e | v, world⟩ <;> cases kind <;>
              simp [log, LogCall.offer, CallLog.record, hfuture, hnext]
          -- Out of turn, so what the computation would come to does not matter.
          · rcases hfuture : future logs.world with ⟨e | v, world⟩ <;> cases kind <;>
              simp [log, LogCall.offer, CallLog.record, hfuture, hnext]
  | record ordinal name output =>
      rw [after_record]
      cases kind <;> rfl
  | meanwhile world => cases kind <;> rfl

/-- A call adds to a log what it records there, behind everything else. -/
theorem zipIdx_log_after (logs : ReplayLogs ω) (kind : CallKind) (call : LogCall ω) :
    ((logs.after call).log kind).zipIdx =
      (logs.log kind).zipIdx ++ (call.recorded logs kind).toList := by
  rw [log_after, LogCall.recorded]
  rcases call.offer logs.world kind with _ | ⟨⟨name, v⟩, ordinal⟩
  · simp
  · simp only [CallLog.record, Option.filter_some, decide_eq_true_eq]
    split
    · rename_i hnext
      rw [List.zipIdx_append, Nat.zero_add, hnext]
      rfl
    · simp

/-- The entries of a log with their ordinals, after a history: those from before, and what the calls
have recorded. -/
theorem zipIdx_log_afterAll (logs : ReplayLogs ω) (kind : CallKind) (calls : List (LogCall ω)) :
    ((logs.afterAll calls).log kind).zipIdx =
      (logs.log kind).zipIdx ++ recordedBy kind logs calls := by
  -- The logs are general, since a call offers what its computation comes to in their state.
  induction calls generalizing logs with
  | nil => simp [recordedBy]
  | cons call calls ih =>
      rw [afterAll_cons, ih, zipIdx_log_after, recordedBy, List.append_assoc]

/-- Nothing that is in a log is changed, moved or removed. -/
theorem log_isPrefix_afterAll (logs : ReplayLogs ω) (kind : CallKind) (calls : List (LogCall ω)) :
    logs.log kind <+: (logs.afterAll calls).log kind := by
  have hprefix : (logs.log kind).zipIdx <+: ((logs.afterAll calls).log kind).zipIdx := by
    rw [zipIdx_log_afterAll]
    exact List.prefix_append _ _
  simpa only [List.zipIdx_map_fst] using hprefix.map Prod.fst

theorem getElem?_log_afterAll {logs : ReplayLogs ω} {kind : CallKind} {ordinal : Nat}
    {entry : String × Classified} (h : (logs.log kind)[ordinal]? = some entry)
    (calls : List (LogCall ω)) : ((logs.afterAll calls).log kind)[ordinal]? = some entry := by
  obtain ⟨hlt, rfl⟩ := List.getElem?_eq_some_iff.mp h
  exact List.prefix_iff_getElem?.mp (logs.log_isPrefix_afterAll kind calls) ordinal hlt

theorem read_of_getElem? {logs : ReplayLogs ω} {kind : CallKind} {ordinal : Nat}
    {recorded : String} {v : Classified} (h : (logs.log kind)[ordinal]? = some (recorded, v))
    (name : String) :
    logs.read ordinal name kind =
      if name = recorded then .ok (some v)
      else .error (.replayDiverged ordinal recorded name) := by
  rw [read_eq, CallLog.output, h]
  simp only [eq_comm (a := name)]

theorem read_of_length_le {logs : ReplayLogs ω} {kind : CallKind} {ordinal : Nat}
    (h : (logs.log kind).length ≤ ordinal) (name : String) :
    logs.read ordinal name kind = .ok none := by
  rw [read_eq, CallLog.output, List.getElem?_eq_none h]

end ReplayLogs

/-! ### The history of a render

A pass writes the logs at one place only, where a sync filter has been called. What it waits for is
awaited when it has ended. -/

namespace PassScope

variable {p : PassScope ω}

/-- What a pass does to the logs between two of its states is a history of calls. -/
def Logged (s t : PassState ω) : Prop :=
  ∃ calls : List (LogCall ω), ∀ resolutions,
    ReplayLogs.afterAll ⟨resolutions, s.outputs, s.world⟩ calls = ⟨resolutions, t.outputs, t.world⟩

theorem Logged.of_outputs_eq {s t : PassState ω} (h : t.outputs = s.outputs) : Logged s t :=
  ⟨[.meanwhile t.world], fun resolutions => by simp [ReplayLogs.after_meanwhile, h]⟩

theorem Logged.of_record {s t : PassState ω} {ordinal : Nat} {name : String} {output : Classified}
    (h : t.outputs = s.outputs.record ordinal name output) : Logged s t :=
  ⟨[.meanwhile t.world, .record ordinal name output], fun resolutions => by
    simp [ReplayLogs.after_meanwhile, ReplayLogs.after_record, h]⟩

theorem Logged.trans {s t u : PassState ω} (h : Logged s t) (h' : Logged t u) : Logged s u := by
  obtain ⟨calls, hcalls⟩ := h
  obtain ⟨more, hmore⟩ := h'
  exact ⟨calls ++ more, fun resolutions => by
    rw [ReplayLogs.afterAll_append, hcalls, hmore]⟩

theorem logged_lookup (name : String) (s : PassState ω) : Logged s (p.lookup name s).2 := by
  apply Logged.of_outputs_eq
  rw [lookup]
  split
  · rfl
  · rfl
  · rw [lookupDeferred]
    split
    · rfl
    · split
      · rfl
      · split <;> rfl

theorem logged_callSync (name : String)
    (run : FilterScope → Classified → List Value → ω → Except FilterError Classified × ω)
    (input : Classified) (args : List Value) (s : PassState ω) :
    Logged s (p.callSync name run input args s).2 := by
  simp only [callSync, runSync]
  cases p.mode with
  | sequential =>
      rcases run p.filterScope input args s.world with ⟨_ | output, world⟩
      · exact .of_outputs_eq rfl
      · exact .of_outputs_eq rfl
  | suspending =>
      rcases s.outputs.output s.syncCalls name with e | _ | output
      · exact .of_outputs_eq rfl
      · rcases run p.filterScope input args s.world with ⟨_ | output, world⟩
        · exact .of_outputs_eq rfl
        · exact .of_record rfl
      · exact .of_outputs_eq rfl

theorem logged_call (name : String) (input : Value) (args : List Value) (s : PassState ω) :
    Logged s (p.call name input args s).2 := by
  rw [call]
  split
  · exact .of_outputs_eq rfl
  · split
    · exact .of_outputs_eq rfl
    · exact logged_callSync _ _ _ _ _
    · apply Logged.of_outputs_eq
      simp only [callAsync]
      split
      · rfl
      · split <;> rfl

theorem logged_emit (v : Value) (hint : Option String) (s : PassState ω) :
    Logged s (s.emit v hint).2 := by
  apply Logged.of_outputs_eq
  cases h : s.isSuspended with
  | true => rw [PassState.emit_of_suspended h]
  | false =>
      rw [PassState.emit_eq h]
      split <;> rfl

theorem logged_run (program : Template.Program α) (s : PassState ω) :
    Logged s (p.run program s).2 :=
  run_induction (fun _ => .of_outputs_eq rfl) .trans logged_lookup logged_call logged_emit
    (fun _ _ _ => .of_outputs_eq rfl) program s

theorem logged_outcome (program : RenderProgram) (s : PassState ω) :
    Logged s (p.outcome program s).2 := by
  have hrun := logged_run (p := p) program s
  rw [outcome]
  split
  all_goals
    rename_i h
    rwa [h] at hrun

end PassScope

namespace Replay

/-- The logs of a render between two passes. -/
def logs (r : Replay ω) : ReplayLogs ω :=
  ⟨r.resolutions, r.outputs, r.world⟩

variable (program : RenderProgram) (registry : FilterRegistry ω) (context : Context ω)
  (options : RenderOptions)

/-- A pass writes the logs by recording, and awaiting at its end. -/
theorem exists_afterAll_advance (r : Replay ω) :
    ∃ calls, (r.advance program registry context options).2.logs = r.logs.afterAll calls := by
  obtain ⟨calls, hcalls⟩ := PassScope.logged_outcome (p := r.nextPass registry context options)
    program r.start
  have hpass := hcalls r.resolutions
  rw [advance_eq]
  rcases houtcome : (r.nextPass registry context options).outcome program r.start with
    ⟨marked | pending | e, s⟩ <;> rw [houtcome] at hpass
  · exact ⟨calls, hpass.symm⟩
  · refine ⟨calls ++ [.resolve pending], ?_⟩
    rw [ReplayLogs.afterAll_append, show r.logs.afterAll calls = _ from hpass,
      ReplayLogs.afterAll_cons, ReplayLogs.afterAll_nil, ReplayLogs.after_resolve]
    rcases hresolve : r.resolutions.resolve pending s.world with ⟨e | resolutions, world⟩
    · simp only [hresolve]
      rfl
    · simp only [hresolve]
      rfl
  · exact ⟨calls, hpass.symm⟩

/-- A suspending render writes its logs by such calls only. -/
theorem exists_afterAll_run (passes : Nat) (r : Replay ω) :
    ∃ calls, (run program registry context options passes r).2.logs = r.logs.afterAll calls := by
  induction passes generalizing r with
  | zero => exact ⟨[], rfl⟩
  | succ passes ih =>
      obtain ⟨calls, hcalls⟩ := exists_afterAll_advance program registry context options r
      rw [run_succ]
      rcases hadvance : advance program registry context options r with ⟨_ | result, s⟩ <;>
        rw [hadvance] at hcalls
      · obtain ⟨more, hmore⟩ := ih s
        refine ⟨calls ++ more, ?_⟩
        rw [ReplayLogs.afterAll_append, ← hcalls]
        exact hmore
      · exact ⟨calls, hcalls⟩

end Replay

namespace ReplayLogs

/-- The logs are append-only and have no gaps, whatever was awaited and recorded. The entries that
the calls have recorded are those of the log, in their order, and the ordinals that they named are
those below its length; whatever is called later, an entry stays where it is. Awaiting fails exactly
if the computation does or the filter call is not the next one; the logs stay as they are then, and
in the second case nothing is awaited. An output for another ordinal than the next one is not
recorded. An ordinal is answered with what was recorded for it, under the name that it was recorded
for, and any other name is an error; behind the last one there is no answer. A suspending render
writes its logs by such calls. -/
theorem appendOnly_contiguous (w : ω) (calls : List (LogCall ω)) :
    let logs : ReplayLogs ω := afterAll { world := w } calls
    (∀ kind, (recordedBy kind { world := w } calls).map Prod.fst = logs.log kind ∧
      (recordedBy kind { world := w } calls).map Prod.snd = List.range (logs.log kind).length) ∧
    (∀ kind more (ordinal : Nat) entry, (logs.log kind)[ordinal]? = some entry →
      ((logs.afterAll more).log kind)[ordinal]? = some entry) ∧
    (∀ pending : Suspension ω, (∃ e logs', (LogUpdate.resolve pending).run logs = .error e logs') ↔
      pending.OutOfTurn (logs.log .async).length ∨ pending.Fails logs.world) ∧
    (∀ (pending : Suspension ω) e logs', (LogUpdate.resolve pending).run logs = .error e logs' →
      ∃ world, logs' = { logs with world }) ∧
    (∀ name ordinal (future : Future ω Classified), ordinal ≠ (logs.log .async).length →
      (LogUpdate.resolve (.filter name ordinal future)).run logs =
        .error (.replayDiverged ordinal
          ("async call #" ++ toString (logs.log .async).length) name) logs) ∧
    (∀ ordinal name output, ordinal ≠ (logs.log .sync).length →
      (LogUpdate.record ordinal name output).run logs = .ok () logs) ∧
    (∀ kind ordinal recorded v, ((recorded, v), ordinal) ∈ recordedBy kind { world := w } calls →
      ∀ name, logs.read ordinal name kind =
        if name = recorded then .ok (some v)
        else .error (.replayDiverged ordinal recorded name)) ∧
    (∀ kind ordinal name, (logs.log kind).length ≤ ordinal →
      logs.read ordinal name kind = .ok none) ∧
    ∀ program registry context options passes, ∃ history,
      (Replay.run program registry context options passes { world := w }).2.logs =
        afterAll { world := w } history := by
  intro logs
  -- What was recorded is the log with its positions, and what is asked later is read off the log.
  have hrecorded : ∀ kind, recordedBy kind { world := w } calls = (logs.log kind).zipIdx := by
    intro kind
    have h := zipIdx_log_afterAll { world := w } kind calls
    rw [h]
    cases kind <;> rfl
  refine ⟨?_, ?_, fun _ => LogUpdate.run_resolve_error_iff,
    fun _ _ _ h => LogUpdate.logs_of_run_resolve_error h,
    fun name ordinal future h => LogUpdate.run_resolve_of_ne h name future,
    fun ordinal name output h => LogUpdate.run_record_of_ne h name output, ?_,
    fun _ _ name h => read_of_length_le h name,
    fun program registry context options passes =>
      Replay.exists_afterAll_run program registry context options passes { world := w }⟩
  · intro kind
    rw [hrecorded, List.zipIdx_map_fst, List.zipIdx_map_snd, List.range_eq_range']
    exact ⟨rfl, rfl⟩
  · exact fun kind more ordinal entry hentry => getElem?_log_afterAll hentry more
  · intro kind ordinal recorded v hmem name
    rw [hrecorded, List.mk_mem_zipIdx_iff_getElem?] at hmem
    exact read_of_getElem? hmem name

/-- A computation that counts how often it is awaited. -/
def counted (result : Except FilterError α) : Future Nat α :=
  fun n => (result, n + 1)

/-- A filter call that comes to a result, an output that is recorded and one for an ordinal that is
not the next, the first call once more, and a variable and the next call, which both fail. -/
def maskHistory : List (LogCall Nat) :=
  [.resolve (.filter "mask" 0 (counted (.ok (.parameter (.int 1) none)))),
    .record 0 "trim" (.raw "a"), .record 2 "trim" (.raw "c"),
    .resolve (.filter "mask" 0 (counted (.ok (.raw "again")))),
    .resolve (.lookup "tenant" (counted (.error (.custom "offline")))),
    .resolve (.filter "mask" 1 (counted (.error (.custom "offline"))))]

theorem appendOnly_contiguous_mask :
    let logs : ReplayLogs Nat := afterAll { world := 0 } maskHistory
    logs.world = 3 ∧
      (∀ more, ((logs.afterAll more).log .async)[0]? =
        some ("mask", .parameter (.int 1) none)) ∧
      logs.read 0 "mask" .async = .ok (some (.parameter (.int 1) none)) ∧
      logs.read 0 "trim" .async = .error (.replayDiverged 0 "mask" "trim") ∧
      logs.read 1 "trim" .sync = .ok none ∧
      (LogUpdate.record 2 "trim" (.raw "c")).run logs = .ok () logs ∧
      (LogUpdate.resolve (.filter "mask" 3 (counted (.ok (.raw "late"))))).run logs =
        .error (.replayDiverged 3 "async call #1" "mask") logs := by
  intro logs
  obtain ⟨-, hkept, -, -, hdiverged, hskipped, hread, hend, -⟩ :=
    appendOnly_contiguous 0 maskHistory
  exact ⟨rfl, fun more => hkept .async more 0 _ rfl, hread .async 0 "mask" _ (.head _) "mask",
    hread .async 0 "mask" _ (.head _) "trim", hend .sync 1 "trim" (by decide),
    hskipped 2 "trim" _ (by decide), hdiverged "mask" 3 _ (by decide)⟩

end ReplayLogs

end QueryTemplate
