import QueryTemplate.Proofs.Emission
import QueryTemplate.Render.Replay

/-!
The direct run of a program, which the renders are measured against: every deferred variable and
every async filter call is awaited where the program asks for it, and the run goes on with the
answer. A deferred variable is produced when it is first asked for and known from then on. The run
keeps the list of what it asked the caller's code for.
-/

namespace QueryTemplate

namespace Template.Program

variable {α ω : Type}

/-- What the program reads of the caller's objects is always the same, and reading it has no
effect. -/
def Deterministic (read : Nat → String → ω → Option Value × ω) : Program α → Prop
  | .done _ => True
  | .lookup _ next => ∀ v, (next v).Deterministic read
  | .call _ _ _ next => ∀ v, (next v).Deterministic read
  | .emit _ _ next => ∀ text, (next text).Deterministic read
  | .read object attr next =>
    (∃ v, ∀ w, read object attr w = (v, w)) ∧ ∀ v, (next v).Deterministic read

/-- With some answers the program ends with `a`. -/
def CanEnd (a : α) : Program α → Prop
  | .done b => b = a
  | .lookup _ next => ∃ v, (next v).CanEnd a
  | .call _ _ _ next => ∃ v, (next v).CanEnd a
  | .emit _ _ next => ∃ text, (next text).CanEnd a
  | .read _ _ next => ∃ v, (next v).CanEnd a

theorem exists_of_canEnd_bind {β : Type} {b : β} {program : Program α} {next : α → Program β}
    (h : (program.bind next).CanEnd b) : ∃ a, program.CanEnd a ∧ (next a).CanEnd b := by
  induction program with
  | done a => exact ⟨a, rfl, h⟩
  | lookup name rest ih =>
      obtain ⟨v, hv⟩ := h
      obtain ⟨a, ha, hb⟩ := ih v hv
      exact ⟨a, ⟨v, ha⟩, hb⟩
  | call name input args rest ih =>
      obtain ⟨v, hv⟩ := h
      obtain ⟨a, ha, hb⟩ := ih v hv
      exact ⟨a, ⟨v, ha⟩, hb⟩
  | emit v hint rest ih =>
      obtain ⟨text, htext⟩ := h
      obtain ⟨a, ha, hb⟩ := ih text htext
      exact ⟨a, ⟨text, ha⟩, hb⟩
  | read object attr rest ih =>
      obtain ⟨v, hv⟩ := h
      obtain ⟨a, ha, hb⟩ := ih v hv
      exact ⟨a, ⟨v, ha⟩, hb⟩

end Template.Program

/-- What a program asks the caller's code for. -/
inductive Request where
  | sync (filter : String) (input : Classified) (args : List Value)
  | async (filter : String) (input : Classified) (args : List Value)
  | deferred (name : String)

namespace Request

def isAsync : Request → Bool
  | async .. => true
  | _ => false

/-- The variable that is asked for, if it is not a filter call. -/
def deferredName? : Request → Option String
  | deferred name => some name
  | _ => none

end Request

/-- What a direct run has come to. `known` are the deferred variables that were produced. -/
structure DirectState (ω : Type) where
  captures : CaptureList := {}
  known : List (String × Value) := []
  requests : List Request := []
  world : ω

namespace DirectState

variable {ω : Type}

def ask (r : Request) (s : DirectState ω) : DirectState ω :=
  { s with requests := s.requests ++ [r] }

end DirectState

/-- Starts a computation and waits for it. -/
def awaitOn {ω α : Type} (start : ω → Future ω α × ω) (w : ω) : Except FilterError α × ω :=
  let (future, w) := start w
  future w

namespace PassScope

variable {ω α : Type}

/-- The direct run of a program. It ends with the program or with the first error. -/
def direct (p : PassScope ω) :
    Template.Program α → DirectState ω → Except QueryError α × DirectState ω
  | .done a, s => (.ok a, s)
  | .lookup name next, s =>
    match p.context.get? name with
    | none => p.direct (next none) s
    | some (.value v) => p.direct (next (some v)) s
    | some (.deferred produce) =>
      let s := s.ask (.deferred name)
      match s.known.lookup name with
      | some v => p.direct (next (some v)) s
      | none =>
        match awaitOn produce s.world with
        | (.ok v, world) =>
          p.direct (next (some v)) { s with known := s.known ++ [(name, v)], world }
        | (.error e, world) => (.error (.deferredValue name e), { s with world })
  | .call name input args next, s =>
    match p.registry.resolve name with
    | .error e => (.error e, s)
    | .ok (.sync run) =>
      let s := s.ask (.sync name (classify input) args)
      match run p.filterScope (classify input) args s.world with
      | (.ok output, world) => p.direct (next output.toValue) { s with world }
      | (.error e, world) => (.error (.filterExecution name e), { s with world })
    | .ok (.async start) =>
      let s := s.ask (.async name (classify input) args)
      match awaitOn (start p.filterScope (classify input) args) s.world with
      | (.ok output, world) => p.direct (next output.toValue) { s with world }
      | (.error e, world) => (.error (.filterExecution name e), { s with world })
  | .emit v hint next, s =>
    match Emission.write v hint s.captures with
    | .ok (text, captures) => p.direct (next text) { s with captures }
    | .error e => (.error e, s)
  | .read object attr next, s =>
    let (v, world) := p.context.readAttribute object attr s.world
    p.direct (next v) { s with world }

end PassScope

namespace RenderProgram

variable {ω : Type}

/-- The marked text that a direct run of a program ends with. -/
def renderDirect (program : RenderProgram) (registry : FilterRegistry ω) (context : Context ω)
    (options : RenderOptions) (world : ω) : Except QueryError MarkedQuery × DirectState ω :=
  match context.validate with
  | .error e => (.error e, { world })
  | .ok () =>
    let scope : PassScope ω := { registry, context, options, mode := .suspending }
    match scope.direct program { world } with
    | (.ok (.ok text), s) => (.ok ⟨text, s.captures⟩, s)
    | (.ok (.error e), s) => (.error e, s)
    | (.error e, s) => (.error e, s)

end RenderProgram

namespace PassScope

variable {ω α : Type} {p : PassScope ω}

/-- The course of a direct run, with a constructor for each way in which it can go on or end. The
properties of direct runs are proved by induction on it. -/
inductive DirectRun (p : PassScope ω) :
    Template.Program α → DirectState ω → Except QueryError α → DirectState ω → Prop
  | done {a s} : DirectRun p (.done a) s (.ok a) s
  | absent {name next s result t} (hget : p.context.get? name = none)
      (rest : DirectRun p (next none) s result t) : DirectRun p (.lookup name next) s result t
  | plain {name next s v result t} (hget : p.context.get? name = some (.value v))
      (rest : DirectRun p (next (some v)) s result t) : DirectRun p (.lookup name next) s result t
  | known {name next s produce v result t} (hget : p.context.get? name = some (.deferred produce))
      (hknown : s.known.lookup name = some v)
      (rest : DirectRun p (next (some v)) (s.ask (.deferred name)) result t) :
      DirectRun p (.lookup name next) s result t
  | produced {name next s produce v world result t}
      (hget : p.context.get? name = some (.deferred produce))
      (hknown : s.known.lookup name = none) (hawait : awaitOn produce s.world = (.ok v, world))
      (rest : DirectRun p (next (some v))
        { s.ask (.deferred name) with known := s.known ++ [(name, v)], world } result t) :
      DirectRun p (.lookup name next) s result t
  | notProduced {name next s produce e world}
      (hget : p.context.get? name = some (.deferred produce))
      (hknown : s.known.lookup name = none) (hawait : awaitOn produce s.world = (.error e, world)) :
      DirectRun p (.lookup name next) s (.error (.deferredValue name e))
        { s.ask (.deferred name) with world }
  | unregistered {name input args next s e} (hget : p.registry.resolve name = .error e) :
      DirectRun p (.call name input args next) s (.error e) s
  | sync {name input args next s run output world result t}
      (hget : p.registry.resolve name = .ok (.sync run))
      (hrun : run p.filterScope (classify input) args s.world = (.ok output, world))
      (rest : DirectRun p (next output.toValue)
        { s.ask (.sync name (classify input) args) with world } result t) :
      DirectRun p (.call name input args next) s result t
  | syncFailed {name input args next s run e world}
      (hget : p.registry.resolve name = .ok (.sync run))
      (hrun : run p.filterScope (classify input) args s.world = (.error e, world)) :
      DirectRun p (.call name input args next) s (.error (.filterExecution name e))
        { s.ask (.sync name (classify input) args) with world }
  | async {name input args next s start output world result t}
      (hget : p.registry.resolve name = .ok (.async start))
      (hawait : awaitOn (start p.filterScope (classify input) args) s.world = (.ok output, world))
      (rest : DirectRun p (next output.toValue)
        { s.ask (.async name (classify input) args) with world } result t) :
      DirectRun p (.call name input args next) s result t
  | asyncFailed {name input args next s start e world}
      (hget : p.registry.resolve name = .ok (.async start))
      (hawait : awaitOn (start p.filterScope (classify input) args) s.world = (.error e, world)) :
      DirectRun p (.call name input args next) s (.error (.filterExecution name e))
        { s.ask (.async name (classify input) args) with world }
  | emit {v hint next s text captures result t}
      (hwrite : Emission.write v hint s.captures = .ok (text, captures))
      (rest : DirectRun p (next text) { s with captures } result t) :
      DirectRun p (.emit v hint next) s result t
  | refused {v hint next s e} (hwrite : Emission.write v hint s.captures = .error e) :
      DirectRun p (.emit v hint next) s (.error e) s
  | read {object attr next s v world result t}
      (hread : p.context.readAttribute object attr s.world = (v, world))
      (rest : DirectRun p (next v) { s with world } result t) :
      DirectRun p (.read object attr next) s result t

theorem directRun_lookup {name : String} {next : Option Value → Template.Program α}
    (ih : ∀ v s, DirectRun p (next v) s (p.direct (next v) s).1 (p.direct (next v) s).2)
    (s : DirectState ω) :
    DirectRun p (.lookup name next) s (p.direct (.lookup name next) s).1
      (p.direct (.lookup name next) s).2 := by
  rw [direct]
  cases hget : p.context.get? name with
  | none => exact .absent hget (ih none s)
  | some entry =>
      cases entry with
      | value v => exact .plain hget (ih (some v) s)
      | deferred produce =>
          cases hknown : s.known.lookup name with
          | some v =>
              simp only [DirectState.ask, hknown]
              exact .known hget hknown (ih (some v) _)
          | none =>
              simp only [DirectState.ask, hknown]
              rcases hawait : awaitOn produce s.world with ⟨_ | v, world⟩
              · exact .notProduced hget hknown hawait
              · exact .produced hget hknown hawait (ih (some v) _)

theorem directRun_call {name : String} {input : Value} {args : List Value}
    {next : Value → Template.Program α}
    (ih : ∀ v s, DirectRun p (next v) s (p.direct (next v) s).1 (p.direct (next v) s).2)
    (s : DirectState ω) :
    DirectRun p (.call name input args next) s (p.direct (.call name input args next) s).1
      (p.direct (.call name input args next) s).2 := by
  rw [direct]
  rcases hget : p.registry.resolve name with e | filter
  · exact .unregistered hget
  · cases filter with
    | sync run =>
        simp only [DirectState.ask]
        rcases hrun : run p.filterScope (classify input) args s.world with ⟨_ | output, world⟩
        · exact .syncFailed hget hrun
        · exact .sync hget hrun (ih output.toValue _)
    | async start =>
        simp only [DirectState.ask]
        rcases hawait : awaitOn (start p.filterScope (classify input) args) s.world with
          ⟨_ | output, world⟩
        · exact .asyncFailed hget hawait
        · exact .async hget hawait (ih output.toValue _)

/-- The direct run takes such a course. -/
theorem directRun (p : PassScope ω) (program : Template.Program α) (s : DirectState ω) :
    DirectRun p program s (p.direct program s).1 (p.direct program s).2 := by
  induction program generalizing s with
  | done a => exact .done
  | lookup name next ih => exact directRun_lookup ih s
  | call name input args next ih => exact directRun_call ih s
  | emit v hint next ih =>
      rw [direct]
      rcases hwrite : Emission.write v hint s.captures with e | ⟨text, captures⟩
      · exact .refused hwrite
      · exact .emit hwrite (ih text _)
  | read object attr next ih => exact .read rfl (ih _ _)

/-- A direct run does not report a divergence of its own making. -/
theorem DirectRun.ne_replayDiverged {program : Template.Program α} {s t : DirectState ω}
    {result : Except QueryError α} (run : DirectRun p program s result t)
    (ordinal : Nat) (expected found : String) :
    result ≠ .error (.replayDiverged ordinal expected found) := by
  induction run with
  | done => simp
  | absent _ _ ih => exact ih
  | plain _ _ ih => exact ih
  | known _ _ _ ih => exact ih
  | produced _ _ _ _ ih => exact ih
  | notProduced => simp
  | unregistered hget =>
      rw [FilterRegistry.resolve] at hget
      split at hget
      · contradiction
      · cases hget
        simp
  | sync _ _ _ ih => exact ih
  | syncFailed => simp
  | async _ _ _ ih => exact ih
  | asyncFailed => simp
  | emit _ _ ih => exact ih
  | refused hwrite =>
      rw [Emission.write] at hwrite
      split at hwrite
      · cases hwrite
        simp
      · contradiction
  | read _ _ ih => exact ih

/-- What a direct run of a program ends with, the program can end with. -/
theorem DirectRun.canEnd {program : Template.Program α} {s t : DirectState ω}
    {result : Except QueryError α} (run : DirectRun p program s result t) (a : α)
    (h : result = .ok a) : program.CanEnd a := by
  induction run with
  | done =>
      cases h
      rfl
  | absent _ _ ih => exact ⟨_, ih h⟩
  | plain _ _ ih => exact ⟨_, ih h⟩
  | known _ _ _ ih => exact ⟨_, ih h⟩
  | produced _ _ _ _ ih => exact ⟨_, ih h⟩
  | sync _ _ _ ih => exact ⟨_, ih h⟩
  | async _ _ _ ih => exact ⟨_, ih h⟩
  | emit _ _ ih => exact ⟨_, ih h⟩
  | read _ _ ih => exact ⟨_, ih h⟩
  | notProduced => contradiction
  | unregistered => contradiction
  | syncFailed => contradiction
  | asyncFailed => contradiction
  | refused => contradiction

end PassScope

end QueryTemplate
