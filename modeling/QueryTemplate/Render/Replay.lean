import QueryTemplate.Render.Pass

/-!
Rendering a program. A sequential render is one pass. A suspending one runs a pass, awaits what the
pass waits for, and runs the program again from the start, until a pass gets through; each of these
passes gets one step further than the one before, since all earlier results are at hand.
-/

namespace QueryTemplate

/-- A program as a render runs it: it ends with the marked text. -/
abbrev RenderProgram := Template.Program (Except QueryError String)

namespace RenderProgram

variable {ω : Type}

/-- Renders in one pass, which nothing can be waited for in. -/
def renderSequential (program : RenderProgram) (registry : FilterRegistry ω)
    (context : Context ω) (options : RenderOptions) (world : ω) :
    Except QueryError MarkedQuery × ω :=
  match context.validate with
  | .error e => (.error e, world)
  | .ok () =>
    let scope : PassScope ω := { registry, context, options, mode := .sequential }
    match scope.outcome program { world } with
    | (.complete marked, s) => (.ok marked, s.world)
    | (.failed e, s) => (.error e, s.world)
    | (.suspended pending, s) => (.error (.requiresSuspending pending.name), s.world)

end RenderProgram

/-- A suspending render between two passes. -/
structure Replay (ω : Type) where
  resolutions : Resolutions := {}
  outputs : CallLog := []
  passes : Nat := 0
  world : ω

namespace Replay

variable {ω : Type}

/-- Runs one pass and awaits what it waits for. The result is there once the render has ended. -/
def advance (program : RenderProgram) (registry : FilterRegistry ω) (context : Context ω)
    (options : RenderOptions) (r : Replay ω) :
    Option (Except QueryError MarkedQuery) × Replay ω :=
  let scope : PassScope ω :=
    { registry, context, options, mode := .suspending, resolutions := r.resolutions }
  match scope.outcome program { outputs := r.outputs, world := r.world } with
  | (.complete marked, s) =>
    (some (.ok marked), ⟨r.resolutions, s.outputs, r.passes + 1, s.world⟩)
  | (.failed e, s) => (some (.error e), ⟨r.resolutions, s.outputs, r.passes + 1, s.world⟩)
  | (.suspended pending, s) =>
    match r.resolutions.resolve pending s.world with
    | (.ok resolutions, world) => (none, ⟨resolutions, s.outputs, r.passes + 1, world⟩)
    | (.error e, world) => (some (.error e), ⟨r.resolutions, s.outputs, r.passes + 1, world⟩)

/-- Runs passes until the render ends, at most the given number of them. -/
def run (program : RenderProgram) (registry : FilterRegistry ω) (context : Context ω)
    (options : RenderOptions) : Nat → Replay ω → Option (Except QueryError MarkedQuery) × Replay ω
  | 0, r => (none, r)
  | n + 1, r =>
    match r.advance program registry context options with
    | (some result, r) => (some result, r)
    | (none, r) => run program registry context options n r

end Replay

namespace RenderProgram

variable {ω : Type}

/-- The error of a render that has not ended after as many passes as it may take. -/
def tooManyPasses : QueryError :=
  .engine (.invalid "render does not end")

/-- Renders pass by pass. A render takes a pass more than there are computations it waits for, and
`maxPasses` only ends one whose computations keep it waiting for ever. -/
def renderSuspending (maxPasses : Nat) (program : RenderProgram) (registry : FilterRegistry ω)
    (context : Context ω) (options : RenderOptions) (world : ω) :
    Except QueryError MarkedQuery × ω :=
  match context.validate with
  | .error e => (.error e, world)
  | .ok () =>
    match Replay.run program registry context options maxPasses { world } with
    | (some result, r) => (result, r.world)
    | (none, r) => (.error tooManyPasses, r.world)

end RenderProgram

end QueryTemplate
