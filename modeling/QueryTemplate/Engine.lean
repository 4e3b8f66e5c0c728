import QueryTemplate.Config.Settings
import QueryTemplate.Filter.Builtin
import QueryTemplate.Instrument
import QueryTemplate.Render.Replay
import QueryTemplate.Search.SearchPath
import QueryTemplate.Template.Parser
import QueryTemplate.Template.Run

/-!
The query engine: templates, filters and settings, and the operations to render a query. Templates
added by name go before template files, and every source is instrumented before it is read.
-/

namespace QueryTemplate

open Template (Source Stop)

/-- A query engine. `files` is the file system that the search path is in, and `dispatched` holds
every name a filter was ever registered under. -/
structure QueryEngine (ω : Type) where
  config : EngineConfig
  files : FileTree
  registry : FilterRegistry ω
  dispatched : List String
  searchPath : SearchPath
  inline : NameMap Source

/-- The name of a template that is rendered without being added. -/
def oneOffName : String := "<string>"

namespace EngineConfig

def whitespace (c : EngineConfig) : Template.Whitespace :=
  ⟨c.trimBlocks, c.lstripBlocks, c.keepTrailingNewline⟩

end EngineConfig

namespace MarkupError

def toQueryError (e : MarkupError) : QueryError :=
  match e with
  | overlappingTag => .overlappingTag
  | e => .templateSyntax e.message none

/-- The error of a template file, which is found while another template may be running. -/
def toStop (e : MarkupError) : Stop :=
  match e with
  | overlappingTag => .overlappingTag
  | e => .error { kind := .syntaxError, detail := some e.message, markup := true }

end MarkupError

namespace Template

namespace SyntaxFault

def toEngineError (template : String) (fault : SyntaxFault) : EngineError :=
  { kind := if fault.isEscape then .badEscape else .syntaxError
    detail := some fault.text
    location := fault.line.map fun line => ⟨template, line⟩ }

end SyntaxFault

namespace Stop

def toQueryError (s : Stop) : QueryError :=
  match s with
  | error e => .ofEngine e
  | outside _ e => .ofEngine e
  | overlappingTag => .overlappingTag

end Stop

end Template

namespace QueryEngine

variable {ω : Type}

/-- The search path of the directories, which must all exist. -/
def searchPathOf (files : FileTree) (path : SearchPath) :
    List String → Except QueryError SearchPath
  | [] => .ok path
  | dir :: dirs =>
    match path.addDir files dir with
    | .ok path => searchPathOf files path dirs
    | .error e => .error (.load e)

/-- An engine with the given settings. -/
def withConfig (files : FileTree) (config : EngineConfig) : Except QueryError (QueryEngine ω) :=
  match searchPathOf files {} config.searchPaths with
  | .error e => .error e
  | .ok searchPath =>
    let registry : FilterRegistry ω :=
      { FilterRegistry.withBuiltins with allowOverride := config.allowFilterOverride }
    .ok { config, files, registry, dispatched := registry.names, searchPath, inline := [] }

/-- An engine with the default settings. -/
def new (files : FileTree) : QueryEngine ω where
  config := {}
  files
  registry := .withBuiltins
  dispatched := (FilterRegistry.withBuiltins : FilterRegistry ω).names
  searchPath := {}
  inline := []

/-- The options a render has unless it is given others. -/
def renderOptions (e : QueryEngine ω) : RenderOptions :=
  ⟨e.config.paramStyle, e.config.identifierQuote⟩

/-- Reads an instrumented source. -/
def parse (e : QueryEngine ω) (name : String) (source : List Char) :
    Except EngineError Source :=
  match Template.parse e.config.whitespace name source with
  | .ok src => .ok src
  | .error fault => .error (fault.toEngineError name)

/-- Adds a template. It replaces one of the same name and hides files of that name. -/
def addTemplate (e : QueryEngine ω) (name source : String) : Except QueryError (QueryEngine ω) :=
  match Instrument.instrument source.toList with
  | .error fault => .error fault.toQueryError
  | .ok source =>
    match e.parse name source with
    | .error fault => .error (.ofEngine fault)
    | .ok src => .ok { e with inline := e.inline.insert name src }

/-- Adds a directory to look for template files in. -/
def addSearchPath (e : QueryEngine ω) (dir : String) : Except QueryError (QueryEngine ω) :=
  match e.searchPath.addDir e.files dir with
  | .error fault => .error (.load fault)
  | .ok searchPath =>
    .ok
      { e with
        searchPath
        config := { e.config with searchPaths := e.config.searchPaths ++ [dir] } }

/-- The names of all templates, in order. -/
def templateNames (e : QueryEngine ω) : Except QueryError (List String) :=
  match e.searchPath.names e.files with
  | .error fault => .error (.load fault)
  | .ok found => .ok (NameMap.sortNames (e.inline.names ++ found))

/-- Finds a template by name: an added one, or else a file. -/
def findTemplate (e : QueryEngine ω) (name : String) : Except Stop (Option Source) :=
  match e.inline.find? name with
  | some src => .ok (some src)
  | none =>
    match e.searchPath.load e.files name with
    | .error fault =>
      .error (.error
        { EngineError.invalid "failed to load template" with load := some fault })
    | .ok none => .ok none
    | .ok (some text) =>
      match Instrument.instrument text.toList with
      | .error fault => .error fault.toStop
      | .ok source =>
        match e.parse name source with
        | .error fault => .error (.error fault)
        | .ok src => .ok (some src)

/-- The template of a name. -/
def getTemplate (e : QueryEngine ω) (name : String) : Except QueryError Source :=
  match e.findTemplate name with
  | .ok (some src) => .ok src
  | .ok none => .error (.templateNotFound name)
  | .error stop => .error stop.toQueryError

/-- Registers a filter. From then on its name refers to registered filters only. -/
def register (e : QueryEngine ω) (name : String) (filter : Filter ω) :
    Except QueryError (QueryEngine ω) :=
  match e.registry.register name filter with
  | .error fault => .error fault
  | .ok registry =>
    let dispatched :=
      if e.dispatched.contains name then e.dispatched else e.dispatched ++ [name]
    .ok { e with registry, dispatched }

/-- Removes a filter and tells whether there was one. -/
def unregister (e : QueryEngine ω) (name : String) : Bool × QueryEngine ω :=
  let (removed, registry) := e.registry.unregister name
  (removed.isSome, { e with registry })

/-- The names of the registered filters, in order. -/
def filterNames (e : QueryEngine ω) : List String :=
  e.registry.names

/-- What the templates of a render can find out from the engine. -/
def environment (e : QueryEngine ω) (context : Context ω) : Template.Environment where
  strict := e.config.strictUndefined
  registered := e.dispatched
  find := e.findTemplate
  variableNames := context.names

/-- A template as a program for a render. -/
def program (e : QueryEngine ω) (context : Context ω) (src : Source) : RenderProgram :=
  Template.Program.bind (src.program (e.environment context)) fun
    | .ok pieces => .done (.ok (Template.outputText pieces))
    | .error stop => .done (.error stop.toQueryError)

/-- An instrumented source as a program for a render. It is read when it is run. -/
def oneOffProgram (e : QueryEngine ω) (context : Context ω) (source : List Char) :
    RenderProgram :=
  match e.parse oneOffName source with
  | .ok src => e.program context src
  | .error fault => .done (.error (.ofEngine fault))

/-- The passes a suspending render may take. -/
def maxPasses : Nat := 1000000

/-- Renders a program in one of the two modes. -/
def renderProgram (e : QueryEngine ω) (mode : EvalMode) (program : RenderProgram)
    (context : Context ω) (options : RenderOptions) (world : ω) :
    Except QueryError MarkedQuery × ω :=
  match mode with
  | .sequential => program.renderSequential e.registry context options world
  | .suspending => program.renderSuspending maxPasses e.registry context options world

def formatResult (options : RenderOptions) (result : Except QueryError MarkedQuery) :
    Except QueryError RenderedQuery :=
  match result with
  | .ok marked => marked.format options.paramStyle
  | .error e => .error e

/-- Renders a template up to the placeholders: the markers are still in the text. -/
def renderMarked (e : QueryEngine ω) (mode : EvalMode) (name : String) (context : Context ω)
    (options : RenderOptions) (world : ω) : Except QueryError MarkedQuery × ω :=
  match e.getTemplate name with
  | .error fault => (.error fault, world)
  | .ok src => e.renderProgram mode (e.program context src) context options world

/-- Renders a template by name. -/
def render (e : QueryEngine ω) (mode : EvalMode) (name : String) (context : Context ω)
    (options : RenderOptions) (world : ω) : Except QueryError RenderedQuery × ω :=
  let (result, world) := e.renderMarked mode name context options world
  (formatResult options result, world)

/-- Renders a source without adding it. -/
def renderText (e : QueryEngine ω) (mode : EvalMode) (source : String) (context : Context ω)
    (options : RenderOptions) (world : ω) : Except QueryError RenderedQuery × ω :=
  match Instrument.instrument source.toList with
  | .error fault => (.error fault.toQueryError, world)
  | .ok source =>
    let (result, world) :=
      e.renderProgram mode (e.oneOffProgram context source) context options world
    (formatResult options result, world)

end QueryEngine

end QueryTemplate
