import QueryTemplate.Proofs.FilterHistory

/-!
The updates of an engine, part by part. An engine is made of tables that must fit together: what was
compiled, which names were added, the filters, the names that templates call them by, the directories
and the settings. `QueryEngine` gives the engine after an operation as one value. Here an operation is
a piece of code that changes one table after the other and may stop in between, and what it has
changed before it stops stays changed.

An update is atomic if it fails only without having changed anything. That follows from the order of
its steps: those that change nothing (`Guards`) go before those that never fail (`Commits`). The parts
keep representing the engine along every history, although the store of compiled templates also holds
the files that renders have read.
-/

namespace QueryTemplate

open Template (Source)

variable {ω α β : Type}

/-- A file that was found is found again when there are more directories to look in. -/
theorem SearchPath.load_of_found {s : SearchPath} {tree : FileTree} {name text : String}
    (h : s.load tree name = .ok (some text)) (dirs : List String) :
    SearchPath.load ⟨s.dirs ++ dirs⟩ tree name = .ok (some text) := by
  have hresolve : ∀ path, s.resolve tree name = .ok (some path) →
      SearchPath.resolve ⟨s.dirs ++ dirs⟩ tree name = .ok (some path) := by
    intro path hpath
    simp only [SearchPath.resolve] at hpath ⊢
    split at hpath
    · contradiction
    · simp only [Except.ok.injEq] at hpath
      simp [List.findSome?_append, hpath]
  rw [SearchPath.load] at h ⊢
  cases hpath : s.resolve tree name with
  | error e => simp [hpath] at h
  | ok found =>
      cases found with
      | none => simp [hpath] at h
      | some path =>
          rw [hresolve path hpath]
          simpa [hpath] using h

/-- The engine with one more directory to look for template files in. -/
def QueryEngine.withDirectory (e : QueryEngine ω) (dir : String) : QueryEngine ω :=
  { e with
    searchPath := ⟨e.searchPath.dirs ++ [dir]⟩
    config := { e.config with searchPaths := e.config.searchPaths ++ [dir] } }

theorem QueryEngine.findTemplate_withDirectory {e : QueryEngine ω} {name : String} {src : Source}
    (h : e.findTemplate name = .ok (some src)) (dir : String) :
    (e.withDirectory dir).findTemplate name = .ok (some src) := by
  rw [QueryEngine.findTemplate] at h ⊢
  rw [show (e.withDirectory dir).inline = e.inline from rfl]
  cases hinline : e.inline.find? name with
  | some added => rwa [hinline] at h
  | none =>
      rw [hinline] at h
      cases hload : e.searchPath.load e.files name with
      | error fault => simp [hload] at h
      | ok found =>
          cases found with
          | none => simp [hload] at h
          | some text =>
              rw [show (e.withDirectory dir).searchPath.load (e.withDirectory dir).files name = _
                from SearchPath.load_of_found hload [dir]]
              rw [hload] at h
              exact h

/-- The parts of an engine. -/
structure EngineParts (ω : Type) where
  files : FileTree
  config : EngineConfig
  registry : FilterRegistry ω
  searchPath : SearchPath
  /-- The names of the templates that were added. -/
  inline : NameMap Unit := []
  /-- The compiled templates: the added ones, and files that were read. -/
  store : NameMap Source := []
  /-- The filter names that have a dispatcher. -/
  dispatchers : List String := []
  /-- The filter names that templates can use. -/
  installed : List String := []

/-- Code that works on the parts of an engine. A failure does not take back what was changed. -/
structure Update (ω α : Type) where
  run : EngineParts ω → Except QueryError α × EngineParts ω

namespace Update

instance : Monad (Update ω) where
  pure a := ⟨fun parts => (.ok a, parts)⟩
  bind x f :=
    ⟨fun parts =>
      match x.run parts with
      | (.ok a, parts) => (f a).run parts
      | (.error e, parts) => (.error e, parts)⟩

def get : Update ω (EngineParts ω) := ⟨fun parts => (.ok parts, parts)⟩

def modify (f : EngineParts ω → EngineParts ω) : Update ω Unit := ⟨fun parts => (.ok (), f parts)⟩

/-- Goes on with a result, or fails. -/
def require (result : Except QueryError α) : Update ω α := ⟨fun parts => (result, parts)⟩

/-- Fails if the condition does not hold. -/
def check (condition : Bool) (e : QueryError) : Update ω Unit :=
  require (if condition then .ok () else .error e)

theorem run_bind (x : Update ω α) (f : α → Update ω β) (parts : EngineParts ω) :
    (x >>= f).run parts =
      match x.run parts with
      | (.ok a, parts) => (f a).run parts
      | (.error e, parts) => (.error e, parts) := rfl

@[simp] theorem run_pure (a : α) (parts : EngineParts ω) :
    (pure a : Update ω α).run parts = (.ok a, parts) := rfl

@[simp] theorem run_modify (f : EngineParts ω → EngineParts ω) (parts : EngineParts ω) :
    (modify f).run parts = (.ok (), f parts) := rfl

@[simp] theorem run_get_bind (f : EngineParts ω → Update ω β) (parts : EngineParts ω) :
    (get >>= f).run parts = (f parts).run parts := rfl

@[simp] theorem run_modify_bind (g : EngineParts ω → EngineParts ω) (f : Unit → Update ω β)
    (parts : EngineParts ω) : (modify g >>= f).run parts = (f ()).run (g parts) := rfl

@[simp] theorem run_require_ok_bind (a : α) (f : α → Update ω β) (parts : EngineParts ω) :
    (require (.ok a) >>= f).run parts = (f a).run parts := rfl

@[simp] theorem run_require_error_bind (e : QueryError) (f : α → Update ω β)
    (parts : EngineParts ω) : (require (.error e) >>= f).run parts = (.error e, parts) := rfl

@[simp] theorem run_check_true_bind (e : QueryError) (f : Unit → Update ω β)
    (parts : EngineParts ω) : (check true e >>= f).run parts = (f ()).run parts := rfl

@[simp] theorem run_check_false_bind (e : QueryError) (f : Unit → Update ω β)
    (parts : EngineParts ω) : (check false e >>= f).run parts = (.error e, parts) := rfl

theorem run_bind_of_ok {x : Update ω α} {parts parts' : EngineParts ω} {a : α}
    (h : x.run parts = (.ok a, parts')) (f : α → Update ω β) :
    (x >>= f).run parts = (f a).run parts' := by
  rw [run_bind, h]

theorem run_bind_of_error {x : Update ω α} {parts parts' : EngineParts ω} {e : QueryError}
    (h : x.run parts = (.error e, parts')) (f : α → Update ω β) :
    (x >>= f).run parts = (.error e, parts') := by
  rw [run_bind, h]

/-- Returning something else does not change what is done. -/
theorem run_bind_pure_snd (x : Update ω α) (b : β) (parts : EngineParts ω) :
    ((x >>= fun _ => pure b).run parts).2 = (x.run parts).2 := by
  rw [run_bind]
  rcases x.run parts with ⟨_ | _, _⟩ <;> rfl

/-! ### Updates that fail without a trace -/

/-- The update changes nothing. -/
def Guards (x : Update ω α) : Prop :=
  ∀ parts, (x.run parts).2 = parts

/-- The update does not fail. -/
def Commits (x : Update ω α) : Prop :=
  ∀ parts, ∃ a, (x.run parts).1 = .ok a

/-- The update fails only without having changed anything. -/
def Atomic (x : Update ω α) : Prop :=
  ∀ parts e, (x.run parts).1 = .error e → (x.run parts).2 = parts

theorem guards_get : (get : Update ω (EngineParts ω)).Guards := fun _ => rfl

theorem guards_require (result : Except QueryError α) : (require (ω := ω) result).Guards :=
  fun _ => rfl

theorem guards_check (condition : Bool) (e : QueryError) : (check (ω := ω) condition e).Guards :=
  guards_require _

theorem commits_pure (a : α) : (pure a : Update ω α).Commits := fun _ => ⟨a, rfl⟩

theorem commits_get : (get : Update ω (EngineParts ω)).Commits := fun parts => ⟨parts, rfl⟩

theorem commits_modify (f : EngineParts ω → EngineParts ω) : (modify f).Commits := fun _ => ⟨(), rfl⟩

theorem Commits.atomic {x : Update ω α} (h : x.Commits) : x.Atomic := by
  intro parts e he
  obtain ⟨a, ha⟩ := h parts
  rw [ha] at he
  contradiction

theorem Commits.bind {x : Update ω α} {f : α → Update ω β} (hx : x.Commits)
    (hf : ∀ a, (f a).Commits) : (x >>= f).Commits := by
  intro parts
  obtain ⟨a, ha⟩ := hx parts
  rcases hrun : x.run parts with ⟨result, parts'⟩
  obtain rfl : result = .ok a := by rw [← ha, hrun]
  rw [run_bind_of_ok hrun]
  exact hf a parts'

/-- A step that changes nothing may stand before an atomic update. -/
theorem Guards.bind {x : Update ω α} {f : α → Update ω β} (hx : x.Guards)
    (hf : ∀ a, (f a).Atomic) : (x >>= f).Atomic := by
  intro parts e he
  have hparts := hx parts
  rcases hrun : x.run parts with ⟨fault | a, parts'⟩ <;> rw [hrun] at hparts
  · rw [run_bind_of_error hrun]
    exact hparts
  · rw [run_bind_of_ok hrun] at he ⊢
    subst hparts
    exact hf a _ e he

/-- A step that does not fail may come after an atomic update. -/
theorem Atomic.bind {x : Update ω α} {f : α → Update ω β} (hx : x.Atomic)
    (hf : ∀ a, (f a).Commits) : (x >>= f).Atomic := by
  intro parts e he
  have hparts := hx parts
  rcases hrun : x.run parts with ⟨fault | a, parts'⟩ <;> rw [hrun] at hparts
  · rw [run_bind_of_error hrun]
    exact hparts fault rfl
  · rw [run_bind_of_ok hrun] at he
    obtain ⟨b, hb⟩ := hf a parts'
    rw [hb] at he
    contradiction

end Update

namespace EngineParts

open Update

/-- The engine that templates see: what they include comes from the store before it comes from a
file. -/
def view (parts : EngineParts ω) : QueryEngine ω where
  config := parts.config
  files := parts.files
  registry := parts.registry
  dispatched := parts.installed
  searchPath := parts.searchPath
  inline := parts.store

/-! ### The operations -/

/-- Compiles a source and keeps it. A source that does not compile leaves the store as it is. -/
def compile (name : String) (source : List Char) : Update ω Unit := do
  let parts ← get
  let src ← require ((parts.view.parse name source).mapError .ofEngine)
  modify fun parts => { parts with store := parts.store.insert name src }

/-- Adds a template. -/
def addTemplate (name source : String) : Update ω Unit := do
  let source ← require ((Instrument.instrument source.toList).mapError MarkupError.toQueryError)
  compile name source
  modify fun parts => { parts with inline := parts.inline.insert name () }

/-- Adds a directory to the search path, which must exist. -/
def addDir (dir : String) : Update ω Unit := do
  let parts ← get
  check (parts.files.isDirectoryAt dir) (.load (.directoryNotFound dir))
  modify fun parts => { parts with searchPath := ⟨parts.searchPath.dirs ++ [dir]⟩ }

/-- Adds a directory to look for template files in. -/
def addSearchPath (dir : String) : Update ω Unit := do
  addDir dir
  modify fun parts =>
    { parts with config := { parts.config with searchPaths := parts.config.searchPaths ++ [dir] } }

/-- Puts a filter into the registry. -/
def enterFilter (name : String) (filter : Filter ω) : Update ω Unit := do
  check (!isReservedName name) (.reservedName name)
  let parts ← get
  check (!(!parts.registry.allowOverride && parts.registry.contains name)) (.duplicateFilter name)
  modify fun parts =>
    { parts with
      registry := { parts.registry with filters := parts.registry.filters.insert name filter } }

/-- Lets templates use a filter name. -/
def installDispatcher (name : String) : Update ω Unit := do
  let parts ← get
  if parts.dispatchers.contains name then return ()
  modify fun parts => { parts with dispatchers := parts.dispatchers ++ [name] }
  modify fun parts => { parts with installed := parts.installed ++ [name] }

/-- Registers a filter. -/
def register (name : String) (filter : Filter ω) : Update ω Unit := do
  enterFilter name filter
  installDispatcher name

/-- Removes a filter and tells whether there was one. -/
def unregister (name : String) : Update ω Bool := do
  let parts ← get
  modify fun parts => { parts with registry := (parts.registry.unregister name).2 }
  return (parts.registry.unregister name).1.isSome

/-- Makes a change, and tells whether there was anything to change. -/
def change : EngineChange ω → Update ω Bool
  | .register name filter => do register name filter; return true
  | .unregister name => unregister name
  | .addTemplate name source => do addTemplate name source; return true
  | .addSearchPath dir => do addSearchPath dir; return true

/-- Finds a template by name, and keeps the file if it is one. -/
def find (name : String) : Update ω Unit := do
  let parts ← get
  match parts.store.find? name, parts.view.findTemplate name with
  | none, .ok (some src) =>
    modify fun parts => { parts with store := parts.store.insert name src }
  | _, _ => return ()

/-- The parts of a new engine: the built-in filters get their dispatchers. -/
def build (files : FileTree) (config : EngineConfig) (searchPath : SearchPath) : EngineParts ω :=
  let registry : FilterRegistry ω :=
    { FilterRegistry.withBuiltins with allowOverride := config.allowFilterOverride }
  registry.names.foldl (fun parts name => ((installDispatcher name).run parts).2)
    { files, config, registry, searchPath }

/-- An engine with the given settings. The directories are checked before it is built. -/
def withConfig (files : FileTree) (config : EngineConfig) : Except QueryError (EngineParts ω) :=
  match QueryEngine.searchPathOf files {} config.searchPaths with
  | .error e => .error e
  | .ok searchPath => .ok (build files config searchPath)

/-! ### Failing operations -/

theorem atomic_compile (name : String) (source : List Char) :
    (compile (ω := ω) name source).Atomic :=
  guards_get.bind fun _ => (guards_require _).bind fun _ => (commits_modify _).atomic

theorem atomic_addTemplate (name source : String) : (addTemplate (ω := ω) name source).Atomic :=
  (guards_require _).bind fun source =>
    (atomic_compile name source).bind fun _ => commits_modify _

theorem atomic_addDir (dir : String) : (addDir (ω := ω) dir).Atomic :=
  guards_get.bind fun _ => (guards_check _ _).bind fun _ => (commits_modify _).atomic

theorem atomic_addSearchPath (dir : String) : (addSearchPath (ω := ω) dir).Atomic :=
  (atomic_addDir dir).bind fun _ => commits_modify _

theorem atomic_enterFilter (name : String) (filter : Filter ω) : (enterFilter name filter).Atomic :=
  (guards_check _ _).bind fun _ => guards_get.bind fun _ => (guards_check _ _).bind fun _ =>
    (commits_modify _).atomic

theorem commits_installDispatcher (name : String) : (installDispatcher (ω := ω) name).Commits := by
  refine commits_get.bind fun parts => ?_
  split
  · exact commits_pure ()
  · exact (commits_modify _).bind fun _ => commits_modify _

theorem atomic_register (name : String) (filter : Filter ω) : (register name filter).Atomic :=
  (atomic_enterFilter name filter).bind fun _ => commits_installDispatcher name

theorem commits_unregister (name : String) : (unregister (ω := ω) name).Commits :=
  commits_get.bind fun _ => (commits_modify _).bind fun _ => commits_pure _

/-- A change that fails leaves every part as it was. -/
theorem atomic_change (c : EngineChange ω) : (change c).Atomic := by
  cases c with
  | register name filter => exact (atomic_register name filter).bind fun _ => commits_pure _
  | unregister name => exact (commits_unregister name).atomic
  | addTemplate name source => exact (atomic_addTemplate name source).bind fun _ => commits_pure _
  | addSearchPath dir => exact (atomic_addSearchPath dir).bind fun _ => commits_pure _

/-! ### What the parts represent -/

/-- The parts fit together, and are those of the engine. The store may hold more than the added
templates: files, as the engine would find them. -/
structure Represents (parts : EngineParts ω) (e : QueryEngine ω) : Prop where
  files : parts.files = e.files
  config : parts.config = e.config
  registry : parts.registry = e.registry
  searchPath : parts.searchPath = e.searchPath
  inline : parts.inline = e.inline.map fun (name, _) => (name, ())
  dispatchers : parts.dispatchers = e.dispatched
  installed : parts.installed = e.dispatched
  added : ∀ {name src}, e.inline.find? name = some src → parts.store.find? name = some src
  loaded : ∀ {name src}, parts.store.find? name = some src → e.findTemplate name = .ok (some src)

/-- What an update comes to, next to what the operation on the engine comes to: the same error and
nothing changed, or parts of the new engine. -/
def Agrees (parts : EngineParts ω) (outcome : Except QueryError Unit × EngineParts ω)
    (result : Except QueryError (QueryEngine ω)) : Prop :=
  match result with
  | .ok e => outcome.1 = .ok () ∧ Represents outcome.2 e
  | .error fault => outcome = (.error fault, parts)

theorem names_insert (name : String) (src : Source) (m : NameMap Source) :
    (m.insert name src).map (fun (n, _) => (n, ())) =
      NameMap.insert name () (m.map fun (n, _) => (n, ())) := by
  induction m with
  | nil => rfl
  | cons entry rest ih =>
      obtain ⟨n, src'⟩ := entry
      simp only [NameMap.insert, List.map_cons]
      split
      · rfl
      · split
        · rfl
        · simp [ih]

variable {parts : EngineParts ω} {e : QueryEngine ω}

theorem run_installDispatcher (name : String) (hsame : parts.dispatchers = parts.installed) :
    (installDispatcher name).run parts =
      let names :=
        if parts.installed.contains name then parts.installed else parts.installed ++ [name]
      (.ok (), { parts with dispatchers := names, installed := names }) := by
  obtain ⟨files, config, registry, searchPath, inline, store, dispatchers, installed⟩ := parts
  cases hsame
  simp only [installDispatcher, run_get_bind]
  cases dispatchers.contains name with
  | true => rfl
  | false => rfl

namespace Represents

theorem view_parse (h : Represents parts e) (name : String) (source : List Char) :
    parts.view.parse name source = e.parse name source := by
  rw [QueryEngine.parse, QueryEngine.parse, show parts.view.config = e.config from h.config]

theorem view_findTemplate (h : Represents parts e) (name : String) :
    parts.view.findTemplate name = e.findTemplate name := by
  cases hstore : parts.store.find? name with
  | some src =>
      rw [h.loaded hstore, QueryEngine.findTemplate, show parts.view.inline.find? name = some src
        from hstore]
  | none =>
      have hinline : e.inline.find? name = none := by
        cases hfind : e.inline.find? name with
        | none => rfl
        | some src => rw [h.added hfind] at hstore; contradiction
      rw [QueryEngine.findTemplate, QueryEngine.findTemplate, hinline,
        show parts.view.inline.find? name = none from hstore,
        show parts.view.searchPath = e.searchPath from h.searchPath,
        show parts.view.files = e.files from h.files]
      simp only [h.view_parse]

theorem view_environment (h : Represents parts e) (context : Context ω) :
    parts.view.environment context = e.environment context := by
  rw [QueryEngine.environment, QueryEngine.environment, show parts.view.config = e.config
    from h.config, show parts.view.dispatched = e.dispatched from h.installed,
    funext h.view_findTemplate]

/-! ### Each operation -/

/-- The engine with a compiled template under a name. -/
theorem withTemplate (h : Represents parts e) (name : String) (src : Source) :
    Represents
      { parts with store := parts.store.insert name src, inline := parts.inline.insert name () }
      { e with inline := e.inline.insert name src } where
  files := h.files
  config := h.config
  registry := h.registry
  searchPath := h.searchPath
  dispatchers := h.dispatchers
  installed := h.installed
  inline := by simp only [h.inline, names_insert]
  added := by
    intro other found hfound
    show NameMap.find? other (NameMap.insert name src parts.store) = _
    by_cases heq : other = name
    · subst heq
      simpa using hfound
    · rw [NameMap.find?_insert_of_ne heq] at hfound ⊢
      exact h.added hfound
  loaded := by
    intro other found hfound
    rw [QueryEngine.findTemplate]
    by_cases heq : other = name
    · subst heq
      simpa using hfound
    · have hsame := h.loaded ((NameMap.find?_insert_of_ne heq src _).symm.trans hfound)
      rw [QueryEngine.findTemplate] at hsame
      simp only [NameMap.find?_insert_of_ne heq]
      exact hsame

/-- The engine with one more directory. What was read from a file stays what the engine finds. -/
theorem withDirectory (h : Represents parts e) (dir : String) :
    Represents
      { parts with
        searchPath := ⟨parts.searchPath.dirs ++ [dir]⟩
        config := { parts.config with searchPaths := parts.config.searchPaths ++ [dir] } }
      (e.withDirectory dir) where
  files := h.files
  config := by simp [h.config, QueryEngine.withDirectory]
  registry := h.registry
  searchPath := by simp [h.searchPath, QueryEngine.withDirectory]
  dispatchers := h.dispatchers
  installed := h.installed
  inline := h.inline
  added := h.added
  loaded hfound := QueryEngine.findTemplate_withDirectory (h.loaded hfound) dir

/-- The engine with one more filter, in the registry and among the names for templates. -/
theorem withFilter (h : Represents parts e) (name : String) (filter : Filter ω) :
    Represents
      { parts with
        registry := { parts.registry with filters := parts.registry.filters.insert name filter }
        dispatchers := (e.withFilter name filter).dispatched
        installed := (e.withFilter name filter).dispatched }
      (e.withFilter name filter) where
  files := h.files
  config := h.config
  registry := by simp [h.registry, QueryEngine.withFilter]
  searchPath := h.searchPath
  dispatchers := rfl
  installed := rfl
  inline := h.inline
  added := h.added
  loaded := h.loaded

/-- The engine without a filter. The name keeps its dispatcher. -/
theorem withoutFilter (h : Represents parts e) (name : String) :
    Represents { parts with registry := (parts.registry.unregister name).2 }
      (e.withoutFilter name) where
  files := h.files
  config := h.config
  registry := by simp [h.registry, QueryEngine.withoutFilter, FilterRegistry.unregister]
  searchPath := h.searchPath
  dispatchers := h.dispatchers
  installed := h.installed
  inline := h.inline
  added := h.added
  loaded := h.loaded

/-- The same engine, when a file was read and kept. -/
theorem withFile (h : Represents parts e) {name : String} {src : Source}
    (hstore : parts.store.find? name = none) (hfind : e.findTemplate name = .ok (some src)) :
    Represents { parts with store := parts.store.insert name src } e where
  files := h.files
  config := h.config
  registry := h.registry
  searchPath := h.searchPath
  dispatchers := h.dispatchers
  installed := h.installed
  inline := h.inline
  added := by
    intro other found hfound
    have hother := h.added hfound
    have hne : other ≠ name := by
      rintro rfl
      rw [hstore] at hother
      contradiction
    exact (NameMap.find?_insert_of_ne hne src _).trans hother
  loaded := by
    intro other found hfound
    replace hfound : NameMap.find? other (NameMap.insert name src parts.store) = some found := hfound
    by_cases heq : other = name
    · subst heq
      rw [NameMap.find?_insert_self] at hfound
      cases hfound
      exact hfind
    · rw [NameMap.find?_insert_of_ne heq] at hfound
      exact h.loaded hfound

theorem addTemplate_agrees (h : Represents parts e) (name source : String) :
    Agrees parts ((addTemplate name source).run parts) (e.addTemplate name source) := by
  rw [addTemplate, QueryEngine.addTemplate]
  cases Instrument.instrument source.toList with
  | error fault => rfl
  | ok source =>
      rw [show Except.mapError _ (Except.ok source) = .ok source from rfl, run_require_ok_bind]
      cases hsrc : e.parse name source with
      | error fault =>
          have hcompile : (compile name source).run parts = (.error (.ofEngine fault), parts) := by
            simp [compile, h.view_parse, hsrc, Except.mapError]
          simp only [hsrc]
          exact run_bind_of_error hcompile _
      | ok src =>
          have hcompile : (compile name source).run parts =
              (.ok (), { parts with store := parts.store.insert name src }) := by
            simp [compile, h.view_parse, hsrc, Except.mapError]
          rw [run_bind_of_ok hcompile]
          simp only [hsrc]
          exact ⟨rfl, h.withTemplate name src⟩

theorem addSearchPath_agrees (h : Represents parts e) (dir : String) :
    Agrees parts ((addSearchPath dir).run parts) (e.addSearchPath dir) := by
  rw [addSearchPath, QueryEngine.addSearchPath, SearchPath.addDir]
  cases hdir : e.files.isDirectoryAt dir with
  | false =>
      have hadd : (addDir dir).run parts = (.error (.load (.directoryNotFound dir)), parts) := by
        simp [addDir, h.files, hdir]
      exact run_bind_of_error hadd _
  | true =>
      have hadd : (addDir dir).run parts =
          (.ok (), { parts with searchPath := ⟨parts.searchPath.dirs ++ [dir]⟩ }) := by
        simp [addDir, h.files, hdir]
      rw [run_bind_of_ok hadd]
      exact ⟨rfl, h.withDirectory dir⟩

theorem register_agrees (h : Represents parts e) (name : String) (filter : Filter ω) :
    Agrees parts ((register name filter).run parts) (e.register name filter) := by
  rw [register, QueryEngine.register, FilterRegistry.register]
  cases hname : isReservedName name with
  | true =>
      have henter : (enterFilter name filter).run parts = (.error (.reservedName name), parts) := by
        simp [enterFilter, hname]
      exact run_bind_of_error henter _
  | false =>
      cases htaken : !e.registry.allowOverride && e.registry.contains name with
      | true =>
          have henter : (enterFilter name filter).run parts =
              (.error (.duplicateFilter name), parts) := by
            simp only [enterFilter, hname, h.registry, htaken, Bool.not_false, Bool.not_true,
              run_check_true_bind, run_check_false_bind, run_get_bind]
          exact run_bind_of_error henter _
      | false =>
          have henter : (enterFilter name filter).run parts =
              (.ok (), { parts with
                registry :=
                  { parts.registry with filters := parts.registry.filters.insert name filter } }) := by
            simp only [enterFilter, hname, h.registry, htaken, Bool.not_false,
              run_check_true_bind, run_get_bind, run_modify]
          rw [run_bind_of_ok henter, run_installDispatcher]
          · simp only [h.installed]
            exact ⟨rfl, h.withFilter name filter⟩
          · exact h.dispatchers.trans h.installed.symm

theorem of_agrees (h : Represents parts e) {x : Update ω Unit}
    {result : Except QueryError (QueryEngine ω)} (hagrees : Agrees parts (x.run parts) result) :
    Represents ((x >>= fun _ => pure true).run parts).2 (e.orKeep result).2 := by
  rw [run_bind_pure_snd]
  cases result with
  | ok e' => exact hagrees.2
  | error fault =>
      rw [show x.run parts = (.error fault, parts) from hagrees]
      exact h

/-- A change keeps the parts fitting together, whether it succeeds or fails. -/
theorem change (h : Represents parts e) (c : EngineChange ω) :
    Represents ((EngineParts.change c).run parts).2 (e.apply c).2 := by
  cases c with
  | register name filter => exact h.of_agrees (h.register_agrees name filter)
  | unregister name => exact h.withoutFilter name
  | addTemplate name source => exact h.of_agrees (h.addTemplate_agrees name source)
  | addSearchPath dir => exact h.of_agrees (h.addSearchPath_agrees dir)

theorem find (h : Represents parts e) (name : String) :
    Represents ((EngineParts.find name).run parts).2 e := by
  simp only [EngineParts.find, run_get_bind, h.view_findTemplate]
  split
  · rename_i hstore hfind
    exact h.withFile hstore hfind
  · exact h

end Represents

/-! ### Histories -/

/-- Something that is done with an engine. Of a render, and of a look at a template, only the names
that are looked up on the way matter for what comes later. -/
inductive Call (ω : Type) where
  | change (c : EngineChange ω)
  | render (names : List String)

/-- Finds templates one after the other. -/
def findAll : List String → Update ω Unit
  | [] => return ()
  | name :: names => do find name; findAll names

def perform : Call ω → Update ω Bool
  | .change c => change c
  | .render names => do findAll names; return true

/-- The parts after a history. -/
def after (parts : EngineParts ω) (history : List (Call ω)) : EngineParts ω :=
  history.foldl (fun parts call => ((perform call).run parts).2) parts

/-- The changes of a history. -/
def changes (history : List (Call ω)) : List (EngineChange ω) :=
  history.filterMap fun
    | .change c => some c
    | .render _ => none

/-! ### What can be seen -/

def templateNames (parts : EngineParts ω) : Except QueryError (List String) :=
  match parts.searchPath.names parts.files with
  | .error fault => .error (.load fault)
  | .ok found => .ok (NameMap.sortNames (parts.inline.names ++ found))

def filterNames (parts : EngineParts ω) : List String :=
  parts.registry.names

def getTemplate (parts : EngineParts ω) (name : String) : Except QueryError Source :=
  parts.view.getTemplate name

def render (parts : EngineParts ω) (mode : EvalMode) (name : String) (context : Context ω)
    (options : RenderOptions) (world : ω) : Except QueryError RenderedQuery × ω :=
  parts.view.render mode name context options world

/-- The parts cannot be told from the engine. -/
structure LooksLike (parts : EngineParts ω) (e : QueryEngine ω) : Prop where
  templateNames : parts.templateNames = e.templateNames
  filterNames : parts.filterNames = e.filterNames
  searchPaths : parts.config.searchPaths = e.config.searchPaths
  getTemplate : ∀ name, parts.getTemplate name = e.getTemplate name
  render : ∀ mode name context options world,
    parts.render mode name context options world = e.render mode name context options world

namespace Represents

theorem looksLike (h : Represents parts e) : LooksLike parts e where
  templateNames := by
    have hnames : parts.inline.names = e.inline.names := by
      simp [h.inline, NameMap.names, Function.comp_def]
    cases hfound : e.searchPath.names e.files with
    | error fault =>
        simp [EngineParts.templateNames, QueryEngine.templateNames, h.searchPath, h.files, hfound]
    | ok found =>
        simp [EngineParts.templateNames, QueryEngine.templateNames, h.searchPath, h.files, hfound,
          hnames]
  filterNames := by rw [EngineParts.filterNames, QueryEngine.filterNames, h.registry]
  searchPaths := by rw [h.config]
  getTemplate name := by
    rw [EngineParts.getTemplate, QueryEngine.getTemplate, QueryEngine.getTemplate,
      h.view_findTemplate]
  render mode name context options world := by
    have hprogram : ∀ src, parts.view.program context src = e.program context src := by
      intro src
      rw [QueryEngine.program, QueryEngine.program, h.view_environment]
    have hrun : ∀ program, parts.view.renderProgram mode program context options world =
        e.renderProgram mode program context options world := by
      intro program
      simp only [QueryEngine.renderProgram, show parts.view.registry = e.registry from h.registry]
    simp only [EngineParts.render, QueryEngine.render, QueryEngine.renderMarked,
      QueryEngine.getTemplate, h.view_findTemplate, hprogram, hrun]

theorem findAll (h : Represents parts e) (names : List String) :
    Represents ((EngineParts.findAll names).run parts).2 e := by
  induction names generalizing parts with
  | nil => exact h
  | cons name names ih =>
      have hfind := h.find name
      rw [EngineParts.findAll, run_bind]
      rcases hrun : (EngineParts.find name).run parts with ⟨fault | a, parts'⟩ <;> rw [hrun] at hfind
      · exact hfind
      · exact ih hfind

theorem after (h : Represents parts e) (history : List (Call ω)) :
    Represents (parts.after history) (e.applyAll (changes history)).2 := by
  induction history generalizing parts e with
  | nil => exact h
  | cons call history ih =>
      cases call with
      | change c => exact ih (h.change c)
      | render names =>
          refine ih ?_
          show Represents ((EngineParts.findAll names >>= fun _ => pure true).run parts).2 e
          rw [run_bind_pure_snd]
          exact h.findAll names

/-- A new engine is put together as it should be. -/
theorem build (files : FileTree) (config : EngineConfig) (searchPath : SearchPath) :
    Represents (EngineParts.build (ω := ω) files config searchPath)
      { config, files, searchPath, inline := []
        registry := { FilterRegistry.withBuiltins with allowOverride := config.allowFilterOverride }
        dispatched := (FilterRegistry.withBuiltins : FilterRegistry ω).names } where
  files := rfl
  config := rfl
  registry := rfl
  searchPath := rfl
  inline := rfl
  dispatchers := rfl
  installed := rfl
  added h := by contradiction
  loaded h := by contradiction

end Represents

theorem dirs_of_searchPathOf {files : FileTree} {dirs : List String} {path path' : SearchPath}
    (h : QueryEngine.searchPathOf files path dirs = .ok path') :
    path'.dirs = path.dirs ++ dirs := by
  induction dirs generalizing path with
  | nil =>
      cases h
      simp
  | cons dir dirs ih =>
      rw [QueryEngine.searchPathOf, SearchPath.addDir] at h
      cases hdir : files.isDirectoryAt dir with
      | false => simp [hdir] at h
      | true =>
          simp only [hdir, if_true] at h
          simpa using ih h

/-- The settings list the directories of the search path, and a change leaves it so. -/
theorem searchPaths_apply (h : e.config.searchPaths = e.searchPath.dirs) (c : EngineChange ω) :
    (e.apply c).2.config.searchPaths = (e.apply c).2.searchPath.dirs := by
  cases c with
  | register name filter =>
      by_cases haccepts : e.Accepts name
      · rw [QueryEngine.apply_register haccepts]
        exact h
      · rw [QueryEngine.apply_register_of_not haccepts]
        exact h
  | unregister name => exact h
  | addTemplate name source =>
      obtain ⟨done, inline, happly⟩ := e.apply_addTemplate name source
      rw [happly]
      exact h
  | addSearchPath dir =>
      rw [QueryEngine.apply, QueryEngine.addSearchPath, SearchPath.addDir]
      cases e.files.isDirectoryAt dir with
      | false => exact h
      | true => exact congrArg (· ++ [dir]) h

theorem searchPaths_applyAll (h : e.config.searchPaths = e.searchPath.dirs)
    (history : List (EngineChange ω)) :
    (e.applyAll history).2.config.searchPaths = (e.applyAll history).2.searchPath.dirs := by
  induction history generalizing e with
  | nil => exact h
  | cons c history ih => exact ih (searchPaths_apply h c)

theorem commits_find (name : String) : (find (ω := ω) name).Commits := by
  refine commits_get.bind fun parts => ?_
  split
  · exact commits_modify _
  · exact commits_pure ()

theorem commits_findAll (names : List String) : (findAll (ω := ω) names).Commits := by
  induction names with
  | nil => exact commits_pure ()
  | cons name names ih => exact (commits_find name).bind fun _ => ih

theorem atomic_perform (call : Call ω) : (perform call).Atomic := by
  cases call with
  | change c => exact atomic_change c
  | render names => exact ((commits_findAll names).bind fun _ => commits_pure _).atomic

theorem after_append (parts : EngineParts ω) (earlier later : List (Call ω)) :
    parts.after (earlier ++ later) = (parts.after earlier).after later :=
  List.foldl_append

/-- A call that fails can be left out of a history. -/
theorem after_of_error {call : Call ω} {fault : QueryError}
    (h : ((perform call).run parts).1 = .error fault) (later : List (Call ω)) :
    parts.after (call :: later) = parts.after later := by
  rw [after, List.foldl_cons, atomic_perform call parts fault h]
  rfl

/-- Failing operations change nothing. From a new engine on, however it is used, the settings list
the directories of the search path; and a call that fails leaves all parts as they were, so that from
then on the engine looks like one on which the call was never made. -/
theorem failed_call_unseen {files : FileTree} {config : EngineConfig} {parts : EngineParts ω}
    (hstart : withConfig files config = .ok parts) :
    ∃ e : QueryEngine ω, QueryEngine.withConfig files config = .ok e ∧
      (∀ history, (parts.after history).config.searchPaths =
        (parts.after history).searchPath.dirs) ∧
      ∀ earlier call fault, ((perform call).run (parts.after earlier)).1 = .error fault →
        ((perform call).run (parts.after earlier)).2 = parts.after earlier ∧
        ∀ later, LooksLike (parts.after (earlier ++ call :: later))
          (e.applyAll (changes (earlier ++ later))).2 := by
  rw [withConfig] at hstart
  cases hpath : QueryEngine.searchPathOf files {} config.searchPaths with
  | error fault => simp [hpath] at hstart
  | ok path =>
      simp only [hpath, Except.ok.injEq] at hstart
      subst hstart
      have hbuild := Represents.build (ω := ω) files config path
      refine ⟨_, by rw [QueryEngine.withConfig, hpath], fun history => ?_, ?_⟩
      · have hafter := hbuild.after history
        rw [hafter.config, hafter.searchPath]
        exact searchPaths_applyAll (dirs_of_searchPathOf hpath).symm _
      · intro earlier call fault hfail
        refine ⟨atomic_perform call _ fault hfail, fun later => ?_⟩
        have hleft : (build files config path).after (earlier ++ call :: later) =
            (build files config path).after (earlier ++ later) := by
          rw [after_append, after_of_error hfail, after_append]
        rw [hleft]
        exact (hbuild.after (earlier ++ later)).looksLike

/-- A template stays what it was when the source to replace it is malformed. -/
theorem malformed_replacement_unseen :
    LooksLike
      ((build .empty {} {} : EngineParts Unit).after
        [.change (.addTemplate "q" "SELECT 1"), .change (.addTemplate "q" "\x7b\x7b"),
          .render ["q"]])
      ((QueryEngine.new .empty).applyAll [.addTemplate "q" "SELECT 1"]).2 := by
  have hstart : withConfig (ω := Unit) .empty {} = .ok (build .empty {} {}) := rfl
  obtain ⟨e, he, -, hcalls⟩ := failed_call_unseen hstart
  cases he
  exact (hcalls [.change (.addTemplate "q" "SELECT 1")] (.change (.addTemplate "q" "\x7b\x7b"))
    (.templateSyntax "unterminated expression (line 1)" none) (by rfl)).2 [.render ["q"]]

end EngineParts

end QueryTemplate
