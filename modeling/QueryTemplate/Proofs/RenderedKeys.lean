import QueryTemplate.Proofs.FragmentQuery
import QueryTemplate.Proofs.Passes
import QueryTemplate.Proofs.PlaceholderKeys

/-!
The keys of a rendered query. A key is a word unless a hint brings something else along, and the hints
are those of the emissions: the name that a value got, or what its tag says.
-/

namespace QueryTemplate

namespace Emission

/-- The hint of a parameter, as an emission gives it: the name of the value, the hint of the emission,
or that hint with a number if a list is emitted. -/
inductive Hints : Value × Option String → String → Prop where
  | named (v : Value) (own : String) (hint : Option String) : Hints (.bound v own, hint) own
  | given (v : Value) (hint : String) : Hints (v, some hint) hint
  | element (items : List Value) (hint : String) (n : Nat) :
    Hints (.params items, some hint) (hint ++ "_" ++ toString n)

theorem exists_of_mem_numbered {given : Option String} {n : Nat} {items : List Value}
    {hint : String} {v : Value} (h : (some hint, v) ∈ numbered given n items) :
    ∃ (own : String) (k : Nat), given = some own ∧ hint = own ++ "_" ++ toString k := by
  induction items generalizing n with
  | nil => cases h
  | cons w rest ih =>
      rcases List.mem_cons.mp h with heq | hrest
      · obtain ⟨own, hown, rfl⟩ := Option.map_eq_some_iff.mp (Prod.mk.inj heq).1.symm
        exact ⟨own, n, hown, rfl⟩
      · exact ih hrest

theorem hints_of_mem_captured {emission : Value × Option String} {hint : String} {v : Value}
    (h : (some hint, v) ∈ captured emission) : Hints emission hint := by
  obtain ⟨w, given⟩ := emission
  rw [captured] at h
  split at h
  · cases h
  · cases w with
    | safe text => cases h
    | params items =>
        obtain ⟨own, k, rfl, rfl⟩ := exists_of_mem_numbered h
        exact .element items own k
    | bound w own =>
        cases List.mem_singleton.mp h
        exact .named _ _ _
    | _ =>
        cases List.mem_singleton.mp h
        exact .given _ _

end Emission

namespace QueryEngine

variable {ω : Type} {e : QueryEngine ω} {mode : EvalMode} {program : RenderProgram}
  {context : Context ω} {options : RenderOptions} {world : ω} {marked : MarkedQuery}

/-- The hints in the text of a render are those of the emissions of its last pass. -/
theorem exists_hints_of_ok
    (h : (e.renderProgram mode program context options world).1 = .ok marked) :
    ∃ p s, e.HasPass program context options world mode p s ∧
      ∀ hint, some hint ∈ marked.captures.hintsIn marked.text →
        ∃ emission ∈ p.emissions program s, Emission.Hints emission hint := by
  obtain ⟨p, s, hpass, hcomplete⟩ := exists_hasPass_of_ok h
  refine ⟨p, s, hpass, fun hint hhint => ?_⟩
  obtain ⟨capture, hcapture, hown⟩ := CaptureList.mem_hints_of_mem_hintsIn hhint
  have hcaptures := (PassScope.run_of_complete hcomplete).2
  rw [PassScope.captures_run, hpass.captures] at hcaptures
  have hcontent : capture.content ∈ marked.captures.entries.map Capture.content :=
    List.mem_map_of_mem hcapture
  rw [hcaptures, CaptureList.content_extend, List.map_nil, List.nil_append, Capture.content, hown]
    at hcontent
  obtain ⟨emission, hemission, hcaptured⟩ := List.mem_flatMap.mp hcontent
  exact ⟨emission, hemission, Emission.hints_of_mem_captured hcaptured⟩

/-- The keys of a render with a style that has some. They stand in the placeholders as they are and
none of them comes twice. They are words exactly if the hints of the parameters are dotted, and a hint
is what an emission of the last pass gives: the name of the value, which the `bind` filter may have set
to any text, the hint of the tag, or that hint with a number. -/
theorem keys_of_renderProgram (e : QueryEngine ω) (mode : EvalMode) (program : RenderProgram)
    (context : Context ω) (options : RenderOptions) (world : ω)
    (hstyle : options.paramStyle.container = .mapping) {marked : MarkedQuery}
    (hmarked : (e.renderProgram mode program context options world).1 = .ok marked)
    {query : RenderedQuery} (hquery : marked.format options.paramStyle = .ok query) :
    (query.query = String.ofList (fillMarkers false marked.text.toList
        (placeholders options.paramStyle 0 query.params.keys)) ∧
      query.params.keys.Nodup ∧
      ((∀ key ∈ query.params.keys, IsWord key) ↔
        ∀ hint, some hint ∈ marked.captures.hintsIn marked.text → IsDotted hint)) ∧
    ∃ p s, e.HasPass program context options world mode p s ∧
      ∀ hint, some hint ∈ marked.captures.hintsIn marked.text →
        ∃ emission ∈ p.emissions program s, Emission.Hints emission hint :=
  ⟨keys_of_formatQuery hstyle hquery, exists_hints_of_ok hmarked⟩

/-- The element of a list, whose hint is the variable with a number. -/
theorem keys_of_renderProgram_element :
    let e : QueryEngine Unit := .new default
    let context : Context Unit := Context.empty.insert "u" (.list [.int 1])
    let source := (Instrument.instrument "\x7b\x7b u | inclause \x7d\x7d".toList).toOption.getD []
    let program := e.oneOffProgram context source
    ∃ marked query, (e.renderProgram .sequential program context {} ()).1 = .ok marked ∧
      marked.format .named = .ok query ∧ query.params.keys.Nodup ∧
      ((∀ key ∈ query.params.keys, IsWord key) ↔
        ∀ hint, some hint ∈ marked.captures.hintsIn marked.text → IsDotted hint) := by
  intro e context source program
  have hok : (((e.renderProgram .sequential program context {} ()).1.toOption.bind fun marked =>
      (marked.format .named).toOption).map fun query => query.params.keys) = some ["u_1"] := by
    decide +kernel
  cases hmarked : (e.renderProgram .sequential program context {} ()).1 with
  | error fault =>
      rw [hmarked] at hok
      cases hok
  | ok marked =>
      cases hquery : marked.format .named with
      | error fault =>
          rw [hmarked] at hok
          simp [Except.toOption, hquery] at hok
      | ok query =>
          obtain ⟨⟨-, hnodup, hwords⟩, -⟩ :=
            keys_of_renderProgram e .sequential program context {} () rfl hmarked hquery
          exact ⟨marked, query, rfl, hquery, hnodup, hwords⟩

/-- The name that a value gets from a variable is written into the query as it is, and so is the empty
name. -/
theorem bind_keys_rendered :
    let context : Context Unit := (Context.empty.insert "v" (.int 1)).insert "h" (.str "x OR 1=1")
    let e : QueryEngine Unit := .new default
    ["\x7b\x7b v | bind(h) \x7d\x7d", "\x7b\x7b v | bind('') \x7d\x7d"].map
      (fun source =>
        (e.renderText .sequential source context {} ()).1.map
          fun query => (query.query, query.params.keys, query.params.keys.all fun key => IsWord key)) =
      [.ok (":x OR 1=1", ["x OR 1=1"], false), .ok (":", [""], false)] := by
  decide +kernel

end QueryEngine

end QueryTemplate
