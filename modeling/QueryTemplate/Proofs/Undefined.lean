import QueryTemplate.Filter.Builtin
import QueryTemplate.Proofs.Exactness
import QueryTemplate.Proofs.Passes

/-!
Undefined values in a render. A value that is undefined itself is refused when it is emitted and
fails the render. A value that has a name for its parameter, or is a list to be bound element by
element, is not looked into: what is undefined inside of it is captured and bound. No undefined
value gets into the captures, or from there into the parameters of a query, in another way.
-/

namespace QueryTemplate

namespace Value

/-- An undefined value is inside, where the refusal of undefined values does not look. -/
def hidesUndefined : Value → Bool
  | bound value _ => value.isUndefined
  | params items => items.any isUndefined
  | _ => false

end Value

namespace Emission

theorem map_snd_numbered (hint : Option String) (n : Nat) (items : List Value) :
    (numbered hint n items).map (·.2) = items := by
  induction items generalizing n with
  | nil => rfl
  | cons v items ih => simp [numbered, ih]

/-- What is captured for an emission has an undefined value in it if the emitted value hides one. -/
theorem any_isUndefined_captured (emission : Value × Option String) :
    (captured emission).any (·.2.isUndefined) = emission.1.hidesUndefined := by
  obtain ⟨v, hint⟩ := emission
  rw [captured]
  cases hv : v.isUndefined with
  | true => cases v <;> simp_all [Value.isUndefined, Value.hidesUndefined]
  | false =>
      rw [if_neg (by simp)]
      cases v with
      | params items =>
          have hitems : ((numbered hint 1 items).map (·.2)).any Value.isUndefined =
              items.any Value.isUndefined := by rw [map_snd_numbered]
          rw [List.any_map] at hitems
          exact hitems
      | bound v own => simp [bound, Value.hidesUndefined]
      | safe text => rfl
      | _ => simpa [bound, Value.hidesUndefined] using hv

end Emission

namespace PassScope

variable {ω α : Type} {p : PassScope ω}

/-- A pass that begins without captures captures an undefined value exactly if it emits one that
hides it. -/
theorem exists_undefined_captured_iff {program : Template.Program α} {s : PassState ω}
    (hs : s.captures = {}) :
    (∃ v ∈ (p.run program s).2.captures.values, v.isUndefined = true) ↔
      ∃ emission ∈ p.emissions program s, emission.1.hidesUndefined = true := by
  have hvalues : (p.run program s).2.captures.values =
      ((p.emissions program s).flatMap Emission.captured).map (·.2) := by
    rw [captures_run, hs, CaptureList.values_extend]
    rfl
  simp only [hvalues, ← Emission.any_isUndefined_captured, List.any_eq_true, List.mem_map,
    List.mem_flatMap]
  constructor
  · rintro ⟨v, ⟨b, ⟨emission, hemission, hb⟩, rfl⟩, hv⟩
    exact ⟨emission, hemission, b, hb, hv⟩
  · rintro ⟨emission, hemission, b, hb, hv⟩
    exact ⟨b.2, ⟨b, ⟨emission, hemission, hb⟩, rfl⟩, hv⟩

end PassScope

/-- Every parameter of a query is a captured value. -/
theorem mem_values_of_formatQuery {text : String} {captures : CaptureList} {style : ParamStyle}
    {query : RenderedQuery} (h : formatQuery text captures style = .ok query) {v : Value}
    (hv : v ∈ query.params.values) : v ∈ captures.values := by
  obtain ⟨segs, hsegs, -⟩ := (exists_formatQuery_eq_ok_iff text).mp ⟨query, h⟩
  obtain ⟨keys, hexact⟩ := exactlyFormats_of_segments hsegs h
  obtain ⟨k, hk, hget⟩ := List.mem_iff_getElem.mp hv
  have hindex : k < (markerIndices segs).length := by
    rwa [← hexact.params_length, ← Params.length_values]
  obtain ⟨capture, hcapture, hvalue⟩ := hexact.value k _ (List.getElem?_eq_getElem hindex)
  rw [Params.getIndex?, List.getElem?_eq_getElem hk, hget] at hvalue
  rw [Option.some.inj hvalue]
  exact List.mem_map_of_mem (List.mem_of_getElem? hcapture)

/-! ### The built-in filters -/

namespace Builtin

theorem isRaw_identifier {scope : FilterScope} {input output : Classified} {args : List Value}
    (h : identifier scope input args = .ok output) : output.isRaw = true := by
  unfold identifier at h
  grind [Classified.isRaw]

theorem isRaw_inlineText {text : String} {output : Classified}
    (h : inlineText text = .ok output) : output.isRaw = true := by
  unfold inlineText at h
  grind [Classified.isRaw]

theorem isRaw_sqlsafe {scope : FilterScope} {input output : Classified} {args : List Value}
    (h : sqlsafe scope input args = .ok output) : output.isRaw = true := by
  unfold sqlsafe at h
  grind [Classified.isRaw, isRaw_inlineText]

theorem isRaw_safe {scope : FilterScope} {input output : Classified} {args : List Value}
    (h : safe scope input args = .ok output) : output.isRaw = true := by
  unfold safe at h
  grind [Classified.isRaw, isRaw_inlineText]

theorem hidesUndefined_of_isRaw {output : Classified} (h : output.isRaw = true) :
    output.toValue.isUndefined = false ∧ output.toValue.hidesUndefined = false := by
  cases output with
  | raw text => exact ⟨rfl, rfl⟩
  | parameter value hint => cases h

/-- What a built-in filter returns is never undefined itself. It hides an undefined value if `bind`
gave an undefined value a name, or if `inclause` was given a list with an undefined element. -/
theorem hidesUndefined_of_run {name : String}
    {f : FilterScope → Classified → List Value → Except FilterError Classified}
    (hf : run? name = some f) {scope : FilterScope} {input output : Classified} {args : List Value}
    (h : f scope input args = .ok output) :
    output.toValue.isUndefined = false ∧
      (output.toValue.hidesUndefined = true ↔
        ∃ value hint, input = .parameter value hint ∧
          (name = "bind" ∧ value.isUndefined = true ∨
            name = "inclause" ∧ ∃ items, value.elements? = some items ∧
              items.any Value.isUndefined = true)) := by
  unfold run? at hf
  split at hf <;> cases hf
  case h_1 => simpa using hidesUndefined_of_isRaw (isRaw_identifier h)
  case h_4 => simpa using hidesUndefined_of_isRaw (isRaw_sqlsafe h)
  case h_5 => simpa using hidesUndefined_of_isRaw (isRaw_safe h)
  case h_2 =>
    unfold inclause at h
    split at h
    · cases h
    · split at h
      · rename_i items hitems
        cases h
        simp [Classified.toValue, Value.isUndefined, Value.hidesUndefined, hitems]
      · cases h
  case h_3 =>
    unfold bind at h
    split at h
    · cases h
      cases input with
      | raw text => simp [Classified.withHint, Classified.toValue, Value.isUndefined,
          Value.hidesUndefined]
      | parameter value hint => simp [Classified.withHint, Classified.toValue, Value.isUndefined,
          Value.hidesUndefined]
    · cases h

end Builtin

namespace QueryEngine

variable {ω : Type}

/-- Undefined values in the renders of a template. A pass that emits an undefined value fails the
render. A query that a render returns has only captured values for parameters, all emissions of the
pass it comes from are of defined values, and an undefined value is among its captures exactly if
one of these emissions hides it. -/
theorem undefined_of_renderProgram (e : QueryEngine ω) (mode : EvalMode) (program : RenderProgram)
    (context : Context ω) (options : RenderOptions) (world : ω) :
    (∀ p s, e.HasPass program context options world mode p s →
      ∀ v hint, (v, hint) ∈ p.emissions program s → v.isUndefined = true →
        ∃ t : PassState ω,
          (p.run program s).2 = t.fail (.undefinedValue (hint.getD "<expression>")) ∧
          formatResult options (e.renderProgram mode program context options world).1 =
            .error (t.failure.getD (.undefinedValue (hint.getD "<expression>")))) ∧
    ∀ query, formatResult options (e.renderProgram mode program context options world).1 =
        .ok query →
      ∃ p s marked, e.HasPass program context options world mode p s ∧
        (e.renderProgram mode program context options world).1 = .ok marked ∧
        marked.captures = (p.run program s).2.captures ∧
        (∀ v ∈ query.params.values, v ∈ marked.captures.values) ∧
        (∀ emission ∈ p.emissions program s, emission.1.isUndefined = false) ∧
        ((∃ v ∈ marked.captures.values, v.isUndefined = true) ↔
          ∃ emission ∈ p.emissions program s, emission.1.hidesUndefined = true) := by
  constructor
  · intro p s hpass v hint hemission hv
    obtain ⟨t, ht, houtcome⟩ := PassScope.outcome_of_undefined hemission hv
    exact ⟨t, ht, by rw [hpass.of_failed houtcome, formatResult]⟩
  · intro query hquery
    cases hrender : (e.renderProgram mode program context options world).1 with
    | error fault =>
        rw [hrender] at hquery
        cases hquery
    | ok marked =>
        rw [hrender] at hquery
        obtain ⟨p, s, hpass, hcomplete⟩ := exists_hasPass_of_ok hrender
        obtain ⟨-, hcaptures⟩ := PassScope.run_of_complete hcomplete
        refine ⟨p, s, marked, hpass, rfl, hcaptures, fun v hv => mem_values_of_formatQuery hquery hv,
          fun ⟨v, hint⟩ hemission => ?_, ?_⟩
        -- A pass that emits an undefined value fails, but this one got through.
        · by_contra hundefined
          obtain ⟨t, -, hfailed⟩ := PassScope.outcome_of_undefined hemission
            (by simpa using hundefined)
          rw [hcomplete] at hfailed
          cases hfailed
        · rw [hcaptures]
          exact PassScope.exists_undefined_captured_iff hpass.captures

/-- A variable that does not exist is bound once it has a name, and so is an element that does not
exist. -/
theorem bind_inclause_undefined_rendered :
    ["\x7b\x7b missing | bind('x') \x7d\x7d", "\x7b\x7b [missing] | inclause \x7d\x7d"].map
      (fun source =>
        ((QueryEngine.new default : QueryEngine Unit).renderText .sequential source {} {} ()).1.map
          fun query => (query.query, query.params.values.map Value.isUndefined)) =
      [.ok (":x", [true]), .ok ("(:param_1)", [true])] := by
  decide +kernel

end QueryEngine

end QueryTemplate
