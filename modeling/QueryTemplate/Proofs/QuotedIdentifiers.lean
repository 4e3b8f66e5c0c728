import Mathlib.Data.List.Basic
import QueryTemplate.Filter.Builtin

/-!
Quoted identifiers, and what a reader of the query makes of them. A quoted name ends at the first
quote that is not doubled, so nothing in a name ends it early, and names in a row stand apart by the
points between their quotes. A name without quotes has no point in it, so there the points alone tell
the names apart.
-/

namespace QueryTemplate

/-! ### Reading quoted names -/

/-- Reads a quoted name from behind its opening quote. A doubled quote is one quote of the name, and
a single one closes it. -/
def readName (quote : Char) : List Char → Option (List Char × List Char)
  | [] => none
  | [c] => if c = quote then some ([], []) else none
  | c :: d :: rest =>
    if c = quote then
      if d = quote then (readName quote rest).map fun (name, rest) => (quote :: name, rest)
      else some ([], d :: rest)
    else (readName quote (d :: rest)).map fun (name, rest) => (c :: name, rest)

variable {quote : Char}

theorem length_readName {text name rest : List Char} (h : readName quote text = some (name, rest)) :
    rest.length < text.length := by
  fun_induction readName quote text generalizing name rest with
  | case1 => cases h
  | case2 => cases h; simp
  | case3 => cases h
  | case4 rest' ih =>
      obtain ⟨⟨name', rest'⟩, hread, heq⟩ := Option.map_eq_some_iff.mp h
      cases heq
      have := ih hread
      simp only [List.length_cons]
      omega
  | case5 => cases h; simp
  | case6 c d rest' _ ih =>
      obtain ⟨⟨name', rest'⟩, hread, heq⟩ := Option.map_eq_some_iff.mp h
      cases heq
      have := ih hread
      simp only [List.length_cons] at this ⊢
      omega

/-- Reads quoted names that are separated by points, and returns what follows the last of them. -/
def readNames (quote : Char) : List Char → Option (List (List Char) × List Char)
  | [] => none
  | c :: text =>
    if c = quote then
      match _h : readName quote text with
      | none => none
      | some (name, []) => some ([name], [])
      | some (name, d :: rest) =>
        if d = '.' then (readNames quote rest).map fun (names, rest) => (name :: names, rest)
        else some ([name], d :: rest)
    else none
termination_by text => text.length
decreasing_by
  have := length_readName _h
  simp only [List.length_cons] at this ⊢
  omega

theorem readNames_of_readName {text name rest : List Char}
    (h : readName quote text = some (name, rest)) :
    readNames quote (quote :: text) =
      match rest with
      | [] => some ([name], [])
      | d :: rest =>
        if d = '.' then (readNames quote rest).map fun (names, rest) => (name :: names, rest)
        else some ([name], d :: rest) := by
  rw [readNames, if_pos rfl]
  split <;> rename_i hread <;> rw [h] at hread <;> cases hread <;> rfl

/-- A name as it is written in quotes. -/
def quotedName (quote : Char) (name : List Char) : List Char :=
  quote :: doubleQuotes quote name ++ [quote]

theorem quotedName_append (name rest : List Char) :
    quotedName quote name ++ rest = quote :: (doubleQuotes quote name ++ quote :: rest) := by
  rw [quotedName, List.append_assoc, List.cons_append, List.singleton_append]

theorem readName_doubleQuotes (name : List Char) {rest : List Char}
    (hrest : rest.head? ≠ some quote) :
    readName quote (doubleQuotes quote name ++ quote :: rest) = some (name, rest) := by
  induction name with
  | nil =>
      cases rest with
      | nil => simp [doubleQuotes, readName]
      | cons d rest =>
          have hd : d ≠ quote := fun heq => hrest (by rw [heq, List.head?_cons])
          simp [doubleQuotes, readName, hd]
  | cons c name ih =>
      rw [doubleQuotes, List.flatMap_cons, ← doubleQuotes]
      by_cases hc : c = quote
      · simp [hc, readName, ih]
      · -- what follows `c` is not empty, since the closing quote is still to come
        obtain ⟨d, more, hmore⟩ : ∃ d more, doubleQuotes quote name ++ quote :: rest = d :: more :=
          List.exists_cons_of_ne_nil (by simp)
        rw [if_neg hc, List.append_assoc, List.singleton_append, hmore, readName, if_neg hc, ← hmore,
          ih]
        rfl

theorem readNames_quotedName (name : List Char) {rest : List Char}
    (hrest : rest.head? ≠ some quote) (hpoint : rest.head? ≠ some '.') :
    readNames quote (quotedName quote name ++ rest) = some ([name], rest) := by
  rw [quotedName_append, readNames_of_readName (readName_doubleQuotes name hrest)]
  cases rest with
  | nil => rfl
  | cons d rest => exact if_neg fun heq => hpoint (by rw [heq, List.head?_cons])

/-- A point behind a name goes on with another name. -/
theorem readNames_quotedName_point (hquote : quote ≠ '.') (name text : List Char) :
    readNames quote (quotedName quote name ++ '.' :: text) =
      (readNames quote text).map fun (names, rest) => (name :: names, rest) := by
  have hrest : ('.' :: text).head? ≠ some quote := fun heq => hquote (Option.some.inj heq).symm
  rw [quotedName_append, readNames_of_readName (readName_doubleQuotes name hrest)]
  exact if_pos rfl

/-- Names in quotes with points between them are read back, and nothing of what follows is. -/
theorem readNames_intercalate (hquote : quote ≠ '.') {names : List (List Char)} (hne : names ≠ [])
    {rest : List Char} (hrest : rest.head? ≠ some quote) (hpoint : rest.head? ≠ some '.') :
    readNames quote (['.'].intercalate (names.map (quotedName quote)) ++ rest) =
      some (names, rest) := by
  induction names with
  | nil => contradiction
  | cons name names ih =>
      cases names with
      | nil =>
          rw [List.map_singleton, List.intercalate_singleton]
          exact readNames_quotedName name hrest hpoint
      | cons next names =>
          have hnext := ih (List.cons_ne_nil _ _)
          rw [List.map_cons] at hnext
          rw [List.map_cons, List.map_cons, List.intercalate_cons_cons, List.append_assoc,
            List.append_assoc, List.singleton_append, readNames_quotedName_point hquote, hnext]
          rfl

/-! ### Names without quotes -/

/-- A name that begins with a letter or an underscore and goes on with letters, digits, underscores
and dollar signs, all of the ASCII range. -/
inductive IsBareName : List Char → Prop where
  | mk {first : Char} {rest : List Char} (hfirst : Text.isAsciiLetter first = true ∨ first = '_')
    (hrest : ∀ c ∈ rest,
      Text.isAsciiLetter c = true ∨ Text.isAsciiDigit c = true ∨ c = '_' ∨ c = '$') :
    IsBareName (first :: rest)

theorem isBareIdentifier_iff {name : List Char} :
    isBareIdentifier name = true ↔ IsBareName name := by
  cases name with
  | nil => exact iff_of_false Bool.false_ne_true fun h => by cases h
  | cons c rest =>
      have hrest : (rest.all fun c => Text.isNamePart c || c == '$') = true ↔
          ∀ c ∈ rest,
            Text.isAsciiLetter c = true ∨ Text.isAsciiDigit c = true ∨ c = '_' ∨ c = '$' := by
        simp only [List.all_eq_true, Text.isNamePart, Text.isNameStart, Bool.or_eq_true, beq_iff_eq]
        grind
      rw [isBareIdentifier, Bool.and_eq_true, hrest, Text.isNameStart, Bool.or_eq_true, beq_iff_eq]
      constructor
      · rintro ⟨hfirst, hmore⟩
        exact .mk hfirst hmore
      · rintro ⟨hfirst, hmore⟩
        exact ⟨hfirst, hmore⟩

theorem IsBareName.not_mem_point {name : List Char} (h : IsBareName name) : '.' ∉ name := by
  obtain ⟨hfirst, hrest⟩ := h
  have hletter : Text.isAsciiLetter '.' = false := by decide
  have hdigit : Text.isAsciiDigit '.' = false := by decide
  rw [List.mem_cons, not_or]
  constructor
  · rintro rfl
    simp [hletter] at hfirst
  · intro hmem
    simpa [hletter, hdigit] using hrest '.' hmem

/-! ### The filter -/

/-- The segments of an identifier that a value stands for: a string is one, and a sequence of strings
gives several. -/
inductive Value.Spells : Value → List String → Prop where
  | string {v : Value} {text : String} (htext : v.asString? = some text) : Spells v [text]
  | sequence {v : Value} {items : List Value} {segments : List String} (hkind : v.kind = .sequence)
    (hitems : v.elements? = some items)
    (hsegments : items.map Value.asString? = segments.map some) : Spells v segments

/-- A segment that the filter takes. -/
structure IsSegment (quote : Option Char) (segment : String) : Prop where
  nonempty : segment ≠ ""
  clean : ∀ c ∈ segment.toList, isReserved c = false
  bare : quote = none → IsBareName segment.toList

/-- A segment as the filter writes it. -/
def writtenSegment (quote : Option Char) (segment : String) : List Char :=
  match quote with
  | none => segment.toList
  | some quote => quotedName quote segment.toList

namespace Builtin

theorem strings_of_map {items : List Value} {segments : List String}
    (h : items.map Value.asString? = segments.map some) : strings items = .ok segments := by
  induction items generalizing segments with
  | nil =>
      obtain rfl := List.map_eq_nil_iff.mp h.symm
      rfl
  | cons v items ih =>
      cases segments with
      | nil => cases h
      | cons text segments =>
          obtain ⟨hv, hrest⟩ := List.cons_eq_cons.mp h
          rw [strings, hv, ih hrest]

theorem identifierSegments_of_spells {v : Value} {segments : List String} (h : v.Spells segments) :
    identifierSegments v = .ok segments := by
  cases h with
  | string htext => rw [identifierSegments, htext]
  | sequence hkind hitems hsegments =>
      have htext : v.asString? = none := by
        cases v <;> first | rfl | cases hkind
      rw [identifierSegments, htext]
      simp [hkind, hitems, strings_of_map hsegments]

variable {quote : Option Char}

theorem quoteIdentifier_of_isSegment {segment : String} (h : IsSegment quote segment) :
    quoteIdentifier segment quote = .ok (String.ofList (writtenSegment quote segment)) := by
  have hclean : hasReserved segment = false := by
    simpa [hasReserved] using h.clean
  unfold quoteIdentifier
  rw [if_neg (by simpa using h.nonempty), if_neg (by simp [hclean])]
  cases quote with
  | none =>
      have hbare := isBareIdentifier_iff.mpr (h.bare rfl)
      simp [hbare, writtenSegment]
  | some quote => rfl

theorem quoteIdentifier_of_not_isSegment {segment : String} (h : ¬ IsSegment quote segment) :
    ∃ e, quoteIdentifier segment quote = .error e := by
  unfold quoteIdentifier
  split
  · exact ⟨_, rfl⟩
  · rename_i hempty
    split
    · exact ⟨_, rfl⟩
    · rename_i hreserved
      have hne : segment ≠ "" := by simpa using hempty
      have hclean : ∀ c ∈ segment.toList, isReserved c = false := by
        simpa [hasReserved] using hreserved
      cases quote with
      | none =>
          have hbare : ¬ isBareIdentifier segment.toList = true := fun hbare =>
            h ⟨hne, hclean, fun _ => isBareIdentifier_iff.mp hbare⟩
          exact ⟨_, by simp [hbare]; rfl⟩
      | some quote => exact absurd ⟨hne, hclean, nofun⟩ h

theorem quoteAll_of_forall {segments : List String} (h : ∀ s ∈ segments, IsSegment quote s) :
    quoteAll quote segments =
      .ok (segments.map fun s => String.ofList (writtenSegment quote s)) := by
  induction segments with
  | nil => rfl
  | cons s segments ih =>
      obtain ⟨hs, hrest⟩ := List.forall_mem_cons.mp h
      rw [quoteAll, quoteIdentifier_of_isSegment hs, ih hrest]
      rfl

theorem quoteAll_of_exists {segments : List String} (h : ∃ s ∈ segments, ¬ IsSegment quote s) :
    ∃ e, quoteAll quote segments = .error e := by
  induction segments with
  | nil => simp at h
  | cons s segments ih =>
      rw [quoteAll]
      by_cases hs : IsSegment quote s
      · obtain ⟨e, he⟩ := ih (by simpa [hs] using h)
        rw [quoteIdentifier_of_isSegment hs, he]
        exact ⟨e, rfl⟩
      · obtain ⟨e, he⟩ := quoteIdentifier_of_not_isSegment hs
        rw [he]
        exact ⟨e, rfl⟩

variable {scope : FilterScope} {v : Value} {segments : List String}

/-- The filter writes segments that it takes with points between them. -/
theorem identifier_of_forall (hv : v.Spells segments) (hne : segments ≠ [])
    (h : ∀ s ∈ segments, IsSegment scope.identifierQuote s) (hint : Option String)
    (args : List Value) :
    identifier scope (.parameter v hint) args =
      .ok (.raw (String.ofList
        (['.'].intercalate (segments.map (writtenSegment scope.identifierQuote))))) := by
  have htext : String.intercalate "."
      (segments.map fun s => String.ofList (writtenSegment scope.identifierQuote s)) =
      String.ofList (['.'].intercalate (segments.map (writtenSegment scope.identifierQuote))) := by
    rw [← String.toList_inj, String.toList_intercalate, String.toList_ofList, List.map_map]
    simp [Function.comp_def]
  rw [identifier, identifierSegments_of_spells hv]
  cases segments with
  | nil => contradiction
  | cons s segments =>
      simp only [quoteAll_of_forall h]
      rw [htext]

/-- The filter fails on what has no segments, or one that it does not take. -/
theorem identifier_of_exists (hv : v.Spells segments)
    (h : segments = [] ∨ ∃ s ∈ segments, ¬ IsSegment scope.identifierQuote s) (hint : Option String)
    (args : List Value) : ∃ e, identifier scope (.parameter v hint) args = .error e := by
  rw [identifier, identifierSegments_of_spells hv]
  cases segments with
  | nil => exact ⟨_, rfl⟩
  | cons s segments =>
      obtain ⟨e, he⟩ := quoteAll_of_exists (h.resolve_left (List.cons_ne_nil _ _))
      exact ⟨e, by simp only [he]⟩

/-- What is not a segment that the filter takes. -/
theorem not_isSegment_iff {quote : Option Char} {segment : String} :
    ¬ IsSegment quote segment ↔
      segment = "" ∨ (∃ c ∈ segment.toList, isReserved c = true) ∨
        quote = none ∧ ¬ IsBareName segment.toList := by
  constructor
  · intro h
    by_contra hnot
    obtain ⟨hne, hclean, hbare⟩ : segment ≠ "" ∧ (∀ c ∈ segment.toList, ¬ isReserved c = true) ∧
        (quote = none → IsBareName segment.toList) := by
      simpa [not_or, not_and, not_exists] using hnot
    exact h ⟨hne, fun c hc => by simpa using hclean c hc, hbare⟩
  · rintro (rfl | ⟨c, hc, hreserved⟩ | ⟨rfl, hbare⟩) h
    · exact h.nonempty rfl
    · rw [h.clean c hc] at hreserved
      cases hreserved
    · exact hbare (h.bare rfl)

theorem identifier_error_iff (hv : v.Spells segments) (hint : Option String) (args : List Value) :
    (∃ e, identifier scope (.parameter v hint) args = .error e) ↔
      segments = [] ∨ ∃ s ∈ segments, ¬ IsSegment scope.identifierQuote s := by
  refine ⟨fun ⟨e, he⟩ => ?_, fun h => identifier_of_exists hv h hint args⟩
  by_contra hnot
  rw [not_or, not_exists] at hnot
  rw [identifier_of_forall hv hnot.1 fun s hs => by_contra fun h => hnot.2 s ⟨hs, h⟩] at he
  cases he

/-- Quoted identifiers are read back. Whatever follows that is no quote and no point, a reader of
quoted names finds the segments and stops behind them; without a quote character the segments are
what stands between the points. The filter fails exactly on what has no segments or one that is
empty, has a reserved character or, without a quote character, is not a bare name. -/
theorem identifier_readsBack (scope : FilterScope) {v : Value} {segments : List String}
    (hv : v.Spells segments) (hint : Option String) (args : List Value) :
    (∀ output, identifier scope (.parameter v hint) args = .ok output →
      ∃ text, output = .raw text ∧
        (∀ quote, scope.identifierQuote = some quote → quote ≠ '.' →
          ∀ suffix : List Char, suffix.head? ≠ some quote → suffix.head? ≠ some '.' →
            readNames quote (text.toList ++ suffix) =
              some (segments.map String.toList, suffix)) ∧
        (scope.identifierQuote = none →
          text.toList.splitOn '.' = segments.map String.toList ∧
            ∀ segment ∈ segments, IsBareName segment.toList)) ∧
    ((∃ e, identifier scope (.parameter v hint) args = .error e) ↔
      segments = [] ∨ ∃ segment ∈ segments,
        segment = "" ∨ (∃ c ∈ segment.toList, isReserved c = true) ∨
          scope.identifierQuote = none ∧ ¬ IsBareName segment.toList) := by
  have hfails : (∃ e, identifier scope (.parameter v hint) args = .error e) ↔ _ :=
    identifier_error_iff hv hint args
  refine ⟨fun output houtput => ?_, by simpa only [not_isSegment_iff] using hfails⟩
  -- There is an output, so the segments give no reason to fail.
  obtain ⟨hne, htaken⟩ : segments ≠ [] ∧ ∀ s ∈ segments, IsSegment scope.identifierQuote s := by
    have hok : ¬ ∃ e, identifier scope (.parameter v hint) args = .error e := by simp [houtput]
    rw [hfails, not_or, not_exists] at hok
    exact ⟨hok.1, fun s hs => by_contra fun h => hok.2 s ⟨hs, h⟩⟩
  have hnames : segments.map String.toList ≠ [] := by simpa using hne
  rw [identifier_of_forall hv hne htaken] at houtput
  cases houtput
  refine ⟨_, rfl, fun quote hquote hpoint suffix hsuffix hsuffixPoint => ?_, fun hquote => ?_⟩
  · have hwritten : segments.map (writtenSegment (some quote)) =
        (segments.map String.toList).map (quotedName quote) := by
      rw [List.map_map]
      rfl
    rw [String.toList_ofList, hquote, hwritten]
    exact readNames_intercalate hpoint hnames hsuffix hsuffixPoint
  · have hbare : ∀ s ∈ segments, IsBareName s.toList := fun s hs => (htaken s hs).bare hquote
    have hwritten : segments.map (writtenSegment none) = segments.map String.toList := rfl
    refine ⟨?_, hbare⟩
    rw [String.toList_ofList, hquote, hwritten]
    exact List.splitOn_intercalate '.'
      (List.forall_mem_map.mpr fun s hs => (hbare s hs).not_mem_point) hnames

/-- A name with a quote in it and one that is a point, in front of a comparison. -/
theorem identifier_readsBack_quotes :
    readNames '"' ("\"a\"\"b\".\".\"".toList ++ " = 1".toList) =
      some (["a\"b", "."].map String.toList, " = 1".toList) := by
  have hv : (Value.list [.str "a\"b", .str "."]).Spells ["a\"b", "."] := .sequence rfl rfl rfl
  obtain ⟨text, htext, hread, -⟩ :=
    (identifier_readsBack ⟨some '"', .named, .sequential⟩ hv none []).1
      (.raw "\"a\"\"b\".\".\"") rfl
  cases htext
  exact hread '"' rfl (by decide) " = 1".toList (by decide) (by decide)

end Builtin

end QueryTemplate
