import QueryTemplate.Proofs.ExpressionTags
import QueryTemplate.Proofs.Lexing
import QueryTemplate.Template.Parser

/-!
The grammar of name hints. A hint is a chain of names with single dots between them; it is read from
an expression that consists of the chain and perhaps of filters. A chain has no characters but
letters, digits, underscores and dots, so it is the same in a string literal.
-/

namespace QueryTemplate

/-- The text consists of the hint, a chain of names whose first one is a variable's, of white space
and of the filters of the expression, if there are any. -/
inductive NamesVariable : (text hint : List Char) → Prop where
  | mk {head : List Char} {names : List (List Char)} {gap tail : List Char}
      (hnames : ∀ name ∈ head :: names, Text.isIdentifier name = true)
      (hword : String.ofList head ∉ expressionWords)
      (hreserved : isReservedName (String.ofList head) = false)
      (hgap : ∀ c ∈ gap, Text.isSpace c = true) (htail : tail = [] ∨ tail.head? = some '|') :
      NamesVariable (['.'].intercalate (head :: names) ++ (gap ++ tail))
        (['.'].intercalate (head :: names))

namespace Text

variable {name text rest : List Char}

/-- A name at the front of a text, if there is one, and the rest. -/
theorem takeName_eq (text : List Char) :
    (takeName text).1 ++ (takeName text).2 = text ∧
      ∀ x ∈ (takeName text).1, isNamePart x = true := by
  cases text with
  | nil => simp [takeName]
  | cons c text =>
      rw [takeName]
      split
      · rename_i hstart
        refine ⟨by simp, fun x hx => ?_⟩
        rcases List.mem_cons.mp hx with rfl | hx
        · rw [isNamePart, hstart, Bool.true_or]
        · exact List.all_eq_true.mp (List.all_takeWhile ..) x hx
      · simp

/-- A name is read to its end. -/
theorem isIdentifier_of_takeName (hne : name ≠ []) (h : takeName text = (name, rest)) :
    text = name ++ rest ∧ isIdentifier name = true := by
  cases text with
  | nil =>
      cases h
      exact absurd rfl hne
  | cons c text =>
      rw [takeName] at h
      split at h
      · rename_i hstart
        cases h
        refine ⟨by simp, ?_⟩
        rw [isIdentifier, hstart, Bool.true_and]
        exact List.all_takeWhile
      · cases h
        exact absurd rfl hne

end Text

theorem joinChain_eq (chain : List (List Char)) : joinChain chain = ['.'].intercalate chain := by
  induction chain with
  | nil => rfl
  | cons name chain ih =>
      cases chain with
      | nil => simp [joinChain]
      | cons next chain => simp [joinChain, ih, List.intercalate_cons_cons]

variable {fuel : Nat} {chain : List (List Char)} {text rest : List Char}

/-- What is read as a chain is one, and it is what the text begins with. -/
theorem takeChain_eq_some (h : takeChain fuel text = some (chain, rest)) :
    chain ≠ [] ∧ (∀ name ∈ chain, Text.isIdentifier name = true) ∧
      text = ['.'].intercalate chain ++ rest := by
  induction fuel generalizing text chain with
  | zero => cases h
  | succ fuel ih =>
      rw [takeChain] at h
      split at h
      · cases h
      · rename_i name more hne htake
        obtain ⟨rfl, hname⟩ := Text.isIdentifier_of_takeName (by simpa using hne) htake
        obtain ⟨⟨names, after⟩, hmore, heq⟩ := Option.map_eq_some_iff.mp h
        cases heq
        obtain ⟨hnames, hall, rfl⟩ := ih hmore
        obtain ⟨next, names, rfl⟩ := List.exists_cons_of_ne_nil hnames
        refine ⟨List.cons_ne_nil _ _, List.forall_mem_cons.mpr ⟨hname, hall⟩, ?_⟩
        simp [List.intercalate_cons_cons]
      · rename_i name more hne hdot htake
        obtain ⟨rfl, hname⟩ := Text.isIdentifier_of_takeName (by simpa using hne) htake
        cases h
        exact ⟨List.cons_ne_nil _ _, by simpa using hname, by simp⟩

/-- Reading a chain goes on behind a dot. -/
theorem takeChain_succ (fuel : Nat) (text : List Char) :
    takeChain (fuel + 1) text =
      if (Text.takeName text).1 = [] then none
      else if (Text.takeName text).2.head? = some '.' then
        (takeChain fuel (Text.takeName text).2.tail).map
          fun (chain, rest) => ((Text.takeName text).1 :: chain, rest)
      else some ([(Text.takeName text).1], (Text.takeName text).2) := by
  rw [takeChain]
  generalize Text.takeName text = found
  obtain ⟨name, more⟩ := found
  cases name with
  | nil => rfl
  | cons c name =>
      cases more with
      | nil => rfl
      | cons d more =>
          by_cases hd : d = '.'
          · subst hd
            rfl
          · simp [hd]

/-- Reading a chain that begins with a name. -/
theorem takeChain_name {name : List Char} (hname : Text.isIdentifier name = true)
    (hrest : Text.BeginsOutside Text.isNamePart rest) :
    takeChain (fuel + 1) (name ++ rest) =
      if rest.head? = some '.' then
        (takeChain fuel rest.tail).map fun (chain, rest) => (name :: chain, rest)
      else some ([name], rest) := by
  have hne : name ≠ [] := by
    rintro rfl
    cases hname
  rw [takeChain_succ, Text.takeName_append hname hrest, if_neg hne]

/-- A chain is read to its end, if what follows neither goes on with its last name nor with a dot. -/
theorem takeChain_intercalate (hchain : chain ≠ [])
    (hnames : ∀ name ∈ chain, Text.isIdentifier name = true)
    (hrest : Text.BeginsOutside Text.isNamePart rest) (hdot : rest.head? ≠ some '.')
    (hfuel : chain.length ≤ fuel) :
    takeChain fuel (['.'].intercalate chain ++ rest) = some (chain, rest) := by
  induction chain generalizing fuel with
  | nil => exact absurd rfl hchain
  | cons name chain ih =>
      rw [List.forall_mem_cons] at hnames
      obtain ⟨fuel, rfl⟩ := Nat.exists_eq_add_of_le' (Nat.le_trans (Nat.le_add_left 1 _) hfuel)
      cases chain with
      | nil => rw [List.intercalate_singleton, takeChain_name hnames.1 hrest, if_neg hdot]
      | cons next chain =>
          have hdotted : Text.BeginsOutside Text.isNamePart
              ('.' :: (['.'].intercalate (next :: chain) ++ rest)) :=
            Text.beginsOutside_cons (by decide) _
          rw [List.intercalate_cons_cons, List.append_assoc, List.append_assoc,
            List.singleton_append, takeChain_name hnames.1 hdotted, List.head?_cons, if_pos rfl,
            List.tail_cons, ih (List.cons_ne_nil _ _) hnames.2 (Nat.le_of_succ_le_succ hfuel)]
          rfl

/-- What may follow a chain in the grammar. -/
theorem beginsOutside_gap {gap tail : List Char} (hgap : ∀ c ∈ gap, Text.isSpace c = true)
    (htail : tail = [] ∨ tail.head? = some '|') :
    Text.BeginsOutside Text.isNamePart (gap ++ tail) ∧ (gap ++ tail).head? ≠ some '.' ∧
      Text.trimStart (gap ++ tail) = tail := by
  have hstop : Text.trimStart tail = tail := by
    cases tail with
    | nil => rfl
    | cons c tail =>
        obtain rfl : c = '|' := by simpa using htail
        rfl
  have htrim : Text.trimStart (gap ++ tail) = tail := by
    rw [Text.trimStart, List.dropWhile_append_of_pos hgap]
    exact hstop
  cases gap with
  | nil =>
      cases tail with
      | nil => exact ⟨fun c hc => by simp at hc, by simp, htrim⟩
      | cons c tail =>
          obtain rfl : c = '|' := by simpa using htail
          exact ⟨Text.beginsOutside_cons (by decide) _, by simp, htrim⟩
  | cons c gap =>
      have hc := hgap c List.mem_cons_self
      refine ⟨Text.beginsOutside_cons ?_ _, ?_, htrim⟩
      · cases hpart : Text.isNamePart c with
        | false => rfl
        | true =>
            rw [Text.isSpace_of_isNamePart hpart] at hc
            cases hc
      · simp only [List.cons_append, List.head?_cons, ne_eq, Option.some.injEq]
        rintro rfl
        cases hc

theorem length_le_length_intercalate (hnames : ∀ name ∈ chain, Text.isIdentifier name = true) :
    chain.length ≤ (['.'].intercalate chain).length := by
  induction chain with
  | nil => exact Nat.zero_le _
  | cons name chain ih =>
      rw [List.forall_mem_cons] at hnames
      have hname : 0 < name.length := List.length_pos_iff.mpr (by
        rintro rfl
        exact absurd hnames.1 (by decide))
      have ih := ih hnames.2
      cases chain with
      | nil =>
          rw [List.intercalate_singleton, List.length_singleton]
          omega
      | cons next chain =>
          rw [List.intercalate_cons_cons, List.length_cons, List.length_append, List.length_append,
            List.length_singleton]
          omega

/-- The hint of an expression, given the chain that it begins with. -/
theorem extractNameHint_of_takeChain {expr : List Char}
    (h : takeChain ((Text.trim expr).length + 1) (Text.trim expr) = some (chain, rest)) :
    extractNameHint expr =
      if expressionWords.contains (String.ofList (chain.headD [])) ||
          isReservedName (String.ofList (chain.headD [])) then none
      else if Text.trimStart rest = [] ∨ (Text.trimStart rest).head? = some '|' then
        some (joinChain chain)
      else none := by
  rw [extractNameHint]
  simp only [h]
  split
  · rfl
  · cases Text.trimStart rest with
    | nil => rfl
    | cons c tail =>
        by_cases hc : c = '|'
        · subst hc
          rfl
        · simp [hc]

/-- A hint is read from the texts of the grammar, and from no others. -/
theorem extractNameHint_eq_some_iff {expr hint : List Char} :
    extractNameHint expr = some hint ↔ NamesVariable (Text.trim expr) hint := by
  constructor
  · intro h
    cases hchain : takeChain ((Text.trim expr).length + 1) (Text.trim expr) with
    | none =>
        rw [extractNameHint, hchain] at h
        cases h
    | some found =>
        obtain ⟨chain, rest⟩ := found
        rw [extractNameHint_of_takeChain hchain] at h
        split at h
        · cases h
        rename_i hhead
        split at h
        · rename_i htail
          cases h
          obtain ⟨hne, hnames, htext⟩ := takeChain_eq_some hchain
          obtain ⟨head, names, rfl⟩ := List.exists_cons_of_ne_nil hne
          obtain ⟨gap, hrest, hgap⟩ := Text.exists_append_trimStart rest
          rw [List.headD_cons, Bool.or_eq_true, not_or, Bool.not_eq_true, Bool.not_eq_true] at hhead
          rw [htext, joinChain_eq, hrest]
          exact .mk hnames (by simpa using hhead.1) hhead.2 hgap htail
        · cases h
  · intro h
    generalize htext : Text.trim expr = text at h
    cases h with
    | @mk head names gap tail hnames hword hreserved hgap htail =>
        obtain ⟨hpart, hdot, htrim⟩ := beginsOutside_gap hgap htail
        have hlength := length_le_length_intercalate hnames
        have hfuel : (head :: names).length ≤
            (['.'].intercalate (head :: names) ++ (gap ++ tail)).length + 1 := by
          rw [List.length_append]
          omega
        have hchain := takeChain_intercalate (List.cons_ne_nil _ _) hnames hpart hdot hfuel
        rw [← htext] at hchain
        rw [extractNameHint_of_takeChain hchain, List.headD_cons, if_neg (by simp [hword, hreserved]),
          htrim, if_pos htail, joinChain_eq]

theorem isPart_of_mem_intercalate (hnames : ∀ name ∈ chain, Text.isIdentifier name = true) :
    ∀ c ∈ ['.'].intercalate chain, Text.isNamePart c = true ∨ c = '.' := by
  induction chain with
  | nil => exact fun c hc => absurd hc List.not_mem_nil
  | cons name chain ih =>
      rw [List.forall_mem_cons] at hnames
      have hname (c : Char) (hc : c ∈ name) : Text.isNamePart c = true ∨ c = '.' :=
        .inl (Text.isNamePart_of_mem hnames.1 hc)
      cases chain with
      | nil =>
          rw [List.intercalate_singleton]
          exact hname
      | cons next chain =>
          rw [List.intercalate_cons_cons]
          intro c hc
          rcases List.mem_append.mp hc with hc | hc
          · rcases List.mem_append.mp hc with hc | hc
            · exact hname c hc
            · exact .inr (List.mem_singleton.mp hc)
          · exact ih hnames.2 c hc

/-- The characters of a name hint. -/
theorem isPart_of_extractNameHint {expr hint : List Char} (h : extractNameHint expr = some hint) :
    ∀ c ∈ hint, Text.isNamePart c = true ∨ c = '.' := by
  have h := extractNameHint_eq_some_iff.mp h
  generalize Text.trim expr = text at h
  cases h with
  | mk hnames => exact isPart_of_mem_intercalate hnames

/-- A name hint has no quote character and no backslash. -/
theorem not_mem_of_extractNameHint {expr hint : List Char} (h : extractNameHint expr = some hint) :
    '"' ∉ hint ∧ '\\' ∉ hint := by
  refine ⟨fun hmem => ?_, fun hmem => ?_⟩
  · rcases isPart_of_extractNameHint h _ hmem with h | h <;> exact absurd h (by decide)
  · rcases isPart_of_extractNameHint h _ hmem with h | h <;> exact absurd h (by decide)

open Instrument Template

/-- A hint is extracted from the texts of the grammar and from no others, and is their chain of
names. Every hint that instrumenting writes into a source has no characters but those of names and
dots, and where it is written the engine reads a string, whose value is the hint. -/
theorem nameHint_of_grammar :
    (∀ expr hint, extractNameHint expr = some hint ↔ NamesVariable (Text.trim expr) hint) ∧
      ∀ source out, instrument source = .ok out →
        ∃ parts, partsFrom source.length 1 source = .ok parts ∧ out = parts.flatMap Part.written ∧
          ∀ inner, Part.expression inner ∈ parts →
            (Part.expression inner).written =
                emissionTag (openingOf inner) (expressionOf inner) (closingOf inner) ∧
              ∀ hint, extractNameHint (expressionOf inner) = some hint →
                (∀ c ∈ hint, Text.isNamePart c = true ∨ c = '.') ∧
                  (∀ before rest line,
                    Lexer.tagToken ⟨before, hintArgument (expressionOf inner) ++ rest, line⟩ =
                      .ok (.string (String.ofList hint), rest)) ∧
                  Parser.literal? (.string (String.ofList hint)) =
                    some (.str (String.ofList hint)) := by
  refine ⟨fun expr hint => extractNameHint_eq_some_iff, fun source out h => ?_⟩
  obtain ⟨-, parts, hparts, hout⟩ := exists_parts_of_ok h
  refine ⟨parts, hparts, hout, fun inner hinner => ?_⟩
  have hstands := stands_of_mem (Nat.le_refl _) hparts _ hinner
  refine ⟨hstands.written_expression.2, fun hint hhint => ?_⟩
  refine ⟨isPart_of_extractNameHint hhint, fun before rest line => ?_, rfl⟩
  obtain ⟨hquote, hescape⟩ := not_mem_of_extractNameHint hhint
  have hargument : hintArgument (expressionOf inner) ++ rest = '"' :: (hint ++ '"' :: rest) := by
    rw [hintArgument, hhint]
    simp
  rw [hargument]
  exact Lexer.tagToken_string hquote hescape before rest line

/-- In an instrumented source the hint of a filtered field is read as it was extracted. -/
theorem nameHint_of_order :
    let source := "id = \x7b\x7b- order.id | upper \x7d\x7d".toList
    let expr := "order.id | upper".toList
    (instrument source).toBool = true ∧
      partsFrom source.length 1 source =
        .ok ("id = ".toList.map .literal ++ [.expression "- order.id | upper ".toList]) ∧
      NamesVariable expr "order.id".toList ∧
      ∀ before rest line, Lexer.tagToken ⟨before, hintArgument expr ++ rest, line⟩ =
        .ok (.string "order.id", rest) := by
  intro source expr
  have hok : (instrument source).toBool = true := by decide +kernel
  have hparts : partsFrom source.length 1 source =
      .ok ("id = ".toList.map .literal ++ [.expression "- order.id | upper ".toList]) := by
    decide +kernel
  have hhint : extractNameHint expr = some "order.id".toList := by decide +kernel
  have hexpr : expressionOf "- order.id | upper ".toList = expr := by decide +kernel
  refine ⟨hok, hparts, (nameHint_of_grammar.1 expr _).mp hhint, ?_⟩
  cases h : instrument source with
  | error e =>
      rw [h] at hok
      cases hok
  | ok out =>
      obtain ⟨parts, hparts', -, hread⟩ := nameHint_of_grammar.2 source out h
      cases hparts.symm.trans hparts'
      have hread := (hread _ (List.mem_append_right _ List.mem_cons_self)).2
      rw [hexpr] at hread
      exact (hread _ hhint).2.1

end QueryTemplate
