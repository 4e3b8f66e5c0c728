import QueryTemplate.Instrument
import QueryTemplate.Proofs.MarkedText

/-!
Templates without control flow: text, and tags with a variable that is written as it is, through
the `identifier` filter or through the `inclause` filter. Instrumenting such a source puts the emit
filter behind the expression of each tag and changes nothing else.
-/

namespace QueryTemplate

namespace Text

/-- A name of the expression language, with ASCII characters only. -/
def isIdentifier : List Char → Bool
  | [] => false
  | c :: rest => isNameStart c && rest.all isNamePart

/-- A text that is empty or begins with a character that is not of the class. -/
def BeginsOutside (p : Char → Bool) (text : List Char) : Prop :=
  ∀ c ∈ text.head?, p c = false

theorem beginsOutside_cons {p : Char → Bool} {c : Char} (h : p c = false) (text : List Char) :
    BeginsOutside p (c :: text) := by
  intro d hd
  rwa [← Option.some.inj hd]

variable {name : List Char}

theorem isNamePart_of_mem (h : isIdentifier name = true) {c : Char} (hc : c ∈ name) :
    isNamePart c = true := by
  cases name with
  | nil => contradiction
  | cons d rest =>
      rw [isIdentifier, Bool.and_eq_true, List.all_eq_true] at h
      rcases List.mem_cons.mp hc with rfl | hc
      · rw [isNamePart, h.1, Bool.true_or]
      · exact h.2 c hc

theorem takeName_append (h : isIdentifier name = true) {rest : List Char}
    (hrest : BeginsOutside isNamePart rest) : takeName (name ++ rest) = (name, rest) := by
  cases name with
  | nil => contradiction
  | cons d more =>
      rw [isIdentifier, Bool.and_eq_true, List.all_eq_true] at h
      have htake : (more ++ rest).takeWhile isNamePart = more ∧
          (more ++ rest).dropWhile isNamePart = rest := by
        rw [List.takeWhile_append_of_pos h.2, List.dropWhile_append_of_pos h.2]
        cases rest with
        | nil => simp
        | cons c rest =>
            have hc := hrest c (by simp)
            simp [hc]
      rw [List.cons_append, takeName, if_pos h.1, htake.1, htake.2]

end Text

/-- How a tag writes its variable. -/
inductive TagKind where
  /-- As a parameter. -/
  | plain
  /-- As a quoted name. -/
  | identifier
  /-- As a list of parameters. -/
  | inclause
  deriving DecidableEq, Repr

namespace TagKind

/-- The filter of a tag. -/
def filter? : TagKind → Option String
  | plain => none
  | identifier => some "identifier"
  | inclause => some "inclause"

/-- What follows the variable in a tag. -/
def suffix (kind : TagKind) : List Char :=
  match kind.filter? with
  | none => []
  | some filter => " | ".toList ++ filter.toList

/-- The expression in a tag. -/
def expr (kind : TagKind) (name : String) : List Char :=
  name.toList ++ kind.suffix

end TagKind

/-- A piece of a template without control flow. -/
inductive Fragment where
  | text (run : String)
  | tag (kind : TagKind) (name : String)
  deriving DecidableEq, Repr

namespace Fragment

/-- What the piece looks like in the source. -/
def source : Fragment → List Char
  | text run => run.toList
  | tag kind name => '{' :: '{' :: ' ' :: kind.expr name ++ [' ', '}', '}']

/-- The piece in the instrumented source. -/
def instrumented : Fragment → List Char
  | text run => run.toList
  | tag kind name =>
    ['{', '{'] ++ " (".toList ++ kind.expr name ++ ") | ".toList ++ emitName.toList ++
      '(' :: scopeName.toList ++ ", ".toList ++ ('"' :: name.toList ++ ['"']) ++ ") ".toList ++
      ['}', '}']

/-- Text has no opening brace and no reserved character, and a tag the name of a variable. -/
def WellFormed : Fragment → Prop
  | text run => '{' ∉ run.toList ∧ Clean run.toList
  | tag _ name => Text.isIdentifier name.toList = true ∧ name ∉ expressionWords ∧
      isReservedName name = false

instance : (fragment : Fragment) → Decidable fragment.WellFormed
  | text run => inferInstanceAs (Decidable ('{' ∉ run.toList ∧ Clean run.toList))
  | tag _ name => inferInstanceAs (Decidable (Text.isIdentifier name.toList = true ∧
      name ∉ expressionWords ∧ isReservedName name = false))

end Fragment

namespace Instrument

open Fragment

/-- Characters inside a tag that do not matter for where it ends. -/
def isInert (c : Char) : Bool :=
  !(['\'', '"', '(', '[', '{', ')', ']', '}'].contains c)

theorem closeOf_append {inner : List Char} (h : ∀ c ∈ inner, isInert c = true) (rest : List Char) :
    closeOf '}' 0 none (inner ++ '}' :: '}' :: rest) = some (inner, rest) := by
  induction inner with
  | nil => simp [closeOf]
  | cons c inner ih =>
      have hc := h c List.mem_cons_self
      simp only [isInert, List.contains_cons, List.contains_nil, Bool.or_false, Bool.not_or,
        Bool.and_eq_true, Bool.not_eq_true', beq_eq_false_iff_ne] at hc
      rw [List.cons_append, closeOf.eq_def]
      simp [hc, ih fun d hd => h d (List.mem_cons_of_mem c hd)]

theorem instrumentFrom_text {run : List Char} (h : '{' ∉ run) (fuel line : Nat) (rest : List Char) :
    instrumentFrom (fuel + run.length) line (run ++ rest) =
      (instrumentFrom fuel (line + Text.newlines run) rest).map (run ++ ·) := by
  induction run generalizing line with
  | nil =>
      simp only [List.length_nil, Nat.add_zero, List.nil_append, Text.newlines, List.count_nil]
      cases instrumentFrom fuel line rest <;> rfl
  | cons c run ih =>
      obtain ⟨hc, hrun⟩ : c ≠ '{' ∧ '{' ∉ run := by
        rw [List.mem_cons, not_or] at h
        exact ⟨fun heq => h.1 heq.symm, h.2⟩
      have hline : line + Text.newlines [c] + Text.newlines run = line + Text.newlines (c :: run) := by
        rw [Nat.add_assoc, Text.newlines, Text.newlines, Text.newlines, ← List.count_append]
        rfl
      rw [List.length_cons, ← Nat.add_assoc, List.cons_append, instrumentFrom]
      · simp only [ih hrun, hline]
        cases instrumentFrom fuel (line + Text.newlines (c :: run)) rest <;> rfl
      all_goals simp [hc]

theorem instrumentFrom_tag {inner tag : List Char} (hinner : ∀ c ∈ inner, isInert c = true)
    (htag : expressionTag inner = some tag) (fuel line : Nat) (rest : List Char) :
    instrumentFrom (fuel + 1) line ('{' :: '{' :: inner ++ '}' :: '}' :: rest) =
      (instrumentFrom fuel (line + Text.newlines inner) rest).map (tag ++ ·) := by
  rw [List.cons_append, List.cons_append, instrumentFrom, closeOf_append hinner]
  simp only [htag]
  cases instrumentFrom fuel (line + Text.newlines inner) rest <;> rfl

end Instrument

namespace Text

theorem toNat_of_isNameStart {c : Char} (h : isNameStart c = true) :
    (97 ≤ c.toNat ∧ c.toNat ≤ 122) ∨ (65 ≤ c.toNat ∧ c.toNat ≤ 90) ∨ c.toNat = 95 := by
  simp only [isNameStart, isAsciiLetter, Bool.or_eq_true, Bool.and_eq_true, decide_eq_true_eq,
    beq_iff_eq, Char.le_def, UInt32.le_iff_toNat_le] at h
  rcases h with h | h
  · exact h.elim .inl (.inr ∘ .inl)
  · exact .inr (.inr (congrArg Char.toNat h))

theorem toNat_of_isAsciiDigit {c : Char} (h : isAsciiDigit c = true) :
    48 ≤ c.toNat ∧ c.toNat ≤ 57 := by
  simp only [isAsciiDigit, Bool.and_eq_true, decide_eq_true_eq, Char.le_def,
    UInt32.le_iff_toNat_le] at h
  exact h

theorem toNat_of_isNamePart {c : Char} (h : isNamePart c = true) :
    (97 ≤ c.toNat ∧ c.toNat ≤ 122) ∨ (65 ≤ c.toNat ∧ c.toNat ≤ 90) ∨ c.toNat = 95 ∨
      (48 ≤ c.toNat ∧ c.toNat ≤ 57) := by
  rw [isNamePart, Bool.or_eq_true] at h
  rcases h with h | h
  · have hcode := toNat_of_isNameStart h
    omega
  · have hcode := toNat_of_isAsciiDigit h
    omega

theorem isSpace_of_isNamePart {c : Char} (h : isNamePart c = true) : isSpace c = false := by
  have hcode := toNat_of_isNamePart h
  simp only [isSpace, Bool.or_eq_false_iff, Bool.and_eq_false_iff, decide_eq_false_iff_not,
    beq_eq_false_iff_ne]
  omega

theorem isReserved_of_isNamePart {c : Char} (h : isNamePart c = true) : isReserved c = false := by
  have hcode := toNat_of_isNamePart h
  rw [isReserved, Bool.or_eq_false_iff, beq_eq_false_iff_ne, beq_eq_false_iff_ne]
  exact ⟨fun heq => by subst heq; revert hcode; decide, fun heq => by subst heq; revert hcode; decide⟩

/-- White space around a text with none at its ends is trimmed off. -/
theorem trim_append {text : List Char} (hhead : BeginsOutside isSpace text)
    (hlast : ∀ c ∈ text.getLast?, isSpace c = false) (hne : text ≠ []) {before after : List Char}
    (hbefore : ∀ c ∈ before, isSpace c = true) (hafter : ∀ c ∈ after, isSpace c = true) :
    trim (before ++ text ++ after) = text := by
  have hstart : trimStart (before ++ text ++ after) = text ++ after := by
    rw [trimStart, List.append_assoc, List.dropWhile_append_of_pos hbefore]
    cases text with
    | nil => exact absurd rfl hne
    | cons c text => simp [hhead c (by simp)]
  have hend : text.reverse.dropWhile isSpace = text.reverse := by
    cases hrev : text.reverse with
    | nil => rfl
    | cons c rest =>
        have hc := hlast c (by simp [List.getLast?_eq_head?_reverse, hrev])
        simp [hc]
  rw [trim, hstart, trimEnd, List.reverse_append,
    List.dropWhile_append_of_pos fun c hc => hafter c (List.mem_reverse.mp hc), hend,
    List.reverse_reverse]

end Text

namespace TagKind

theorem suffix_ends (kind : TagKind) : ∀ c ∈ kind.suffix.getLast?, Text.isSpace c = false := by
  intro c hc
  cases kind with
  | plain => contradiction
  | identifier => rw [← Option.some.inj (show some 'r' = some c from hc)]; rfl
  | inclause => rw [← Option.some.inj (show some 'e' = some c from hc)]; rfl

theorem head_suffix (kind : TagKind) : ∀ c ∈ kind.suffix.head?, c = ' ' := by
  intro c hc
  cases kind with
  | plain => contradiction
  | identifier => exact (Option.some.inj hc).symm
  | inclause => exact (Option.some.inj hc).symm

variable {name : String}

theorem expr_ne_nil (kind : TagKind) (h : Text.isIdentifier name.toList = true) :
    kind.expr name ≠ [] := by
  cases hname : name.toList with
  | nil =>
      rw [hname] at h
      contradiction
  | cons c rest => simp [expr, hname]

theorem head_expr (kind : TagKind) (h : Text.isIdentifier name.toList = true) :
    Text.BeginsOutside Text.isSpace (kind.expr name) := by
  intro c hc
  cases hname : name.toList with
  | nil =>
      rw [hname] at h
      contradiction
  | cons d rest =>
      rw [expr, hname] at hc
      obtain rfl : d = c := by simpa using hc
      exact Text.isSpace_of_isNamePart (Text.isNamePart_of_mem h (by simp [hname]))

theorem getLast_expr (kind : TagKind) (h : Text.isIdentifier name.toList = true) :
    ∀ c ∈ (kind.expr name).getLast?, Text.isSpace c = false := by
  intro c hc
  rw [expr, List.getLast?_append] at hc
  cases hlast : kind.suffix.getLast? with
  | some d =>
      rw [hlast] at hc
      obtain rfl : d = c := by simpa using hc
      exact kind.suffix_ends d hlast
  | none =>
      rw [hlast] at hc
      exact Text.isSpace_of_isNamePart
        (Text.isNamePart_of_mem h (List.mem_of_getLast? (by simpa using hc)))

/-- The hint of a tag is the name of its variable. -/
theorem extractNameHint_expr (kind : TagKind) (h : Text.isIdentifier name.toList = true)
    (hword : name ∉ expressionWords) (hreserved : isReservedName name = false) :
    extractNameHint (kind.expr name) = some name.toList := by
  have htrim : Text.trim (kind.expr name) = kind.expr name := by
    simpa using Text.trim_append (kind.head_expr h) (kind.getLast_expr h) (kind.expr_ne_nil h)
      (fun c hc => absurd hc List.not_mem_nil) (fun c hc => absurd hc List.not_mem_nil)
  have htake : Text.takeName (kind.expr name) = (name.toList, kind.suffix) :=
    Text.takeName_append h fun c hc => by
      rw [kind.head_suffix c hc]
      decide
  have hne : name.toList ≠ [] := by
    intro hnil
    rw [hnil] at h
    contradiction
  have hchain : takeChain ((kind.expr name).length + 1) (kind.expr name) =
      some ([name.toList], kind.suffix) := by
    rw [takeChain, htake]
    cases hname : name.toList with
    | nil => contradiction
    | cons c rest => cases kind <;> simp [suffix, filter?]
  rw [extractNameHint]
  simp only [htrim, hchain, List.headD_cons, String.ofList_toList]
  rw [if_neg (by simp [hword, hreserved])]
  cases kind <;> simp [suffix, filter?, Text.trimStart, Text.isSpace, joinChain]

end TagKind

namespace Fragment

variable {kind : TagKind} {name : String}

theorem instrument_expr (h : (tag kind name).WellFormed) :
    Instrument.expressionTag (' ' :: kind.expr name ++ [' ']) = some (tag kind name).instrumented := by
  obtain ⟨hname, hword, hreserved⟩ := h
  have hspace : ∀ c ∈ [' '], Text.isSpace c = true := by simp [Text.isSpace]
  have htrim := Text.trim_append (kind.head_expr hname) (kind.getLast_expr hname)
    (kind.expr_ne_nil hname) hspace hspace
  have hopening : Instrument.takeControl (' ' :: kind.expr name ++ [' ']) =
      ([], ' ' :: kind.expr name ++ [' ']) := by
    simp [Instrument.takeControl, Instrument.isControl]
  have hclosing : Instrument.takeControl (' ' :: kind.expr name ++ [' ']).reverse =
      ([], (' ' :: kind.expr name ++ [' ']).reverse) := by
    simp [Instrument.takeControl, Instrument.isControl]
  rw [Instrument.expressionTag, hopening]
  simp only [hclosing, List.reverse_reverse]
  rw [show Text.trim (' ' :: kind.expr name ++ [' ']) = kind.expr name from htrim,
    if_neg (by simpa using kind.expr_ne_nil hname), Instrument.hintArgument,
    kind.extractNameHint_expr hname hword hreserved, instrumented]
  simp only [List.append_nil]

theorem isInert_of_isNamePart {c : Char} (h : Text.isNamePart c = true) :
    Instrument.isInert c = true := by
  have hcode := Text.toNat_of_isNamePart h
  simp only [Instrument.isInert, List.contains_cons, List.contains_nil, Bool.or_false, Bool.not_or,
    Bool.and_eq_true, Bool.not_eq_true', beq_eq_false_iff_ne]
  refine ⟨?_, ?_, ?_, ?_, ?_, ?_, ?_, ?_⟩ <;> (rintro rfl; revert hcode; decide)

theorem isInert_expr (h : Text.isIdentifier name.toList = true) :
    ∀ c ∈ ' ' :: kind.expr name ++ [' '], Instrument.isInert c = true := by
  have hsuffix : ∀ c ∈ kind.suffix, Instrument.isInert c = true := by
    rw [← List.all_eq_true]
    cases kind <;> rfl
  intro c hc
  simp only [TagKind.expr, List.cons_append, List.mem_cons, List.mem_append, List.not_mem_nil,
    or_false] at hc
  rcases hc with rfl | (hc | hc) | rfl
  · decide
  · exact isInert_of_isNamePart (Text.isNamePart_of_mem h hc)
  · exact hsuffix c hc
  · decide

theorem clean_source {fragment : Fragment} (h : fragment.WellFormed) : Clean fragment.source := by
  cases fragment with
  | text run => exact h.2
  | tag kind name =>
      have hsuffix : Clean kind.suffix := by cases kind <;> decide
      have hname : Clean name.toList := fun c hc =>
        Text.isReserved_of_isNamePart (Text.isNamePart_of_mem h.1 hc)
      have hopen : Clean ['{', '{', ' '] := by decide
      have hclose : Clean [' ', '}', '}'] := by decide
      rw [show (tag kind name).source = ['{', '{', ' '] ++ (name.toList ++ kind.suffix) ++
        [' ', '}', '}'] from rfl]
      exact (hopen.append (hname.append hsuffix)).append hclose

end Fragment

namespace Instrument

open Fragment

theorem instrumentFrom_source {fragments : List Fragment} (h : ∀ f ∈ fragments, f.WellFormed)
    {fuel : Nat} (hfuel : (fragments.flatMap source).length ≤ fuel) (line : Nat) :
    instrumentFrom fuel line (fragments.flatMap source) =
      .ok (fragments.flatMap instrumented) := by
  induction fragments generalizing fuel line with
  | nil => cases fuel <;> rfl
  | cons fragment rest ih =>
      have hrest (n : Nat) (hn : (rest.flatMap source).length ≤ n) (line : Nat) :=
        ih (fun f hf => h f (List.mem_cons_of_mem fragment hf)) hn line
      rw [List.flatMap_cons, List.length_append] at hfuel
      rw [List.flatMap_cons, List.flatMap_cons]
      cases fragment with
      | text run =>
          obtain ⟨hbrace, -⟩ := h _ List.mem_cons_self
          obtain ⟨fuel, rfl⟩ := Nat.exists_eq_add_of_le'
            (Nat.le_trans (Nat.le_add_right run.toList.length _) hfuel)
          rw [source, instrumentFrom_text hbrace, hrest _ (by rw [source] at hfuel; omega)]
          rfl
      | tag kind name =>
          have htag := h _ List.mem_cons_self
          obtain ⟨fuel, rfl⟩ : ∃ n, fuel = n + 1 := by
            refine Nat.exists_eq_add_of_le' (Nat.le_trans ?_ hfuel)
            simp only [source, List.length_cons, List.length_append]
            omega
          have hsource : (tag kind name).source ++ rest.flatMap source =
              '{' :: '{' :: (' ' :: kind.expr name ++ [' ']) ++ '}' :: '}' :: rest.flatMap source := by
            simp [source]
          rw [hsource, instrumentFrom_tag (isInert_expr htag.1) (instrument_expr htag), hrest _]
          · rfl
          · simp only [source, List.length_cons, List.length_append] at hfuel
            omega

/-- The emit filter is put behind the expression of each tag. -/
theorem instrument_source {fragments : List Fragment} (h : ∀ f ∈ fragments, f.WellFormed) :
    instrument (fragments.flatMap source) = .ok (fragments.flatMap instrumented) := by
  have hclean : (fragments.flatMap source).any isReserved = false := by
    rw [List.any_eq_false]
    intro c hc
    obtain ⟨f, hf, hc⟩ := List.mem_flatMap.mp hc
    rw [clean_source (h f hf) c hc]
    exact Bool.false_ne_true
  rw [instrument, hclean, if_neg Bool.false_ne_true]
  exact instrumentFrom_source h (Nat.le_refl _) 1

end Instrument

end QueryTemplate
