import Mathlib.Data.List.Basic
import QueryTemplate.Proofs.TagScanning

/-!
A source as a sequence of parts: characters outside tags, comments, block tags, raw sections and
expression tags. Instrumenting a source writes its parts one after the other, so a source put
together from two is instrumented like the two of them, unless a tag begins where they meet.
-/

namespace QueryTemplate

namespace Instrument

variable {c : Char} {text rest : List Char}

/-- A part of a source. -/
inductive Part where
  /-- A character outside tags. -/
  | literal (c : Char)
  /-- A comment, given what is between its first and its last two characters. -/
  | comment (inner : List Char)
  | block (inner : List Char)
  /-- A raw section: what is between the delimiters of its first tag, and what follows up to and
  with its last tag. -/
  | raw (inner section_ : List Char)
  | expression (inner : List Char)
  deriving DecidableEq, Repr

namespace Part

/-- What a part looks like in the source. -/
def source : Part → List Char
  | literal c => [c]
  | comment inner => '{' :: inner ++ ['#', '}']
  | block inner => '{' :: '%' :: inner ++ ['%', '}']
  | raw inner section_ => '{' :: '%' :: inner ++ ['%', '}'] ++ section_
  | expression inner => '{' :: '{' :: inner ++ ['}', '}']

/-- The part in the instrumented source. -/
def written : Part → List Char
  | expression inner => (expressionTag inner).getD []
  | part => part.source

end Part

/-- The part that a text begins with, and what follows it. -/
def firstPart (line : Nat) : Char → List Char → Except MarkupError (Part × List Char)
  | '{', '#' :: body =>
    match Text.splitAtFirst ['#', '}'] ('#' :: body) with
    | none => .error (.unterminated "comment" line)
    | some (inner, after) => .ok (.comment inner, after)
  | '{', '%' :: body =>
    match closeOf '%' 0 none body with
    | none => .error (.unterminated "block tag" line)
    | some (inner, after) =>
      if tagName inner = "raw".toList then
        match endOfRaw after with
        | .missing => .error (.unterminated "raw section" line)
        | .overlapping => .error .overlappingTag
        | .found section_ after => .ok (.raw inner section_, after)
      else .ok (.block inner, after)
  | '{', '{' :: body =>
    match closeOf '}' 0 none body with
    | none => .error (.unterminated "expression" line)
    | some (inner, after) =>
      match expressionTag inner with
      | none => .error (.emptyExpression line)
      | some _ => .ok (.expression inner, after)
  | c, rest => .ok (.literal c, rest)

/-- The parts of a text that begins on the given line. -/
def partsFrom : Nat → (line : Nat) → List Char → Except MarkupError (List Part)
  | 0, _, text => .ok (text.map .literal)
  | _, _, [] => .ok []
  | fuel + 1, line, c :: rest => do
    let (part, after) ← firstPart line c rest
    let parts ← partsFrom fuel (line + Text.newlines part.source) after
    return part :: parts

theorem newlines_append (text more : List Char) :
    Text.newlines (text ++ more) = Text.newlines text + Text.newlines more :=
  List.count_append

theorem newlines_expression (inner : List Char) :
    Text.newlines (Part.expression inner).source = Text.newlines inner := by
  simp [Text.newlines, Part.source]

theorem match_eq_map (written : List Char) (result : Except MarkupError (List Char)) :
    (match result with
      | .ok out => .ok (written ++ out)
      | .error e => .error e) = result.map (written ++ ·) := by
  cases result <;> rfl

/-- One step of instrumenting a text handles the part that the text begins with. -/
theorem instrumentFrom_cons (fuel line : Nat) (c : Char) (rest : List Char) :
    instrumentFrom (fuel + 1) line (c :: rest) =
      (firstPart line c rest).bind fun (part, after) =>
        (instrumentFrom fuel (line + Text.newlines part.source) after).map (part.written ++ ·) := by
  fun_cases firstPart line c rest with
  | case1 body hsplit =>
      rw [instrumentFrom]
      simp only [hsplit, Except.bind]
  | case2 body inner after hsplit =>
      rw [instrumentFrom]
      simp only [hsplit, Except.bind, Part.written, Part.source]
      exact match_eq_map _ _
  | case3 body hclose =>
      rw [instrumentFrom]
      simp only [hclose, Except.bind]
  | case4 body inner after hclose hname hend | case5 body inner after hclose hname hend =>
      rw [instrumentFrom]
      simp only [hclose, hname, hend, if_true, Except.bind]
  | case6 body inner after hclose hname section_ after' hend =>
      rw [instrumentFrom]
      simp only [hclose, hname, hend, if_true, Except.bind, Part.written, Part.source]
      exact match_eq_map _ _
  | case7 body inner after hclose hname =>
      rw [instrumentFrom]
      simp only [hclose, hname, if_false, Except.bind, Part.written, Part.source]
      exact match_eq_map _ _
  | case8 body hclose =>
      rw [instrumentFrom]
      simp only [hclose, Except.bind]
  | case9 body inner after hclose htag =>
      rw [instrumentFrom]
      simp only [hclose, htag, Except.bind]
  | case10 body inner after hclose tag htag =>
      rw [instrumentFrom]
      simp only [hclose, htag, Except.bind, newlines_expression, Part.written, Option.getD_some]
      exact match_eq_map _ _
  | case11 c rest hcomment hblock hexpression =>
      rw [instrumentFrom]
      · exact match_eq_map _ _
      · exact hcomment
      · exact hblock
      · exact hexpression

/-- Instrumenting a text writes its parts one after the other. -/
theorem instrumentFrom_eq (fuel line : Nat) (text : List Char) :
    instrumentFrom fuel line text = (partsFrom fuel line text).map (·.flatMap Part.written) := by
  induction fuel generalizing line text with
  | zero =>
      simp [instrumentFrom, partsFrom, Except.map, List.flatMap_map, Part.written, Part.source]
  | succ fuel ih =>
      cases text with
      | nil => rfl
      | cons c rest =>
          rw [instrumentFrom_cons, partsFrom]
          cases firstPart line c rest with
          | error e => rfl
          | ok found =>
              obtain ⟨part, after⟩ := found
              simp only [Except.bind, bind, ih]
              cases partsFrom fuel (line + Text.newlines part.source) after <;> rfl

/-- Put together, the texts have a tag that begins in the first one and goes on in the second. -/
def Joins (a b : List Char) : Prop :=
  a.getLast? = some '{' ∧ ∃ c ∈ ['{', '%', '#'], b.head? = some c

instance (a b : List Char) : Decidable (Joins a b) :=
  inferInstanceAs (Decidable (_ ∧ _))

theorem not_joins_of_eq_append {a : List Char} (run b : List Char) (h : a = run ++ ['}']) :
    ¬Joins a b := by
  rintro ⟨hlast, -⟩
  rw [h, List.getLast?_concat] at hlast
  exact absurd hlast (by decide)

/-- The part is what is read off its own source, whatever follows that does not join it. -/
def Part.Stands (part : Part) : Prop :=
  ∃ c tail, part.source = c :: tail ∧
    ∀ line more, ¬Joins part.source more → firstPart line c (tail ++ more) = .ok (part, more)

theorem not_joins_nil {text : List Char} : ¬Joins text [] :=
  fun h => by simpa using h.2

theorem Part.Stands.firstPart {part : Part} (h : part.Stands) {c : Char} {rest more : List Char}
    (htext : c :: rest = part.source ++ more) (hjoin : ¬Joins part.source more) (line : Nat) :
    firstPart line c rest = .ok (part, more) := by
  obtain ⟨d, tail, hsource, hfirst⟩ := h
  rw [hsource, List.cons_append] at htext
  cases htext
  exact hfirst line more hjoin

/-- What makes the first part of a text the part that it is, with the first character of the text
apart. -/
inductive Begins : Char → List Char → Part → (after : List Char) → Prop
  | comment {body inner after : List Char}
      (hsplit : Text.splitAtFirst ['#', '}'] ('#' :: body) = some (inner, after)) :
      Begins '{' ('#' :: body) (.comment inner) after
  | raw {body inner between section_ after : List Char}
      (hclose : closeOf '%' 0 none body = some (inner, between))
      (hname : tagName inner = "raw".toList) (hend : endOfRaw between = .found section_ after) :
      Begins '{' ('%' :: body) (.raw inner section_) after
  | block {body inner after : List Char} (hclose : closeOf '%' 0 none body = some (inner, after))
      (hname : tagName inner ≠ "raw".toList) : Begins '{' ('%' :: body) (.block inner) after
  | expression {body inner after tag : List Char}
      (hclose : closeOf '}' 0 none body = some (inner, after))
      (htag : expressionTag inner = some tag) :
      Begins '{' ('{' :: body) (.expression inner) after
  | literal {c : Char} {after : List Char}
      (hplain : ∀ d ∈ ['{', '%', '#'], ∀ body, c = '{' → after ≠ d :: body) :
      Begins c after (.literal c) after

theorem begins_of_firstPart {line : Nat} {part : Part} {after : List Char}
    (h : firstPart line c rest = .ok (part, after)) : Begins c rest part after := by
  revert h
  fun_cases firstPart line c rest with
  | case2 body inner after hsplit =>
      rintro ⟨⟩
      exact .comment hsplit
  | case6 body inner after hclose hname section_ after' hend =>
      rintro ⟨⟩
      exact .raw hclose hname hend
  | case7 body inner after hclose hname =>
      rintro ⟨⟩
      exact .block hclose hname
  | case10 body inner after hclose tag htag =>
      rintro ⟨⟩
      exact .expression hclose htag
  | case11 c rest hcomment hblock hexpression =>
      rintro ⟨⟩
      refine .literal fun d hd body hc hrest => ?_
      simp only [List.mem_cons, List.not_mem_nil, or_false] at hd
      rcases hd with rfl | rfl | rfl
      · exact hexpression body hc hrest
      · exact hblock body hc hrest
      · exact hcomment body hc hrest
  | _ => rintro ⟨⟩

namespace Begins

variable {part : Part} {after : List Char}

theorem firstPart_eq (h : Begins c rest part after) (line : Nat) :
    firstPart line c rest = .ok (part, after) := by
  cases h with
  | comment hsplit => rw [firstPart, hsplit]
  | raw hclose hname hend =>
      rw [firstPart, hclose]
      simp only [hname, if_true, hend]
  | block hclose hname =>
      rw [firstPart, hclose]
      simp only [hname, if_false]
  | expression hclose htag =>
      rw [firstPart, hclose]
      simp only [htag]
  | literal hplain =>
      rw [firstPart]
      · exact hplain '#' (by simp)
      · exact hplain '%' (by simp)
      · exact hplain '{' (by simp)

theorem text_eq (h : Begins c rest part after) : c :: rest = part.source ++ after := by
  cases h with
  | comment hsplit =>
      rw [(Text.splitAtFirst_eq_some (by simp) hsplit).1]
      rfl
  | raw hclose _ hend =>
      obtain ⟨rfl, -⟩ := closeOf_eq_some (.inl rfl) hclose
      obtain ⟨rfl, -⟩ := endOfRaw_found hend
      simp [Part.source]
  | block hclose | expression hclose =>
      obtain ⟨rfl, -⟩ := closeOf_eq_some (by simp) hclose
      simp [Part.source]
  | literal => rfl

/-- A part that is no character ends with a closing brace. -/
theorem not_joins (h : Begins c rest part after) : ¬Joins part.source after := by
  cases h with
  | @comment _ inner => exact not_joins_of_eq_append ('{' :: inner ++ ['#']) _ (by simp [Part.source])
  | @raw _ inner _ _ _ _ _ hend =>
      obtain ⟨-, ⟨run, last, rfl, -⟩, -⟩ := endOfRaw_found hend
      exact not_joins_of_eq_append
        ('{' :: '%' :: inner ++ ['%', '}'] ++ (run ++ '{' :: '%' :: last ++ ['%'])) _ (by
          simp [Part.source])
  | @block _ inner =>
      exact not_joins_of_eq_append ('{' :: '%' :: inner ++ ['%']) _ (by simp [Part.source])
  | @expression _ inner =>
      exact not_joins_of_eq_append ('{' :: '{' :: inner ++ ['}']) _ (by simp [Part.source])
  | literal hplain =>
      rintro ⟨hlast, d, hd, hhead⟩
      cases hlast
      obtain ⟨body, rfl⟩ := List.head?_eq_some_iff.mp hhead
      exact hplain d hd body rfl rfl

/-- What follows a part does not matter for it, unless it joins. -/
theorem stands (h : Begins c rest part after) : part.Stands := by
  cases h with
  | @comment body inner after hsplit =>
      obtain ⟨heq, hmore⟩ := Text.splitAtFirst_eq_some (by simp) hsplit
      refine ⟨'{', inner ++ ['#', '}'], rfl, fun line more _ => ?_⟩
      have hmore := hmore more
      obtain ⟨body', hbody'⟩ : ∃ body', inner ++ ['#', '}'] ++ more = '#' :: body' := by
        cases inner with
        | nil => exact ⟨_, rfl⟩
        | cons d inner =>
            cases (List.cons.inj heq).1
            exact ⟨_, rfl⟩
      rw [hbody'] at hmore ⊢
      exact (comment hmore).firstPart_eq line
  | @raw body inner between section_ after hclose hname hend =>
      obtain ⟨-, hclosed⟩ := closeOf_eq_some (.inl rfl) hclose
      obtain ⟨-, -, hended⟩ := endOfRaw_found hend
      refine ⟨'{', '%' :: inner ++ ['%', '}'] ++ section_, rfl, fun line more _ => ?_⟩
      have hshape : '%' :: inner ++ ['%', '}'] ++ section_ ++ more =
        '%' :: (inner ++ '%' :: '}' :: (section_ ++ more)) := by simp
      rw [hshape]
      exact (raw (hclosed _) hname (hended more)).firstPart_eq line
  | @block body inner after hclose hname =>
      obtain ⟨-, hclosed⟩ := closeOf_eq_some (.inl rfl) hclose
      refine ⟨'{', '%' :: inner ++ ['%', '}'], rfl, fun line more _ => ?_⟩
      have hshape : '%' :: inner ++ ['%', '}'] ++ more = '%' :: (inner ++ '%' :: '}' :: more) := by
        simp
      rw [hshape]
      exact (block (hclosed more) hname).firstPart_eq line
  | @expression body inner after tag hclose htag =>
      obtain ⟨-, hclosed⟩ := closeOf_eq_some (.inr rfl) hclose
      refine ⟨'{', '{' :: inner ++ ['}', '}'], rfl, fun line more _ => ?_⟩
      have hshape : '{' :: inner ++ ['}', '}'] ++ more = '{' :: (inner ++ '}' :: '}' :: more) := by
        simp
      rw [hshape]
      exact (expression (hclosed more) htag).firstPart_eq line
  | literal =>
      refine ⟨_, _, rfl, fun line more hjoin => ?_⟩
      refine (literal fun d hd body hc hmore => ?_).firstPart_eq line
      subst hc
      exact hjoin ⟨rfl, d, hd, by rw [← List.nil_append more, hmore]; rfl⟩

end Begins

theorem Part.Stands.begins {part : Part} (h : part.Stands) : ∃ c rest, Begins c rest part [] := by
  obtain ⟨c, tail, -, hfirst⟩ := h
  exact ⟨c, tail ++ [], begins_of_firstPart (hfirst 1 [] not_joins_nil)⟩

/-- A text begins with the source of its first part. What follows the part does not matter for it,
unless it joins. -/
theorem firstPart_ok {line : Nat} {part : Part} {after : List Char}
    (h : firstPart line c rest = .ok (part, after)) :
    c :: rest = part.source ++ after ∧ ¬Joins part.source after ∧ part.Stands :=
  have hbegins := begins_of_firstPart h
  ⟨hbegins.text_eq, hbegins.not_joins, hbegins.stands⟩

theorem exists_of_bind_ok {α β : Type} {result : Except MarkupError α}
    {next : α → Except MarkupError β} {out : β} (h : result >>= next = .ok out) :
    ∃ found, result = .ok found ∧ next found = .ok out := by
  cases result with
  | error e => cases h
  | ok found => exact ⟨found, rfl, h⟩

theorem partsFrom_cons {fuel line : Nat} {parts : List Part}
    (h : partsFrom (fuel + 1) line (c :: rest) = .ok parts) :
    ∃ part after more, firstPart line c rest = .ok (part, after) ∧
      partsFrom fuel (line + Text.newlines part.source) after = .ok more ∧
      parts = part :: more := by
  rw [partsFrom] at h
  obtain ⟨⟨part, after⟩, hfirst, h⟩ := exists_of_bind_ok h
  obtain ⟨more, hmore, h⟩ := exists_of_bind_ok h
  cases h
  exact ⟨part, after, more, hfirst, hmore, rfl⟩

theorem length_after_le {line : Nat} {part : Part} {after : List Char}
    (h : firstPart line c rest = .ok (part, after)) : after.length ≤ rest.length := by
  obtain ⟨htext, -, d, tail, hsource, -⟩ := firstPart_ok h
  rw [hsource, List.cons_append] at htext
  rw [(List.cons.inj htext).2, List.length_append]
  exact Nat.le_add_left _ _

/-- The number of steps does not matter if it is enough. -/
theorem partsFrom_of_le {fuel fuel' line : Nat} (h : text.length ≤ fuel)
    (h' : text.length ≤ fuel') : partsFrom fuel line text = partsFrom fuel' line text := by
  induction fuel generalizing fuel' line text with
  | zero =>
      obtain rfl := List.length_eq_zero_iff.mp (Nat.le_zero.mp h)
      cases fuel' <;> rfl
  | succ fuel ih =>
      cases text with
      | nil => cases fuel' <;> rfl
      | cons c rest =>
          cases fuel' with
          | zero => cases h'
          | succ fuel' =>
              rw [partsFrom, partsFrom]
              cases hfirst : firstPart line c rest with
              | error e => rfl
              | ok found =>
                  obtain ⟨part, after⟩ := found
                  have hle := length_after_le hfirst
                  rw [List.length_cons] at h h'
                  simp only [bind, Except.bind]
                  rw [ih (by omega : after.length ≤ fuel) (by omega : after.length ≤ fuel')]

/-- A text is the sources of its parts put together. -/
theorem source_of_partsFrom {fuel line : Nat} {parts : List Part}
    (h : partsFrom fuel line text = .ok parts) : text = parts.flatMap Part.source := by
  induction fuel generalizing line text parts with
  | zero =>
      cases h
      simp [List.flatMap_map, Part.source]
  | succ fuel ih =>
      cases text with
      | nil =>
          cases h
          rfl
      | cons c rest =>
          obtain ⟨part, after, more, hfirst, hmore, rfl⟩ := partsFrom_cons h
          rw [(firstPart_ok hfirst).1, ih hmore, List.flatMap_cons]

theorem stands_of_mem {fuel line : Nat} {parts : List Part} (hfuel : text.length ≤ fuel)
    (h : partsFrom fuel line text = .ok parts) : ∀ part ∈ parts, part.Stands := by
  induction fuel generalizing line text parts with
  | zero =>
      obtain rfl := List.length_eq_zero_iff.mp (Nat.le_zero.mp hfuel)
      cases h
      exact List.forall_mem_nil _
  | succ fuel ih =>
      cases text with
      | nil =>
          cases h
          exact List.forall_mem_nil _
      | cons c rest =>
          obtain ⟨part, after, more, hfirst, hmore, rfl⟩ := partsFrom_cons h
          have hle := length_after_le hfirst
          rw [List.length_cons] at hfuel
          exact List.forall_mem_cons.mpr ⟨(firstPart_ok hfirst).2.2, ih (by omega) hmore⟩

/-- A text whose parts are found, with another one behind it that does not join. -/
theorem partsFrom_append {a b : List Char} {fuel line : Nat} {parts : List Part}
    (hfuel : a.length ≤ fuel) (h : partsFrom fuel line a = .ok parts) (hjoin : ¬Joins a b) :
    partsFrom (fuel + b.length) line (a ++ b) =
      (partsFrom b.length (line + Text.newlines a) b).map (parts ++ ·) := by
  have hnil {fuel line : Nat} : partsFrom (fuel + b.length) line ([] ++ b) =
      (partsFrom b.length (line + Text.newlines []) b).map ([] ++ ·) := by
    have hline : line + Text.newlines [] = line := rfl
    rw [List.nil_append, partsFrom_of_le (Nat.le_add_left _ _) (Nat.le_refl _), hline]
    cases partsFrom b.length line b <;> rfl
  induction fuel generalizing line a parts with
  | zero =>
      obtain rfl := List.length_eq_zero_iff.mp (Nat.le_zero.mp hfuel)
      cases h
      exact hnil
  | succ fuel ih =>
      cases a with
      | nil =>
          cases h
          exact hnil
      | cons c rest =>
          obtain ⟨part, after, more, hfirst, hmore, rfl⟩ := partsFrom_cons h
          have hle := length_after_le hfirst
          obtain ⟨htext, hapart, hstands⟩ := firstPart_ok hfirst
          -- What follows the part begins as before, or the part is the end of the first text.
          have hapart' : ¬Joins part.source (after ++ b) ∧ ¬Joins after b := by
            cases after with
            | nil =>
                rw [htext, List.append_nil] at hjoin
                exact ⟨hjoin, fun hnone => absurd hnone.1 (by simp)⟩
            | cons d after =>
                refine ⟨hapart, fun hlater => hjoin ?_⟩
                rw [Joins, htext, List.getLast?_append, hlater.1]
                exact ⟨rfl, hlater.2⟩
          have hfirst' : firstPart line c (rest ++ b) = .ok (part, after ++ b) := by
            refine hstands.firstPart ?_ hapart'.1 line
            rw [← List.cons_append, htext, List.append_assoc]
          rw [List.length_cons] at hfuel
          rw [Nat.succ_add, List.cons_append, partsFrom, hfirst']
          simp only [bind, Except.bind]
          rw [ih (by omega) hmore hapart'.2, htext, newlines_append, Nat.add_assoc]
          generalize line + (Text.newlines part.source + Text.newlines after) = line'
          cases partsFrom b.length line' b <;> rfl

end Instrument

/-- The error as it is when more lines stand in front. -/
def MarkupError.below (lines : Nat) : MarkupError → MarkupError
  | reservedCharacter line => reservedCharacter (line + lines)
  | emptyExpression line => emptyExpression (line + lines)
  | unterminated what line => unterminated what (line + lines)
  | overlappingTag => overlappingTag

namespace Instrument

theorem firstPart_below (lines line : Nat) (c : Char) (rest : List Char) :
    firstPart (line + lines) c rest = (firstPart line c rest).mapError (·.below lines) := by
  fun_cases firstPart line c rest <;> simp_all [firstPart, Except.mapError, MarkupError.below]

/-- With more lines in front, the parts are the same. -/
theorem partsFrom_below (fuel lines line : Nat) (text : List Char) :
    partsFrom fuel (line + lines) text =
      (partsFrom fuel line text).mapError (·.below lines) := by
  induction fuel generalizing line text with
  | zero => rfl
  | succ fuel ih =>
      cases text with
      | nil => rfl
      | cons c rest =>
          rw [partsFrom, partsFrom, firstPart_below]
          cases firstPart line c rest with
          | error e => rfl
          | ok found =>
              obtain ⟨part, after⟩ := found
              simp only [bind, Except.bind, Except.mapError]
              rw [Nat.add_right_comm, ih]
              cases partsFrom fuel (line + Text.newlines part.source) after <;> rfl

theorem instrument_of_any {source : List Char} (h : source.any isReserved = true) :
    instrument source =
      .error (.reservedCharacter (1 + Text.newlines (source.takeWhile (!isReserved ·)))) :=
  if_pos h

theorem instrument_of_clean {source : List Char} (h : source.any isReserved = false) :
    instrument source = instrumentFrom source.length 1 source := by
  rw [instrument, h]
  rfl

/-- An accepted source has no reserved character, and parts. -/
theorem exists_parts_of_ok {source out : List Char} (h : instrument source = .ok out) :
    source.any isReserved = false ∧
      ∃ parts, partsFrom source.length 1 source = .ok parts ∧ out = parts.flatMap Part.written := by
  cases hany : source.any isReserved with
  | true =>
      rw [instrument_of_any hany] at h
      cases h
  | false =>
      rw [instrument_of_clean hany, instrumentFrom_eq] at h
      cases hparts : partsFrom source.length 1 source with
      | error e =>
          rw [hparts] at h
          cases h
      | ok parts =>
          rw [hparts] at h
          cases h
          exact ⟨rfl, parts, rfl, rfl⟩

/-- A part is written in a source as it is on its own. -/
theorem Part.Stands.instrument {part : Part} (h : part.Stands)
    (hclean : part.source.any isReserved = false) : instrument part.source = .ok part.written := by
  obtain ⟨c, tail, hsource, hfirst⟩ := h
  have hfirst := hfirst 1 [] not_joins_nil
  rw [List.append_nil] at hfirst
  rw [instrument_of_clean hclean, hsource, List.length_cons, instrumentFrom_cons, hfirst]
  cases tail <;> simp [Except.bind, Except.map, instrumentFrom]

theorem Part.Stands.expressionTag_eq {inner : List Char} (h : (Part.expression inner).Stands) :
    expressionTag inner = some (Part.expression inner).written := by
  obtain ⟨c, rest, hbegins⟩ := h.begins
  cases hbegins with
  | expression _ htag => rw [Part.written, htag, Option.getD_some]

/-- Only expression tags are changed, each into a tag that its own text determines. -/
theorem Part.Stands.written_eq {part : Part} (h : part.Stands) :
    part.written = part.source ∨
      ∃ inner, part = .expression inner ∧ expressionTag inner = some part.written := by
  cases part with
  | expression inner => exact .inr ⟨inner, rfl, h.expressionTag_eq⟩
  | _ => exact .inl rfl

/-- Instrumenting is compositional. An accepted source that does not join the next one is
instrumented in front of it as it is alone, and the errors of the next one are found as many lines
further down as it has. It is a sequence of parts, each instrumented as on its own: an expression
tag as the tag that its own text determines, everything else as it is. -/
theorem instrument_append {a b x : List Char} (ha : instrument a = .ok x) (hjoin : ¬Joins a b) :
    instrument (a ++ b) =
        (match instrument b with
          | .ok y => .ok (x ++ y)
          | .error e => .error (e.below (Text.newlines a))) ∧
      ∃ parts : List Part, a = parts.flatMap Part.source ∧ x = parts.flatMap Part.written ∧
        ∀ part ∈ parts, instrument part.source = .ok part.written ∧
          (part.written = part.source ∨
            ∃ inner, part = .expression inner ∧ expressionTag inner = some part.written) := by
  obtain ⟨hclean, parts, hparts, rfl⟩ := exists_parts_of_ok ha
  have hsource := source_of_partsFrom hparts
  have hstands := stands_of_mem (Nat.le_refl _) hparts
  refine ⟨?_, parts, hsource, rfl, fun part hpart => ⟨?_, (hstands part hpart).written_eq⟩⟩
  · -- A reserved character in the second source is found before any of its tags is.
    cases hany : b.any isReserved with
    | true =>
        have hboth : (a ++ b).any isReserved = true := by rw [List.any_append, hany, Bool.or_true]
        rw [instrument_of_any hany, instrument_of_any hboth, List.takeWhile_append_of_pos,
          newlines_append]
        · simp only [MarkupError.below]
          rw [Nat.add_assoc, Nat.add_comm (Text.newlines a)]
        · simpa using hclean
    | false =>
        have hboth : (a ++ b).any isReserved = false := by
          rw [List.any_append, hany, hclean, Bool.or_false]
        rw [instrument_of_clean hany, instrument_of_clean hboth, instrumentFrom_eq,
          instrumentFrom_eq, List.length_append, partsFrom_append (Nat.le_refl _) hparts hjoin,
          partsFrom_below]
        cases partsFrom b.length 1 b with
        | error e => rfl
        | ok more => simp [Except.map, Except.mapError]
  · refine (hstands part hpart).instrument ?_
    rw [List.any_eq_false] at hclean ⊢
    intro c hc
    refine hclean c ?_
    rw [hsource]
    exact List.mem_flatMap.mpr ⟨part, hpart, hc⟩

/-- Behind a raw section with a tag in it, an expression and a line break, an empty expression is
reported on its line in the whole. -/
theorem instrument_append_empty :
    let a := ("\x7b% raw %\x7d\x7b\x7b x \x7d\x7d\x7b#\x7b% endraw %\x7d\n" ++
      "\x7b\x7b v['\x7d\x7d'] \x7d\x7d").toList
    let b := "\x7b# \x7b #\x7d\n\x7b\x7b \x7d\x7d".toList
    instrument b = .error (.emptyExpression 2) ∧ ¬Joins a b ∧
      instrument (a ++ b) = .error (.emptyExpression 3) := by
  intro a b
  have hjoin : ¬Joins a b := by decide +kernel
  have hb : instrument b = .error (.emptyExpression 2) := by decide +kernel
  have hok : (instrument a).toBool = true := by decide +kernel
  cases ha : instrument a with
  | error e =>
      rw [ha] at hok
      cases hok
  | ok x =>
      have hlines : Text.newlines a = 1 := by decide +kernel
      refine ⟨hb, hjoin, ?_⟩
      rw [(instrument_append ha hjoin).1, hb, hlines]
      rfl

end Instrument

end QueryTemplate
