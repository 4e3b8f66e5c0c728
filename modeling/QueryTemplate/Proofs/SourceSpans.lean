import QueryTemplate.Proofs.TagTokens

/-!
Where the lexer finds tags. The lexer here takes notes: it is the lexer of the library that besides
its tokens returns the comments, raw sections, block tags and expression tags it comes upon, in
their order, each with where it begins and with its text.
-/

namespace QueryTemplate.Template

open Instrument

/-- The kinds of what stands between texts. -/
inductive SpanKind where
  | comment
  | raw
  | block
  | expression
  deriving DecidableEq, Repr

/-- A comment, a raw section or a tag in a source: where it begins, in characters, and its text. -/
structure Span where
  kind : SpanKind
  start : Nat
  text : List Char
  deriving DecidableEq, Repr

namespace Lexer

/-- What is passed over from a position to where `rest`, an end part of the text ahead, begins. -/
def Cursor.span (c : Cursor) (kind : SpanKind) (rest : List Char) : Span :=
  ⟨kind, c.before.length, c.rest.take (c.rest.length - rest.length)⟩

mutual

/-- `lexText` with notes. -/
def noteText (ws : Whitespace) : Nat → (trim : Bool) → Cursor → List Span × Lexed
  | 0, _, _ => ([], {})
  | fuel + 1, trim, c =>
    let c := if trim then c.moveTo (Text.trimStart c.rest) else c
    let (lead, found) := findMarker c.rest
    let tag := c.advance lead.length
    let start := match found with
      | some _ => control (tag.rest.drop 2).head?
      | none => .preserve
    let strips := ws.lstripBlocks && found != some .expression && lineIsBlank tag.before
    let text := match start with
      | .remove => Text.trimEnd lead
      | .preserve => lead
      | .default => if strips then lstrip lead else lead
    let after := match found with
      | some m => noteMarker ws fuel m start tag
      | none => ([], {})
    (after.1, if text.isEmpty then after.2 else put (.data (String.ofList text)) c.line after.2)

/-- `lexMarker` with notes. -/
def noteMarker (ws : Whitespace) : Nat → Marker → Control → Cursor → List Span × Lexed
  | 0, _, _, _ => ([], {})
  | fuel + 1, m, start, c =>
    let body := c.advance (if start = .default then 2 else 3)
    match m with
    | .comment =>
      match Text.splitAtFirst ['#', '}'] body.rest with
      | none => ([], stop "unexpected end of comment" c.finish.line)
      | some (inner, rest) =>
        let last := if inner.isEmpty then body.rest.head? else inner.getLast?
        let (next, trim) := tail ws (control last) (body.moveTo rest)
        let after := noteText ws fuel trim next
        (c.span .comment rest :: after.1, after.2)
    | .expression =>
      let after := noteTag ws fuel false 0 c body
      (after.1, put .expressionStart c.line after.2)
    | .block =>
      match basicTag? "raw".toList false body.rest with
      | none =>
        let after := noteTag ws fuel true 0 c body
        (after.1, put .blockStart c.line after.2)
      | some (rest, start) =>
        let section_ := body.moveTo rest
        match rawEnd? section_.rest with
        | none => ([], stop "unexpected end of raw block" section_.finish.line)
        | some (text, end_, next, rest) =>
          let (after, trim) := tail ws next (section_.moveTo rest)
          let later := noteText ws fuel trim after
          (c.span .raw rest :: later.1,
            put (.data (String.ofList (rawText ws start end_ text))) section_.line later.2)

/-- `lexTag` with notes, given where the tag begins. -/
def noteTag (ws : Whitespace) : Nat → (isBlock : Bool) → (depth : Int) → (start : Cursor) → Cursor →
    List Span × Lexed
  | 0, _, _, _, _ => ([], {})
  | fuel + 1, isBlock, depth, start, c =>
    let close := if depth = 0 then tagEnd? isBlock c.rest else none
    match close with
    | some (end_, rest) =>
      let after := c.moveTo rest
      let token := if isBlock then Token.blockEnd else Token.expressionEnd
      let after := if isBlock && end_ = .default then skipBreak ws after else after
      let later := noteText ws fuel (end_ = .remove) after
      (start.span (if isBlock then .block else .expression) rest :: later.1,
        put token c.line later.2)
    | none =>
      match c.rest with
      | [] => ([], {})
      | x :: _ =>
        if Text.isAsciiSpace x then
          noteTag ws fuel isBlock depth start (c.moveTo (c.rest.dropWhile Text.isAsciiSpace))
        else
          match tagToken c with
          | .error fault => ([], { fault := some fault })
          | .ok (token, rest) =>
            let depth := match token with
              | .symbol s => depth + balance s
              | _ => depth
            let later := noteTag ws fuel isBlock depth start (c.moveTo rest)
            (later.1, put token c.line later.2)

end

/-! ### Taking notes does not change what the lexer does -/

section

variable {ws : Whitespace} {fuel : Nat}

theorem noteText_snd_succ
    (hmarker : ∀ m start c, (noteMarker ws fuel m start c).2 = lexMarker ws fuel m start c)
    (trim : Bool) (c : Cursor) :
    (noteText ws (fuel + 1) trim c).2 = lexText ws (fuel + 1) trim c := by
  rw [noteText, lexText]
  generalize (if trim then c.moveTo (Text.trimStart c.rest) else c) = c
  obtain ⟨lead, found⟩ := findMarker c.rest
  cases found with
  | none => rfl
  | some m =>
      dsimp only
      exact ite_congr rfl (fun _ => hmarker ..) fun _ => congrArg _ (hmarker ..)

theorem noteMarker_snd_succ (htext : ∀ trim c, (noteText ws fuel trim c).2 = lexText ws fuel trim c)
    (htag : ∀ isBlock depth start c,
      (noteTag ws fuel isBlock depth start c).2 = lexTag ws fuel isBlock depth c)
    (m : Marker) (start : Control) (c : Cursor) :
    (noteMarker ws (fuel + 1) m start c).2 = lexMarker ws (fuel + 1) m start c := by
  cases m with
  | comment =>
      rw [noteMarker, lexMarker]
      dsimp only
      generalize c.advance (if start = .default then 2 else 3) = body
      cases Text.splitAtFirst ['#', '}'] body.rest with
      | none => rfl
      | some found => simp only [htext]
  | expression =>
      rw [noteMarker, lexMarker]
      simp only [htag]
  | block =>
      rw [noteMarker, lexMarker]
      dsimp only
      generalize c.advance (if start = .default then 2 else 3) = body
      cases basicTag? "raw".toList false body.rest with
      | none => simp only [htag]
      | some found =>
          dsimp only
          cases rawEnd? (body.moveTo found.1).rest with
          | none => rfl
          | some ends => simp only [htext]

theorem noteTag_snd_succ (htext : ∀ trim c, (noteText ws fuel trim c).2 = lexText ws fuel trim c)
    (htag : ∀ isBlock depth start c,
      (noteTag ws fuel isBlock depth start c).2 = lexTag ws fuel isBlock depth c)
    (isBlock : Bool) (depth : Int) (start c : Cursor) :
    (noteTag ws (fuel + 1) isBlock depth start c).2 = lexTag ws (fuel + 1) isBlock depth c := by
  rw [noteTag, lexTag]
  generalize (if depth = 0 then tagEnd? isBlock c.rest else none) = close
  cases close with
  | some found => simp only [htext]
  | none =>
      cases hrest : c.rest with
      | nil => rfl
      | cons x rest =>
          dsimp only
          split
          · exact htag ..
          · cases htoken : tagToken c with
            | error fault => rfl
            | ok found => exact congrArg (put found.1 c.line) (htag ..)

end

theorem note_snd (ws : Whitespace) (fuel : Nat) :
    (∀ trim c, (noteText ws fuel trim c).2 = lexText ws fuel trim c) ∧
      (∀ m start c, (noteMarker ws fuel m start c).2 = lexMarker ws fuel m start c) ∧
      ∀ isBlock depth start c,
        (noteTag ws fuel isBlock depth start c).2 = lexTag ws fuel isBlock depth c := by
  induction fuel with
  | zero => exact ⟨fun _ _ => rfl, fun _ _ _ => rfl, fun _ _ _ _ => rfl⟩
  | succ fuel ih =>
      obtain ⟨htext, hmarker, htag⟩ := ih
      exact ⟨noteText_snd_succ hmarker, noteMarker_snd_succ htext htag,
        noteTag_snd_succ htext htag⟩

end Lexer

/-- The lexer with its notes. -/
def note (ws : Whitespace) (source : List Char) : List Span × Lexed :=
  let source := if ws.keepTrailingNewline then source else Lexer.dropFinalBreak source
  Lexer.noteText ws (2 * source.length + 4) false (.start source)

/-- The comments, raw sections and tags that the lexer finds in a source. -/
def spans (ws : Whitespace) (source : List Char) : List Span :=
  (note ws source).1

theorem note_eq (ws : Whitespace) (source : List Char) :
    note ws source = (spans ws source, lex ws source) :=
  Prod.ext rfl ((Lexer.note_snd ws _).1 _ _)

namespace Lexer

/-! ### A tag with a balanced text -/

variable {ws : Whitespace} {body more rest before text : List Char} {isBlock : Bool}

/-- The first character of the delimiter that ends a tag. -/
def delimiter (isBlock : Bool) : Char :=
  if isBlock then '%' else '}'

theorem isPlain_delimiter (isBlock : Bool) : Literal.isPlain (delimiter isBlock) = false := by
  cases isBlock <;> rfl

/-- In a balanced text there is no delimiter. -/
theorem eq_of_dropHead? {place : Place} (hbody : (Place.outside 0).after body = some place)
    (h : Text.dropHead? [delimiter isBlock, '}'] (body ++ delimiter isBlock :: '}' :: more) =
      some rest) : body = [] ∧ rest = more := by
  have htext := Text.dropHead?_eq_some_iff.mp h
  cases body with
  | nil =>
      simp only [List.nil_append, List.cons_append, List.cons.injEq, true_and] at htext
      exact ⟨rfl, htext.symm⟩
  | cons x body =>
      exfalso
      obtain ⟨rfl, htail⟩ := List.cons.inj htext
      cases isBlock with
      | false => cases hbody
      | true =>
          cases body with
          | nil => exact absurd (List.cons.inj htail).1 (by decide)
          | cons y body =>
              obtain ⟨rfl, -⟩ := List.cons.inj htail
              cases hbody

theorem eq_of_tagEnd? {place : Place} {end_ : Control}
    (hbody : (Place.outside 0).after body = some place)
    (h : tagEnd? isBlock (body ++ delimiter isBlock :: '}' :: more) = some (end_, rest)) :
    rest = more := by
  have hclose : (if isBlock = true then ['%', '}'] else ['}', '}']) = [delimiter isBlock, '}'] := by
    cases isBlock <;> rfl
  rw [tagEnd?.eq_def, hclose] at h
  cases body with
  | nil =>
      have hdefault : (delimiter isBlock == '-' || delimiter isBlock == '+') = false := by
        cases isBlock <;> rfl
      simp only [List.nil_append, hdefault, Bool.false_eq_true, if_false] at h
      obtain ⟨rest, hhead, heq⟩ := Option.map_eq_some_iff.mp h
      cases heq
      exact (@eq_of_dropHead? [] _ _ _ _ hbody hhead).2
  | cons x body =>
      simp only [List.cons_append] at h
      split at h
      · rename_i hcontrol
        split at h
        · rename_i hhead
          cases h
          rw [Place.after, Place.next_inert (isInert_of_isControl hcontrol)] at hbody
          exact (eq_of_dropHead? hbody hhead).2
        · cases h
      · obtain ⟨rest, hhead, heq⟩ := Option.map_eq_some_iff.mp h
        cases heq
        exact (@eq_of_dropHead? (x :: body) _ _ _ _ hbody hhead).2

/-- The lexer goes on outside tags, behind some text without an opening brace, with enough steps
left. -/
def GoesOn (ws : Whitespace) (fuel offset : Nat) (text : List Char) (noted : List Span × Lexed) :
    Prop :=
  ∃ (fuel' : Nat) (trim : Bool) (skipped rest before : List Char) (line : Nat),
    fuel' < fuel ∧ 2 * rest.length + 2 ≤ fuel' ∧ text = skipped ++ rest ∧ '{' ∉ skipped ∧
      before.length = offset + skipped.length ∧
      noted = noteText ws fuel' trim ⟨before, rest, line⟩

theorem exists_dropBreak (text : List Char) :
    ∃ skipped, text = skipped ++ dropBreak text ∧ '{' ∉ skipped := by
  unfold dropBreak
  dsimp only
  split
  · rename_i rest hrest
    split at hrest
    · cases hrest
      exact ⟨['\r', '\n'], rfl, by decide⟩
    · cases hrest
      exact ⟨['\n'], rfl, by decide⟩
  · split
    · exact ⟨['\r'], rfl, by decide⟩
    · exact ⟨[], rfl, List.not_mem_nil⟩

theorem skipBreak_eq (ws : Whitespace) (before text : List Char) (line : Nat) :
    ∃ skipped rest line', text = skipped ++ rest ∧ '{' ∉ skipped ∧
      skipBreak ws ⟨before, text, line⟩ = ⟨skipped.reverse ++ before, rest, line'⟩ := by
  rw [skipBreak]
  split
  · obtain ⟨skipped, htext, hskipped⟩ := exists_dropBreak text
    refine ⟨skipped, dropBreak text, line + Text.newlines skipped, htext, hskipped, ?_⟩
    have hmove := Cursor.moveTo_append before skipped (dropBreak text) line
    rwa [← htext] at hmove
  · exact ⟨[], text, line, rfl, List.not_mem_nil, rfl⟩

/-- Behind a tag the lexer goes on outside tags. -/
theorem goesOn_of_skipBreak {fuel fuel' offset : Nat} (hfuel : fuel' < fuel)
    (hlength : 2 * text.length + 2 ≤ fuel') (hbefore : before.length = offset) (skips trim : Bool)
    (line : Nat) :
    GoesOn ws fuel offset text (noteText ws fuel' trim
      (if skips then skipBreak ws ⟨before, text, line⟩ else ⟨before, text, line⟩)) := by
  cases skips with
  | false =>
      exact ⟨fuel', trim, [], text, before, line, hfuel, hlength, rfl, List.not_mem_nil, hbefore,
        rfl⟩
  | true =>
      obtain ⟨skipped, rest, line', rfl, hskipped, heq⟩ := skipBreak_eq ws before text line
      rw [List.length_append] at hlength
      exact ⟨fuel', trim, skipped, rest, _, line', hfuel, by omega, rfl, hskipped, by simp; omega,
        congrArg _ heq⟩

theorem goesOn_tail {fuel fuel' offset : Nat} (hfuel : fuel' < fuel)
    (hlength : 2 * text.length + 2 ≤ fuel') (hbefore : before.length = offset) (end_ : Control)
    (line : Nat) :
    GoesOn ws fuel offset text (noteText ws fuel' (tail ws end_ ⟨before, text, line⟩).2
      (tail ws end_ ⟨before, text, line⟩).1) := by
  cases end_ with
  | default => exact goesOn_of_skipBreak hfuel hlength hbefore true false line
  | preserve => exact goesOn_of_skipBreak hfuel hlength hbefore false false line
  | remove => exact goesOn_of_skipBreak hfuel hlength hbefore false true line

theorem GoesOn.mono {fuel fuel' offset : Nat} {noted : List Span × Lexed}
    (h : GoesOn ws fuel offset text noted) (hle : fuel ≤ fuel') :
    GoesOn ws fuel' offset text noted := by
  obtain ⟨f, trim, skipped, rest, before, line, hfuel, h⟩ := h
  exact ⟨f, trim, skipped, rest, before, line, Nat.lt_of_lt_of_le hfuel hle, h⟩

/-- The same, seen from further in front. -/
theorem GoesOn.of_passed {fuel : Nat} {passed left : List Char} {noted : List Span × Lexed}
    (h : GoesOn ws fuel ((passed.reverse ++ before).length + left.length + 2) text noted)
    (hbody : body = passed ++ left) :
    GoesOn ws (fuel + 1) (before.length + body.length + 2) text noted := by
  obtain ⟨fuel', trim, skipped, rest, before', line, hfuel, hlength, htext, hskipped, hbefore, h⟩ :=
    h
  refine ⟨fuel', trim, skipped, rest, before', line, by omega, hlength, htext, hskipped, ?_, h⟩
  rw [hbefore, hbody]
  simp only [List.length_append, List.length_reverse]
  omega

/-- The kind of a tag with tokens in it. -/
def tagKind (isBlock : Bool) : SpanKind :=
  if isBlock then .block else .expression

section

variable {depth : Int} {start c : Cursor} {x : Char} {text : List Char}

/-- White space inside a tag is passed over, without a note. -/
theorem noteTag_passes (hclose : (if depth = 0 then tagEnd? isBlock c.rest else none) = none)
    (hc : c.rest = x :: text) (hspace : Text.isAsciiSpace x = true) (fuel : Nat) :
    noteTag ws (fuel + 1) isBlock depth start c =
      noteTag ws fuel isBlock depth start (c.moveTo (c.rest.dropWhile Text.isAsciiSpace)) := by
  rw [noteTag]
  simp only [hclose]
  simp only [hc, hspace, if_true]

/-- What stands inside a tag behind white space, and is not its end, is a token. -/
theorem noteTag_reads (hclose : (if depth = 0 then tagEnd? isBlock c.rest else none) = none)
    (hc : c.rest = x :: text) (hspace : Text.isAsciiSpace x = false) (fuel : Nat) :
    noteTag ws (fuel + 1) isBlock depth start c =
      match tagToken c with
      | .error fault => ([], { fault := some fault })
      | .ok (token, rest) =>
        let later := noteTag ws fuel isBlock (depth + opened token) start (c.moveTo rest)
        (later.1, put token c.line later.2) := by
  rw [noteTag]
  simp only [hclose]
  simp only [hc, hspace, Bool.false_eq_true, if_false]
  cases tagToken c with
  | error fault => rfl
  | ok found =>
      obtain ⟨token, rest⟩ := found
      cases token <;> simp [opened]

end

section

variable {depth fuel : Nat} {start : Cursor} {line : Nat}

/-- Where a tag with a balanced text ends, its brackets are closed and its text is read. -/
theorem noteTag_closes {end_ : Control}
    (hbody : (Place.outside depth).after body = some (.outside 0))
    (hfuel : 2 * (body.length + 2 + more.length) ≤ fuel + 1)
    (hclose : (if (depth : Int) = 0 then
      tagEnd? isBlock (body ++ delimiter isBlock :: '}' :: more) else none) = some (end_, rest)) :
    ∃ later : List Span × Lexed,
      noteTag ws (fuel + 1) isBlock depth start
        ⟨before, body ++ delimiter isBlock :: '}' :: more, line⟩ =
          (start.span (tagKind isBlock) more :: later.1,
            put (if isBlock then .blockEnd else .expressionEnd) line later.2) ∧
      GoesOn ws (fuel + 1) (before.length + body.length + 2) more later := by
  obtain rfl : depth = 0 := by
    by_cases hdepth : depth = 0
    · exact hdepth
    · rw [if_neg (by omega)] at hclose
      cases hclose
  obtain rfl : rest = more := eq_of_tagEnd? hbody hclose
  have hend := Cursor.moveTo_append before (body ++ [delimiter isBlock, '}']) rest line
  rw [List.append_assoc] at hend
  simp only [List.cons_append, List.nil_append] at hend
  rw [noteTag]
  simp only [hclose, hend]
  exact ⟨_, rfl, goesOn_of_skipBreak (Nat.lt_succ_self _) (by omega) (by simp; omega) _ _ _⟩

/-- Inside a tag with a balanced text the lexer passes over white space or reads a token, if it reads
on without a fault. It takes no note there, and leaves a balanced text. -/
theorem noteTag_goes (hbody : (Place.outside depth).after body = some (.outside 0))
    (hclose : (if (depth : Int) = 0 then
      tagEnd? isBlock (body ++ delimiter isBlock :: '}' :: more) else none) = none)
    (hfault : (noteTag ws (fuel + 1) isBlock depth start
      ⟨before, body ++ delimiter isBlock :: '}' :: more, line⟩).2.fault = none) :
    ∃ (passed left : List Char) (depth' line' : Nat), body = passed ++ left ∧ passed ≠ [] ∧
      (Place.outside depth).after passed = some (.outside depth') ∧
      (noteTag ws (fuel + 1) isBlock depth start
        ⟨before, body ++ delimiter isBlock :: '}' :: more, line⟩).1 =
          (noteTag ws fuel isBlock depth' start
            ⟨passed.reverse ++ before, left ++ delimiter isBlock :: '}' :: more, line'⟩).1 ∧
      (noteTag ws fuel isBlock depth' start
        ⟨passed.reverse ++ before, left ++ delimiter isBlock :: '}' :: more, line'⟩).2.fault =
          none := by
  obtain ⟨x, body, rfl⟩ : ∃ x tail, body = x :: tail := by
    cases body with
    | cons x body => exact ⟨x, body, rfl⟩
    | nil =>
        cases hbody
        exfalso
        cases isBlock <;> simp [tagEnd?, Text.dropHead?, delimiter] at hclose
  have hmove (passed left : List Char) := Cursor.moveTo_append before passed
    (left ++ delimiter isBlock :: '}' :: more) line
  simp only [← List.append_assoc] at hmove
  cases hspace : Text.isAsciiSpace x with
  | true =>
      obtain ⟨passed, left, htext, hpassed, hdrop, hafter⟩ :=
        exists_dropWhile_isAsciiSpace (isPlain_delimiter isBlock) hspace body ('}' :: more) depth
      have hend := hmove passed left
      rw [noteTag_passes hclose rfl hspace] at hfault ⊢
      rw [← htext] at hend
      simp only [List.cons_append] at hend hfault ⊢
      rw [hdrop, hend] at hfault ⊢
      exact ⟨passed, left, depth, _, htext, hpassed, hafter, rfl, hfault⟩
  | false =>
      rw [noteTag_reads hclose rfl hspace] at hfault ⊢
      cases htoken : tagToken ⟨before, x :: body ++ delimiter isBlock :: '}' :: more, line⟩ with
      | error fault =>
          rw [htoken] at hfault
          cases hfault
      | ok found =>
          obtain ⟨token, rest⟩ := found
          obtain ⟨passed, left, depth', htext, hpassed, rfl, hdepth, hafter⟩ :=
            tagToken_balanced (isPlain_delimiter isBlock) hbody (List.cons_ne_nil x body) rfl htoken
          have hend := hmove passed left
          rw [← htext] at hend
          rw [htoken] at hfault
          simp only [hend, ← hdepth] at hfault ⊢
          exact ⟨passed, left, depth', _, htext, hpassed, hafter, rfl, hfault⟩

end

/-- The lexer reads a tag with a balanced text to its delimiter, if it reads on without a fault. The
induction is on its steps; what is left of the text stays balanced. -/
theorem noteTag_balanced {depth fuel : Nat} {start : Cursor} {line : Nat}
    (hbody : (Place.outside depth).after body = some (.outside 0))
    (hfuel : 2 * (body.length + 2 + more.length) ≤ fuel)
    (hfault : (noteTag ws fuel isBlock depth start
      ⟨before, body ++ delimiter isBlock :: '}' :: more, line⟩).2.fault = none) :
    ∃ later : List Span × Lexed,
      (noteTag ws fuel isBlock depth start
        ⟨before, body ++ delimiter isBlock :: '}' :: more, line⟩).1 =
          start.span (tagKind isBlock) more :: later.1 ∧
      later.2.fault = none ∧ GoesOn ws fuel (before.length + body.length + 2) more later := by
  induction fuel generalizing depth body before line with
  | zero => omega
  | succ fuel ih =>
      cases hclose : (if (depth : Int) = 0 then
          tagEnd? isBlock (body ++ delimiter isBlock :: '}' :: more) else none) with
      | some found =>
          obtain ⟨later, hnoted, hgoes⟩ := noteTag_closes hbody hfuel hclose
          rw [hnoted] at hfault ⊢
          exact ⟨later, rfl, hfault, hgoes⟩
      | none =>
          obtain ⟨passed, left, depth', line', rfl, hpassed, hafter, hstep, hfault'⟩ :=
            noteTag_goes hbody hclose hfault
          have hpositive := List.length_pos_iff.mpr hpassed
          rw [Place.after_append_of_eq hafter] at hbody
          rw [List.length_append] at hfuel
          obtain ⟨later, hnoted, hlater, hgoes⟩ := ih hbody (by omega) hfault'
          exact ⟨later, hstep.trans hnoted, hlater, hgoes.of_passed rfl⟩

end Lexer

end QueryTemplate.Template
