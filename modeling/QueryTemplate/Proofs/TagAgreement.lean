import Mathlib.Data.List.Induction
import QueryTemplate.Proofs.BasicTags
import QueryTemplate.Proofs.SourceParts
import QueryTemplate.Proofs.SourceSpans

/-!
The instrumentation of a source and the lexer agree on where its tags are. Both go through the
source from left to right, each with its own search for the end of a comment, of a tag and of a raw
section. They find the same ends if no comment is closed by the sign that opens it, the tags around
raw sections are tags for both, and no tag closes a bracket that it has not opened.
-/

namespace QueryTemplate

open Template Template.Lexer

namespace Instrument

variable {c : Char} {rest text : List Char}

/-- The lexer reads the part as the instrumentation does: a comment is more than `{#}`, the words of
the tags around a raw section stand alone in them, and a tag has a balanced text. -/
def Part.IsPlain : Part → Prop
  | literal _ => True
  | comment inner => inner ≠ []
  | block inner => Balanced inner
  | raw inner section_ => basicWord inner = "raw".toList ∧
      basicWord (between (closingTag section_)) = "endraw".toList
  | expression inner => Balanced inner

instance : (part : Part) → Decidable part.IsPlain
  | .literal _ => inferInstanceAs (Decidable True)
  | .comment _ => inferInstanceAs (Decidable (_ ≠ _))
  | .block inner => inferInstanceAs (Decidable (Balanced inner))
  | .raw _ _ => inferInstanceAs (Decidable (_ ∧ _))
  | .expression inner => inferInstanceAs (Decidable (Balanced inner))

/-- The kind of what stands between texts. -/
def Part.kind? : Part → Option SpanKind
  | literal _ => none
  | comment _ => some .comment
  | block _ => some .block
  | raw _ _ => some .raw
  | expression _ => some .expression

/-- Where the parts are, each with the text that `look` gives for it; the first one begins at
`offset`. Characters outside tags are left out. -/
def Part.spans (look : Part → List Char) : (offset : Nat) → List Part → List Span
  | _, [] => []
  | offset, part :: parts =>
    let later := spans look (offset + (look part).length) parts
    match part.kind? with
    | some kind => ⟨kind, offset, look part⟩ :: later
    | none => later

/-! ### What the lexer needs to know of a part -/

/-- The lexer finds the end of the part where the part ends. -/
def Part.Readable : Part → Prop
  | literal _ => True
  | comment inner => ∃ tail, inner = '#' :: tail ∧
      ∀ more, Text.splitAtFirst ['#', '}'] (tail ++ ['#', '}'] ++ more) = some (tail, more)
  | block inner => Balanced inner ∧ tagName inner ≠ "raw".toList
  | raw inner section_ => basicWord inner = "raw".toList ∧ (∃ run, section_ = run ++ ['}']) ∧
      ∀ more, ∃ run end_ next, rawEnd? (section_ ++ more) = some (run, end_, next, more)
  | expression inner => Balanced inner

theorem Part.Stands.readable {part : Part} (h : part.Stands) (hplain : part.IsPlain) :
    part.Readable := by
  obtain ⟨c, rest, hbegins⟩ := h.begins
  cases hbegins with
  | literal => exact trivial
  | @comment body inner _ hsplit =>
      obtain ⟨heq, hmore⟩ := Text.splitAtFirst_eq_some (by simp) hsplit
      obtain ⟨d, inner, rfl⟩ := List.exists_cons_of_ne_nil hplain
      obtain ⟨rfl, -⟩ := List.cons.inj heq
      refine ⟨inner, rfl, fun more => ?_⟩
      have hmore := hmore more
      rw [List.cons_append, List.cons_append, Text.splitAtFirst] at hmore
      split at hmore
      · cases hmore
      · obtain ⟨⟨before, after⟩, hlater, heq⟩ := Option.map_eq_some_iff.mp hmore
        cases heq
        exact hlater
  | block _ hname => exact ⟨hplain, hname⟩
  | raw _ _ hend =>
      obtain ⟨-, ⟨run, last, hshape, -⟩, hmore⟩ := endOfRaw_found hend
      refine ⟨hplain.1, ⟨run ++ '{' :: '%' :: last ++ ['%'], by simp [hshape]⟩, fun more => ?_⟩
      exact rawEnd?_of_endOfRaw (hmore more) (by rw [closingTag_eq (hmore more)]; exact hplain.2)
  | expression => exact hplain

/-! ### One part -/

variable {ws : Whitespace} {before more : List Char} {line fuel : Nat}

theorem span_append (kind : SpanKind) (before text more : List Char) (line : Nat) :
    (⟨before, text ++ more, line⟩ : Cursor).span kind more = ⟨kind, before.length, text⟩ := by
  simp [Cursor.span]

/-- Where the text of a tag begins, behind its delimiter and a white space control character. -/
theorem advance_control (a b : Char) {e : Char} (he : isControl e = false)
    (before inner more : List Char) (line : Nat) :
    ∃ line', (⟨before, a :: b :: (inner ++ e :: more), line⟩ : Cursor).advance
        (if control (inner ++ e :: more).head? = .default then 2 else 3) =
      ⟨((takeControl inner).1.reverse ++ [b, a]) ++ before, (takeControl inner).2 ++ e :: more,
        line'⟩ := by
  cases inner with
  | nil =>
      rw [List.nil_append, List.head?_cons, if_pos (control_eq_default_iff.mpr he)]
      exact ⟨_, rfl⟩
  | cons x inner =>
      rw [List.cons_append, List.head?_cons, takeControl]
      cases hx : isControl x with
      | false =>
          rw [if_pos (control_eq_default_iff.mpr hx)]
          exact ⟨_, rfl⟩
      | true =>
          have hne : control (some x) ≠ .default := fun h => by
            rw [control_eq_default_iff.mp h] at hx
            cases hx
          rw [if_neg hne]
          exact ⟨_, rfl⟩

theorem Balanced.takeControl {inner : List Char} (h : Balanced inner) :
    Balanced (takeControl inner).2 := by
  obtain ⟨heq, hcontrol⟩ := takeControl_eq inner
  refine Balanced.of_append_left (.of_inert fun x hx => isInert_of_isControl (hcontrol x hx)) ?_
  rwa [heq]

/-- The kind of tag that a part is to who only sees its delimiter. -/
def Part.marker? : Part → Option Marker
  | literal _ => none
  | comment _ => some .comment
  | block _ => some .block
  | raw _ _ => some .block
  | expression _ => some .expression

/-- The lexer reads a part where it stands, if it reads on without a fault. -/
def ReadsOn (ws : Whitespace) (fuel : Nat) (before : List Char) (part : Part) (more : List Char)
    (noted : List Span × Lexed) : Prop :=
  noted.2.fault = none → ∃ later : List Span × Lexed, ∃ kind, part.kind? = some kind ∧
    noted.1 = ⟨kind, before.length, part.source⟩ :: later.1 ∧ later.2.fault = none ∧
    GoesOn ws fuel (before.length + part.source.length) more later

theorem length_takeControl (text : List Char) :
    (takeControl text).1.length + (takeControl text).2.length = text.length := by
  rw [← List.length_append, (takeControl_eq text).1]

theorem readsOn_tag (ws : Whitespace) (before more : List Char) (isBlock : Bool) (d : Char)
    (part : Part) {inner : List Char}
    (hpart : part.kind? = some (tagKind isBlock))
    (hsource : part.source = '{' :: d :: inner ++ [delimiter isBlock, '}'])
    (hinner : Balanced inner) (hfuel : 2 * (part.source ++ more).length ≤ fuel) (line line' : Nat) :
    ReadsOn ws (fuel + 1) before part more
      (noteTag ws fuel isBlock 0 ⟨before, part.source ++ more, line⟩
        ⟨((takeControl inner).1.reverse ++ [d, '{']) ++ before,
          (takeControl inner).2 ++ delimiter isBlock :: '}' :: more, line'⟩) := by
  intro hfault
  have hlength := length_takeControl inner
  have hsize : part.source.length = inner.length + 4 := by simp [hsource]
  rw [List.length_append] at hfuel
  obtain ⟨later, hnoted, hlater, hgoes⟩ :=
    noteTag_balanced (hinner.takeControl.after 0) (by omega) hfault
  refine ⟨later, _, hpart, ?_, hlater, ?_⟩
  · rw [← span_append _ before part.source more line]
    exact hnoted
  · have hoffset : (((takeControl inner).1.reverse ++ [d, '{']) ++ before).length +
        (takeControl inner).2.length + 2 = before.length + part.source.length := by
      simp only [List.length_append, List.length_reverse, List.length_cons, List.length_nil]
      omega
    rw [hoffset] at hgoes
    exact hgoes.mono (Nat.le_succ _)

/-- The lexer goes on behind a part whose end it has found. -/
theorem readsOn_tail (ws : Whitespace) (before more : List Char) (part : Part)
    (before' : List Char) {kind : SpanKind} (hpart : part.kind? = some kind)
    (hfuel : 2 * (part.source ++ more).length ≤ fuel)
    (hbefore : before'.length = before.length + part.source.length) (hsize : 2 ≤ part.source.length)
    (end_ : Control) (line line' : Nat) (lexed : List Span × Lexed → Lexed)
    (hlexed : ∀ later, (lexed later).fault = later.2.fault) :
    let noted := noteText ws fuel (tail ws end_ ⟨before', more, line'⟩).2
      (tail ws end_ ⟨before', more, line'⟩).1
    ReadsOn ws (fuel + 1) before part more
      ((⟨before, part.source ++ more, line⟩ : Cursor).span kind more :: noted.1, lexed noted) := by
  intro noted hfault
  rw [List.length_append] at hfuel
  refine ⟨noted, kind, hpart, ?_, (hlexed noted).symm.trans hfault, ?_⟩
  · rw [span_append]
  · exact goesOn_tail (Nat.lt_succ_self _) (by omega) hbefore end_ line'

theorem splitAtFirst_takeControl {tail : List Char}
    (h : ∀ more, Text.splitAtFirst ['#', '}'] (tail ++ ['#', '}'] ++ more) = some (tail, more))
    (more : List Char) :
    Text.splitAtFirst ['#', '}'] ((takeControl tail).2 ++ '#' :: '}' :: more) =
      some ((takeControl tail).2, more) := by
  have hmore := h more
  rw [List.append_assoc] at hmore
  cases tail with
  | nil => exact hmore
  | cons x tail =>
      rw [takeControl]
      split
      · rename_i hx
        have hne : '#' ≠ x := by
          rintro rfl
          cases hx
        rw [List.cons_append, Text.splitAtFirst, Text.dropHead?_cons_of_ne hne] at hmore
        obtain ⟨⟨before, after⟩, hlater, heq⟩ := Option.map_eq_some_iff.mp hmore
        cases heq
        exact hlater
      · exact hmore

/-- A comment is read to the sign that closes it, which is not the one that opens it. -/
theorem Part.readsOn_comment {text : List Char}
    (hsplit : ∀ more, Text.splitAtFirst ['#', '}'] (text ++ ['#', '}'] ++ more) = some (text, more))
    (hfuel : 2 * ((comment ('#' :: text)).source ++ more).length ≤ fuel) :
    ReadsOn ws (fuel + 1) before (comment ('#' :: text)) more
      (noteMarker ws (fuel + 1) .comment
        (control (((comment ('#' :: text)).source ++ more).drop 2).head?)
        ⟨before, (comment ('#' :: text)).source ++ more, line⟩) := by
  have hshape : (comment ('#' :: text)).source ++ more =
      '{' :: '#' :: (text ++ '#' :: '}' :: more) := by simp [source]
  have hsize : (comment ('#' :: text)).source.length = text.length + 4 := by simp [source]
  have hlength := length_takeControl text
  obtain ⟨line', hadvance⟩ :=
    advance_control '{' '#' (e := '#') rfl before text ('}' :: more) line
  generalize hopened : (takeControl text).1.reverse ++ ['#', '{'] ++ before = opened at hadvance
  have hbefore : opened.length = (takeControl text).1.length + 2 + before.length := by
    simp [← hopened]
    omega
  have hmove := Cursor.moveTo_append opened ((takeControl text).2 ++ ['#', '}']) more line'
  rw [List.append_assoc] at hmove
  have hread := readsOn_tail ws before more (comment ('#' :: text))
    (((takeControl text).2 ++ ['#', '}']).reverse ++ opened) rfl hfuel
    (by simp [hsize]; omega) (by omega)
  rw [hshape] at hread ⊢
  rw [noteMarker]
  simp only [List.cons_append, List.nil_append] at hmove
  simp only [List.drop_succ_cons, List.drop_zero, hadvance,
    splitAtFirst_takeControl hsplit more, hmove]
  exact hread _ line _ (fun later => later.2) fun _ => rfl

theorem Part.readsOn_expression {inner : List Char} (h : Balanced inner)
    (hfuel : 2 * ((expression inner).source ++ more).length ≤ fuel) :
    ReadsOn ws (fuel + 1) before (expression inner) more
      (noteMarker ws (fuel + 1) .expression
        (control (((expression inner).source ++ more).drop 2).head?)
        ⟨before, (expression inner).source ++ more, line⟩) := by
  have hshape : (expression inner).source ++ more =
      '{' :: '{' :: (inner ++ delimiter false :: '}' :: more) := by
    simp [source, delimiter]
  obtain ⟨line', hadvance⟩ :=
    advance_control '{' '{' (e := delimiter false) rfl before inner ('}' :: more) line
  have hread := readsOn_tag ws before more false '{' (.expression inner) rfl rfl h hfuel line line'
  rw [hshape] at hread ⊢
  rw [noteMarker]
  simp only [List.drop_succ_cons, List.drop_zero, hadvance]
  exact hread

/-- A block tag is read to its delimiter, since its name does not begin a raw section. -/
theorem Part.readsOn_block {inner : List Char} (h : Balanced inner)
    (hname : tagName inner ≠ "raw".toList)
    (hfuel : 2 * ((block inner).source ++ more).length ≤ fuel) :
    ReadsOn ws (fuel + 1) before (block inner) more
      (noteMarker ws (fuel + 1) .block
        (control (((block inner).source ++ more).drop 2).head?)
        ⟨before, (block inner).source ++ more, line⟩) := by
  have hshape : (block inner).source ++ more =
      '{' :: '%' :: (inner ++ delimiter true :: '}' :: more) := by
    simp [source, delimiter]
  obtain ⟨line', hadvance⟩ :=
    advance_control '{' '%' (e := delimiter true) rfl before inner ('}' :: more) line
  have hread := readsOn_tag ws before more true '%' (.block inner) rfl rfl h hfuel line line'
  have hbasic : basicTag? "raw".toList false
      ((takeControl inner).2 ++ delimiter true :: '}' :: more) = none := by
    cases hfound : basicTag? "raw".toList false
        ((takeControl inner).2 ++ delimiter true :: '}' :: more) with
    | none => rfl
    | some found => exact absurd (tagName_of_basicTag? (by decide) hfound) hname
  rw [hshape] at hread ⊢
  rw [noteMarker]
  simp only [List.drop_succ_cons, List.drop_zero, hadvance, hbasic]
  exact hread

/-- A raw section is read to the end of its closing tag. -/
theorem Part.readsOn_raw {inner section_ : List Char} (hword : basicWord inner = "raw".toList)
    (hend : ∃ run end_ next, rawEnd? (section_ ++ more) = some (run, end_, next, more))
    (hfuel : 2 * ((raw inner section_).source ++ more).length ≤ fuel) :
    ReadsOn ws (fuel + 1) before (raw inner section_) more
      (noteMarker ws (fuel + 1) .block
        (control (((raw inner section_).source ++ more).drop 2).head?)
        ⟨before, (raw inner section_).source ++ more, line⟩) := by
  have hshape : (raw inner section_).source ++ more =
      '{' :: '%' :: (inner ++ '%' :: '}' :: (section_ ++ more)) := by simp [source]
  have hsize : (raw inner section_).source.length = inner.length + section_.length + 4 := by
    simp [source]
    omega
  have hlength := length_takeControl inner
  obtain ⟨line', hadvance⟩ :=
    advance_control '{' '%' (e := '%') rfl before inner ('}' :: (section_ ++ more)) line
  obtain ⟨start, hbasic⟩ := basicTag?_of_basicWord (by decide) hword (section_ ++ more)
  obtain ⟨run, end_, next, hraw⟩ := hend
  generalize hopened : (takeControl inner).1.reverse ++ ['%', '{'] ++ before = opened
    at hadvance
  have hbefore : opened.length = (takeControl inner).1.length + 2 + before.length := by
    simp [← hopened]
    omega
  have hmove := Cursor.moveTo_append opened ((takeControl inner).2 ++ ['%', '}'])
    (section_ ++ more) line'
  have hmove' := Cursor.moveTo_append (((takeControl inner).2 ++ ['%', '}']).reverse ++ opened)
    section_ more (line' + Text.newlines ((takeControl inner).2 ++ ['%', '}']))
  rw [List.append_assoc] at hmove
  have hread := readsOn_tail ws before more (raw inner section_)
    (section_.reverse ++ (((takeControl inner).2 ++ ['%', '}']).reverse ++ opened))
    rfl hfuel (by simp [hsize]; omega) (by omega)
  rw [hshape] at hread ⊢
  rw [noteMarker]
  simp only [List.cons_append, List.nil_append] at hmove hmove'
  simp only [List.drop_succ_cons, List.drop_zero, hadvance, hbasic, hmove, hraw, hmove']
  exact hread _ line _ (fun later => put _ _ later.2) fun _ => rfl

/-- The lexer reads a part that it can read where the part stands. -/
theorem Part.Readable.readsOn {part : Part} (h : part.Readable) {m : Marker}
    (hm : part.marker? = some m) (hfuel : 2 * (part.source ++ more).length + 1 ≤ fuel) :
    ReadsOn ws fuel before part more
      (noteMarker ws fuel m (control ((part.source ++ more).drop 2).head?)
        ⟨before, part.source ++ more, line⟩) := by
  obtain ⟨fuel, rfl⟩ : ∃ f, fuel = f + 1 := ⟨fuel - 1, by omega⟩
  have hfuel := Nat.le_of_succ_le_succ hfuel
  cases part with
  | literal c => cases hm
  | comment inner =>
      cases hm
      obtain ⟨text, rfl, hsplit⟩ := h
      exact Part.readsOn_comment hsplit hfuel
  | expression inner =>
      cases hm
      exact Part.readsOn_expression h hfuel
  | block inner =>
      cases hm
      exact Part.readsOn_block h.1 h.2 hfuel
  | raw inner section_ =>
      cases hm
      exact Part.readsOn_raw h.1 (h.2.2 more) hfuel

/-! ### A sequence of parts -/

/-- No part joins what follows it. -/
def Apart : List Part → Prop
  | [] => True
  | part :: parts => ¬Joins part.source (parts.flatMap Part.source) ∧ Apart parts

/-- The source of a part that is no character begins as its kind of tag does. -/
theorem Part.Readable.source_eq {part : Part} (h : part.Readable) :
    (∃ c, part = .literal c) ∨
      ∃ m tail, part.marker? = some m ∧ part.source = '{' :: tail ∧
        ∀ more, Lexer.marker? (part.source ++ more) = some m := by
  cases part with
  | literal c => exact .inl ⟨c, rfl⟩
  | comment inner =>
      obtain ⟨tail, rfl, -⟩ := h
      exact .inr ⟨_, _, rfl, rfl, fun _ => rfl⟩
  | block inner => exact .inr ⟨_, _, rfl, rfl, fun _ => rfl⟩
  | raw inner section_ => exact .inr ⟨_, _, rfl, rfl, fun _ => rfl⟩
  | expression inner => exact .inr ⟨_, _, rfl, rfl, fun _ => rfl⟩

/-- Text without an opening brace is made of characters outside tags. -/
theorem exists_of_not_mem {parts : List Part} (hready : ∀ p ∈ parts, p.Readable)
    {skipped rest : List Char} (hskipped : '{' ∉ skipped)
    (h : parts.flatMap Part.source = skipped ++ rest) :
    ∃ later, parts = skipped.map .literal ++ later ∧ rest = later.flatMap Part.source := by
  induction skipped generalizing parts with
  | nil => exact ⟨parts, rfl, h.symm⟩
  | cons d skipped ih =>
      rw [List.mem_cons, not_or] at hskipped
      cases parts with
      | nil => cases h
      | cons part parts =>
          rw [List.forall_mem_cons] at hready
          rw [List.flatMap_cons] at h
          rcases hready.1.source_eq with ⟨c, rfl⟩ | ⟨_, tail, -, hsource, -⟩
          · obtain ⟨rfl, htail⟩ := List.cons.inj h
            obtain ⟨later, rfl, hrest⟩ := ih hready.2 hskipped.2 htail
            exact ⟨later, rfl, hrest⟩
          · rw [hsource] at h
            exact absurd (List.cons.inj h).1 hskipped.1

theorem Apart.of_append {parts later : List Part} (h : Apart (parts ++ later)) : Apart later := by
  induction parts with
  | nil => exact h
  | cons part parts ih => exact ih h.2

theorem spans_literals (look : Part → List Char) (hlook : ∀ c, look (.literal c) = [c])
    (offset : Nat) (run : List Char) (parts : List Part) :
    Part.spans look offset (run.map .literal ++ parts) =
      Part.spans look (offset + run.length) parts := by
  induction run generalizing offset with
  | nil => rfl
  | cons c run ih =>
      rw [List.map_cons, List.cons_append, Part.spans, Part.kind?]
      dsimp only
      rw [hlook, ih, List.length_singleton, List.length_cons, Nat.add_assoc, Nat.add_comm 1]

theorem marker?_of_not_joins {c : Char} {text : List Char} (h : ¬Joins [c] text) :
    Lexer.marker? (c :: text) = none := by
  by_cases hc : c = '{'
  · subst hc
    unfold Lexer.marker?
    split
    · exact absurd ⟨rfl, '{', by decide, by simp_all⟩ h
    · exact absurd ⟨rfl, '%', by decide, by simp_all⟩ h
    · exact absurd ⟨rfl, '#', by decide, by simp_all⟩ h
    · rfl
  · exact marker?_of_ne hc text

/-- The text in front of the first tag. -/
theorem exists_findMarker {parts : List Part} (hready : ∀ p ∈ parts, p.Readable)
    (hapart : Apart parts) :
    ∃ lead later, parts = lead.map .literal ++ later ∧
      findMarker (parts.flatMap Part.source) = (lead, later.head?.bind Part.marker?) ∧
      ∀ part ∈ later.head?, part.marker?.isSome = true := by
  induction parts with
  | nil => exact ⟨[], [], rfl, rfl, fun _ h => absurd h (by simp)⟩
  | cons part parts ih =>
      rw [List.forall_mem_cons] at hready
      rcases hready.1.source_eq with ⟨c, rfl⟩ | ⟨m, tail, hm, hsource, hmarker⟩
      · obtain ⟨lead, later, hparts, hfind, hlater⟩ := ih hready.2 hapart.2
        refine ⟨c :: lead, later, by rw [hparts]; rfl, ?_, hlater⟩
        rw [List.flatMap_cons, Part.source, List.singleton_append, findMarker,
          marker?_of_not_joins hapart.1]
        simp only [hfind]
      · refine ⟨[], part :: parts, rfl, ?_, fun _ hmem => ?_⟩
        · have hfirst := hmarker (parts.flatMap Part.source)
          rw [List.flatMap_cons]
          rw [hsource] at hfirst ⊢
          rw [List.cons_append] at hfirst ⊢
          rw [findMarker, hfirst, List.head?_cons, Option.bind_some, hm]
        · cases hmem
          rw [hm]
          rfl

/-- The white space that is trimmed off is made of characters outside tags. -/
theorem exists_trim {parts : List Part} (hready : ∀ p ∈ parts, p.Readable) (trim : Bool)
    (before : List Char) (line : Nat) :
    ∃ (skipped : List Char) (later : List Part) (line' : Nat),
      parts = skipped.map .literal ++ later ∧
      (if trim then (⟨before, parts.flatMap Part.source, line⟩ : Cursor).moveTo
          (Text.trimStart (parts.flatMap Part.source))
        else ⟨before, parts.flatMap Part.source, line⟩) =
      ⟨skipped.reverse ++ before, later.flatMap Part.source, line'⟩ := by
  cases trim with
  | false => exact ⟨[], parts, line, rfl, rfl⟩
  | true =>
      obtain ⟨skipped, htext, hspace⟩ := Text.exists_append_trimStart (parts.flatMap Part.source)
      obtain ⟨later, hparts, hlater⟩ := exists_of_not_mem hready
        (fun hmem => absurd (hspace _ hmem) (by decide)) htext
      have hmove := Cursor.moveTo_append before skipped
        (Text.trimStart (parts.flatMap Part.source)) line
      rw [← htext] at hmove
      exact ⟨skipped, later, _, hparts, by rw [if_pos rfl, hmove, hlater]⟩

theorem fault_ite_put (p : Prop) [Decidable p] (token : Token) (line : Nat) (lexed : Lexed) :
    (if p then lexed else put token line lexed).fault = lexed.fault := by
  split <;> rfl

theorem flatMap_literals (run : List Char) (parts : List Part) :
    (run.map Part.literal ++ parts).flatMap Part.source = run ++ parts.flatMap Part.source := by
  induction run with
  | nil => rfl
  | cons c run ih =>
      rw [List.map_cons, List.cons_append, List.flatMap_cons, ih]
      rfl

theorem advance_literals (before run : List Char) (parts : List Part) (line : Nat) :
    (⟨before, (run.map Part.literal ++ parts).flatMap Part.source, line⟩ : Cursor).advance
        run.length =
      ⟨run.reverse ++ before, parts.flatMap Part.source, line + Text.newlines run⟩ := by
  rw [flatMap_literals]
  simp [Cursor.advance]

/-- Reading a sequence of parts, the lexer finds every one of them that is no character outside
tags, and nothing else. -/
theorem noteText_parts {parts : List Part} (hready : ∀ p ∈ parts, p.Readable)
    (hapart : Apart parts) (trim : Bool)
    (hfuel : 2 * (parts.flatMap Part.source).length + 2 ≤ fuel)
    (hfault : (noteText ws fuel trim ⟨before, parts.flatMap Part.source, line⟩).2.fault = none) :
    (noteText ws fuel trim ⟨before, parts.flatMap Part.source, line⟩).1 =
      Part.spans Part.source before.length parts := by
  induction fuel using Nat.strongRecOn generalizing parts trim before line with
  | ind fuel ih =>
      obtain ⟨fuel, rfl⟩ : ∃ f, fuel = f + 1 := ⟨fuel - 1, by omega⟩
      obtain ⟨skipped, parts, line₁, rfl, htrim⟩ := exists_trim hready trim before line
      have hready₁ : ∀ p ∈ parts, p.Readable := fun p hp => hready p (List.mem_append_right _ hp)
      obtain ⟨lead, later, rfl, hfind, hlater⟩ := exists_findMarker hready₁ hapart.of_append
      rw [spans_literals _ (fun _ => rfl), spans_literals _ (fun _ => rfl)]
      rw [noteText] at hfault ⊢
      simp only [htrim, hfind] at hfault ⊢
      cases later with
      | nil => rfl
      | cons part parts =>
          obtain ⟨m, hm⟩ := Option.isSome_iff_exists.mp (hlater part rfl)
          obtain ⟨hpart, hready₂⟩ := List.forall_mem_cons.mp fun p hp =>
            hready₁ p (List.mem_append_right _ hp)
          have hadvance := advance_literals (skipped.reverse ++ before) lead (part :: parts) line₁
          simp only [hadvance, List.head?_cons, Option.bind_some, hm] at hfault ⊢
          rw [List.flatMap_cons] at hfault ⊢
          rw [fault_ite_put] at hfault
          rw [flatMap_literals, flatMap_literals, List.flatMap_cons, List.length_append,
            List.length_append] at hfuel
          -- The lexer reads the part as a whole and goes on behind it, with fewer steps left.
          obtain ⟨noted, kind, hkind, hnoted, hfault', hgoes⟩ := hpart.readsOn hm (by omega) hfault
          obtain ⟨fuel', trim', passed, rest, before', line', hlt, hle, hrest, hpassed, hbefore',
            rfl⟩ := hgoes
          -- What it passes over has no opening brace, so it consists of characters outside tags.
          obtain ⟨later, rfl, rfl⟩ := exists_of_not_mem hready₂ hpassed hrest
          have hlast := ih fuel' (by omega) (fun p hp => hready₂ p (List.mem_append_right _ hp))
            hapart.of_append.of_append.2.of_append trim' hle hfault'
          rw [hnoted, hlast, Part.spans, hkind, spans_literals _ (fun _ => rfl), hbefore']
          simp only [List.length_append, List.length_reverse]
          have hstart : lead.length + (skipped.length + before.length) =
              before.length + skipped.length + lead.length := by omega
          rw [hstart]

/-! ### A whole source -/

/-- The last character of a part that is no character outside tags. -/
theorem Part.Readable.exists_last {part : Part} (h : part.Readable) :
    (∃ c, part = .literal c) ∨ ∃ run, part.source = run ++ ['}'] := by
  cases part with
  | literal c => exact .inl ⟨c, rfl⟩
  | comment inner => exact .inr ⟨'{' :: inner ++ ['#'], by simp [source]⟩
  | block inner => exact .inr ⟨'{' :: '%' :: inner ++ ['%'], by simp [source]⟩
  | raw inner section_ =>
      obtain ⟨run, rfl⟩ := h.2.1
      exact .inr ⟨'{' :: '%' :: inner ++ ['%', '}'] ++ run, by simp [source]⟩
  | expression inner => exact .inr ⟨'{' :: '{' :: inner ++ ['}'], by simp [source]⟩

/-- The end of a source is made of characters outside tags up to the last closing brace. -/
theorem exists_of_last {parts : List Part} (hready : ∀ p ∈ parts, p.Readable)
    {text dropped : List Char} (hdropped : '}' ∉ dropped)
    (h : parts.flatMap Part.source = text ++ dropped) :
    ∃ earlier, parts = earlier ++ dropped.map .literal ∧ text = earlier.flatMap Part.source := by
  induction dropped using List.reverseRecOn generalizing parts with
  | nil => exact ⟨parts, by simp, by simpa using h.symm⟩
  | append_singleton dropped c ih =>
      rw [List.mem_append, not_or, List.mem_singleton] at hdropped
      rw [← List.append_assoc] at h
      rcases List.eq_nil_or_concat parts with rfl | ⟨parts, part, rfl⟩
      · simp at h
      rw [List.concat_eq_append] at hready h ⊢
      obtain ⟨hparts, hpart⟩ := List.forall_mem_append.mp hready
      rw [List.flatMap_append, List.flatMap_singleton] at h
      rcases (hpart part List.mem_cons_self).exists_last with ⟨d, rfl⟩ | ⟨run, hrun⟩
      · obtain ⟨htext, hc⟩ := List.append_inj' h rfl
        cases hc
        obtain ⟨earlier, rfl, rfl⟩ := ih hparts hdropped.1 htext
        exact ⟨earlier, by simp, rfl⟩
      · rw [hrun, ← List.append_assoc] at h
        obtain ⟨-, hc⟩ := List.append_inj' h rfl
        exact absurd (List.cons.inj hc).1 hdropped.2

theorem Apart.of_append_left {parts later : List Part} (h : Apart (parts ++ later)) :
    Apart parts := by
  induction parts with
  | nil => trivial
  | cons part parts ih =>
      obtain ⟨hjoin, hlater⟩ := h
      refine ⟨fun hjoin' => hjoin ?_, ih hlater⟩
      obtain ⟨hlast, c, hc, hhead⟩ := hjoin'
      refine ⟨hlast, c, hc, ?_⟩
      have hflat : (parts ++ later).flatMap Part.source =
          parts.flatMap Part.source ++ later.flatMap Part.source := List.flatMap_append
      exact (congrArg List.head? hflat).trans (by rw [List.head?_append, hhead]; rfl)

theorem spans_append_literals (look : Part → List Char) (offset : Nat) (parts : List Part)
    (run : List Char) :
    Part.spans look offset (parts ++ run.map .literal) = Part.spans look offset parts := by
  induction parts generalizing offset with
  | nil =>
      induction run generalizing offset with
      | nil => rfl
      | cons c run ih => exact ih _
  | cons part parts ih => rw [List.cons_append, Part.spans, Part.spans, ih]

/-- The text behind its first character, if that is `c`. -/
def dropOne (c : Char) (text : List Char) : List Char :=
  if text.head? = some c then text.tail else text

theorem exists_dropOne {c : Char} (hc : c ≠ '}') (text : List Char) :
    ∃ dropped, text = dropped ++ dropOne c text ∧ '}' ∉ dropped := by
  rw [dropOne]
  split
  · rename_i hhead
    obtain ⟨rest, rfl⟩ := List.head?_eq_some_iff.mp hhead
    exact ⟨[c], rfl, by simpa using Ne.symm hc⟩
  · exact ⟨[], rfl, List.not_mem_nil⟩

theorem dropFinalBreak_eq (source : List Char) :
    dropFinalBreak source = (dropOne '\r' (dropOne '\n' source.reverse)).reverse := by
  rw [dropFinalBreak]
  cases source.reverse with
  | nil => rfl
  | cons d rest =>
      by_cases hd : d = '\n'
      · cases rest with
        | nil => simp [dropOne, hd]
        | cons e rest => by_cases he : e = '\r' <;> simp [dropOne, hd, he]
      · by_cases hd' : d = '\r' <;> simp [dropOne, hd, hd']

/-- What `dropFinalBreak` drops. -/
theorem exists_dropFinalBreak (source : List Char) :
    ∃ dropped, source = dropFinalBreak source ++ dropped ∧ '}' ∉ dropped := by
  obtain ⟨first, hfirst, hfirst'⟩ := exists_dropOne (c := '\n') (by decide) source.reverse
  obtain ⟨second, hsecond, hsecond'⟩ :=
    exists_dropOne (c := '\r') (by decide) (dropOne '\n' source.reverse)
  refine ⟨(first ++ second).reverse, ?_, ?_⟩
  · rw [dropFinalBreak_eq, ← List.reverse_append, List.append_assoc, ← hsecond, ← hfirst,
      List.reverse_reverse]
  · rw [List.mem_reverse, List.mem_append, not_or]
    exact ⟨hfirst', hsecond'⟩

/-- In a source made of parts that can be read the lexer finds the parts. -/
theorem spans_parts {parts : List Part} (hready : ∀ p ∈ parts, p.Readable) (hapart : Apart parts)
    (hfault : (lex ws (parts.flatMap Part.source)).fault = none) :
    Template.spans ws (parts.flatMap Part.source) = Part.spans Part.source 0 parts := by
  have hnote := note_eq ws (parts.flatMap Part.source)
  rw [note] at hnote
  obtain ⟨earlier, dropped, hparts, hsource⟩ : ∃ (earlier : List Part) (dropped : List Char),
      parts = earlier ++ dropped.map .literal ∧
      (if ws.keepTrailingNewline then parts.flatMap Part.source
        else dropFinalBreak (parts.flatMap Part.source)) = earlier.flatMap Part.source := by
    split
    · exact ⟨parts, [], by simp, rfl⟩
    · obtain ⟨dropped, htext, hdropped⟩ := exists_dropFinalBreak (parts.flatMap Part.source)
      obtain ⟨earlier, hparts, htext⟩ := exists_of_last hready hdropped htext
      exact ⟨earlier, dropped, hparts, htext⟩
  have hready' : ∀ p ∈ earlier, p.Readable := fun p hp =>
    hready p (hparts ▸ List.mem_append_left _ hp)
  have hapart' : Apart earlier := Apart.of_append_left (hparts ▸ hapart)
  rw [hsource] at hnote
  have hfault' : (noteText ws (2 * (earlier.flatMap Part.source).length + 4) false
      (.start (earlier.flatMap Part.source))).2.fault = none := by
    rw [hnote]
    exact hfault
  have hfound := noteText_parts hready' hapart' false (by omega) hfault'
  rw [← Cursor.start, hnote] at hfound
  rw [hparts, spans_append_literals, ← hparts]
  exact hfound

end Instrument

end QueryTemplate
