import QueryTemplate.Proofs.ByteScanning

/-!
Instrumenting a source by byte positions ends, and it takes no slice that is out of range or cuts a
character, with one exception: a raw section in which the delimiters of a tag overlap. The result is
that of instrumenting the source by characters.
-/

namespace QueryTemplate

namespace BytePositions

open Ending Text Instrument Template Lexer

variable {c : Char} {rounds : Nat} {front rest : List Char}

theorem length_le_byteLength (text : List Char) : text.length ≤ byteLength text := by
  induction text with
  | nil => exact Nat.le_refl _
  | cons c text ih =>
      have hpos := c.utf8Size_pos
      rw [List.length_cons, byteLength_cons]
      omega

theorem lineAt_eq (front rest : List Char) :
    lineAt (front ++ rest) (byteLength front) = returns (1 + newlines front) := by
  have hsplit : front ++ rest = [] ++ (front ++ rest) := rfl
  have hslice : slice (front ++ rest) 0 (byteLength front) = returns front :=
    slice_of_eq_append hsplit rfl (Nat.zero_add _).symm
  rw [lineAt, hslice, Nat.add_comm]
  rfl

theorem copyTo_eq {source : List Char} {end_ : Nat} (front part after out : List Char)
    (hsource : source = front ++ (part ++ after)) (hend : end_ = byteLength front + byteLength part) :
    copyTo source (byteLength front) end_ out =
      returns (.inl ⟨byteLength (front ++ part), out ++ part⟩) := by
  rw [copyTo, slice_of_eq_append hsource rfl hend, hend, ← byteLength_append]
  rfl

/-- How a round ends, given the part of the source that is next. -/
def endingOfPart (front out : List Char) :
    Except MarkupError (Part × List Char) → Ending (State ⊕ Except MarkupError (List Char))
  | .ok (part, _) => returns (.inl ⟨byteLength (front ++ part.source), out ++ part.written⟩)
  | .error .overlappingTag => panics
  | .error e => returns (.inr (.error e))

theorem commentAt_eq (front body out : List Char) :
    commentAt (front ++ '{' :: '#' :: body) (byteLength front) ('{' :: '#' :: body) out =
      endingOfPart front out (firstPart (1 + newlines front) '{' ('#' :: body)) := by
  have hopen : splitAtFirst ['#', '}'] ('{' :: '#' :: body) =
      (splitAtFirst ['#', '}'] ('#' :: body)).map fun found => ('{' :: found.1, found.2) := by
    rw [splitAtFirst, dropHead?_cons_of_ne (by decide)]
  rw [commentAt, lineAt_eq, firstPart, find, hopen, Option.map_map]
  cases hsplit : splitAtFirst ['#', '}'] ('#' :: body) with
  | none => rfl
  | some found =>
      obtain ⟨inner, after⟩ := found
      obtain ⟨hbody, -⟩ := splitAtFirst_eq_some (by simp) hsplit
      refine copyTo_eq front ('{' :: inner ++ ['#', '}']) after out ?_ ?_
      · rw [hbody]
        simp
      · rw [byteLength_append, ← Nat.add_assoc]
        rfl

/-- The source up to the end of a tag, as a slice. -/
theorem slice_tag {source : List Char} {end_ : Nat} {front tag after : List Char}
    (hsource : source = front ++ (tag ++ after)) (hend : end_ = byteLength tag) :
    slice source (byteLength front) (byteLength front + end_) = returns tag :=
  slice_of_eq_append hsource rfl (by rw [hend])

theorem rawEnd_eq {source after : List Char} (front : List Char) (h : after.length < rounds)
    (hsource : source = front ++ after) :
    rawEnd rounds source (byteLength front) = endingOf front (endOfRaw after) := by
  rw [rawEnd, hsource]
  exact loop_rawRound front h

theorem blockAt_eq {body : List Char} (h : byteLength body < rounds) (front out : List Char) :
    blockAt rounds (front ++ '{' :: '%' :: body) (byteLength front) ('{' :: '%' :: body) out =
      endingOfPart front out (firstPart (1 + newlines front) '{' ('%' :: body)) := by
  rw [blockAt, closeOf_eq (.inl rfl) rfl h, lineAt_eq, firstPart]
  cases hclose : Instrument.closeOf '%' 0 none body with
  | none => rfl
  | some found =>
      obtain ⟨inner, after⟩ := found
      obtain ⟨hbody, -⟩ := closeOf_eq_some (.inl rfl) hclose
      let tag := '{' :: '%' :: inner ++ ['%', '}']
      have hsource : front ++ '{' :: '%' :: body = front ++ (tag ++ after) := by
        rw [hbody]
        simp [tag]
      have htag : byteLength ('{' :: '%' :: inner) + 2 = byteLength tag :=
        (byteLength_append ('{' :: '%' :: inner) ['%', '}']).symm
      have hshort : after.length < rounds := by
        have hlength := length_le_byteLength body
        rw [hbody, List.length_append, List.length_cons, List.length_cons, ← hbody] at hlength
        omega
      have hraw := rawEnd_eq (front ++ tag) hshort (hsource.trans (List.append_assoc ..).symm)
      rw [byteLength_append] at hraw
      simp only [Option.map_some, returns_bind, slice_tag hsource htag, tagName_eq, tag]
      by_cases hname : Instrument.tagName inner = "raw".toList
      · rw [if_pos hname, if_pos hname, htag, hraw]
        cases hend : endOfRaw after with
        | missing => rfl
        | overlapping => rfl
        | found section_ after' =>
            obtain ⟨hafter, -⟩ := endOfRaw_found hend
            refine copyTo_eq front (tag ++ section_) after' out ?_ ?_
            · rw [hsource, hafter, List.append_assoc tag]
            · rw [← byteLength_append, List.append_assoc]
      · rw [if_neg hname, if_neg hname]
        exact copyTo_eq front tag after out hsource (by rw [htag])

theorem expressionAt_eq {body : List Char} (h : byteLength body < rounds) (front out : List Char) :
    expressionAt rounds (front ++ '{' :: '{' :: body) (byteLength front) ('{' :: '{' :: body) out =
      endingOfPart front out (firstPart (1 + newlines front) '{' ('{' :: body)) := by
  rw [expressionAt, closeOf_eq (.inr rfl) rfl h, lineAt_eq, firstPart]
  cases hclose : Instrument.closeOf '}' 0 none body with
  | none => rfl
  | some found =>
      obtain ⟨inner, after⟩ := found
      obtain ⟨hbody, -⟩ := closeOf_eq_some (.inr rfl) hclose
      let tag := '{' :: '{' :: inner ++ ['}', '}']
      have hsource : front ++ '{' :: '{' :: body = front ++ (tag ++ after) := by
        rw [hbody]
        simp [tag]
      have htag : byteLength ('{' :: '{' :: inner) + 2 = byteLength tag :=
        (byteLength_append ('{' :: '{' :: inner) ['}', '}']).symm
      have hshort : inner.length < rounds := by
        have hlength := length_le_byteLength body
        rw [hbody, List.length_append, ← hbody] at hlength
        omega
      simp only [Option.map_some, returns_bind, slice_tag hsource htag, tag,
        rewriteExpression_eq hshort]
      cases hexpr : expressionTag inner with
      | none => rfl
      | some written =>
          rw [htag, ← byteLength_append]
          simp [endingOfPart, Part.source, Part.written, hexpr, tag]

/-- A tag is handled as by the scanner over characters. -/
theorem tagAt_eq {m : Marker} (hmarker : marker? (c :: rest) = some m)
    (h : byteLength (c :: rest) < rounds) (front out : List Char) :
    tagAt rounds (front ++ c :: rest) (byteLength front) out =
      endingOfPart front out (firstPart (1 + newlines front) c rest) := by
  have hslice (tail : List Char) : sliceFrom (front ++ tail) (byteLength front) = returns tail :=
    sliceFrom_of_eq_append rfl rfl
  have hbody {d : Char} {body : List Char} (h : byteLength ('{' :: d :: body) < rounds) :
      byteLength body < rounds := by
    rw [byteLength_cons, byteLength_cons] at h
    omega
  rw [tagAt, hslice, returns_bind]
  unfold marker? at hmarker
  split at hmarker
  · rename_i body heq
    cases heq
    exact expressionAt_eq (hbody h) front out
  · rename_i body heq
    cases heq
    exact blockAt_eq (hbody h) front out
  · rename_i body heq
    cases heq
    exact commentAt_eq front body out
  · cases hmarker

theorem firstPart_literal (h : marker? (c :: rest) = none) (line : Nat) :
    firstPart line c rest = .ok (.literal c, rest) := by
  rw [firstPart]
  all_goals
    rintro body rfl rfl
    cases h

theorem instrumentFrom_of_le {fuel line : Nat} {text : List Char} (h : text.length ≤ fuel) :
    instrumentFrom fuel line text = instrumentFrom text.length line text := by
  rw [instrumentFrom_eq, instrumentFrom_eq, partsFrom_of_le h (Nat.le_refl _)]

/-- What is in front of the first tag is instrumented character by character. -/
theorem instrumentFrom_lead {lead : List Char} {m : Option Marker}
    (h : findMarker rest = (lead, m)) :
    ∃ more, rest = lead ++ more ∧ marker? more = m ∧ (m = none → more = []) ∧
      ∀ line, instrumentFrom rest.length line rest =
        (instrumentFrom more.length (line + newlines lead) more).map (lead ++ ·) := by
  have hstay (found : Except MarkupError (List Char)) : found = found.map ([] ++ ·) := by
    cases found <;> rfl
  induction rest generalizing lead with
  | nil =>
      cases h
      exact ⟨[], rfl, rfl, fun _ => rfl, fun line => hstay _⟩
  | cons c rest ih =>
      rw [findMarker] at h
      split at h
      · rename_i kind hmarker
        cases h
        exact ⟨c :: rest, rfl, hmarker, (absurd · (Option.some_ne_none kind)), fun line => hstay _⟩
      · rename_i hmarker
        cases hfound : findMarker rest with
        | mk front m' =>
        rw [hfound] at h
        cases h
        obtain ⟨more, rfl, hkind, hnone, hmore⟩ := ih hfound
        have hlines : newlines (c :: front) = newlines [c] + newlines front := newlines_append [c] _
        refine ⟨more, rfl, hkind, hnone, fun line => ?_⟩
        rw [List.length_cons, instrumentFrom_cons, firstPart_literal hmarker]
        simp only [Except.bind, Part.source, Part.written]
        rw [hmore, hlines, Nat.add_assoc]
        cases instrumentFrom more.length (line + (newlines [c] + newlines front)) more <;> rfl

/-- How the program ends, given the result of instrumenting by characters. -/
def endingOfResult : Except MarkupError (List Char) → Ending (Except MarkupError (List Char))
  | .ok text => returns (.ok text)
  | .error .overlappingTag => panics
  | .error e => returns (.error e)

/-- A round without a further tag. -/
theorem sourceRound_none {bound : Nat} {lead : List Char} (h : byteLength lead < bound)
    (hlead : findMarker lead = (lead, none)) (front out : List Char) :
    sourceRound bound (front ++ lead) ⟨byteLength front, out⟩ =
      returns (.inr (.ok (out ++ lead))) := by
  have hslice : sliceFrom (front ++ lead) (byteLength front) = returns lead :=
    sliceFrom_of_eq_append rfl rfl
  have hstart := tagStart_eq front h
  rw [hlead] at hstart
  rw [sourceRound, hstart, returns_bind]
  simp only [Option.map_none, hslice, returns_bind, pure_eq]

/-- A round with the text in front of a tag, and the tag. -/
theorem sourceRound_some {bound : Nat} {lead : List Char} {m : Marker}
    (h : byteLength (lead ++ c :: rest) < bound)
    (hlead : findMarker (lead ++ c :: rest) = (lead, some m)) (hmarker : marker? (c :: rest) = some m)
    (front out : List Char) :
    sourceRound bound (front ++ (lead ++ c :: rest)) ⟨byteLength front, out⟩ =
      endingOfPart (front ++ lead) (out ++ lead)
        (firstPart (1 + newlines (front ++ lead)) c rest) := by
  have hslice : slice (front ++ (lead ++ c :: rest)) (byteLength front)
      (byteLength (front ++ lead)) = returns lead :=
    slice_of_eq_append rfl rfl (byteLength_append front lead)
  have hstart := tagStart_eq front h
  have hshort : byteLength (c :: rest) < bound := by
    rw [byteLength_append] at h
    omega
  rw [hlead] at hstart
  rw [sourceRound, hstart, returns_bind]
  simp only [Option.map_some, hslice, returns_bind]
  rw [← List.append_assoc, tagAt_eq hmarker hshort]

/-- A source is instrumented as by characters, from any position behind one of its parts. -/
theorem loop_sourceRound (front : List Char) {bound : Nat} (hbound : byteLength (front ++ rest) < bound)
    (hrounds : rest.length < rounds) (out : List Char) :
    loop (sourceRound bound (front ++ rest)) rounds ⟨byteLength front, out⟩ =
      endingOfResult ((instrumentFrom rest.length (1 + newlines front) rest).map (out ++ ·)) := by
  induction hlen : rest.length using Nat.strongRecOn generalizing front rest rounds out with
  | ind n ih =>
      subst hlen
      obtain ⟨rounds, rfl⟩ := Nat.exists_eq_add_of_le' (Nat.lt_of_le_of_lt (Nat.zero_le _) hrounds)
      have hrest : byteLength rest < bound := by
        rw [byteLength_append] at hbound
        omega
      -- A round copies the text up to the next marker, and handles the part that begins there.
      cases hfound : findMarker rest with
      | mk lead m =>
      obtain ⟨more, rfl, hkind, hnone, hmore⟩ := instrumentFrom_lead hfound
      rw [hmore]
      cases m with
      | none =>
          obtain rfl : more = [] := hnone rfl
          rw [List.append_nil] at hrest hfound ⊢
          rw [loop_last (sourceRound_none hrest hfound front out)]
          simp [instrumentFrom, Except.map, endingOfResult]
      | some m =>
          cases more with
          | nil => cases hkind
          | cons c tail =>
              have hround := sourceRound_some hrest hfound hkind front out
              rw [List.length_cons, instrumentFrom_cons, Nat.add_assoc 1, ← newlines_append]
              cases hfirst : firstPart (1 + newlines (front ++ lead)) c tail with
              | error e =>
                  rw [hfirst] at hround
                  cases e with
                  | overlappingTag => exact loop_panics hround
                  | _ => exact loop_last hround
              | ok found =>
                  obtain ⟨part, after⟩ := found
                  -- The next round begins behind the part, where less text is left.
                  obtain ⟨htext, -, -⟩ := firstPart_ok hfirst
                  have hafter := length_after_le hfirst
                  rw [hfirst] at hround
                  have hsource : front ++ (lead ++ c :: tail) =
                      (front ++ lead ++ part.source) ++ after := by
                    rw [htext]
                    simp
                  have hshort : after.length < (lead ++ c :: tail).length := by
                    rw [List.length_append, List.length_cons]
                    omega
                  have hnext := ih _ hshort _ (hsource ▸ hbound)
                    (by omega : after.length < rounds) (out ++ lead ++ part.written) rfl
                  rw [← hsource] at hnext
                  refine (loop_next hround).trans (hnext.trans ?_)
                  simp only [Except.bind]
                  rw [instrumentFrom_of_le hafter, Nat.add_assoc 1, ← newlines_append]
                  cases instrumentFrom after.length
                    (1 + newlines (front ++ lead ++ part.source)) after <;> simp [Except.map]

/-- Instrumenting a source by byte positions ends as instrumenting it by characters does, unless the
delimiters of a tag overlap: it stops there at a slice that ends in front of its beginning. -/
theorem instrument_eq {source : List Char} (h : byteLength source < rounds) :
    instrument rounds source = endingOfResult (Instrument.instrument source) := by
  have hlength := length_le_byteLength source
  rw [instrument, findReserved]
  cases hany : source.any isReserved with
  | true =>
      have hsplit := (List.takeWhile_append_dropWhile (p := (!isReserved ·)) (l := source))
      have hline := lineAt_eq (source.takeWhile (!isReserved ·)) (source.dropWhile (!isReserved ·))
      rw [hsplit] at hline
      rw [instrument_of_any hany, if_pos rfl]
      simp only [hline, returns_bind]
      rfl
  | false =>
      have hloop := loop_sourceRound [] h (by omega : source.length < rounds) []
      rw [instrument_of_clean hany, if_neg Bool.false_ne_true]
      refine hloop.trans ?_
      have hstay (found : Except MarkupError (List Char)) : found.map ([] ++ ·) = found := by
        cases found <;> rfl
      rw [hstay]
      rfl

end BytePositions

namespace Instrument

variable {c : Char} {text rest : List Char}

/-! ### Overlapping delimiters -/

/-- Scanned part by part, the text comes to its end part `rest`. -/
inductive Reaches : (text rest : List Char) → Prop where
  | here (text : List Char) : Reaches text text
  | next {c : Char} {text after rest : List Char} {line : Nat} {part : Part}
      (hpart : firstPart line c text = .ok (part, after)) (hrest : Reaches after rest) :
      Reaches (c :: text) rest

/-- A tag that ends a raw section is at the beginning of the text. -/
def BeginsEndraw (text : List Char) : Prop :=
  ∃ inner rest, text = '{' :: '%' :: (inner ++ '%' :: '}' :: rest) ∧
    Text.splitAtFirst ['%', '}'] (inner ++ '%' :: '}' :: rest) = some (inner, rest) ∧
    tagWord inner = "endraw".toList

/-- Behind the first tag of a raw section, the delimiters of a tag overlap and no tag that ends the
section begins in front of them. -/
def OverlapsBeforeEnd (text : List Char) : Prop :=
  ∃ run more, text = run ++ '{' :: '%' :: '}' :: more ∧
    ∀ x back, x :: back <:+ run → ¬BeginsEndraw (x :: back ++ '{' :: '%' :: '}' :: more)

/-- A raw section in which delimiters overlap before its end is at the beginning of the text. -/
def BeginsOverlap (text : List Char) : Prop :=
  ∃ body inner after, text = '{' :: '%' :: body ∧ closeOf '%' 0 none body = some (inner, after) ∧
    tagName inner = "raw".toList ∧ OverlapsBeforeEnd after

/-- Instrumenting the source comes to a raw section in which delimiters overlap before its end. -/
def EntersOverlap (source : List Char) : Prop :=
  source.any isReserved = false ∧ ∃ rest, Reaches source rest ∧ BeginsOverlap rest

theorem rawStep_cases (h : rawStep text ≠ .pass) : ∃ body, text = '{' :: '%' :: body := by
  by_contra hno
  exact h (rawStep_of_ne fun body heq => hno ⟨body, heq⟩)

theorem rawStep_overlapping (h : rawStep text = .overlapping) :
    ∃ more, text = '{' :: '%' :: '}' :: more := by
  obtain ⟨body, rfl⟩ := rawStep_cases (ne_of_eq_of_ne h nofun)
  rw [rawStep_tag] at h
  split at h
  · rename_i hhead
    obtain ⟨more, rfl⟩ := List.head?_eq_some_iff.mp hhead
    exact ⟨more, rfl⟩
  split at h
  · cases h
  split at h <;> cases h

theorem rawStep_missing (h : rawStep text = .missing) :
    ∃ body, text = '{' :: '%' :: body ∧ Text.splitAtFirst ['%', '}'] body = none := by
  obtain ⟨body, rfl⟩ := rawStep_cases (ne_of_eq_of_ne h nofun)
  rw [rawStep_tag] at h
  split at h
  · cases h
  split at h
  · exact ⟨body, rfl, ‹_›⟩
  split at h <;> cases h

theorem beginsEndraw_of_rawStep {tag : List Char} (h : rawStep text = .ends tag rest) :
    BeginsEndraw text := by
  obtain ⟨body, rfl⟩ := rawStep_cases (ne_of_eq_of_ne h nofun)
  rw [rawStep_tag] at h
  split at h
  · cases h
  split at h
  · cases h
  rename_i inner after hsplit
  split at h
  · rename_i hword
    obtain ⟨hbody, -⟩ := Text.splitAtFirst_eq_some (by simp) hsplit
    rw [List.append_assoc] at hbody
    exact ⟨inner, after, by rw [hbody]; rfl, hbody ▸ hsplit, hword⟩
  · cases h

theorem not_beginsEndraw_of_rawStep (h : rawStep text = .pass) : ¬BeginsEndraw text := by
  rintro ⟨inner, rest, rfl, hsplit, hword⟩
  rw [rawStep_tag, hsplit] at h
  split at h
  · cases h
  · simp [hword] at h

theorem overlapsBeforeEnd_of_endOfRaw (h : endOfRaw text = .overlapping) :
    OverlapsBeforeEnd text := by
  induction text with
  | nil => cases h
  | cons c text ih =>
      cases hstep : rawStep (c :: text) with
      | overlapping =>
          obtain ⟨more, hmore⟩ := rawStep_overlapping hstep
          exact ⟨[], more, hmore, fun x back hback => by simp at hback⟩
      | pass =>
          have hrest : endOfRaw text = .overlapping := by
            rw [BytePositions.endOfRaw_of_pass hstep] at h
            cases hend : endOfRaw text <;> simp_all [BytePositions.behind]
          obtain ⟨run, more, rfl, hrun⟩ := ih hrest
          refine ⟨c :: run, more, rfl, fun x back hback => ?_⟩
          rcases List.suffix_cons_iff.mp hback with heq | hback
          · rw [heq]
            exact not_beginsEndraw_of_rawStep hstep
          · exact hrun x back hback
      | _ =>
          rw [endOfRaw, hstep] at h
          cases h

theorem endOfRaw_of_overlapsBeforeEnd (h : OverlapsBeforeEnd text) :
    endOfRaw text = .overlapping := by
  obtain ⟨run, more, rfl, hrun⟩ := h
  induction run with
  | nil => rfl
  | cons c run ih =>
      cases hstep : rawStep (c :: run ++ '{' :: '%' :: '}' :: more) with
      | overlapping =>
          rw [List.cons_append] at hstep ⊢
          rw [endOfRaw, hstep]
      | pass =>
          rw [List.cons_append] at hstep ⊢
          rw [BytePositions.endOfRaw_of_pass hstep,
            ih fun x back hback => hrun x back (hback.trans (List.suffix_cons c run))]
          rfl
      | ends tag rest =>
          exact absurd (beginsEndraw_of_rawStep hstep) (hrun c run List.suffix_rfl)
      | missing =>
          -- The overlapping delimiters end with the mark that is looked for.
          obtain ⟨body, hbody, hnone⟩ := rawStep_missing hstep
          cases run with
          | nil => simp at hbody
          | cons d run =>
              obtain ⟨before, after, hsplit⟩ :=
                Text.splitAtFirst_append (by simp : ['%', '}'] ≠ []) (run ++ ['{'])
              have hshape : body = run ++ ['{'] ++ ['%', '}'] ++ more := by
                simp only [List.cons_append, List.cons.injEq] at hbody
                rw [← hbody.2.2]
                simp
              rw [hshape, hsplit] at hnone
              cases hnone

theorem endOfRaw_overlapping_iff : endOfRaw text = .overlapping ↔ OverlapsBeforeEnd text :=
  ⟨overlapsBeforeEnd_of_endOfRaw, endOfRaw_of_overlapsBeforeEnd⟩

theorem firstPart_overlapping_iff {line : Nat} :
    firstPart line c rest = .error .overlappingTag ↔ BeginsOverlap (c :: rest) := by
  constructor
  · fun_cases firstPart line c rest with
    | case5 body inner after hclose hname hend =>
        intro _
        exact ⟨body, inner, after, rfl, hclose, hname, endOfRaw_overlapping_iff.mp hend⟩
    | _ =>
        intro h
        cases h
  · rintro ⟨body, inner, after, heq, hclose, hname, hoverlap⟩
    cases heq
    rw [firstPart]
    simp only [hclose, hname, if_true, endOfRaw_overlapping_iff.mpr hoverlap]

theorem exists_reaches_of_instrumentFrom {fuel line : Nat} (h : text.length ≤ fuel)
    (herror : instrumentFrom fuel line text = .error .overlappingTag) :
    ∃ rest, Reaches text rest ∧ BeginsOverlap rest := by
  induction fuel generalizing line text with
  | zero => cases herror
  | succ fuel ih =>
      cases text with
      | nil => cases herror
      | cons c rest =>
          rw [instrumentFrom_cons] at herror
          cases hfirst : firstPart line c rest with
          | error e =>
              rw [hfirst] at herror
              cases herror
              exact ⟨c :: rest, .here _, firstPart_overlapping_iff.mp hfirst⟩
          | ok found =>
              obtain ⟨part, after⟩ := found
              have hafter := length_after_le hfirst
              rw [List.length_cons] at h
              rw [hfirst] at herror
              simp only [Except.bind] at herror
              cases hmore : instrumentFrom fuel (line + Text.newlines part.source) after with
              | error e =>
                  rw [hmore] at herror
                  cases herror
                  obtain ⟨rest, hreach, hoverlap⟩ := ih (by omega) hmore
                  exact ⟨rest, .next hfirst hreach, hoverlap⟩
              | ok out =>
                  rw [hmore] at herror
                  cases herror

theorem instrumentFrom_of_reaches {fuel line : Nat} (h : text.length ≤ fuel)
    (hreach : Reaches text rest) (hoverlap : BeginsOverlap rest) :
    instrumentFrom fuel line text = .error .overlappingTag := by
  induction hreach generalizing fuel line with
  | here text =>
      have hwhole := hoverlap
      obtain ⟨body, inner, after, rfl, -⟩ := hoverlap
      obtain ⟨fuel, rfl⟩ := Nat.exists_eq_add_of_le' (Nat.lt_of_lt_of_le (Nat.succ_pos _) h)
      rw [instrumentFrom_cons, firstPart_overlapping_iff.mpr hwhole]
      rfl
  | @next c text after rest line' part hpart hrest ih =>
      obtain ⟨fuel, rfl⟩ := Nat.exists_eq_add_of_le' (Nat.lt_of_lt_of_le (Nat.succ_pos _) h)
      have hafter := length_after_le hpart
      obtain ⟨htext, hjoin, hstands⟩ := firstPart_ok hpart
      rw [List.length_cons] at h
      rw [instrumentFrom_cons, hstands.firstPart htext hjoin, Except.bind]
      have hmore := @ih fuel (line + Text.newlines part.source) (by omega) hoverlap
      simp only [hmore, Except.map]

theorem instrumentFrom_overlapping_iff {fuel line : Nat} (h : text.length ≤ fuel) :
    instrumentFrom fuel line text = .error .overlappingTag ↔
      ∃ rest, Reaches text rest ∧ BeginsOverlap rest :=
  ⟨exists_reaches_of_instrumentFrom h, fun ⟨_, hreach, hoverlap⟩ =>
    instrumentFrom_of_reaches h hreach hoverlap⟩

/-- For every source, instrumenting it by byte positions ends, and it ends at a slice that is out of
range or cuts a character if and only if it comes to a raw section in which the delimiters of a tag
overlap before the section's end. From every other source there is a result, which is the one of
instrumenting it by characters: the instrumented source or an error. -/
theorem slices_instrument (source : List Char) {rounds : Nat}
    (h : Text.byteLength source < rounds) :
    (BytePositions.instrument rounds source = .panics ↔ EntersOverlap source) ∧
      (¬EntersOverlap source →
        BytePositions.instrument rounds source = .returns (instrument source) ∧
          instrument source ≠ .error .overlappingTag) := by
  have hsame := BytePositions.instrument_eq h
  have hoverlap : instrument source = .error .overlappingTag ↔ EntersOverlap source := by
    cases hany : source.any isReserved with
    | true => simp [instrument_of_any hany, EntersOverlap, hany]
    | false =>
        rw [instrument_of_clean hany, instrumentFrom_overlapping_iff (Nat.le_refl _),
          EntersOverlap, hany]
        simp
  rw [hsame, ← hoverlap]
  cases hresult : instrument source with
  | ok out => simp [BytePositions.endingOfResult]
  | error e => cases e <;> simp [BytePositions.endingOfResult]

/-- In the first source the delimiters overlap behind the tag that ends the section, in the second
one in front of it. -/
theorem slices_instrument_endraw :
    let kept := "\x7b% raw %\x7dé\x7b% endraw %\x7d\x7b%\x7d %\x7d\x7b\x7b '\\é' \x7d\x7d".toList
    let broken := "é\x7b% raw %\x7d\x7b%\x7d\x7b% endraw %\x7d".toList
    BytePositions.instrument 60 kept = .returns (instrument kept) ∧ (instrument kept).toBool = true ∧
      EntersOverlap broken := by
  intro kept broken
  have hkept : Text.byteLength kept < 60 := by decide +kernel
  have hbroken : Text.byteLength broken < 60 := by decide +kernel
  have hends : BytePositions.instrument 60 kept ≠ .panics := by decide +kernel
  have hpanics : BytePositions.instrument 60 broken = .panics := by decide +kernel
  have hno : ¬EntersOverlap kept := fun hoverlap =>
    hends ((slices_instrument kept hkept).1.mpr hoverlap)
  exact ⟨((slices_instrument kept hkept).2 hno).1, by decide +kernel,
    (slices_instrument broken hbroken).1.mp hpanics⟩

end Instrument

end QueryTemplate
