import QueryTemplate.Proofs.TagTokens

/-!
Tags that consist of a single word, as the ones around a raw section. The lexer takes a tag for one
if at most one white space control character and ASCII white space stand on either side of the word.
The instrumentation is less strict; what it takes for such a tag besides is none to the lexer.
-/

namespace QueryTemplate

open Instrument

namespace Instrument

/-- The text of a tag without a white space control character at either end and without ASCII white
space inside of these. -/
def basicWord (inner : List Char) : List Char :=
  let body := (takeControl (takeControl inner).2.reverse).2.reverse
  ((body.dropWhile Text.isAsciiSpace).reverse.dropWhile Text.isAsciiSpace).reverse

theorem takeControl_append (inner : List Char) {c : Char} (hc : isControl c = false)
    (more : List Char) :
    takeControl (inner ++ c :: more) =
      ((takeControl inner).1, (takeControl inner).2 ++ c :: more) := by
  cases inner with
  | nil => simp [takeControl, hc]
  | cons x inner =>
      rw [List.cons_append, takeControl, takeControl]
      split <;> rfl

/-- The text of a tag with what `basicWord` leaves out of it. -/
theorem exists_basicWord (inner : List Char) :
    ∃ front back closing, (takeControl inner).2 = front ++ (basicWord inner ++ (back ++ closing)) ∧
      (∀ x ∈ front, Text.isAsciiSpace x = true) ∧ (∀ x ∈ back, Text.isAsciiSpace x = true) ∧
      IsMark closing := by
  obtain ⟨front, back, hbody, hfront, hback⟩ :=
    Text.exists_dropWhile_ends Text.isAsciiSpace (unmarked inner)
  refine ⟨front, back, closingOf inner, ?_, hfront, hback, isMark_closingOf inner⟩
  calc (takeControl inner).2 = unmarked inner ++ closingOf inner :=
        (unmarked_append_closingOf inner).symm
    _ = (front ++ (basicWord inner ++ back)) ++ closingOf inner := congrArg (· ++ closingOf inner) hbody
    _ = _ := by simp only [List.append_assoc]

end Instrument

namespace Template.Lexer

variable {word text rest more front back closing : List Char}

theorem basicTag?_true (word text : List Char) :
    basicTag? word true text = basicTag? word false (takeControl text).2 := by
  cases text with
  | nil => rfl
  | cons c text =>
      rw [takeControl, isControl]
      by_cases hc : (c == '-' || c == '+') = true
      · simp only [basicTag?, hc, if_true, Bool.true_and]
        cases text <;> rfl
      · simp only [basicTag?, hc, Bool.true_and, Bool.false_eq_true, if_false, Bool.false_and]

/-- What `basicTag?` makes of a text that has no control character to be skipped. -/
theorem basicTag?_false (word text : List Char) :
    basicTag? word false text =
      match Text.dropHead? word (text.dropWhile Text.isAsciiSpace) with
      | none => none
      | some rest =>
        let rest := rest.dropWhile Text.isAsciiSpace
        let ws := control rest.head?
        let rest := if ws = .default then rest else rest.drop 1
        match rest with
        | '%' :: '}' :: rest => some (rest, ws)
        | _ => none := by
  cases text <;> rfl

theorem control_eq_default_iff {c : Char} : control (some c) = .default ↔ isControl c = false := by
  by_cases hminus : c = '-'
  · subst hminus
    decide
  · by_cases hplus : c = '+'
    · subst hplus
      decide
    · simp [control, isControl, hminus, hplus]

/-- A tag with a single word, followed by anything. -/
theorem exists_basicTag? (hword : Text.isIdentifier word = true)
    (hfront : ∀ x ∈ front, Text.isAsciiSpace x = true)
    (hback : ∀ x ∈ back, Text.isAsciiSpace x = true)
    (hclosing : IsMark closing) :
    ∃ ws, basicTag? word false (front ++ (word ++ (back ++ (closing ++ '%' :: '}' :: more)))) =
      some (more, ws) := by
  have hhead : (front ++ (word ++ (back ++ (closing ++ '%' :: '}' :: more)))).dropWhile
      Text.isAsciiSpace = word ++ (back ++ (closing ++ '%' :: '}' :: more)) := by
    rw [List.dropWhile_append_of_pos hfront]
    cases word with
    | nil => cases hword
    | cons c word =>
        rw [List.cons_append, List.dropWhile_cons,
          Text.isAsciiSpace_of_isNameStart (Text.isNameStart_head hword)]
        rfl
  have hrest : (back ++ (closing ++ '%' :: '}' :: more)).dropWhile Text.isAsciiSpace =
      closing ++ '%' :: '}' :: more := by
    rw [List.dropWhile_append_of_pos hback]
    rcases isMark_iff.mp hclosing with rfl | rfl | rfl <;> rfl
  rw [basicTag?_false, hhead, Text.dropHead?_eq_some_iff.mpr rfl]
  dsimp only
  rw [hrest]
  rcases isMark_iff.mp hclosing with rfl | rfl | rfl <;> exact ⟨_, rfl⟩

/-- What the lexer takes for a tag with a single word is one. -/
theorem basicTag?_eq_some {ws : Control} (h : basicTag? word false text = some (rest, ws)) :
    ∃ front back closing, text = front ++ (word ++ (back ++ (closing ++ '%' :: '}' :: rest))) ∧
      (∀ x ∈ front, Text.isAsciiSpace x = true) ∧ (∀ x ∈ back, Text.isAsciiSpace x = true) ∧
      IsMark closing := by
  have hspaces (text : List Char) : text = text.takeWhile Text.isAsciiSpace ++
      text.dropWhile Text.isAsciiSpace := List.takeWhile_append_dropWhile.symm
  rw [basicTag?_false] at h
  split at h
  · cases h
  rename_i left hhead
  have hword := Text.dropHead?_eq_some_iff.mp hhead
  dsimp only at h
  obtain ⟨closing, hleft, hclosing⟩ : ∃ closing,
      left.dropWhile Text.isAsciiSpace = closing ++ '%' :: '}' :: rest ∧ IsMark closing := by
    split at h
    · rename_i hshape
      cases h
      split at hshape
      · exact ⟨[], hshape, .inl rfl⟩
      · rename_i hcontrol
        cases hdrop : left.dropWhile Text.isAsciiSpace with
        | nil =>
            rw [hdrop] at hshape
            cases hshape
        | cons c left =>
            rw [hdrop, List.head?_cons, control_eq_default_iff, Bool.not_eq_false] at hcontrol
            rw [hdrop, List.drop_one, List.tail_cons] at hshape
            exact ⟨[c], congrArg (c :: ·) hshape, .inr ⟨c, hcontrol, rfl⟩⟩
    · cases h
  refine ⟨text.takeWhile Text.isAsciiSpace, left.takeWhile Text.isAsciiSpace, closing, ?_,
    List.all_eq_true.mp List.all_takeWhile,
    List.all_eq_true.mp List.all_takeWhile, hclosing⟩
  rw [← hleft, ← hspaces left, ← hword, ← hspaces text]

/-- A tag with the word that is looked for. -/
theorem basicTag?_of_basicWord {inner : List Char} (hword : Text.isIdentifier word = true)
    (h : basicWord inner = word) (more : List Char) :
    ∃ ws, basicTag? word false ((takeControl inner).2 ++ '%' :: '}' :: more) = some (more, ws) := by
  obtain ⟨front, back, closing, heq, hfront, hback, hclosing⟩ := exists_basicWord inner
  obtain ⟨ws, hws⟩ := exists_basicTag? hword hfront hback hclosing
  refine ⟨ws, ?_⟩
  rw [heq, h]
  simpa only [List.append_assoc] using hws

theorem not_isNamePart {x : Char}
    (h : Text.isAsciiSpace x = true ∨ isControl x = true ∨ x = '%') :
    Text.isNamePart x = false := by
  simp only [Text.isAsciiSpace, isControl, Bool.or_eq_true, beq_iff_eq] at h
  rcases h with ((((rfl | rfl) | rfl) | rfl) | rfl) | (rfl | rfl) | rfl <;> rfl

/-- A tag with a single word, seen from the text up to a delimiter. -/
theorem exists_of_basicTag? {inner : List Char} {ws : Control}
    (hword : Text.isIdentifier word = true)
    (h : basicTag? word false (inner ++ '%' :: '}' :: more) = some (rest, ws)) :
    ∃ front left, inner = front ++ (word ++ left) ∧ (∀ x ∈ front, Text.isAsciiSpace x = true) ∧
      Text.BeginsOutside Text.isNamePart left := by
  obtain ⟨front, back, closing, htext, hfront, hback, hmark⟩ := basicTag?_eq_some h
  have hclosing : ∀ x ∈ closing, isControl x = true := fun _ => hmark.isControl_of_mem
  -- There is no percent sign in the tag, so all of it stands in front of the delimiter.
  have hpercent : '%' ∉ front ++ (word ++ (back ++ closing)) := by
    simp only [List.mem_append, not_or]
    refine ⟨fun hmem => ?_, fun hmem => ?_, fun hmem => ?_, fun hmem => ?_⟩
    · exact absurd (hfront _ hmem) (by decide)
    · exact absurd (Text.isNamePart_of_mem hword hmem) (by decide)
    · exact absurd (hback _ hmem) (by decide)
    · exact absurd (hclosing _ hmem) (by decide)
  have hshape : inner ++ '%' :: '}' :: more =
      (front ++ (word ++ (back ++ closing))) ++ '%' :: '}' :: rest := by
    simpa only [List.append_assoc] using htext
  obtain ⟨left, hinner, hleft⟩ := exists_of_append_eq hshape hpercent
  refine ⟨front, back ++ closing ++ left, ?_, hfront, fun x hx => not_isNamePart ?_⟩
  · rw [hinner]
    simp only [List.append_assoc]
  · have hmem : x ∈ back ++ closing ∨ x ∈ left.head? := by
      rw [Option.mem_def, List.head?_append] at hx
      cases hhead : (back ++ closing).head? with
      | some y =>
          rw [hhead] at hx
          cases hx
          exact .inl (List.mem_of_head? hhead)
      | none =>
          rw [hhead] at hx
          exact .inr hx
    rcases hmem with hmem | hmem
    · rcases List.mem_append.mp hmem with hmem | hmem
      · exact .inl (hback x hmem)
      · exact .inr (.inl (hclosing x hmem))
    · obtain ⟨tail, rfl⟩ := List.head?_eq_some_iff.mp hmem
      exact .inr (.inr (List.cons.inj hleft).1.symm)

theorem isControl_of_isNamePart {x : Char} (h : Text.isNamePart x = true) :
    isControl x = false := by
  cases hcontrol : isControl x with
  | false => rfl
  | true =>
      rw [not_isNamePart (.inr (.inl hcontrol))] at h
      cases h

theorem ne_nil_of_isIdentifier (hword : Text.isIdentifier word = true) : word ≠ [] := by
  rintro rfl
  cases hword

/-- The control characters in front of a word are passed over, and nothing else. -/
theorem dropWhile_isControl {opening : List Char} (hne : word ≠ [])
    (hword : ∀ x ∈ word, Text.isNamePart x = true) (hopening : ∀ x ∈ opening, isControl x = true)
    (hfront : ∀ x ∈ front, Text.isAsciiSpace x = true) (more : List Char) :
    (opening ++ (front ++ (word ++ more))).dropWhile isControl = front ++ (word ++ more) := by
  rw [List.dropWhile_append_of_pos hopening]
  obtain ⟨c, tail, hhead, hcontrol⟩ : ∃ c tail, front ++ (word ++ more) = c :: tail ∧
      isControl c = false := by
    cases front with
    | cons c front =>
        refine ⟨c, _, rfl, ?_⟩
        have hspace := hfront c List.mem_cons_self
        simp only [Text.isAsciiSpace, Bool.or_eq_true, beq_iff_eq] at hspace
        rcases hspace with (((rfl | rfl) | rfl) | rfl) | rfl <;> rfl
    | nil =>
        obtain ⟨c, word, rfl⟩ := List.exists_cons_of_ne_nil hne
        exact ⟨c, _, rfl, isControl_of_isNamePart (hword c List.mem_cons_self)⟩
  rw [hhead, List.dropWhile_cons, hcontrol]
  rfl

theorem isSpace_of_isAsciiSpace {x : Char} (h : Text.isAsciiSpace x = true) :
    Text.isSpace x = true := by
  simp only [Text.isAsciiSpace, Bool.or_eq_true, beq_iff_eq] at h
  rcases h with (((rfl | rfl) | rfl) | rfl) | rfl <;> rfl

/-- What the lexer takes for a tag with the word has that name. -/
theorem tagName_of_basicTag? {inner : List Char} {ws : Control}
    (hword : Text.isIdentifier word = true)
    (h : basicTag? word false ((takeControl inner).2 ++ '%' :: '}' :: more) = some (rest, ws)) :
    tagName inner = word := by
  obtain ⟨front, left, heq, hfront, hleft⟩ := exists_of_basicTag? hword h
  obtain ⟨hopen, hopening⟩ := takeControl_eq inner
  have htrim : Text.trimStart (front ++ (word ++ left)) = word ++ left := by
    rw [Text.trimStart,
      List.dropWhile_append_of_pos fun x hx => isSpace_of_isAsciiSpace (hfront x hx)]
    cases word with
    | nil => cases hword
    | cons c word =>
        have hspace : Text.isSpace c = false :=
          Text.isSpace_of_isNamePart (Text.isNamePart_of_mem hword List.mem_cons_self)
        rw [List.cons_append, List.dropWhile_cons, hspace]
        rfl
  rw [tagName, ← hopen, heq, dropWhile_isControl (ne_nil_of_isIdentifier hword)
    (fun _ => Text.isNamePart_of_mem hword) hopening hfront, htrim,
    Text.takeName_append hword hleft]

theorem splitAtFirst_of_not_mem {c : Char} {mark run : List Char} (h : c ∉ run) (more : List Char) :
    Text.splitAtFirst (c :: mark) (run ++ c :: mark ++ more) = some (run, more) := by
  induction run with
  | nil =>
      have hhere : Text.dropHead? (c :: mark) (c :: (mark ++ more)) = some more :=
        Text.dropHead?_eq_some_iff.mpr rfl
      rw [List.nil_append, List.cons_append, Text.splitAtFirst, hhere]
  | cons d run ih =>
      rw [List.mem_cons, not_or] at h
      rw [List.cons_append, List.cons_append, Text.splitAtFirst, Text.dropHead?_cons_of_ne h.1,
        ih h.2]
      rfl

/-- The word of a tag, between white space and control characters. -/
theorem tagWord_eq {opening : List Char} (hword : Text.isIdentifier word = true)
    (hopening : ∀ x ∈ opening, isControl x = true)
    (hfront : ∀ x ∈ front, Text.isAsciiSpace x = true)
    (hback : ∀ x ∈ back, Text.isAsciiSpace x = true)
    (hclosing : ∀ x ∈ closing, isControl x = true) :
    tagWord (opening ++ (front ++ (word ++ (back ++ closing)))) = word := by
  have hne := ne_nil_of_isIdentifier hword
  have hchars : ∀ x ∈ word, Text.isNamePart x = true := fun _ => Text.isNamePart_of_mem hword
  have hspace : ∀ x ∈ word, Text.isSpace x = false := fun x hx =>
    Text.isSpace_of_isNamePart (hchars x hx)
  have hreverse : (front ++ (word ++ (back ++ closing))).reverse =
      closing.reverse ++ (back.reverse ++ (word.reverse ++ front.reverse)) := by simp
  rw [tagWord, dropWhile_isControl hne hchars hopening hfront]
  rw [hreverse, dropWhile_isControl (by simpa using hne) (by simpa using hchars)
    (by simpa using hclosing) (by simpa using hback)]
  simp only [List.reverse_append, List.reverse_reverse]
  exact Text.trim_append (fun x hx => hspace x (List.mem_of_head? hx))
    (fun x hx => hspace x (List.mem_of_getLast? hx)) hne
    (fun x hx => isSpace_of_isAsciiSpace (hfront x hx))
    fun x hx => isSpace_of_isAsciiSpace (hback x hx)

/-- What the lexer takes for the end of a raw section is one for the instrumentation too. -/
theorem rawStep_of_basicTag? {ws : Control}
    (h : basicTag? "endraw".toList true text = some (rest, ws)) :
    ∃ tag, rawStep ('{' :: '%' :: text) = .ends tag rest := by
  rw [basicTag?_true] at h
  obtain ⟨hopen, hopening⟩ := takeControl_eq text
  obtain ⟨front, back, closing, heq, hfront, hback, hmark⟩ := basicTag?_eq_some h
  have hclosing : ∀ x ∈ closing, isControl x = true := fun _ => hmark.isControl_of_mem
  let inner := (takeControl text).1 ++ (front ++ ("endraw".toList ++ (back ++ closing)))
  have htext : text = inner ++ ['%', '}'] ++ rest := by
    rw [← hopen, heq]
    simp [inner]
  -- Neither sign of the delimiter can stand in the tag, so both scanners end it in the same place.
  have hchars {d : Char} (hspace : Text.isAsciiSpace d = false) (hcontrol : isControl d = false)
      (hword : d ∉ "endraw".toList) : d ∉ inner := by
    simp only [inner, List.mem_append, not_or]
    refine ⟨fun hd => ?_, fun hd => ?_, hword, fun hd => ?_, fun hd => ?_⟩
    · exact absurd (hopening d hd) (by simp [hcontrol])
    · exact absurd (hfront d hd) (by simp [hspace])
    · exact absurd (hback d hd) (by simp [hspace])
    · exact absurd (hclosing d hd) (by simp [hcontrol])
  have hhead : (inner ++ ['%', '}'] ++ rest).head? ≠ some '}' := by
    intro hbrace
    cases hinner : inner with
    | nil =>
        rw [hinner] at hbrace
        cases hbrace
    | cons x tail =>
        rw [hinner] at hbrace
        cases hbrace
        have hmem : '}' ∉ inner := hchars rfl rfl (by decide)
        exact hmem (by rw [hinner]; exact List.mem_cons_self)
  refine ⟨'{' :: '%' :: inner ++ ['%', '}'], ?_⟩
  have hpercent : '%' ∉ inner := hchars rfl rfl (by decide)
  have hsplit := @splitAtFirst_of_not_mem '%' ['}'] _ hpercent rest
  rw [htext, rawStep_tag, if_neg hhead, hsplit]
  exact if_pos (tagWord_eq (by decide) hopening hfront hback hclosing)

end Template.Lexer

namespace Instrument

open Template.Lexer

/-- The tag that ends a raw section, given what follows the tag that begins it. -/
def closingTag : List Char → List Char
  | [] => []
  | c :: text =>
    match rawStep (c :: text) with
    | .ends tag _ => tag
    | _ => closingTag text

/-- What is between the delimiters of a tag. -/
def between (tag : List Char) : List Char :=
  ((tag.drop 2).reverse.drop 2).reverse

theorem between_tag (inner : List Char) : between ('{' :: '%' :: inner ++ ['%', '}']) = inner := by
  simp [between]

/-- The tag that ends a raw section is found in the section. -/
theorem closingTag_eq {text body rest : List Char} (h : endOfRaw text = .found body rest) :
    closingTag text = closingTag body := by
  induction text generalizing body with
  | nil => cases h
  | cons c text ih =>
      rw [endOfRaw] at h
      rw [closingTag]
      split at h
      · rename_i tag after hends
        cases h
        obtain ⟨inner, rfl, -, -, hmore⟩ := rawStep_ends hends
        have hnone := hmore []
        rw [List.append_nil] at hnone
        rw [hends]
        dsimp only [List.cons_append] at hnone ⊢
        rw [closingTag, hnone]
      · cases h
      · cases h
      · rename_i hpass
        rw [hpass]
        split at h
        · rename_i body' after hfound
          cases h
          obtain ⟨rfl, ⟨run, inner, rfl, -⟩, -⟩ := endOfRaw_found hfound
          have hnone := rawStep_pass hpass []
          rw [List.append_nil] at hnone
          rw [closingTag, hnone]
          exact ih hfound
        · cases h
        · cases h

theorem rawEnd?_tag {text rest : List Char} {ws : Control}
    (h : basicTag? "endraw".toList true text = some (rest, ws)) :
    rawEnd? ('{' :: '%' :: text) = some ([], control text.head?, ws, rest) := by
  rw [rawEnd?]
  simp only [h, Option.map_some]

theorem rawEnd?_cons {c : Char} {text run rest : List Char} {end_ next : Control}
    (hpass : rawStep (c :: text) = .pass) (h : rawEnd? text = some (run, end_, next, rest)) :
    rawEnd? (c :: text) = some (c :: run, end_, next, rest) := by
  rw [rawEnd?.eq_def]
  dsimp only
  split
  · rename_i hfound
    split at hfound
    · rename_i tag
      obtain ⟨found, hbasic, -⟩ := Option.map_eq_some_iff.mp hfound
      obtain ⟨ending, hends⟩ := rawStep_of_basicTag? hbasic
      rw [hpass] at hends
      cases hends
    · cases hfound
  · rw [h]
    rfl

/-- A raw section whose last tag is one to the lexer ends there for the lexer. -/
theorem rawEnd?_of_endOfRaw {text body rest : List Char} (h : endOfRaw text = .found body rest)
    (hlast : basicWord (between (closingTag text)) = "endraw".toList) :
    ∃ run end_ next, rawEnd? text = some (run, end_, next, rest) := by
  induction text generalizing body with
  | nil => cases h
  | cons c text ih =>
      rw [endOfRaw] at h
      rw [closingTag] at hlast
      split at h
      · rename_i tag after hends
        cases h
        obtain ⟨inner, rfl, -, htext, -⟩ := rawStep_ends hends
        rw [hends] at hlast
        dsimp only at hlast
        rw [between_tag] at hlast
        obtain ⟨ws, hws⟩ := basicTag?_of_basicWord (by decide) hlast rest
        have hskip : (takeControl (inner ++ '%' :: '}' :: rest)).2 =
            (takeControl inner).2 ++ '%' :: '}' :: rest := by rw [takeControl_append inner rfl]
        rw [← hskip, ← basicTag?_true] at hws
        have hend := rawEnd?_tag hws
        rw [← show '{' :: '%' :: inner ++ ['%', '}'] ++ rest =
          '{' :: '%' :: (inner ++ '%' :: '}' :: rest) by simp, ← htext] at hend
        exact ⟨_, _, _, hend⟩
      · cases h
      · cases h
      · rename_i hpass
        rw [hpass] at hlast
        split at h
        · rename_i body' after hfound
          cases h
          obtain ⟨run, end_, next, hend⟩ := ih hfound hlast
          exact ⟨_, _, _, rawEnd?_cons hpass hend⟩
        · cases h
        · cases h

end Instrument

end QueryTemplate
