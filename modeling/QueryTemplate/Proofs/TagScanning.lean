import QueryTemplate.Instrument

/-!
Where the scanners of a template source stop. Each of them finds the end of something: of a comment,
of a tag, of a raw section. The end it finds depends only on the text up to there, so the scanner
finds it again with any other text behind it.
-/

namespace QueryTemplate

namespace Text

theorem dropHead?_eq_some_iff {head text rest : List Char} :
    dropHead? head text = some rest ↔ text = head ++ rest := by
  induction head generalizing text with
  | nil => simp [dropHead?]
  | cons h head ih =>
      cases text with
      | nil => simp [dropHead?]
      | cons c text =>
          by_cases hc : h = c
          · subst hc
            simp [dropHead?, ih]
          · simp [dropHead?, hc, Ne.symm hc]

/-- The first occurrence of a mark stays the first one whatever follows it. -/
theorem splitAtFirst_eq_some {mark text before rest : List Char} (hmark : mark ≠ [])
    (h : splitAtFirst mark text = some (before, rest)) :
    text = before ++ mark ++ rest ∧
      ∀ more, splitAtFirst mark (before ++ mark ++ more) = some (before, more) := by
  induction text generalizing before with
  | nil => simp [splitAtFirst, hmark] at h
  | cons c text ih =>
      rw [splitAtFirst] at h
      split at h
      · rename_i found hfound
        cases h
        refine ⟨dropHead?_eq_some_iff.mp hfound, fun more => ?_⟩
        have hhere : dropHead? mark (mark ++ more) = some more := dropHead?_eq_some_iff.mpr rfl
        obtain ⟨d, mark, rfl⟩ := List.exists_cons_of_ne_nil hmark
        rw [List.nil_append, List.cons_append, splitAtFirst, ← List.cons_append, hhere]
      · rename_i hfound
        obtain ⟨⟨tail, after⟩, htail, heq⟩ := Option.map_eq_some_iff.mp h
        cases heq
        obtain ⟨rfl, hmore⟩ := ih htail
        refine ⟨rfl, fun more => ?_⟩
        -- The mark is in the text up to its first occurrence, or it is not in front.
        have hnot : dropHead? mark (c :: (tail ++ mark ++ more)) = none := by
          rw [Option.eq_none_iff_forall_not_mem]
          intro found hmem
          have hpre : mark <+: c :: (tail ++ mark) ++ more :=
            ⟨found, (dropHead?_eq_some_iff.mp hmem).symm⟩
          obtain ⟨last, hlast⟩ := List.prefix_of_prefix_length_le hpre
            (List.prefix_append _ more) (by simp; omega)
          have hhere : dropHead? mark (c :: (tail ++ mark ++ rest)) = some (last ++ rest) := by
            rw [dropHead?_eq_some_iff, ← List.append_assoc, hlast]
            rfl
          rw [hhere] at hfound
          cases hfound
        rw [List.cons_append, List.cons_append, splitAtFirst, hnot]
        simp only [hmore more, Option.map_some]

/-- A text with the mark in it is split in the same place whatever follows. -/
theorem splitAtFirst_append {mark : List Char} (hmark : mark ≠ []) (run : List Char) :
    ∃ before after, ∀ more,
      splitAtFirst mark (run ++ mark ++ more) = some (before, after ++ more) := by
  have hfound : ∃ before after, splitAtFirst mark (run ++ mark) = some (before, after) := by
    induction run with
    | nil =>
        obtain ⟨d, mark, rfl⟩ := List.exists_cons_of_ne_nil hmark
        have hhere : dropHead? (d :: mark) (d :: mark) = some [] :=
          dropHead?_eq_some_iff.mpr (List.append_nil _).symm
        exact ⟨[], [], by rw [List.nil_append, splitAtFirst, hhere]⟩
    | cons c run ih =>
        obtain ⟨before, after, hsplit⟩ := ih
        rw [List.cons_append, splitAtFirst]
        split
        · exact ⟨[], _, rfl⟩
        · exact ⟨c :: before, after, by rw [hsplit]; rfl⟩
  obtain ⟨before, after, hsplit⟩ := hfound
  obtain ⟨heq, hmore⟩ := splitAtFirst_eq_some hmark hsplit
  refine ⟨before, after, fun more => ?_⟩
  rw [heq, List.append_assoc, hmore]

end Text

namespace Instrument

variable {c : Char} {depth : Nat} {quote : Option Char} {text body rest : List Char}

def isQuote (x : Char) : Bool :=
  x = '\'' || x = '"'

def isOpening (x : Char) : Bool :=
  x = '(' || x = '[' || x = '{'

def isClosing (x : Char) : Bool :=
  x = ')' || x = ']' || x = '}'

/-- How many brackets are open behind a character outside string literals, and the quote character
of the literal that it begins. -/
def afterChar (depth : Nat) (x : Char) : Nat × Option Char :=
  if isQuote x then (depth, some x)
  else if isOpening x then (depth + 1, none)
  else if isClosing x then (depth - 1, none)
  else (depth, none)

/-- One step of the scan outside string literals. -/
theorem closeOf_none (hc : c = '%' ∨ c = '}') (depth : Nat) (x : Char) (rest : List Char) :
    closeOf c depth none (x :: rest) =
      if depth = 0 ∧ x = c ∧ rest.head? = some '}' then some ([], rest.tail)
      else (closeOf c (afterChar depth x).1 (afterChar depth x).2 rest).map
        fun (body, rest) => (x :: body, rest) := by
  by_cases hend : depth = 0 ∧ x = c
  · obtain ⟨rfl, rfl⟩ := hend
    have hafter : afterChar 0 x = (0, none) := by rcases hc with rfl | rfl <;> rfl
    rw [closeOf.eq_def, hafter]
    cases rest with
    | nil => rcases hc with rfl | rfl <;> rfl
    | cons y rest => rcases hc with rfl | rfl <;> by_cases hy : y = '}' <;> simp [hy]
  · have hne : ¬(depth = 0 ∧ x = c ∧ rest.head? = some '}') := fun h => hend ⟨h.1, h.2.1⟩
    have hno : (decide (depth = 0) && decide (x = c)) = false := by simpa using hend
    rw [if_neg hne, closeOf.eq_def, afterChar, isQuote, isOpening, isClosing]
    dsimp only
    rw [hno]
    split
    · rfl
    split
    · rfl
    cases depth with
    | zero => simp
    | succ depth => split <;> simp_all

/-- One step of the scan in a string literal. -/
theorem closeOf_some (c : Char) (depth : Nat) (q x : Char) (rest : List Char) :
    closeOf c depth (some q) (x :: rest) =
      if x = '\\' then
        match rest with
        | [] => none
        | y :: rest =>
          (closeOf c depth (some q) rest).map fun (body, rest) => (x :: y :: body, rest)
      else (closeOf c depth (if x = q then none else some q) rest).map
        fun (body, rest) => (x :: body, rest) := by
  rw [closeOf.eq_def]
  dsimp only
  split
  · rfl
  · split <;> rfl

/-- The steps of the scan to the end of a tag: from the text ahead it takes the text of the tag, and
leaves what is behind the delimiter. -/
inductive Closes (c : Char) : (depth : Nat) → (quote : Option Char) → (text body rest : List Char) →
    Prop
  | here (rest : List Char) : Closes c 0 none (c :: '}' :: rest) [] rest
  | outside {depth : Nat} {x : Char} {text body rest : List Char}
      (hgo : ¬(depth = 0 ∧ x = c ∧ text.head? = some '}'))
      (h : Closes c (afterChar depth x).1 (afterChar depth x).2 text body rest) :
      Closes c depth none (x :: text) (x :: body) rest
  | escaped {depth : Nat} {q y : Char} {text body rest : List Char}
      (h : Closes c depth (some q) text body rest) :
      Closes c depth (some q) ('\\' :: y :: text) ('\\' :: y :: body) rest
  | quoted {depth : Nat} {q x : Char} {text body rest : List Char} (hescape : x ≠ '\\')
      (h : Closes c depth (if x = q then none else some q) text body rest) :
      Closes c depth (some q) (x :: text) (x :: body) rest

namespace Closes

theorem text_eq (h : Closes c depth quote text body rest) : text = body ++ c :: '}' :: rest := by
  induction h with
  | here => rfl
  | outside _ _ ih | quoted _ _ ih => exact congrArg (_ :: ·) ih
  | escaped _ ih => exact congrArg (_ :: _ :: ·) ih

/-- What follows a tag does not matter for where the tag ends. -/
theorem replace (h : Closes c depth quote text body rest) (more : List Char) :
    Closes c depth quote (body ++ c :: '}' :: more) body more := by
  induction h with
  | here => exact .here more
  | @outside depth x text body rest hgo h ih =>
      have hhead : (body ++ c :: '}' :: more).head? = text.head? := by
        rw [h.text_eq]
        cases body <;> rfl
      rw [← hhead] at hgo
      exact .outside hgo ih
  | escaped _ ih => exact .escaped ih
  | quoted hescape _ ih => exact .quoted hescape ih

end Closes

/-- An escape takes two characters at once, so the induction is on the length of the text. -/
theorem closes_of_closeOf (hc : c = '%' ∨ c = '}')
    (h : closeOf c depth quote text = some (body, rest)) : Closes c depth quote text body rest := by
  induction hlen : text.length using Nat.strongRecOn generalizing depth quote text body with
  | ind n ih =>
      subst hlen
      cases text with
      | nil => simp [closeOf] at h
      | cons x text =>
          cases quote with
          | none =>
              rw [closeOf_none hc] at h
              split at h
              · rename_i hend
                obtain ⟨rfl, rfl, hhead⟩ := hend
                cases h
                obtain ⟨rest, rfl⟩ := List.head?_eq_some_iff.mp hhead
                exact .here rest
              · rename_i hgo
                obtain ⟨⟨tail, after⟩, htail, heq⟩ := Option.map_eq_some_iff.mp h
                cases heq
                exact .outside hgo (ih _ (Nat.lt_succ_self _) htail rfl)
          | some q =>
              rw [closeOf_some] at h
              split at h
              · rename_i hescape
                subst hescape
                cases text with
                | nil => cases h
                | cons y text =>
                    obtain ⟨⟨tail, after⟩, htail, heq⟩ := Option.map_eq_some_iff.mp h
                    cases heq
                    exact .escaped (ih _ (by grind) htail rfl)
              · rename_i hescape
                obtain ⟨⟨tail, after⟩, htail, heq⟩ := Option.map_eq_some_iff.mp h
                cases heq
                exact .quoted hescape (ih _ (Nat.lt_succ_self _) htail rfl)

theorem Closes.closeOf_eq (hc : c = '%' ∨ c = '}') (h : Closes c depth quote text body rest) :
    closeOf c depth quote text = some (body, rest) := by
  induction h with
  | here =>
      rw [closeOf_none hc, if_pos ⟨rfl, rfl, rfl⟩]
      rfl
  | outside hgo _ ih =>
      rw [closeOf_none hc, if_neg hgo, ih]
      rfl
  | escaped _ ih =>
      rw [closeOf_some, if_pos rfl]
      simp only [ih, Option.map_some]
  | quoted hescape _ ih =>
      rw [closeOf_some, if_neg hescape, ih]
      rfl

theorem closeOf_eq_some (hc : c = '%' ∨ c = '}')
    (h : closeOf c depth quote text = some (body, rest)) :
    text = body ++ c :: '}' :: rest ∧
      ∀ more, closeOf c depth quote (body ++ c :: '}' :: more) = some (body, more) :=
  have hcloses := closes_of_closeOf hc h
  ⟨hcloses.text_eq, fun more => (hcloses.replace more).closeOf_eq hc⟩

/-! ### Raw sections -/

theorem rawStep_tag (body : List Char) :
    rawStep ('{' :: '%' :: body) =
      if body.head? = some '}' then .overlapping
      else match Text.splitAtFirst ['%', '}'] body with
        | none => .missing
        | some (inner, rest) =>
          if tagWord inner = "endraw".toList then .ends ('{' :: '%' :: inner ++ ['%', '}']) rest
          else .pass := by
  cases body with
  | nil => rfl
  | cons x body =>
      by_cases hx : x = '}'
      · subst hx
        rfl
      · have hside : ∀ tail, x :: body = '}' :: tail → False := fun _ heq =>
          hx (List.cons.inj heq).1
        exact (rawStep.eq_2 _ hside).trans (if_neg (by simpa using hx)).symm

theorem rawStep_of_ne (h : ∀ body, text ≠ '{' :: '%' :: body) : rawStep text = .pass := by
  rw [rawStep.eq_def]
  split
  · exact absurd rfl (h _)
  · exact absurd rfl (h _)
  · rfl

/-- The tag that ends a raw section, and that what follows does not matter for it. -/
theorem rawStep_ends {tag : List Char} (h : rawStep text = .ends tag rest) :
    ∃ inner, tag = '{' :: '%' :: inner ++ ['%', '}'] ∧ tagWord inner = "endraw".toList ∧
      text = tag ++ rest ∧ ∀ more, rawStep (tag ++ more) = .ends tag more := by
  by_cases htag : ∃ body, text = '{' :: '%' :: body
  · obtain ⟨body, rfl⟩ := htag
    rw [rawStep_tag] at h
    split at h
    · cases h
    rename_i hhead
    split at h
    · cases h
    rename_i inner after hsplit
    split at h
    · rename_i hword
      cases h
      obtain ⟨rfl, hmore⟩ := Text.splitAtFirst_eq_some (by simp) hsplit
      refine ⟨inner, rfl, hword, by simp, fun more => ?_⟩
      have hshape : '{' :: '%' :: inner ++ ['%', '}'] ++ more =
          '{' :: '%' :: (inner ++ ['%', '}'] ++ more) := by simp
      have hhead' : (inner ++ ['%', '}'] ++ more).head? ≠ some '}' := by
        cases inner with
        | nil => simp
        | cons d inner => exact hhead
      rw [hshape, rawStep_tag, if_neg hhead', hmore more]
      simp only [hword, if_true]
    · cases h
  · rw [rawStep_of_ne fun body heq => htag ⟨body, heq⟩] at h
    cases h

/-- With the end of a later tag in sight, it does not matter what follows that. -/
theorem rawStep_pass {run inner : List Char}
    (h : rawStep (c :: (run ++ '{' :: '%' :: inner ++ ['%', '}'] ++ rest)) = .pass)
    (more : List Char) :
    rawStep (c :: (run ++ '{' :: '%' :: inner ++ ['%', '}'] ++ more)) = .pass := by
  by_cases htag : c = '{' ∧ ∃ tail, run = '%' :: tail
  · obtain ⟨rfl, tail, rfl⟩ := htag
    obtain ⟨before, after, hsplit⟩ :=
      Text.splitAtFirst_append (by simp : ['%', '}'] ≠ []) (tail ++ '{' :: '%' :: inner)
    have hshape (more : List Char) :
        '{' :: ('%' :: tail ++ '{' :: '%' :: inner ++ ['%', '}'] ++ more) =
          '{' :: '%' :: (tail ++ '{' :: '%' :: inner ++ ['%', '}'] ++ more) := by simp
    have hhead (more : List Char) : (tail ++ '{' :: '%' :: inner ++ ['%', '}'] ++ more).head? =
        (tail ++ ['{']).head? := by cases tail <;> rfl
    rw [hshape, rawStep_tag, hhead, hsplit] at h ⊢
    split at h
    · cases h
    rename_i hne
    rw [if_neg hne]
    dsimp only at h ⊢
    split at h
    · cases h
    · rename_i hword
      rw [if_neg hword]
  · refine rawStep_of_ne fun other heq => htag ?_
    cases run with
    | nil => simp at heq
    | cons d run =>
        simp only [List.cons_append, List.cons.injEq] at heq
        exact ⟨heq.1, run, by rw [heq.2.1]⟩

theorem endOfRaw_found (h : endOfRaw text = .found body rest) :
    text = body ++ rest ∧
      (∃ run inner, body = run ++ '{' :: '%' :: inner ++ ['%', '}'] ∧
        tagWord inner = "endraw".toList) ∧
      ∀ more, endOfRaw (body ++ more) = .found body more := by
  induction text generalizing body with
  | nil => cases h
  | cons c text ih =>
      rw [endOfRaw] at h
      split at h
      · rename_i tag after hends
        cases h
        obtain ⟨inner, rfl, hword, htext, hmore⟩ := rawStep_ends hends
        refine ⟨htext, ⟨[], inner, rfl, hword⟩, fun more => ?_⟩
        have := hmore more
        simp only [List.cons_append] at this ⊢
        rw [endOfRaw, this]
      · cases h
      · cases h
      · rename_i hpass
        split at h
        · rename_i tail after hfound
          cases h
          obtain ⟨rfl, ⟨run, inner, rfl, hword⟩, hmore⟩ := ih hfound
          refine ⟨rfl, ⟨c :: run, inner, rfl, hword⟩, fun more => ?_⟩
          rw [List.cons_append, endOfRaw, rawStep_pass hpass more]
          simp only [hmore more]
        · cases h
        · cases h

end Instrument

end QueryTemplate
