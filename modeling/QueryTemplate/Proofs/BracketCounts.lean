import QueryTemplate.Proofs.TagBalance

/-!
Counting brackets. A scan that does not count a closing bracket without an open one can end with no
bracket open although the text has more closing brackets than opening ones. That is the only way in
which it differs from a count: a text that it leaves with no bracket open either closes exactly the
brackets that it opens, and no others on the way, or it has more closing brackets in the whole.
-/

namespace QueryTemplate.Instrument

/-- Where a text stands with respect to string literals. -/
inductive LiteralPlace where
  | outside
  | quoted (quote : Char)
  /-- In a literal, behind a backslash. -/
  | escaped (quote : Char)
  deriving DecidableEq, Repr

namespace LiteralPlace

/-- The place behind a character. -/
def next : LiteralPlace → Char → LiteralPlace
  | outside, x => if isQuote x then quoted x else outside
  | quoted quote, x =>
    if x = '\\' then escaped quote else if x = quote then outside else quoted quote
  | escaped quote, _ => quoted quote

/-- The place behind a text. -/
def after (place : LiteralPlace) (text : List Char) : LiteralPlace :=
  text.foldl next place

/-- How many characters of a kind there are outside string literals. -/
def count (kind : Char → Bool) : LiteralPlace → List Char → Nat
  | _, [] => 0
  | place, x :: text =>
    (if place = outside ∧ kind x = true then 1 else 0) + count kind (place.next x) text

theorem count_append (kind : Char → Bool) (place : LiteralPlace) (text more : List Char) :
    count kind place (text ++ more) = count kind place text + count kind (place.after text) more := by
  induction text generalizing place with
  | nil => exact (Nat.zero_add _).symm
  | cons x text ih =>
      rw [List.cons_append, count, count, ih, Nat.add_assoc]
      rfl

end LiteralPlace

/-- How many opening brackets a text has outside string literals. -/
def openers (text : List Char) : Nat :=
  LiteralPlace.outside.count isOpening text

/-- How many closing brackets a text has outside string literals. -/
def closers (text : List Char) : Nat :=
  LiteralPlace.outside.count isClosing text

namespace Place

variable {place place' : Place} {x : Char} {text more : List Char}

/-- The number of open brackets. -/
def depth : Place → Nat
  | outside depth => depth
  | quoted depth _ => depth
  | escaped depth _ => depth

/-- The place without the number of open brackets. -/
def literal : Place → LiteralPlace
  | outside _ => .outside
  | quoted _ quote => .quoted quote
  | escaped _ quote => .escaped quote

theorem isBracket_of_isQuote {x : Char} (h : isQuote x = true) :
    isOpening x = false ∧ isClosing x = false := by
  simp only [isQuote, Bool.or_eq_true, decide_eq_true_eq] at h
  rcases h with rfl | rfl <;> decide

theorem isClosing_of_isOpening {x : Char} (h : isOpening x = true) : isClosing x = false := by
  simp only [isOpening, Bool.or_eq_true, decide_eq_true_eq] at h
  rcases h with (rfl | rfl) | rfl <;> rfl

/-- Only a closing bracket without an open one cannot stand anywhere. -/
theorem eq_of_next_eq_none (h : place.next x = none) :
    place = outside 0 ∧ isQuote x = false ∧ isOpening x = false ∧ isClosing x = true := by
  cases place with
  | outside depth =>
      rw [next] at h
      split at h
      · cases h
      rename_i hquote
      split at h
      · cases h
      rename_i hopening
      split at h
      · rename_i hclosing
        split at h
        · rename_i hdepth
          rw [hdepth]
          exact ⟨rfl, Bool.eq_false_iff.mpr hquote, Bool.eq_false_iff.mpr hopening, hclosing⟩
        · cases h
      · cases h
  | quoted depth quote =>
      rw [next] at h
      split at h
      · cases h
      split at h <;> cases h
  | escaped depth quote => cases h

/-- Behind a character that can stand there, as many brackets are open as are counted. -/
theorem next_count (h : place.next x = some place') :
    place'.literal = place.literal.next x ∧
      place'.depth + place.literal.count isClosing [x] =
        place.depth + place.literal.count isOpening [x] := by
  cases next_eq_some_iff.mp h with
  | quote hquote =>
      obtain ⟨hopening, hclosing⟩ := isBracket_of_isQuote hquote
      simp [literal, LiteralPlace.next, hquote, Place.depth, LiteralPlace.count, hopening, hclosing]
  | opens hquote hopening =>
      simp [literal, LiteralPlace.next, hquote, Place.depth, LiteralPlace.count, hopening,
        isClosing_of_isOpening hopening]
  | closes hquote hopening hclosing | passes hquote hopening hclosing =>
      simp [literal, LiteralPlace.next, hquote, Place.depth, LiteralPlace.count, hopening, hclosing]
  | escape hescape =>
      simp [literal, LiteralPlace.next, Place.depth, LiteralPlace.count, hescape]
  | ends hescape hquote =>
      subst hquote
      simp [literal, LiteralPlace.next, Place.depth, LiteralPlace.count, hescape]
  | stays hescape hquote =>
      simp [literal, LiteralPlace.next, Place.depth, LiteralPlace.count, hescape, hquote]
  | skips => simp [literal, LiteralPlace.next, Place.depth, LiteralPlace.count]

theorem count_cons (kind : Char → Bool) (place : LiteralPlace) (x : Char) (text : List Char) :
    place.count kind (x :: text) = place.count kind [x] + (place.next x).count kind text :=
  LiteralPlace.count_append kind place [x] text

/-- Behind a text that can stand there, as many brackets are open as are counted. -/
theorem after_count (h : place.after text = some place') :
    place'.literal = place.literal.after text ∧
      place'.depth + place.literal.count isClosing text =
        place.depth + place.literal.count isOpening text := by
  induction text generalizing place with
  | nil =>
      cases h
      exact ⟨rfl, rfl⟩
  | cons x text ih =>
      obtain ⟨mid, hnext, hrest⟩ := Option.bind_eq_some_iff.mp h
      obtain ⟨hliteral, hcount⟩ := next_count hnext
      obtain ⟨hliteral', hcount'⟩ := ih hrest
      rw [hliteral] at hliteral' hcount'
      refine ⟨hliteral', ?_⟩
      rw [count_cons isClosing, count_cons isOpening]
      omega

/-- The place behind a character, if a closing bracket without an open one does not count. -/
def clampedNext (place : Place) (x : Char) : Place :=
  (place.next x).getD place

/-- The place behind a text, if closing brackets without an open one do not count. -/
def clampedAfter (place : Place) (text : List Char) : Place :=
  text.foldl clampedNext place

theorem clampedNext_of_eq_some (h : place.next x = some place') : place.clampedNext x = place' := by
  rw [clampedNext, h]
  rfl

theorem clampedNext_of_eq_none (h : place.next x = none) : place.clampedNext x = outside 0 := by
  rw [clampedNext, h]
  exact (eq_of_next_eq_none h).1

theorem clampedAfter_append (place : Place) (text more : List Char) :
    place.clampedAfter (text ++ more) = (place.clampedAfter text).clampedAfter more :=
  List.foldl_append

/-- The invariant of the scan. Behind a text, either no closing bracket has been left out, or there
are more closing brackets than the open ones account for. -/
theorem clampedAfter_count (place : Place) (text : List Char) :
    (place.clampedAfter text).literal = place.literal.after text ∧
      (place.after text = some (place.clampedAfter text) ∨
        place.depth + place.literal.count isOpening text <
          (place.clampedAfter text).depth + place.literal.count isClosing text) := by
  induction text generalizing place with
  | nil => exact ⟨rfl, .inl rfl⟩
  | cons x text ih =>
      obtain ⟨hliteral, hcount⟩ := ih (place.clampedNext x)
      have hsplit (kind : Char → Bool) := count_cons kind place.literal x text
      cases hnext : place.next x with
      | some mid =>
          obtain ⟨hliteral', hcount'⟩ := next_count hnext
          rw [clampedNext_of_eq_some hnext] at hliteral hcount
          rw [clampedAfter, List.foldl_cons, clampedNext_of_eq_some hnext, ← clampedAfter]
          rw [hliteral'] at hliteral hcount
          refine ⟨hliteral, ?_⟩
          rw [after, hnext, Option.bind_some, hsplit, hsplit]
          rcases hcount with hcount | hcount
          · exact .inl hcount
          · exact .inr (by omega)
      | none =>
          -- The count goes below the number of open brackets here, and does not get back.
          obtain ⟨rfl, hquote, hopening, hclosing⟩ := eq_of_next_eq_none hnext
          rw [clampedNext_of_eq_none hnext] at hliteral hcount
          rw [clampedAfter, List.foldl_cons, clampedNext_of_eq_none hnext, ← clampedAfter]
          have hstay : LiteralPlace.outside.next x = .outside := by
            rw [LiteralPlace.next, hquote]
            rfl
          have hopeners : LiteralPlace.outside.count isOpening [x] = 0 := by
            simp [LiteralPlace.count, hopening]
          have hclosers : LiteralPlace.outside.count isClosing [x] = 1 := by
            simp [LiteralPlace.count, hclosing]
          simp only [literal, hstay] at hliteral hcount hsplit ⊢
          refine ⟨?_, .inr ?_⟩
          · rw [hliteral, LiteralPlace.after, LiteralPlace.after, List.foldl_cons, hstay]
          · rw [hsplit, hsplit, hopeners, hclosers]
            rcases hcount with hcount | hcount
            · have hkept := (after_count hcount).2
              simp only [literal] at hkept
              omega
            · omega

/-- A text that cannot stand somewhere has a closing bracket without an open one. -/
theorem exists_of_after_eq_none (h : place.after text = none) :
    ∃ run x more, text = run ++ x :: more ∧ place.after run = some (outside 0) ∧
      (outside 0).next x = none := by
  induction text generalizing place with
  | nil => cases h
  | cons x text ih =>
      cases hnext : place.next x with
      | none =>
          obtain ⟨rfl, -⟩ := eq_of_next_eq_none hnext
          exact ⟨[], x, text, rfl, rfl, hnext⟩
      | some mid =>
          rw [after, hnext] at h
          obtain ⟨run, y, more, rfl, hrun, hy⟩ := ih h
          refine ⟨x :: run, y, more, rfl, ?_, hy⟩
          rw [after, hnext]
          exact hrun

/-- With one more bracket open, a text leads to the same place as if closing brackets without an open
one did not count, still with one more bracket open or, once that has been closed, without it. -/
theorem eq_clampedAfter_of_deeper {start : Place} (hstart : start = place.deeper 1 ∨ start = place)
    (h : start.after text = some place') :
    place' = (place.clampedAfter text).deeper 1 ∨ place' = place.clampedAfter text := by
  induction text generalizing start place with
  | nil =>
      cases h
      exact hstart
  | cons x text ih =>
      obtain ⟨mid, hmid, hrest⟩ := Option.bind_eq_some_iff.mp h
      rw [clampedAfter, List.foldl_cons, ← clampedAfter]
      refine ih ?_ hrest
      cases hnext : place.next x with
      | some next =>
          rw [clampedNext_of_eq_some hnext]
          rcases hstart with rfl | rfl
          · rw [next_deeper hnext 1] at hmid
            exact .inl (Option.some.inj hmid).symm
          · rw [hnext] at hmid
            exact .inr (Option.some.inj hmid).symm
      | none =>
          rw [clampedNext_of_eq_none hnext]
          obtain ⟨rfl, hquote, hopening, hclosing⟩ := eq_of_next_eq_none hnext
          rcases hstart with rfl | rfl
          · simp [deeper, next, hquote, hopening, hclosing] at hmid
            exact .inr hmid.symm
          · rw [hnext] at hmid
            cases hmid

theorem clampedNext_outside (depth : Nat) (x : Char) :
    (outside depth).clampedNext x =
      match (afterChar depth x).2 with
      | none => outside (afterChar depth x).1
      | some quote => quoted (afterChar depth x).1 quote := by
  rw [clampedNext, next, afterChar]
  split
  · rfl
  split
  · rfl
  split
  · cases depth <;> rfl
  · rfl

end Place

/-- The place of the scan for the end of a tag. -/
def scanPlace (depth : Nat) : (quote : Option Char) → Place
  | none => .outside depth
  | some quote => .quoted depth quote

variable {c : Char} {depth : Nat} {quote : Option Char} {text body rest : List Char}

theorem clampedNext_scanPlace (depth : Nat) (x : Char) :
    (scanPlace depth none).clampedNext x = scanPlace (afterChar depth x).1 (afterChar depth x).2 := by
  rw [scanPlace, Place.clampedNext_outside]
  cases (afterChar depth x).2 <;> rfl

theorem clampedNext_quoted (depth : Nat) {q x : Char} (hescape : x ≠ '\\') :
    (scanPlace depth (some q)).clampedNext x =
      scanPlace depth (if x = q then none else some q) := by
  rw [scanPlace, Place.clampedNext, Place.next, if_neg hescape]
  split <;> rfl

/-- Behind the text of a tag the scan is outside string literals and brackets. -/
theorem Closes.clampedAfter (h : Closes c depth quote text body rest) :
    (scanPlace depth quote).clampedAfter body = .outside 0 := by
  induction h with
  | here => rfl
  | outside _ _ ih =>
      rw [← clampedNext_scanPlace] at ih
      exact ih
  | escaped _ ih => exact ih
  | quoted hescape _ ih =>
      rw [← clampedNext_quoted _ hescape] at ih
      exact ih

/-- The scan is at no place in the text of a tag outside string literals and brackets in front of the
delimiter, except behind that text. -/
theorem Closes.eq_nil_of_clampedAfter (h : Closes c depth quote text body rest) {a b more : List Char}
    (hbody : body = a ++ b) (ha : (scanPlace depth quote).clampedAfter a = .outside 0)
    (hb : b ++ c :: '}' :: rest = c :: '}' :: more) : b = [] := by
  induction h generalizing a with
  | here => exact (List.append_eq_nil_iff.mp hbody.symm).2
  | outside hgo h ih =>
      rw [← clampedNext_scanPlace] at ih
      cases a with
      | nil =>
          rw [List.nil_append] at hbody
          rw [← hbody, List.cons_append, ← h.text_eq] at hb
          obtain ⟨rfl, rfl⟩ := List.cons.inj hb
          cases ha
          exact absurd ⟨rfl, rfl, rfl⟩ hgo
      | cons y a =>
          obtain ⟨rfl, hrest⟩ := List.cons.inj hbody
          exact ih hrest ha hb
  | escaped _ ih =>
      rcases a with - | ⟨x, - | ⟨z, a⟩⟩
      · cases ha
      · cases (List.cons.inj hbody).1
        cases ha
      · obtain ⟨hx, hmore⟩ := List.cons.inj hbody
        obtain ⟨hz, hrest⟩ := List.cons.inj hmore
        subst hx hz
        exact ih hrest ha hb
  | quoted hescape _ ih =>
      rw [← clampedNext_quoted _ hescape] at ih
      cases a with
      | nil => cases ha
      | cons y a =>
          obtain ⟨rfl, hrest⟩ := List.cons.inj hbody
          exact ih hrest ha hb

/-! ### The expression of a tag -/

/-- A text with brackets that are all closed, and no others, as counted. -/
theorem Balanced.counts (h : Balanced text) :
    LiteralPlace.outside.after text = .outside ∧
      (∀ front, front <+: text → closers front ≤ openers front) ∧ closers text = openers text := by
  obtain ⟨hliteral, hcount⟩ := Place.after_count h
  refine ⟨hliteral.symm, ?_, (Nat.zero_add _).symm.trans (hcount.trans (Nat.zero_add _))⟩
  rintro front ⟨back, rfl⟩
  rw [Balanced, Place.after_append] at h
  obtain ⟨mid, hfront, -⟩ := Option.bind_eq_some_iff.mp h
  have hcount := (Place.after_count hfront).2
  simp only [Place.depth, Place.literal] at hcount
  rw [closers, openers]
  omega

/-- A text that a scan leaves outside string literals and brackets is balanced, or it has more
closing brackets than opening ones. -/
theorem counts_of_clamped (h : (Place.outside 0).clampedAfter text = .outside 0) :
    LiteralPlace.outside.after text = .outside ∧ (Balanced text ∨ openers text < closers text) := by
  obtain ⟨hliteral, hcount⟩ := Place.clampedAfter_count (.outside 0) text
  rw [h] at hliteral hcount
  refine ⟨hliteral.symm, ?_⟩
  simpa [Balanced, openers, closers, Place.depth, Place.literal] using hcount

/-- The brackets in parentheses are one more of either kind. -/
theorem counts_parenthesized (h : LiteralPlace.outside.after text = .outside) :
    (∀ front, openers ('(' :: front) = openers front + 1 ∧ closers ('(' :: front) = closers front) ∧
      openers ('(' :: text ++ [')']) = openers text + 1 ∧
      closers ('(' :: text ++ [')']) = closers text + 1 := by
  have hfront (front : List Char) :
      openers ('(' :: front) = openers front + 1 ∧ closers ('(' :: front) = closers front := by
    have hopen : LiteralPlace.outside.next '(' = .outside := rfl
    refine ⟨?_, ?_⟩
    · rw [openers, LiteralPlace.count, hopen, if_pos ⟨rfl, rfl⟩, Nat.add_comm, openers]
    · rw [closers, LiteralPlace.count, hopen, if_neg (by decide), Nat.zero_add, closers]
  refine ⟨hfront, ?_, ?_⟩
  · rw [List.cons_append, (hfront _).1, openers, LiteralPlace.count_append, h]
    rfl
  · rw [List.cons_append, (hfront _).2, closers, LiteralPlace.count_append, h]
    rfl

/-- With more closing brackets than opening ones, the text cannot stand in parentheses. -/
theorem after_parenthesized_eq_none (hliteral : LiteralPlace.outside.after text = .outside)
    (h : openers text < closers text) : (Place.outside 0).after ('(' :: text ++ [')']) = none := by
  cases hafter : (Place.outside 0).after ('(' :: text ++ [')']) with
  | none => rfl
  | some place =>
      obtain ⟨-, hopeners, hclosers⟩ := counts_parenthesized hliteral
      have hcount := (Place.after_count hafter).2
      rw [openers] at hopeners
      rw [closers] at hclosers
      simp only [Place.depth, Place.literal] at hcount
      omega

namespace Place

variable {place : Place} {text : List Char}

theorem isClosing_of_isInert {x : Char} (h : isInert x = true) : isClosing x = false := by
  cases hclosing : isClosing x with
  | false => rfl
  | true =>
      simp only [isClosing, Bool.or_eq_true, decide_eq_true_eq] at hclosing
      rcases hclosing with (rfl | rfl) | rfl <;> exact absurd h (by decide)

/-- Characters that are no brackets can stand anywhere. -/
theorem after_eq_clampedAfter (h : ∀ x ∈ text, isInert x = true) :
    place.after text = some (place.clampedAfter text) := by
  induction text generalizing place with
  | nil => rfl
  | cons x text ih =>
      rw [List.forall_mem_cons] at h
      cases hnext : place.next x with
      | none =>
          have hclosing := (eq_of_next_eq_none hnext).2.2.2
          rw [isClosing_of_isInert h.1] at hclosing
          cases hclosing
      | some mid =>
          rw [clampedAfter, List.foldl_cons, clampedNext_of_eq_some hnext, ← clampedAfter, after,
            hnext]
          exact ih h.2

theorem clampedAfter_place (hplace : place.InLiteral ∨ ∃ depth, place = outside depth)
    (text : List Char) :
    (place.clampedAfter text).InLiteral ∨ ∃ depth, place.clampedAfter text = outside depth := by
  induction text generalizing place with
  | nil => exact hplace
  | cons x text ih =>
      rw [clampedAfter, List.foldl_cons, ← clampedAfter]
      refine ih ?_
      cases hnext : place.next x with
      | none => exact .inr ⟨0, clampedNext_of_eq_none hnext⟩
      | some mid =>
          rw [clampedNext_of_eq_some hnext]
          have hstep : place.after [x] = some mid := by
            rw [after, hnext]
            rfl
          exact inLiteral_of_after hplace hstep

/-- If a text ends outside string literals and brackets, so does it without the characters at its
ends that are no brackets. -/
theorem clampedAfter_between {front back : List Char} (hfront : ∀ x ∈ front, isInert x = true)
    (hback : ∀ x ∈ back, isInert x = true)
    (h : (outside 0).clampedAfter (front ++ (text ++ back)) = outside 0) :
    (outside 0).clampedAfter front = outside 0 ∧ (outside 0).clampedAfter text = outside 0 := by
  have hstart : (outside 0).clampedAfter front = outside 0 :=
    Option.some.inj ((after_eq_clampedAfter hfront).symm.trans (after_inert hfront))
  rw [clampedAfter_append, hstart, clampedAfter_append] at h
  refine ⟨hstart, ?_⟩
  have hafter : ((outside 0).clampedAfter text).after back = some (outside 0) := by
    rw [after_eq_clampedAfter hback, h]
  rcases clampedAfter_place (.inr ⟨0, rfl⟩) text with hplace | ⟨depth, hplace⟩
  · exact (inLiteral_of_inert hplace hback hafter).elim
  · rw [hplace, after_inert hback] at hafter
    rw [hplace]
    exact Option.some.inj hafter

end Place

/-- Nowhere in the expression where a scan is outside string literals and brackets does the delimiter
stand that ends a tag. -/
def Clear (expr : List Char) : Prop :=
  ∀ a b more, expr = a ++ b → (Place.outside 0).clampedAfter a = .outside 0 → b ≠ '}' :: '}' :: more

/-- The scan that finds the end of an expression tag leaves its expression outside string literals
and brackets, and finds no end in it. -/
theorem Part.Stands.clamped_expressionOf {inner : List Char} (h : (Part.expression inner).Stands) :
    (Place.outside 0).clampedAfter (expressionOf inner) = .outside 0 ∧
      Clear (expressionOf inner) := by
  obtain ⟨body, hclose⟩ : ∃ body, closeOf '}' 0 none body = some (inner, []) := by
    obtain ⟨c, rest, hbegins⟩ := h.begins
    cases hbegins with
    | expression hclose => exact ⟨_, hclose⟩
  have hcloses := closes_of_closeOf (.inr rfl) hclose
  have hplace := hcloses.clampedAfter
  obtain ⟨front, back, hinner, hfront, hback⟩ := exists_expressionOf inner
  have hlead : ∀ x ∈ openingOf inner ++ front, isInert x = true := by
    intro x hx
    rcases List.mem_append.mp hx with hx | hx
    · exact isInert_of_isControl (isControl_of_mem_openingOf inner hx)
    · exact isInert_of_isSpace (hfront x hx)
  have htrail : ∀ x ∈ back ++ closingOf inner, isInert x = true := by
    intro x hx
    rcases List.mem_append.mp hx with hx | hx
    · exact isInert_of_isSpace (hback x hx)
    · exact isInert_of_isControl (isControl_of_mem_closingOf inner hx)
  have hshape : inner = (openingOf inner ++ front) ++
      (expressionOf inner ++ (back ++ closingOf inner)) := by
    rw [List.append_assoc]
    exact hinner
  rw [scanPlace, hshape] at hplace
  obtain ⟨hstart, hexpr⟩ := Place.clampedAfter_between hlead htrail hplace
  refine ⟨hexpr, fun a b more hab ha hb => ?_⟩
  have hinner : inner = (openingOf inner ++ front ++ a) ++ (b ++ (back ++ closingOf inner)) := by
    rw [List.append_assoc, ← List.append_assoc a, ← hab]
    exact hshape
  have hplace : (Place.outside 0).clampedAfter (openingOf inner ++ front ++ a) = .outside 0 := by
    rw [Place.clampedAfter_append, hstart, ha]
  have hbegins : b ++ (back ++ closingOf inner) ++ '}' :: '}' :: [] =
      '}' :: '}' :: (more ++ (back ++ closingOf inner) ++ ['}', '}']) := by simp [hb]
  have hend := hcloses.eq_nil_of_clampedAfter hinner hplace hbegins
  rw [hb] at hend
  cases hend

end QueryTemplate.Instrument
