import QueryTemplate.Proofs.NameHints
import QueryTemplate.Proofs.Fragments
import QueryTemplate.Proofs.TagScanning

/-!
The brackets and string literals in the text of a tag. Reading the text character by character, a
place is either outside string literals, with some number of brackets open, or in a literal. A text
is balanced if it closes the brackets that it opens, and no others.
-/

namespace QueryTemplate

namespace Instrument

/-- Where in the text of a tag one stands. -/
inductive Place where
  /-- Outside string literals. -/
  | outside (depth : Nat)
  | quoted (depth : Nat) (quote : Char)
  /-- In a string literal, behind a backslash. -/
  | escaped (depth : Nat) (quote : Char)
  deriving DecidableEq, Repr

namespace Place

/-- The place behind a character. There is none behind a closing bracket if no bracket is open. -/
def next : Place → Char → Option Place
  | outside depth, x =>
    if isQuote x then some (quoted depth x)
    else if isOpening x then some (outside (depth + 1))
    else if isClosing x then if depth = 0 then none else some (outside (depth - 1))
    else some (outside depth)
  | quoted depth quote, x =>
    if x = '\\' then some (escaped depth quote)
    else if x = quote then some (outside depth)
    else some (quoted depth quote)
  | escaped depth quote, _ => some (quoted depth quote)

/-- The place behind a text. -/
def after (place : Place) : List Char → Option Place
  | [] => some place
  | x :: text => (place.next x).bind (after · text)

variable {place : Place} {depth : Nat} {text more : List Char}

theorem after_append (place : Place) (text more : List Char) :
    place.after (text ++ more) = (place.after text).bind (·.after more) := by
  induction text generalizing place with
  | nil => rfl
  | cons x text ih =>
      simp only [List.cons_append, after]
      cases place.next x with
      | none => rfl
      | some place => exact ih place

theorem after_append_of_eq {place' : Place} (h : place.after text = some place')
    (more : List Char) : place.after (text ++ more) = place'.after more := by
  rw [after_append, h]
  rfl

/-- The ways a character can lead from a place to the next one. -/
inductive Steps (x : Char) : Place → Place → Prop
  | quote {depth : Nat} (h : isQuote x = true) : Steps x (outside depth) (quoted depth x)
  | opens {depth : Nat} (hquote : isQuote x = false) (h : isOpening x = true) :
      Steps x (outside depth) (outside (depth + 1))
  | closes {depth : Nat} (hquote : isQuote x = false) (hopening : isOpening x = false)
      (h : isClosing x = true) : Steps x (outside (depth + 1)) (outside depth)
  | passes {depth : Nat} (hquote : isQuote x = false) (hopening : isOpening x = false)
      (hclosing : isClosing x = false) : Steps x (outside depth) (outside depth)
  | escape {depth : Nat} {q : Char} (h : x = '\\') : Steps x (quoted depth q) (escaped depth q)
  | ends {depth : Nat} {q : Char} (hescape : x ≠ '\\') (h : x = q) :
      Steps x (quoted depth q) (outside depth)
  | stays {depth : Nat} {q : Char} (hescape : x ≠ '\\') (h : x ≠ q) :
      Steps x (quoted depth q) (quoted depth q)
  | skips {depth : Nat} {q : Char} : Steps x (escaped depth q) (quoted depth q)

theorem next_eq_some_iff {x : Char} {place' : Place} :
    place.next x = some place' ↔ Steps x place place' := by
  constructor
  · intro h
    cases place with
    | outside depth =>
        rw [next] at h
        split at h
        · cases h
          exact .quote ‹_›
        rename_i hquote
        rw [Bool.not_eq_true] at hquote
        split at h
        · cases h
          exact .opens hquote ‹_›
        rename_i hopening
        rw [Bool.not_eq_true] at hopening
        split at h
        · cases depth with
          | zero => cases h
          | succ depth =>
              cases h
              exact .closes hquote hopening ‹_›
        · cases h
          exact .passes hquote hopening (Bool.eq_false_iff.mpr ‹_›)
    | quoted depth quote =>
        rw [next] at h
        split at h
        · cases h
          exact .escape ‹_›
        split at h
        · cases h
          exact .ends ‹_› ‹_›
        · cases h
          exact .stays ‹_› ‹_›
    | escaped depth quote =>
        cases h
        exact .skips
  · intro h
    cases h with
    | ends hescape h =>
        subst h
        simp [next, hescape]
    | _ => simp [next, *]

theorem next_inert {x : Char} (h : isInert x = true) :
    (outside depth).next x = some (outside depth) := by
  simp only [isInert, List.contains_cons, List.contains_nil, Bool.or_false, Bool.not_or,
    Bool.and_eq_true, Bool.not_eq_true', beq_eq_false_iff_ne] at h
  simp [next, isQuote, isOpening, isClosing, h]

/-- Characters that are neither quotes nor brackets lead nowhere else. -/
theorem after_inert (h : ∀ x ∈ text, isInert x = true) :
    (outside depth).after text = some (outside depth) := by
  induction text with
  | nil => rfl
  | cons x text ih =>
      rw [List.forall_mem_cons] at h
      rw [after, next_inert h.1]
      exact ih h.2

/-- The place with more brackets open. -/
def deeper (more : Nat) : Place → Place
  | outside depth => outside (depth + more)
  | quoted depth quote => quoted (depth + more) quote
  | escaped depth quote => escaped (depth + more) quote

theorem Steps.deeper {x : Char} {place' : Place} (h : Steps x place place') (more : Nat) :
    Steps x (place.deeper more) (place'.deeper more) := by
  cases h with
  | quote h => exact .quote h
  | @opens depth hquote h =>
      rw [Place.deeper, Place.deeper, Nat.add_right_comm]
      exact .opens hquote h
  | @closes depth hquote hopening h =>
      rw [Place.deeper, Place.deeper, Nat.add_right_comm]
      exact .closes hquote hopening h
  | passes hquote hopening hclosing => exact .passes hquote hopening hclosing
  | escape h => exact .escape h
  | ends hescape h => exact .ends hescape h
  | stays hescape h => exact .stays hescape h
  | skips => exact .skips

theorem next_deeper {x : Char} {place' : Place} (h : place.next x = some place') (more : Nat) :
    (place.deeper more).next x = some (place'.deeper more) :=
  next_eq_some_iff.mpr ((next_eq_some_iff.mp h).deeper more)

/-- With more brackets open to begin with, as many more are open in the end. -/
theorem after_deeper {place' : Place} (h : place.after text = some place') (more : Nat) :
    (place.deeper more).after text = some (place'.deeper more) := by
  induction text generalizing place with
  | nil =>
      cases h
      rfl
  | cons x text ih =>
      obtain ⟨mid, hnext, hrest⟩ := Option.bind_eq_some_iff.mp h
      rw [after, next_deeper hnext more]
      exact ih hrest

/-- In a string literal, which began with a quote character. -/
def InLiteral : Place → Prop
  | outside _ => False
  | quoted _ quote => isQuote quote = true
  | escaped _ quote => isQuote quote = true

theorem isQuote_of_isInert {x : Char} (h : isInert x = true) : isQuote x = false := by
  simp only [isInert, List.contains_cons, List.contains_nil, Bool.or_false, Bool.not_or,
    Bool.and_eq_true, Bool.not_eq_true', beq_eq_false_iff_ne] at h
  simp [isQuote, h]

theorem Steps.inLiteral {x : Char} {place' : Place} (h : Steps x place place')
    (hplace : place.InLiteral ∨ ∃ depth, place = outside depth) :
    place'.InLiteral ∨ ∃ depth, place' = outside depth := by
  cases h with
  | quote h => exact .inl h
  | opens | closes | passes | ends => exact .inr ⟨_, rfl⟩
  | escape | stays | skips =>
      rcases hplace with hplace | ⟨depth, hplace⟩
      · exact .inl hplace
      · cases hplace

/-- A place that a text leads to is outside literals or in one. -/
theorem inLiteral_of_after {place' : Place}
    (hplace : place.InLiteral ∨ ∃ depth, place = outside depth)
    (h : place.after text = some place') : place'.InLiteral ∨ ∃ depth, place' = outside depth := by
  induction text generalizing place with
  | nil =>
      cases h
      exact hplace
  | cons x text ih =>
      obtain ⟨mid, hnext, hrest⟩ := Option.bind_eq_some_iff.mp h
      exact ih ((next_eq_some_iff.mp hnext).inLiteral hplace) hrest

theorem Steps.inLiteral_of_isInert {x : Char} {place' : Place} (h : Steps x place place')
    (hplace : place.InLiteral) (hx : isInert x = true) : place'.InLiteral := by
  cases h with
  | quote | opens | closes | passes => exact hplace.elim
  | ends _ h =>
      subst h
      rw [InLiteral, isQuote_of_isInert hx] at hplace
      cases hplace
  | escape | stays | skips => exact hplace

/-- A literal does not end without a quote character. -/
theorem inLiteral_of_inert (hplace : place.InLiteral) (htext : ∀ x ∈ text, isInert x = true)
    {place' : Place} (h : place.after text = some place') : place'.InLiteral := by
  induction text generalizing place with
  | nil =>
      cases h
      exact hplace
  | cons x text ih =>
      rw [List.forall_mem_cons] at htext
      obtain ⟨mid, hnext, hrest⟩ := Option.bind_eq_some_iff.mp h
      exact ih ((next_eq_some_iff.mp hnext).inLiteral_of_isInert hplace htext.1) htext.2 hrest

end Place

/-- The text closes the brackets and literals that it opens, and no others. -/
def Balanced (text : List Char) : Prop :=
  (Place.outside 0).after text = some (.outside 0)

instance (text : List Char) : Decidable (Balanced text) :=
  inferInstanceAs (Decidable (_ = _))

namespace Balanced

variable {text more : List Char}

theorem after (h : Balanced text) (depth : Nat) :
    (Place.outside depth).after text = some (.outside depth) := by
  have hdeep := Place.after_deeper h depth
  rwa [Place.deeper, Nat.zero_add] at hdeep

theorem append (h : Balanced text) (h' : Balanced more) : Balanced (text ++ more) := by
  rw [Balanced, Place.after_append_of_eq h]
  exact h'

theorem of_inert (h : ∀ x ∈ text, isInert x = true) : Balanced text :=
  Place.after_inert h

/-- What is left of a balanced text behind one that is balanced. -/
theorem of_append_left (h : Balanced text) (h' : Balanced (text ++ more)) : Balanced more := by
  rwa [Balanced, Place.after_append_of_eq h] at h'

theorem of_append_right (h : ∀ x ∈ more, isInert x = true) (h' : Balanced (text ++ more)) :
    Balanced text := by
  rw [Balanced, Place.after_append] at h'
  obtain ⟨place, htext, hmore⟩ := Option.bind_eq_some_iff.mp h'
  rcases Place.inLiteral_of_after (.inr ⟨0, rfl⟩) htext with hplace | ⟨depth, rfl⟩
  · exact (Place.inLiteral_of_inert hplace h hmore).elim
  · rw [Place.after_inert h] at hmore
    rw [Balanced, htext, hmore]

theorem parenthesized (h : Balanced text) : Balanced ('(' :: text ++ [')']) := by
  have hopen : (Place.outside 0).after ['('] = some (.outside 1) := rfl
  rw [Balanced, ← List.singleton_append, List.append_assoc, Place.after_append_of_eq hopen,
    Place.after_append_of_eq (h.after 1)]
  rfl

/-- A string literal without escapes. -/
theorem quoted (hquote : '"' ∉ text) (hescape : '\\' ∉ text) : Balanced ('"' :: text ++ ['"']) := by
  have hopen : (Place.outside 0).after ['"'] = some (.quoted 0 '"') := rfl
  have hrun : (Place.quoted 0 '"').after text = some (.quoted 0 '"') := by
    induction text with
    | nil => rfl
    | cons x text ih =>
        rw [List.mem_cons, not_or] at hquote hescape
        rw [Place.after, Place.next, if_neg (Ne.symm hescape.1), if_neg (Ne.symm hquote.1)]
        exact ih hquote.2 hescape.2
  rw [Balanced, ← List.singleton_append, List.append_assoc, Place.after_append_of_eq hopen,
    Place.after_append_of_eq hrun]
  rfl

end Balanced

/-! ### The tag that an expression becomes -/

theorem isInert_of_isSpace {x : Char} (h : Text.isSpace x = true) : isInert x = true := by
  cases hinert : isInert x with
  | true => rfl
  | false =>
      simp only [isInert, List.contains_cons, List.contains_nil, Bool.or_false, Bool.not_eq_false',
        Bool.or_eq_true, beq_iff_eq] at hinert
      rcases hinert with rfl | rfl | rfl | rfl | rfl | rfl | rfl | rfl <;>
        exact absurd h (by decide)

theorem isInert_of_isControl {x : Char} (h : isControl x = true) : isInert x = true := by
  simp only [isControl, Bool.or_eq_true, beq_iff_eq] at h
  rcases h with rfl | rfl <;> rfl

theorem balanced_hintArgument (expr : List Char) : Balanced (hintArgument expr) := by
  rw [hintArgument]
  split
  · rename_i hint hhint
    obtain ⟨hquote, hescape⟩ := not_mem_of_extractNameHint hhint
    exact .quoted hquote hescape
  · exact .of_inert (List.all_eq_true.mp rfl)

/-- Between its control characters and the white space, the text of a tag is its expression. -/
theorem Balanced.expressionOf {body : List Char} (h : Balanced body) :
    Balanced (expressionOf body) := by
  obtain ⟨front, back, hbody, hfront, hback⟩ := exists_expressionOf body
  rw [hbody] at h
  have h := of_append_left (.of_inert fun x hx =>
    isInert_of_isControl (isControl_of_mem_openingOf body hx)) h
  have h := of_append_left (.of_inert fun x hx => isInert_of_isSpace (hfront x hx)) h
  refine of_append_right (fun x hx => ?_) h
  rcases List.mem_append.mp hx with hx | hx
  · exact isInert_of_isSpace (hback x hx)
  · exact isInert_of_isControl (isControl_of_mem_closingOf body hx)

theorem Balanced.emissionOf {expr : List Char} (h : Balanced expr) :
    Balanced (emissionOf expr) := by
  have hbar : Balanced (" | ".toList ++ emitName.toList) := by decide
  have hscope : Balanced (scopeName.toList ++ ", ".toList) := by decide
  have hcall := (hscope.append (balanced_hintArgument expr)).parenthesized
  have hshape : Instrument.emissionOf expr = ('(' :: expr ++ [')']) ++
      ((" | ".toList ++ emitName.toList) ++
        ('(' :: (scopeName.toList ++ ", ".toList ++ hintArgument expr) ++ [')'])) := by
    simp [Instrument.emissionOf]
  rw [hshape]
  exact h.parenthesized.append (hbar.append hcall)

/-- An expression tag becomes a tag with a balanced text, if its own is balanced. -/
theorem expressionTag_balanced {body tag : List Char} (hbody : Balanced body)
    (h : expressionTag body = some tag) :
    ∃ inner, tag = '{' :: '{' :: inner ++ ['}', '}'] ∧ Balanced inner := by
  rw [expressionTag_eq] at h
  split at h
  · cases h
  cases h
  have hspace : Balanced [' '] := by decide
  have hcontrol {text : List Char} (h : ∀ x ∈ text, isControl x = true) : Balanced text :=
    .of_inert fun x hx => isInert_of_isControl (h x hx)
  refine ⟨openingOf body ++ ([' '] ++ (emissionOf (expressionOf body) ++ ([' '] ++
    closingOf body))), by simp [emissionTag], ?_⟩
  refine (hcontrol fun x => isControl_of_mem_openingOf body).append (hspace.append ?_)
  exact hbody.expressionOf.emissionOf.append (hspace.append
    (hcontrol fun x => isControl_of_mem_closingOf body))

end Instrument

end QueryTemplate
