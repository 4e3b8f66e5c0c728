import QueryTemplate.Proofs.SourceParts

/-!
What an expression tag is made of: a character for white space control at either end, white space,
and the expression. When the tag is made to end in the emit filter, the white space around the
expression is given up and the expression is put into parentheses.
-/

namespace QueryTemplate

namespace Text

theorem exists_append_dropWhile (p : Char → Bool) (text : List Char) :
    ∃ front, text = front ++ text.dropWhile p ∧ ∀ x ∈ front, p x = true :=
  ⟨text.takeWhile p, (List.takeWhile_append_dropWhile ..).symm,
    List.all_eq_true.mp (List.all_takeWhile ..)⟩

/-- What is left of a text without the characters of a kind at its ends, with these. -/
theorem exists_dropWhile_ends (p : Char → Bool) (text : List Char) :
    ∃ front back,
      text = front ++ (((text.dropWhile p).reverse.dropWhile p).reverse ++ back) ∧
        (∀ x ∈ front, p x = true) ∧ ∀ x ∈ back, p x = true := by
  obtain ⟨front, hstart, hfront⟩ := exists_append_dropWhile p text
  obtain ⟨back, hend, hback⟩ := exists_append_dropWhile p (text.dropWhile p).reverse
  refine ⟨front, back.reverse, ?_, hfront, fun x hx => hback x (List.mem_reverse.mp hx)⟩
  rw [← List.reverse_append, ← hend, List.reverse_reverse]
  exact hstart

theorem exists_append_trimStart (text : List Char) :
    ∃ front, text = front ++ trimStart text ∧ ∀ x ∈ front, isSpace x = true :=
  exists_append_dropWhile isSpace text

/-- What trimming leaves, with what it takes away. -/
theorem exists_trim (text : List Char) :
    ∃ front back, text = front ++ (trim text ++ back) ∧ (∀ x ∈ front, isSpace x = true) ∧
      ∀ x ∈ back, isSpace x = true :=
  exists_dropWhile_ends isSpace text

end Text

namespace Instrument

/-- A white space control character at the front of a text, if there is one. -/
theorem takeControl_eq (text : List Char) :
    (takeControl text).1 ++ (takeControl text).2 = text ∧
      ∀ x ∈ (takeControl text).1, isControl x = true := by
  cases text with
  | nil => simp [takeControl]
  | cons x rest =>
      rw [takeControl]
      split
      · simpa using ‹_›
      · simp

/-- Nothing, or a character for white space control. -/
def IsMark (text : List Char) : Prop :=
  text = [] ∨ ∃ x, isControl x = true ∧ text = [x]

theorem isMark_iff {text : List Char} : IsMark text ↔ text = [] ∨ text = ['-'] ∨ text = ['+'] := by
  simp [IsMark, isControl, or_and_right, exists_or]

theorem IsMark.isControl_of_mem {text : List Char} (h : IsMark text) {x : Char} (hx : x ∈ text) :
    isControl x = true := by
  rcases h with rfl | ⟨y, hy, rfl⟩
  · cases hx
  · rwa [List.mem_singleton.mp hx]

theorem isMark_takeControl (text : List Char) : IsMark (takeControl text).1 := by
  cases text with
  | nil => exact .inl rfl
  | cons x rest =>
      rw [takeControl]
      split
      · exact .inr ⟨x, ‹_›, rfl⟩
      · exact .inl rfl

theorem reverse_takeControl (text : List Char) :
    (takeControl text).1.reverse = (takeControl text).1 := by
  cases text with
  | nil => rfl
  | cons x rest =>
      rw [takeControl]
      split <;> rfl

variable (body : List Char)

/-- The text of a tag without a control character at either end. -/
def unmarked : List Char :=
  (takeControl (takeControl body).2.reverse).2.reverse

/-- The control character that the text of a tag begins with, if there is one. -/
def openingOf : List Char :=
  (takeControl body).1

/-- The control character that the text of a tag ends in, if there is one besides the first. -/
def closingOf : List Char :=
  (takeControl (takeControl body).2.reverse).1

/-- The expression of a tag. -/
def expressionOf : List Char :=
  Text.trim (takeControl (takeControl body).2.reverse).2.reverse

/-- An expression in parentheses, piped into the emit filter. -/
def emissionOf (expr : List Char) : List Char :=
  '(' :: expr ++ ") | ".toList ++ emitName.toList ++
    '(' :: scopeName.toList ++ ", ".toList ++ hintArgument expr ++ [')']

/-- A tag with an expression that is piped into the emit filter. -/
def emissionTag (opening expr closing : List Char) : List Char :=
  '{' :: '{' :: (opening ++ ' ' :: (emissionOf expr ++ ' ' :: (closing ++ ['}', '}'])))

/-- A tag has its control characters at the ends of its text. -/
theorem unmarked_append_closingOf : unmarked body ++ closingOf body = (takeControl body).2 := by
  have hclose := congrArg List.reverse (takeControl_eq (takeControl body).2.reverse).1
  rwa [List.reverse_append, List.reverse_reverse, reverse_takeControl] at hclose

/-- Only the expression of a tag and its control characters matter for what it becomes. -/
theorem expressionTag_eq :
    expressionTag body =
      if (expressionOf body).isEmpty then none
      else some (emissionTag (openingOf body) (expressionOf body) (closingOf body)) := by
  have hopen : " (".toList = [' ', '('] := rfl
  have hclose : ") ".toList = [')', ' '] := rfl
  rw [expressionTag]
  simp only [openingOf, expressionOf, closingOf, emissionTag, emissionOf, hopen, hclose,
    List.append_assoc, List.cons_append, List.nil_append]

theorem exists_expressionOf :
    ∃ front back,
      body = openingOf body ++ (front ++ (expressionOf body ++ (back ++ closingOf body))) ∧
        (∀ x ∈ front, Text.isSpace x = true) ∧ ∀ x ∈ back, Text.isSpace x = true := by
  obtain ⟨front, back, htrim, hfront, hback⟩ := Text.exists_trim (unmarked body)
  refine ⟨front, back, ?_, hfront, hback⟩
  calc body = openingOf body ++ (takeControl body).2 := (takeControl_eq body).1.symm
    _ = openingOf body ++ (unmarked body ++ closingOf body) := by rw [unmarked_append_closingOf]
    _ = openingOf body ++ ((front ++ (expressionOf body ++ back)) ++ closingOf body) :=
        congrArg (fun text => openingOf body ++ (text ++ closingOf body)) htrim
    _ = _ := by simp only [List.append_assoc]

/-- What an expression tag becomes in the instrumented source. -/
theorem Part.Stands.written_expression {inner : List Char} (h : (Part.expression inner).Stands) :
    expressionOf inner ≠ [] ∧
      (Part.expression inner).written =
        emissionTag (openingOf inner) (expressionOf inner) (closingOf inner) := by
  have htag := h.expressionTag_eq
  rw [Instrument.expressionTag_eq] at htag
  split at htag
  · cases htag
  · rename_i hne
    exact ⟨fun hnone => hne (by rw [hnone]; rfl), (Option.some.inj htag).symm⟩

theorem isMark_openingOf : IsMark (openingOf body) := isMark_takeControl _

theorem isMark_closingOf : IsMark (closingOf body) := isMark_takeControl _

theorem isControl_of_mem_openingOf {x : Char} (h : x ∈ openingOf body) : isControl x = true :=
  (takeControl_eq body).2 x h

theorem isControl_of_mem_closingOf {x : Char} (h : x ∈ closingOf body) : isControl x = true :=
  (takeControl_eq _).2 x h

end Instrument

end QueryTemplate
