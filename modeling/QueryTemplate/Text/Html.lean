/-!
Text as it is written inside an HTML document: the characters that could be taken for markup are
replaced by references.
-/

namespace QueryTemplate.Text

/-- The reference for a character that must not stand for itself. -/
def htmlReference? (c : Char) : Option String :=
  match c with
  | '<' => some "&lt;"
  | '>' => some "&gt;"
  | '&' => some "&amp;"
  | '"' => some "&quot;"
  | '\'' => some "&#x27;"
  | '/' => some "&#x2f;"
  | _ => none

/-- A text with references in place of the characters of markup. -/
def escapeHtml (text : String) : String :=
  String.join (text.toList.map fun c => (htmlReference? c).getD c.toString)

end QueryTemplate.Text
