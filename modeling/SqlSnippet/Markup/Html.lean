import SqlSnippet.Source.Token
import SqlSnippet.Text.Loose

/-!
# Rendered tokens

Tokens are rendered as a fragment of HTML. Plain text stands by itself; every other token stands
in a `span` whose class names its category. Characters that mean something to HTML are written as
entities: in text the ampersand and the angle brackets, in the value of an attribute the two
quotes as well. The class of a category is a text, or a loose text that the settings give.
-/

namespace SqlSnippet

/-- Write a character of a text. -/
def escapeTextChar : Char → Text
  | '&' => "&amp;".toList
  | '<' => "&lt;".toList
  | '>' => "&gt;".toList
  | c => [c]

/-- Write a character of the value of an attribute. -/
def escapeValueChar : Char → Text
  | '"' => "&quot;".toList
  | '\'' => "&#x27;".toList
  | c => escapeTextChar c

/-- Write a text between tags. -/
def escapeText (s : Text) : Text :=
  s.flatMap escapeTextChar

/-- Write the value of an attribute. -/
def escapeValue (s : Text) : Text :=
  s.flatMap escapeValueChar

/-- Write the value of an attribute that is a loose text. -/
def LooseText.escapeValue (x : LooseText) : LooseText :=
  x.flatMap fun
    | .char c => Text.loose (escapeValueChar c)
    | .half n => [.half n]

/-! ## Classes -/

/-- The class that each category is shown with. -/
abbrev ClassNames := Category → Text

/-- Each category is shown with its own name. -/
def ClassNames.standard : ClassNames :=
  fun c => c.name.toList

/-- What categories have after a list of changes; a later change outdoes an earlier one. -/
def changeNames {α : Type} (changes : List (Category × α)) (names : Category → α) : Category → α :=
  changes.foldl (fun names (c, cls) d => if d = c then cls else names d) names

/-- The class names of a list of changes to the standard ones. -/
def ClassNames.ofChanges (changes : List (Category × Text)) : ClassNames :=
  changeNames changes ClassNames.standard

/-! ## Tokens -/

section

variable {α : Type} (put : Char → α) (value : Category → List α)

/-- Render one token, where `put` gives a character of the markup, and `value` the class of a
category as it is written. -/
def Token.renderBy (t : Token) : List α :=
  match t.category with
  | none => (escapeText t.text).map put
  | some c =>
    "<span class=\"".toList.map put ++ value c ++ "\">".toList.map put ++
      (escapeText t.text).map put ++ "</span>".toList.map put

/-- Render tokens one after the other, inside an element for code if a container class is given. -/
def renderFragmentBy (container : Option Text) (ts : List Token) : List α :=
  let body := ts.flatMap (Token.renderBy put value)
  match container with
  | none => body
  | some cls =>
    "<pre class=\"".toList.map put ++ (escapeValue cls).map put ++ "\"><code>".toList.map put ++
      body ++ "</code></pre>".toList.map put

end

/-- The class of the element around a fragment unless another is given. -/
def standardContainer : Text :=
  "sql-code".toList

/-- Render tokens, inside an element for code if a container class is given. -/
def renderFragment (names : ClassNames) (container : Option Text) (ts : List Token) : Text :=
  renderFragmentBy id (fun c => escapeValue (names c)) container ts

/-- Render tokens with classes that are loose texts. -/
def renderLoose (names : Category → LooseText) (container : Option Text) (ts : List Token) :
    LooseText :=
  renderFragmentBy .char (fun c => (names c).escapeValue) container ts

end SqlSnippet
