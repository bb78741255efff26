import SqlSnippet.Source.Words

/-!
# Layout options

How SQL is laid out: the indent of list items, the words that start a line, and whether each
statement of a script is laid out on its own.
-/

namespace SqlSnippet

/-- What an indent is made of. -/
inductive IndentStyle where
  | spaces
  | tabs
  deriving DecidableEq, Repr

/-- The name of an indent style in settings. -/
def IndentStyle.name : IndentStyle → String
  | .spaces => "spaces"
  | .tabs => "tabs"

/-- The indent style of a name. -/
def IndentStyle.ofName? : String → Option IndentStyle
  | "spaces" => some .spaces
  | "tabs" => some .tabs
  | _ => none

/-- How SQL is laid out. -/
structure LayoutOptions where
  indentStyle : IndentStyle
  indentSize : Int
  clauseWords : List Text
  splitStatements : Bool

namespace LayoutOptions

/-- List items are indented by four spaces, and a text is laid out as a whole. -/
def standard : LayoutOptions :=
  ⟨.spaces, 4, standardClauseWords, false⟩

/-- List items are indented by two spaces. -/
def compact : LayoutOptions :=
  { standard with indentSize := 2 }

/-- Each statement is laid out on its own. -/
def script : LayoutOptions :=
  { standard with splitStatements := true }

/-- The indent of list items: a tab, or as many spaces as the size says, none if it is not
positive. -/
def indent (o : LayoutOptions) : Text :=
  match o.indentStyle with
  | .tabs => ['\t']
  | .spaces => List.replicate o.indentSize.toNat ' '

end LayoutOptions

/-- Why an indent cannot be made. -/
inductive IndentError where
  | beyondIndex
  | beyondMemory
  deriving DecidableEq, Repr

/-- An indent of spaces must have a width that a signed 64-bit index can hold, and must leave room
in a memory of 64 GiB, which is that of one machine. -/
def LayoutOptions.checkIndent (o : LayoutOptions) : Except IndentError Unit :=
  match o.indentStyle with
  | .tabs => .ok ()
  | .spaces =>
    if Nat.pow 2 63 ≤ o.indentSize || o.indentSize < -(Nat.pow 2 63) then .error .beyondIndex
    else if Nat.pow 2 36 ≤ o.indentSize then .error .beyondMemory
    else .ok ()

end SqlSnippet
