import SqlSnippet.Source.Region
import SqlSnippet.Source.Words
import SqlSnippet.Text.Quoted
import SqlSnippet.Text.WordChar

/-!
# Tokens

`classify` cuts SQL text into display tokens: keywords, function calls, strings, numbers, comments
and the plain text between them. Strings and comments are the protected regions of the text. The
words of a code region are its longest runs of identifier characters; a run of digits is a number,
a word of the keyword list a keyword, and a word of the function list a function where an opening
bracket follows it in the same region. All other code is plain, and plain text that meets is one
token, so no two plain tokens are neighbours. The tokens cover the text (`flatten_classify`).
-/

namespace SqlSnippet

/-- What a token that is not plain is shown as. -/
inductive Category where
  | keyword
  | function
  | string
  | number
  | comment
  deriving DecidableEq, Repr

/-- The categories in the order in which they are numbered. -/
def Category.all : List Category :=
  [.keyword, .function, .string, .number, .comment]

/-- The name of a category, which is also its class in rendered text. -/
def Category.name : Category → String
  | .keyword => "keyword"
  | .function => "function"
  | .string => "string"
  | .number => "number"
  | .comment => "comment"

/-- The category of a name. -/
def Category.ofName? (s : String) : Option Category :=
  Category.all.find? (·.name == s)

/-- The place of a category among all. -/
def Category.index : Category → Nat
  | .keyword => 0
  | .function => 1
  | .string => 2
  | .number => 3
  | .comment => 4

/-- A stretch of text to display; it is plain if it has no category. -/
structure Token where
  text : Text
  category : Option Category
  deriving DecidableEq, Repr

/-- The literal of a token: its category in capitals and its text in quotes. -/
def Token.literal (t : Token) : Text :=
  let name := match t.category with
    | none => "PLAIN"
    | some c => c.name.map Char.toUpper
  "Token(".toList ++ name.toList ++ ", ".toList ++ quoted t.text ++ [')']

/-- Whether the token has no category. -/
def Token.isPlain (t : Token) : Bool :=
  t.category.isNone

/-- The text that a list of tokens covers. -/
def Token.flatten (ts : List Token) : Text :=
  ts.flatMap Token.text

/-! ## Words -/

/-- Whether an opening bracket comes next, after white space if any. -/
def opensCall (rest : Text) : Bool :=
  (Text.trimStart rest).head? == some '('

/-- The category of a word of a code region, by what follows it there. -/
def wordCategory (v : Vocabulary) (word rest : Text) : Option Category :=
  if word.all Char.isDigit then some .number
  else if word.upper ∈ v.keywords then some .keyword
  else if word.upper ∈ v.functions ∧ opensCall rest = true then some .function
  else none

/-- The words of a code region with their categories, and each other character on its own. -/
def codeTokens (v : Vocabulary) (s : Text) : List Token :=
  match s with
  | [] => []
  | c :: r =>
    if isIdentChar c then
      let word := c :: r.takeWhile isIdentChar
      let rest := r.dropWhile isIdentChar
      ⟨word, wordCategory v word rest⟩ :: codeTokens v rest
    else ⟨[c], none⟩ :: codeTokens v r
termination_by s.length
decreasing_by
  · exact Nat.lt_succ_of_le (List.dropWhile_suffix _).length_le
  · exact Nat.lt_succ_self _

/-- The tokens of one region. -/
def Region.tokens (v : Vocabulary) (r : Region) : List Token :=
  match r.kind with
  | .code => codeTokens v r.text
  | .string => [⟨r.text, some .string⟩]
  | .lineComment => [⟨r.text, some .comment⟩]
  | .blockComment => [⟨r.text, some .comment⟩]

/-! ## Joining plain text -/

/-- Put a token in front of others; a plain one joins a plain one that follows. -/
def Token.join (t : Token) : List Token → List Token
  | [] => [t]
  | u :: us => if t.isPlain && u.isPlain then ⟨t.text ++ u.text, none⟩ :: us else t :: u :: us

/-- Join plain tokens that are neighbours. -/
def joinPlain (ts : List Token) : List Token :=
  ts.foldr Token.join []

/-- The display tokens of a text. -/
def classify (v : Vocabulary) (s : Text) : List Token :=
  joinPlain ((scan s).flatMap (Region.tokens v))

theorem flatten_codeTokens (v : Vocabulary) (s : Text) :
    Token.flatten (codeTokens v s) = s := by
  fun_induction codeTokens v s with
  | case1 => rfl
  | case2 c r _ word rest ih =>
    simp only [Token.flatten, List.flatMap_cons] at ih ⊢
    rw [ih, List.cons_append, List.takeWhile_append_dropWhile]
  | case3 c r _ ih =>
    simp only [Token.flatten, List.flatMap_cons] at ih ⊢
    rw [ih, List.singleton_append]

theorem flatten_tokens (v : Vocabulary) (r : Region) : Token.flatten (r.tokens v) = r.text := by
  cases h : r.kind <;> simp [Region.tokens, h, flatten_codeTokens] <;> simp [Token.flatten]

theorem flatten_join (t : Token) (ts : List Token) :
    Token.flatten (t.join ts) = t.text ++ Token.flatten ts := by
  cases ts with
  | nil => simp [Token.join, Token.flatten]
  | cons u us =>
    simp only [Token.join]
    split <;> simp [Token.flatten]

theorem flatten_joinPlain (ts : List Token) :
    Token.flatten (joinPlain ts) = Token.flatten ts := by
  induction ts with
  | nil => rfl
  | cons t ts ih =>
    rw [joinPlain, List.foldr_cons, flatten_join]
    exact congrArg (t.text ++ ·) ih

/-- The tokens of a text cover it. -/
theorem flatten_classify (v : Vocabulary) (s : Text) : Token.flatten (classify v s) = s := by
  rw [classify, flatten_joinPlain]
  conv => rhs; rw [← flatten_scan s]
  simp only [Token.flatten, Region.flatten, List.flatMap_assoc]
  exact congrArg (List.flatMap · (scan s)) (funext fun r => flatten_tokens v r)

end SqlSnippet
