import SqlSnippet.Text.Upper

/-!
# Word lists

The words that classifier and formatter know: reserved words, builtin functions, and the words
that start a clause on its own line. Word lists are compared in upper case and without the white
space around a word; `WordSet.ofWords` brings a list into that form, in ascending order and
without repetitions, so that two lists which name the same words have the same set.
-/

namespace SqlSnippet

/-- Words in normal form: trimmed, upper-case, ascending and without repetitions. -/
abbrev WordSet := List Text

/-- Put a word into an ascending list, unless it is there already. -/
def WordSet.insert (w : Text) : WordSet → WordSet
  | [] => [w]
  | v :: vs => if w < v then w :: v :: vs else if w = v then v :: vs else v :: WordSet.insert w vs

/-- The normal form of a word: no white space around it, and all of it in upper case. -/
def normalWord (w : Text) : Text :=
  (Text.trim w).upper

/-- The set of the words in a list; blank words are dropped. -/
def WordSet.ofWords (ws : List Text) : WordSet :=
  (ws.filter (!Text.isBlank ·)).foldr (fun w s => WordSet.insert (normalWord w) s) []

theorem WordSet.mem_insert {w v : Text} {s : WordSet} :
    v ∈ WordSet.insert w s ↔ v = w ∨ v ∈ s := by
  induction s with
  | nil => simp [WordSet.insert]
  | cons u us ih =>
    simp only [WordSet.insert]
    split
    · simp
    · split
      · simp_all
      · simp only [List.mem_cons, ih]; exact or_left_comm

/-- The set holds the normal forms of the words that are not blank. -/
theorem WordSet.mem_ofWords {v : Text} {ws : List Text} :
    v ∈ WordSet.ofWords ws ↔ ∃ w ∈ ws, Text.isBlank w = false ∧ normalWord w = v := by
  induction ws with
  | nil => simp [WordSet.ofWords]
  | cons w ws ih =>
    simp only [WordSet.ofWords, List.filter_cons] at ih ⊢
    cases h : Text.isBlank w <;> simp [h, WordSet.mem_insert, ih, @eq_comm _ v (normalWord w)]

/-- The reserved words. -/
def reservedWords : List Text := [
  "SELECT", "FROM", "WHERE", "AS", "DISTINCT", "ALL", "ORDER", "BY", "ASC", "DESC", "GROUP",
  "HAVING", "LIMIT", "OFFSET", "TOP", "FETCH", "NEXT", "ROWS", "ONLY",
  "JOIN", "INNER", "LEFT", "RIGHT", "FULL", "OUTER", "CROSS", "NATURAL", "ON", "USING",
  "AND", "OR", "NOT", "IN", "BETWEEN", "LIKE", "IS", "NULL", "EXISTS",
  "CASE", "WHEN", "THEN", "ELSE", "END", "IF",
  "UNION", "INTERSECT", "EXCEPT", "MINUS",
  "OVER", "PARTITION", "WITH", "RECURSIVE", "CTE",
  "INSERT", "INTO", "VALUES", "UPDATE", "SET", "DELETE",
  "CREATE", "ALTER", "DROP", "TABLE", "INDEX", "VIEW", "PROCEDURE", "FUNCTION", "TRIGGER", "BEGIN",
  "PRIMARY", "KEY", "FOREIGN", "REFERENCES", "UNIQUE", "CHECK", "DEFAULT", "CONSTRAINT", "CASCADE",
  "RESTRICT",
  "COMMIT", "ROLLBACK", "SAVEPOINT", "GRANT", "REVOKE"].map String.toList

/-- The builtin functions, which count only where they are called. -/
def builtinFunctions : List Text := [
  "COUNT", "SUM", "AVG", "MIN", "MAX",
  "ROW_NUMBER", "RANK", "DENSE_RANK", "NTILE", "LAG", "LEAD", "FIRST_VALUE", "LAST_VALUE",
  "CONCAT", "SUBSTRING", "LENGTH", "UPPER", "LOWER", "TRIM", "LTRIM", "RTRIM", "REPLACE",
  "CHARINDEX", "PATINDEX", "STUFF", "REVERSE", "LEFT", "RIGHT",
  "GETDATE", "CURRENT_DATE", "CURRENT_TIMESTAMP", "DATEADD", "DATEDIFF", "YEAR", "MONTH", "DAY",
  "HOUR", "MINUTE", "SECOND", "DATEPART", "DATENAME",
  "ABS", "CEILING", "FLOOR", "ROUND", "POWER", "SQRT", "MOD", "RAND",
  "COALESCE", "NULLIF", "CAST", "CONVERT", "ISNULL", "NVL", "IFNULL", "IIF", "CHOOSE", "GREATEST",
  "LEAST"].map String.toList

/-- The words that start a line unless a configuration names others. -/
def standardClauseWords : List Text := [
  "FROM", "WHERE", "JOIN", "INNER", "LEFT", "RIGHT", "FULL", "ON", "AND", "OR", "ORDER", "GROUP",
  "HAVING", "LIMIT"].map String.toList

/-- The word lists that a text is classified by. -/
structure Vocabulary where
  keywords : WordSet
  functions : WordSet

/-- The vocabulary of two lists of words. -/
def Vocabulary.ofWords (keywords functions : List Text) : Vocabulary :=
  ⟨WordSet.ofWords keywords, WordSet.ofWords functions⟩

/-- The reserved words and the builtin functions. -/
def Vocabulary.standard : Vocabulary :=
  .ofWords reservedWords builtinFunctions

end SqlSnippet
