import SqlSnippet.Data.Moment
import SqlSnippet.Number.Binary64
import SqlSnippet.Number.Whole
import SqlSnippet.Text.Loose

/-!
# Configuration values

What a configuration file can hold: nothing, truth values, numbers, texts, moments, lists and
tables. Texts and keys are loose ones. A table keeps its entries in the order in which their keys
first came. A value that is used where a text is expected is read as its text (`Value.asText`);
inside lists and tables a value shows as its literal (`Value.literal`), in which a text is quoted.
Only a value that holds no whole number of too many digits can be read so (`Value.isWritable`).
-/

namespace SqlSnippet

/-- A value of a configuration file. -/
inductive Value where
  | null
  | bool (b : Bool)
  | whole (n : Int)
  | float (x : Binary64)
  | text (s : LooseText)
  | moment (m : Moment)
  | list (vs : List Value)
  | table (entries : List (LooseText × Value))
  deriving Repr

/-- The entries of a table, each key once. -/
abbrev Entries := List (LooseText × Value)

/-- The value of a key. -/
def Entries.get? (es : Entries) (key : Text) : Option Value :=
  es.lookup key.loose

/-- Give a key a value: an old key keeps its place, a new one comes last. -/
def Entries.set (key : LooseText) (v : Value) : Entries → Entries
  | [] => [(key, v)]
  | (k, w) :: es => if k = key then (k, v) :: es else (k, w) :: Entries.set key v es

namespace Value

/-- Whether a setting with this value counts as left out: nothing, false, zero, and whatever is
empty. -/
def isVacant : Value → Bool
  | .null => true
  | .bool b => !b
  | .whole n => n == 0
  | .float x => x.isZero
  | .text s => s.isEmpty
  | .moment _ => false
  | .list vs => vs.isEmpty
  | .table es => es.isEmpty

mutual

/-- The literal of a value. -/
def literal : Value → Text
  | .null => "None".toList
  | .bool true => "True".toList
  | .bool false => "False".toList
  | .whole n => (toString n).toList
  | .float x => x.literal
  | .text s => s.quoted
  | .moment m => m.literal.toList
  | .list vs => '[' :: itemLiterals vs ++ [']']
  | .table es => '\x7b' :: entryLiterals es ++ ['\x7d']

/-- The literals of items, with commas between them. -/
def itemLiterals : List Value → Text
  | [] => []
  | [v] => v.literal
  | v :: vs => v.literal ++ ", ".toList ++ itemLiterals vs

/-- The literals of entries, with commas between them. -/
def entryLiterals : List (LooseText × Value) → Text
  | [] => []
  | [(k, v)] => k.quoted ++ ": ".toList ++ v.literal
  | (k, v) :: es => k.quoted ++ ": ".toList ++ v.literal ++ ", ".toList ++ entryLiterals es

end

/-- A value read as a text: a text is itself, and a moment has its plain form. That lists and tables
about a thousand deep leave no stack to write them with is not followed; tables can be so deep where
keys of many parts make them. -/
def asText : Value → LooseText
  | .text s => s
  | .moment m => Text.loose m.text.toList
  | v => Text.loose v.literal

mutual

/-- Whether all whole numbers of a value can be written in digits. -/
def isWritable : Value → Bool
  | .whole n => n.natAbs < Nat.pow 10 maxDigits
  | .list vs => areItemsWritable vs
  | .table es => areEntriesWritable es
  | _ => true

/-- Whether all whole numbers of items can be written in digits. -/
def areItemsWritable : List Value → Bool
  | [] => true
  | v :: vs => v.isWritable && areItemsWritable vs

/-- Whether all whole numbers of entries can be written in digits. -/
def areEntriesWritable : List (LooseText × Value) → Bool
  | [] => true
  | (_, v) :: es => v.isWritable && areEntriesWritable es

end

/-- The name of the kind of a value in messages. -/
def kindName : Value → String
  | .null => "NoneType"
  | .bool _ => "bool"
  | .whole _ => "int"
  | .float _ => "float"
  | .text _ => "str"
  | .moment (.day _) => "date"
  | .moment (.clock _) => "time"
  | .moment (.both ..) => "datetime"
  | .list _ => "list"
  | .table _ => "dict"

end Value

end SqlSnippet
