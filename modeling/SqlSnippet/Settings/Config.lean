import SqlSnippet.Data.Value
import SqlSnippet.Files.Path
import SqlSnippet.Layout.Options
import SqlSnippet.Markup.Html

/-!
# Workspace settings

The settings of a workspace: words that are known beside the builtin ones, the classes that
categories are shown with, and how SQL is laid out. `Config.ofEntries` reads them from the entries
of a configuration file. A setting that is left out, or given a vacant value where it is a table,
a list of words or an indent style, has its standard value; anything else of the wrong shape is a
`ConfigFault`, and so is a number with too many digits where a text is expected. Of several faults
the first in this order is reported: the table of classes, the words, and then the settings of the
layout.
-/

namespace SqlSnippet

/-- What is wrong with the entries of a configuration file. -/
inductive ConfigFault where
  | sectionNotTable (name : Text)
  | wordsNotList (key : Text)
  | classesNotTable
  | unknownCategory (name : LooseText)
  | badIndentSize
  | unknownIndentStyle (name : LooseText)
  | badSplitStatements
  | unwritable
  deriving DecidableEq, Repr

/-- The wording of a fault, with escapes for halves of surrogate pairs in a name. -/
def ConfigFault.message : ConfigFault → String
  | .sectionNotTable name => "Section '" ++ String.ofList name ++ "' must be a table"
  | .wordsNotList key => "'" ++ String.ofList key ++ "' must be a list of words"
  | .classesNotTable => "'css_classes' must map categories to class names"
  | .unknownCategory name => "Unknown highlight category '" ++ String.ofList name.shown ++ "'"
  | .badIndentSize => "'indent_size' must be a positive integer"
  | .unknownIndentStyle name => "Unknown indent style '" ++ String.ofList name.shown ++ "'"
  | .badSplitStatements => "'split_statements' must be true or false"
  | .unwritable => "A number has too many digits"

/-- What may help against a fault. -/
def ConfigFault.hint? : ConfigFault → Option String
  | .unknownCategory _ =>
    some ("Valid categories: " ++ ", ".intercalate (Category.all.map Category.name))
  | .unknownIndentStyle _ => some "Use 'spaces' or 'tabs'"
  | _ => none

/-- How SQL is laid out by settings. -/
structure FormatSettings where
  indentStyle : IndentStyle
  indentSize : Int
  clauseWords : List LooseText
  splitStatements : Bool

/-- SQL is laid out in the standard way. -/
def FormatSettings.standard : FormatSettings :=
  ⟨.spaces, 4, standardClauseWords.map Text.loose, false⟩

/-- The settings of a workspace. -/
structure Config where
  root : Path
  extraKeywords : List LooseText
  extraFunctions : List LooseText
  classes : List (Category × LooseText)
  format : FormatSettings
  path : Option Path

/-- The words of a list that can stand in a text, which has no half of a surrogate pair. A clause
word that is left out here could still decide how the last characters of the others are compared
(`differInLast`); this is not followed. -/
def textWords (ws : List LooseText) : List Text :=
  ws.filterMap LooseText.text?

namespace Config

/-- The settings of a workspace without a configuration file. -/
def standard (root : Path) : Config :=
  ⟨root, [], [], [], .standard, none⟩

/-- The builtin words and the extra ones. -/
def vocabulary (c : Config) : Vocabulary :=
  .ofWords (reservedWords ++ textWords c.extraKeywords)
    (builtinFunctions ++ textWords c.extraFunctions)

/-- The class that each category is shown with. -/
def classNames (c : Config) : Category → LooseText :=
  changeNames c.classes fun k => Text.loose k.name.toList

/-- How SQL is laid out. -/
def layout (c : Config) : LayoutOptions where
  indentStyle := c.format.indentStyle
  indentSize := c.format.indentSize
  clauseWords := textWords c.format.clauseWords
  splitStatements := c.format.splitStatements

/-! ## Reading the entries of a file -/

/-- The value of a key, unless it is vacant. -/
def occupied? (es : Entries) (key : String) : Option Value :=
  (es.get? key.toList).filter (!·.isVacant)

/-- The table under a key; a vacant value counts as an empty one. -/
def readSection (es : Entries) (key : String) : Except ConfigFault Entries :=
  match occupied? es key with
  | none => .ok []
  | some (.table t) => .ok t
  | some _ => .error (.sectionNotTable key.toList)

/-- The text of a value. Like `Value.asText`, it is given however deep a value is. -/
def readText (v : Value) : Except ConfigFault LooseText :=
  if v.isWritable then .ok v.asText else .error .unwritable

/-- The words under a key: a list of them, or a single one. -/
def readWords (es : Entries) (key : String) : Except ConfigFault (List LooseText) :=
  match occupied? es key with
  | none => .ok []
  | some (.text s) => .ok [s]
  | some (.list vs) => vs.mapM readText
  | some _ => .error (.wordsNotList key.toList)

/-- The category that a name in any case stands for. -/
def categoryOf? (name : LooseText) : Option Category :=
  name.lower.text?.bind fun s => Category.ofName? (String.ofList s)

/-- The class that an entry gives to a category. -/
def readClass (entry : LooseText × Value) : Except ConfigFault (Category × LooseText) :=
  match categoryOf? entry.1 with
  | none => .error (.unknownCategory entry.1)
  | some c => (readText entry.2).map (c, ·)

/-- The classes of categories. -/
def readClasses (es : Entries) : Except ConfigFault (List (Category × LooseText)) :=
  match occupied? es "css_classes" with
  | none => .ok []
  | some (.table t) => t.mapM readClass
  | some _ => .error .classesNotTable

/-- The size of the indent, which is a positive whole number. -/
def readIndentSize (es : Entries) : Except ConfigFault Int :=
  match es.get? "indent_size".toList with
  | none => .ok FormatSettings.standard.indentSize
  | some (.whole n) => if 1 ≤ n then .ok n else .error .badIndentSize
  | some _ => .error .badIndentSize

/-- The indent style that a name in any case stands for. -/
def indentStyleOf? (name : LooseText) : Option IndentStyle :=
  name.lower.text?.bind fun s => IndentStyle.ofName? (String.ofList s)

/-- The style of the indent. -/
def readIndentStyle (es : Entries) : Except ConfigFault IndentStyle :=
  match occupied? es "indent_style" with
  | none => .ok .spaces
  | some v => do
    let name ← readText v
    match indentStyleOf? name with
    | none => .error (.unknownIndentStyle name.lower)
    | some style => .ok style

/-- Whether each statement is laid out on its own. -/
def readSplitStatements (es : Entries) : Except ConfigFault Bool :=
  match es.get? "split_statements".toList with
  | none => .ok false
  | some (.bool b) => .ok b
  | some _ => .error .badSplitStatements

/-- The words that start a line; only where the key is left out are they the standard ones. -/
def readClauseWords (es : Entries) : Except ConfigFault (List LooseText) :=
  match es.get? "clause_keywords".toList with
  | none => .ok FormatSettings.standard.clauseWords
  | some _ => readWords es "clause_keywords"

/-- The settings of the layout. -/
def readFormat (es : Entries) : Except ConfigFault FormatSettings := do
  let t ← readSection es "format"
  let indentSize ← readIndentSize t
  let indentStyle ← readIndentStyle t
  let splitStatements ← readSplitStatements t
  let clauseWords ← readClauseWords t
  return { indentStyle, indentSize, clauseWords, splitStatements }

/-- The settings that the entries of a configuration file give. -/
def ofEntries (root path : Path) (es : Entries) : Except ConfigFault Config := do
  let t ← readSection es "highlight"
  let classes ← readClasses t
  let extraKeywords ← readWords t "extra_keywords"
  let extraFunctions ← readWords t "extra_functions"
  let format ← readFormat es
  return { root, extraKeywords, extraFunctions, classes, format, path := some path }

end Config

end SqlSnippet
