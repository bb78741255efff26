import SqlSnippet.Text.Blank
import SqlSnippet.Text.Quoted

/-!
# Grammars of commands

A command takes options and operands. An option has names, some of one character after a dash and
some of a word after two dashes, and may have a value; a grammar lists the options of a command,
says how many operands it takes, and explains both.
-/

namespace SqlSnippet

/-- What an option asks for. -/
inductive OptionKind where
  | help
  | version
  | switch
  | value (choices : Option (List Text))
  deriving DecidableEq, Repr

/-- An option: its names, what it asks for, and the first names of options that may not come
before it. -/
structure OptionSpec where
  names : List Text
  kind : OptionKind
  excludes : List Text
  deriving DecidableEq, Repr

/-- How many operands are taken: exactly one, one or more of those that stand together, or the
first and everything after it. -/
inductive Arity where
  | one
  | several
  | rest
  deriving DecidableEq, Repr

/-- The operands of a command. -/
structure OperandSpec where
  name : String
  arity : Arity
  isRequired : Bool
  deriving DecidableEq, Repr

/-- The options and operands of a command, and the texts that explain them. -/
structure Grammar where
  program : String
  usage : String
  manual : String
  options : List OptionSpec
  operand : Option OperandSpec
  deriving DecidableEq, Repr

/-! ## Words about options -/

/-- An option in messages. -/
def OptionSpec.title (o : OptionSpec) : String :=
  "/".intercalate (o.names.map String.ofList)

/-- A message about an option. -/
def OptionSpec.complaint (o : OptionSpec) (message : String) : String :=
  "argument " ++ o.title ++ ": " ++ message

/-- The message about a text that stands with an option without a value. -/
def OptionSpec.ignoredText (o : OptionSpec) (text : Text) : String :=
  o.complaint ("ignored explicit argument " ++ String.ofList (quoted text))

/-- The message about a value that is none of the choices. -/
def invalidChoice (value : Text) (choices : List Text) : String :=
  "invalid choice: " ++ String.ofList (quoted value) ++ " (choose from " ++
    ", ".intercalate (choices.map fun c => String.ofList (quoted c)) ++ ")"

/-- Whether an option has a value. -/
def OptionSpec.hasValue (o : OptionSpec) : Bool :=
  match o.kind with
  | .value _ => true
  | _ => false

/-- An option that is given, and its value if it is given one. -/
abbrev Given := OptionSpec × Option Text

/-- What forbids an option with a value: the value is none of the choices, or an option came
before that excludes it. -/
def OptionSpec.objection? (o : OptionSpec) (value : Option Text) (before : List Given) :
    Option String :=
  match o.kind, value with
  | .value (some choices), some v =>
    if v ∈ choices then none else some (invalidChoice v choices)
  | _, _ =>
    (before.find? fun (p, _) => p.names.any (· ∈ o.excludes)).map fun (p, _) =>
      "not allowed with argument " ++ p.title

/-- Why the reading of arguments ends early. -/
inductive Halt where
  | help (g : Grammar)
  | version
  | refused (g : Grammar) (message : String)
  deriving DecidableEq, Repr

end SqlSnippet
